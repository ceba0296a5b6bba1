import MixRelay.ClientStream
import MixRelay.ConnectionLimiter
import MixRelay.EdgeFrames

/-! # Serving the clients of the first relay

Each client has a channel. The listener reads its requests, writes its replies, and tears it down
when it leaves or sends too long a frame: then its channel is released, unless this relay is also
the last, and forgotten. Clients whose request of the round is taken are read again in the next
round. -/
namespace MixRelay

structure ListenerSettings where
  limits : StreamLimits
  isLast : Bool
  backlog : Nat
  deriving DecidableEq

structure ListenerMetrics where
  accepted : Nat
  rejected : Nat
  requestsEnqueued : Nat
  repliesWritten : Nat
  deferredReads : Nat
  protocolFaults : Nat
  disconnects : Nat
  deriving DecidableEq

def ListenerMetrics.zero : ListenerMetrics := ⟨0, 0, 0, 0, 0, 0, 0⟩

/-- The counters in their order. -/
def ListenerMetrics.counts (m : ListenerMetrics) : List Nat :=
  [m.accepted, m.rejected, m.requestsEnqueued, m.repliesWritten, m.deferredReads, m.protocolFaults,
    m.disconnects]

/-- A connected client: its token, its address and channel, what it is in the middle of sending, and
the bytes that have arrived and are not read yet. -/
structure ClientConnection where
  token : Nat
  address : IpAddress
  channel : ChannelId
  stage : ReadStage
  paused : Bool
  unread : Bytes
  ended : Bool
  deriving DecidableEq

structure ClientListener where
  settings : ListenerSettings
  limiter : ConnectionLimiter
  connections : List ClientConnection
  tokens : List (ChannelId × Nat)
  nextToken : Nat
  seenRound : Nat
  metrics : ListenerMetrics
  registry : ChannelRegistry
  draws : Draws
  deriving DecidableEq

namespace ClientListener

def start (settings : ListenerSettings) (limiter : ConnectionLimiter) (registry : ChannelRegistry)
    (draws : Draws) : ClientListener :=
  ⟨settings, limiter, [], [], 0, registry.requestRound, .zero, registry, draws⟩

def connection? (l : ClientListener) (token : Nat) : Option ClientConnection :=
  l.connections.find? fun c => c.token = token

def token? (l : ClientListener) (id : ChannelId) : Option Nat :=
  (l.tokens.find? fun entry => entry.1 = id).map (·.2)

def replace (l : ClientListener) (c : ClientConnection) : ClientListener :=
  { l with connections := l.connections.map fun d => if d.token = c.token then c else d }

/-- A client connects. It gets a channel under a fresh identifier, unless a cap refuses it; the
answer is its token. -/
def accept (l : ClientListener) (address : IpAddress) : Option Nat × ClientListener :=
  match l.limiter.connect address with
  | .error _ => (none, { l with metrics := { l.metrics with rejected := l.metrics.rejected + 1 } })
  | .ok limiter =>
    let (id, draws, registry) := l.registry.createFresh l.draws
    (some l.nextToken, { l with
      limiter := limiter
      registry := registry
      draws := draws
      connections := l.connections ++ [⟨l.nextToken, address, id, .length [], false, [], false⟩]
      tokens := l.tokens ++ [(id, l.nextToken)]
      nextToken := l.nextToken + 1
      metrics := { l.metrics with accepted := l.metrics.accepted + 1 } })

/-- A length above the limit is a fault as well. -/
def countClose (m : ListenerMetrics) (reason : CloseReason) : ListenerMetrics :=
  let m := match reason with
    | .tooLong _ => { m with protocolFaults := m.protocolFaults + 1 }
    | _ => m
  { m with disconnects := m.disconnects + 1 }

/-- Forgets a client. The relays behind are told of it, unless there are none or this one stops. -/
def tearDown (l : ClientListener) (c : ClientConnection) (reason : CloseReason) :
    List Message × ClientListener :=
  (if l.settings.isLast || reason == .stopped then [] else [.release c.channel], { l with
    limiter := l.limiter.disconnect c.address
    connections := l.connections.filter fun d => d.token ≠ c.token
    tokens := l.tokens.filter fun entry => entry.1 ≠ c.channel
    registry := l.registry.discard c.channel
    metrics := countClose l.metrics reason })

/-- The listener after reading from a client, which is still there. -/
def settle (l : ClientListener) (c : ClientConnection) (s : ClientStream) (rest : Bytes) :
    ClientConnection × ClientListener :=
  let c := { c with stage := s.stage, paused := s.paused, unread := rest }
  (c, { l.replace c with
    registry := l.registry.modify c.channel fun _ => s.channel
    metrics := { l.metrics with
      requestsEnqueued := l.metrics.requestsEnqueued + s.requests.length
      deferredReads := l.metrics.deferredReads + s.pauses
      protocolFaults := l.metrics.protocolFaults + s.faults } })

/-- Reads what a client has sent, as far as the round allows; hands its requests on. -/
def readFrom (l : ClientListener) (token : Nat) : List Message × ClientListener :=
  match l.connection? token with
  | none => ([], l)
  | some c =>
    match l.registry.find? c.channel with
    | none => ([], l)
    | some channel =>
      let stream : ClientStream := ⟨c.stage, c.paused, channel, [], 0, 0⟩
      let (s, verdict, rest) := stream.readAll l.settings.limits c.unread
      let (c, l) := l.settle c s rest
      let verdict := verdict.or (if c.ended && rest.isEmpty && !s.mustPause then some .ended else none)
      match verdict with
      | none => (s.requests, l)
      | some reason =>
        let (released, l) := l.tearDown c reason
        (s.requests ++ released, l)

/-- Bytes of a client arrive. They are looked at unless its reading is paused. -/
def arrive (l : ClientListener) (token : Nat) (bytes : Bytes) (ended : Bool) :
    List Message × ClientListener :=
  match l.connection? token with
  | none => ([], l)
  | some c =>
    let l := l.replace { c with unread := c.unread ++ bytes, ended := c.ended || ended }
    if c.paused then ([], l) else l.readFrom token

/-- Writes a reply to the client of a channel, and tells the client and the frame. The client's stream is
taken to accept the frame whole, so that nothing waits to be written later. -/
def deliver (l : ClientListener) : Message → Option (Nat × Bytes) × ClientListener
  | .reply id payload =>
    match l.token? id with
    | none => (none, l)
    | some token =>
      (some (token, Frame.encodeClient payload),
        { l with metrics := { l.metrics with repliesWritten := l.metrics.repliesWritten + 1 } })
  | _ => (none, l)

/-- Takes the pause off a client and reads on. -/
def resumeOne (l : ClientListener) (token : Nat) : List Message × ClientListener :=
  match l.connection? token with
  | none => ([], l)
  | some c => (l.replace { c with paused := false }).readFrom token

/-- When a round has closed since the last look, every paused client is read again. -/
def resumeDeferred (l : ClientListener) : List Message × ClientListener :=
  if l.registry.requestRound = l.seenRound then ([], l)
  else
    let paused := l.connections.filter ClientConnection.paused
    paused.foldl (fun (sent, l) c =>
      let (more, l) := l.resumeOne c.token
      (sent ++ more, l)) ([], { l with seenRound := l.registry.requestRound })

/-- The relay stops: every client goes, and nobody is told. -/
def closeAll (l : ClientListener) : ClientListener :=
  l.connections.foldl (fun l c => (l.tearDown c .stopped).2) l

end ClientListener
end MixRelay
