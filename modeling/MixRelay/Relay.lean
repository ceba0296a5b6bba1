import MixRelay.EdgeTraffic
import MixRelay.ExitDelivery
import MixRelay.Hosts
import MixRelay.ReplyMixing
import MixRelay.RelaySettings

/-! # A relay and its parts

Every relay mixes. The first one serves the clients; the others have an edge from the previous relay.
The last one sizes the replies of a destination that echoes; the others have an edge to the next
relay. A relay on its own is first and last. What arrives passes through the parts at once; the ends
of rounds come from outside. -/
namespace MixRelay

structure Relay where
  settings : RelaySettings
  registry : ChannelRegistry
  requestMixer : RequestMixer
  replyMixer : ReplyMixer
  sizer : Option ReplySizer
  listener : Option ClientListener
  inbound : Option InboundEdge
  outbound : Option OutboundEdge
  /-- Where clients, or else the previous relay, connect. -/
  address : Option SocketAddress
  /-- Bytes written for the next relay. -/
  toNext : Bytes
  /-- Bytes written for the previous relay. -/
  toPrevious : Bytes
  /-- Frames written for clients, under their tokens. -/
  toClients : List (Nat × Bytes)

namespace Relay

/-- A relay that mixes, and on the last place sizes replies. -/
def core (s : RelaySettings) : Relay where
  settings := s
  registry := .empty s.mixing.proxyCapacity
  requestMixer := .start s.forMixer
  replyMixer := .start s.isLast
  sizer := if s.isLast then some (.start s.forSizing) else none
  listener := none
  inbound := none
  outbound := none
  address := none
  toNext := []
  toPrevious := []
  toClients := []

/-- Listens for the previous relay, and publishes a fresh key under the address. -/
def listenForPrevious (r : Relay) (host : Host) (keys : KeyExchange) (draws : Draws) :
    Except RelayError (Relay × KeyExchange × Draws) := do
  let wanted ← r.settings.inboundAddress.mapError .settings
  let address ← (host wanted).mapError fun e => .link (.bind wanted e)
  let (fresh, draws) := draws.take 32
  let (key, keys) := keys.publish address (.ofDraws fresh)
  .ok ({ r with inbound := some (.start r.settings.forInbound key draws), address := some address },
    keys, draws)

/-- Listens for clients. -/
def listenForClients (r : Relay) (host : Host) (draws : Draws) : Except RelayError Relay := do
  let wanted ← r.settings.listenerAddress.mapError .settings
  let address ← (host wanted).mapError fun e => .listener (.bind wanted e)
  let limiter := .new r.settings.listener.maxConnections r.settings.listener.maxPerAddress
  .ok { r with
    listener := some (.start r.settings.forListener limiter r.registry draws)
    address := some address }

/-- Fetches the key of the next relay and connects to it. -/
def joinNext (r : Relay) (keys : KeyExchange) (draws : Draws) : Except RelayError Relay := do
  let address ← r.settings.outboundAddress.mapError .settings
  let key ← (keys.fetch address).mapError fun e => .link (.keyExchange e)
  .ok { r with outbound := some (.start r.settings.framing.maxFrameLength key draws) }

/-- Starts the parts in turn; the first that fails stops the relay. The edge from the previous relay
comes first, so that relays may start from the last to the first. -/
def start (s : RelaySettings) (host : Host) (keys : KeyExchange) (draws : Draws) :
    Except RelayError (Relay × KeyExchange) := do
  s.validate.mapError .settings
  let (r, keys, draws) ←
    if s.isFirst then .ok (core s, keys, draws) else (core s).listenForPrevious host keys draws
  let r ← if s.isFirst then r.listenForClients host draws else .ok r
  let r ← if s.isLast then .ok r else r.joinNext keys draws
  .ok (r, keys)

/-- Passes mixed requests on to the next relay, or to the destination behind the last one. -/
def forward (r : Relay) (sent : List Message) : Relay :=
  match r.outbound with
  | some edge =>
    let (bytes, edge) := edge.send sent
    { r with outbound := some edge, toNext := r.toNext ++ bytes }
  | none =>
    { r with registry := sent.foldl (fun registry m =>
        (ExitDelivery.step .loopback () registry m).2) r.registry }

/-- Passes mixed replies back to the previous relay, or to the clients of the first one. -/
def giveBack (r : Relay) (sent : List Message) : Relay :=
  match r.inbound, r.listener with
  | some edge, _ =>
    let (bytes, edge) := edge.send sent
    { r with inbound := some edge, toPrevious := r.toPrevious ++ bytes }
  | none, some listener =>
    sent.foldl (fun r m =>
      let (frame, listener) := ClientListener.deliver (r.listener.getD listener) m
      { r with listener := some listener, toClients := r.toClients ++ frame.toList }) r
  | none, none => r

def mixRequest (r : Relay) (e : MixerEvent) : Relay :=
  let s := r.requestMixer.step id e
  { r with requestMixer := s.mixer, registry := s.close r.registry }.forward s.sent

def mixReply (r : Relay) (e : MixerEvent) : Relay :=
  let s := r.replyMixer.step id r.registry.establishedChannels.length e
  { r with replyMixer := s.mixer, registry := s.close r.registry }.giveBack s.sent

def mixRequests (r : Relay) (messages : List Message) : Relay :=
  messages.foldl (fun r m => r.mixRequest (.arrival m)) r

def mixReplies (r : Relay) (messages : List Message) : Relay :=
  messages.foldl (fun r m => r.mixReply (.arrival m)) r

/-- Lets the listener act on the registry, and mixes the requests it hands on. -/
def withListener (r : Relay) (act : ClientListener → List Message × ClientListener) : Relay :=
  match r.listener with
  | none => r
  | some listener =>
    let (sent, listener) := act { listener with registry := r.registry }
    { r with listener := some listener, registry := listener.registry }.mixRequests sent

/-- Reads on from clients as long as rounds close; each pass but the last reads a byte at least. -/
def resumeClients : Nat → Relay → Relay
  | 0, r => r
  | passes + 1, r =>
    match r.listener with
    | none => r
    | some listener =>
      if listener.seenRound = r.registry.requestRound then r
      else (r.withListener ClientListener.resumeDeferred).resumeClients passes

/-- The bytes of clients that wait to be read. -/
def unreadByClients (r : Relay) : Nat :=
  match r.listener with
  | none => 0
  | some listener => (listener.connections.flatMap ClientConnection.unread).length

def resume (r : Relay) : Relay := r.resumeClients (r.unreadByClients + 2)

/-- A client connects; the answer is its token, unless it is refused. -/
def connectClient (r : Relay) (address : IpAddress) : Option Nat × Relay :=
  match r.listener with
  | none => (none, r)
  | some listener =>
    let (token, listener) := { listener with registry := r.registry }.accept address
    (token, { r with listener := some listener, registry := listener.registry })

/-- Bytes of a client arrive, and maybe the end of its stream. -/
def hearClient (r : Relay) (token : Nat) (bytes : Bytes) (ended : Bool) : Relay :=
  (r.withListener fun l => l.arrive token bytes ended).resume

def readPrevious : Nat → Relay → Relay
  | 0, r => r
  | frames + 1, r =>
    match r.inbound.bind fun edge => edge.receiveNext? r.registry with
    | none => r
    | some (messages, edge, registry) =>
      ({ r with inbound := some edge, registry := registry }.mixRequests messages).readPrevious frames

/-- The previous relay connects. -/
def acceptPrevious (r : Relay) : Relay := { r with inbound := r.inbound.map InboundEdge.accept }

/-- Bytes of the previous relay arrive. -/
def hearPrevious (r : Relay) (bytes : Bytes) : Relay :=
  { r with inbound := r.inbound.map (InboundEdge.arrive · bytes) }.readPrevious (bytes.length + 1)

def readNext : Nat → Relay → Relay
  | 0, r => r
  | frames + 1, r =>
    match r.outbound.bind fun edge => edge.receiveNext? r.registry with
    | none => r
    | some (messages, edge, registry) =>
      ({ r with outbound := some edge, registry := registry }.mixReplies messages).readNext frames

/-- Bytes of the next relay arrive. -/
def hearNext (r : Relay) (bytes : Bytes) : Relay :=
  { r with outbound := r.outbound.map (OutboundEdge.arrive · bytes) }.readNext (bytes.length + 1)

/-- The rounds of both mixers have lasted long enough. -/
def endRounds (r : Relay) : Relay := ((r.mixRequest .timeout).mixReply .timeout).resume

/-- The last relay takes a sample of its reply volumes; the reply round may have lasted long enough. -/
def sample (r : Relay) (elapsed : Bool) : Relay :=
  match r.sizer.bind fun sizer => sizer.poll? r.registry elapsed with
  | none => r
  | some (round, sizer, registry) =>
    let r := { r with sizer := some sizer, registry := registry }
    match round with
    | none => r
    | some round => r.mixReplies round.messages

/-- Takes out the bytes for the next relay. -/
def takeToNext (r : Relay) : Bytes × Relay := (r.toNext, { r with toNext := [] })

/-- Takes out the bytes for the previous relay. -/
def takeToPrevious (r : Relay) : Bytes × Relay := (r.toPrevious, { r with toPrevious := [] })

end Relay
end MixRelay
