import MixRelay.Proofs.ReadingSteps
import MixRelay.Proofs.Runs

/-!
# The loop of the client listener

The listener serves its clients in a loop, one thing after the other; the network, the mixer and the
signal to stop act in between. The mixer closes a round channel by channel, and counts it last. So a
client may be read on while some channels are free already and the round is not yet counted.
-/
namespace MixRelay

namespace ClientListener

/-- Bytes of a client arrive, or the end of its stream. -/
def receive (l : ClientListener) (token : Nat) (bytes : Bytes) (ended : Bool) : ClientListener :=
  match l.connection? token with
  | none => l
  | some c => l.replace { c with unread := c.unread ++ bytes, ended := c.ended || ended }

/-- Takes the pause off a client. -/
def unpause (l : ClientListener) (token : Nat) : ClientListener :=
  match l.connection? token with
  | none => l
  | some c => l.replace { c with paused := false }

/-- A client that is admitted, and whose socket then cannot be watched: it goes at once. -/
def acceptInVain (l : ClientListener) (address : IpAddress) : ClientListener :=
  match l.limiter.connect address with
  | .error _ => { l with metrics := { l.metrics with rejected := l.metrics.rejected + 1 } }
  | .ok limiter =>
    let (id, draws, registry) := l.registry.createFresh l.draws
    { l with
      limiter := limiter.disconnect address
      registry := registry.discard id
      draws := draws
      nextToken := l.nextToken + 1 }

/-- The connection of a client fails. -/
def fail (l : ClientListener) (refused : Bool) (token : Nat) : List Message × ClientListener :=
  match l.connection? token with
  | none => ([], l)
  | some c => l.dismiss refused c .ended

/-- The paused clients. -/
def pausedTokens (l : ClientListener) : List Nat :=
  (l.connections.filter ClientConnection.paused).map ClientConnection.token

/-- An identifier is left for one more channel. -/
def HasRoom (l : ClientListener) : Prop := l.registry.channels.length < 2 ^ 32

instance (l : ClientListener) : Decidable l.HasRoom :=
  inferInstanceAs (Decidable (l.registry.channels.length < 2 ^ 32))

end ClientListener

/-- Between two things to do the loop is ready; while it reads from a client, it does nothing else. -/
inductive LoopStage
  | ready
  | reading (token : Nat)
  | ended
  deriving DecidableEq

theorem LoopStage.ready_ne_reading (token : Nat) : ready ≠ reading token := LoopStage.noConfusion

/-- The listener in its loop: the clients that this pass has still to read on, the channels that the
mixer has still to free before it counts the round that it closes, and whether the relay is to stop. -/
structure EventLoop where
  listener : ClientListener
  stage : LoopStage
  resuming : List Nat
  closing : Option (List ChannelId)
  stopped : Bool
  deriving DecidableEq

/-- What happens around the loop, and then what the loop does. When the relay is to stop, a message may
be refused. -/
inductive LoopEvent
  | arrive (token : Nat) (bytes : Bytes) (ended : Bool)
  | beginRound
  | free (id : ChannelId)
  | countRound
  | stop
  | connect (address : IpAddress)
  | connectInVain (address : IpAddress)
  | poll (token : Nat)
  | deliver (m : Message)
  | look
  | goOn (token : Nat)
  | read (refused : Bool)
  | fail (token : Nat) (refused : Bool)
  | finish
  deriving DecidableEq

namespace EventLoop

def start (settings : ListenerSettings) (limiter : ConnectionLimiter) (registry : ChannelRegistry)
    (draws : Draws) : EventLoop :=
  ⟨.start settings limiter registry draws, .ready, [], none, false⟩

/-- Nothing is under way, and the loop may take up the next thing. -/
def Idle (s : EventLoop) : Prop := s.stage = .ready ∧ s.resuming = []

instance (s : EventLoop) : Decidable s.Idle := inferInstanceAs (Decidable (_ ∧ _))

/-- The mixer starts to close the round. -/
def beginRound (s : EventLoop) : EventLoop :=
  if s.closing.isNone then { s with closing := some s.listener.registry.ids } else s

/-- The mixer frees the request slot of a channel whose turn has not come yet. -/
def free (s : EventLoop) (id : ChannelId) : EventLoop :=
  match s.closing with
  | none => s
  | some left =>
    if id ∈ left then
      { s with
        listener := { s.listener with registry := s.listener.registry.modify id Channel.clearRequest }
        closing := some (left.filter fun other => other ≠ id) }
    else s

/-- The mixer counts the round once all channels are free. -/
def countRound (s : EventLoop) : EventLoop :=
  if s.closing = some [] then
    { s with
      listener := { s.listener with registry := s.listener.registry.countRequestRound }
      closing := none }
  else s

/-- The loop looks whether a round has been counted; the paused clients are read on then. -/
def look (s : EventLoop) : EventLoop :=
  if s.listener.registry.requestRound = s.listener.seenRound then s
  else { s with
    listener := { s.listener with seenRound := s.listener.registry.requestRound }
    resuming := s.listener.pausedTokens }

/-- One turn of reading from the client that is being read. -/
def read (s : EventLoop) (refused : Bool) : List Message × EventLoop :=
  match s.stage with
  | .reading token =>
    let turn := s.listener.readOnce (s.stopped && refused) token
    (turn.2.1, { s with listener := turn.2.2, stage := if turn.1 then .reading token else .ready })
  | _ => ([], s)

/-- A client whose connection may fail now: it is being read, or its turn to be read on is not ahead. -/
def MayFail (s : EventLoop) (token : Nat) : Prop :=
  s.stage = .reading token ∨ s.stage = .ready ∧ token ∉ s.resuming

instance (s : EventLoop) (token : Nat) : Decidable (s.MayFail token) := inferInstanceAs (Decidable (_ ∨ _))

/-- One event, with the messages that are handed on in it. What the loop does not do now leaves all as it
is. -/
def act (s : EventLoop) : LoopEvent → List Message × EventLoop
  | .arrive token bytes ended => ([], { s with listener := s.listener.receive token bytes ended })
  | .beginRound => ([], s.beginRound)
  | .free id => ([], s.free id)
  | .countRound => ([], s.countRound)
  | .stop => ([], { s with stopped := true })
  | .connect address =>
    ([], if s.Idle ∧ s.listener.HasRoom then { s with listener := (s.listener.accept address).2 } else s)
  | .connectInVain address =>
    ([], if s.Idle ∧ s.listener.HasRoom then { s with listener := s.listener.acceptInVain address } else s)
  | .poll token => ([], if s.Idle then { s with stage := .reading token } else s)
  | .deliver m => ([], if s.Idle then { s with listener := (s.listener.deliver m).2 } else s)
  | .look => ([], if s.Idle then s.look else s)
  | .goOn token =>
    ([], if s.stage = .ready ∧ token ∈ s.resuming then
      { s with
        listener := s.listener.unpause token
        stage := .reading token
        resuming := s.resuming.filter fun other => other ≠ token }
    else s)
  | .read refused => s.read refused
  | .fail token refused =>
    if s.MayFail token then
      let left := s.listener.fail (s.stopped && refused) token
      (left.1, { s with listener := left.2, stage := .ready })
    else ([], s)
  | .finish => ([], if s.Idle then { s with listener := s.listener.closeAll, stage := .ended } else s)

def next (s : EventLoop) (e : LoopEvent) : EventLoop := (s.act e).2

/-- The messages that are handed on in a run. -/
def handedAlong (s : EventLoop) (events : List LoopEvent) : List Message :=
  outputs next (fun s e => (s.act e).1) s events

end EventLoop
end MixRelay
