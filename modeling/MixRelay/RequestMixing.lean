import MixRelay.ChannelRegistry

/-! # Mixing requests in rounds

The mixer holds requests back until a round is full, until the previous relay announces the next
round, or until the round has lasted too long. A full round leaves in shuffled order, each request
without this relay's header; behind the first relay its size goes ahead of it. Releases pass at
once. The order in which a round leaves is an argument: any function that permutes its list. -/
namespace MixRelay

structure MixerSettings where
  roundSize : Nat
  roundTimeoutMs : Nat
  headerUnit : Nat
  isFirst : Bool
  isLast : Bool
  deriving DecidableEq

/-- What a mixer meets: the next message of its queue, or the end of a round's time. -/
inductive MixerEvent
  | arrival (message : Message)
  | timeout
  deriving DecidableEq

structure RequestMixer where
  settings : MixerSettings
  roundSize : Nat
  batch : List Message
  deriving DecidableEq

/-- A step of a mixer: its next state, what leaves, and whether a round closes behind it. -/
structure RequestMixerStep where
  mixer : RequestMixer
  sent : List Message
  closesRound : Bool
  deriving DecidableEq

/-- The registry behind a step: a round that closes frees the request slots. -/
def RequestMixerStep.close (s : RequestMixerStep) (r : ChannelRegistry) : ChannelRegistry :=
  if s.closesRound then r.closeRequestRound else r

namespace RequestMixer

def start (settings : MixerSettings) : RequestMixer := ⟨settings, max 1 settings.roundSize, []⟩

/-- The size of the round, unless this relay is the last, and its requests. -/
def announced (m : RequestMixer) (round : List Message) : List Message :=
  let requests := round.map (Message.stripHeader m.settings.headerUnit)
  if m.settings.isLast then requests
  else .batchSize (UInt32.ofNat round.length) :: requests

/-- Sends the batch. The first relay then closes the request round. -/
def flush (shuffle : List Message → List Message) (m : RequestMixer) : RequestMixerStep :=
  ⟨{ m with batch := [] }, m.announced (shuffle m.batch), m.settings.isFirst⟩

def idle (m : RequestMixer) : RequestMixerStep := ⟨m, [], false⟩

def flushUnlessEmpty (shuffle : List Message → List Message) (m : RequestMixer) : RequestMixerStep :=
  if m.batch.isEmpty then m.idle else m.flush shuffle

/-- Adds a request; the round may be full with it. -/
def collect (shuffle : List Message → List Message) (m : RequestMixer) (request : Message) :
    RequestMixerStep :=
  let m := { m with batch := m.batch ++ [request] }
  if m.roundSize ≤ m.batch.length then m.flush shuffle else m.idle

def step (shuffle : List Message → List Message) (m : RequestMixer) :
    MixerEvent → RequestMixerStep
  | .timeout => m.flushUnlessEmpty shuffle
  | .arrival message =>
    match message with
    | .establish .. | .message .. => m.collect shuffle message
    | .release _ => ⟨m, [message], false⟩
    | .batchSize n =>
      let m := if n = 0 then m else { m with roundSize := n.toNat }
      m.flushUnlessEmpty shuffle
    | .reply .. => m.idle

end RequestMixer
end MixRelay
