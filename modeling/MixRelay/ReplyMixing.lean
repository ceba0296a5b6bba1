import MixRelay.RequestMixing

/-! # Mixing replies in reply rounds

Behind the sizing of the last relay a round is what a batch size marker ends. On the other relays it
is full when there are as many replies as established channels. It leaves in shuffled order, and
relays other than the last then close the reply round. -/
namespace MixRelay

structure ReplyMixer where
  isLast : Bool
  batch : List Message
  deriving DecidableEq

structure ReplyMixerStep where
  mixer : ReplyMixer
  sent : List Message
  closesRound : Bool
  deriving DecidableEq

/-- The registry behind a step: a round that closes frees the reply slots. -/
def ReplyMixerStep.close (s : ReplyMixerStep) (r : ChannelRegistry) : ChannelRegistry :=
  if s.closesRound then r.closeReplyRound else r

namespace ReplyMixer

def start (isLast : Bool) : ReplyMixer := ⟨isLast, []⟩

def flush (shuffle : List Message → List Message) (m : ReplyMixer) : ReplyMixerStep :=
  ⟨{ m with batch := [] }, shuffle m.batch, !m.isLast⟩

def idle (m : ReplyMixer) : ReplyMixerStep := ⟨m, [], false⟩

def flushUnlessEmpty (shuffle : List Message → List Message) (m : ReplyMixer) : ReplyMixerStep :=
  if m.batch.isEmpty then m.idle else m.flush shuffle

/-- Adds a reply; with one for every established channel the round is full. -/
def collect (shuffle : List Message → List Message) (established : Nat) (m : ReplyMixer)
    (reply : Message) : ReplyMixerStep :=
  let m := { m with batch := m.batch ++ [reply] }
  if !m.isLast && max 1 established ≤ m.batch.length then m.flush shuffle else m.idle

/-- One step, with the number of channels that are established at the time. -/
def step (shuffle : List Message → List Message) (established : Nat) (m : ReplyMixer) :
    MixerEvent → ReplyMixerStep
  | .timeout => m.flushUnlessEmpty shuffle
  | .arrival message =>
    match message with
    | .reply .. => m.collect shuffle established message
    | .batchSize _ => if m.isLast then m.flushUnlessEmpty shuffle else m.idle
    | _ => m.idle

end ReplyMixer

/-- The two mixers of a relay with the registry whose rounds they close. -/
structure BatchMixer where
  requests : RequestMixer
  replies : ReplyMixer
  registry : ChannelRegistry
  deriving DecidableEq

namespace BatchMixer

def start (settings : MixerSettings) (registry : ChannelRegistry) : BatchMixer :=
  ⟨.start settings, .start settings.isLast, registry⟩

def onRequest (shuffle : List Message → List Message) (b : BatchMixer) (e : MixerEvent) :
    List Message × BatchMixer :=
  let s := b.requests.step shuffle e
  (s.sent, { b with requests := s.mixer, registry := s.close b.registry })

def onReply (shuffle : List Message → List Message) (b : BatchMixer) (e : MixerEvent) :
    List Message × BatchMixer :=
  let s := b.replies.step shuffle b.registry.establishedChannels.length e
  (s.sent, { b with replies := s.mixer, registry := s.close b.registry })

end BatchMixer
end MixRelay
