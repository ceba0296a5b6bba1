import MixRelay.ChannelRegistry
import MixRelay.ReplyPayloads

/-! # Sizes of the replies of a round

All replies of a round are equally long. The last relay samples how much reply data each channel
holds. Once enough channels hold enough, or the round has lasted too long, it takes the weighted
median of the volumes, rounds it with the reply header to whole blocks under a cap, cuts one reply
for each channel, closes the reply round and ends it with a batch size marker. -/
namespace MixRelay

structure SizingSettings where
  pollIntervalMs : Nat
  minVolume : Nat
  minFraction : Float
  timeoutMs : Nat
  weight : Float
  blockSize : Nat
  headerLength : Nat
  maxReplyLength : Nat

namespace Sizing

def ofCount (n : Nat) : Float := (UInt64.ofNat n).toFloat

/-- A quantile brought into the unit interval; what is no number stays. -/
def clampUnit (g : Float) : Float := if g < 0 then 0 else if 1 < g then 1 else g

/-- The volume at quantile `g` of an ascending list, interpolated between the two order statistics
around the position `g * (n - 1)`; zero for no volumes. -/
def weightedMedian (sorted : List Nat) (g : Float) : Float :=
  if sorted.isEmpty then 0
  else
    let position := clampUnit g * ofCount (sorted.length - 1)
    let low := position.floor.toUInt64
    let high := position.ceil.toUInt64
    let fraction := position - low.toFloat
    let a := ofCount (sorted.getD low.toNat 0)
    let b := ofCount (sorted.getD high.toNat 0)
    a + fraction * (b - a)

/-- Takes whole blocks off a length while it is above the cap and has more than one. -/
def shrink (blockSize max length : Nat) : Nat :=
  if max < length ∧ blockSize < length ∧ 0 < blockSize then
    shrink blockSize max (length - blockSize)
  else length
termination_by length
decreasing_by omega

/-- The reply data size whose payload is a whole number of blocks: the nearest one, halves up, at
least one block, and under the cap if that has room for a block. -/
def alignToBlocks (size blockSize headerLength max : Nat) : Nat :=
  let rounded := (size + headerLength + blockSize / 2) / blockSize * blockSize
  shrink blockSize max (Nat.max rounded blockSize) - headerLength

/-- Blocks of no bytes cannot be counted. -/
def alignToBlocks? (size blockSize headerLength max : Nat) : Option Nat :=
  if blockSize = 0 then none else some (alignToBlocks size blockSize headerLength max)

/-- Do enough channels hold enough data to end the round early? -/
def isDue (volumes : List Nat) (minVolume : Nat) (minFraction : Float) : Bool :=
  let filled := volumes.countP fun v => minVolume ≤ v
  !volumes.isEmpty && minFraction * ofCount volumes.length ≤ ofCount filled

end Sizing

inductive SizingPhase
  | collecting
  | deciding
  | flushing
  deriving DecidableEq

def SizingPhase.name : SizingPhase → String
  | .collecting => "Collecting"
  | .deciding => "Deciding"
  | .flushing => "Flushing"

inductive FlushTrigger
  | volume
  | timeout
  deriving DecidableEq

def FlushTrigger.name : FlushTrigger → String
  | .volume => "Volume"
  | .timeout => "Timeout"

structure SizingMetrics where
  earlyFlushes : Nat
  timeoutFlushes : Nat
  replies : Nat
  paddingBytes : Nat
  lastReplySize : Nat
  deriving DecidableEq

def SizingMetrics.zero : SizingMetrics := ⟨0, 0, 0, 0, 0⟩

/-- The counters in their order. -/
def SizingMetrics.counts (m : SizingMetrics) : List Nat :=
  [m.earlyFlushes, m.timeoutFlushes, m.replies, m.paddingBytes, m.lastReplySize]

/-- The counters after a round that ended for a reason. -/
def SizingMetrics.countRound (m : SizingMetrics) (trigger : FlushTrigger) (size : Nat) :
    SizingMetrics :=
  match trigger with
  | .volume => { m with earlyFlushes := m.earlyFlushes + 1, lastReplySize := size }
  | .timeout => { m with timeoutFlushes := m.timeoutFlushes + 1, lastReplySize := size }

/-- The counters after a reply of a size with so many data bytes. -/
def SizingMetrics.countReply (m : SizingMetrics) (size valid : Nat) : SizingMetrics :=
  { m with replies := m.replies + 1, paddingBytes := m.paddingBytes + (size - valid) }

structure ReplySizer where
  settings : SizingSettings
  phase : SizingPhase
  metrics : SizingMetrics

/-- Replies cut so far in a round, with the state that cutting them leaves. -/
structure ReplyCut where
  registry : ChannelRegistry
  metrics : SizingMetrics
  replies : List Message

namespace ReplyCut

/-- Cuts a reply for one channel unless it has had one in the round. -/
def add (size : Nat) (cut : ReplyCut) (id : ChannelId) : ReplyCut :=
  match cut.registry.find? id with
  | none => cut
  | some channel =>
    if channel.replyClaimed then cut
    else
      let (chunk, valid, channel) := channel.claimReply.2.takeReply size
      ⟨cut.registry.modify id fun _ => channel, cut.metrics.countReply size valid,
        cut.replies ++ [.reply id (ReplyPayload.encode chunk valid)]⟩

end ReplyCut

/-- A poll that flushed: the size and reason of the round, and its messages. -/
structure SizedRound where
  size : Nat
  trigger : FlushTrigger
  messages : List Message

namespace ReplySizer

def start (settings : SizingSettings) : ReplySizer := ⟨settings, .collecting, .zero⟩

/-- The reply data size for some volumes; none if blocks have no bytes. -/
def decide? (s : SizingSettings) (volumes : List Nat) : Option Nat :=
  let median := Sizing.weightedMedian (volumes.mergeSort (· ≤ ·)) s.weight
  Sizing.alignToBlocks? median.round.toUInt64.toNat s.blockSize s.headerLength s.maxReplyLength

/-- Cuts replies of one size for the channels named, in order. -/
def cut (s : ReplySizer) (registry : ChannelRegistry) (ids : List ChannelId) (size : Nat) : ReplyCut :=
  ids.foldl (ReplyCut.add size) ⟨registry, s.metrics, []⟩

/-- Why the round ends now, if it does. -/
def trigger? (s : ReplySizer) (volumes : List Nat) (elapsed : Bool) : Option FlushTrigger :=
  if Sizing.isDue volumes s.settings.minVolume s.settings.minFraction then some .volume
  else if elapsed then some .timeout
  else none

/-- Ends the round: cuts the replies, closes the reply round, and marks its size. -/
def flush (s : ReplySizer) (registry : ChannelRegistry) (trigger : FlushTrigger) (size : Nat) :
    SizedRound × ReplySizer × ChannelRegistry :=
  let done := s.cut registry (registry.establishedChannels.map Channel.id) size
  (⟨size, trigger, done.replies ++ [.batchSize (UInt32.ofNat done.replies.length)]⟩,
    ⟨s.settings, .collecting, done.metrics.countRound trigger size⟩, done.registry.closeReplyRound)

/-- Takes one sample and ends the round if it is due; `elapsed` tells whether its time is over. No
round is due without established channels. None if blocks have no bytes. -/
def poll? (s : ReplySizer) (registry : ChannelRegistry) (elapsed : Bool) :
    Option (Option SizedRound × ReplySizer × ChannelRegistry) :=
  let s := { s with phase := .collecting }
  let volumes := registry.establishedChannels.map Channel.buffered
  if volumes.isEmpty then some (none, s, registry)
  else
    match s.trigger? volumes elapsed with
    | none => some (none, s, registry)
    | some trigger =>
      (decide? s.settings volumes).map fun size =>
        let (round, s, registry) := s.flush registry trigger size
        (some round, s, registry)

end ReplySizer
end MixRelay
