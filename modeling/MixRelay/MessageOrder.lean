import MixRelay.MixMessages

/-! # Batches up to their order

The order in which a batch leaves is chance. To compare batches, every run of messages that were
shuffled together is brought into one order: by channel, then kind, then payload. -/
namespace MixRelay

/-- An order in which a batch may leave. -/
structure Shuffle where
  order : List Message → List Message
  perm : ∀ messages, (order messages).Perm messages

/-- The order that a batch is in already. -/
def Shuffle.keep : Shuffle := ⟨id, fun _ => .refl _⟩

/-- Byte strings compare from the front; a string comes before those that it starts. -/
def Bytes.precedes : Bytes → Bytes → Bool
  | [], _ => true
  | _ :: _, [] => false
  | a :: as, b :: bs => a < b || (a == b && Bytes.precedes as bs)

namespace Message

/-- The channel and the kind in front of the payload. -/
def orderKey (m : Message) : Nat := (m.channel?.getD 0).toNat * 256 + m.kind.code.toNat

def precedes (a b : Message) : Bool :=
  a.orderKey < b.orderKey || (a.orderKey == b.orderKey && Bytes.precedes a.payload b.payload)

def isReply : Message → Bool
  | .reply .. => true
  | _ => false

/-- Sorts every run of messages of a sort; `run` holds the run so far. The others keep their places. -/
def sortRunsFrom (inRun : Message → Bool) (run : List Message) : List Message → List Message
  | [] => run.mergeSort precedes
  | m :: rest =>
    if inRun m then sortRunsFrom inRun (run ++ [m]) rest
    else run.mergeSort precedes ++ m :: sortRunsFrom inRun [] rest

def sortRuns (inRun : Message → Bool) (messages : List Message) : List Message :=
  sortRunsFrom inRun [] messages

end Message

end MixRelay
