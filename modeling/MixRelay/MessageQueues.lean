import MixRelay.MixMessages

/-! # Bounded queues of messages

A full queue makes its producer wait and an empty one its consumer; either waits no longer once the
relay stops. An attempt tells whether it is done, would wait, or is refused. -/
namespace MixRelay

inductive QueueError
  | stopped
  | timedOut
  deriving DecidableEq

def QueueError.message : QueueError → String
  | .stopped => "relay is shutting down"
  | .timedOut => "timed out waiting for a message"

inductive Attempt (α : Type)
  | done (value : α)
  | wait
  | refused (error : QueueError)
  deriving DecidableEq

namespace Attempt

def map {α β : Type} (f : α → β) : Attempt α → Attempt β
  | .done a => .done (f a)
  | .wait => .wait
  | .refused e => .refused e

/-- An attempt that has waited long enough is refused. -/
def orTimedOut {α : Type} : Attempt α → Attempt α
  | .wait => .refused .timedOut
  | a => a

/-- Waiting ends in a refusal once the relay stops. -/
def waitUnless {α : Type} (stopped : Bool) : Attempt α := if stopped then .refused .stopped else .wait

end Attempt

structure MessageQueue where
  capacity : Nat
  messages : List Message
  deriving DecidableEq

namespace MessageQueue

def empty (capacity : Nat) : MessageQueue := ⟨capacity, []⟩

def size (q : MessageQueue) : Nat := q.messages.length

def push (q : MessageQueue) (m : Message) (stopped : Bool) : Attempt MessageQueue :=
  if q.size < q.capacity then .done { q with messages := q.messages ++ [m] }
  else .waitUnless stopped

def tryPop (q : MessageQueue) : Option (Message × MessageQueue) :=
  match q.messages with
  | [] => none
  | m :: rest => some (m, { q with messages := rest })

def pop (q : MessageQueue) (stopped : Bool) : Attempt (Message × MessageQueue) :=
  match q.tryPop with
  | some taken => .done taken
  | none => .waitUnless stopped

end MessageQueue

/-- The queues on the two sides of the mixer, for requests and for replies. -/
inductive QueueName
  | unprocessedRequests
  | processedRequests
  | unprocessedReplies
  | processedReplies
  deriving DecidableEq

structure RelayQueues where
  unprocessedRequests : MessageQueue
  processedRequests : MessageQueue
  unprocessedReplies : MessageQueue
  processedReplies : MessageQueue
  stopped : Bool
  deriving DecidableEq

namespace RelayQueues

def empty (capacity : Nat) : RelayQueues :=
  ⟨.empty capacity, .empty capacity, .empty capacity, .empty capacity, false⟩

def get (qs : RelayQueues) : QueueName → MessageQueue
  | .unprocessedRequests => qs.unprocessedRequests
  | .processedRequests => qs.processedRequests
  | .unprocessedReplies => qs.unprocessedReplies
  | .processedReplies => qs.processedReplies

def set (qs : RelayQueues) (name : QueueName) (q : MessageQueue) : RelayQueues :=
  match name with
  | .unprocessedRequests => { qs with unprocessedRequests := q }
  | .processedRequests => { qs with processedRequests := q }
  | .unprocessedReplies => { qs with unprocessedReplies := q }
  | .processedReplies => { qs with processedReplies := q }

def push (qs : RelayQueues) (name : QueueName) (m : Message) : Attempt RelayQueues :=
  ((qs.get name).push m qs.stopped).map (qs.set name)

def pop (qs : RelayQueues) (name : QueueName) : Attempt (Message × RelayQueues) :=
  ((qs.get name).pop qs.stopped).map fun taken => (taken.1, qs.set name taken.2)

def stop (qs : RelayQueues) : RelayQueues := { qs with stopped := true }

/-- How many messages wait in each queue: requests before and behind the mixer, then replies. -/
def depths (qs : RelayQueues) : List Nat :=
  [qs.unprocessedRequests.size, qs.processedRequests.size, qs.unprocessedReplies.size,
    qs.processedReplies.size]

end RelayQueues
end MixRelay
