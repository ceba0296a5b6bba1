import MixRelay.ByteStrings

/-! # The buffers between a channel and its destination

Two byte queues of one capacity: request data that the destination has not consumed yet, and
destination data that no reply round has taken yet. -/
namespace MixRelay

structure ProxyBuffers where
  capacity : Nat
  requests : Bytes
  replies : Bytes
  deriving DecidableEq

namespace ProxyBuffers

def empty (capacity : Nat) : ProxyBuffers := ⟨capacity, [], []⟩

/-- The part of some data that fits behind a buffer. -/
def accepted (p : ProxyBuffers) (buffer data : Bytes) : Bytes :=
  data.take (p.capacity - buffer.length)

/-- Adds the reply data that fits, and counts it. -/
def pushReply (p : ProxyBuffers) (data : Bytes) : Nat × ProxyBuffers :=
  let part := p.accepted p.replies data
  (part.length, { p with replies := p.replies ++ part })

/-- Adds the request data that fits, and counts it. -/
def pushRequest (p : ProxyBuffers) (data : Bytes) : Nat × ProxyBuffers :=
  let part := p.accepted p.requests data
  (part.length, { p with requests := p.requests ++ part })

/-- Takes a chunk of exactly `n` reply bytes, zeros behind the data, and counts the data in it. -/
def takeReply (p : ProxyBuffers) (n : Nat) : Bytes × Nat × ProxyBuffers :=
  (Bytes.fit n p.replies, min p.replies.length n, { p with replies := p.replies.drop n })

def drainRequests (p : ProxyBuffers) : Bytes × ProxyBuffers := (p.requests, { p with requests := [] })

/-- No buffer is longer than the capacity. -/
def Bounded (p : ProxyBuffers) : Prop :=
  p.requests.length ≤ p.capacity ∧ p.replies.length ≤ p.capacity

theorem bounded_empty (capacity : Nat) : (empty capacity).Bounded := ⟨Nat.zero_le _, Nat.zero_le _⟩

theorem length_accepted (p : ProxyBuffers) (buffer data : Bytes) :
    (p.accepted buffer data).length = min data.length (p.capacity - buffer.length) := by
  simp [accepted, Nat.min_comm]

theorem take_length_accepted (p : ProxyBuffers) (buffer data : Bytes) :
    data.take (p.accepted buffer data).length = p.accepted buffer data := by
  simp [accepted, List.take_eq_take_iff]

theorem Bounded.pushReply {p : ProxyBuffers} (h : p.Bounded) (data : Bytes) :
    (p.pushReply data).2.Bounded := by
  obtain ⟨hq, hr⟩ := h
  refine ⟨hq, ?_⟩
  simp only [ProxyBuffers.pushReply, List.length_append, length_accepted]
  omega

theorem Bounded.pushRequest {p : ProxyBuffers} (h : p.Bounded) (data : Bytes) :
    (p.pushRequest data).2.Bounded := by
  obtain ⟨hq, hr⟩ := h
  refine ⟨?_, hr⟩
  simp only [ProxyBuffers.pushRequest, List.length_append, length_accepted]
  omega

end ProxyBuffers
end MixRelay
