import MixRelay.MessageOrder
import MixRelay.Proofs.RequestBatches
import MixRelay.Proofs.Runs
import Mathlib.Data.List.Forall2
import Mathlib.Data.List.Flatten
import Mathlib.Data.List.Perm.Basic

/-!
# The books of the request mixer

What leaves a mixer are releases and whole rounds. The rounds, in their order, are the requests that it
has taken, cut where a round left; those behind the last cut are still held back.
-/
namespace MixRelay

/-- An event, and the order in which a round would leave with it. -/
structure MixerTurn where
  shuffle : Shuffle
  event : MixerEvent

namespace MixerTurn

end MixerTurn

/-- What leaves in one piece: a release, or a round, its requests in the order in which they leave and
with the headers that they came with. -/
inductive Departure
  | release (channel : ChannelId)
  | round (requests : List Message)

namespace Departure

def release? : Departure → Option Message
  | .release c => some (.release c)
  | .round _ => none

def requests? : Departure → Option (List Message)
  | .release _ => none
  | .round requests => some requests

/-- Each request loses a header. The size of a round goes ahead of it, unless this relay is the last. -/
def messages (settings : MixerSettings) : Departure → List Message
  | .release c => [.release c]
  | .round requests =>
    let bare := requests.map (Message.stripHeader settings.headerUnit)
    if settings.isLast then bare else .batchSize (UInt32.ofNat requests.length) :: bare

end Departure

namespace Message

/-- Releases tell the relay that a channel is gone. -/
def isRelease : Message → Bool
  | .release _ => true
  | _ => false

@[simp] theorem isRequest_stripHeader (n : Nat) (m : Message) :
    (m.stripHeader n).isRequest = m.isRequest := by
  cases m <;> rfl

end Message

namespace Departure
variable (settings : MixerSettings) (departures : List Departure)

variable (h : ∀ left ∈ departures.filterMap requests?, ∀ request ∈ left, request.isRequest = true)
include h

end Departure

namespace RequestMixer
variable {settings : MixerSettings} {taken sent : List Message} {departures : List Departure}
  {rounds : List (List Message)} {m : RequestMixer} {shuffle : Shuffle}

def turn (m : RequestMixer) (t : MixerTurn) : RequestMixer := (m.step t.shuffle.order t.event).mixer

/-- No round is larger than the settings say or a previous relay can announce. -/
def largestRound (settings : MixerSettings) : Nat := max settings.roundSize (2 ^ 32 - 1)

/-- The departures make up what was sent. Each round holds the requests of one stretch of arrivals;
the stretches follow each other, and the batch comes behind them. -/
structure Accounts (settings : MixerSettings) (taken sent : List Message)
    (departures : List Departure) (rounds : List (List Message)) (m : RequestMixer) : Prop where
  configured : m.settings = settings
  sent_eq : sent = departures.flatMap (Departure.messages settings)
  releases_eq : departures.filterMap Departure.release? = taken.filter Message.isRelease
  shuffled : List.Forall₂ (fun left arrived => left.Perm arrived ∧ arrived ≠ [])
    (departures.filterMap Departure.requests?) rounds
  arrived_eq : rounds.flatten ++ m.batch = taken.filter Message.isRequest
  round_le : ∀ round ∈ rounds, round.length ≤ largestRound settings
  size_le : m.roundSize ≤ largestRound settings

namespace Accounts

theorem start (settings : MixerSettings) :
    Accounts settings [] [] [] [] (RequestMixer.start settings) where
  configured := rfl
  sent_eq := rfl
  releases_eq := rfl
  shuffled := .nil
  arrived_eq := rfl
  round_le := nofun
  size_le := by
    dsimp only [RequestMixer.start, largestRound]
    omega

theorem release (h : Accounts settings taken sent departures rounds m) (c : ChannelId) :
    Accounts settings (taken ++ [.release c]) (sent ++ [.release c])
      (departures ++ [.release c]) rounds m where
  configured := h.configured
  sent_eq := by simp [h.sent_eq, Departure.messages]
  releases_eq := by
    rw [List.filterMap_append, List.filter_append, h.releases_eq]
    rfl
  shuffled := by
    have hnone : [Departure.release c].filterMap Departure.requests? = [] := rfl
    rw [List.filterMap_append, hnone, List.append_nil]
    exact h.shuffled
  arrived_eq := by simpa [Message.isRequest] using h.arrived_eq
  round_le := h.round_le
  size_le := h.size_le

theorem hold (h : Accounts settings taken sent departures rounds m) {request : Message}
    (hrequest : request.isRequest = true) :
    Accounts settings (taken ++ [request]) sent departures rounds
      { m with batch := m.batch ++ [request] } where
  configured := h.configured
  sent_eq := h.sent_eq
  releases_eq := by
    have hrelease : request.isRelease = false := by cases request <;> trivial
    simp [h.releases_eq, hrelease]
  shuffled := h.shuffled
  arrived_eq := by simp [← h.arrived_eq, hrequest]
  round_le := h.round_le
  size_le := h.size_le

/-- The batch leaves as one more round. -/
theorem flush (h : Accounts settings taken sent departures rounds m) (hne : m.batch ≠ [])
    (hle : m.batch.length ≤ largestRound settings) :
    Accounts settings taken (sent ++ (m.flush shuffle.order).sent)
      (departures ++ [.round (shuffle.order m.batch)]) (rounds ++ [m.batch])
      (m.flush shuffle.order).mixer where
  configured := h.configured
  sent_eq := by
    have hannounced : (m.flush shuffle.order).sent =
        Departure.messages settings (.round (shuffle.order m.batch)) := by
      rw [← h.configured]
      rfl
    rw [hannounced, h.sent_eq, List.flatMap_append, List.flatMap_singleton]
  releases_eq := by simp [h.releases_eq, Departure.release?]
  shuffled := by
    rw [List.filterMap_append]
    exact List.rel_append h.shuffled (.cons ⟨shuffle.perm m.batch, hne⟩ .nil)
  arrived_eq := by simpa [RequestMixer.flush] using h.arrived_eq
  round_le := by
    intro round hround
    rcases List.mem_append.1 hround with hround | hround
    · exact h.round_le round hround
    · rwa [List.mem_singleton.1 hround]
  size_le := h.size_le

end Accounts

namespace Accounts
variable (h : Accounts settings taken sent departures rounds m)
include h

end Accounts

end RequestMixer
end MixRelay
