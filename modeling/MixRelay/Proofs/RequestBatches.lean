import MixRelay.RequestMixing
import Mathlib.Data.List.Basic

/-!
# The batch of requests

What the mixer holds back are requests and nothing else. When a round leaves, its requests lose a
header and its size may go ahead of them; a reading of messages that sees neither sees the round
itself.
-/
namespace MixRelay.RequestMixer

universe u
variable {α : Type u} {shuffle : List Message → List Message} {m : RequestMixer}

theorem filterMap_announced {f : Message → Option α}
    (hstrip : ∀ n message, f (message.stripHeader n) = f message)
    (hsize : ∀ n, f (.batchSize n) = none) (m : RequestMixer) (round : List Message) :
    (m.announced round).filterMap f = round.filterMap f := by
  have hmap : (round.map (Message.stripHeader m.settings.headerUnit)).filterMap f =
      round.filterMap f := by
    rw [List.filterMap_map]
    exact List.filterMap_congr fun message _ => hstrip _ message
  unfold announced
  split
  · exact hmap
  · rw [List.filterMap_cons_none (hsize _)]
    exact hmap

theorem requests_flushUnlessEmpty (h : ∀ d ∈ m.batch, d.isRequest = true) :
    ∀ d ∈ (m.flushUnlessEmpty shuffle).mixer.batch, d.isRequest = true := by
  unfold flushUnlessEmpty
  split
  · exact h
  · simp [flush]

theorem requests_collect (h : ∀ d ∈ m.batch, d.isRequest = true) {request : Message}
    (hr : request.isRequest = true) :
    ∀ d ∈ (m.collect shuffle request).mixer.batch, d.isRequest = true := by
  unfold collect
  dsimp only
  split
  · simp [flush]
  · intro d hd
    rcases List.mem_append.1 hd with hd | hd
    · exact h d hd
    · rwa [List.mem_singleton.1 hd]

/-- The batch holds requests only. -/
theorem requests_step (h : ∀ d ∈ m.batch, d.isRequest = true) (e : MixerEvent) :
    ∀ d ∈ (m.step shuffle e).mixer.batch, d.isRequest = true := by
  cases e with
  | timeout => exact requests_flushUnlessEmpty h
  | arrival message =>
    cases message with
    | establish | message => exact requests_collect h rfl
    | release | reply => exact h
    | batchSize n =>
      simp only [step]
      split
      · exact requests_flushUnlessEmpty h
      · exact requests_flushUnlessEmpty (m := { m with roundSize := n.toNat }) h

end MixRelay.RequestMixer
