import MixRelay.ChannelRegistry
import Mathlib.Data.Fintype.Card
import Mathlib.Data.List.Nodup
import Mathlib.Data.List.Perm.Subperm

/-!
# Identifiers drawn afresh

Behind its listed values a source draws one word after the other, so among fewer than all words that
are taken a search finds one that is free.
-/
namespace MixRelay

/-- Different words, one of them beside the others, are fewer than all. -/
theorem length_lt_of_nodup_cons {w : UInt32} {words : List UInt32} (h : (w :: words).Nodup) :
    words.length < 2 ^ 32 := by
  have hinjective : Function.Injective UInt32.toFin := fun a b hab => UInt32.toFin_inj.1 hab
  have hcard := (h.map hinjective).length_le_card
  rw [List.length_map, List.length_cons, Fintype.card_fin] at hcard
  exact hcard

namespace Draws
variable {taken : UInt32 → Bool}

/-- A search that ends at a taken word has met no other. -/
theorem taken_of_search {n : Nat} {d : Draws} (h : taken (search taken n d).1 = true) :
    ∀ v ∈ (d.take (n + 1)).1, taken v = true := by
  induction n generalizing d with
  | zero =>
    intro v hv
    rw [List.mem_singleton.1 hv]
    exact h
  | succ n ih =>
    have hfirst : taken d.draw.1 = true := by
      by_contra hfree
      have hend : search taken (n + 1) d = d.draw := if_neg hfree
      rw [hend] at h
      exact hfree h
    have hnext : search taken (n + 1) d = search taken n d.draw.2 := if_pos hfirst
    rw [hnext] at h
    intro v hv
    rcases List.mem_cons.1 hv with rfl | hv
    · exact hfirst
    · exact ih h v hv

theorem take_listed (values : List UInt32) (next : UInt32) (k : Nat) :
    (take ⟨values, next⟩ (values.length + k)).1 = values ++ (take ⟨[], next⟩ k).1 := by
  induction values with
  | nil => rw [List.length_nil, Nat.zero_add, List.nil_append]
  | cons v values ih =>
    rw [List.length_cons, Nat.add_right_comm]
    exact congrArg (v :: ·) ih

/-- Behind the listed draws come consecutive words. -/
theorem take_unlisted (next : UInt32) (k : Nat) :
    (take ⟨[], next⟩ k).1 = (List.range k).map fun i => next + UInt32.ofNat i := by
  induction k generalizing next with
  | zero => rfl
  | succ k ih =>
    have hshift (i : Nat) : next + 1 + UInt32.ofNat i = next + UInt32.ofNat (i + 1) := by
      rw [UInt32.ofNat_add, UInt32.add_assoc, UInt32.add_comm (UInt32.ofNat i)]
      rfl
    have hrest := ih (next + 1)
    simp only [hshift] at hrest
    rw [List.range_succ_eq_map, List.map_cons, List.map_map]
    have hzero : next + UInt32.ofNat 0 = next := UInt32.add_zero next
    rw [hzero]
    exact congrArg (next :: ·) hrest

theorem nodup_unlisted (next : UInt32) {k : Nat} (hk : k ≤ 2 ^ 32) :
    (take ⟨[], next⟩ k).1.Nodup := by
  rw [take_unlisted]
  refine List.Nodup.map_on ?_ List.nodup_range
  intro i hi j hj heq
  have hwords := congrArg UInt32.toNat ((UInt32.add_right_inj next).1 heq)
  rw [UInt32.toNat_ofNat', UInt32.toNat_ofNat'] at hwords
  have hi := List.mem_range.1 hi
  have hj := List.mem_range.1 hj
  omega

/-- Among fewer than all words that are taken, a search finds one that is free. -/
theorem firstFree_free {words : List UInt32} (hwords : ∀ v, taken v = true → v ∈ words) {count : Nat}
    (hlength : words.length ≤ count) (hcount : count < 2 ^ 32) (d : Draws) :
    taken (d.firstFree count taken).1 = false := by
  by_contra htaken
  have hall := taken_of_search (Bool.not_eq_false _ ▸ htaken)
  obtain ⟨values, next⟩ := d
  rw [Nat.add_assoc, take_listed] at hall
  have hsubset : (take ⟨[], next⟩ (count + 1)).1 ⊆ words := fun v hv =>
    hwords v (hall v (List.mem_append_right _ hv))
  have hle := ((nodup_unlisted next hcount).subperm hsubset).length_le
  rw [take_unlisted, List.length_map, List.length_range] at hle
  omega

/-- The draw with so many others before it. -/
def word (d : Draws) (n : Nat) : UInt32 := (d.take n).2.draw.1

/-- A search that finds a free word has drawn up to the first one. -/
theorem search_eq_word {k : Nat} {d : Draws} (h : taken (search taken k d).1 = false) :
    ∃ n, (∀ i < n, taken (d.word i) = true) ∧ taken (d.word n) = false ∧
      search taken k d = (d.word n, (d.take (n + 1)).2) := by
  induction k generalizing d with
  | zero => exact ⟨0, nofun, h, rfl⟩
  | succ k ih =>
    by_cases hfirst : taken d.draw.1 = true
    · have hnext : search taken (k + 1) d = search taken k d.draw.2 := if_pos hfirst
      rw [hnext] at h ⊢
      obtain ⟨n, hbefore, hfree, heq⟩ := ih h
      refine ⟨n + 1, fun i hi => ?_, hfree, heq⟩
      cases i with
      | zero => exact hfirst
      | succ i => exact hbefore i (Nat.lt_of_succ_lt_succ hi)
    · have hend : search taken (k + 1) d = d.draw := if_neg hfirst
      exact ⟨0, nofun, eq_false_of_ne_true hfirst, hend⟩

end Draws

/-- The loop that draws from a source until a word is not taken. It comes to draw the word at one position and
ends with the word at another; on a source without a free word it has no end. -/
inductive Redraws (taken : UInt32 → Prop) (source : Nat → UInt32) : Nat → Nat → Prop
  | done {n : Nat} (free : ¬ taken (source n)) : Redraws taken source n n
  | again {n last : Nat} (refused : taken (source n)) (more : Redraws taken source (n + 1) last) :
    Redraws taken source n last

section Redraws
variable {taken : UInt32 → Prop} {source : Nat → UInt32} {n last : Nat}

/-- The loop ends with the first word that is free. -/
theorem redraws_iff : Redraws taken source n last ↔
    n ≤ last ∧ ¬ taken (source last) ∧ ∀ i, n ≤ i → i < last → taken (source i) := by
  constructor
  · intro h
    induction h with
    | done free => exact ⟨Nat.le_refl _, free, fun i hle hlt => absurd hle (Nat.not_le.2 hlt)⟩
    | again refused more ih =>
      obtain ⟨hle, hfree, hbefore⟩ := ih
      refine ⟨Nat.le_of_succ_le hle, hfree, fun i hi hlt => ?_⟩
      rcases Nat.eq_or_lt_of_le hi with rfl | hi
      · exact refused
      · exact hbefore i hi hlt
  · rintro ⟨hle, hfree, hbefore⟩
    -- on how many words are still to be drawn
    induction hmore : last - n generalizing n with
    | zero =>
      obtain rfl : n = last := by omega
      exact .done hfree
    | succ more ih =>
      have hlt : n < last := by omega
      refine .again (hbefore n (Nat.le_refl n) hlt) (ih hlt (fun i hi => ?_) (by omega))
      exact hbefore i (Nat.le_of_succ_le hi)

theorem redraws_zero_iff :
    Redraws taken source 0 last ↔ ¬ taken (source last) ∧ ∀ i < last, taken (source i) := by
  rw [redraws_iff]
  exact ⟨fun h => ⟨h.2.1, fun i hi => h.2.2 i (Nat.zero_le i) hi⟩,
    fun h => ⟨Nat.zero_le last, h.1, fun i _ hi => h.2 i hi⟩⟩

/-- What the loop ends with depends on no word behind. -/
theorem Redraws.unique {other : Nat → UInt32} {m : Nat} (h : Redraws taken source 0 last)
    (ho : Redraws taken other 0 m) (heq : ∀ i ≤ last, other i = source i) : m = last := by
  obtain ⟨hfree, hbefore⟩ := redraws_zero_iff.1 h
  obtain ⟨hofree, hobefore⟩ := redraws_zero_iff.1 ho
  rcases Nat.lt_trichotomy m last with hlt | hsame | hlt
  · rw [heq m (Nat.le_of_lt hlt)] at hofree
    exact absurd (hbefore m hlt) hofree
  · exact hsame
  · have htaken := hobefore last hlt
    rw [heq last (Nat.le_refl last)] at htaken
    exact absurd htaken hfree

end Redraws

/-- The channel that is made has an identifier that no other one has. -/
theorem ChannelRegistry.createFresh_not_mem {r : ChannelRegistry} (h : r.channels.length < 2 ^ 32)
    (draws : Draws) : (r.createFresh draws).1 ∉ r.ids := by
  have hcount : r.ids.length ≤ r.channels.length := Nat.le_of_eq (List.length_map _)
  have hfree := Draws.firstFree_free (fun id hid => contains_iff.1 hid) hcount h draws
  exact fun hmem => absurd (hfree.symm.trans (contains_iff.2 hmem)) nofun

end MixRelay
