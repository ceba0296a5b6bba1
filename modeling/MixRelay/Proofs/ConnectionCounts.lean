import MixRelay.ConnectionLimiter
import MixRelay.Proofs.RegistryLookups
import Mathlib.Data.List.Count
import Mathlib.Data.List.Nodup

/-!
# Counting connections

The limiter counts right as long as it is told of every connection that comes and goes: it has the number
of all connections, and for each address that has some an entry with their number.
-/
namespace MixRelay.ConnectionLimiter

/-- The limiter counts the connections that come from some addresses. -/
structure Counts (l : ConnectionLimiter) (addresses : List IpAddress) : Prop where
  total : l.total = addresses.length
  keys : (l.counts.map Prod.fst).Nodup
  entry : ∀ ip n, (ip, n) ∈ l.counts ↔ 0 < n ∧ addresses.count ip = n

variable {l m : ConnectionLimiter} {addresses : List IpAddress} {ip other : IpAddress}

theorem counts_new (maxTotal maxPerAddress : Nat) : (new maxTotal maxPerAddress).Counts [] where
  total := rfl
  keys := List.nodup_nil
  entry ip n := by
    rw [List.count_nil]
    exact iff_of_false List.not_mem_nil fun h => Nat.ne_of_lt h.1 h.2

/-- An address has an entry as long as connections come from it. -/
theorem Counts.hasEntry_iff (h : l.Counts addresses) : l.hasEntry ip = true ↔ ip ∈ addresses := by
  rw [hasEntry, List.any_eq_true, ← List.count_pos_iff]
  constructor
  · rintro ⟨⟨other, n⟩, hentry, heq⟩
    obtain rfl : other = ip := of_decide_eq_true heq
    obtain ⟨hpos, hcount⟩ := (h.entry other n).1 hentry
    exact hcount.symm ▸ hpos
  · exact fun hpos => ⟨_, (h.entry ip _).2 ⟨hpos, rfl⟩, decide_eq_true rfl⟩

theorem Counts.count_eq (h : l.Counts addresses) (ip : IpAddress) : l.count ip = addresses.count ip := by
  by_cases hpos : 0 < addresses.count ip
  · have hfound := find?_key h.keys ((h.entry ip _).2 ⟨hpos, rfl⟩)
    exact congrArg (fun found => (found.map Prod.snd).getD 0) hfound
  · have hnone : l.counts.find? (fun entry => entry.1 = ip) = none := by
      refine List.find?_eq_none.2 fun entry hentry heq => hpos ?_
      obtain rfl : entry.1 = ip := of_decide_eq_true heq
      obtain ⟨hsome, hcount⟩ := (h.entry entry.1 entry.2).1 hentry
      exact hcount.symm ▸ hsome
    rw [count, hnone, Nat.eq_zero_of_not_pos hpos]
    rfl

/-- Without connections there are no entries. -/
theorem Counts.eq_nil (h : l.Counts []) : l.total = 0 ∧ l.counts = [] := by
  refine ⟨h.total, List.eq_nil_iff_forall_not_mem.2 fun ⟨ip, n⟩ hentry => ?_⟩
  obtain ⟨hpos, hcount⟩ := (h.entry ip n).1 hentry
  rw [List.count_nil] at hcount
  exact Nat.ne_of_lt hpos hcount

theorem Counts.perm (h : l.Counts addresses) {others : List IpAddress} (hperm : addresses.Perm others) :
    l.Counts others where
  total := h.total.trans hperm.length_eq
  keys := h.keys
  entry ip n := by rw [h.entry, hperm.count_eq]

theorem mem_countUp (h : l.Counts addresses) (n : Nat) :
    (other, n) ∈ l.countUp ip ↔
      if other = ip then n = addresses.count ip + 1 else (other, n) ∈ l.counts := by
  rw [countUp]
  by_cases hentry : l.hasEntry ip = true
  · rw [if_pos hentry, List.mem_map]
    by_cases hother : other = ip
    · subst hother
      rw [if_pos rfl]
      constructor
      · rintro ⟨⟨a, k⟩, hmem, heq⟩
        by_cases ha : a = other
        · subst ha
          rw [if_pos rfl] at heq
          rw [((h.entry a k).1 hmem).2]
          exact (congrArg Prod.snd heq).symm
        · rw [if_neg ha] at heq
          exact absurd (congrArg Prod.fst heq) ha
      · rintro rfl
        have hpos := List.count_pos_iff.2 (h.hasEntry_iff.1 hentry)
        exact ⟨_, (h.entry other _).2 ⟨hpos, rfl⟩, if_pos rfl⟩
    · rw [if_neg hother]
      constructor
      · rintro ⟨⟨a, k⟩, hmem, heq⟩
        by_cases ha : a = ip
        · rw [if_pos ha] at heq
          exact absurd ((congrArg Prod.fst heq).symm.trans ha) hother
        · rw [if_neg ha] at heq
          exact heq ▸ hmem
      · exact fun hmem => ⟨_, hmem, if_neg hother⟩
  · have hnone : addresses.count ip = 0 :=
      List.count_eq_zero.2 fun hmem => hentry (h.hasEntry_iff.2 hmem)
    rw [if_neg hentry, List.mem_append, List.mem_singleton, Prod.mk.injEq]
    by_cases hother : other = ip
    · subst hother
      rw [if_pos rfl, h.entry, hnone, eq_self, true_and]
      omega
    · simp [hother]

theorem mem_countDown (h : l.Counts addresses) (n : Nat) :
    (other, n) ∈ l.countDown ip ↔
      if other = ip then 0 < n ∧ addresses.count ip = n + 1 else (other, n) ∈ l.counts := by
  rw [countDown, List.mem_filterMap]
  by_cases hother : other = ip
  · subst hother
    rw [if_pos rfl]
    constructor
    · rintro ⟨⟨a, k⟩, hmem, heq⟩
      by_cases ha : a = other
      · subst ha
        have hcount := ((h.entry a k).1 hmem).2
        rw [if_pos rfl] at heq
        split at heq
        · cases heq
        · obtain rfl : k - 1 = n := congrArg Prod.snd (Option.some.inj heq)
          omega
      · rw [if_neg ha] at heq
        exact absurd (congrArg Prod.fst (Option.some.inj heq)) ha
    · rintro ⟨hpos, hcount⟩
      refine ⟨(other, n + 1), (h.entry other _).2 ⟨Nat.succ_pos n, hcount⟩, ?_⟩
      rw [if_pos rfl, if_neg (by omega)]
      rfl
  · rw [if_neg hother]
    constructor
    · rintro ⟨⟨a, k⟩, hmem, heq⟩
      by_cases ha : a = ip
      · rw [if_pos ha] at heq
        split at heq
        · cases heq
        · exact absurd ((congrArg Prod.fst (Option.some.inj heq)).symm.trans ha) hother
      · rw [if_neg ha] at heq
        exact Option.some.inj heq ▸ hmem
    · exact fun hmem => ⟨_, hmem, if_neg hother⟩

theorem keys_countUp (h : (l.counts.map Prod.fst).Nodup) (ip : IpAddress) :
    ((l.countUp ip).map Prod.fst).Nodup := by
  rw [countUp]
  split
  · have hsame : (Prod.fst ∘ fun entry : IpAddress × Nat =>
        if entry.1 = ip then (entry.1, entry.2 + 1) else entry) = Prod.fst := by
      funext entry
      rw [Function.comp_apply]
      split <;> rfl
    rw [List.map_map, hsame]
    exact h
  · rename_i hnone
    have hnew : ip ∉ l.counts.map Prod.fst := by
      intro hmem
      obtain ⟨entry, hentry, heq⟩ := List.mem_map.1 hmem
      exact hnone (List.any_eq_true.2 ⟨entry, hentry, decide_eq_true heq⟩)
    rw [List.map_append]
    exact h.append (List.nodup_singleton ip) (List.disjoint_singleton.2 hnew)

theorem keys_countDown (h : (l.counts.map Prod.fst).Nodup) (ip : IpAddress) :
    ((l.countDown ip).map Prod.fst).Nodup := by
  rw [List.Nodup, List.pairwise_map] at h ⊢
  have hkey (entry less : IpAddress × Nat) (heq : (if entry.1 = ip then
      (if entry.2 ≤ 1 then none else some (entry.1, entry.2 - 1)) else some entry) = some less) :
      less.1 = entry.1 := by
    repeat' split at heq
    all_goals cases heq
    all_goals rfl
  refine h.filterMap _ fun entry other hne less hless lessOther hother => ?_
  rw [hkey entry less hless, hkey other lessOther hother]
  exact hne

/-- A connection that is admitted is counted. -/
theorem Counts.connect (h : l.Counts addresses) (hok : l.connect ip = .ok m) :
    m.Counts (addresses ++ [ip]) := by
  have hm : m = { l with total := l.total + 1, counts := l.countUp ip } := by
    rw [ConnectionLimiter.connect] at hok
    repeat' split at hok
    all_goals cases hok
    rfl
  subst hm
  refine ⟨?_, keys_countUp h.keys ip, fun other n => ?_⟩
  · rw [List.length_append, List.length_singleton, ← h.total]
  · rw [mem_countUp h, List.count_append]
    by_cases hother : other = ip
    · subst hother
      rw [if_pos rfl, List.count_singleton_self]
      omega
    · rw [if_neg hother, List.count_singleton, if_neg (by simpa using Ne.symm hother)]
      exact h.entry other n

/-- A connection that ends is not counted any more. -/
theorem Counts.disconnect (h : l.Counts addresses) (hip : ip ∈ addresses) :
    (l.disconnect ip).Counts (addresses.erase ip) := by
  rw [ConnectionLimiter.disconnect, if_pos (h.hasEntry_iff.2 hip)]
  refine ⟨?_, keys_countDown h.keys ip, fun other n => ?_⟩
  · rw [List.length_erase_of_mem hip, ← h.total]
  · have hpos := List.count_pos_iff.2 hip
    rw [mem_countDown h, List.count_erase]
    by_cases hother : other = ip
    · subst hother
      rw [if_pos rfl, if_pos (beq_self_eq_true _)]
      omega
    · rw [if_neg hother, if_neg (by simpa using Ne.symm hother), Nat.sub_zero]
      exact h.entry other n

end MixRelay.ConnectionLimiter
