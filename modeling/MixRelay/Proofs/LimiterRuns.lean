import MixRelay.Proofs.ConnectionCounts
import Mathlib.Algebra.BigOperators.Group.List.Lemmas
import Mathlib.Algebra.GroupWithZero.Nat
import Mathlib.Data.Finset.Card

/-!
# The live connections that a limiter admits

Whatever connections come and go, also refused ones and ends of connections that there are not, the limiter
counts the live ones: those that it admitted and that have not ended. So it knows when a cap is met.
-/
namespace MixRelay

/-- What the listener tells its limiter. -/
inductive LimiterCall
  | connect (ip : IpAddress)
  | disconnect (ip : IpAddress)
  deriving DecidableEq

namespace ConnectionLimiter
variable {l m : ConnectionLimiter} {addresses : List IpAddress} {live : Multiset IpAddress}
  {ip : IpAddress} {maxTotal maxPerAddress : Nat}

theorem count_of_hasEntry_eq_false (h : l.hasEntry ip = false) : l.count ip = 0 := by
  have hnone : l.counts.find? (fun entry => entry.1 = ip) = none :=
    List.find?_eq_none.2 (List.any_eq_false.1 h)
  rw [count, hnone]
  rfl

@[simp] theorem withEntry_total (l : ConnectionLimiter) (ip : IpAddress) :
    (l.withEntry ip).total = l.total := by
  unfold withEntry
  split <;> rfl

@[simp] theorem withEntry_maxTotal (l : ConnectionLimiter) (ip : IpAddress) :
    (l.withEntry ip).maxTotal = l.maxTotal := by
  unfold withEntry
  split <;> rfl

@[simp] theorem withEntry_maxPerAddress (l : ConnectionLimiter) (ip : IpAddress) :
    (l.withEntry ip).maxPerAddress = l.maxPerAddress := by
  unfold withEntry
  split <;> rfl

theorem withEntry_of_hasEntry (h : l.hasEntry ip = true) : l.withEntry ip = l := if_pos h

theorem withEntry_of_new (h : l.hasEntry ip = false) :
    l.withEntry ip = { l with counts := l.counts ++ [(ip, 0)] } := by
  rw [withEntry, h]
  rfl

@[simp] theorem count_withEntry (l : ConnectionLimiter) (ip : IpAddress) :
    (l.withEntry ip).count ip = l.count ip := by
  cases h : l.hasEntry ip with
  | true => rw [withEntry_of_hasEntry h]
  | false =>
    rw [withEntry_of_new h, count_of_hasEntry_eq_false h, count, List.find?_append,
      List.find?_eq_none.2 (List.any_eq_false.1 h)]
    simp

/-- An entry made at zero and counted up is an entry of one. -/
theorem map_withEntry (l : ConnectionLimiter) (ip : IpAddress) :
    ((l.withEntry ip).counts.map fun entry => if entry.1 = ip then (entry.1, entry.2 + 1) else entry) =
      l.countUp ip := by
  cases h : l.hasEntry ip with
  | true => rw [withEntry_of_hasEntry h, countUp, if_pos h]
  | false =>
    have hother : ∀ entry ∈ l.counts, entry.1 ≠ ip := by simpa [hasEntry] using h
    have hsame : (l.counts.map fun entry => if entry.1 = ip then (entry.1, entry.2 + 1) else entry) =
        l.counts :=
      (List.map_congr_left fun entry hentry => if_neg (hother entry hentry)).trans l.counts.map_id
    rw [withEntry_of_new h, countUp, if_neg (by simp [h]), List.map_append, hsame]
    simp

/-- Making the entry first leaves no trace of a refusal, as an address that meets its cap has one. -/
theorem tryConnect_eq (l : ConnectionLimiter) (ip : IpAddress) :
    l.tryConnect ip = match l.connect ip with
      | .ok m => (.ok (), m)
      | .error e => (.error e, l) := by
  unfold tryConnect connect
  by_cases htotal : l.maxTotal ≤ l.total
  · rw [if_pos htotal, if_pos htotal]
  rw [if_neg htotal, if_neg htotal]
  dsimp only
  rw [withEntry_maxPerAddress, count_withEntry, withEntry_total, map_withEntry]
  by_cases hip : l.maxPerAddress ≠ 0 ∧ l.maxPerAddress ≤ l.count ip
  · have hentry : l.hasEntry ip = true := by
      by_contra hnew
      have hzero := count_of_hasEntry_eq_false (Bool.eq_false_of_not_eq_true hnew)
      omega
    rw [if_pos hip, if_pos hip, withEntry_of_hasEntry hentry]
  · rw [if_neg hip, if_neg hip, withEntry_maxTotal]

/-- What a connection is answered, by the caps that it meets. -/
theorem tryConnect_answer (l : ConnectionLimiter) (ip : IpAddress) :
    let answer := (l.tryConnect ip).1
    (answer = .error (.total l.total l.maxTotal) ↔ l.maxTotal ≤ l.total) ∧
    (answer = .error (.perAddress ip (l.count ip) l.maxPerAddress) ↔
      l.total < l.maxTotal ∧ l.maxPerAddress ≠ 0 ∧ l.maxPerAddress ≤ l.count ip) ∧
    (answer = .ok () ↔
      l.total < l.maxTotal ∧ (l.maxPerAddress = 0 ∨ l.count ip < l.maxPerAddress)) := by
  dsimp only
  rw [tryConnect_eq, connect]
  by_cases htotal : l.maxTotal ≤ l.total
  · simp [htotal]
  · by_cases hip : l.maxPerAddress ≠ 0 ∧ l.maxPerAddress ≤ l.count ip
    · simp [htotal, hip]
      omega
    · simp [htotal, hip]
      omega

/-- A refusal leaves the limiter as it was. -/
theorem tryConnect_of_refused {e : LimitExceeded} (h : (l.tryConnect ip).1 = .error e) :
    l.tryConnect ip = (.error e, l) := by
  rw [tryConnect_eq] at h ⊢
  cases hconnect : l.connect ip with
  | ok m => rw [hconnect] at h; cases h
  | error e' => rw [hconnect] at h; cases h; rfl

/-- What is admitted is counted, and meets no cap. -/
theorem connect_of_admitted (h : (l.tryConnect ip).1 = .ok ()) :
    l.connect ip = .ok (l.tryConnect ip).2 := by
  rw [tryConnect_eq] at h ⊢
  cases hconnect : l.connect ip with
  | ok m => rfl
  | error e => rw [hconnect] at h; cases h

theorem caps_of_connect (h : l.connect ip = .ok m) :
    m.maxTotal = l.maxTotal ∧ m.maxPerAddress = l.maxPerAddress := by
  unfold connect at h
  repeat' split at h
  all_goals cases h
  exact ⟨rfl, rfl⟩

theorem caps_disconnect (l : ConnectionLimiter) (ip : IpAddress) :
    (l.disconnect ip).maxTotal = l.maxTotal ∧ (l.disconnect ip).maxPerAddress = l.maxPerAddress := by
  unfold disconnect
  split <;> exact ⟨rfl, rfl⟩

/-- An end of a connection that there is not changes nothing. -/
theorem disconnect_of_no_entry (h : l.hasEntry ip = false) : l.disconnect ip = l := by
  rw [disconnect, h]
  rfl

/-- The entries are those of the addresses, each once. -/
theorem Counts.keys_perm (h : l.Counts addresses) : (l.counts.map Prod.fst).Perm addresses.dedup := by
  refine (List.perm_ext_iff_of_nodup h.keys addresses.nodup_dedup).2 fun ip => ?_
  rw [List.mem_dedup, ← h.hasEntry_iff, hasEntry, List.any_eq_true, List.mem_map]
  simp only [decide_eq_true_eq]

theorem Counts.addresses_eq (h : l.Counts addresses) : l.addresses = addresses.toFinset.card := by
  rw [List.card_toFinset, ← h.keys_perm.length_eq, List.length_map, ConnectionLimiter.addresses]

/-- The counts of all addresses come to the number of connections. -/
theorem Counts.sum_eq (h : l.Counts addresses) : (l.counts.map Prod.snd).sum = l.total := by
  have hcounts : l.counts.map Prod.snd = (l.counts.map Prod.fst).map (addresses.count ·) := by
    rw [List.map_map]
    refine List.map_congr_left fun ⟨ip, n⟩ hentry => ?_
    exact ((h.entry ip n).1 hentry).2.symm
  rw [hcounts, (h.keys_perm.map _).sum_eq, List.sum_map_count_dedup_eq_length, h.total]

/-- One call, with the live connections beside the limiter: one more exactly where it is admitted, one less
where an address ends one that it has. -/
def call (state : ConnectionLimiter × Multiset IpAddress) :
    LimiterCall → ConnectionLimiter × Multiset IpAddress
  | .connect ip =>
    match state.1.tryConnect ip with
    | (.ok (), l) => (l, ip ::ₘ state.2)
    | (.error _, l) => (l, state.2)
  | .disconnect ip => (state.1.disconnect ip, state.2.erase ip)

def run (maxTotal maxPerAddress : Nat) (calls : List LimiterCall) :
    ConnectionLimiter × Multiset IpAddress :=
  calls.foldl call (new maxTotal maxPerAddress, 0)

/-- The limiter counts the live connections, and they are within its caps. -/
structure Accounts (maxTotal maxPerAddress : Nat) (l : ConnectionLimiter) (live : Multiset IpAddress) :
    Prop where
  totalCap : l.maxTotal = maxTotal
  addressCap : l.maxPerAddress = maxPerAddress
  counts : ∃ addresses : List IpAddress, (addresses : Multiset IpAddress) = live ∧ l.Counts addresses
  total_le : live.card ≤ maxTotal
  count_le : maxPerAddress ≠ 0 → ∀ ip, live.count ip ≤ maxPerAddress

theorem Accounts.total (h : Accounts maxTotal maxPerAddress l live) : l.total = live.card := by
  obtain ⟨addresses, rfl, hcounts⟩ := h.counts
  exact hcounts.total

theorem Accounts.count (h : Accounts maxTotal maxPerAddress l live) (ip : IpAddress) :
    l.count ip = live.count ip := by
  obtain ⟨addresses, rfl, hcounts⟩ := h.counts
  rw [Multiset.coe_count, hcounts.count_eq]

theorem Accounts.hasEntry_iff (h : Accounts maxTotal maxPerAddress l live) :
    l.hasEntry ip = true ↔ ip ∈ live := by
  obtain ⟨addresses, rfl, hcounts⟩ := h.counts
  exact hcounts.hasEntry_iff

theorem accounts_new (maxTotal maxPerAddress : Nat) :
    Accounts maxTotal maxPerAddress (new maxTotal maxPerAddress) 0 where
  totalCap := rfl
  addressCap := rfl
  counts := ⟨[], rfl, counts_new maxTotal maxPerAddress⟩
  total_le := Nat.zero_le maxTotal
  count_le _ _ := Nat.zero_le maxPerAddress

/-- A connection that is admitted is one of the live ones. -/
theorem Accounts.admit (h : Accounts maxTotal maxPerAddress l live)
    (hadmitted : (l.tryConnect ip).1 = .ok ()) :
    Accounts maxTotal maxPerAddress (l.tryConnect ip).2 (ip ::ₘ live) := by
  have hconnect := connect_of_admitted hadmitted
  obtain ⟨hfree, hcap⟩ := (l.tryConnect_answer ip).2.2.1 hadmitted
  obtain ⟨addresses, hlive, hcounts⟩ := h.counts
  rw [h.total, h.totalCap] at hfree
  rw [h.count, h.addressCap] at hcap
  have hperm : (addresses ++ [ip]).Perm (ip :: addresses) := List.perm_append_singleton ip addresses
  refine ⟨(caps_of_connect hconnect).1.trans h.totalCap,
    (caps_of_connect hconnect).2.trans h.addressCap,
    ⟨ip :: addresses, ?_, (hcounts.connect hconnect).perm hperm⟩, ?_, fun hnonzero other => ?_⟩
  · rw [← hlive, Multiset.cons_coe]
  · rw [Multiset.card_cons]
    exact hfree
  · have hbelow := h.count_le hnonzero other
    rw [Multiset.count_cons]
    split
    · rename_i hother
      subst hother
      exact hcap.resolve_left hnonzero
    · exact hbelow

/-- A live connection that ends is none any more. -/
theorem Accounts.leave (h : Accounts maxTotal maxPerAddress l live) (ip : IpAddress) :
    Accounts maxTotal maxPerAddress (l.disconnect ip) (live.erase ip) := by
  by_cases hip : ip ∈ live
  · obtain ⟨addresses, rfl, hcounts⟩ := h.counts
    exact ⟨(l.caps_disconnect ip).1.trans h.totalCap, (l.caps_disconnect ip).2.trans h.addressCap,
      ⟨addresses.erase ip, (Multiset.coe_erase addresses ip).symm, hcounts.disconnect hip⟩,
      (Multiset.card_erase_le).trans h.total_le,
      fun hnonzero other =>
        (Multiset.count_le_of_le other (Multiset.erase_le ip _)).trans (h.count_le hnonzero other)⟩
  · have hnone : l.hasEntry ip = false := Bool.eq_false_of_not_eq_true (hip ∘ h.hasEntry_iff.1)
    rw [disconnect_of_no_entry hnone, Multiset.erase_of_notMem hip]
    exact h

theorem Accounts.call {state : ConnectionLimiter × Multiset IpAddress}
    (h : Accounts maxTotal maxPerAddress state.1 state.2) (c : LimiterCall) :
    Accounts maxTotal maxPerAddress (call state c).1 (call state c).2 := by
  cases c with
  | connect ip =>
    rw [ConnectionLimiter.call]
    cases hanswer : (state.1.tryConnect ip).1 with
    | ok admitted =>
      have hafter := h.admit hanswer
      rw [← Prod.eta (state.1.tryConnect ip), hanswer]
      exact hafter
    | error e =>
      rw [tryConnect_of_refused hanswer]
      exact h
  | disconnect ip => exact h.leave ip

theorem accounts_run (maxTotal maxPerAddress : Nat) (calls : List LimiterCall) :
    Accounts maxTotal maxPerAddress (run maxTotal maxPerAddress calls).1
      (run maxTotal maxPerAddress calls).2 := by
  induction calls using List.reverseRecOn with
  | nil => exact accounts_new maxTotal maxPerAddress
  | append_singleton calls c ih =>
    rw [run, List.foldl_append]
    exact ih.call c

/-- Whatever has been called, the limiter counts the live connections: all of them, and for each address
its own; it has an entry for just the addresses with some, and never more of them than the caps allow. No
count is above their number, so a word holds it as long as there are fewer than `2 ^ 32`. The next
connection is refused exactly if it meets a cap, first that of the relay, and a refusal leaves the limiter
as it is; and the end of a connection takes one from counts that are not zero, or changes nothing. -/
theorem counts_live_connections (maxTotal maxPerAddress : Nat) (calls : List LimiterCall) :
    let l := (run maxTotal maxPerAddress calls).1
    let live := (run maxTotal maxPerAddress calls).2
    l.total = live.card ∧ l.total = (l.counts.map Prod.snd).sum ∧
    (∀ ip, l.count ip = live.count ip) ∧ (∀ entry ∈ l.counts, 1 ≤ entry.2 ∧ entry.2 ≤ l.total) ∧
    l.addresses = live.toFinset.card ∧
    l.total ≤ maxTotal ∧ (maxPerAddress ≠ 0 → ∀ ip, l.count ip ≤ maxPerAddress) ∧
    ∀ ip,
      let answer := (l.tryConnect ip).1
      (answer = .error (.total l.total maxTotal) ↔ maxTotal ≤ l.total) ∧
      (answer = .error (.perAddress ip (l.count ip) maxPerAddress) ↔
        l.total < maxTotal ∧ maxPerAddress ≠ 0 ∧ maxPerAddress ≤ l.count ip) ∧
      (answer = .ok () ↔ l.total < maxTotal ∧ (maxPerAddress = 0 ∨ l.count ip < maxPerAddress)) ∧
      (answer ≠ .ok () → (l.tryConnect ip).2 = l) ∧
      (ip ∈ live → 1 ≤ l.count ip ∧ 1 ≤ l.total) ∧ (ip ∉ live → l.disconnect ip = l) := by
  intro l live
  have h : Accounts maxTotal maxPerAddress l live := accounts_run maxTotal maxPerAddress calls
  obtain ⟨addresses, hlive, hcounts⟩ := h.counts
  have hunique : l.addresses = live.toFinset.card := by
    rw [hcounts.addresses_eq, ← hlive, List.toFinset_coe]
  refine ⟨h.total, hcounts.sum_eq.symm, h.count, fun entry hentry => ?_, hunique,
    h.total ▸ h.total_le, fun hnonzero ip => h.count ip ▸ h.count_le hnonzero ip, fun ip => ?_⟩
  · obtain ⟨hpos, hcount⟩ := (hcounts.entry entry.1 entry.2).1 hentry
    rw [← hcount, hcounts.total]
    exact ⟨hcount ▸ hpos, List.count_le_length⟩
  obtain ⟨htotal, haddress, hok⟩ := l.tryConnect_answer ip
  rw [h.totalCap] at htotal haddress hok
  rw [h.addressCap] at haddress hok
  refine ⟨htotal, haddress, hok, fun hrefused => ?_, fun hip => ?_, fun hip => ?_⟩
  · cases hanswer : (l.tryConnect ip).1 with
    | ok admitted => exact absurd hanswer hrefused
    | error e => rw [tryConnect_of_refused hanswer]
  · rw [h.count, h.total]
    exact ⟨Multiset.count_pos.2 hip, Multiset.card_pos_iff_exists_mem.2 ⟨ip, hip⟩⟩
  · exact disconnect_of_no_entry (Bool.eq_false_of_not_eq_true (hip ∘ h.hasEntry_iff.1))

/-- One address is refused at its cap, a third at the cap of the relay; then an end comes of the one that was
never admitted, and one of the first. -/
def refusalsAndEnds : List LimiterCall :=
  [.connect (.v4 10 0 0 1), .connect (.v4 10 0 0 1), .connect (.v4 10 0 0 2), .connect (.v4 10 0 0 3),
    .disconnect (.v4 10 0 0 3), .disconnect (.v4 10 0 0 1)]

/-- What is left is one connection of the second address, which meets its cap again. -/
theorem counts_live_connections_refusalsAndEnds :
    let l := (run 2 1 refusalsAndEnds).1
    l.total = 1 ∧ l.addresses = 1 ∧ l.count (.v4 10 0 0 1) ≤ 1 ∧
    (l.tryConnect (.v4 10 0 0 2)).1 = .error (.perAddress (.v4 10 0 0 2) 1 1) ∧
    (l.tryConnect (.v4 10 0 0 2)).2 = l ∧ l.disconnect (.v4 10 0 0 1) = l := by
  obtain ⟨htotal, -, hcount, -, hunique, -, hcap, hnext⟩ := counts_live_connections 2 1 refusalsAndEnds
  have hlive : (run 2 1 refusalsAndEnds).2 = {.v4 10 0 0 2} := by decide
  rw [hlive] at htotal hcount hunique hnext
  have hsecond : (run 2 1 refusalsAndEnds).1.count (.v4 10 0 0 2) = 1 := hcount (.v4 10 0 0 2)
  obtain ⟨-, hrefused, -, hsame, -, -⟩ := hnext (.v4 10 0 0 2)
  rw [hsecond, htotal] at hrefused
  have hanswer := hrefused.2 (by decide)
  exact ⟨htotal, hunique, hcap (by decide) _, hanswer, hsame (by rw [hanswer]; exact nofun),
    (hnext (.v4 10 0 0 1)).2.2.2.2.2 (by decide)⟩

end ConnectionLimiter
end MixRelay
