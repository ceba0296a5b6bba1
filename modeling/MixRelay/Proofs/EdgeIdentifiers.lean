import MixRelay.EdgeIdTable
import MixRelay.Proofs.FreshDraws
import MixRelay.Proofs.RegistryLookups

/-!
# Looking identifiers up after a change

As no identifier stands in two pairs, a pair is found by either of its identifiers. A pair that is added
keeps that up: its identifiers are free, those that are recorded as well as those that are drawn.
-/
namespace MixRelay

/-- No two channels share an identifier, and no channel has two. -/
def NamesDistinct (names : List (ChannelId × ChannelId)) : Prop :=
  (names.map Prod.fst).Nodup ∧ (names.map Prod.snd).Nodup

namespace NamesDistinct
variable {names : List (ChannelId × ChannelId)} {p q : ChannelId × ChannelId}

theorem nil : NamesDistinct [] := ⟨List.nodup_nil, List.nodup_nil⟩

theorem filter (h : NamesDistinct names) (keep : ChannelId × ChannelId → Bool) :
    NamesDistinct (names.filter keep) :=
  ⟨h.1.sublist (List.filter_sublist.map _), h.2.sublist (List.filter_sublist.map _)⟩

theorem concat (h : NamesDistinct names) (hedge : p.1 ∉ names.map Prod.fst)
    (hlocal : p.2 ∉ names.map Prod.snd) : NamesDistinct (names ++ [p]) := by
  rw [NamesDistinct, List.map_append, List.map_append]
  exact ⟨List.concat_eq_append ▸ h.1.concat hedge, List.concat_eq_append ▸ h.2.concat hlocal⟩

/-- Two pairs that agree in one identifier agree in the other. -/
theorem fst_eq_iff_snd_eq (h : NamesDistinct names) (hp : p ∈ names) (hq : q ∈ names) :
    p.1 = q.1 ↔ p.2 = q.2 :=
  ⟨fun heq => congrArg Prod.snd (List.inj_on_of_nodup_map h.1 hp hq heq),
    fun heq => congrArg Prod.fst (List.inj_on_of_nodup_map h.2 hp hq heq)⟩

end NamesDistinct

namespace EdgeIdTable
variable {t : EdgeIdTable} {c d edge : ChannelId}

@[simp] theorem edgeId?_empty (c : ChannelId) : empty.edgeId? c = none := rfl

@[simp] theorem edgeId?_dropLocal_self (t : EdgeIdTable) (c : ChannelId) :
    (t.dropLocal c).edgeId? c = none := by
  simp [edgeId?, dropLocal]

theorem edgeId?_dropLocal_of_ne (h : d ≠ c) : (t.dropLocal c).edgeId? d = t.edgeId? d := by
  rw [edgeId?, dropLocal, List.find?_filter, edgeId?]
  congr 2
  funext p
  by_cases hp : p.2 = d <;> simp [hp, h]

theorem edgeId?_add_self (h : t.edgeId? c = none) : (t.add edge c).edgeId? c = some edge := by
  rw [edgeId?, Option.map_eq_none_iff] at h
  simp [edgeId?, add, List.find?_append, h]

theorem edgeId?_add_of_ne (h : d ≠ c) : (t.add edge c).edgeId? d = t.edgeId? d := by
  simp [edgeId?, add, List.find?_append, Ne.symm h]

/-- A channel is found under the identifier that it has just been given. -/
theorem edgeId?_allocate_self (t : EdgeIdTable) (c : ChannelId) (draws : Draws) :
    (t.allocate c draws).2.2.edgeId? c = some (t.allocate c draws).1 :=
  edgeId?_add_self (edgeId?_dropLocal_self t c)

theorem edgeId?_allocate_of_ne (h : d ≠ c) (draws : Draws) :
    (t.allocate c draws).2.2.edgeId? d = t.edgeId? d :=
  (edgeId?_add_of_ne h).trans (edgeId?_dropLocal_of_ne h)

theorem mem_of_edgeId? (h : t.edgeId? c = some edge) : (edge, c) ∈ t.pairs := by
  obtain ⟨p, hp, rfl⟩ := Option.map_eq_some_iff.1 h
  have hc : p.2 = c := by simpa using List.find?_some hp
  rw [← hc]
  exact List.mem_of_find?_eq_some hp

theorem mem_of_localId? (h : t.localId? edge = some c) : (edge, c) ∈ t.pairs := by
  obtain ⟨p, hp, rfl⟩ := Option.map_eq_some_iff.1 h
  have hedge : p.1 = edge := by simpa using List.find?_some hp
  rw [← hedge]
  exact List.mem_of_find?_eq_some hp

theorem edgeId?_eq_none : t.edgeId? c = none ↔ c ∉ t.pairs.map Prod.snd := by
  rw [edgeId?, Option.map_eq_none_iff, List.find?_eq_none, List.mem_map]
  constructor
  · rintro h ⟨p, hp, rfl⟩
    exact h p hp (decide_eq_true rfl)
  · intro h p hp hc
    exact h ⟨p, hp, of_decide_eq_true hc⟩

theorem containsEdge_iff : t.containsEdge edge = true ↔ edge ∈ t.pairs.map Prod.fst := by
  rw [containsEdge, localId?, Option.isSome_map, List.find?_isSome, List.mem_map]
  simp only [decide_eq_true_eq]

theorem containsLocal_iff : t.containsLocal c = true ↔ c ∈ t.pairs.map Prod.snd := by
  rw [containsLocal, ← not_iff_not, ← edgeId?_eq_none, Option.not_isSome_iff_eq_none]

theorem dropLocal_of_unknown (h : c ∉ t.pairs.map Prod.snd) : t.dropLocal c = t := by
  rw [dropLocal, List.filter_eq_self.2]
  intro p hp
  exact decide_eq_true fun heq => h (List.mem_map.2 ⟨p, hp, heq⟩)

theorem not_mem_dropLocal (t : EdgeIdTable) (c : ChannelId) : c ∉ (t.dropLocal c).pairs.map Prod.snd :=
  edgeId?_eq_none.1 (edgeId?_dropLocal_self t c)

theorem localId?_of_mem (h : (t.pairs.map Prod.fst).Nodup) (hmem : (edge, c) ∈ t.pairs) :
    t.localId? edge = some c :=
  congrArg (Option.map Prod.snd) (find?_key h hmem)

section Distinct
variable (h : NamesDistinct t.pairs)
include h

theorem edgeId?_eq_some_iff : t.edgeId? c = some edge ↔ (edge, c) ∈ t.pairs :=
  ⟨mem_of_edgeId?, fun hmem => congrArg (Option.map Prod.fst) (find?_key h.2 hmem)⟩

theorem localId?_eq_some_iff : t.localId? edge = some c ↔ (edge, c) ∈ t.pairs :=
  ⟨mem_of_localId?, localId?_of_mem h.1⟩

theorem eq_of_edgeId? (hc : t.edgeId? c = some edge) (hd : t.edgeId? d = some edge) : c = d :=
  (h.fst_eq_iff_snd_eq (mem_of_edgeId? hc) (mem_of_edgeId? hd)).1 rfl

theorem eq_of_localId? {other : ChannelId} (he : t.localId? edge = some c)
    (ho : t.localId? other = some c) : edge = other :=
  (h.fst_eq_iff_snd_eq (mem_of_localId? he) (mem_of_localId? ho)).2 rfl

theorem distinct_dropLocal (c : ChannelId) : NamesDistinct (t.dropLocal c).pairs := h.filter _

theorem distinct_dropEdge (edge : ChannelId) : NamesDistinct (t.dropEdge edge).pairs := h.filter _

theorem distinct_insert (edge c : ChannelId) : NamesDistinct (t.insert edge c).2.pairs := by
  unfold insert
  split
  · exact h
  · rename_i hfree
    rw [Bool.or_eq_true, not_or, containsEdge_iff, containsLocal_iff] at hfree
    exact h.concat hfree.1 hfree.2

/-- Without the channel fewer than all identifiers of the edge are taken. -/
theorem size_dropLocal_lt (c : ChannelId) : (t.dropLocal c).size < 2 ^ 32 := by
  have hlocals := List.nodup_cons.2 ⟨not_mem_dropLocal t c, (distinct_dropLocal h c).2⟩
  have hlength := length_lt_of_nodup_cons hlocals
  rw [List.length_map] at hlength
  exact hlength

/-- The identifier that is drawn for a channel is no other channel's. -/
theorem allocate_free (c : ChannelId) (draws : Draws) :
    (t.dropLocal c).containsEdge (t.allocate c draws).1 = false :=
  Draws.firstFree_free (fun _ hedge => containsEdge_iff.1 hedge) (Nat.le_of_eq (List.length_map _))
    (size_dropLocal_lt h c) draws

theorem distinct_allocate (c : ChannelId) (draws : Draws) :
    NamesDistinct (t.allocate c draws).2.2.pairs := by
  refine (distinct_dropLocal h c).concat (fun hmem => ?_) (not_mem_dropLocal t c)
  exact absurd ((allocate_free h c draws).symm.trans (containsEdge_iff.2 hmem)) nofun

end Distinct

end EdgeIdTable
end MixRelay
