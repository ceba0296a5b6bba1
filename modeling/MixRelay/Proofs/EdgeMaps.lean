import MixRelay.Proofs.EdgeMirror
import Mathlib.Data.Finmap

/-!
# The identifiers of an edge as two maps

A relay looks identifiers up both ways, so the pairs of an edge may be kept as two maps, and each operation
changes first the one and then the other. Whatever is asked of them, the two stay inverse to each other and
say what the pairs say. An operation changes one pair only, and an allocation ends with the first draw that
names no other channel.
-/
namespace MixRelay

/-- The pairs of an edge as one map from the local identifiers and one from those of the edge. -/
structure EdgeMaps where
  byLocal : Finmap fun _ : ChannelId => ChannelId
  byEdge : Finmap fun _ : ChannelId => ChannelId

/-- What is asked of the identifiers of an edge. An allocation comes with its source of draws. -/
inductive TableCall
  | allocate (localId : ChannelId) (draws : Draws)
  | insert (edge localId : ChannelId)
  | removeLocal (localId : ChannelId)
  | removeEdge (edge : ChannelId)

inductive TableAnswer
  | allocated (edge : ChannelId) (rest : Draws)
  | inserted (done : Bool)
  | removed (other : Option ChannelId)
  deriving DecidableEq

namespace EdgeMaps

def empty : EdgeMaps := ⟨∅, ∅⟩

def assign (m : EdgeMaps) (edge localId : ChannelId) : EdgeMaps :=
  ⟨m.byLocal.insert localId edge, m.byEdge.insert edge localId⟩

def forget (m : EdgeMaps) (edge localId : ChannelId) : EdgeMaps :=
  ⟨m.byLocal.erase localId, m.byEdge.erase edge⟩

def removeLocal (m : EdgeMaps) (localId : ChannelId) : Option ChannelId × EdgeMaps :=
  match m.byLocal.lookup localId with
  | none => (none, m)
  | some edge => (some edge, m.forget edge localId)

def removeEdge (m : EdgeMaps) (edge : ChannelId) : Option ChannelId × EdgeMaps :=
  match m.byEdge.lookup edge with
  | none => (none, m)
  | some localId => (some localId, m.forget edge localId)

def insert (m : EdgeMaps) (edge localId : ChannelId) : Bool × EdgeMaps :=
  if edge ∈ m.byEdge ∨ localId ∈ m.byLocal then (false, m) else (true, m.assign edge localId)

def allocate (m : EdgeMaps) (localId : ChannelId) (draws : Draws) : ChannelId × Draws × EdgeMaps :=
  let m := (m.removeLocal localId).2
  let (edge, draws) := draws.firstFree m.byEdge.keys.card fun v => decide (v ∈ m.byEdge)
  (edge, draws, m.assign edge localId)

def call (m : EdgeMaps) : TableCall → TableAnswer × EdgeMaps
  | .allocate c draws =>
    let (edge, rest, m) := m.allocate c draws
    (.allocated edge rest, m)
  | .insert edge c => (.inserted (m.insert edge c).1, (m.insert edge c).2)
  | .removeLocal c => (.removed (m.removeLocal c).1, (m.removeLocal c).2)
  | .removeEdge edge => (.removed (m.removeEdge edge).1, (m.removeEdge edge).2)

def run (calls : List TableCall) : EdgeMaps := calls.foldl (fun m x => (m.call x).2) empty

/-- The loop of an allocation. Whatever the channel was called is free before the first draw. -/
def RedrawsFor (m : EdgeMaps) (localId : ChannelId) (source : Nat → ChannelId) (last : Nat) : Prop :=
  Redraws (· ∈ (m.removeLocal localId).2.byEdge) source 0 last

end EdgeMaps

namespace EdgeIdTable
variable {t : EdgeIdTable} {c d edge : ChannelId}

def call (t : EdgeIdTable) : TableCall → TableAnswer × EdgeIdTable
  | .allocate c draws =>
    let (edge, rest, t) := t.allocate c draws
    (.allocated edge rest, t)
  | .insert edge c => (.inserted (t.insert edge c).1, (t.insert edge c).2)
  | .removeLocal c => (.removed (t.removeLocal c).1, (t.removeLocal c).2)
  | .removeEdge edge => (.removed (t.removeEdge edge).1, (t.removeEdge edge).2)

def run (calls : List TableCall) : EdgeIdTable := calls.foldl (fun t x => (t.call x).2) empty

/-- An identifier of the edge that a channel other than `c` has. -/
def NamesOther (t : EdgeIdTable) (c edge : ChannelId) : Prop := ∃ d, t.localId? edge = some d ∧ d ≠ c

theorem mem_dropLocal {p : ChannelId × ChannelId} :
    p ∈ (t.dropLocal c).pairs ↔ p ∈ t.pairs ∧ p.2 ≠ c := by
  rw [dropLocal, List.mem_filter, decide_eq_true_eq]

theorem mem_dropEdge {p : ChannelId × ChannelId} :
    p ∈ (t.dropEdge edge).pairs ↔ p ∈ t.pairs ∧ p.1 ≠ edge := by
  rw [dropEdge, List.mem_filter, decide_eq_true_eq]

/-- A pair is forgotten by either of its identifiers. -/
theorem dropEdge_eq_dropLocal (h : NamesDistinct t.pairs) (hmem : (edge, c) ∈ t.pairs) :
    t.dropEdge edge = t.dropLocal c :=
  congrArg EdgeIdTable.mk <| List.filter_congr fun _ hp =>
    decide_eq_decide.2 (not_congr (h.fst_eq_iff_snd_eq hp hmem))

theorem containsEdge_dropLocal_iff (h : NamesDistinct t.pairs) :
    (t.dropLocal c).containsEdge edge = true ↔ t.NamesOther c edge := by
  rw [containsEdge_iff, List.mem_map, NamesOther]
  constructor
  · rintro ⟨⟨e, d⟩, hmem, rfl⟩
    obtain ⟨hpair, hne⟩ := mem_dropLocal.1 hmem
    exact ⟨d, (localId?_eq_some_iff h).2 hpair, hne⟩
  · rintro ⟨d, hd, hne⟩
    exact ⟨(edge, d), mem_dropLocal.2 ⟨(localId?_eq_some_iff h).1 hd, hne⟩, rfl⟩

/-- An allocation ends with the first draw that names no other channel. -/
theorem allocate_redraws (h : NamesDistinct t.pairs) (c : ChannelId) (draws : Draws) :
    ∃ last, Redraws (t.NamesOther c) draws.word 0 last ∧
      t.allocate c draws =
        (draws.word last, (draws.take (last + 1)).2, (t.dropLocal c).add (draws.word last) c) := by
  obtain ⟨last, hbefore, hlast, heq⟩ := Draws.search_eq_word (allocate_free h c draws)
  refine ⟨last, redraws_zero_iff.2 ⟨?_, fun i hi => (containsEdge_dropLocal_iff h).1 (hbefore i hi)⟩, ?_⟩
  · rw [← containsEdge_dropLocal_iff h, hlast]
    exact Bool.false_ne_true
  · rw [allocate, Draws.firstFree, heq]

end EdgeIdTable

namespace EdgeMaps
variable {m : EdgeMaps} {t : EdgeIdTable} {c edge : ChannelId}

/-- Both maps hold the pairs of a table, no two of which share an identifier. -/
structure Holds (m : EdgeMaps) (t : EdgeIdTable) : Prop where
  distinct : NamesDistinct t.pairs
  byLocal : ∀ c edge, m.byLocal.lookup c = some edge ↔ (edge, c) ∈ t.pairs
  byEdge : ∀ edge c, m.byEdge.lookup edge = some c ↔ (edge, c) ∈ t.pairs

theorem holds_empty : Holds empty EdgeIdTable.empty where
  distinct := .nil
  byLocal c edge := by simp [empty, EdgeIdTable.empty]
  byEdge edge c := by simp [empty, EdgeIdTable.empty]

theorem Holds.lookup_byLocal (h : m.Holds t) (c : ChannelId) : m.byLocal.lookup c = t.edgeId? c :=
  Option.ext fun edge => (h.byLocal c edge).trans (EdgeIdTable.edgeId?_eq_some_iff h.distinct).symm

theorem Holds.lookup_byEdge (h : m.Holds t) (edge : ChannelId) : m.byEdge.lookup edge = t.localId? edge :=
  Option.ext fun c => (h.byEdge edge c).trans (EdgeIdTable.localId?_eq_some_iff h.distinct).symm

theorem Holds.mem_byLocal (h : m.Holds t) : c ∈ m.byLocal ↔ t.containsLocal c = true := by
  rw [← Finmap.lookup_isSome, h.lookup_byLocal, EdgeIdTable.containsLocal]

theorem Holds.mem_byEdge (h : m.Holds t) : edge ∈ m.byEdge ↔ t.containsEdge edge = true := by
  rw [← Finmap.lookup_isSome, h.lookup_byEdge, EdgeIdTable.containsEdge]

/-- Each map has as many entries as there are pairs. -/
theorem Holds.card (h : m.Holds t) : m.byLocal.keys.card = t.size ∧ m.byEdge.keys.card = t.size := by
  have hlocals : m.byLocal.keys = (t.pairs.map Prod.snd).toFinset := by
    ext c
    rw [Finmap.mem_keys, h.mem_byLocal, List.mem_toFinset, EdgeIdTable.containsLocal_iff]
  have hedges : m.byEdge.keys = (t.pairs.map Prod.fst).toFinset := by
    ext edge
    rw [Finmap.mem_keys, h.mem_byEdge, List.mem_toFinset, EdgeIdTable.containsEdge_iff]
  rw [hlocals, hedges, List.toFinset_card_of_nodup h.distinct.2, List.toFinset_card_of_nodup h.distinct.1,
    List.length_map, List.length_map]
  exact ⟨rfl, rfl⟩

theorem Holds.assign (h : m.Holds t) (hedge : edge ∉ t.pairs.map Prod.fst)
    (hc : c ∉ t.pairs.map Prod.snd) : (m.assign edge c).Holds (t.add edge c) where
  distinct := h.distinct.concat hedge hc
  byLocal d e := by
    rw [EdgeMaps.assign, EdgeIdTable.add, List.mem_append, List.mem_singleton, Prod.mk.injEq]
    by_cases hd : d = c
    · subst hd
      have hnone : (e, d) ∉ t.pairs := fun hmem => hc (List.mem_map.2 ⟨_, hmem, rfl⟩)
      simp [hnone, eq_comm]
    · simp [Finmap.lookup_insert_of_ne _ hd, h.byLocal, hd]
  byEdge e d := by
    rw [EdgeMaps.assign, EdgeIdTable.add, List.mem_append, List.mem_singleton, Prod.mk.injEq]
    by_cases he : e = edge
    · subst he
      have hnone : (e, d) ∉ t.pairs := fun hmem => hedge (List.mem_map.2 ⟨_, hmem, rfl⟩)
      simp [hnone, eq_comm]
    · simp [Finmap.lookup_insert_of_ne _ he, h.byEdge, he]

theorem Holds.forget (h : m.Holds t) (hmem : (edge, c) ∈ t.pairs) :
    (m.forget edge c).Holds (t.dropLocal c) where
  distinct := EdgeIdTable.distinct_dropLocal h.distinct c
  byLocal d e := by
    rw [EdgeMaps.forget, EdgeIdTable.mem_dropLocal]
    by_cases hd : d = c
    · subst hd
      simp
    · simp [Finmap.lookup_erase_ne hd, h.byLocal, hd]
  byEdge e d := by
    rw [EdgeMaps.forget, ← EdgeIdTable.dropEdge_eq_dropLocal h.distinct hmem, EdgeIdTable.mem_dropEdge]
    by_cases he : e = edge
    · subst he
      simp
    · simp [Finmap.lookup_erase_ne he, h.byEdge, he]

theorem Holds.removeLocal (h : m.Holds t) (c : ChannelId) :
    (m.removeLocal c).1 = (t.removeLocal c).1 ∧ (m.removeLocal c).2.Holds (t.removeLocal c).2 := by
  rw [EdgeMaps.removeLocal, EdgeIdTable.removeLocal, h.lookup_byLocal]
  cases hc : t.edgeId? c with
  | none =>
    rw [EdgeIdTable.dropLocal_of_unknown (EdgeIdTable.edgeId?_eq_none.1 hc)]
    exact ⟨rfl, h⟩
  | some edge => exact ⟨rfl, h.forget (EdgeIdTable.mem_of_edgeId? hc)⟩

theorem Holds.removeEdge (h : m.Holds t) (edge : ChannelId) :
    (m.removeEdge edge).1 = (t.removeEdge edge).1 ∧ (m.removeEdge edge).2.Holds (t.removeEdge edge).2 := by
  rw [EdgeMaps.removeEdge, EdgeIdTable.removeEdge, h.lookup_byEdge]
  cases hedge : t.localId? edge with
  | none =>
    have hsame : t.dropEdge edge = t := by
      refine congrArg EdgeIdTable.mk (List.filter_eq_self.2 fun p hp => decide_eq_true fun heq => ?_)
      have hfound := EdgeIdTable.localId?_of_mem h.distinct.1 hp
      rw [heq, hedge] at hfound
      cases hfound
    rw [hsame]
    exact ⟨rfl, h⟩
  | some c =>
    have hmem := EdgeIdTable.mem_of_localId? hedge
    rw [EdgeIdTable.dropEdge_eq_dropLocal h.distinct hmem]
    exact ⟨rfl, h.forget hmem⟩

theorem Holds.insert (h : m.Holds t) (edge c : ChannelId) :
    (m.insert edge c).1 = (t.insert edge c).1 ∧ (m.insert edge c).2.Holds (t.insert edge c).2 := by
  have htaken : (t.containsEdge edge || t.containsLocal c) = true ↔
      edge ∈ m.byEdge ∨ c ∈ m.byLocal := by
    rw [Bool.or_eq_true, h.mem_byEdge, h.mem_byLocal]
  rw [EdgeMaps.insert, EdgeIdTable.insert]
  by_cases htake : edge ∈ m.byEdge ∨ c ∈ m.byLocal
  · rw [if_pos htake, if_pos (htaken.2 htake)]
    exact ⟨rfl, h⟩
  · rw [if_neg htake, if_neg (htaken.not.2 htake)]
    rw [h.mem_byEdge, h.mem_byLocal, not_or, EdgeIdTable.containsEdge_iff,
      EdgeIdTable.containsLocal_iff] at htake
    exact ⟨rfl, h.assign htake.1 htake.2⟩

theorem Holds.taken_eq (h : m.Holds t) : (fun v => decide (v ∈ m.byEdge)) = t.containsEdge := by
  funext v
  simp [h.mem_byEdge]

theorem Holds.allocate (h : m.Holds t) (c : ChannelId) (draws : Draws) :
    (m.allocate c draws).1 = (t.allocate c draws).1 ∧
      (m.allocate c draws).2.1 = (t.allocate c draws).2.1 ∧
      (m.allocate c draws).2.2.Holds (t.allocate c draws).2.2 := by
  have hfreed : (m.removeLocal c).2.Holds (t.dropLocal c) := (h.removeLocal c).2
  obtain ⟨last, hredraws, heq⟩ := EdgeIdTable.allocate_redraws h.distinct c draws
  have hnew : draws.word last ∉ (t.dropLocal c).pairs.map Prod.fst := by
    rw [← EdgeIdTable.containsEdge_iff, EdgeIdTable.containsEdge_dropLocal_iff h.distinct]
    exact (redraws_zero_iff.1 hredraws).1
  have hsame : draws.firstFree (m.removeLocal c).2.byEdge.keys.card
      (fun v => decide (v ∈ (m.removeLocal c).2.byEdge)) =
        ((t.allocate c draws).1, (t.allocate c draws).2.1) := by
    rw [hfreed.taken_eq, hfreed.card.2]
    rfl
  rw [EdgeMaps.allocate]
  dsimp only
  rw [hsame, heq]
  exact ⟨rfl, rfl, hfreed.assign hnew (EdgeIdTable.not_mem_dropLocal t c)⟩

/-- Both answer a call alike, and the maps still hold the pairs. -/
theorem Holds.call (h : m.Holds t) (next : TableCall) :
    (m.call next).1 = (t.call next).1 ∧ (m.call next).2.Holds (t.call next).2 := by
  cases next with
  | allocate c draws =>
    obtain ⟨hedge, hrest, hafter⟩ := h.allocate c draws
    exact ⟨congrArg₂ TableAnswer.allocated hedge hrest, hafter⟩
  | insert edge c => exact ⟨congrArg _ (h.insert edge c).1, (h.insert edge c).2⟩
  | removeLocal c => exact ⟨congrArg _ (h.removeLocal c).1, (h.removeLocal c).2⟩
  | removeEdge edge => exact ⟨congrArg _ (h.removeEdge edge).1, (h.removeEdge edge).2⟩

theorem holds_run (calls : List TableCall) : (run calls).Holds (EdgeIdTable.run calls) := by
  induction calls using List.reverseRecOn with
  | nil => exact holds_empty
  | append_singleton calls next ih =>
    rw [run, EdgeIdTable.run, List.foldl_append, List.foldl_append]
    exact (ih.call next).2

/-- The loop of an allocation ends with the first word that names no other channel. -/
theorem Holds.redrawsFor_iff (h : m.Holds t) {source : Nat → ChannelId} {last : Nat} :
    m.RedrawsFor c source last ↔ Redraws (t.NamesOther c) source 0 last := by
  have htaken : (· ∈ (m.removeLocal c).2.byEdge) = t.NamesOther c := by
    funext edge
    rw [(h.removeLocal c).2.mem_byEdge]
    exact propext (EdgeIdTable.containsEdge_dropLocal_iff h.distinct)
  rw [RedrawsFor, htaken]

end EdgeMaps

namespace EdgeIdTable
variable {t : EdgeIdTable} {c edge : ChannelId}

theorem edgeId?_allocate (t : EdgeIdTable) (c : ChannelId) (draws : Draws) :
    (t.allocate c draws).2.2.edgeId? = Function.update t.edgeId? c (some (t.allocate c draws).1) :=
  Function.eq_update_iff.2 ⟨edgeId?_allocate_self t c draws, fun _ hd => edgeId?_allocate_of_ne hd draws⟩

theorem edgeId?_removeLocal (t : EdgeIdTable) (c : ChannelId) :
    (t.removeLocal c).2.edgeId? = Function.update t.edgeId? c none :=
  Function.eq_update_iff.2 ⟨edgeId?_dropLocal_self t c, fun _ hd => edgeId?_dropLocal_of_ne hd⟩

theorem localId?_removeEdge (t : EdgeIdTable) (edge : ChannelId) :
    (t.removeEdge edge).2.localId? = Function.update t.localId? edge none := by
  refine Function.eq_update_iff.2 ⟨?_, fun e he => ?_⟩
  · simp [removeEdge, dropEdge, localId?, List.find?_filter]
  · rw [removeEdge, dropEdge, localId?, List.find?_filter, localId?]
    congr 2
    funext p
    by_cases hp : p.1 = e <;> simp [hp, he]

/-- A pair is recorded unless one of its identifiers is taken, and then nothing changes. -/
theorem insert_cases (t : EdgeIdTable) (edge c : ChannelId) :
    (t.insert edge c = (false, t) ∧ ((t.localId? edge).isSome ∨ (t.edgeId? c).isSome)) ∨
      ((t.insert edge c).1 = true ∧ t.localId? edge = none ∧ t.edgeId? c = none ∧
        (t.insert edge c).2.edgeId? = Function.update t.edgeId? c (some edge)) := by
  unfold insert
  split
  · rename_i htaken
    exact .inl ⟨rfl, Bool.or_eq_true_iff.1 htaken⟩
  · rename_i hfree
    rw [Bool.or_eq_true, not_or, containsEdge, containsLocal, Option.not_isSome_iff_eq_none,
      Option.not_isSome_iff_eq_none] at hfree
    exact .inr ⟨rfl, hfree.1, hfree.2,
      Function.eq_update_iff.2 ⟨edgeId?_add_self hfree.2, fun _ hd => edgeId?_add_of_ne hd⟩⟩

/-- Whatever has been asked of the identifiers of an edge, from any sources of draws, two maps serve as well
as the pairs: both answer alike, the maps are inverse to each other with one entry for each pair, and no
identifier stands in two pairs. The next allocation gives a name that no other channel has and changes no
other channel's; a pair is recorded unless one of its identifiers is taken, and then nothing changes; a
removal changes the one pair. On any source the loop of an allocation ends with the first word that names no
other channel, so it has an end wherever there is such a word, and that word is the answer. -/
theorem maps_stay_inverse (calls : List TableCall) :
    let t := run calls
    let m := EdgeMaps.run calls
    (∀ c, t.edgeId? c = m.byLocal.lookup c) ∧ (∀ edge, t.localId? edge = m.byEdge.lookup edge) ∧
    (∀ next, (t.call next).1 = (m.call next).1) ∧
    (∀ c edge, m.byLocal.lookup c = some edge ↔ m.byEdge.lookup edge = some c) ∧
    m.byLocal.keys.card = t.size ∧ m.byEdge.keys.card = t.size ∧ NamesDistinct t.pairs ∧
    (∀ c draws, ¬ t.NamesOther c (t.allocate c draws).1 ∧
      (t.allocate c draws).2.2.edgeId? = Function.update t.edgeId? c (some (t.allocate c draws).1)) ∧
    (∀ edge c,
      ((t.insert edge c).1 = false ↔ (t.localId? edge).isSome ∨ (t.edgeId? c).isSome) ∧
      ((t.insert edge c).1 = false → (t.insert edge c).2 = t) ∧
      ((t.insert edge c).1 = true →
        (t.insert edge c).2.edgeId? = Function.update t.edgeId? c (some edge))) ∧
    (∀ c, (t.removeLocal c).1 = t.edgeId? c ∧
      (t.removeLocal c).2.edgeId? = Function.update t.edgeId? c none) ∧
    (∀ edge, (t.removeEdge edge).1 = t.localId? edge ∧
      (t.removeEdge edge).2.localId? = Function.update t.localId? edge none) ∧
    ∀ c source,
      (∀ last, m.RedrawsFor c source last ↔
        ¬ t.NamesOther c (source last) ∧ ∀ i < last, t.NamesOther c (source i)) ∧
      ((∃ n, ¬ t.NamesOther c (source n)) → ∃ last, m.RedrawsFor c source last) ∧
      ∀ last, m.RedrawsFor c source last → ∀ draws : Draws, (∀ i ≤ last, draws.word i = source i) →
        (t.allocate c draws).1 = source last ∧ (t.allocate c draws).2.1 = (draws.take (last + 1)).2 := by
  intro t m
  have h : m.Holds t := EdgeMaps.holds_run calls
  refine ⟨fun c => (h.lookup_byLocal c).symm, fun edge => (h.lookup_byEdge edge).symm,
    fun next => (h.call next).1.symm, fun c edge => (h.byLocal c edge).trans (h.byEdge edge c).symm,
    h.card.1, h.card.2, h.distinct, fun c draws => ⟨?_, edgeId?_allocate t c draws⟩, fun edge c => ?_,
    fun c => ⟨rfl, edgeId?_removeLocal t c⟩, fun edge => ⟨rfl, localId?_removeEdge t edge⟩,
    fun c source => ⟨fun last => h.redrawsFor_iff.trans redraws_zero_iff, ?_, ?_⟩⟩
  · obtain ⟨last, hredraws, heq⟩ := allocate_redraws h.distinct c draws
    rw [heq]
    exact (redraws_zero_iff.1 hredraws).1
  · rcases t.insert_cases edge c with ⟨heq, htaken⟩ | ⟨hdone, hedge, hc, hafter⟩
    · simp [heq, htaken]
    · simp [hdone, hedge, hc, hafter]
  · intro hfree
    classical
    refine ⟨Nat.find hfree, h.redrawsFor_iff.2 (redraws_zero_iff.2 ⟨Nat.find_spec hfree, ?_⟩)⟩
    exact fun i hi => not_not.1 (Nat.find_min hfree hi)
  · intro last hlast draws hsource
    obtain ⟨drawn, hredraws, heq⟩ := allocate_redraws h.distinct c draws
    obtain rfl := (h.redrawsFor_iff.1 hlast).unique hredraws hsource
    rw [heq]
    exact ⟨hsource drawn (Nat.le_refl drawn), rfl⟩

/-- Two channels have names, and the name of the second is refused to a third. -/
def twoNamed : List TableCall := [.insert 7 1, .insert 9 2, .insert 9 3]

/-- The first channel is named anew. The name of the second is drawn again, and the own one may come back. -/
theorem maps_stay_inverse_ownName :
    let t := run twoNamed
    let m := EdgeMaps.run twoNamed
    t.size = 2 ∧ m.byLocal.lookup 2 = some 9 ∧ m.byEdge.lookup 9 = some 2 ∧ (t.insert 9 3).2 = t ∧
    m.RedrawsFor 1 (fun n => if n = 0 then 9 else 7) 1 ∧
    (t.allocate 1 ⟨[9, 7, 3], 4⟩).1 = 7 ∧ (t.allocate 1 ⟨[9, 7, 3], 4⟩).2.1 = ⟨[3], 4⟩ := by
  obtain ⟨-, hedges, -, hinverse, -, -, -, -, hinsert, -, -, hloop⟩ := maps_stay_inverse twoNamed
  obtain ⟨hends, -, hdrawn⟩ := hloop 1 fun n => if n = 0 then 9 else 7
  have hsecond : (EdgeMaps.run twoNamed).byEdge.lookup 9 = some 2 := (hedges 9).symm
  have hlast : (EdgeMaps.run twoNamed).RedrawsFor 1 (fun n => if n = 0 then 9 else 7) 1 := by
    refine (hends 1).2 ⟨fun hother => ?_, fun i hi => ?_⟩
    · obtain ⟨d, hd, hne⟩ := hother
      exact hne (Option.some.inj hd).symm
    · obtain rfl : i = 0 := by omega
      exact ⟨2, rfl, by decide⟩
  have hnext := hdrawn 1 hlast ⟨[9, 7, 3], 4⟩ fun i hi => by
    obtain rfl | rfl : i = 0 ∨ i = 1 := by omega
    · rfl
    · rfl
  exact ⟨rfl, (hinverse 2 9).2 hsecond, hsecond, (hinsert 9 3).2.1 rfl, hlast, hnext.1, hnext.2⟩

end EdgeIdTable
end MixRelay
