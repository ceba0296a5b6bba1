import MixRelay.HeldChannels
import MixRelay.Proofs.RegistryLookups
import MixRelay.Proofs.Runs

/-!
# Channels that a poll has in hand

A poll takes up the registered channels one by one and goes on with them whatever becomes of the registry.
A channel in hand keeps its identifier when it is changed, and it stays in hand when it leaves the registry
or when others join.
-/
namespace MixRelay.HeldChannels

/-- The poll takes a channel in hand. -/
def grasp (h : HeldChannels) (id : ChannelId) : HeldChannels := h.take id.toNat id

/-- The channel that the poll has in hand, wherever it is. -/
def inHand (h : HeldChannels) (id : ChannelId) : Except RegistryError (Hold × Channel) :=
  h.resolve (some id.toNat) id

def join (h : HeldChannels) (id : ChannelId) : HeldChannels :=
  match h.registry.create id with
  | .ok registry => { h with registry }
  | .error _ => h

def leave (h : HeldChannels) (id : ChannelId) : HeldChannels :=
  match h.remove id with
  | .ok h => h
  | .error _ => h

variable {h : HeldChannels} {id : ChannelId}

@[simp] theorem registry_grasp (h : HeldChannels) (id : ChannelId) :
    (h.grasp id).registry = h.registry := rfl

@[simp] theorem registry_graspAll (h : HeldChannels) (ids : List ChannelId) :
    (ids.foldl grasp h).registry = h.registry := by
  induction ids generalizing h with
  | nil => rfl
  | cons id ids ih => rw [List.foldl_cons, ih, registry_grasp]

/-- The poll has the registered channel in hand. -/
def Grasps (h : HeldChannels) (id : ChannelId) : Prop := h.hold? id.toNat = some (.registered id)

theorem grasps_grasp (h : HeldChannels) (id : ChannelId) : (h.grasp id).Grasps id := by
  simp [Grasps, grasp, take, hold?]

theorem Grasps.grasp (hid : h.Grasps id) (other : ChannelId) : (h.grasp other).Grasps id := by
  by_cases heq : other = id
  · exact heq ▸ grasps_grasp h other
  · have hne : other.toNat ≠ id.toNat := fun hsame => heq (UInt32.toNat.inj hsame)
    rw [Grasps, HeldChannels.grasp, take, hold?, List.find?_cons_of_neg (by simpa using hne)]
    exact hid

theorem Grasps.graspAll (hid : h.Grasps id) (ids : List ChannelId) :
    (ids.foldl HeldChannels.grasp h).Grasps id :=
  @foldl_invariant _ _ HeldChannels.grasp (fun h => h.Grasps id) (fun _ other hh => hh.grasp other)
    _ ids hid

theorem grasps_graspAll (h : HeldChannels) {ids : List ChannelId} (hid : id ∈ ids) :
    (ids.foldl grasp h).Grasps id := by
  induction ids generalizing h with
  | nil => cases hid
  | cons other ids ih =>
    rw [List.foldl_cons]
    rcases List.mem_cons.1 hid with rfl | hid
    · exact (grasps_grasp h id).graspAll ids
    · exact ih (h.grasp other) hid

theorem Grasps.inHand_of_some (hid : h.Grasps id) {c : Channel} (hc : h.registry.find? id = some c) :
    h.inHand id = .ok (.registered id, c) := by
  have hhold : h.hold? id.toNat = some (.registered id) := hid
  simp only [inHand, resolve, hhold, Option.bind_some, channel?, hc, Option.map_some]

theorem Grasps.inHand_of_none (hid : h.Grasps id) (hc : h.registry.find? id = none) :
    h.inHand id = .error (.notFound id) := by
  have hhold : h.hold? id.toNat = some (.registered id) := hid
  simp only [inHand, resolve, hhold, Option.bind_some, channel?, hc, Option.map_none]

theorem channel?_of_inHand {hold : Hold} {c : Channel} (hc : h.inHand id = .ok (hold, c)) :
    h.channel? hold = some c := by
  rw [inHand, resolve] at hc
  split at hc
  · rename_i found hfound
    cases hc
    obtain ⟨other, -, hother⟩ := Option.bind_eq_some_iff.1 hfound
    obtain ⟨d, hd, heq⟩ := Option.map_eq_some_iff.1 hother
    cases heq
    exact hd
  · cases hc

/-- A channel that leaves is kept for those who have it in hand. -/
theorem leave_cases (h : HeldChannels) (id : ChannelId) :
    h.leave id = h ∨ ∃ c, h.registry.find? id = some c ∧
      h.leave id = ⟨h.registry.discard id, h.removed ++ [c], h.holds.map fun entry =>
        (entry.1, if entry.2 = .registered id then .removed h.removed.length else entry.2)⟩ := by
  unfold leave remove ChannelRegistry.lookup ChannelRegistry.remove ChannelRegistry.contains
  cases hc : h.registry.find? id with
  | none => exact .inl rfl
  | some c => exact .inr ⟨c, rfl, rfl⟩

/-- The poll has a channel of this identifier in hand, be it registered or not. -/
def Has (h : HeldChannels) (id : ChannelId) : Prop :=
  ∃ hold c, h.hold? id.toNat = some hold ∧ h.channel? hold = some c ∧ c.id = id

theorem Grasps.has (hid : h.Grasps id) (hmem : id ∈ h.registry.ids) : h.Has id := by
  obtain ⟨c, hc⟩ := Option.isSome_iff_exists.1 (ChannelRegistry.contains_iff.2 hmem)
  exact ⟨_, c, hid, hc, ChannelRegistry.find?_some_id hc⟩

theorem Has.inHand (hid : h.Has id) : ∃ hold c, h.inHand id = .ok (hold, c) ∧ c.id = id := by
  obtain ⟨hold, c, hhold, hc, hcid⟩ := hid
  refine ⟨hold, c, ?_, hcid⟩
  simp only [HeldChannels.inHand, resolve, hhold, Option.bind_some, hc, Option.map_some]

/-- A channel that is changed stays in hand as long as it keeps its identifier. -/
theorem Has.modify (hid : h.Has id) {hold : Hold} {f : Channel → Channel}
    (hf : ∀ c d, h.channel? hold = some c → d.id = c.id → (f d).id = c.id) :
    (h.modify hold f).Has id := by
  obtain ⟨own, c, hown, hc, rfl⟩ := hid
  cases hold with
  | registered i =>
    cases own with
    | removed j => exact ⟨.removed j, c, hown, hc, rfl⟩
    | registered j =>
      have hj : c.id = j := ChannelRegistry.find?_some_id hc
      by_cases hij : j = i
      · subst hij
        refine ⟨.registered j, f c, hown, ?_, hf c c hc rfl⟩
        have hfound := ChannelRegistry.find?_modify_self (r := h.registry) (f := f)
          fun d hd => (hf c d hc (hd.trans hj.symm)).trans hj
        exact hfound.trans (congrArg (Option.map f) hc)
      · refine ⟨.registered j, c, hown, ?_, rfl⟩
        cases hi : h.registry.find? i with
        | none => rwa [HeldChannels.modify, ChannelRegistry.modify_of_find?_none hi]
        | some d =>
          have hd := ChannelRegistry.find?_some_id hi
          have hkept : ∀ e : Channel, e.id = i → (f e).id = i :=
            fun e he => (hf d e hi (he.trans hd.symm)).trans hd
          exact (ChannelRegistry.find?_modify_of_ne hkept hij).trans hc
  | removed i =>
    cases own with
    | registered j => exact ⟨.registered j, c, hown, hc, rfl⟩
    | removed j =>
      have hc : h.removed[j]? = some c := hc
      refine ⟨.removed j, if i = j then f c else c, hown, ?_, ?_⟩
      · rw [HeldChannels.modify, channel?, List.getElem?_modify, hc]
        rfl
      · split
        · rename_i hij
          exact hf c c (hij ▸ hc) rfl
        · rfl

theorem Has.mapRegistry (hid : h.Has id) {registry : ChannelRegistry} {f : Channel → Channel}
    (hf : ∀ c, (f c).id = c.id) (hchannels : registry.channels = h.registry.channels.map f) :
    HeldChannels.Has { h with registry } id := by
  obtain ⟨own, c, hown, hc, rfl⟩ := hid
  cases own with
  | removed i => exact ⟨.removed i, c, hown, hc, rfl⟩
  | registered i =>
    refine ⟨.registered i, f c, hown, ?_, hf c⟩
    have hc : h.registry.find? i = some c := hc
    rw [channel?, ChannelRegistry.find?_map hf hchannels, hc]
    rfl

theorem Has.join (hid : h.Has id) (other : ChannelId) : (h.join other).Has id := by
  obtain ⟨own, c, hown, hc, rfl⟩ := hid
  unfold HeldChannels.join ChannelRegistry.create
  split
  · rename_i registry hcreate
    split at hcreate
    · cases hcreate
    · cases hcreate
      cases own with
      | removed i => exact ⟨.removed i, c, hown, hc, rfl⟩
      | registered i =>
        have hc : h.registry.find? i = some c := hc
        refine ⟨.registered i, c, hown, ?_, rfl⟩
        rw [channel?, ChannelRegistry.find?, ChannelRegistry.add, List.find?_append]
        rw [ChannelRegistry.find?] at hc
        rw [hc]
        rfl
  · exact ⟨own, c, hown, hc, rfl⟩

/-- A channel that leaves stays in hand. -/
theorem Has.leave (hid : h.Has id) (other : ChannelId) : (h.leave other).Has id := by
  rcases h.leave_cases other with hsame | ⟨gone, hgone, hafter⟩
  · rwa [hsame]
  obtain ⟨own, c, hown, hc, rfl⟩ := hid
  rw [hafter]
  have hnow : HeldChannels.hold? ⟨h.registry.discard other, h.removed ++ [gone], h.holds.map fun entry =>
      (entry.1, if entry.2 = .registered other then .removed h.removed.length else entry.2)⟩ c.id.toNat =
        some (if own = .registered other then .removed h.removed.length else own) := by
    obtain ⟨entry, hentry, rfl⟩ := Option.map_eq_some_iff.1 hown
    rw [hold?, List.find?_map]
    have hlabel : (fun entry : Nat × Hold => decide (entry.1 = c.id.toNat)) ∘ (fun entry : Nat × Hold =>
        (entry.1, if entry.2 = .registered other then .removed h.removed.length else entry.2)) =
          fun entry => decide (entry.1 = c.id.toNat) := rfl
    rw [hlabel, hentry]
    rfl
  refine ⟨_, c, hnow, ?_, rfl⟩
  by_cases hleft : own = .registered other
  · subst hleft
    obtain rfl := Option.some.inj (hgone.symm.trans hc)
    rw [if_pos rfl, channel?, List.getElem?_concat_length]
  · rw [if_neg hleft]
    cases own with
    | registered j =>
      have hne : j ≠ other := fun heq => hleft (heq ▸ rfl)
      exact (ChannelRegistry.find?_discard_of_ne h.registry hne).trans hc
    | removed j =>
      have hc : h.removed[j]? = some c := hc
      obtain ⟨hj, -⟩ := List.getElem?_eq_some_iff.1 hc
      rw [channel?, List.getElem?_append_left hj, hc]

theorem replyRound_modify (h : HeldChannels) (hold : Hold) (f : Channel → Channel) :
    (h.modify hold f).registry.replyRound = h.registry.replyRound := by
  cases hold <;> rfl

/-- A change that keeps the identifier of the channel keeps which channels there are. -/
theorem ids_modify {hold : Hold} {f : Channel → Channel} (hf : ∀ c d, h.channel? hold = some c →
    d.id = c.id → (f d).id = c.id) : (h.modify hold f).registry.ids = h.registry.ids := by
  cases hold with
  | removed i => rfl
  | registered id =>
    cases hc : h.registry.find? id with
    | some c =>
      have hid := ChannelRegistry.find?_some_id hc
      exact ChannelRegistry.ids_modify fun d hd => hid ▸ hf c d hc (hd.trans hid.symm)
    | none => exact congrArg ChannelRegistry.ids (ChannelRegistry.modify_of_find?_none hc)

theorem registry_join (h : HeldChannels) (id : ChannelId) :
    (h.registry.ids.Nodup → (h.join id).registry.ids.Nodup) ∧
      (h.join id).registry.replyRound = h.registry.replyRound := by
  unfold join ChannelRegistry.create
  split
  · rename_i registry hcreate
    split at hcreate
    · cases hcreate
    · rename_i hnew
      cases hcreate
      refine ⟨fun hids => ?_, rfl⟩
      have hid : id ∉ h.registry.ids := fun hmem => hnew (ChannelRegistry.contains_iff.2 hmem)
      rw [ChannelRegistry.ids, ChannelRegistry.add, List.map_append]
      exact List.concat_eq_append ▸ hids.concat hid
  · exact ⟨fun hids => hids, rfl⟩

theorem registry_leave (h : HeldChannels) (id : ChannelId) :
    (h.registry.ids.Nodup → (h.leave id).registry.ids.Nodup) ∧
      (h.leave id).registry.replyRound = h.registry.replyRound := by
  rcases h.leave_cases id with hsame | ⟨c, -, hafter⟩
  · exact ⟨fun hids => hsame.symm ▸ hids, congrArg (·.registry.replyRound) hsame⟩
  · rw [hafter]
    exact ⟨fun hids => hids.sublist (List.filter_sublist.map _), rfl⟩

end MixRelay.HeldChannels
