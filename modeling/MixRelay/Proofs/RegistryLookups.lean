import MixRelay.ChannelRegistry
import Mathlib.Data.List.Nodup

/-! # Looking channels up after a change -/
namespace MixRelay

/-- With keys that are all different, a key leads to the one entry that has it. -/
theorem find?_key {α κ : Type} [DecidableEq κ] {f : α → κ} {l : List α} (h : (l.map f).Nodup) {x : α}
    (hx : x ∈ l) : l.find? (fun y => f y = f x) = some x := by
  cases hy : l.find? (fun y => f y = f x) with
  | none =>
    rw [List.find?_eq_none] at hy
    exact absurd (decide_eq_true rfl) (hy x hx)
  | some y =>
    have hkey : f y = f x := by simpa using List.find?_some hy
    exact congrArg some (List.inj_on_of_nodup_map h (List.mem_of_find?_eq_some hy) hx hkey)

namespace ChannelRegistry

/-- With identifiers that are all different, each registered channel is found under its own. -/
theorem find?_of_mem {r : ChannelRegistry} (h : r.ids.Nodup) {c : Channel} (hc : c ∈ r.channels) :
    r.find? c.id = some c := find?_key h hc

theorem mem_modify {r : ChannelRegistry} {id : ChannelId} {f : Channel → Channel} {c : Channel} :
    c ∈ (r.modify id f).channels ↔ ∃ d ∈ r.channels, (if d.id = id then f d else d) = c := by
  simp [modify]

theorem mem_discard {r : ChannelRegistry} {id : ChannelId} {c : Channel} :
    c ∈ (r.discard id).channels ↔ c ∈ r.channels ∧ c.id ≠ id := by
  simp [discard]

theorem mem_add {r : ChannelRegistry} {id : ChannelId} {c : Channel} :
    c ∈ (r.add id).channels ↔ c ∈ r.channels ∨ c = Channel.new id r.proxyCapacity := by
  simp [add]

theorem ids_add (r : ChannelRegistry) (id : ChannelId) : (r.add id).ids = r.ids ++ [id] := by
  simp [ids, add, Channel.new]

theorem ids_discard (r : ChannelRegistry) (id : ChannelId) :
    (r.discard id).ids = r.ids.filter fun other => other ≠ id := by
  rw [ids, ids, discard, List.filter_map]
  rfl

/-- A change of all channels that keeps their identifiers is found behind each. -/
theorem find?_map {r s : ChannelRegistry} {f : Channel → Channel} (hf : ∀ c, (f c).id = c.id)
    (hs : s.channels = r.channels.map f) (id : ChannelId) : s.find? id = (r.find? id).map f := by
  have hfind : ((fun c : Channel => decide (c.id = id)) ∘ f) = fun c => decide (c.id = id) := by
    funext c
    simp only [Function.comp_apply, hf]
  simp only [find?, hs, List.find?_map, hfind]

section Modify
variable {r : ChannelRegistry} {id : ChannelId} {f : Channel → Channel}

theorem find?_modify_eq (hf : ∀ c, c.id = id → (f c).id = id) (other : ChannelId) :
    (r.modify id f).find? other = (r.find? other).map fun c => if c.id = id then f c else c := by
  refine find?_map (fun c => ?_) rfl other
  split
  · rename_i hc
    exact (hf c hc).trans hc.symm
  · rfl

theorem find?_modify_of_ne (hf : ∀ c, c.id = id → (f c).id = id) {other : ChannelId}
    (h : other ≠ id) : (r.modify id f).find? other = r.find? other := by
  rw [find?_modify_eq hf]
  cases hc : r.find? other with
  | none => rfl
  | some c => exact congrArg some (if_neg fun heq => h ((find?_some_id hc).symm.trans heq))

theorem find?_modify_self (hf : ∀ c, c.id = id → (f c).id = id) :
    (r.modify id f).find? id = (r.find? id).map f := by
  rw [find?_modify_eq hf]
  cases hc : r.find? id with
  | none => rfl
  | some c => exact congrArg some (if_pos (find?_some_id hc))

theorem find?_modify {c d : Channel} (h : r.find? id = some c) (hd : d.id = id) :
    (r.modify id fun _ => d).find? id = some d := by
  rw [find?_modify_self fun _ _ => hd, h]
  rfl

/-- A change that keeps the identifier keeps which channels there are. -/
theorem ids_modify (hf : ∀ c, c.id = id → (f c).id = id) : (r.modify id f).ids = r.ids := by
  rw [ids, ids, modify, List.map_map]
  refine List.map_congr_left fun c _ => ?_
  rw [Function.comp_apply]
  split
  · rename_i hc
    exact (hf c hc).trans hc.symm
  · rfl

/-- Without a channel under the identifier nothing changes. -/
theorem modify_of_find?_none (h : r.find? id = none) : r.modify id f = r := by
  have hnone : ∀ c ∈ r.channels, c.id ≠ id := by simpa [find?] using h
  have hsame : (r.channels.map fun c => if c.id = id then f c else c) = r.channels :=
    (List.map_congr_left fun c hc => if_neg (hnone c hc)).trans (List.map_id _)
  rw [modify, hsame]

end Modify

theorem find?_discard_of_ne (r : ChannelRegistry) {id other : ChannelId} (h : other ≠ id) :
    (r.discard id).find? other = r.find? other := by
  rw [find?, discard, List.find?_filter, find?]
  congr 1
  funext c
  by_cases hc : c.id = other <;> simp [hc, h]

theorem find?_add_of_ne (r : ChannelRegistry) {id other : ChannelId} (h : other ≠ id) :
    (r.add id).find? other = r.find? other := by
  rw [find?, add, List.find?_append, find?]
  have hnew : List.find? (fun c : Channel => decide (c.id = other)) [Channel.new id r.proxyCapacity] =
      none := by
    simp [Channel.new, h.symm]
  rw [hnew, Option.or_none]

theorem find?_add_self {r : ChannelRegistry} {id : ChannelId} (h : id ∉ r.ids) :
    (r.add id).find? id = some (Channel.new id r.proxyCapacity) := by
  have hnone : r.find? id = none := by
    refine Option.not_isSome_iff_eq_none.1 fun hsome => h (contains_iff.1 hsome)
  rw [find?] at hnone
  rw [find?, add, List.find?_append, hnone]
  simp [Channel.new]

end ChannelRegistry
end MixRelay
