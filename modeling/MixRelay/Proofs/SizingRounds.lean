import MixRelay.Proofs.ReplyRounds
import Mathlib.Data.List.Sort
import Mathlib.Algebra.GroupWithZero.Nat

/-!
# What a poll of the sizing comes to

A poll that ends a round gives one reply to each established channel that has had none, all of the size
that the volumes decide, however much each channel holds. Nothing of it depends on the order in which
the registry names its channels. A poll that does not end the round changes nothing.
-/
namespace MixRelay

namespace Channel

/-- The next round has a reply for the channel. -/
def awaitsReply (c : Channel) : Bool := c.established && !c.replyClaimed

/-- The channel behind a round of replies of a size. -/
def afterRound (size : Nat) (c : Channel) : Channel :=
  { c with
    replyClaimed := false
    proxy := if c.awaitsReply then { c.proxy with replies := c.proxy.replies.drop size } else c.proxy }

end Channel

namespace ChannelRegistry

/-- What the sizing samples. -/
def volumes (r : ChannelRegistry) : List Nat := r.establishedChannels.map Channel.buffered

def awaiting (r : ChannelRegistry) : List Channel := r.channels.filter Channel.awaitsReply

end ChannelRegistry

namespace ReplyCut
variable {size : Nat}

/-- A channel behind the replies of a size that some channels get. -/
def servedAmong (size : Nat) (ids : List ChannelId) (c : Channel) : Channel :=
  if c.id ∈ ids ∧ c.replyClaimed = false then served size c else c

/-- Replies cut for different registered channels: each that is free gets its own. -/
theorem foldl_add {channels : List Channel} {cut : ReplyCut} (hids : cut.registry.ids.Nodup)
    (hnodup : (channels.map Channel.id).Nodup) (hmem : ∀ c ∈ channels, c ∈ cut.registry.channels) :
    let free := channels.filter fun c => !c.replyClaimed
    (channels.map Channel.id).foldl (add size) cut =
      ⟨{ cut.registry with
          channels := cut.registry.channels.map (servedAmong size (channels.map Channel.id)) },
        free.foldl (fun m c => m.countReply size (min c.proxy.replies.length size)) cut.metrics,
        cut.replies ++ free.map fun c => .reply c.id (payload size c)⟩ := by
  induction channels generalizing cut with
  | nil =>
    have hsame : cut.registry.channels.map (servedAmong size []) = cut.registry.channels := by
      refine (List.map_congr_left fun c _ => ?_).trans (List.map_id _)
      exact if_neg fun h => absurd h.1 List.not_mem_nil
    simp only [List.map_nil, List.foldl_nil, List.filter_nil, List.append_nil, hsame]
  | cons c rest ih =>
    obtain ⟨hnot, hnodup⟩ := List.nodup_cons.1 hnodup
    have hc := hmem c List.mem_cons_self
    have hfind := ChannelRegistry.find?_of_mem hids hc
    rw [List.map_cons, List.foldl_cons]
    cases hfree : c.replyClaimed with
    | true =>
      -- the channel has had its reply, so nothing of it changes
      rw [add_of_claimed hfind hfree, ih hids hnodup fun d hd => hmem d (List.mem_cons_of_mem c hd)]
      have hmap : cut.registry.channels.map (servedAmong size (rest.map Channel.id)) =
          cut.registry.channels.map (servedAmong size (c.id :: rest.map Channel.id)) := by
        refine List.map_congr_left fun d hd => ?_
        unfold servedAmong
        refine if_congr (and_congr_left fun hd' => ?_) rfl rfl
        refine (List.mem_cons.trans (or_iff_right fun heq => ?_)).symm
        rw [List.inj_on_of_nodup_map hids hd hc heq, hfree] at hd'
        cases hd'
      rw [hmap]
      simp [hfree]
    | false =>
      have hserved : (served size c).id = c.id := rfl
      have hids' : (cut.registry.modify c.id fun _ => served size c).ids.Nodup := by
        rwa [ChannelRegistry.ids_modify fun _ _ => hserved]
      have hmem' : ∀ d ∈ rest, d ∈ (cut.registry.modify c.id fun _ => served size c).channels := by
        intro d hd
        refine ChannelRegistry.mem_modify.2 ⟨d, hmem d (List.mem_cons_of_mem c hd), if_neg fun heq => ?_⟩
        exact hnot (heq ▸ List.mem_map_of_mem hd)
      rw [add_of_free hfind hfree, ih hids' hnodup hmem']
      have hmap : (cut.registry.modify c.id fun _ => served size c).channels.map
            (servedAmong size (rest.map Channel.id)) =
          cut.registry.channels.map (servedAmong size (c.id :: rest.map Channel.id)) := by
        rw [ChannelRegistry.modify, List.map_map]
        refine List.map_congr_left fun d hd => ?_
        rw [Function.comp_apply]
        by_cases heq : d.id = c.id
        · obtain rfl := List.inj_on_of_nodup_map hids hd hc heq
          have hsecond : servedAmong size (rest.map Channel.id) (served size d) = served size d :=
            if_neg fun h => Bool.false_ne_true h.2.symm
          rw [if_pos rfl, hsecond]
          exact (if_pos ⟨List.mem_cons_self, hfree⟩).symm
        · rw [if_neg heq, servedAmong, servedAmong]
          exact if_congr (and_congr_left fun _ => by simp [heq]) rfl rfl
      rw [hmap]
      simp [hfree, ChannelRegistry.modify]

end ReplyCut

/-- The counters behind replies of a size to some channels. -/
theorem SizingMetrics.foldl_countReply (size : Nat) (channels : List Channel) (m : SizingMetrics) :
    channels.foldl (fun m c => m.countReply size (min c.proxy.replies.length size)) m =
      { m with
        replies := m.replies + channels.length
        paddingBytes := m.paddingBytes + (channels.map fun c => size - min size c.buffered).sum } := by
  induction channels generalizing m with
  | nil => rfl
  | cons c channels ih =>
    rw [List.foldl_cons, ih, countReply, List.map_cons, List.sum_cons, List.length_cons,
      Nat.min_comm size c.buffered]
    simp only [Channel.buffered, Nat.add_assoc, Nat.add_comm 1]

namespace ReplySizer
variable {s : ReplySizer} {r : ChannelRegistry}

/-- Replies of a size for the established channels of a registry. -/
theorem cut_established (s : ReplySizer) (hids : r.ids.Nodup) (size : Nat) :
    s.cut r (r.establishedChannels.map Channel.id) size =
      ⟨{ r with
          channels := r.channels.map
            (ReplyCut.servedAmong size (r.establishedChannels.map Channel.id)) },
        { s.metrics with
          replies := s.metrics.replies + r.awaiting.length
          paddingBytes := s.metrics.paddingBytes +
            (r.awaiting.map fun c => size - min size c.buffered).sum },
        r.awaiting.map fun c => .reply c.id (ReplyCut.payload size c)⟩ := by
  have hsublist : r.establishedChannels.Sublist r.channels := List.filter_sublist
  have hnodup : (r.establishedChannels.map Channel.id).Nodup := hids.sublist (hsublist.map _)
  have hawaiting : r.establishedChannels.filter (fun c => !c.replyClaimed) = r.awaiting := by
    rw [ChannelRegistry.establishedChannels, List.filter_filter, ChannelRegistry.awaiting]
    exact List.filter_congr fun c _ => Bool.and_comm _ _
  have hfold := @ReplyCut.foldl_add size r.establishedChannels ⟨r, s.metrics, []⟩ hids hnodup
    fun c hc => hsublist.subset hc
  rw [cut, hfold]
  simp only [hawaiting, SizingMetrics.foldl_countReply, List.nil_append]

/-- Closing the reply round behind them frees all slots. -/
theorem closeReplyRound_served (hids : r.ids.Nodup) (size : Nat) :
    ChannelRegistry.closeReplyRound { r with
        channels := r.channels.map
          (ReplyCut.servedAmong size (r.establishedChannels.map Channel.id)) } =
      { r with
        channels := r.channels.map (Channel.afterRound size)
        replyRound := r.replyRound + 1 } := by
  rw [ChannelRegistry.closeReplyRound]
  simp only [List.map_map]
  congr 1
  refine List.map_congr_left fun c hc => ?_
  have hmem : c.id ∈ r.establishedChannels.map Channel.id ↔ c.established = true := by
    constructor
    · intro h
      obtain ⟨d, hd, heq⟩ := List.mem_map.1 h
      obtain ⟨hd, hestablished⟩ := List.mem_filter.1 hd
      rwa [← List.inj_on_of_nodup_map hids hd hc heq]
    · exact fun h => List.mem_map_of_mem (List.mem_filter.2 ⟨hc, h⟩)
  have hdue : (c.id ∈ r.establishedChannels.map Channel.id ∧ c.replyClaimed = false) ↔
      c.awaitsReply = true := by
    rw [hmem, Channel.awaitsReply, Bool.and_eq_true, Bool.not_eq_true']
  rw [Function.comp_apply, ReplyCut.servedAmong, Channel.afterRound]
  by_cases h : c.awaitsReply = true
  · rw [if_pos (hdue.2 h), if_pos h]
    rfl
  · rw [if_neg (mt hdue.1 h), if_neg h]
    rfl

/-- The poll ends a round: one reply to each channel that awaits one, and the marker with their number. -/
structure EndsRound (s : ReplySizer) (r : ChannelRegistry) (round : SizedRound) (s' : ReplySizer)
    (r' : ChannelRegistry) : Prop where
  decided : decide? s.settings r.volumes = some round.size
  messages_eq : round.messages =
    (r.awaiting.map fun c => .reply c.id (ReplyCut.payload round.size c)) ++
      [.batchSize (UInt32.ofNat r.awaiting.length)]
  registry_eq : r' = { r with
    channels := r.channels.map (Channel.afterRound round.size)
    replyRound := r.replyRound + 1 }
  metrics_eq : s'.metrics = { s.metrics with
    replies := s.metrics.replies + r.awaiting.length
    paddingBytes := s.metrics.paddingBytes +
      (r.awaiting.map fun c : Channel => round.size - min round.size c.buffered).sum }.countRound
        round.trigger round.size

theorem flush_endsRound (hids : r.ids.Nodup) {size : Nat}
    (hsize : decide? s.settings r.volumes = some size) (trigger : FlushTrigger) :
    s.EndsRound r (s.flush r trigger size).1 (s.flush r trigger size).2.1
      (s.flush r trigger size).2.2 where
  decided := hsize
  messages_eq := by
    simp only [flush, s.cut_established hids, List.length_map]
  registry_eq := by
    simp only [flush, s.cut_established hids, closeReplyRound_served hids]
  metrics_eq := by
    simp only [flush, s.cut_established hids]

/-- Blocks of some bytes can always be counted. -/
theorem exists_decide? {settings : SizingSettings} (h : 0 < settings.blockSize) (volumes : List Nat) :
    ∃ size, decide? settings volumes = some size :=
  ⟨_, if_neg (Nat.pos_iff_ne_zero.1 h)⟩

theorem decide?_perm (settings : SizingSettings) {volumes other : List Nat} (h : volumes.Perm other) :
    decide? settings volumes = decide? settings other := by
  have hsorted : volumes.mergeSort (· ≤ ·) = other.mergeSort (· ≤ ·) := by
    have hperm := (List.mergeSort_perm volumes (· ≤ ·)).trans
      (h.trans (List.mergeSort_perm other (· ≤ ·)).symm)
    exact hperm.eq_of_pairwise' (List.pairwise_mergeSort' _ volumes) (List.pairwise_mergeSort' _ other)
  rw [decide?, decide?, hsorted]

theorem trigger?_perm (s : ReplySizer) {volumes other : List Nat} (h : volumes.Perm other)
    (elapsed : Bool) : s.trigger? volumes elapsed = s.trigger? other elapsed := by
  have hempty : volumes.isEmpty = other.isEmpty := by
    rw [Bool.eq_iff_iff, List.isEmpty_iff, List.isEmpty_iff]
    exact ⟨fun hv => List.nil_perm.1 (hv ▸ h), fun ho => List.perm_nil.1 (ho ▸ h)⟩
  have hdue : Sizing.isDue volumes s.settings.minVolume s.settings.minFraction =
      Sizing.isDue other s.settings.minVolume s.settings.minFraction := by
    rw [Sizing.isDue, Sizing.isDue, hempty, h.countP_eq, h.length_eq]
  rw [trigger?, trigger?, hdue]

/-- Why a poll with some volumes ends the round, if it does. -/
def ending? (s : ReplySizer) (volumes : List Nat) (elapsed : Bool) : Option FlushTrigger :=
  if volumes.isEmpty then none else s.trigger? volumes elapsed

theorem poll?_eq (s : ReplySizer) (r : ChannelRegistry) (elapsed : Bool) :
    s.poll? r elapsed = match s.ending? r.volumes elapsed with
      | none => some (none, { s with phase := .collecting }, r)
      | some trigger => (decide? s.settings r.volumes).map fun size =>
        let flushed := { s with phase := .collecting }.flush r trigger size
        (some flushed.1, flushed.2.1, flushed.2.2) := by
  unfold poll? ending?
  change (if r.volumes.isEmpty then _ else _) = _
  split
  · rfl
  · rfl

/-- Two polls agree on what went out: the sizes, the reasons, and the messages but for their order. -/
def SameRound : Option SizedRound → Option SizedRound → Prop
  | none, none => True
  | some a, some b => a.size = b.size ∧ a.trigger = b.trigger ∧ a.messages.Perm b.messages
  | _, _ => False

/-- What a poll comes to if the volumes decide on a size. -/
theorem poll?_cases_of_pos (hids : r.ids.Nodup) (hblock : 0 < s.settings.blockSize) (elapsed : Bool) :
    ∃ round s' r', s.poll? r elapsed = some (round, s', r') ∧ s'.settings = s.settings ∧
      match round with
      | none => s.ending? r.volumes elapsed = none ∧ r' = r ∧ s'.metrics = s.metrics
      | some flushed => s.ending? r.volumes elapsed = some flushed.trigger ∧ s.EndsRound r flushed s' r' := by
  rw [poll?_eq]
  cases hending : s.ending? r.volumes elapsed with
  | none => exact ⟨none, _, r, rfl, rfl, rfl, rfl, rfl⟩
  | some trigger =>
    obtain ⟨size, hsize⟩ := exists_decide? hblock r.volumes
    have hflushed := { s with phase := .collecting }.flush_endsRound hids hsize trigger
    rw [hsize]
    exact ⟨_, _, _, rfl, rfl, rfl, hflushed.decided, hflushed.messages_eq, hflushed.registry_eq,
      hflushed.metrics_eq⟩

theorem EndsRound.sameRound {r₁ r₂ r₁' r₂' : ChannelRegistry} {s₁ s₂ : ReplySizer}
    {first second : SizedRound} (h₁ : s.EndsRound r₁ first s₁ r₁') (h₂ : s.EndsRound r₂ second s₂ r₂')
    (hperm : r₂.channels.Perm r₁.channels) (htrigger : first.trigger = second.trigger) :
    SameRound (some first) (some second) := by
  have hvolumes : r₂.volumes.Perm r₁.volumes := (hperm.filter _).map _
  have hsize : first.size = second.size := by
    have hboth := h₁.decided.symm.trans ((decide?_perm _ hvolumes.symm).trans h₂.decided)
    exact Option.some.inj hboth
  have hawaiting : r₂.awaiting.Perm r₁.awaiting := hperm.filter _
  refine ⟨hsize, htrigger, ?_⟩
  rw [h₁.messages_eq, h₂.messages_eq, hsize, hawaiting.length_eq]
  exact (hawaiting.symm.map _).append_right _

/-- Registries that name the same channels in another order have the same rounds. -/
theorem poll?_perm {r₁ r₂ : ChannelRegistry} (hids : r₁.ids.Nodup) (hblock : 0 < s.settings.blockSize)
    (hperm : r₂.channels.Perm r₁.channels) {elapsed : Bool} {round : Option SizedRound} {s₁ : ReplySizer}
    {r₁' : ChannelRegistry} (h : s.poll? r₁ elapsed = some (round, s₁, r₁')) :
    ∃ other s₂ r₂', s.poll? r₂ elapsed = some (other, s₂, r₂') ∧ SameRound round other := by
  have hids₂ : r₂.ids.Nodup := (hperm.map Channel.id).nodup_iff.2 hids
  obtain ⟨first, t₁, q₁, hfirst, -, hcase₁⟩ := poll?_cases_of_pos hids hblock elapsed
  obtain ⟨second, t₂, q₂, hsecond, -, hcase₂⟩ := poll?_cases_of_pos (s := s) hids₂ hblock elapsed
  obtain ⟨rfl, rfl, rfl⟩ : first = round ∧ t₁ = s₁ ∧ q₁ = r₁' := by
    have hboth := Option.some.inj (hfirst.symm.trans h)
    exact ⟨congrArg Prod.fst hboth, congrArg (·.2.1) hboth, congrArg (·.2.2) hboth⟩
  have hvolumes : r₂.volumes.Perm r₁.volumes := (hperm.filter _).map _
  have hending : s.ending? r₂.volumes elapsed = s.ending? r₁.volumes elapsed := by
    have hempty : r₂.volumes.isEmpty = r₁.volumes.isEmpty := by
      rw [Bool.eq_iff_iff, List.isEmpty_iff, List.isEmpty_iff]
      exact ⟨fun h₂ => List.nil_perm.1 (h₂ ▸ hvolumes), fun h₁ => List.perm_nil.1 (h₁ ▸ hvolumes)⟩
    rw [ending?, ending?, hempty, s.trigger?_perm hvolumes]
  refine ⟨second, t₂, q₂, hsecond, ?_⟩
  cases first with
  | none =>
    cases second with
    | none => trivial
    | some flushed =>
      rw [hending, hcase₁.1] at hcase₂
      exact nomatch hcase₂.1
  | some flushed =>
    cases second with
    | none =>
      rw [hending, hcase₁.1] at hcase₂
      exact nomatch hcase₂.1
    | some other =>
      have htrigger := hcase₁.1.symm.trans (hending.symm.trans hcase₂.1)
      exact hcase₁.2.sameRound hcase₂.2 hperm (Option.some.inj htrigger)

/-- A poll changes nothing, or it ends the round with replies of one size, which carry what leaves the
buffers. Which of the two, the size and the replies do not depend on the order of the channels. -/
theorem poll?_rounds (s : ReplySizer) (r : ChannelRegistry) (hids : r.ids.Nodup)
    (hblock : 0 < s.settings.blockSize) (elapsed : Bool) :
    ∃ round s' r', s.poll? r elapsed = some (round, s', r') ∧ s'.settings = s.settings ∧
      (match round with
      | none => s.ending? r.volumes elapsed = none ∧ r' = r ∧ s'.metrics = s.metrics
      | some flushed => s.ending? r.volumes elapsed = some flushed.trigger ∧ s.EndsRound r flushed s' r' ∧
        (r.awaiting.length < 2 ^ 32 → (UInt32.ofNat r.awaiting.length).toNat = r.awaiting.length) ∧
        (∀ c ∈ r.awaiting,
          (ReplyCut.payload flushed.size c).length = ReplyPayload.headerLength + flushed.size ∧
          (flushed.size < 2 ^ 32 → ReplyPayload.decode? (ReplyCut.payload flushed.size c) =
            some (c.proxy.replies.take (min flushed.size c.buffered)))) ∧
        ∀ c ∈ r'.channels, c.replyClaimed = false) ∧
      ∀ other : ChannelRegistry, other.channels.Perm r.channels →
        ∃ round₂ s₂ r₂, s.poll? other elapsed = some (round₂, s₂, r₂) ∧ SameRound round round₂ := by
  obtain ⟨round, s', r', hpoll, hsettings, hcase⟩ := poll?_cases_of_pos (s := s) hids hblock elapsed
  refine ⟨round, s', r', hpoll, hsettings, ?_, fun other hperm => poll?_perm hids hblock hperm hpoll⟩
  cases round with
  | none => exact hcase
  | some flushed =>
    refine ⟨hcase.1, hcase.2, fun hcount => ?_, fun c _ => ⟨?_, fun hsize => ?_⟩, ?_⟩
    · rw [UInt32.toNat_ofNat', Nat.mod_eq_of_lt hcount]
    · rw [ReplyCut.payload, ReplyPayload.length_encode, Bytes.length_fit]
    · rw [ReplyCut.decode?_payload hsize, Channel.buffered]
      refine congrArg some (List.take_eq_take_iff.2 ?_)
      omega
    · intro c hc
      rw [hcase.2.registry_eq] at hc
      obtain ⟨d, -, rfl⟩ := List.mem_map.1 hc
      rfl

/-- Blocks of sixteen bytes, of which the payload's header takes four. -/
def blocksOfSixteen : SizingSettings := ⟨250, 64, 0.5, 20000, 0.5, 16, 4, 1024⟩

/-- A channel that awaits a reply, one that has had its own, and one that is not established. -/
def threeChannels : ChannelRegistry :=
  ⟨[⟨1, true, false, false, ⟨64, [], [7, 0, 9]⟩⟩, ⟨2, true, false, true, ⟨64, [], [5]⟩⟩,
    ⟨3, false, false, false, ⟨64, [], [4]⟩⟩], 64, 0, 0⟩

theorem threeChannels_answered :
    ∃ round s' r', (start blocksOfSixteen).poll? threeChannels true = some (some round, s', r') ∧
      round.messages = [.reply 1 (ReplyPayload.encode (Bytes.fit round.size [7, 0, 9])
        (min 3 round.size)), .batchSize 1] ∧
      r'.channels.map Channel.replyClaimed = [false, false, false] ∧ r'.replyRound = 1 := by
  have hids : threeChannels.ids.Nodup := by decide
  obtain ⟨round, s', r', hpoll, -, hcase, -⟩ :=
    poll?_rounds (start blocksOfSixteen) threeChannels hids (by decide) true
  have hending : (start blocksOfSixteen).ending? threeChannels.volumes true ≠ none := by
    rw [ending?, if_neg (by decide), trigger?, if_pos rfl]
    split <;> exact nofun
  cases round with
  | none => exact absurd hcase.1 hending
  | some flushed =>
    obtain ⟨-, hends, -⟩ := hcase
    exact ⟨flushed, s', r', hpoll, hends.messages_eq, hends.registry_eq ▸ rfl, hends.registry_eq ▸ rfl⟩

end ReplySizer
end MixRelay
