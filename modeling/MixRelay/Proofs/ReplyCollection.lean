import MixRelay.Proofs.RegistryLookups
import MixRelay.Proofs.ReplyRounds
import MixRelay.Proofs.ReplySlots
import MixRelay.Proofs.Runs
import Mathlib.Data.List.Basic
import Mathlib.Data.List.Nodup
import Mathlib.Data.List.Perm.Subperm

/-!
# Collecting the replies of a round

Between the relays of a cascade a round of replies is full when there are as many replies as established
channels. That each of them has one then depends on whose replies they are: a reply whose channel has
gone, or a second one of the same channel, stands in for a channel that is still without. The surplus
counts such replies. Without any, a round that is full has a reply for everyone.
-/
namespace MixRelay

/-- The channels that may have a reply, of which some come and go between two replies. -/
inductive CollectionEvent
  | join (id : ChannelId)
  | establish (id : ChannelId)
  | leave (id : ChannelId)
  | mix (e : MixerEvent)
  deriving DecidableEq

namespace ChannelRegistry

/-- The identifiers of the established channels. -/
def establishedIds (r : ChannelRegistry) : List ChannelId := r.establishedChannels.map Channel.id

variable {r : ChannelRegistry} {id other : ChannelId}

theorem mem_establishedIds :
    id ∈ r.establishedIds ↔ ∃ c ∈ r.channels, c.established = true ∧ c.id = id := by
  simp [establishedIds, establishedChannels, and_assoc]

theorem establishedIds_nodup (h : r.ids.Nodup) : r.establishedIds.Nodup :=
  h.sublist (List.filter_sublist.map Channel.id)

@[simp] theorem establishedIds_add (r : ChannelRegistry) (id : ChannelId) :
    (r.add id).establishedIds = r.establishedIds := by
  simp [establishedIds, establishedChannels, add, Channel.new]

@[simp] theorem establishedIds_closeReplyRound (r : ChannelRegistry) :
    r.closeReplyRound.establishedIds = r.establishedIds := by
  simp [establishedIds, establishedChannels, closeReplyRound, List.filter_map, Function.comp_def,
    Channel.clearReply]

theorem mem_establishedIds_discard :
    id ∈ (r.discard other).establishedIds ↔ id ∈ r.establishedIds ∧ id ≠ other := by
  simp only [mem_establishedIds, mem_discard]
  constructor
  · rintro ⟨c, ⟨hc, hne⟩, he, rfl⟩
    exact ⟨⟨c, hc, he, rfl⟩, hne⟩
  · rintro ⟨⟨c, hc, he, rfl⟩, hne⟩
    exact ⟨c, ⟨hc, hne⟩, he, rfl⟩

theorem mem_establishedIds_establish : id ∈ (r.modify other Channel.establish).establishedIds ↔
    id ∈ r.establishedIds ∨ id = other ∧ other ∈ r.ids := by
  simp only [mem_establishedIds, mem_modify, ids, List.mem_map]
  constructor
  · rintro ⟨c, ⟨d, hd, rfl⟩, he, rfl⟩
    split at he
    · rename_i hid
      rw [if_pos hid]
      exact .inr ⟨hid, d, hd, hid⟩
    · rename_i hid
      rw [if_neg hid]
      exact .inl ⟨d, hd, he, rfl⟩
  · rintro (⟨c, hc, he, rfl⟩ | ⟨rfl, d, hd, rfl⟩)
    · refine ⟨_, ⟨c, hc, rfl⟩, ?_⟩
      split
      · exact ⟨rfl, rfl⟩
      · exact ⟨he, rfl⟩
    · exact ⟨d.establish, ⟨d, hd, if_pos rfl⟩, rfl, rfl⟩

theorem ids_establish (r : ChannelRegistry) (id : ChannelId) :
    (r.modify id Channel.establish).ids = r.ids := ids_modify fun _ hc => hc

theorem ids_nodup_add (h : r.ids.Nodup) (hid : r.contains id = false) : (r.add id).ids.Nodup := by
  have hnew : id ∉ r.ids := fun hmem => Bool.false_ne_true (hid.symm.trans (contains_iff.2 hmem))
  rw [ids_add]
  exact h.append (List.nodup_singleton id) (List.disjoint_singleton.2 hnew)

theorem ids_nodup_discard (h : r.ids.Nodup) (id : ChannelId) : (r.discard id).ids.Nodup := by
  rw [ids_discard]
  exact h.filter _

end ChannelRegistry

theorem mem_of_repliesOf_ne_nil {id : ChannelId} {batch : List Message} (h : repliesOf id batch ≠ []) :
    ∃ payload, .reply id payload ∈ batch := by
  obtain ⟨payload, hmem⟩ := List.exists_mem_of_ne_nil _ h
  obtain ⟨m, hm, hpayload⟩ := List.mem_filterMap.1 hmem
  cases m with
  | reply c sent =>
    by_cases hc : c = id
    · exact ⟨sent, hc ▸ hm⟩
    · simp [hc] at hpayload
  | _ => simp at hpayload

/-- The channels of a list that have a reply in a batch. -/
def withReply (ids : List ChannelId) (batch : List Message) : List ChannelId :=
  ids.filter fun id => !(repliesOf id batch).isEmpty

/-- The channels of a list that are still without a reply. -/
def withoutReply (ids : List ChannelId) (batch : List Message) : List ChannelId :=
  ids.filter fun id => (repliesOf id batch).isEmpty

/-- The replies of a batch that are nobody's first. -/
def surplus (ids : List ChannelId) (batch : List Message) : Nat :=
  batch.length - (withReply ids batch).length

section Counting
variable {ids more : List ChannelId} {batch : List Message} {id : ChannelId}

@[simp] theorem mem_withReply : id ∈ withReply ids batch ↔ id ∈ ids ∧ repliesOf id batch ≠ [] := by
  simp [withReply]

@[simp] theorem mem_withoutReply : id ∈ withoutReply ids batch ↔ id ∈ ids ∧ repliesOf id batch = [] := by
  simp [withoutReply]

/-- A channel is answered or not. -/
theorem length_withReply_add_withoutReply (ids : List ChannelId) (batch : List Message) :
    (withReply ids batch).length + (withoutReply ids batch).length = ids.length := by
  rw [withReply, withoutReply, Nat.add_comm]
  exact (List.length_eq_length_filter_add _).symm

/-- There is a reply for every channel that is answered. -/
theorem length_withReply_le (h : ids.Nodup) (batch : List Message) :
    (withReply ids batch).length ≤ batch.length := by
  have hsub : withReply ids batch ⊆ batch.filterMap Message.channel? := by
    intro id hid
    obtain ⟨payload, hmem⟩ := mem_of_repliesOf_ne_nil (mem_withReply.1 hid).2
    exact List.mem_filterMap.2 ⟨_, hmem, rfl⟩
  exact Nat.le_trans ((h.filter _).subperm hsub).length_le (List.length_filterMap_le _ _)

/-- Of channels with more answered among them fewer replies are surplus. -/
theorem surplus_le (h : ids.Nodup) (hsub : withReply ids batch ⊆ more) :
    surplus more batch ≤ surplus ids batch := by
  have hanswered : withReply ids batch ⊆ withReply more batch := fun id hid =>
    mem_withReply.2 ⟨hsub hid, (mem_withReply.1 hid).2⟩
  exact Nat.sub_le_sub_left ((h.filter _).subperm hanswered).length_le _

/-- A first reply answers one channel more. -/
theorem withoutReply_append (h : ids.Nodup) (payload : Bytes) :
    withoutReply ids (batch ++ [.reply id payload]) = (withoutReply ids batch).erase id := by
  rw [withoutReply, withoutReply, (h.filter _).erase_eq_filter, List.filter_filter]
  refine List.filter_congr fun other _ => ?_
  by_cases hother : other = id
  · simp [hother]
  · simp [hother, repliesOf_of_ne (Ne.symm hother)]

theorem surplus_append (h : ids.Nodup) (hid : id ∈ withoutReply ids batch) (payload : Bytes) :
    surplus ids (batch ++ [.reply id payload]) = surplus ids batch := by
  have hbefore := length_withReply_add_withoutReply ids batch
  have hbehind := length_withReply_add_withoutReply ids (batch ++ [.reply id payload])
  have hone := List.length_pos_of_mem hid
  rw [withoutReply_append h, List.length_erase_of_mem hid] at hbehind
  rw [surplus, surplus, List.length_append, List.length_singleton]
  omega

/-- A batch is as long as the list of channels when the surplus makes up for the unanswered ones. -/
theorem length_le_iff (h : ids.Nodup) :
    ids.length ≤ batch.length ↔ (withoutReply ids batch).length ≤ surplus ids batch := by
  have hle := length_withReply_le h batch
  have hboth := length_withReply_add_withoutReply ids batch
  rw [surplus]
  omega

end Counting

/-- Between relays a reply completes the round if there are then as many as established channels. -/
theorem ReplyMixer.collect_eq {m : ReplyMixer} (hlast : m.isLast = false)
    (shuffle : List Message → List Message) (established : Nat) (reply : Message) :
    m.collect shuffle established reply =
      if established ≤ (m.batch ++ [reply]).length then
        ⟨{ m with batch := [] }, shuffle (m.batch ++ [reply]), true⟩
      else ⟨{ m with batch := m.batch ++ [reply] }, [], false⟩ := by
  have hmax : max 1 established ≤ (m.batch ++ [reply]).length ↔
      established ≤ (m.batch ++ [reply]).length := by
    rw [List.length_append, List.length_singleton]
    omega
  simp only [collect, hlast, Bool.not_false, Bool.true_and, decide_eq_true_eq, hmax]
  split <;> rfl

section Steps
variable (shuffle : List Message → List Message) (established : Nat) (m : ReplyMixer) (e : MixerEvent)

/-- What is no reply adds nothing to the batch. -/
theorem ReplyMixer.batch_step (hlast : m.isLast = false) :
    (∃ id payload, e = .arrival (.reply id payload)) ∨
      (m.step shuffle established e).mixer.batch = m.batch ∨
      (m.step shuffle established e).mixer.batch = [] := by
  cases e with
  | timeout =>
    rw [step, flushUnlessEmpty]
    split
    · exact .inr (.inl rfl)
    · exact .inr (.inr rfl)
  | arrival d =>
    cases d with
    | reply id payload => exact .inl ⟨id, payload, rfl⟩
    | batchSize n => exact .inr (.inl (by rw [step, hlast]; rfl))
    | establish | message | release => exact .inr (.inl rfl)

@[simp] theorem ReplyMixerStep.ids_close (s : ReplyMixerStep) (r : ChannelRegistry) :
    (s.close r).ids = r.ids := by
  rw [close]
  split
  · exact ChannelRegistry.ids_closeReplyRound r
  · rfl

@[simp] theorem ReplyMixerStep.establishedIds_close (s : ReplyMixerStep) (r : ChannelRegistry) :
    (s.close r).establishedIds = r.establishedIds := by
  rw [close]
  split
  · exact ChannelRegistry.establishedIds_closeReplyRound r
  · rfl

end Steps

namespace BatchMixer

/-- The channels that the mixer asks for when it counts its replies. -/
def awaited (b : BatchMixer) : List ChannelId := b.registry.establishedIds

def collectStep (shuffle : List Message → List Message) (b : BatchMixer) : CollectionEvent → BatchMixer
  | .join id =>
    match b.registry.create id with
    | .ok registry => { b with registry := registry }
    | .error _ => b
  | .establish id => { b with registry := b.registry.modify id Channel.establish }
  | .leave id => { b with registry := b.registry.discard id }
  | .mix e => (b.onReply shuffle e).2

/-- If the arrival of a reply sends the round, every channel established then has a reply in it. -/
def Covers (shuffle : List Message → List Message) (b : BatchMixer) : CollectionEvent → Prop
  | .mix (.arrival (.reply id payload)) =>
    let sent := (b.onReply shuffle (.arrival (.reply id payload))).1
    sent ≠ [] → ∀ other ∈ b.awaited, repliesOf other sent ≠ []
  | _ => True

/-- A reply arrives with which there are surplus replies for all channels that are still without. -/
def Misleads (b : BatchMixer) : CollectionEvent → Prop
  | .mix (.arrival (.reply id payload)) =>
    let batch := b.replies.batch ++ [.reply id payload]
    withoutReply b.awaited batch ≠ [] ∧
      (withoutReply b.awaited batch).length ≤ surplus b.awaited batch
  | _ => False

/-- No channel leaves a reply behind, and replies are first ones of established channels. -/
def Orderly (b : BatchMixer) : CollectionEvent → Prop
  | .leave id => repliesOf id b.replies.batch = []
  | .mix (.arrival (.reply id _)) => id ∈ withoutReply b.awaited b.replies.batch
  | _ => True

instance (shuffle : List Message → List Message) (b : BatchMixer) :
    ∀ e, Decidable (Covers shuffle b e)
  | .mix (.arrival (.reply id payload)) =>
    -- the awaited channels are gone through, not all that there could be
    have : Decidable (∀ other ∈ b.awaited,
      repliesOf other (b.onReply shuffle (.arrival (.reply id payload))).1 ≠ []) := List.decidableBAll _ _
    inferInstanceAs (Decidable (_ → _))
  | .mix (.arrival (.establish _ _)) | .mix (.arrival (.message _ _)) | .mix (.arrival (.release _))
  | .mix (.arrival (.batchSize _)) | .mix .timeout | .join _ | .establish _ | .leave _ =>
    inferInstanceAs (Decidable True)

instance (b : BatchMixer) : ∀ e, Decidable (Orderly b e)
  | .leave _ => inferInstanceAs (Decidable (_ = _))
  | .mix (.arrival (.reply _ _)) => inferInstanceAs (Decidable (_ ∈ _))
  | .mix (.arrival (.establish _ _)) | .mix (.arrival (.message _ _)) | .mix (.arrival (.release _))
  | .mix (.arrival (.batchSize _)) | .mix .timeout | .join _ | .establish _ =>
    inferInstanceAs (Decidable True)

/-- A mixer between relays, with a registry that knows each channel once. -/
structure Collects (b : BatchMixer) : Prop where
  ids : b.registry.ids.Nodup
  isLast : b.replies.isLast = false

section Collection
variable {shuffle : List Message → List Message} {b : BatchMixer} {id : ChannelId} {payload : Bytes}

theorem Collects.awaited (h : b.Collects) : b.awaited.Nodup := ChannelRegistry.establishedIds_nodup h.ids

/-- A reply fills the round if the batch is then as long as the list of awaited channels. -/
theorem onReply_reply (h : b.Collects) (id : ChannelId) (payload : Bytes) :
    b.onReply shuffle (.arrival (.reply id payload)) =
      if b.awaited.length ≤ (b.replies.batch ++ [Message.reply id payload]).length then
        (shuffle (b.replies.batch ++ [.reply id payload]), { b with
          replies := { b.replies with batch := [] }, registry := b.registry.closeReplyRound })
      else ([], { b with
        replies := { b.replies with batch := b.replies.batch ++ [.reply id payload] } }) := by
  rw [onReply, ReplyMixer.step, ReplyMixer.collect_eq h.isLast, awaited,
    ChannelRegistry.establishedIds, List.length_map]
  split <;> rfl

theorem Collects.step (h : b.Collects) (e : CollectionEvent) : (b.collectStep shuffle e).Collects := by
  cases e with
  | join id =>
    rw [collectStep, ChannelRegistry.create]
    cases hid : b.registry.contains id with
    | true => exact h
    | false => exact ⟨ChannelRegistry.ids_nodup_add h.ids hid, h.isLast⟩
  | establish id => exact ⟨(ChannelRegistry.ids_establish b.registry id).symm ▸ h.ids, h.isLast⟩
  | leave id => exact ⟨ChannelRegistry.ids_nodup_discard h.ids id, h.isLast⟩
  | mix e =>
    have hids := ReplyMixerStep.ids_close
      (b.replies.step shuffle b.registry.establishedChannels.length e) b.registry
    exact ⟨hids.symm ▸ h.ids, (b.replies.isLast_step e).trans h.isLast⟩

/-- The replies of the batch that are nobody's first. -/
def surplus (b : BatchMixer) : Nat := MixRelay.surplus b.awaited b.replies.batch

/-- A reply sends the round if the surplus replies make up for those who are still without. -/
theorem sends_iff (hsh : ∀ l, (shuffle l).Perm l) (h : b.Collects) (id : ChannelId) (payload : Bytes) :
    (b.onReply shuffle (.arrival (.reply id payload))).1 ≠ [] ↔
      (withoutReply b.awaited (b.replies.batch ++ [.reply id payload])).length ≤
        MixRelay.surplus b.awaited (b.replies.batch ++ [.reply id payload]) := by
  rw [onReply_reply h, ← length_le_iff h.awaited]
  split
  · rename_i hfull
    refine iff_of_true (fun (hnil : shuffle _ = []) => ?_) hfull
    exact List.concat_ne_nil _ _ (List.nil_perm.1 (hnil ▸ hsh _))
  · rename_i hfull
    exact iff_of_false (fun hnil => hnil rfl) hfull

theorem repliesOf_sent (hsh : ∀ l, (shuffle l).Perm l) (h : b.Collects) {id : ChannelId} {payload : Bytes}
    (hsent : (b.onReply shuffle (.arrival (.reply id payload))).1 ≠ []) (other : ChannelId) :
    repliesOf other (b.onReply shuffle (.arrival (.reply id payload))).1 = [] ↔
      repliesOf other (b.replies.batch ++ [.reply id payload]) = [] := by
  rw [onReply_reply h] at hsent ⊢
  split at hsent
  · rename_i hfull
    rw [if_pos hfull]
    have hperm : (repliesOf other (shuffle (b.replies.batch ++ [.reply id payload]))).Perm
        (repliesOf other (b.replies.batch ++ [.reply id payload])) := (hsh _).filterMap _
    exact ⟨fun hnil => List.nil_perm.1 (hnil ▸ hperm), fun hnil => List.perm_nil.1 (hnil ▸ hperm)⟩
  · exact absurd rfl hsent

/-- A round that a reply sends covers everyone exactly if no surplus reply stands in for a channel. -/
theorem covers_iff (hsh : ∀ l, (shuffle l).Perm l) (h : b.Collects) (e : CollectionEvent) :
    b.Covers shuffle e ↔ ¬ b.Misleads e := by
  match e with
  | .mix (.arrival (.reply id payload)) =>
    have hsent := sends_iff hsh h id payload
    rw [Misleads, ← hsent, Covers]
    constructor
    · rintro hcovers ⟨hwithout, hsent⟩
      obtain ⟨other, hother⟩ := List.exists_mem_of_ne_nil _ hwithout
      obtain ⟨hin, hnone⟩ := mem_withoutReply.1 hother
      exact hcovers hsent other hin ((repliesOf_sent hsh h hsent other).2 hnone)
    · intro hnot hsent other hother hnone
      refine hnot ⟨List.ne_nil_of_mem (mem_withoutReply.2 ⟨hother, ?_⟩), hsent⟩
      exact (repliesOf_sent hsh h hsent other).1 hnone
  | .mix (.arrival (.establish ..)) | .mix (.arrival (.message ..)) | .mix (.arrival (.release _))
  | .mix (.arrival (.batchSize _)) | .mix .timeout | .join _ | .establish _ | .leave _ =>
    exact iff_of_true trivial not_false

/-- In order no reply becomes surplus. -/
theorem surplus_step (h : b.Collects) (hsurplus : b.surplus = 0) {e : CollectionEvent} (he : b.Orderly e) :
    (b.collectStep shuffle e).surplus = 0 := by
  -- where the batch stays, it is enough that whoever has a reply is still awaited
  have hstays (registry : ChannelRegistry) (hmem : ∀ id ∈ b.awaited,
      repliesOf id b.replies.batch ≠ [] → id ∈ registry.establishedIds) :
      surplus { b with registry := registry } = 0 := by
    refine Nat.le_zero.1 (hsurplus ▸ surplus_le h.awaited fun id hid => ?_)
    exact hmem id (mem_withReply.1 hid).1 (mem_withReply.1 hid).2
  cases e with
  | join id =>
    rw [collectStep, ChannelRegistry.create]
    split
    · rename_i registry hcreate
      split at hcreate
      · cases hcreate
      · obtain rfl := Except.ok.inj hcreate
        exact hstays _ fun other hother _ => (ChannelRegistry.establishedIds_add b.registry id).symm ▸ hother
    · exact hsurplus
  | establish id =>
    exact hstays _ fun other hother _ => ChannelRegistry.mem_establishedIds_establish.2 (.inl hother)
  | leave id =>
    refine hstays _ fun other hother hreply => ChannelRegistry.mem_establishedIds_discard.2 ⟨hother, ?_⟩
    rintro rfl
    exact hreply he
  | mix e =>
    have hawaited : (b.collectStep shuffle (.mix e)).awaited = b.awaited :=
      ReplyMixerStep.establishedIds_close _ _
    rw [surplus, hawaited]
    rcases ReplyMixer.batch_step shuffle b.registry.establishedChannels.length b.replies e h.isLast with
      ⟨id, payload, rfl⟩ | hbatch | hbatch
    · rw [collectStep, onReply_reply h]
      split
      · exact Nat.zero_sub _
      · exact (surplus_append h.awaited he payload).trans hsurplus
    · exact (congrArg (MixRelay.surplus b.awaited) hbatch).trans hsurplus
    · exact (congrArg (MixRelay.surplus b.awaited) hbatch).trans (Nat.zero_sub _)

theorem covers_of_orderly (hsh : ∀ l, (shuffle l).Perm l) (h : b.Collects) (hsurplus : b.surplus = 0)
    {e : CollectionEvent} (he : b.Orderly e) : b.Covers shuffle e := by
  rw [covers_iff hsh h]
  intro hmisleads
  match e with
  | .mix (.arrival (.reply id payload)) =>
    obtain ⟨hwithout, hle⟩ := hmisleads
    rw [surplus_append h.awaited he] at hle
    exact hwithout (List.length_eq_zero_iff.1 (Nat.le_zero.1 (hsurplus ▸ hle)))

theorem covers_run (hsh : ∀ l, (shuffle l).Perm l) {more : List CollectionEvent} (h : b.Collects)
    (hsurplus : b.surplus = 0) (horderly : Along (collectStep shuffle) Orderly b more) :
    Along (collectStep shuffle) (Covers shuffle) b more := by
  induction more generalizing b with
  | nil => trivial
  | cons e more ih =>
    exact ⟨covers_of_orderly hsh h hsurplus horderly.1,
      ih (h.step e) (surplus_step h hsurplus horderly.1) horderly.2⟩

/-- With a surplus reply and two channels without one, replies to them send a round that leaves one
of them out. -/
theorem exists_misled (hsh : ∀ l, (shuffle l).Perm l) (h : b.Collects) (hsurplus : 0 < b.surplus)
    (htwo : 2 ≤ (withoutReply b.awaited b.replies.batch).length) :
    ∃ more, Along (collectStep shuffle) Orderly b more ∧
      ¬ Along (collectStep shuffle) (Covers shuffle) b more := by
  generalize hn : (withoutReply b.awaited b.replies.batch).length = n at htwo
  induction n generalizing b with
  | zero => omega
  | succ n ih =>
    have hsome : 0 < (withoutReply b.awaited b.replies.batch).length := by omega
    obtain ⟨id, hid⟩ := List.length_pos_iff_exists_mem.1 hsome
    let e : CollectionEvent := .mix (.arrival (.reply id []))
    have hless : (withoutReply b.awaited (b.replies.batch ++ [.reply id []])).length = n := by
      rw [withoutReply_append h.awaited, List.length_erase_of_mem hid, hn, Nat.add_sub_cancel]
    have hsame := surplus_append h.awaited hid []
    by_cases hfull : n ≤ b.surplus
    · have hmisleads : b.Misleads e :=
        ⟨List.ne_nil_of_length_pos (by omega), hless.symm ▸ hsame.symm ▸ hfull⟩
      exact ⟨[e], ⟨hid, trivial⟩, fun hcovers => (covers_iff hsh h e).1 hcovers.1 hmisleads⟩
    · have hstep : b.collectStep shuffle e = { b with
          replies := { b.replies with batch := b.replies.batch ++ [.reply id []] } } := by
        rw [collectStep, onReply_reply h, if_neg]
        rw [length_le_iff h.awaited, hless, hsame]
        exact hfull
      have hbehind : (b.collectStep shuffle e).Collects := h.step e
      rw [hstep] at hbehind
      obtain ⟨more, horderly, hnot⟩ := ih hbehind (Nat.lt_of_lt_of_eq hsurplus hsame.symm) hless
        (by omega)
      rw [← hstep] at horderly hnot
      exact ⟨e :: more, ⟨hid, horderly⟩, fun hcovers => hnot hcovers.2⟩

/-- Nobody has registered a channel under the identifier, and no reply is meant for one. -/
def Unused (b : BatchMixer) (id : ChannelId) : Prop :=
  id ∉ b.registry.ids ∧ repliesOf id b.replies.batch = []

/-- A channel registers and is established. -/
def enrol (id : ChannelId) : List CollectionEvent := [.join id, .establish id]

/-- What there is behind a new channel. -/
structure Enrolled (b : BatchMixer) (id : ChannelId) (b' : BatchMixer) : Prop where
  collects : b'.Collects
  replies : b'.replies = b.replies
  awaited : ∀ other, other ∈ b'.awaited ↔ other ∈ b.awaited ∨ other = id
  ids : ∀ other, other ∈ b'.registry.ids → other ∈ b.registry.ids ∨ other = id

theorem enrolled (h : b.Collects) (hid : b.Unused id) :
    b.Enrolled id ((enrol id).foldl (collectStep shuffle) b) := by
  have hfree : b.registry.contains id = false :=
    Bool.eq_false_iff.2 fun hmem => hid.1 (ChannelRegistry.contains_iff.1 hmem)
  have hjoin : b.collectStep shuffle (.join id) = { b with registry := b.registry.add id } := by
    rw [collectStep, ChannelRegistry.create, hfree]
    rfl
  have hids : ((b.registry.add id).modify id Channel.establish).ids = b.registry.ids ++ [id] :=
    (ChannelRegistry.ids_establish _ id).trans (ChannelRegistry.ids_add _ id)
  rw [enrol, List.foldl_cons, hjoin, List.foldl_cons, List.foldl_nil]
  constructor
  · have hnodup := ChannelRegistry.ids_nodup_add h.ids hfree
    exact ⟨(ChannelRegistry.ids_establish _ id).symm ▸ hnodup, h.isLast⟩
  · rfl
  · intro other
    have hmem : id ∈ (b.registry.add id).ids := by
      rw [ChannelRegistry.ids_add]
      exact List.mem_append_right _ List.mem_cons_self
    refine ChannelRegistry.mem_establishedIds_establish.trans (or_congr ?_ (and_iff_left hmem))
    rw [ChannelRegistry.establishedIds_add]
    rfl
  · intro other hother
    exact (List.mem_append.1 (hids ▸ hother : other ∈ b.registry.ids ++ [id])).imp_right List.mem_singleton.1

/-- A new channel leaves the surplus as it is at least, for no reply is its own. -/
theorem Enrolled.surplus_le {b' : BatchMixer} (h : b.Enrolled id b') (hid : b.Unused id) :
    b.surplus ≤ b'.surplus := by
  rw [surplus, surplus, h.replies]
  refine MixRelay.surplus_le h.collects.awaited fun other hother => ?_
  obtain ⟨hmem, hreply⟩ := mem_withReply.1 hother
  rcases (h.awaited other).1 hmem with hbefore | rfl
  · exact hbefore
  · exact absurd hid.2 hreply

/-- Where a reply is surplus, two channels that come new are enough for a round without one of them. -/
theorem exists_misled_of_unused (hsh : ∀ l, (shuffle l).Perm l) (h : b.Collects) (hsurplus : 0 < b.surplus)
    {first second : ChannelId} (hne : first ≠ second) (hfirst : b.Unused first)
    (hsecond : b.Unused second) :
    ∃ more, Along (collectStep shuffle) Orderly b more ∧
      ¬ Along (collectStep shuffle) (Covers shuffle) b more := by
  have hone : b.Enrolled first ((enrol first).foldl (collectStep shuffle) b) := enrolled h hfirst
  generalize hb' : (enrol first).foldl (collectStep shuffle) b = b' at hone
  have hunused : b'.Unused second := by
    refine ⟨fun hmem => ?_, hone.replies.symm ▸ hsecond.2⟩
    exact (hone.ids second hmem).elim hsecond.1 fun heq => hne heq.symm
  have htwo : b'.Enrolled second ((enrol second).foldl (collectStep shuffle) b') :=
    enrolled hone.collects hunused
  generalize hb'' : (enrol second).foldl (collectStep shuffle) b' = b'' at htwo
  have hwithout : [first, second] ⊆ withoutReply b''.awaited b''.replies.batch := by
    intro id hid
    rw [mem_withoutReply, htwo.awaited, hone.awaited, htwo.replies, hone.replies]
    rcases List.mem_pair.1 hid with rfl | rfl
    · exact ⟨.inl (.inr rfl), hfirst.2⟩
    · exact ⟨.inr rfl, hsecond.2⟩
  have hpair : [first, second].Nodup := by simpa using hne
  have hlength := (hpair.subperm hwithout).length_le
  obtain ⟨more, horderly, hnot⟩ := exists_misled hsh htwo.collects
    (Nat.lt_of_lt_of_le hsurplus (Nat.le_trans (hone.surplus_le hfirst) (htwo.surplus_le hunused))) hlength
  have hbehind : (enrol first ++ enrol second).foldl (collectStep shuffle) b = b'' := by
    rw [List.foldl_append, hb', hb'']
  refine ⟨(enrol first ++ enrol second) ++ more, along_append.2 ⟨?_, ?_⟩, fun hcovers => hnot ?_⟩
  · exact ⟨trivial, trivial, trivial, trivial, trivial⟩
  · exact hbehind.symm ▸ horderly
  · exact hbehind ▸ (along_append.1 hcovers).2

end Collection

theorem collects_start {settings : MixerSettings} (hlast : settings.isLast = false) (capacity : Nat) :
    (start settings (.empty capacity)).Collects := ⟨List.nodup_nil, hlast⟩

/-- In an orderly run every round that a reply sends has a reply for everyone. In any run it has, as long
as no reply arrives while surplus replies make up for all that are missing. From a state without surplus
replies that goes on as long as all is in order, and from no other: there new channels can be left out. -/
theorem collection_covers {shuffle : List Message → List Message} (hsh : ∀ l, (shuffle l).Perm l)
    {settings : MixerSettings} (hlast : settings.isLast = false) (capacity : Nat)
    (events : List CollectionEvent) :
    let b₀ := start settings (.empty capacity)
    let b := events.foldl (collectStep shuffle) b₀
    (Along (collectStep shuffle) Orderly b₀ events → Along (collectStep shuffle) (Covers shuffle) b₀ events) ∧
      (Along (collectStep shuffle) (Covers shuffle) b₀ events ↔
        Along (collectStep shuffle) (fun b e => ¬ b.Misleads e) b₀ events) ∧
      (b.surplus = 0 → ∀ more, Along (collectStep shuffle) Orderly b more →
        Along (collectStep shuffle) (Covers shuffle) b more) ∧
      (0 < b.surplus → ∀ first second, first ≠ second → b.Unused first → b.Unused second →
        ∃ more, Along (collectStep shuffle) Orderly b more ∧
          ¬ Along (collectStep shuffle) (Covers shuffle) b more) := by
  intro b₀ b
  have hcollects (run : List CollectionEvent) : (run.foldl (collectStep shuffle) b₀).Collects :=
    foldl_invariant (fun _ e h => h.step e) run (collects_start hlast capacity)
  refine ⟨covers_run hsh (hcollects []) rfl, ?_, fun hnone more => covers_run hsh (hcollects events) hnone,
    fun hsome first second hne => exists_misled_of_unused hsh (hcollects events) hsome hne⟩
  rw [along_iff, along_iff]
  refine forall_congr' fun front => forall_congr' fun e => forall_congr' fun rest => ?_
  exact imp_congr_right fun _ => covers_iff hsh (hcollects front) e

/-- Settings of a relay that has others before and behind it. -/
def amongRelays : MixerSettings := ⟨2, 1000, 0, false, false⟩

/-- Three channels come, and the first has a reply. -/
def oneOfThree : List CollectionEvent :=
  enrol 1 ++ enrol 2 ++ enrol 3 ++ [.mix (.arrival (.reply 1 [1]))]

/-- The others have theirs after it. -/
theorem three_covered :
    (∀ l : List Message, (id l).Perm l) ∧ amongRelays.isLast = false ∧
      Along (collectStep id) (Covers id) (start amongRelays (.empty 0))
        (oneOfThree ++ [.mix (.arrival (.reply 2 [2])), .mix (.arrival (.reply 3 [3]))]) := by
  have hsame : ∀ l : List Message, (id l).Perm l := fun l => .refl l
  have hbehind : amongRelays.isLast = false := rfl
  refine ⟨hsame, hbehind, (collection_covers hsame hbehind 0 _).1 ?_⟩
  decide

/-- The first channel leaves and its reply counts for the third, which has none when the second has. -/
theorem third_left_out :
    let b := (oneOfThree ++ [CollectionEvent.leave 1]).foldl (collectStep id) (start amongRelays (.empty 0))
    b.awaited = [2, 3] ∧
      (b.onReply id (.arrival (.reply 2 [2]))).1 = [.reply 1 [1], .reply 2 [2]] ∧
      ¬ Along (collectStep id) (Covers id) (start amongRelays (.empty 0))
        (oneOfThree ++ [.leave 1, .mix (.arrival (.reply 2 [2]))]) := by
  decide

end BatchMixer
end MixRelay
