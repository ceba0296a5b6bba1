import MixRelay.Proofs.ReplySlots
import MixRelay.Proofs.SizingSteps
import Mathlib.Data.List.Chain
import Mathlib.Data.List.Flatten
import Mathlib.Data.List.Forall2
import Mathlib.Data.List.Perm.Basic

/-!
# Batches of replies that are all alike

The mixer of the last relay knows of rounds only by the markers in its queue, and it may give up waiting
in the middle of one. Still each batch is a part of one round of the sizing: its replies go to different
channels and are equally long. In the queue a reply is followed by one of its own round or by the marker
of that round, so nothing of the next round enters a batch before the last one has left.
-/
namespace MixRelay

/-- A reply that the sizing has put into the queue, with the number of reply rounds closed before. -/
structure SizedReply where
  round : Nat
  channel : ChannelId
  payload : Bytes

def SizedReply.message (r : SizedReply) : Message := .reply r.channel r.payload

/-- No channel has two of the replies, and their payloads are equally long. -/
structure UniformReplies (replies : List SizedReply) : Prop where
  channels : (replies.map SizedReply.channel).Nodup
  lengths : ∃ n, ∀ r ∈ replies, r.payload.length = n

/-- A batch of replies to different channels, equally long. -/
structure UniformBatch (batch : List Message) : Prop where
  replies : ∀ m ∈ batch, m.isReply = true
  channels : (batch.map Message.channel?).Nodup
  lengths : ∃ n, ∀ m ∈ batch, m.payload.length = n

/-- The batch consists of these replies, all of one round. -/
structure OneRound (batch : List Message) (replies : List SizedReply) : Prop where
  nonempty : replies ≠ []
  perm : batch.Perm (replies.map SizedReply.message)
  round : ∃ n, ∀ r ∈ replies, r.round = n

/-- What stands in the queue: a reply, or the marker behind a round. -/
inductive QueueEntry
  | reply (r : SizedReply)
  | marker (round : Nat) (size : UInt32)

namespace QueueEntry

def round : QueueEntry → Nat
  | .reply r => r.round
  | .marker n _ => n

def message : QueueEntry → Message
  | .reply r => r.message
  | .marker _ size => .batchSize size

def reply? : QueueEntry → Option SizedReply
  | .reply r => some r
  | .marker .. => none

/-- A marker may be followed by a later round, a reply only by its own. -/
def Precedes : QueueEntry → QueueEntry → Prop
  | .reply r, b => r.round = b.round
  | .marker n _, b => n ≤ b.round

/-- Each entry may be followed by the next, and the last by the end of the round that is open. -/
def InOrder (openRound : Nat) (entries : List QueueEntry) : Prop :=
  (entries ++ [marker openRound 0]).IsChain Precedes

end QueueEntry

namespace SizingStage

/-- The size of the replies, once it is decided and until the round is closed. -/
def size? : SizingStage → Option Nat
  | .cutting round _ => some round.size
  | .offering _ _ round _ => some round.size
  | _ => none

/-- A reply that has left its buffer has the size of its round. -/
def Fit : SizingStage → Prop
  | .offering _ payload round _ => payload.length = ReplyPayload.headerLength + round.size
  | _ => True

end SizingStage

namespace LastRelay

/-- What a step of the sizing puts into the queue, without the markers. -/
def enqueued (s : LastRelay) : LastRelayEvent → List SizedReply
  | .size _ =>
    match s.stage with
    | .offering channel payload _ _ => [⟨s.channels.registry.replyRound, channel, payload⟩]
    | _ => []
  | _ => []

/-- The batch that leaves the mixer, if one does. -/
def submits (shuffle : Shuffle) (s : LastRelay) (e : MixerEvent) : List (List Message) :=
  if (s.mixed shuffle e).sent.isEmpty then [] else [(s.mixed shuffle e).sent]

def submitted (s : LastRelay) : LastRelayEvent → List (List Message)
  | .take shuffle =>
    match s.waiting with
    | m :: _ => s.submits shuffle (.arrival m)
    | [] => []
  | .timeout shuffle => s.submits shuffle .timeout
  | _ => []

/-- The round of what enters the queue next: the marker comes when its round is closed already. -/
def openRound (s : LastRelay) : Nat :=
  match s.stage with
  | .marking _ => s.channels.registry.replyRound - 1
  | _ => s.channels.registry.replyRound

/-- What is known of the replies in the queue so far: the rounds came one after the other, each is
uniform, and the round underway has the channels before it that are to come. -/
structure Sized (s : LastRelay) (log : List SizedReply) : Prop where
  ids : s.channels.registry.ids.Nodup
  ascending : (log.map SizedReply.round).Pairwise (· ≤ ·)
  reached : ∀ r ∈ log, r.round ≤ s.channels.registry.replyRound
  uniform : ∀ n, UniformReplies (log.filter fun r => r.round = n)
  due : s.stage.due.Nodup
  hands : ∀ id ∈ s.stage.due, s.channels.Has id
  fit : s.stage.Fit
  underway : ∀ r ∈ log, r.round = s.channels.registry.replyRound → r.channel ∉ s.stage.due ∧
    ∃ size ∈ s.stage.size?, r.payload.length = ReplyPayload.headerLength + size

/-- The batches, what the mixer holds, and what waits are the replies so far, in their order. -/
structure Queued (s : LastRelay) (log : List SizedReply) (batches : List (List Message))
    (groups : List (List SizedReply)) (held : List SizedReply) (behind : List QueueEntry) : Prop where
  isLast : s.mixer.isLast = true
  batch_eq : held.map SizedReply.message = s.mixer.batch
  waiting_eq : behind.map QueueEntry.message = s.waiting
  order : QueueEntry.InOrder s.openRound (held.map QueueEntry.reply ++ behind)
  log_eq : log = groups.flatten ++ held ++ behind.filterMap QueueEntry.reply?
  batches_eq : List.Forall₂ OneRound batches groups

end LastRelay

namespace QueueEntry
variable {n k : Nat} {front entries : List QueueEntry} {e : QueueEntry}

theorem Precedes.of_round_eq {a b c : QueueEntry} (h : a.Precedes b) (hr : c.round = b.round) :
    a.Precedes c := by
  cases a <;> simpa only [Precedes, hr] using h

theorem InOrder.drop (h : InOrder n (front ++ entries)) : InOrder n entries := by
  rw [InOrder, List.append_assoc] at h
  exact h.right_of_append

theorem InOrder.push (h : InOrder n entries) (he : e.round = n) (hk : e.Precedes (.marker k 0)) :
    InOrder k (entries ++ [e]) := by
  obtain ⟨hentries, -, hlast⟩ := List.isChain_append.1 h
  rw [InOrder, List.append_assoc, List.isChain_append]
  refine ⟨hentries, .cons_cons hk (.singleton _), fun a ha b hb => ?_⟩
  obtain rfl : e = b := Option.some.inj hb
  exact (hlast a ha _ rfl).of_round_eq he

/-- Replies with no marker between them are of one round. -/
theorem InOrder.oneRound {held : List SizedReply} (h : InOrder n (held.map reply ++ entries)) :
    ∃ k, ∀ r ∈ held, r.round = k := by
  rw [InOrder, List.append_assoc] at h
  have hchain : (held.map SizedReply.round).IsChain Eq :=
    (List.isChain_map SizedReply.round).2 ((List.isChain_map reply).1 h.left_of_append)
  cases held with
  | nil => exact ⟨0, nofun⟩
  | cons r held =>
    have hall := List.pairwise_cons.1 (List.isChain_iff_pairwise.1 hchain)
    refine ⟨r.round, fun d hd => ?_⟩
    rcases List.mem_cons.1 hd with rfl | hd
    · rfl
    · exact (hall.1 d.round (List.mem_map_of_mem hd)).symm

theorem replies_messages (entries : List QueueEntry) :
    (entries.filterMap reply?).map SizedReply.message =
      (entries.map message).filter Message.isReply := by
  induction entries with
  | nil => rfl
  | cons e entries ih =>
    cases e with
    | reply r => exact congrArg (r.message :: ·) ih
    | marker n size => exact ih

end QueueEntry

theorem UniformReplies.sublist {few many : List SizedReply} (h : UniformReplies many)
    (hsub : few.Sublist many) : UniformReplies few where
  channels := h.channels.sublist (hsub.map _)
  lengths := h.lengths.imp fun _ hn r hr => hn r (hsub.subset hr)

theorem UniformReplies.concat {replies : List SizedReply} (h : UniformReplies replies) {r : SizedReply}
    (hall : ∀ d ∈ replies, d.channel ≠ r.channel ∧ d.payload.length = r.payload.length) :
    UniformReplies (replies ++ [r]) where
  channels := by
    rw [List.map_append]
    refine List.concat_eq_append ▸ h.channels.concat fun hmem => ?_
    obtain ⟨d, hd, heq⟩ := List.mem_map.1 hmem
    exact (hall d hd).1 heq
  lengths := by
    refine ⟨r.payload.length, fun d hd => ?_⟩
    rcases List.mem_append.1 hd with hd | hd
    · exact (hall d hd).2
    · rw [List.mem_singleton.1 hd]

theorem UniformReplies.batch {replies : List SizedReply} (h : UniformReplies replies)
    {batch : List Message} (hperm : batch.Perm (replies.map SizedReply.message)) :
    UniformBatch batch where
  replies m hm := by
    obtain ⟨r, -, rfl⟩ := List.mem_map.1 (hperm.mem_iff.1 hm)
    rfl
  channels := by
    rw [(hperm.map Message.channel?).nodup_iff, List.map_map]
    have hchannels : Message.channel? ∘ SizedReply.message = some ∘ SizedReply.channel := rfl
    rw [hchannels, ← List.map_map]
    exact h.channels.map (Option.some_injective _)
  lengths := by
    obtain ⟨n, hn⟩ := h.lengths
    refine ⟨n, fun m hm => ?_⟩
    obtain ⟨r, hr, rfl⟩ := List.mem_map.1 (hperm.mem_iff.1 hm)
    exact hn r hr

namespace LastRelay
variable {s t : LastRelay} {log : List SizedReply}

namespace Sized

theorem start (settings : SizingSettings) (proxyCapacity : Nat) :
    Sized (start settings proxyCapacity) [] where
  ids := List.nodup_nil
  ascending := .nil
  reached := nofun
  uniform _ := ⟨List.nodup_nil, 0, nofun⟩
  due := List.nodup_nil
  hands := nofun
  fit := trivial
  underway := nofun

/-- Steps that put no reply into the queue and leave the round open. -/
theorem calm (h : s.Sized log) (hids : t.channels.registry.ids.Nodup)
    (hround : t.channels.registry.replyRound = s.channels.registry.replyRound)
    (hdue : t.stage.due.Nodup) (hhands : ∀ id ∈ t.stage.due, t.channels.Has id) (hfit : t.stage.Fit)
    (hkeep : ∀ size ∈ s.stage.size?, size ∈ t.stage.size? ∧ t.stage.due ⊆ s.stage.due) :
    t.Sized log where
  ids := hids
  ascending := h.ascending
  reached := hround ▸ h.reached
  uniform := h.uniform
  due := hdue
  hands := hhands
  fit := hfit
  underway r hr hunder := by
    obtain ⟨hnot, size, hsize, hlength⟩ := h.underway r hr (hunder.trans hround)
    obtain ⟨hsame, hsub⟩ := hkeep size hsize
    exact ⟨fun hmem => hnot (hsub hmem), size, hsame, hlength⟩

/-- A reply enters the queue. -/
theorem offer (h : s.Sized log) {channel : ChannelId} {payload : Bytes} {round : RoundUnderway}
    {left : List ChannelId} (hstage : s.stage = .offering channel payload round left) :
    (s.offer channel payload round left).Sized
      (log ++ [⟨s.channels.registry.replyRound, channel, payload⟩]) := by
  have hunder := h.underway
  have hdue := h.due
  have hhands := h.hands
  have hfit := h.fit
  rw [hstage] at hunder hdue hhands hfit
  obtain ⟨hnot, hleft⟩ := List.nodup_cons.1 hdue
  have hbefore : ∀ r ∈ log.filter fun r => r.round = s.channels.registry.replyRound,
      r.channel ≠ channel ∧ r.payload.length = payload.length := by
    intro r hr
    obtain ⟨hr, hround⟩ := List.mem_filter.1 hr
    obtain ⟨hchannel, size, hsize, hlength⟩ := hunder r hr (of_decide_eq_true hround)
    obtain rfl := Option.some.inj hsize
    exact ⟨fun heq => hchannel (heq ▸ List.mem_cons_self), hlength.trans hfit.symm⟩
  refine ⟨h.ids, ?ascending, fun r hr => ?reached, fun n => ?uniform, hleft,
    fun id hid => hhands id (List.mem_cons_of_mem channel hid), trivial, fun r hr hround => ?under⟩
  case ascending =>
    rw [List.map_append, List.pairwise_append]
    refine ⟨h.ascending, .cons nofun .nil, fun n hn k hk => ?_⟩
    obtain ⟨r, hr, rfl⟩ := List.mem_map.1 hn
    obtain rfl := List.mem_singleton.1 hk
    exact h.reached r hr
  case reached =>
    rcases List.mem_append.1 hr with hr | hr
    · exact h.reached r hr
    · rw [List.mem_singleton.1 hr]
      exact Nat.le_refl _
  case uniform =>
    rw [List.filter_append]
    by_cases hn : s.channels.registry.replyRound = n
    · subst hn
      rw [List.filter_cons_of_pos (by simp), List.filter_nil]
      exact (h.uniform _).concat hbefore
    · rw [List.filter_cons_of_neg (by simpa using hn), List.filter_nil, List.append_nil]
      exact h.uniform n
  case under =>
    rcases List.mem_append.1 hr with hr | hr
    · obtain ⟨hchannel, hsize⟩ := hunder r hr hround
      exact ⟨fun hmem => hchannel (List.mem_cons_of_mem _ hmem), hsize⟩
    · rw [List.mem_singleton.1 hr]
      exact ⟨hnot, round.size, rfl, hfit⟩

/-- Once the round is closed, all replies so far are of earlier ones. -/
theorem closeRound (h : s.Sized log) (round : RoundUnderway) : (s.closeRound round).Sized log where
  ids := (ChannelRegistry.ids_closeReplyRound _).symm ▸ h.ids
  ascending := h.ascending
  reached r hr := Nat.le_succ_of_le (h.reached r hr)
  uniform := h.uniform
  due := List.nodup_nil
  hands := nofun
  fit := trivial
  underway r hr hround := absurd (h.reached r hr) (by rw [hround]; exact Nat.not_succ_le_self _)

theorem beginPoll (h : s.Sized log) (hstage : s.stage = .resting) : s.beginPoll.Sized log := by
  have hestablished : (s.channels.registry.establishedChannels.map Channel.id).Sublist
      s.channels.registry.ids := List.filter_sublist.map _
  have hhands : ∀ id ∈ s.channels.registry.establishedChannels.map Channel.id,
      s.beginPoll.channels.Has id := by
    intro id hid
    refine (grasps_beginPoll hid).has ?_
    rw [registry_beginPoll]
    exact hestablished.subset hid
  have hids : s.beginPoll.channels.registry.ids.Nodup := by
    rw [registry_beginPoll]
    exact h.ids
  have hround : s.beginPoll.channels.registry.replyRound = s.channels.registry.replyRound := by
    rw [registry_beginPoll]
  have hnone : ∀ size, size ∉ s.stage.size? := by
    rw [hstage]
    exact nofun
  rcases s.stage_beginPoll with hbegun | hbegun
  · refine h.calm hids hround ?_ ?_ ?_ fun size hsize => absurd hsize (hnone size) <;> rw [hbegun]
    · exact List.nodup_nil
    · exact nofun
    · trivial
  · refine h.calm hids hround ?_ ?_ ?_ fun size hsize => absurd hsize (hnone size) <;> rw [hbegun]
    · exact h.ids.sublist hestablished
    · exact hhands
    · trivial

theorem sample (h : s.Sized log) {sampled left : List ChannelId} {id : ChannelId} {volumes : List Nat}
    (hstage : s.stage = .sampling sampled (id :: left) volumes) :
    (s.sample sampled id left volumes).Sized log := by
  have hdue := h.due
  have hhands := h.hands
  rw [hstage] at hdue hhands
  have hnone : ∀ size, size ∉ s.stage.size? := by
    rw [hstage]
    exact nofun
  obtain ⟨hold, c, hhand, -⟩ := (hhands id (by simp [SizingStage.due])).inHand
  rw [LastRelay.sample, hhand]
  have hsame : (SizingStage.sampling (sampled ++ [id]) left (volumes ++ [c.buffered])).due =
      (SizingStage.sampling sampled (id :: left) volumes).due := by
    simp [SizingStage.due]
  refine h.calm h.ids rfl ?_ ?_ trivial fun size hsize => absurd hsize (hnone size)
  · exact hsame.symm ▸ hdue
  · exact fun other hother => hhands other (hsame ▸ hother)

theorem decideRound (h : s.Sized log) {elapsed : Bool} {sampled : List ChannelId} {volumes : List Nat}
    (hstage : s.stage = .sampling sampled [] volumes) :
    (s.decideRound elapsed sampled volumes).Sized log := by
  have hdue := h.due
  have hhands := h.hands
  rw [hstage, SizingStage.due, List.append_nil] at hdue hhands
  have hnone : ∀ size, size ∉ s.stage.size? := by
    rw [hstage]
    exact nofun
  unfold LastRelay.decideRound
  split
  · exact h.calm h.ids rfl List.nodup_nil nofun trivial fun size hsize => absurd hsize (hnone size)
  · split
    · exact h.calm h.ids rfl List.nodup_nil nofun trivial fun size hsize => absurd hsize (hnone size)
    · exact h.calm h.ids rfl hdue hhands trivial fun size hsize => absurd hsize (hnone size)

/-- A reply leaves its buffer with the size of the round. -/
theorem cut (h : s.Sized log) {round : RoundUnderway} {id : ChannelId} {left : List ChannelId}
    (hstage : s.stage = .cutting round (id :: left)) : (s.cut round id left).Sized log := by
  have hdue := h.due
  have hhands := h.hands
  rw [hstage] at hdue hhands
  obtain ⟨hold, c, hhand, hid⟩ := (hhands id List.mem_cons_self).inHand
  rw [LastRelay.cut, hhand]
  dsimp only
  split
  · refine h.calm h.ids rfl (List.nodup_cons.1 hdue).2
      (fun other hother => hhands other (List.mem_cons_of_mem id hother)) trivial ?_
    rw [hstage]
    exact fun size hsize => ⟨hsize, List.subset_cons_self id left⟩
  · have hdue' : (SizingStage.offering c.id (ReplyPayload.encode
          (c.claimReply.2.takeReply round.size).1 (c.claimReply.2.takeReply round.size).2.1)
        round left).due = (SizingStage.cutting round (id :: left)).due := congrArg (· :: left) hid
    have hkept : ∀ d e : Channel, s.channels.channel? hold = some d → e.id = d.id →
        (c.claimReply.2.takeReply round.size).2.2.id = d.id := by
      intro d e hd _
      obtain rfl := Option.some.inj ((HeldChannels.channel?_of_inHand hhand).symm.trans hd)
      rfl
    refine h.calm ?_ (HeldChannels.replyRound_modify _ _ _) (hdue' ▸ hdue) ?_ ?_ ?_
    · exact (HeldChannels.ids_modify hkept).symm ▸ h.ids
    · exact fun other hother => (hhands other (hdue' ▸ hother)).modify hkept
    · exact (ReplyPayload.length_encode _ _).trans (congrArg _ (Bytes.length_fit _ _))
    · rw [hstage]
      exact fun size hsize => ⟨hsize, fun other hother => hdue' ▸ hother⟩

theorem mark (h : s.Sized log) {round : RoundUnderway} (hstage : s.stage = .marking round) :
    (s.mark round).Sized log := by
  refine h.calm h.ids rfl List.nodup_nil nofun trivial ?_
  rw [hstage]
  exact nofun

theorem size (h : s.Sized log) (elapsed : Bool) :
    (s.size elapsed).Sized (log ++ s.enqueued (.size elapsed)) := by
  unfold LastRelay.size enqueued
  cases hstage : s.stage with
  | resting => exact (List.append_nil log).symm ▸ h.beginPoll hstage
  | sampling sampled left volumes =>
    rw [List.append_nil]
    cases left with
    | nil => exact h.decideRound hstage
    | cons id left => exact h.sample hstage
  | cutting round left =>
    rw [List.append_nil]
    cases left with
    | nil => exact h.closeRound round
    | cons id left => exact h.cut hstage
  | offering channel payload round left => exact h.offer hstage
  | marking round => exact (List.append_nil log).symm ▸ h.mark hstage
  | stopped => exact (List.append_nil log).symm ▸ h

end Sized
end LastRelay

namespace ReplyMixer
variable {m : ReplyMixer} {shuffle : List Message → List Message} {established : Nat}

/-- Behind the sizing the mixer closes no reply round. -/
theorem closesRound_step (hlast : m.isLast = true) (e : MixerEvent) :
    (m.step shuffle established e).closesRound = false := by
  have hflush : (m.flushUnlessEmpty shuffle).closesRound = false := by
    unfold flushUnlessEmpty
    split
    · rfl
    · simp [flush, hlast]
  cases e with
  | timeout => exact hflush
  | arrival d =>
    cases d with
    | reply c payload => rw [step_reply hlast]
    | batchSize n =>
      rw [step, if_pos hlast]
      exact hflush
    | establish | message | release => rfl

end ReplyMixer

namespace LastRelay
variable {s t : LastRelay} {log : List SizedReply} {batches : List (List Message)}
  {groups : List (List SizedReply)} {held : List SizedReply} {behind : List QueueEntry}

theorem mix_channels (hlast : s.mixer.isLast = true) (shuffle : Shuffle) (rest : List Message)
    (e : MixerEvent) : (s.mix shuffle rest e).channels = s.channels := by
  have hopen : (s.mixed shuffle e).close s.channels.registry = s.channels.registry :=
    if_neg (by rw [mixed, ReplyMixer.closesRound_step hlast]; exact Bool.false_ne_true)
  rw [mix, hopen]

theorem openRound_mix (hlast : s.mixer.isLast = true) (shuffle : Shuffle) (rest : List Message)
    (e : MixerEvent) : (s.mix shuffle rest e).openRound = s.openRound := by
  rw [openRound, openRound, mix_channels hlast]
  rfl

/-- A flush sends the batch in one piece, unless it is empty. -/
theorem submits_of_flush {shuffle : Shuffle} {e : MixerEvent}
    (he : s.mixed shuffle e = s.mixer.flushUnlessEmpty shuffle.order) :
    (s.mixer.batch = [] ∧ s.submits shuffle e = [] ∧ (s.mixed shuffle e).mixer = s.mixer) ∨
      (s.mixer.batch ≠ [] ∧ s.submits shuffle e = [shuffle.order s.mixer.batch] ∧
        (s.mixed shuffle e).mixer = { s.mixer with batch := [] }) := by
  by_cases hbatch : s.mixer.batch = []
  · have hstep : s.mixed shuffle e = s.mixer.idle := by
      rw [he, ReplyMixer.flushUnlessEmpty, hbatch]
      rfl
    exact .inl ⟨hbatch, by rw [submits, hstep]; rfl, by rw [hstep]; rfl⟩
  · have hstep : s.mixed shuffle e = s.mixer.flush shuffle.order := by
      rw [he, ReplyMixer.flushUnlessEmpty, if_neg (mt List.isEmpty_iff.1 hbatch)]
    have hsome : shuffle.order s.mixer.batch ≠ [] := by
      intro hnil
      have hperm := shuffle.perm s.mixer.batch
      exact hbatch (List.nil_perm.1 (hnil ▸ hperm))
    refine .inr ⟨hbatch, ?_, by rw [hstep]; rfl⟩
    rw [submits, hstep]
    exact if_neg (mt List.isEmpty_iff.1 hsome)

/-- What others do leaves the poll where it stands, with its channels in hand, and no reply round is
closed. -/
theorem next_others (hlast : s.mixer.isLast = true) {e : LastRelayEvent}
    (he : ∀ elapsed, e ≠ .size elapsed) :
    (s.next e).stage = s.stage ∧
      (s.channels.registry.ids.Nodup → (s.next e).channels.registry.ids.Nodup) ∧
      (∀ id, s.channels.Has id → (s.next e).channels.Has id) ∧
      (s.next e).channels.registry.replyRound = s.channels.registry.replyRound := by
  cases e with
  | size elapsed => exact absurd rfl (he elapsed)
  | take shuffle =>
    rw [next, take]
    split
    · exact ⟨rfl, by rw [mix_channels hlast]; exact ⟨id, fun _ => id, rfl⟩⟩
    · exact ⟨rfl, id, fun _ => id, rfl⟩
  | timeout shuffle =>
    rw [next]
    exact ⟨rfl, by rw [mix_channels hlast]; exact ⟨id, fun _ => id, rfl⟩⟩
  | join id =>
    obtain ⟨hids, hround⟩ := s.channels.registry_join id
    exact ⟨rfl, hids, fun _ hid => hid.join id, hround⟩
  | leave id =>
    obtain ⟨hids, hround⟩ := s.channels.registry_leave id
    exact ⟨rfl, hids, fun _ hid => hid.leave id, hround⟩
  | use hold use =>
    have hkept : ∀ c d : Channel, s.channels.channel? hold = some c → d.id = c.id →
        (use.apply d).id = c.id := fun c d _ hd => (use.apply_id d).trans hd
    exact ⟨rfl, fun hids => (HeldChannels.ids_modify hkept).symm ▸ hids, fun _ hid => hid.modify hkept,
      HeldChannels.replyRound_modify _ _ _⟩
  | closeRequests =>
    exact ⟨rfl, fun hids => (ChannelRegistry.ids_closeRequestRound _).symm ▸ hids,
      fun _ hid => hid.mapRegistry (f := Channel.clearRequest) (fun _ => rfl) rfl, rfl⟩

theorem Sized.next (h : s.Sized log) (hlast : s.mixer.isLast = true) (e : LastRelayEvent) :
    (s.next e).Sized (log ++ s.enqueued e) := by
  by_cases he : ∃ elapsed, e = .size elapsed
  · obtain ⟨elapsed, rfl⟩ := he
    exact h.size elapsed
  · obtain ⟨hstage, hids, hhands, hround⟩ := next_others hlast fun elapsed heq => he ⟨elapsed, heq⟩
    have hnone : s.enqueued e = [] := by
      cases e with
      | size elapsed => exact absurd ⟨elapsed, rfl⟩ he
      | _ => rfl
    rw [hnone, List.append_nil]
    refine h.calm (hids h.ids) hround ?_ ?_ ?_ ?_ <;> rw [hstage]
    · exact h.due
    · exact fun id hid => hhands id (h.hands id hid)
    · exact h.fit
    · exact fun size hsize => ⟨hsize, List.Subset.refl _⟩

/-- What a step of the sizing means for the queue. -/
theorem size_cases (s : LastRelay) (elapsed : Bool) :
    (s.enqueued (.size elapsed) = [] ∧ (s.size elapsed).mixer = s.mixer ∧
        (s.size elapsed).waiting = s.waiting ∧ (s.size elapsed).openRound = s.openRound) ∨
      (∃ channel payload round left, s.stage = .offering channel payload round left ∧
        s.size elapsed = s.offer channel payload round left) ∨
      ∃ round, s.stage = .marking round ∧ s.size elapsed = s.mark round := by
  unfold size enqueued
  cases hstage : s.stage with
  | resting =>
    refine .inl ⟨rfl, rfl, rfl, ?_⟩
    rcases s.stage_beginPoll with hbegun | hbegun <;>
      simp only [openRound, registry_beginPoll, hstage, hbegun]
  | sampling sampled left volumes =>
    cases left with
    | nil =>
      refine .inl ⟨rfl, ?_⟩
      simp only [decideRound]
      split
      · exact ⟨rfl, rfl, by rw [openRound, openRound, hstage]⟩
      · split <;> exact ⟨rfl, rfl, by rw [openRound, openRound, hstage]⟩
    | cons id left =>
      refine .inl ⟨rfl, ?_⟩
      simp only [sample]
      split <;> exact ⟨rfl, rfl, by rw [openRound, openRound, hstage]⟩
  | cutting round left =>
    cases left with
    | nil => exact .inl ⟨rfl, rfl, rfl, by rw [openRound, openRound, hstage]; rfl⟩
    | cons id left =>
      refine .inl ⟨rfl, ?_⟩
      simp only [cut]
      split
      · exact ⟨rfl, rfl, by rw [openRound, openRound, hstage]⟩
      · split
        · exact ⟨rfl, rfl, by rw [openRound, openRound, hstage]⟩
        · refine ⟨rfl, rfl, ?_⟩
          rw [openRound, openRound, hstage]
          exact HeldChannels.replyRound_modify _ _ _
  | offering channel payload round left => exact .inr (.inl ⟨channel, payload, round, left, rfl, rfl⟩)
  | marking round => exact .inr (.inr ⟨round, rfl, rfl⟩)
  | stopped => exact .inl ⟨rfl, rfl, rfl, rfl⟩

/-- Some of what the sizing has put into the queue has left in batches. -/
def Accounted (s : LastRelay) (log : List SizedReply) (batches : List (List Message)) : Prop :=
  ∃ groups held behind, s.Queued log batches groups held behind

namespace Queued

theorem start (settings : SizingSettings) (proxyCapacity : Nat) :
    Queued (start settings proxyCapacity) [] [] [] [] [] where
  isLast := rfl
  batch_eq := rfl
  waiting_eq := rfl
  order := .singleton _
  log_eq := rfl
  batches_eq := .nil

/-- Neither the queue nor the mixer nor the open round changes. -/
theorem frame (h : s.Queued log batches groups held behind) (hmixer : t.mixer = s.mixer)
    (hwaiting : t.waiting = s.waiting) (hopen : t.openRound = s.openRound) :
    t.Queued log batches groups held behind where
  isLast := hmixer ▸ h.isLast
  batch_eq := hmixer ▸ h.batch_eq
  waiting_eq := hwaiting ▸ h.waiting_eq
  order := hopen ▸ h.order
  log_eq := h.log_eq
  batches_eq := h.batches_eq

/-- Others than the sizing and the mixer have no part in it. -/
theorem others (h : s.Queued log batches groups held behind) {e : LastRelayEvent}
    (he : ∀ elapsed, e ≠ .size elapsed) (hmixer : (s.next e).mixer = s.mixer)
    (hwaiting : (s.next e).waiting = s.waiting) :
    (s.next e).Queued log batches groups held behind := by
  obtain ⟨hstage, -, -, hround⟩ := next_others h.isLast he
  exact h.frame hmixer hwaiting (by rw [openRound, openRound, hstage, hround])

theorem offer (h : s.Queued log batches groups held behind) {channel : ChannelId} {payload : Bytes}
    {round : RoundUnderway} {left : List ChannelId}
    (hstage : s.stage = .offering channel payload round left) :
    (s.offer channel payload round left).Queued
      (log ++ [⟨s.channels.registry.replyRound, channel, payload⟩]) batches groups held
      (behind ++ [.reply ⟨s.channels.registry.replyRound, channel, payload⟩]) where
  isLast := h.isLast
  batch_eq := h.batch_eq
  waiting_eq := by
    rw [List.map_append, h.waiting_eq]
    rfl
  order := by
    have hround : s.openRound = s.channels.registry.replyRound := by rw [openRound, hstage]
    rw [← List.append_assoc]
    exact h.order.push hround.symm rfl
  log_eq := by
    rw [List.filterMap_append, h.log_eq, List.append_assoc]
    rfl
  batches_eq := h.batches_eq

/-- The marker ends the round that was open; from now on the next one is. -/
theorem mark (h : s.Queued log batches groups held behind) {round : RoundUnderway}
    (hstage : s.stage = .marking round) :
    (s.mark round).Queued log batches groups held
      (behind ++ [.marker s.openRound (UInt32.ofNat round.replies)]) where
  isLast := h.isLast
  batch_eq := h.batch_eq
  waiting_eq := by
    rw [List.map_append, h.waiting_eq]
    rfl
  order := by
    have hround : s.openRound ≤ s.channels.registry.replyRound := by
      rw [openRound, hstage]
      exact Nat.sub_le _ 1
    rw [← List.append_assoc]
    exact h.order.push rfl hround
  log_eq := by
    have hnone : [QueueEntry.marker s.openRound (UInt32.ofNat round.replies)].filterMap
        QueueEntry.reply? = [] := rfl
    rw [List.filterMap_append, hnone, List.append_nil]
    exact h.log_eq
  batches_eq := h.batches_eq

/-- The mixer holds one more reply. -/
theorem hold {r : SizedReply} (h : s.Queued log batches groups held (.reply r :: behind))
    (shuffle : Shuffle) {rest : List Message} (hrest : behind.map QueueEntry.message = rest) :
    s.submits shuffle (.arrival r.message) = [] ∧
      (s.mix shuffle rest (.arrival r.message)).Queued log batches groups (held ++ [r]) behind := by
  have hstep : s.mixed shuffle (.arrival r.message) =
      ⟨{ s.mixer with batch := s.mixer.batch ++ [r.message] }, [], false⟩ :=
    ReplyMixer.step_reply h.isLast _ r.channel r.payload
  refine ⟨by rw [submits, hstep]; rfl, ?_, ?_, hrest, ?_, ?_, h.batches_eq⟩
  · simp only [mix, hstep, h.isLast]
  · simp only [mix, hstep, List.map_append, h.batch_eq, List.map_singleton]
  · rw [openRound_mix h.isLast, List.map_append, List.append_assoc]
    exact h.order
  · rw [h.log_eq]
    simp [QueueEntry.reply?]

/-- The mixer sends what it holds, if it holds anything. -/
theorem flush (h : s.Queued log batches groups held behind) (shuffle : Shuffle) {e : MixerEvent}
    (he : s.mixed shuffle e = s.mixer.flushUnlessEmpty shuffle.order) {rest : List Message}
    {k : List QueueEntry} (hrest : k.map QueueEntry.message = rest)
    (hsame : k.filterMap QueueEntry.reply? = behind.filterMap QueueEntry.reply?)
    (horder : QueueEntry.InOrder s.openRound k) :
    ∃ groups', (s.mix shuffle rest e).Queued log (batches ++ s.submits shuffle e) groups' [] k := by
  have hopen := openRound_mix h.isLast shuffle rest e
  rcases submits_of_flush he with ⟨hbatch, hnone, hmixer⟩ | ⟨hbatch, hsent, hmixer⟩
  · have hheld : held = [] := List.map_eq_nil_iff.1 (h.batch_eq.trans hbatch)
    subst hheld
    rw [hnone, List.append_nil]
    refine ⟨groups, ?_, ?_, hrest, hopen ▸ horder, hsame ▸ h.log_eq, h.batches_eq⟩
    · rw [mix, hmixer, h.isLast]
    · rw [mix, hmixer, hbatch, List.map_nil]
  · have hone : OneRound (shuffle.order s.mixer.batch) held := by
      refine ⟨fun hnil => hbatch ?_, ?_, h.order.oneRound⟩
      · rw [← h.batch_eq, hnil, List.map_nil]
      · rw [h.batch_eq]
        exact shuffle.perm s.mixer.batch
    rw [hsent]
    refine ⟨groups ++ [held], ?_, ?_, hrest, hopen ▸ horder, ?_,
      List.rel_append h.batches_eq (.cons hone .nil)⟩
    · rw [mix, hmixer, h.isLast]
    · rw [mix, hmixer, List.map_nil]
    · rw [h.log_eq, hsame]
      simp

end Queued

theorem Accounted.size (h : s.Accounted log batches) (elapsed : Bool) :
    (s.size elapsed).Accounted (log ++ s.enqueued (.size elapsed)) batches := by
  obtain ⟨groups, held, behind, h⟩ := h
  rcases s.size_cases elapsed with ⟨hnone, hmixer, hwaiting, hopen⟩ |
    ⟨channel, payload, round, left, hstage, hafter⟩ | ⟨round, hstage, hafter⟩
  · rw [hnone, List.append_nil]
    exact ⟨groups, held, behind, h.frame hmixer hwaiting hopen⟩
  · have hreply : s.enqueued (.size elapsed) =
        [⟨s.channels.registry.replyRound, channel, payload⟩] := by
      rw [enqueued, hstage]
    rw [hreply, hafter]
    exact ⟨groups, held, _, h.offer hstage⟩
  · have hnone : s.enqueued (.size elapsed) = [] := by rw [enqueued, hstage]
    rw [hnone, hafter, List.append_nil]
    exact ⟨groups, held, _, h.mark hstage⟩

theorem Accounted.take (h : s.Accounted log batches) (shuffle : Shuffle) :
    (s.take shuffle).Accounted log (batches ++ s.submitted (.take shuffle)) := by
  obtain ⟨groups, held, behind, h⟩ := h
  unfold LastRelay.take submitted
  cases behind with
  | nil =>
    have hwaiting : s.waiting = [] := h.waiting_eq.symm
    rw [hwaiting]
    exact ⟨groups, held, [], (List.append_nil batches).symm ▸ h⟩
  | cons entry behind =>
    have hwaiting : s.waiting = entry.message :: behind.map QueueEntry.message := h.waiting_eq.symm
    rw [hwaiting]
    cases entry with
    | reply r =>
      obtain ⟨hnone, hheld⟩ := h.hold shuffle rfl
      exact ⟨groups, held ++ [r], behind, by simpa [QueueEntry.message, hnone] using hheld⟩
    | marker n size =>
      have hflush : s.mixed shuffle (.arrival (.batchSize size)) =
          s.mixer.flushUnlessEmpty shuffle.order := if_pos h.isLast
      have horder : QueueEntry.InOrder s.openRound ([.marker n size] ++ behind) := h.order.drop
      obtain ⟨groups', hafter⟩ := h.flush (k := behind) shuffle hflush rfl rfl horder.drop
      exact ⟨groups', [], behind, hafter⟩

theorem Accounted.next (h : s.Accounted log batches) (e : LastRelayEvent) :
    (s.next e).Accounted (log ++ s.enqueued e) (batches ++ s.submitted e) := by
  cases e with
  | size elapsed => exact (List.append_nil batches).symm ▸ h.size elapsed
  | take shuffle => exact (List.append_nil log).symm ▸ h.take shuffle
  | timeout shuffle =>
    obtain ⟨groups, held, behind, h⟩ := h
    obtain ⟨groups', hafter⟩ := h.flush shuffle (e := .timeout) rfl h.waiting_eq rfl h.order.drop
    exact ⟨groups', [], behind, (List.append_nil log).symm ▸ hafter⟩
  | join id | leave id | use hold use | closeRequests =>
    obtain ⟨groups, held, behind, h⟩ := h
    change Accounted _ (log ++ []) (batches ++ [])
    rw [List.append_nil, List.append_nil]
    exact ⟨groups, held, behind, h.others nofun rfl rfl⟩

/-- The relay after some events. -/
def after (settings : SizingSettings) (proxyCapacity : Nat) (events : List LastRelayEvent) : LastRelay :=
  events.foldl next (start settings proxyCapacity)

/-- The replies that the sizing has put into the queue by then. -/
def repliesAfter (settings : SizingSettings) (proxyCapacity : Nat) (events : List LastRelayEvent) :
    List SizedReply :=
  outputs next enqueued (start settings proxyCapacity) events

/-- The batches that the mixer has submitted by then. -/
def batchesAfter (settings : SizingSettings) (proxyCapacity : Nat) (events : List LastRelayEvent) :
    List (List Message) :=
  outputs next submitted (start settings proxyCapacity) events

theorem run_sound (settings : SizingSettings) (proxyCapacity : Nat) (events : List LastRelayEvent) :
    let s := after settings proxyCapacity events
    let replies := repliesAfter settings proxyCapacity events
    s.Sized replies ∧ s.Accounted replies (batchesAfter settings proxyCapacity events) := by
  induction events using List.reverseRecOn with
  | nil => exact ⟨.start settings proxyCapacity, [], [], [], .start settings proxyCapacity⟩
  | append_singleton events e ih =>
    obtain ⟨hsized, haccounted⟩ := ih
    have hlast : (after settings proxyCapacity events).mixer.isLast = true := by
      obtain ⟨_, _, _, h⟩ := haccounted
      exact h.isLast
    unfold after repliesAfter batchesAfter
    rw [List.foldl_append, outputs_concat, outputs_concat]
    exact ⟨hsized.next hlast e, haccounted.next e⟩

theorem Queued.batches_perm (h : s.Queued log batches groups held behind) :
    batches.flatten.Perm (groups.flatten.map SizedReply.message) := by
  rw [List.map_flatten]
  refine List.Perm.flatten_congr ?_
  exact (List.forall₂_map_right_iff).2 (h.batches_eq.imp fun _ _ hone => hone.perm)

/-- Each batch is a part of a round of the sizing. -/
theorem Queued.uniform (h : s.Queued log batches groups held behind) (hsized : s.Sized log)
    {batch : List Message} (hbatch : batch ∈ batches) : UniformBatch batch := by
  obtain ⟨group, hgroup, hone⟩ : ∃ group ∈ groups, OneRound batch group := by
    obtain ⟨⟨i, hi⟩, rfl⟩ := List.mem_iff_get.1 hbatch
    exact ⟨_, List.get_mem groups _, h.batches_eq.get hi (h.batches_eq.length_eq ▸ hi)⟩
  obtain ⟨n, hn⟩ := hone.round
  have hwhole : group.filter (fun r => r.round = n) = group :=
    List.filter_eq_self.2 fun r hr => decide_eq_true (hn r hr)
  have hsub : group.Sublist log := by
    rw [h.log_eq, List.append_assoc]
    exact (List.sublist_flatten_of_mem hgroup).trans (List.sublist_append_left _ _)
  exact ((hsized.uniform n).sublist (hwhole ▸ hsub.filter _)).batch hone.perm

/-- The mixer takes all that waits, and gives up waiting for more. -/
def drain (shuffle : Shuffle) (s : LastRelay) : List LastRelayEvent :=
  List.replicate s.waiting.length (.take shuffle) ++ [.timeout shuffle]

theorem waiting_take (s : LastRelay) (shuffle : Shuffle) :
    (s.next (.take shuffle)).waiting = s.waiting.tail := by
  cases hwaiting : s.waiting with
  | nil => simp only [next, take, hwaiting, List.tail_nil]
  | cons m rest => simp only [next, take, hwaiting, mix, List.tail_cons]

theorem waiting_takes (s : LastRelay) (shuffle : Shuffle) (n : Nat) :
    ((List.replicate n (LastRelayEvent.take shuffle)).foldl next s).waiting = s.waiting.drop n := by
  induction n generalizing s with
  | zero => rfl
  | succ n ih => rw [List.replicate_succ, List.foldl_cons, ih, waiting_take, List.drop_tail]

theorem drained (s : LastRelay) (shuffle : Shuffle) :
    ((s.drain shuffle).foldl next s).waiting = [] ∧
      ((s.drain shuffle).foldl next s).mixer.batch = [] := by
  rw [drain, List.foldl_append]
  refine ⟨(waiting_takes s shuffle _).trans List.drop_length, ?_⟩
  exact (ReplyMixer.flushUnlessEmpty_of_isLast shuffle.order _).1

theorem enqueued_drain (s t : LastRelay) (shuffle : Shuffle) :
    outputs next enqueued t (s.drain shuffle) = [] := by
  refine outputs_eq_nil (fun u e he => ?_) t
  rcases List.mem_append.1 he with he | he
  · rw [List.eq_of_mem_replicate he]
    rfl
  · rw [List.mem_singleton.1 he]
    rfl

/-- Whatever the threads do and in whichever order they come, each batch of replies goes to different
channels with payloads of one length, and belongs to one round of the sizing. The batches, what the mixer
holds and what waits for it are all the replies that the sizing has put into the queue, each of them once,
round after round; and once the mixer has taken what waits and given up waiting for more, the batches are
all of them. A poll that is left alone puts into the queue what it gives at once. -/
theorem reply_batches_uniform (settings : SizingSettings) (proxyCapacity : Nat)
    (events : List LastRelayEvent) :
    let s := after settings proxyCapacity events
    let replies := repliesAfter settings proxyCapacity events
    let batches := batchesAfter settings proxyCapacity events
    (∀ batch ∈ batches, UniformBatch batch) ∧
      (∀ n, UniformReplies (replies.filter fun r => r.round = n)) ∧
      (replies.map SizedReply.round).Pairwise (· ≤ ·) ∧
      (∃ groups held waiting, List.Forall₂ OneRound batches groups ∧
        replies = groups.flatten ++ held ++ waiting ∧
        held.map SizedReply.message = s.mixer.batch ∧
        waiting.map SizedReply.message = s.waiting.filter Message.isReply) ∧
      (∀ shuffle, (batchesAfter settings proxyCapacity (events ++ s.drain shuffle)).flatten.Perm
        (replies.map SizedReply.message)) ∧
      (s.stage = .resting → ∀ elapsed, ∃ t, Reaches elapsed (s.size elapsed) t ∧
        s.Ends t (s.sizer.poll? s.channels.registry elapsed)) := by
  intro s replies batches
  obtain ⟨hsized, groups, held, behind, h⟩ := run_sound settings proxyCapacity events
  refine ⟨fun batch hbatch => h.uniform hsized hbatch, hsized.uniform, hsized.ascending,
    ⟨groups, held, behind.filterMap QueueEntry.reply?, h.batches_eq, h.log_eq, h.batch_eq, ?_⟩, ?_,
    fun hresting elapsed => reaches_poll? hsized.ids hresting elapsed⟩
  · rw [QueueEntry.replies_messages, h.waiting_eq]
  · intro shuffle
    obtain ⟨-, groups', held', behind', h'⟩ :=
      run_sound settings proxyCapacity (events ++ s.drain shuffle)
    have hrun : after settings proxyCapacity (events ++ s.drain shuffle) =
        (s.drain shuffle).foldl next s := List.foldl_append ..
    obtain ⟨hwaiting, hbatch⟩ := s.drained shuffle
    rw [← hrun] at hwaiting hbatch
    have hall := h'.log_eq
    have hheld : held' = [] := List.map_eq_nil_iff.1 (h'.batch_eq.trans hbatch)
    have hbehind : behind' = [] := List.map_eq_nil_iff.1 (h'.waiting_eq.trans hwaiting)
    have hreplies : repliesAfter settings proxyCapacity (events ++ s.drain shuffle) = replies := by
      rw [repliesAfter, outputs_append, enqueued_drain, List.append_nil]
      rfl
    rw [hheld, hbehind, hreplies, List.filterMap_nil, List.append_nil, List.append_nil] at hall
    rw [hall]
    exact h'.batches_perm

end LastRelay
end MixRelay
