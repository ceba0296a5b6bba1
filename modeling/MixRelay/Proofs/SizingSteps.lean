import MixRelay.MessageOrder
import MixRelay.Proofs.ChannelsInHand
import MixRelay.Proofs.SizingRounds
import Mathlib.Logic.Relation

/-!
# The reply side of the last relay, step by step

The sizing is not alone with the channels. While it samples them, cuts their replies and puts these into
the queue one by one, channels join, leave, and take in data, and the mixer takes from the queue or gives
up waiting. A channel that leaves stays in the hands of the poll that has taken it up. A full queue keeps
the sizing waiting, so it does not act.
-/
namespace MixRelay

/-- A round whose replies are being cut: why it ends, their size, and how many are in the queue. -/
structure RoundUnderway where
  trigger : FlushTrigger
  size : Nat
  replies : Nat

/-- Where a poll stands: between two polls, reading volumes, taking the reply of the next channel out of
its buffer, putting it into the queue, or putting the marker there. Blocks of no bytes stop the sizing. -/
inductive SizingStage
  | resting
  | sampling (sampled left : List ChannelId) (volumes : List Nat)
  | cutting (round : RoundUnderway) (left : List ChannelId)
  | offering (channel : ChannelId) (payload : Bytes) (round : RoundUnderway) (left : List ChannelId)
  | marking (round : RoundUnderway)
  | stopped

/-- The channels that may still get a reply from this poll. -/
def SizingStage.due : SizingStage → List ChannelId
  | .sampling sampled left _ => sampled ++ left
  | .cutting _ left => left
  | .offering channel _ _ left => channel :: left
  | .resting | .marking _ | .stopped => []

/-- The sizing, the channels, the replies and markers that wait for the mixer, and the mixer. -/
structure LastRelay where
  sizer : ReplySizer
  stage : SizingStage
  channels : HeldChannels
  waiting : List Message
  mixer : ReplyMixer

/-- What others do with a channel: all but what concerns its reply slot. -/
inductive ChannelUse
  | establish
  | claimRequest
  | pushRequest (data : Bytes)
  | pushReply (data : Bytes)
  | drainRequests

/-- The sizing goes one step on, the mixer takes the next message or gives up waiting for one, channels
join and leave, are used by whoever has them in hand, and may send again. -/
inductive LastRelayEvent
  | size (elapsed : Bool)
  | take (shuffle : Shuffle)
  | timeout (shuffle : Shuffle)
  | join (id : ChannelId)
  | leave (id : ChannelId)
  | use (hold : Hold) (use : ChannelUse)
  | closeRequests

def ChannelUse.apply (c : Channel) : ChannelUse → Channel
  | .establish => c.establish
  | .claimRequest => c.claimRequest.2
  | .pushRequest data => (c.pushRequest data).2
  | .pushReply data => (c.pushReply data).2
  | .drainRequests => c.drainRequests.2

namespace LastRelay

def start (settings : SizingSettings) (proxyCapacity : Nat) : LastRelay :=
  ⟨.start settings, .resting, .ofRegistry (.empty proxyCapacity), [], .start true⟩

/-- Takes the established channels in hand, if there are any. -/
def beginPoll (s : LastRelay) : LastRelay :=
  let ids := s.channels.registry.establishedChannels.map Channel.id
  { s with
    sizer := { s.sizer with phase := .collecting }
    stage := if ids.isEmpty then .resting else .sampling [] ids []
    channels := ids.foldl HeldChannels.grasp s.channels }

/-- Reads the volume of the next channel. -/
def sample (s : LastRelay) (sampled : List ChannelId) (id : ChannelId) (left : List ChannelId)
    (volumes : List Nat) : LastRelay :=
  match s.channels.inHand id with
  | .ok (_, c) => { s with stage := .sampling (sampled ++ [id]) left (volumes ++ [c.buffered]) }
  | .error _ => { s with stage := .sampling sampled left volumes }

/-- Ends the poll, or decides the size of the round. -/
def decideRound (elapsed : Bool) (s : LastRelay) (sampled : List ChannelId) (volumes : List Nat) :
    LastRelay :=
  match s.sizer.trigger? volumes elapsed with
  | none => { s with stage := .resting }
  | some trigger =>
    match ReplySizer.decide? s.sizer.settings volumes with
    | none => { s with sizer := { s.sizer with phase := .deciding }, stage := .stopped }
    | some size =>
      { s with
        sizer := { s.sizer with phase := .flushing }
        stage := .cutting ⟨trigger, size, 0⟩ sampled }

/-- Takes the reply of the next channel, unless it has had one in the round. -/
def cut (s : LastRelay) (round : RoundUnderway) (id : ChannelId) (left : List ChannelId) : LastRelay :=
  match s.channels.inHand id with
  | .error _ => { s with stage := .cutting round left }
  | .ok (hold, c) =>
    if c.replyClaimed then { s with stage := .cutting round left }
    else
      let (chunk, valid, c) := c.claimReply.2.takeReply round.size
      { s with
        sizer := { s.sizer with metrics := s.sizer.metrics.countReply round.size valid }
        stage := .offering c.id (ReplyPayload.encode chunk valid) round left
        channels := s.channels.modify hold fun _ => c }

/-- Closes the reply round; the marker comes after that. -/
def closeRound (s : LastRelay) (round : RoundUnderway) : LastRelay :=
  { s with
    stage := .marking round
    channels := { s.channels with registry := s.channels.registry.closeReplyRound } }

def offer (s : LastRelay) (channel : ChannelId) (payload : Bytes) (round : RoundUnderway)
    (left : List ChannelId) : LastRelay :=
  { s with
    stage := .cutting { round with replies := round.replies + 1 } left
    waiting := s.waiting ++ [.reply channel payload] }

def mark (s : LastRelay) (round : RoundUnderway) : LastRelay :=
  { s with
    sizer := ⟨s.sizer.settings, .collecting, s.sizer.metrics.countRound round.trigger round.size⟩
    stage := .resting
    waiting := s.waiting ++ [.batchSize (UInt32.ofNat round.replies)] }

/-- One step of the sizing; `elapsed` tells whether the time of the round is over. -/
def size (elapsed : Bool) (s : LastRelay) : LastRelay :=
  match s.stage with
  | .resting => s.beginPoll
  | .sampling sampled [] volumes => s.decideRound elapsed sampled volumes
  | .sampling sampled (id :: left) volumes => s.sample sampled id left volumes
  | .cutting round [] => s.closeRound round
  | .cutting round (id :: left) => s.cut round id left
  | .offering channel payload round left => s.offer channel payload round left
  | .marking round => s.mark round
  | .stopped => s

/-- What the mixer does. -/
def mixed (shuffle : Shuffle) (s : LastRelay) (e : MixerEvent) : ReplyMixerStep :=
  s.mixer.step shuffle.order s.channels.registry.establishedChannels.length e

def mix (shuffle : Shuffle) (s : LastRelay) (rest : List Message) (e : MixerEvent) : LastRelay :=
  let t := s.mixed shuffle e
  { s with
    channels := { s.channels with registry := t.close s.channels.registry }
    waiting := rest
    mixer := t.mixer }

/-- The mixer takes the next message, if one waits. -/
def take (shuffle : Shuffle) (s : LastRelay) : LastRelay :=
  match s.waiting with
  | m :: rest => s.mix shuffle rest (.arrival m)
  | [] => s

def next (s : LastRelay) : LastRelayEvent → LastRelay
  | .size elapsed => s.size elapsed
  | .take shuffle => s.take shuffle
  | .timeout shuffle => s.mix shuffle s.waiting .timeout
  | .join id => { s with channels := s.channels.join id }
  | .leave id => { s with channels := s.channels.leave id }
  | .use hold use => { s with channels := s.channels.modify hold fun c => use.apply c }
  | .closeRequests =>
    { s with channels := { s.channels with registry := s.channels.registry.closeRequestRound } }

end LastRelay

theorem ChannelUse.apply_id (c : Channel) (use : ChannelUse) : (use.apply c).id = c.id := by
  cases use <;> rfl

namespace LastRelay
variable {s : LastRelay} {elapsed : Bool}

@[simp] theorem registry_beginPoll (s : LastRelay) :
    s.beginPoll.channels.registry = s.channels.registry :=
  HeldChannels.registry_graspAll _ _

theorem grasps_beginPoll {id : ChannelId}
    (hid : id ∈ s.channels.registry.establishedChannels.map Channel.id) :
    s.beginPoll.channels.Grasps id :=
  HeldChannels.grasps_graspAll _ hid

theorem stage_beginPoll (s : LastRelay) :
    s.beginPoll.stage = .resting ∨ s.beginPoll.stage =
      .sampling [] (s.channels.registry.establishedChannels.map Channel.id) [] := by
  simp only [beginPoll]
  split
  · exact .inl rfl
  · exact .inr rfl

/-- The sizing, left alone, comes from one state to another. -/
def Reaches (elapsed : Bool) : LastRelay → LastRelay → Prop :=
  Relation.ReflTransGen fun s t => s.size elapsed = t

/-- A poll of channels that are registered and in hand reads the volume of each. -/
theorem reaches_sampled {channels : List Channel}
    (hheld : ∀ c ∈ channels, s.channels.Grasps c.id ∧ s.channels.registry.find? c.id = some c)
    (sampled : List ChannelId) (volumes : List Nat) :
    Reaches elapsed { s with stage := .sampling sampled (channels.map Channel.id) volumes }
      { s with stage := .sampling (sampled ++ channels.map Channel.id) []
                (volumes ++ channels.map Channel.buffered) } := by
  induction channels generalizing sampled volumes with
  | nil =>
    simp only [List.map_nil, List.append_nil]
    exact .refl
  | cons c channels ih =>
    obtain ⟨hgrasp, hfind⟩ := hheld c List.mem_cons_self
    have hstep : size elapsed
          { s with stage := .sampling sampled ((c :: channels).map Channel.id) volumes } =
        { s with stage := .sampling (sampled ++ [c.id]) (channels.map Channel.id)
                  (volumes ++ [c.buffered]) } := by
      simp only [size, sample, List.map_cons, hgrasp.inHand_of_some hfind]
    have hrest := ih (fun d hd => hheld d (List.mem_cons_of_mem c hd)) (sampled ++ [c.id])
      (volumes ++ [c.buffered])
    rw [List.append_assoc, List.append_assoc] at hrest
    exact .head hstep hrest

/-- Some replies are in the queue, and some channels are left. -/
def during (s : LastRelay) (trigger : FlushTrigger) (size : Nat) (done : ReplyCut)
    (left : List ChannelId) : LastRelay :=
  { s with
    sizer := ⟨s.sizer.settings, .flushing, done.metrics⟩
    stage := .cutting ⟨trigger, size, done.replies.length⟩ left
    channels := { s.channels with registry := done.registry }
    waiting := s.waiting ++ done.replies }

theorem reaches_add (trigger : FlushTrigger) (size : Nat) (done : ReplyCut) {id : ChannelId}
    (hid : s.channels.Grasps id) (left : List ChannelId) :
    Reaches elapsed (s.during trigger size done (id :: left))
      (s.during trigger size (done.add size id) left) := by
  have hheld : HeldChannels.Grasps { s.channels with registry := done.registry } id := hid
  cases hc : done.registry.find? id with
  | none =>
    have hsame : done.add size id = done := by simp only [ReplyCut.add, hc]
    refine .single ?_
    simp only [hsame, LastRelay.size, during, cut, hheld.inHand_of_none hc]
  | some c =>
    have hhand := hheld.inHand_of_some hc
    cases hfree : c.replyClaimed with
    | true =>
      rw [ReplyCut.add_of_claimed hc hfree]
      refine .single ?_
      simp only [LastRelay.size, during, cut, hhand, hfree, if_pos]
    | false =>
      -- first the reply leaves the buffer, then it enters the queue
      have hcid := ChannelRegistry.find?_some_id hc
      rw [ReplyCut.add_of_free hc hfree]
      refine .head rfl (.single ?_)
      simp only [LastRelay.size, during, cut, hhand, hfree, offer, HeldChannels.modify]
      simp [ReplyCut.served, ReplyCut.payload, Channel.takeReply, ProxyBuffers.takeReply,
        Channel.claimReply, hcid]

theorem reaches_cut (trigger : FlushTrigger) (size : Nat) (done : ReplyCut) {ids : List ChannelId}
    (hids : ∀ id ∈ ids, s.channels.Grasps id) :
    Reaches elapsed (s.during trigger size done ids)
      (s.during trigger size (ids.foldl (ReplyCut.add size) done) []) := by
  induction ids generalizing done with
  | nil => exact .refl
  | cons id ids ih =>
    exact (reaches_add trigger size done (hids id List.mem_cons_self) ids).trans
      (ih _ fun other hother => hids other (List.mem_cons_of_mem id hother))

/-- Behind the last channel the round is closed and marked. -/
theorem reaches_marked (trigger : FlushTrigger) (size : Nat) (done : ReplyCut) :
    Reaches elapsed (s.during trigger size done [])
      { s with
        sizer := ⟨s.sizer.settings, .collecting, done.metrics.countRound trigger size⟩
        stage := .resting
        channels := { s.channels with registry := done.registry.closeReplyRound }
        waiting := s.waiting ++ (done.replies ++ [.batchSize (UInt32.ofNat done.replies.length)]) } := by
  refine .head rfl (.single ?_)
  simp only [LastRelay.size, during, closeRound, mark, List.append_assoc]

/-- A poll that began in the first state has ended in the second with an outcome; without one it has
stopped the sizing. -/
def Ends (s t : LastRelay) : Option (Option SizedRound × ReplySizer × ChannelRegistry) → Prop
  | none => t.stage = .stopped
  | some (round, sizer, registry) => t.stage = .resting ∧ t.sizer = sizer ∧
      t.channels.registry = registry ∧ t.waiting = s.waiting ++ ReplySizer.messages round ∧
      t.mixer = s.mixer

/-- What a poll comes to, once the channels are in hand. -/
theorem reaches_decided (hheld : ∀ c ∈ s.channels.registry.establishedChannels,
      s.channels.Grasps c.id ∧ s.channels.registry.find? c.id = some c) (elapsed : Bool) :
    ∃ t, Reaches elapsed { s with
          stage := .sampling [] (s.channels.registry.establishedChannels.map Channel.id) [] } t ∧
      s.Ends t (match s.sizer.trigger? s.channels.registry.volumes elapsed with
        | none => some (none, s.sizer, s.channels.registry)
        | some trigger => (ReplySizer.decide? s.sizer.settings s.channels.registry.volumes).map fun size =>
          let flushed := s.sizer.flush s.channels.registry trigger size
          (some flushed.1, flushed.2.1, flushed.2.2)) := by
  have hsampled := @reaches_sampled s elapsed _ hheld [] []
  rw [List.nil_append, List.nil_append, ← ChannelRegistry.volumes] at hsampled
  have hdecided := hsampled.tail (b := _) rfl
  cases htrigger : s.sizer.trigger? s.channels.registry.volumes elapsed with
  | none =>
    simp only [size, decideRound, htrigger] at hdecided
    exact ⟨_, hdecided, rfl, rfl, rfl, (List.append_nil _).symm, rfl⟩
  | some trigger =>
    cases hsize : ReplySizer.decide? s.sizer.settings s.channels.registry.volumes with
    | none =>
      simp only [size, decideRound, htrigger, hsize] at hdecided
      exact ⟨_, hdecided, rfl⟩
    | some n =>
      have hstart : size elapsed { s with
            stage := .sampling (s.channels.registry.establishedChannels.map Channel.id) []
              s.channels.registry.volumes } =
          s.during trigger n ⟨s.channels.registry, s.sizer.metrics, []⟩
            (s.channels.registry.establishedChannels.map Channel.id) := by
        simp only [size, decideRound, htrigger, hsize, during, List.length_nil, List.append_nil]
      have hids : ∀ id ∈ s.channels.registry.establishedChannels.map Channel.id,
          s.channels.Grasps id := by
        intro id hid
        obtain ⟨c, hc, rfl⟩ := List.mem_map.1 hid
        exact (hheld c hc).1
      have hcut := (hstart ▸ hdecided).trans (reaches_cut trigger n _ hids)
      exact ⟨_, hcut.trans (reaches_marked trigger n _), rfl, rfl, rfl, rfl, rfl⟩

/-- A poll that nothing comes between is the poll of the sizing at once. -/
theorem reaches_poll? (hids : s.channels.registry.ids.Nodup) (hstage : s.stage = .resting)
    (elapsed : Bool) :
    ∃ t, Reaches elapsed (s.size elapsed) t ∧
      s.Ends t (s.sizer.poll? s.channels.registry elapsed) := by
  have hbegin : s.size elapsed = s.beginPoll := by simp only [size, hstage]
  rw [hbegin, ReplySizer.poll?_eq, ReplySizer.ending?]
  by_cases hempty : s.channels.registry.establishedChannels = []
  · refine ⟨_, .refl, ?_⟩
    rw [if_pos (by rw [ChannelRegistry.volumes, hempty]; rfl)]
    exact ⟨by simp [beginPoll, hempty], rfl, s.registry_beginPoll, (List.append_nil _).symm, rfl⟩
  · have hheld : ∀ c ∈ s.beginPoll.channels.registry.establishedChannels,
        s.beginPoll.channels.Grasps c.id ∧ s.beginPoll.channels.registry.find? c.id = some c := by
      rw [registry_beginPoll]
      intro c hc
      exact ⟨grasps_beginPoll (List.mem_map_of_mem hc),
        ChannelRegistry.find?_of_mem hids (List.mem_filter.1 hc).1⟩
    have hsampling : { s.beginPoll with
          stage := .sampling [] (s.channels.registry.establishedChannels.map Channel.id) [] } =
        s.beginPoll := by
      simp [beginPoll, hempty]
    obtain ⟨t, hreach, hends⟩ := reaches_decided hheld elapsed
    rw [registry_beginPoll] at hreach hends
    rw [if_neg (by simp [ChannelRegistry.volumes, hempty])]
    exact ⟨t, hsampling ▸ hreach, hends⟩

end LastRelay
end MixRelay
