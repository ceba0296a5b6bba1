import MixRelay.OutboundEdge
import MixRelay.ReplyMixing
import MixRelay.Proofs.FrameStreams
import MixRelay.Proofs.Runs
import Mathlib.Data.List.Basic

/-!
# Reply slots and the replies behind them

The receiver claims the slot of a channel before it reads the payload of its reply, and the slot is
freed when a reply round closes. A claimed slot has a reply behind it as long as no connection ends
within the payload of a reply that is to be taken: then the slot is claimed for a reply that never
comes, and the channel's next reply is passed over.
-/
namespace MixRelay

/-- The reply side of a relay that is not the last: the edge to the next relay, the registry, the
replies that wait for the mixer, and the mixer. -/
structure ReplyPath where
  edge : OutboundEdge
  registry : ChannelRegistry
  waiting : List Message
  mixer : ReplyMixer

/-- Bytes come in and end, the receiver and the mixer act, requests are sent, and channels join, are
established, claim and are freed for their requests, and leave. A reply round may also close while a
payload is read; for the slots that is a round that closes right after. -/
inductive ReplyPathEvent
  | arrive (bytes : Bytes)
  | finish
  | receive
  | take
  | timeout
  | reopen
  | request (message : Message)
  | send
  | join (id : ChannelId)
  | establish (id : ChannelId)
  | claimRequest (id : ChannelId)
  | closeRequests
  | leave (id : ChannelId)

namespace ReplyPath

def start (maxFrameLength : Nat) (key : EdgeKey) (draws : Draws) (proxyCapacity : Nat) : ReplyPath :=
  ⟨.start maxFrameLength key draws, .empty proxyCapacity, [], .start false⟩

def receive (s : ReplyPath) : ReplyPath :=
  match s.edge.receiveNext? s.registry with
  | none => s
  | some (handedOn, e, r) => { s with edge := e, registry := r, waiting := s.waiting ++ handedOn }

def mix (shuffle : List Message → List Message) (s : ReplyPath) (rest : List Message)
    (e : MixerEvent) : ReplyPath :=
  let t := s.mixer.step shuffle s.registry.establishedChannels.length e
  { s with waiting := rest, mixer := t.mixer, registry := t.close s.registry }

def send (s : ReplyPath) : ReplyPath :=
  match s.edge.sendNext? with
  | none => s
  | some (_, e) => { s with edge := e }

def next (shuffle : List Message → List Message) (s : ReplyPath) : ReplyPathEvent → ReplyPath
  | .arrive bytes => { s with edge := s.edge.arrive bytes }
  | .finish => { s with edge := s.edge.finish }
  | .receive => s.receive
  | .take =>
    match s.waiting with
    | m :: rest => s.mix shuffle rest (.arrival m)
    | [] => s
  | .timeout => if s.waiting.isEmpty then s.mix shuffle [] .timeout else s
  | .reopen => { s with registry := s.registry.closeReplyRound }
  | .request m => { s with edge := { s.edge with requests := s.edge.requests ++ [m] } }
  | .send => s.send
  | .join id => { s with registry := s.registry.add id }
  | .establish id => { s with registry := s.registry.modify id Channel.establish }
  | .claimRequest id => { s with registry := s.registry.modify id fun c => c.claimRequest.2 }
  | .closeRequests => { s with registry := s.registry.closeRequestRound }
  | .leave id => { s with registry := s.registry.discard id }

/-- A reply of the channel waits for the mixer or is in its batch. -/
def Pending (s : ReplyPath) (id : ChannelId) : Prop :=
  ∃ payload, .reply id payload ∈ s.waiting ++ s.mixer.batch

/-- Every claimed slot has a reply behind it. -/
def Backed (s : ReplyPath) : Prop := ∀ c ∈ s.registry.channels, c.replyClaimed = true → s.Pending c.id

end ReplyPath

namespace OutboundState

/-- The input ends within the payload of a reply that the channel could take. -/
def CutsReply (maxFrameLength : Nat) (table : EdgeIdTable) (st : OutboundState) (ks : HeaderKeystream)
    (input : Bytes) (channel : Channel) : Prop :=
  channel.replyClaimed = false ∧ ∃ h, (Frame.readHead maxFrameLength ks input).answer = .ok h ∧
    h.kind = .reply ∧ st.channel? table h.field = some channel ∧
    (Frame.readHead maxFrameLength ks input).rest.length < h.remaining

/-- The registry once a channel's slot is claimed. -/
def claimed (st : OutboundState) (id : ChannelId) : ChannelRegistry :=
  st.registry.modify id fun c => c.claimReply.2

end OutboundState

namespace ReplyPath

/-- The state in which the receiver reads the next frame. -/
def receiver (s : ReplyPath) : OutboundState := ⟨s.registry, s.edge.metrics⟩

def keystream (s : ReplyPath) : HeaderKeystream :=
  (s.edge.receiver.forGeneration s.edge.connection.generation).keystream

/-- The connection ends within the payload of a reply that its channel could take. -/
structure Cuts (s : ReplyPath) (channel : Channel) : Prop where
  connected : s.edge.isConnected = true
  ended : s.edge.ended = true
  reply : s.receiver.CutsReply s.edge.maxFrameLength s.edge.table s.keystream s.edge.unread channel

/-- No reply is cut, unless another one of its channel is pending. -/
def Whole (s : ReplyPath) : ReplyPathEvent → Prop
  | .receive => ∀ channel, s.Cuts channel → s.Pending channel.id
  | _ => True

end ReplyPath

namespace OutboundState
variable {maxFrameLength : Nat} {table : EdgeIdTable} {st : OutboundState} {ks : HeaderKeystream}
  {input : Bytes} {channel : Channel}

theorem channel?_mem {edge : ChannelId} (h : st.channel? table edge = some channel) :
    channel ∈ st.registry.channels := by
  obtain ⟨id, -, hid⟩ := Option.bind_eq_some_iff.1 h
  exact ChannelRegistry.mem_of_find? hid

/-- Passing over a frame leaves the registry as it is, whether the frame is there or not. -/
theorem refuse_registry (st : OutboundState) (h : FrameHead) (input : Bytes) :
    (st.refuse h input).state.registry = st.registry ∧ (st.refuse h input).handedOn = [] := by
  unfold refuse Handled.skip
  split <;> exact ⟨rfl, rfl⟩

/-- A frame whose head is read is dealt with in one of three ways. -/
theorem handle_cases (st : OutboundState) (table : EdgeIdTable) (h : FrameHead) (rest : Bytes) :
    (st.handle table h rest = st.refuse h rest ∧ ∀ channel, h.kind = .reply →
        st.channel? table h.field = some channel → channel.replyClaimed = true) ∨
      ∃ channel, h.kind = .reply ∧ st.channel? table h.field = some channel ∧
        channel.replyClaimed = false ∧ st.handle table h rest = st.takeReply channel.id h rest := by
  unfold handle
  by_cases hk : h.kind = .reply
  · rw [if_pos hk]
    cases hc : st.channel? table h.field with
    | none =>
      refine .inl ⟨rfl, fun channel _ hsome => ?_⟩
      cases hsome
    | some channel =>
      cases hfree : channel.replyClaimed with
      | true =>
        refine .inl ⟨by simp [hfree], fun d _ hd => ?_⟩
        rwa [← Option.some.inj hd]
      | false => exact .inr ⟨channel, hk, rfl, hfree, by simp [hfree]⟩
  · rw [if_neg hk]
    exact .inl ⟨rfl, fun _ hreply => absurd hreply hk⟩

/-- A reply that is cut leaves its channel's slot claimed. -/
theorem receive_of_cutsReply (h : st.CutsReply maxFrameLength table ks input channel) :
    (st.receive maxFrameLength table ks input).failure = some (.transfer .shortRead) ∧
      (st.receive maxFrameLength table ks input).state.registry = st.claimed channel.id ∧
      (st.receive maxFrameLength table ks input).handedOn = [] := by
  obtain ⟨hfree, head, hhead, hkind, hchannel, hshort⟩ := h
  have hhandle : st.handle table head (Frame.readHead maxFrameLength ks input).rest =
      st.takeReply channel.id head (Frame.readHead maxFrameLength ks input).rest := by
    rcases handle_cases st table head _ with ⟨-, hclaimed⟩ | ⟨d, -, hd, -, heq⟩
    · rw [hclaimed channel hkind hchannel] at hfree
      cases hfree
    · obtain rfl := Option.some.inj (hchannel.symm.trans hd)
      exact heq
  rw [receive, receiveFrame_of_ok hhead, hhandle, takeReply, Handled.take_of_short hshort]
  exact ⟨rfl, rfl, rfl⟩

/-- Any other frame leaves the slots as they are, unless its reply is handed on. -/
theorem receive_of_not_cutsReply (h : ∀ c, ¬ st.CutsReply maxFrameLength table ks input c) :
    ((st.receive maxFrameLength table ks input).state.registry = st.registry ∧
        (st.receive maxFrameLength table ks input).handedOn = []) ∨
      ∃ channel payload, channel ∈ st.registry.channels ∧
        (st.receive maxFrameLength table ks input).failure = none ∧
        (st.receive maxFrameLength table ks input).state.registry = st.claimed channel.id ∧
        (st.receive maxFrameLength table ks input).handedOn = [.reply channel.id payload] := by
  cases hhead : (Frame.readHead maxFrameLength ks input).answer with
  | error e =>
    rw [receive, receiveFrame_of_error hhead]
    exact .inl ⟨rfl, rfl⟩
  | ok head =>
    rw [receive, receiveFrame_of_ok hhead]
    rcases handle_cases st table head (Frame.readHead maxFrameLength ks input).rest with
      ⟨hrefuse, -⟩ | ⟨channel, hkind, hchannel, hfree, htake⟩
    · rw [hrefuse]
      exact .inl (refuse_registry st head _)
    · have hlong : head.remaining ≤ (Frame.readHead maxFrameLength ks input).rest.length :=
        Nat.le_of_not_lt fun hshort => h channel ⟨hfree, head, hhead, hkind, hchannel, hshort⟩
      rw [htake, takeReply, Handled.take_of_long hlong]
      exact .inr ⟨channel, _, channel?_mem hchannel, rfl, rfl, rfl⟩

theorem claimed_ne (hc : channel ∈ st.registry.channels) (hfree : channel.replyClaimed = false) :
    st.claimed channel.id ≠ st.registry := by
  intro heq
  have hclaimed : ∀ d ∈ (st.claimed channel.id).channels, d.id = channel.id → d.replyClaimed = true := by
    intro d hd hid
    obtain ⟨e, -, rfl⟩ := List.mem_map.1 hd
    by_cases he : e.id = channel.id
    · rw [if_pos he]
      rfl
    · rw [if_neg he] at hid
      exact absurd hid he
  rw [heq] at hclaimed
  rw [hclaimed channel hc rfl] at hfree
  cases hfree

/-- A failure leaves the slots as they were exactly if it cuts no reply. -/
theorem registry_of_failure (hf : (st.receive maxFrameLength table ks input).failure ≠ none) :
    (st.receive maxFrameLength table ks input).state.registry = st.registry ↔
      ∀ c, ¬ st.CutsReply maxFrameLength table ks input c := by
  constructor
  · intro hsame c hcut
    obtain ⟨-, hregistry, -⟩ := receive_of_cutsReply hcut
    obtain ⟨hfree, head, -, -, hchannel, -⟩ := hcut
    exact claimed_ne (channel?_mem hchannel) hfree (hregistry.symm.trans hsame)
  · intro hnone
    rcases receive_of_not_cutsReply hnone with ⟨hsame, -⟩ | ⟨channel, payload, -, hok, -⟩
    · exact hsame
    · exact absurd hok hf

end OutboundState

namespace ReplyPath
variable {shuffle : List Message → List Message} {s : ReplyPath} {channel : Channel}
  {r : ChannelRegistry}

theorem receive_mixer : s.receive.mixer = s.mixer := by
  unfold receive
  split <;> rfl

/-- What receiving the next frame comes to. -/
def reception (s : ReplyPath) : Reception OutboundState :=
  s.receiver.receive s.edge.maxFrameLength s.edge.table s.keystream s.edge.unread

/-- The edge behind the next frame. -/
def passed (s : ReplyPath) : OutboundEdge :=
  { s.edge with
    receiver := ⟨s.reception.keystream, s.edge.connection.generation⟩
    metrics := s.reception.state.metrics
    unread := s.reception.rest }

theorem receiveNext?_eq (hc : s.edge.isConnected = true) :
    s.edge.receiveNext? s.registry =
      if s.edge.unread.isEmpty && !s.edge.ended then none
      else if s.reception.awaitsMore s.edge.ended then none
      else some (s.reception.handedOn, if s.reception.failure.isSome then
        s.passed.recover s.edge.connection.generation else s.passed, s.reception.state.registry) := by
  have hreception : s.reception = OutboundState.receive s.edge.maxFrameLength s.edge.table
      ⟨s.registry, s.edge.metrics⟩ (s.edge.receiver.forGeneration s.edge.connection.generation).keystream
      s.edge.unread := rfl
  unfold OutboundEdge.receiveNext? passed
  dsimp only
  rw [hc, ← hreception, EdgeCipher.generation_forGeneration, Bool.not_true, Bool.false_or]

/-- The receiver waits, or it gets what a frame comes to, and not before the frame is complete or
the connection has ended. -/
theorem receiveNext?_cases (s : ReplyPath) :
    let got := s.receiver.receive s.edge.maxFrameLength s.edge.table s.keystream s.edge.unread
    (s.edge.receiveNext? s.registry = none ∧ ¬ (s.edge.isConnected = true ∧ s.edge.ended = true)) ∨
      (s.edge.isConnected = true ∧ got.awaitsMore s.edge.ended = false ∧
        ∃ e, s.edge.receiveNext? s.registry = some (got.handedOn, e, got.state.registry)) := by
  intro got
  cases hc : s.edge.isConnected with
  | false =>
    refine .inl ⟨?_, nofun⟩
    unfold OutboundEdge.receiveNext?
    rw [hc]
    rfl
  | true =>
    rw [receiveNext?_eq hc]
    split
    · rename_i hidle
      refine .inl ⟨rfl, fun ⟨_, he⟩ => ?_⟩
      simp [he] at hidle
    · split
      · rename_i hawaits
        refine .inl ⟨rfl, fun ⟨_, he⟩ => ?_⟩
        rw [he, Reception.awaitsMore] at hawaits
        split at hawaits <;> cases hawaits
      · rename_i hready
        exact .inr ⟨rfl, Bool.eq_false_iff.2 hready, _, rfl⟩

theorem receive_some {handedOn : List Message} {e : OutboundEdge}
    (h : s.edge.receiveNext? s.registry = some (handedOn, e, r)) :
    s.receive = { s with edge := e, registry := r, waiting := s.waiting ++ handedOn } := by
  simp only [receive, h]

theorem receive_of_cuts (h : s.Cuts channel) :
    s.receive.registry = s.receiver.claimed channel.id ∧ s.receive.waiting = s.waiting := by
  obtain ⟨-, hregistry, hhanded⟩ := OutboundState.receive_of_cutsReply h.reply
  rcases receiveNext?_cases s with ⟨-, hopen⟩ | ⟨-, -, e, hsome⟩
  · exact absurd ⟨h.connected, h.ended⟩ hopen
  · rw [receive_some hsome]
    exact ⟨hregistry, by rw [hhanded, List.append_nil]⟩

theorem receive_of_not_cuts (h : ∀ channel, ¬ s.Cuts channel) :
    (s.receive.registry = s.registry ∧ s.receive.waiting = s.waiting) ∨
      ∃ (channel : Channel) (payload : Bytes), s.receive.registry = s.receiver.claimed channel.id ∧
        s.receive.waiting = s.waiting ++ [.reply channel.id payload] := by
  rcases receiveNext?_cases s with ⟨hnone, -⟩ | ⟨hc, hready, e, hsome⟩
  · rw [receive, hnone]
    exact .inl ⟨rfl, rfl⟩
  · have hnot (d : Channel) : ¬ s.receiver.CutsReply s.edge.maxFrameLength s.edge.table s.keystream
        s.edge.unread d := by
      intro hcut
      obtain ⟨hfailure, -, -⟩ := OutboundState.receive_of_cutsReply hcut
      have he : s.edge.ended = true := by simpa [Reception.awaitsMore, hfailure] using hready
      exact h d ⟨hc, he, hcut⟩
    rw [receive_some hsome]
    rcases OutboundState.receive_of_not_cutsReply hnot with
      ⟨hsame, hhanded⟩ | ⟨d, payload, -, -, hregistry, hhanded⟩
    · exact .inl ⟨hsame, by rw [hhanded, List.append_nil]⟩
    · exact .inr ⟨d, payload, hregistry, by rw [hhanded]⟩

theorem Pending.waiting_append {id : ChannelId} (h : s.Pending id) (more : List Message) :
    ∃ payload, .reply id payload ∈ (s.waiting ++ more) ++ s.mixer.batch := by
  obtain ⟨payload, hp⟩ := h
  refine ⟨payload, ?_⟩
  rcases List.mem_append.1 hp with hp | hp
  · exact List.mem_append_left _ (List.mem_append_left _ hp)
  · exact List.mem_append_right _ hp

/-- Claiming a slot with a reply behind it keeps all slots backed. -/
theorem Backed.claim (h : Backed s) {t : ReplyPath} {id : ChannelId}
    (hr : t.registry = s.receiver.claimed id) (hp : ∀ d, s.Pending d → t.Pending d)
    (hid : t.Pending id) : Backed t := by
  intro c hc hclaimed
  rw [hr] at hc
  obtain ⟨d, hd, rfl⟩ := List.mem_map.1 hc
  by_cases hdid : d.id = id
  · rw [if_pos hdid]
    exact hdid ▸ hid
  · rw [if_neg hdid] at hclaimed ⊢
    exact hp d.id (h d hd hclaimed)

/-- Slots and replies that are as before leave all slots backed. -/
theorem Backed.frame (h : Backed s) {t : ReplyPath} (hp : ∀ d, s.Pending d → t.Pending d)
    (hr : ∀ c ∈ t.registry.channels, c.replyClaimed = true →
      ∃ d ∈ s.registry.channels, d.id = c.id ∧ d.replyClaimed = true) : Backed t := by
  intro c hc hclaimed
  obtain ⟨d, hd, hid, hdc⟩ := hr c hc hclaimed
  exact hp c.id (hid ▸ h d hd hdc)

/-- Nothing is claimed once a reply round has closed. -/
theorem backed_of_closed (h : s.registry = r.closeReplyRound) : Backed s := by
  intro c hc hclaimed
  rw [h] at hc
  obtain ⟨d, -, rfl⟩ := List.mem_map.1 hc
  cases hclaimed

theorem Backed.receive_iff (h : Backed s) : Backed s.receive ↔ s.Whole .receive := by
  have hmixer := receive_mixer (s := s)
  constructor
  · intro hb channel hcut
    obtain ⟨hregistry, hwaiting⟩ := receive_of_cuts hcut
    obtain ⟨hfree, head, -, -, hchannel, -⟩ := hcut.reply
    have hmem := OutboundState.channel?_mem hchannel
    have hback := hb (channel.claimReply.2)
      (by rw [hregistry]; exact List.mem_map.2 ⟨channel, hmem, if_pos rfl⟩) rfl
    rwa [Pending, hwaiting, hmixer] at hback
  · intro hw
    by_cases hcut : ∃ channel, s.Cuts channel
    · obtain ⟨channel, hcut⟩ := hcut
      obtain ⟨hregistry, hwaiting⟩ := receive_of_cuts hcut
      have hp (d : ChannelId) (hd : s.Pending d) : s.receive.Pending d := by
        rwa [Pending, hwaiting, hmixer]
      exact h.claim hregistry hp (hp _ (hw channel hcut))
    · rcases receive_of_not_cuts (not_exists.1 hcut) with
        ⟨hsame, hwaiting⟩ | ⟨channel, payload, hregistry, hwaiting⟩
      · refine h.frame (fun d hd => by rwa [Pending, hwaiting, hmixer]) fun c hc hclaimed => ?_
        exact ⟨c, hsame ▸ hc, rfl, hclaimed⟩
      · refine h.claim hregistry (fun d hd => ?_) ⟨payload, ?_⟩
        · rw [Pending, hwaiting, hmixer]
          exact hd.waiting_append _
        · rw [hwaiting]
          simp

end ReplyPath

namespace ReplyMixer
variable {shuffle : List Message → List Message} {m : ReplyMixer} {established : Nat}

theorem isLast_step (m : ReplyMixer) (e : MixerEvent) :
    (m.step shuffle established e).mixer.isLast = m.isLast := by
  have hflush : (m.flushUnlessEmpty shuffle).mixer.isLast = m.isLast := by
    unfold flushUnlessEmpty
    split <;> rfl
  cases e with
  | timeout => exact hflush
  | arrival d =>
    cases d with
    | establish | message | release => rfl
    | batchSize n =>
      simp only [step]
      split
      · exact hflush
      · rfl
    | reply c p =>
      simp only [step, collect]
      split <;> rfl

/-- Before the last relay, a step that closes no round keeps every reply. -/
theorem mem_batch_step (hlast : m.isLast = false) {e : MixerEvent}
    (hopen : (m.step shuffle established e).closesRound = false) {id : ChannelId} {payload : Bytes}
    (h : .reply id payload ∈ m.batch ∨ e = .arrival (.reply id payload)) :
    .reply id payload ∈ (m.step shuffle established e).mixer.batch := by
  have hflush (d : ReplyMixer) (hd : d.isLast = false) : (d.flush shuffle).closesRound = true := by
    simp [flush, hd]
  have hkeep (hno : e ≠ .arrival (.reply id payload)) : .reply id payload ∈ m.batch :=
    h.resolve_right hno
  cases e with
  | timeout =>
    simp only [step, flushUnlessEmpty] at hopen ⊢
    split at hopen
    · rename_i hempty
      rw [if_pos hempty]
      exact hkeep (by simp)
    · rw [hflush m hlast] at hopen
      cases hopen
  | arrival d =>
    cases d with
    | reply c p =>
      simp only [step, collect] at hopen ⊢
      split at hopen
      · rw [hflush { m with batch := m.batch ++ [.reply c p] } hlast] at hopen
        cases hopen
      · rename_i hshort
        rw [if_neg hshort]
        refine List.mem_append.2 (h.imp_right fun heq => ?_)
        simpa using heq.symm
    | batchSize n =>
      simp only [step, hlast]
      exact hkeep (by simp)
    | establish | message | release => exact hkeep (by simp)

end ReplyMixer

namespace ReplyPath
variable {shuffle : List Message → List Message} {s : ReplyPath}

/-- The mixer takes over the replies that waited for it, or frees all slots. -/
theorem Backed.mix (h : Backed s) (hlast : s.mixer.isLast = false) {rest : List Message}
    {e : MixerEvent} (hrest : ∀ id payload, .reply id payload ∈ s.waiting →
      .reply id payload ∈ rest ∨ e = .arrival (.reply id payload)) :
    Backed (s.mix shuffle rest e) := by
  let t := s.mixer.step shuffle s.registry.establishedChannels.length e
  cases hclose : t.closesRound with
  | true => exact backed_of_closed (if_pos hclose)
  | false =>
    have hregistry : (s.mix shuffle rest e).registry = s.registry := if_neg (by simp [t, hclose])
    refine h.frame ?_ fun c hc hclaimed => ⟨c, hregistry ▸ hc, rfl, hclaimed⟩
    rintro d ⟨payload, hp⟩
    refine ⟨payload, List.mem_append.2 ?_⟩
    rcases List.mem_append.1 hp with hp | hp
    · exact (hrest d payload hp).imp_right fun he => ReplyMixer.mem_batch_step hlast hclose (.inr he)
    · exact .inr (ReplyMixer.mem_batch_step hlast hclose (.inl hp))

theorem send_frame : s.send.registry = s.registry ∧ s.send.waiting = s.waiting ∧
    s.send.mixer = s.mixer := by
  unfold send
  split <;> exact ⟨rfl, rfl, rfl⟩

/-- A change that claims no reply slot. -/
theorem Backed.registry (h : Backed s) {r : ChannelRegistry}
    (hr : ∀ c ∈ r.channels, c.replyClaimed = true →
      ∃ d ∈ s.registry.channels, d.id = c.id ∧ d.replyClaimed = true) :
    Backed { s with registry := r } :=
  h.frame (fun _ hd => hd) hr

theorem Backed.modify (h : Backed s) (id : ChannelId) {f : Channel → Channel}
    (hf : ∀ c, (f c).id = c.id ∧ (f c).replyClaimed = c.replyClaimed) :
    Backed { s with registry := s.registry.modify id f } := by
  refine h.registry fun c hc hclaimed => ?_
  obtain ⟨d, hd, rfl⟩ := List.mem_map.1 hc
  refine ⟨d, hd, ?_⟩
  split at hclaimed
  · rw [if_pos ‹_›]
    exact ⟨(hf d).1.symm, (hf d).2 ▸ hclaimed⟩
  · rw [if_neg ‹_›]
    exact ⟨rfl, hclaimed⟩

theorem Backed.next_iff (h : Backed s) (hlast : s.mixer.isLast = false) (e : ReplyPathEvent) :
    Backed (s.next shuffle e) ↔ s.Whole e := by
  cases e with
  | receive => exact h.receive_iff
  | arrive | finish | request => exact iff_of_true h trivial
  | send =>
    obtain ⟨hregistry, hwaiting, hmixer⟩ := send_frame (s := s)
    refine iff_of_true (h.frame (fun d hd => ?_) fun c hc hclaimed => ?_) trivial
    · rwa [Pending, next, hwaiting, hmixer]
    · exact ⟨c, hregistry ▸ hc, rfl, hclaimed⟩
  | take =>
    refine iff_of_true ?_ trivial
    rw [next]
    split
    · rename_i m rest hw
      refine h.mix hlast fun id payload hp => ?_
      rw [hw] at hp
      exact (List.mem_cons.1 hp).symm.imp_right fun heq => congrArg _ heq.symm
    · exact h
  | timeout =>
    refine iff_of_true ?_ trivial
    rw [next]
    split
    · rename_i hw
      refine h.mix hlast fun id payload hp => ?_
      rw [List.isEmpty_iff.1 hw] at hp
      cases hp
    · exact h
  | reopen => exact iff_of_true (backed_of_closed rfl) trivial
  | join id =>
    refine iff_of_true (h.registry fun c hc hclaimed => ?_) trivial
    rcases List.mem_append.1 hc with hc | hc
    · exact ⟨c, hc, rfl, hclaimed⟩
    · rw [List.mem_singleton.1 hc] at hclaimed
      cases hclaimed
  | establish id => exact iff_of_true (h.modify id fun _ => ⟨rfl, rfl⟩) trivial
  | claimRequest id => exact iff_of_true (h.modify id fun _ => ⟨rfl, rfl⟩) trivial
  | closeRequests =>
    refine iff_of_true (h.registry fun c hc hclaimed => ?_) trivial
    obtain ⟨d, hd, rfl⟩ := List.mem_map.1 hc
    exact ⟨d, hd, rfl, hclaimed⟩
  | leave id =>
    refine iff_of_true (h.registry fun c hc hclaimed => ?_) trivial
    exact ⟨c, List.mem_of_mem_filter hc, rfl, hclaimed⟩

theorem isLast_next (e : ReplyPathEvent) : (s.next shuffle e).mixer.isLast = s.mixer.isLast := by
  cases e with
  | receive => rw [next, receive_mixer]
  | send => rw [next, send_frame.2.2]
  | take =>
    rw [next]
    split
    · exact s.mixer.isLast_step _
    · rfl
  | timeout =>
    rw [next]
    split
    · exact s.mixer.isLast_step _
    · rfl
  | _ => rfl

theorem along_whole_iff (h : Backed s) (hlast : s.mixer.isLast = false)
    (events : List ReplyPathEvent) :
    (∀ front rest, events = front ++ rest → Backed (front.foldl (next shuffle) s)) ↔
      Along (next shuffle) Whole s events := by
  induction events generalizing s with
  | nil =>
    refine iff_of_true (fun front rest he => ?_) trivial
    obtain ⟨rfl, -⟩ := List.append_eq_nil_iff.1 he.symm
    exact h
  | cons e events ih =>
    have hstep : Backed (s.next shuffle e) ↔ s.Whole e := h.next_iff hlast e
    have hlast' : (s.next shuffle e).mixer.isLast = false := (isLast_next e).trans hlast
    constructor
    · intro hall
      have hb := hall [e] events rfl
      exact ⟨hstep.1 hb, (ih hb hlast').1 fun front rest he => hall (e :: front) rest (by rw [he]; rfl)⟩
    · rintro ⟨hw, ha⟩ front rest he
      cases front with
      | nil => exact h
      | cons d front =>
        obtain ⟨rfl, hrest⟩ := List.cons.inj he
        exact (ih (hstep.2 hw) hlast').2 ha front rest hrest

/-- Along a run every claimed slot has a reply behind it exactly if no connection ends within the
payload of a reply whose slot is free and that no other one is pending for. Each failure leaves the
slots as they were but for such a cut. -/
theorem slots_backed_iff (shuffle : List Message → List Message) (maxFrameLength : Nat)
    (key : EdgeKey) (draws : Draws) (proxyCapacity : Nat) (events : List ReplyPathEvent) :
    let s₀ := start maxFrameLength key draws proxyCapacity
    ((∀ front rest, events = front ++ rest → Backed (front.foldl (next shuffle) s₀)) ↔
        Along (next shuffle) Whole s₀ events) ∧
      ∀ (st : OutboundState) table ks input,
        (st.receive maxFrameLength table ks input).failure ≠ none →
          ((st.receive maxFrameLength table ks input).state.registry = st.registry ↔
            ∀ c, ¬ st.CutsReply maxFrameLength table ks input c) := by
  refine ⟨along_whole_iff (fun c hc => ?_) rfl events, fun st table ks input hf => ?_⟩
  · cases hc
  · exact OutboundState.registry_of_failure hf

/-- A channel is established, and then some bytes arrive and the connection ends. -/
def endingEvents (bytes : Bytes) : List ReplyPathEvent :=
  [.join 1, .request (.establish 1 [7]), .send, .arrive bytes, .finish]

def ending (bytes : Bytes) : ReplyPath :=
  (endingEvents bytes).foldl (next id) (start 64 ⟨.zero, .zero⟩ (.ofList [5]) 16)

theorem ending_reads (bytes : Bytes) : (ending bytes).edge.maxFrameLength = 64 ∧
    (ending bytes).keystream = .start ⟨.zero, .zero⟩ .replies ∧ (ending bytes).edge.unread = bytes :=
  ⟨rfl, rfl, rfl⟩

theorem ending_backed (bytes : Bytes) : Backed (ending bytes) := by
  intro c hc hclaimed
  obtain rfl : c = Channel.new 1 16 := List.mem_singleton.1 hc
  cases hclaimed

/-- The first twenty bytes of a reply are enough to claim a slot that no reply will come for. -/
theorem cut_reply_orphans_slot :
    let s := ending (Frame.head (.start ⟨.zero, .zero⟩ .replies) (.ofChannel .reply 5) (.replicate 12 0))
    Backed s ∧ ¬ Backed (s.next id .receive) := by
  intro s
  have hread := @Frame.readHead_head 64 (.start ⟨.zero, .zero⟩ .replies) .reply 5 (.replicate 12 0)
    (by decide) (by decide) []
  rw [List.append_nil] at hread
  have hcut : s.Cuts (Channel.new 1 16) := by
    refine ⟨rfl, rfl, rfl, ?_⟩
    obtain ⟨hmax, hks, hunread⟩ := ending_reads
      (Frame.head (.start ⟨.zero, .zero⟩ .replies) (.ofChannel .reply 5) (.replicate 12 0))
    rw [hmax, hks, hunread]
    refine ⟨_, congrArg ReadResult.answer hread, rfl, rfl, ?_⟩
    refine Nat.lt_of_le_of_lt (Nat.le_of_eq (congrArg (List.length ∘ ReadResult.rest) hread)) ?_
    decide
  have hbacked : Backed s := ending_backed _
  refine ⟨hbacked, fun h => ?_⟩
  obtain ⟨payload, hp⟩ := (hbacked.next_iff rfl .receive).1 h _ hcut
  cases hp

end ReplyPath
end MixRelay
