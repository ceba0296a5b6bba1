import MixRelay.Proofs.LaterRelayRounds
import MixRelay.Proofs.RequestRounds

/-!
# The rounds of the previous relay

The previous relay announces the size of each round in front of it. A mixer behind the first relay
takes that size over, so that its rounds are those of the previous relay, whatever size it was started
with: the last request of a round makes it full, and the next announcement always finds it empty.
-/
namespace MixRelay

/-- The frame as it is read, a short payload filled up with zeros. -/
def TypedFrame.asRead (f : TypedFrame) : TypedFrame := { f with payload := Frame.padded f.payload }

/-- A round on its way between two relays: a batch size, and as many requests behind it. -/
structure AnnouncedRound where
  announcement : TypedFrame
  requests : List TypedFrame
  announces : announcement.kind = .batchSize
  counted : requests.length = announcement.field.toNat
  nonempty : requests ≠ []
  kinds : ∀ f ∈ requests, f.kind = .establish ∨ f.kind = .message

def AnnouncedRound.frames (r : AnnouncedRound) : List TypedFrame := r.announcement :: r.requests

/-- What the receiver hands on for a frame of a round that it accepts. -/
def Hands (framing : PayloadFraming) (f : TypedFrame) (m : Message) : Prop :=
  match f.kind with
  | .batchSize => m = .batchSize f.field
  | .establish => ∃ id, m = .establish id ((Frame.padded f.payload).take framing.establishLength)
  | .message => ∃ id, m = .message id ((Frame.padded f.payload).take framing.messageLength)
  | .release | .reply => False

/-- A round that has gone through a mixer: the requests that were handed on for it, and the order in
which they left. -/
structure MixedRound (framing : PayloadFraming) where
  round : AnnouncedRound
  requests : List Message
  left : List Message
  handed : List.Forall₂ (Hands framing) round.requests requests
  shuffled : left.Perm requests

/-- The messages in which a round leaves. Its announcement goes ahead of it, unless this relay is the
last, and each request has lost a header. -/
def MixedRound.sent {framing : PayloadFraming} (settings : MixerSettings) (d : MixedRound framing) :
    List Message :=
  let bare := d.left.map (Message.stripHeader settings.headerUnit)
  if settings.isLast then bare else .batchSize d.round.announcement.field :: bare

namespace Hands
variable {framing : PayloadFraming} {f g : TypedFrame} {m : Message}

/-- Only the frame as it is read counts. -/
theorem congr (h : Hands framing f m) (hread : f.asRead = g.asRead) : Hands framing g m := by
  obtain ⟨kind, field, payload⟩ := f
  obtain ⟨kind', field', payload'⟩ := g
  obtain ⟨rfl, rfl, hpadded⟩ := TypedFrame.mk.inj hread
  unfold Hands at h ⊢
  dsimp only at h hpadded ⊢
  rwa [← hpadded]

theorem isRequest (h : Hands framing f m) (hf : f.kind = .establish ∨ f.kind = .message) :
    m.isRequest = true := by
  unfold Hands at h
  rcases hf with hf | hf <;> rw [hf] at h <;> obtain ⟨id, rfl⟩ := h <;> rfl

theorem isRelease (h : Hands framing f m) : m.isRelease = false := by
  unfold Hands at h
  split at h
  · rw [h]
    rfl
  · obtain ⟨id, rfl⟩ := h
    rfl
  · obtain ⟨id, rfl⟩ := h
    rfl
  · exact h.elim
  · exact h.elim

end Hands

/-- There is a request in each round that leaves. -/
theorem MixedRound.any_sent {framing : PayloadFraming} (settings : MixerSettings)
    (d : MixedRound framing) : (d.sent settings).any Message.isRequest = true := by
  obtain ⟨r, requests, left, handed, shuffled⟩ := d
  obtain ⟨f, frames, hframes⟩ := List.exists_cons_of_ne_nil r.nonempty
  rw [hframes] at handed
  obtain ⟨m, rest, hf, -, rfl⟩ := List.forall₂_cons_left_iff.1 handed
  have hrequest := hf.isRequest (r.kinds f (hframes ▸ List.mem_cons_self))
  have hbare : (left.map (Message.stripHeader settings.headerUnit)).any Message.isRequest = true := by
    refine List.any_eq_true.2 ⟨m.stripHeader settings.headerUnit, ?_, ?_⟩
    · exact List.mem_map_of_mem (shuffled.mem_iff.2 List.mem_cons_self)
    · rwa [Message.isRequest_stripHeader]
  unfold sent
  dsimp only
  split
  · exact hbare
  · rw [List.any_cons, hbare, Bool.or_true]

namespace RequestMixer
variable {framing : PayloadFraming} {m : RequestMixer} {left : List AnnouncedRound}
  {f : TypedFrame} {ahead : List TypedFrame} {message : Message}

/-- Where a mixer stands in the rounds that have still to leave it, with the frames ahead of it: between
two rounds with an empty batch, or within a round of which the first requests are its batch. -/
inductive Stage (framing : PayloadFraming) (m : RequestMixer) (left : List AnnouncedRound)
    (ahead : List TypedFrame) : Prop
  | between (hahead : ahead = left.flatMap AnnouncedRound.frames) (empty : m.batch = [])
  | within (r : AnnouncedRound) (rest : List AnnouncedRound) (front last : List TypedFrame)
      (hleft : left = r :: rest) (hahead : ahead = last ++ rest.flatMap AnnouncedRound.frames)
      (split : r.requests = front ++ last) (unfinished : last ≠ [])
      (size : m.roundSize = r.announcement.field.toNat)
      (batch : List.Forall₂ (Hands framing) front m.batch)

/-- The batch is never a whole round. -/
theorem Stage.length_lt (h : Stage framing m left ahead) :
    ∀ r ∈ left.head?, m.batch.length < r.requests.length := by
  intro r hr
  cases h with
  | between _ empty =>
    rw [empty]
    exact List.length_pos_of_ne_nil r.nonempty
  | within r' rest front last hleft _ split unfinished _ batch =>
    rw [hleft] at hr
    cases hr
    have hlast := List.length_pos_of_ne_nil unfinished
    rw [split, List.length_append, ← batch.length_eq]
    omega

/-- When no frame is ahead, no round is left. -/
theorem Stage.left_eq_nil (h : Stage framing m left []) : left = [] := by
  cases h with
  | between hahead _ =>
    cases left with
    | nil => rfl
    | cons r rest => cases hahead
  | within r rest front last _ hahead _ unfinished =>
    exact absurd (List.append_eq_nil_iff.1 hahead.symm).1 unfinished

/-- The announcement of a round sets its size. -/
theorem Stage.announce (framing : PayloadFraming) {r : AnnouncedRound} (rest : List AnnouncedRound)
    (hempty : m.batch = []) (hm : message = .batchSize r.announcement.field)
    (shuffle : List Message → List Message) :
    (m.step shuffle (.arrival message)).sent = [] ∧
      (m.step shuffle (.arrival message)).mixer.batch = [] ∧
      Stage framing (m.step shuffle (.arrival message)).mixer (r :: rest)
        (r.requests ++ rest.flatMap AnnouncedRound.frames) := by
  have hpositive : r.announcement.field ≠ 0 := by
    intro hzero
    have hcounted := r.counted
    rw [hzero] at hcounted
    exact r.nonempty (List.eq_nil_of_length_eq_zero hcounted)
  have hstep : m.step shuffle (.arrival message) =
      idle { m with roundSize := r.announcement.field.toNat } := by
    rw [hm, step, if_neg hpositive, flushUnlessEmpty, if_pos (List.isEmpty_iff.2 hempty)]
  rw [hstep]
  exact ⟨rfl, hempty, .within r rest [] r.requests rfl rfl rfl r.nonempty rfl (hempty ▸ .nil)⟩

/-- A request joins the batch, and the last of a round makes the whole round leave. -/
theorem Stage.collect {r : AnnouncedRound} (rest : List AnnouncedRound) {front last : List TypedFrame}
    (split : r.requests = front ++ f :: last) (size : m.roundSize = r.announcement.field.toNat)
    (batch : List.Forall₂ (Hands framing) front m.batch) (hf : Hands framing f message)
    (shuffle : Shuffle) :
    ((m.collect shuffle.order message).sent = [] ∧
      (m.collect shuffle.order message).mixer.batch = m.batch ++ [message] ∧
      Stage framing (m.collect shuffle.order message).mixer (r :: rest)
        (last ++ rest.flatMap AnnouncedRound.frames)) ∨
    ∃ d : MixedRound framing, d.round = r ∧ d.requests = m.batch ++ [message] ∧
      (m.collect shuffle.order message).sent = d.sent m.settings ∧
      (m.collect shuffle.order message).mixer.batch = [] ∧
      Stage framing (m.collect shuffle.order message).mixer rest
        (last ++ rest.flatMap AnnouncedRound.frames) := by
  have hgrown : List.Forall₂ (Hands framing) (front ++ [f]) (m.batch ++ [message]) :=
    List.rel_append batch (.cons hf .nil)
  have hsplit : r.requests = front ++ [f] ++ last := by
    rw [split, List.append_assoc]
    rfl
  have hcount : (m.batch ++ [message]).length + last.length = m.roundSize := by
    rw [size, ← r.counted, hsplit, @List.length_append _ (front ++ [f]), hgrown.length_eq]
  unfold RequestMixer.collect
  dsimp only
  split
  · rename_i hfull
    have hlast : last = [] := List.eq_nil_of_length_eq_zero (by omega)
    subst hlast
    rw [List.append_nil] at hsplit
    have hsize : UInt32.ofNat (shuffle.order (m.batch ++ [message])).length = r.announcement.field := by
      rw [(shuffle.perm _).length_eq, ← hgrown.length_eq, ← hsplit, r.counted, UInt32.ofNat_toNat]
    refine .inr ⟨⟨r, m.batch ++ [message], shuffle.order (m.batch ++ [message]), hsplit ▸ hgrown,
      shuffle.perm _⟩, rfl, rfl, ?_, rfl, .between rfl rfl⟩
    rw [flush, announced, hsize]
    rfl
  · rename_i hmore
    have hlast : last ≠ [] := by
      rintro rfl
      rw [List.length_nil] at hcount
      omega
    exact .inl ⟨rfl, rfl, .within r rest (front ++ [f]) last rfl rfl hsplit hlast size hgrown⟩

/-- The mixer takes what was handed on for the next frame. Nothing leaves, or the whole next round. -/
theorem Stage.take (h : Stage framing m left (f :: ahead)) (hf : Hands framing f message)
    (shuffle : Shuffle) :
    ((m.step shuffle.order (.arrival message)).sent = [] ∧
      (m.step shuffle.order (.arrival message)).mixer.batch =
        m.batch ++ [message].filter Message.isRequest ∧
      Stage framing (m.step shuffle.order (.arrival message)).mixer left ahead) ∨
    ∃ (d : MixedRound framing) (rest : List AnnouncedRound), left = d.round :: rest ∧
      d.requests = m.batch ++ [message].filter Message.isRequest ∧
      (m.step shuffle.order (.arrival message)).sent = d.sent m.settings ∧
      (m.step shuffle.order (.arrival message)).mixer.batch = [] ∧
      Stage framing (m.step shuffle.order (.arrival message)).mixer rest ahead := by
  cases h with
  | between hahead empty =>
    cases left with
    | nil => cases hahead
    | cons r rest =>
      obtain ⟨rfl, rfl⟩ := List.cons.inj hahead
      have hmessage : message = .batchSize r.announcement.field := by
        unfold Hands at hf
        rwa [r.announces] at hf
      obtain ⟨hsent, hbatch, hstage⟩ := Stage.announce framing rest empty hmessage shuffle.order
      refine .inl ⟨hsent, ?_, hstage⟩
      rw [hbatch, empty, hmessage]
      rfl
  | within r rest front last hleft hahead split unfinished size batch =>
    obtain ⟨g, last, rfl⟩ := List.exists_cons_of_ne_nil unfinished
    obtain ⟨rfl, rfl⟩ := List.cons.inj hahead
    have hrequest : message.isRequest = true :=
      hf.isRequest (r.kinds f (split ▸ List.mem_append_right _ List.mem_cons_self))
    have hstep : m.step shuffle.order (.arrival message) = m.collect shuffle.order message := by
      cases message <;> first | rfl | cases hrequest
    rw [hstep, List.filter_cons_of_pos hrequest, List.filter_nil]
    rcases Stage.collect rest split size batch hf shuffle with
      hheld | ⟨d, rfl, hd, hsent, hempty, hstage⟩
    · rw [hleft]
      exact .inl hheld
    · exact .inr ⟨d, rest, hleft, hd, hsent, hempty, hstage⟩

end RequestMixer

namespace LaterRelay
variable {rounds : List AnnouncedRound} {framing : PayloadFraming} {settings : MixerSettings}
  {handed : List Message} {accepted : List TypedFrame} {mixed : List (MixedRound framing)}
  {s : LaterRelay}

/-- The frame that is read in a step. -/
def readAt (s : LaterRelay) : LaterRelayEvent → List TypedFrame
  | .receive =>
    if s.edge.isConnected then
      ((Frame.next? s.edge.settings.maxFrameLength s.edge.requestKeystream s.edge.unread).map
        fun (h, payload) => ⟨h.kind, h.field, payload⟩).toList
    else []
  | _ => []

/-- The frame that is accepted in a step: it is read, and no fault is counted for it. -/
def acceptedAt (s : LaterRelay) (e : LaterRelayEvent) : List TypedFrame :=
  if (s.next e).edge.metrics.protocolFaults = s.edge.metrics.protocolFaults then s.readAt e else []

/-- Frames that belong to rounds, as all but releases do. -/
def ofRounds (frames : List TypedFrame) : List TypedFrame := frames.filter fun f => f.kind ≠ .release

theorem ofRounds_append (first second : List TypedFrame) :
    ofRounds (first ++ second) = ofRounds first ++ ofRounds second := List.filter_append ..

theorem readAt_of_ne {e : LaterRelayEvent} (h : e ≠ .receive) : s.readAt e = [] := by
  cases e with
  | receive => exact absurd rfl h
  | _ => rfl

theorem acceptedAt_of_ne {e : LaterRelayEvent} (h : e ≠ .receive) : s.acceptedAt e = [] := by
  rw [acceptedAt, readAt_of_ne h, ite_self]

theorem readAt_of_leads {f : TypedFrame} {behind : Bytes} (hc : s.edge.isConnected = true)
    (h : TypedFrame.Leads s.edge.settings.maxFrameLength s.edge.requestKeystream s.edge.unread f behind) :
    s.readAt .receive = [f.asRead] := by
  rw [readAt, if_pos hc, h.next?]
  rfl

/-- A frame of a round is accepted and handed on, or the rounds go on without what is received. -/
theorem receive_accepts (s : LaterRelay) :
    s.receive.2.mixer = s.mixer ∧ s.receive.2.edge.settings = s.edge.settings ∧
    s.receive.2.waiting = s.waiting ++ s.receive.1 ∧
    ((ofRounds (s.acceptedAt .receive) = [] ∧ ∀ m ∈ s.receive.1, m.isRelease = true) ∨
      ∃ f m, s.acceptedAt .receive = [f.asRead] ∧ ofRounds [f.asRead] = [f.asRead] ∧
        s.receive.1 = [m] ∧ Hands s.edge.settings.framing f m) := by
  have haccepted : s.acceptedAt .receive =
      if s.receive.2.edge.metrics.protocolFaults = s.edge.metrics.protocolFaults
      then s.readAt .receive else [] := rfl
  rcases s.receive_line_cases with ⟨hlacks, hnone, -, hwaiting, hmixer, hsettings⟩ |
    ⟨f, behind, t, handedOn, hc, hleads, hserves, hhanded, hafter, hwaiting, hmixer, hsettings⟩
  · have hread : s.readAt .receive = [] := by
      rw [readAt]
      split
      · rename_i hc
        rw [(hlacks hc).next?]
        rfl
      · rfl
    rw [haccepted, hread, ite_self, hnone, List.append_nil]
    exact ⟨hmixer, hsettings, hwaiting, .inl ⟨rfl, nofun⟩⟩
  rw [haccepted, readAt_of_leads hc hleads, hhanded]
  refine ⟨hmixer, hsettings, hwaiting, ?_⟩
  have hmetrics : s.receive.2.edge.metrics = t.metrics := congrArg InboundState.metrics hafter
  rw [hmetrics]
  have hrelease (hkind : f.kind = .release) {faults : Nat} :
      ofRounds (if faults = s.edge.metrics.protocolFaults then [f.asRead] else []) = [] := by
    split
    · exact List.filter_cons_of_neg (by simp [TypedFrame.asRead, hkind])
    · rfl
  have hkept (hkind : f.kind ≠ .release) : ofRounds [f.asRead] = [f.asRead] :=
    List.filter_cons_of_pos (decide_eq_true hkind)
  cases hserves with
  | refused n =>
    have hfault : (s.inbound.metrics.countFault n).protocolFaults ≠
        s.edge.metrics.protocolFaults := Nat.succ_ne_self _
    refine .inl ⟨?_, nofun⟩
    rw [if_neg hfault]
    rfl
  | established n kind =>
    refine .inr ⟨f, _, if_pos rfl, hkept (by simp [kind]), rfl, ?_⟩
    unfold Hands
    rw [kind]
    exact ⟨_, rfl⟩
  | requested n c kind =>
    refine .inr ⟨f, _, if_pos rfl, hkept (by simp [kind]), rfl, ?_⟩
    unfold Hands
    rw [kind]
    exact ⟨_, rfl⟩
  | opened n kind =>
    refine .inr ⟨f, _, if_pos rfl, hkept (by simp [kind]), rfl, ?_⟩
    unfold Hands
    rw [kind]
  | released n d kind =>
    refine .inl ⟨hrelease kind, fun m hm => ?_⟩
    split at hm
    · cases hm
    · rw [List.mem_singleton.1 hm]
      rfl
  | forgotten n kind => exact .inl ⟨hrelease kind, nofun⟩

/-- The steps that are neither of the receiver nor of the mixer. -/
theorem outside_step {e : LaterRelayEvent} (hreceive : e ≠ .receive)
    (htake : ∀ shuffle, e ≠ .take shuffle) (htimeout : ∀ shuffle, e ≠ .timeout shuffle) :
    (s.next e).mixer = s.mixer ∧ (s.next e).waiting = s.waiting ∧ (s.step e).1 = [] := by
  cases e with
  | receive => exact absurd rfl hreceive
  | take shuffle => exact absurd rfl (htake shuffle)
  | timeout shuffle => exact absurd rfl (htimeout shuffle)
  | send =>
    rw [next, step]
    split <;> exact ⟨rfl, rfl, rfl⟩
  | _ => exact ⟨rfl, rfl, rfl⟩

/-- The settings of the edge never change. -/
theorem settings_step (s : LaterRelay) (e : LaterRelayEvent) :
    (s.next e).edge.settings = s.edge.settings := by
  cases e with
  | receive => exact s.receive_accepts.2.1
  | arrive bytes =>
    rw [next, step, InboundEdge.arrive]
    dsimp only
    split <;> rfl
  | finish =>
    rw [next, step, InboundEdge.finish]
    dsimp only
    split <;> rfl
  | take shuffle =>
    rw [next, step]
    split <;> rfl
  | send =>
    rw [next, step]
    split
    · rename_i hsend
      unfold InboundEdge.sendNext? at hsend
      split at hsend
      · split at hsend
        · cases hsend
          rfl
        · cases hsend
      · split at hsend
        · cases hsend
        · cases hsend
          rfl
    · rfl
  | _ => rfl

/-- What leaves in a step, and the rounds that leave with it. -/
inductive Leaves (settings : MixerSettings) : List Message → List (MixedRound framing) → Prop
  | nothing : Leaves settings [] []
  | release (c : ChannelId) : Leaves settings [.release c] []
  | round (d : MixedRound framing) : Leaves settings (d.sent settings) [d]

theorem Leaves.filter {sent : List Message} {more : List (MixedRound framing)}
    (h : Leaves settings sent more) :
    [sent].filter (fun sent => sent.any Message.isRequest) = more.map (MixedRound.sent settings) := by
  cases h with
  | nothing => rfl
  | release c => rfl
  | round d => exact List.filter_cons_of_pos (d.any_sent settings)

theorem Leaves.of_not_any {sent : List Message} {more : List (MixedRound framing)}
    (h : Leaves settings sent more) (hnone : sent.any Message.isRequest = false) :
    sent = [] ∨ ∃ c, sent = [.release c] := by
  cases h with
  | nothing => exact .inl rfl
  | release c => exact .inr ⟨c, rfl⟩
  | round d => exact absurd ((d.any_sent settings).symm.trans hnone) nofun

/-- Where the rounds stand: those of `mixed` have left. The frames behind theirs that the receiver has
accepted are in the batch, or what was handed on for them waits. -/
structure Stands (settings : MixerSettings) (rounds : List AnnouncedRound) (handed : List Message)
    (accepted : List TypedFrame) (mixed : List (MixedRound framing)) (s : LaterRelay) : Prop where
  configured : s.edge.settings.framing = framing ∧ s.mixer.settings = settings
  requests : handed.filter Message.isRequest =
    mixed.flatMap MixedRound.requests ++ (s.mixer.batch ++ s.waiting.filter Message.isRequest)
  stage : ∃ (left : List AnnouncedRound) (passed queued later : List TypedFrame),
    rounds = mixed.map MixedRound.round ++ left ∧
    rounds.flatMap AnnouncedRound.frames = passed ++ queued ++ later ∧
    ofRounds accepted = (passed ++ queued).map TypedFrame.asRead ∧
    List.Forall₂ (Hands framing) queued (s.waiting.filter fun m => !m.isRelease) ∧
    s.mixer.Stage framing left (queued ++ later)

namespace Stands

theorem receive (h : Stands settings rounds handed accepted mixed s)
    (hread : ofRounds (accepted ++ s.acceptedAt .receive) <+:
      (rounds.flatMap AnnouncedRound.frames).map TypedFrame.asRead) :
    Stands settings rounds (handed ++ s.receive.1) (accepted ++ s.acceptedAt .receive) mixed
      s.receive.2 := by
  obtain ⟨left, passed, queued, later, hrounds, hframes, haccepted, hqueued, hstage⟩ := h.stage
  obtain ⟨hmixer, hsettings, hwaiting, hwhat⟩ := s.receive_accepts
  refine ⟨⟨hsettings ▸ h.configured.1, hmixer ▸ h.configured.2⟩, ?_, ?_⟩
  · rw [hwaiting, hmixer, List.filter_append, List.filter_append, h.requests]
    simp only [List.append_assoc]
  rw [hmixer, hwaiting, List.filter_append]
  rw [ofRounds_append] at hread ⊢
  rcases hwhat with ⟨hnone, hreleases⟩ | ⟨f, m, hone, hkept, hhanded, hf⟩
  · have hleft : (s.receive.1.filter fun m => !m.isRelease) = [] := by
      refine List.filter_eq_nil_iff.2 fun m hm => ?_
      simp [hreleases m hm]
    rw [hleft, hnone, List.append_nil, List.append_nil]
    exact ⟨left, passed, queued, later, hrounds, hframes, haccepted, hqueued, hstage⟩
  · have hahead : (rounds.flatMap AnnouncedRound.frames).map TypedFrame.asRead =
        ofRounds accepted ++ later.map TypedFrame.asRead := by
      rw [hframes, haccepted, List.map_append]
    rw [hone, hkept, hahead, List.prefix_append_right_inj] at hread
    obtain ⟨g, later', rfl, hg⟩ : ∃ g later', later = g :: later' ∧ g.asRead = f.asRead := by
      cases later with
      | nil => exact absurd (List.prefix_nil.1 hread) (List.cons_ne_nil _ _)
      | cons g later' => exact ⟨g, later', rfl, (List.cons_prefix_cons.1 hread).1.symm⟩
    have hhands : Hands framing g m := (h.configured.1 ▸ hf).congr hg.symm
    refine ⟨left, passed, queued ++ [g], later', hrounds, ?_, ?_, ?_, ?_⟩
    · rw [hframes]
      simp only [List.append_assoc, List.singleton_append]
    · rw [haccepted, hone, hkept, ← hg, ← List.append_assoc, List.map_append, List.map_append,
        List.map_append]
      rfl
    · rw [hhanded, List.filter_cons_of_pos (by simp [hhands.isRelease]), List.filter_nil]
      exact List.rel_append hqueued (.cons hhands .nil)
    · rwa [List.append_assoc, List.singleton_append]

/-- The mixer passes a release on. -/
theorem takeRelease (h : Stands settings rounds handed accepted mixed s) {c : ChannelId}
    {rest : List Message} (hw : s.waiting = .release c :: rest) (shuffle : Shuffle) :
    Stands settings rounds handed accepted mixed (s.mix shuffle rest (.arrival (.release c))).2 ∧
      (s.mix shuffle rest (.arrival (.release c))).1 = [.release c] := by
  have hrequests := h.requests
  have hstage := h.stage
  rw [hw] at hrequests hstage
  exact ⟨⟨h.configured, hrequests, hstage⟩, rfl⟩

/-- The mixer takes a message of a round, and nothing leaves or the whole next round does. -/
theorem takeOfRound (h : Stands settings rounds handed accepted mixed s) {m : Message}
    {rest : List Message} (hw : s.waiting = m :: rest) (hm : m.isRelease = false)
    (shuffle : Shuffle) :
    (Stands settings rounds handed accepted mixed (s.mix shuffle rest (.arrival m)).2 ∧
      (s.mix shuffle rest (.arrival m)).1 = []) ∨
    ∃ d : MixedRound framing,
      Stands settings rounds handed accepted (mixed ++ [d]) (s.mix shuffle rest (.arrival m)).2 ∧
      (s.mix shuffle rest (.arrival m)).1 = d.sent settings := by
  obtain ⟨left, passed, queued, later, hrounds, hframes, haccepted, hqueued, hstage⟩ := h.stage
  rw [hw, List.filter_cons_of_pos (by simp [hm])] at hqueued
  obtain ⟨f, queued, hf, hrest, rfl⟩ := List.forall₂_cons_right_iff.1 hqueued
  have hconfigured : (s.mix shuffle rest (.arrival m)).2.edge.settings.framing = framing ∧
      (s.mix shuffle rest (.arrival m)).2.mixer.settings = settings :=
    ⟨h.configured.1, (s.mixer.settings_step _ _).1.trans h.configured.2⟩
  have hrequests := h.requests
  rw [hw, ← List.singleton_append, List.filter_append, ← List.append_assoc s.mixer.batch] at hrequests
  have hpassed : rounds.flatMap AnnouncedRound.frames = passed ++ [f] ++ queued ++ later := by
    rw [hframes]
    simp only [List.append_assoc, List.cons_append, List.nil_append]
  have haccepted' : ofRounds accepted = (passed ++ [f] ++ queued).map TypedFrame.asRead := by
    rw [haccepted]
    simp only [List.append_assoc, List.singleton_append]
  rcases hstage.take hf shuffle with ⟨hsent, hbatch, hafter⟩ | ⟨d, more, rfl, hd, hsent, hempty, hafter⟩
  · refine .inl ⟨⟨hconfigured, ?_, left, passed ++ [f], queued, later, hrounds, hpassed, haccepted', hrest,
      hafter⟩, hsent⟩
    rw [← hbatch] at hrequests
    exact hrequests
  · refine .inr ⟨d, ⟨hconfigured, ?_, more, passed ++ [f], queued, later, ?_, hpassed, haccepted', hrest,
      hafter⟩, h.configured.2 ▸ hsent⟩
    · rw [← hd, ← List.append_assoc] at hrequests
      rw [hrequests, List.flatMap_append, List.flatMap_singleton]
      congr 1
      rw [mix]
      dsimp only
      rw [hempty]
      rfl
    · rw [hrounds, List.map_append, List.append_assoc]
      rfl

/-- A step in which nothing leaves. -/
theorem quiet (h : Stands settings rounds handed accepted mixed s) {sent : List Message}
    (hsent : sent = []) :
    ∃ more : List (MixedRound framing),
      Stands settings rounds handed accepted (mixed ++ more) s ∧ Leaves settings sent more := by
  refine ⟨[], ?_, hsent ▸ .nothing⟩
  rwa [List.append_nil]

theorem take (h : Stands settings rounds handed accepted mixed s) {m : Message} {rest : List Message}
    (hw : s.waiting = m :: rest) (shuffle : Shuffle) :
    ∃ more : List (MixedRound framing),
      Stands settings rounds handed accepted (mixed ++ more) (s.mix shuffle rest (.arrival m)).2 ∧
      Leaves settings (s.mix shuffle rest (.arrival m)).1 more := by
  cases hm : m.isRelease with
  | true =>
    obtain ⟨c, rfl⟩ : ∃ c, m = .release c := by
      cases m <;> first | exact ⟨_, rfl⟩ | cases hm
    obtain ⟨hafter, hsent⟩ := h.takeRelease hw shuffle
    refine ⟨[], ?_, hsent ▸ .release c⟩
    rwa [List.append_nil]
  | false =>
    rcases h.takeOfRound hw hm shuffle with ⟨hafter, hsent⟩ | ⟨d, hafter, hsent⟩
    · exact hafter.quiet hsent
    · exact ⟨[d], hafter, hsent ▸ .round d⟩

/-- Without a batch nothing comes of a timeout. -/
theorem timeout (h : Stands settings rounds handed accepted mixed s) (hempty : s.mixer.batch = [])
    (shuffle : Shuffle) :
    Stands settings rounds handed accepted mixed (s.mix shuffle s.waiting .timeout).2 ∧
      (s.mix shuffle s.waiting .timeout).1 = [] := by
  have hidle : s.mixer.step shuffle.order .timeout = s.mixer.idle :=
    if_pos (List.isEmpty_iff.2 hempty)
  rw [mix, hidle]
  exact ⟨⟨h.configured, h.requests, h.stage⟩, rfl⟩

end Stands

/-- No round runs out of time: where the mixer gives up waiting, it holds nothing back. -/
def Patient (s : LaterRelay) (e : LaterRelayEvent) : Prop :=
  (∃ shuffle, e = .timeout shuffle) → s.mixer.batch = []

namespace Stands

theorem step (h : Stands settings rounds handed accepted mixed s) {e : LaterRelayEvent}
    (hread : ofRounds (accepted ++ s.acceptedAt e) <+:
      (rounds.flatMap AnnouncedRound.frames).map TypedFrame.asRead)
    (hpatient : Patient s e) :
    ∃ more : List (MixedRound framing),
      Stands settings rounds (handed ++ s.heardAt e) (accepted ++ s.acceptedAt e) (mixed ++ more)
        (s.next e) ∧ Leaves settings (s.step e).1 more := by
  by_cases hreceive : e = .receive
  · subst hreceive
    exact (h.receive hread).quiet rfl
  rw [heardAt_of_ne hreceive, acceptedAt_of_ne hreceive, List.append_nil, List.append_nil]
  by_cases htake : ∃ shuffle, e = .take shuffle
  · obtain ⟨shuffle, rfl⟩ := htake
    rw [next, LaterRelay.step]
    split
    · rename_i m rest hw
      exact h.take hw shuffle
    · exact h.quiet rfl
  by_cases htimeout : ∃ shuffle, e = .timeout shuffle
  · have hempty := hpatient htimeout
    obtain ⟨shuffle, rfl⟩ := htimeout
    obtain ⟨hafter, hsent⟩ := h.timeout hempty shuffle
    exact hafter.quiet hsent
  obtain ⟨hmixer, hwaiting, hsent⟩ := s.outside_step hreceive
    (fun shuffle he => htake ⟨shuffle, he⟩) fun shuffle he => htimeout ⟨shuffle, he⟩
  refine quiet ⟨?_, ?_, ?_⟩ hsent
  · rw [settings_step, hmixer]
    exact h.configured
  · rw [hmixer, hwaiting]
    exact h.requests
  · rw [hmixer, hwaiting]
    exact h.stage

theorem run (h : Stands settings rounds handed accepted mixed s) {events : List LaterRelayEvent}
    (hread : ofRounds (accepted ++ outputs next acceptedAt s events) <+:
      (rounds.flatMap AnnouncedRound.frames).map TypedFrame.asRead)
    (hpatient : Along next Patient s events) :
    ∃ more : List (MixedRound framing),
      Stands settings rounds (handed ++ outputs next heardAt s events)
        (accepted ++ outputs next acceptedAt s events) (mixed ++ more) (events.foldl next s) ∧
      (departures s events).filter (fun sent => sent.any Message.isRequest) =
        more.map (MixedRound.sent settings) ∧
      ∀ sent ∈ departures s events, sent.any Message.isRequest = false →
        sent = [] ∨ ∃ c, sent = [.release c] := by
  induction events generalizing handed accepted mixed s with
  | nil =>
    refine ⟨[], ?_, rfl, fun sent hmem => absurd hmem List.not_mem_nil⟩
    rw [outputs, outputs, List.append_nil, List.append_nil, List.append_nil]
    exact h
  | cons e events ih =>
    have hdepartures : departures s (e :: events) = [(s.step e).1] ++ departures (s.next e) events := rfl
    rw [outputs, ← List.append_assoc] at hread
    have hnow : ofRounds (accepted ++ s.acceptedAt e) <+:
        (rounds.flatMap AnnouncedRound.frames).map TypedFrame.asRead := by
      rw [ofRounds_append] at hread
      exact (List.prefix_append _ _).trans hread
    obtain ⟨first, hnext, hleaves⟩ := h.step hnow hpatient.1
    obtain ⟨more, hafter, hrounds, hothers⟩ := ih hnext hread hpatient.2
    refine ⟨first ++ more, ?_, ?_, fun sent hmem => ?_⟩
    · rw [outputs, outputs, ← List.append_assoc, ← List.append_assoc, ← List.append_assoc]
      exact hafter
    · rw [hdepartures, List.filter_append, hleaves.filter, hrounds, List.map_append]
    · rw [hdepartures] at hmem
      rcases List.mem_append.1 hmem with hmem | hmem
      · rw [List.mem_singleton.1 hmem]
        exact hleaves.of_not_any
      · exact hothers sent hmem

end Stands

/-- Rounds survive the hop. Whatever the size that a mixer behind the first relay was started with, and
in whatever order receiver and mixer come to act: if the accepted frames, apart from releases, are those
of a row of rounds, then the batches that leave are these rounds, one for each that is complete, in their
order, and each consists of exactly the requests of its round. The requests of the next round are held
back, or wait, until it is complete. -/
theorem rounds_survive_hop (inbound : InboundSettings) (key : EdgeKey) (draws : Draws)
    (proxyCapacity : Nat) (settings : MixerSettings) (events : List LaterRelayEvent)
    (rounds : List AnnouncedRound)
    (hread : ofRounds (outputs next acceptedAt (start inbound key draws proxyCapacity settings) events) <+:
      (rounds.flatMap AnnouncedRound.frames).map TypedFrame.asRead)
    (hpatient : Along next Patient (start inbound key draws proxyCapacity settings) events) :
    let s₀ := start inbound key draws proxyCapacity settings
    let s := events.foldl next s₀
    ∃ mixed : List (MixedRound inbound.framing),
      mixed.map MixedRound.round <+: rounds ∧
      (departures s₀ events).filter (fun sent => sent.any Message.isRequest) =
        mixed.map (MixedRound.sent settings) ∧
      (∀ sent ∈ departures s₀ events, sent.any Message.isRequest = false →
        sent = [] ∨ ∃ c, sent = [.release c]) ∧
      (outputs next heardAt s₀ events).filter Message.isRequest =
        mixed.flatMap MixedRound.requests ++ (s.mixer.batch ++ s.waiting.filter Message.isRequest) ∧
      (∀ r ∈ rounds[mixed.length]?, s.mixer.batch.length < r.requests.length) ∧
      (ofRounds (outputs next acceptedAt s₀ events) =
          (rounds.flatMap AnnouncedRound.frames).map TypedFrame.asRead →
        s.waiting = [] → mixed.map MixedRound.round = rounds) := by
  intro s₀ s
  have hstart : Stands settings rounds [] [] ([] : List (MixedRound inbound.framing)) s₀ :=
    ⟨⟨rfl, rfl⟩, rfl, rounds, [], [], rounds.flatMap AnnouncedRound.frames, rfl, rfl, rfl, .nil,
      .between rfl rfl⟩
  obtain ⟨mixed, hafter, hsent, hothers⟩ := hstart.run hread hpatient
  obtain ⟨left, passed, queued, later, hrounds, hframes, haccepted, hqueued, hstage⟩ := hafter.stage
  refine ⟨mixed, ⟨left, hrounds.symm⟩, hsent, hothers, hafter.requests, ?_, fun hall hnone => ?_⟩
  · have hnext : rounds[mixed.length]? = left.head? := by
      rw [hrounds, List.nil_append, List.getElem?_append_right (by simp)]
      simp [List.head?_eq_getElem?]
    rw [hnext]
    exact hstage.length_lt
  · have hlater : later = [] := by
      have hboth := congrArg List.length (haccepted.symm.trans hall)
      rw [hframes, List.length_map, List.length_map, @List.length_append _ (passed ++ queued)] at hboth
      exact List.eq_nil_of_length_eq_zero (by omega)
    rw [hnone] at hqueued
    cases hqueued
    subst hlater
    rw [hrounds, hstage.left_eq_nil, List.append_nil]
    rfl

/-- What receiving a frame makes of the relay, with nothing behind it. -/
def serve (s : LaterRelay) (f : TypedFrame) : LaterRelay :=
  let got := s.inbound.handle s.edge.settings f.head (f.payload.drop Frame.headPayloadLength)
  { s with
    edge := { s.edge with
      receiver := ⟨s.edge.requestKeystream.advance, s.edge.connection.generation⟩
      table := got.state.table
      metrics := got.state.metrics
      draws := got.state.draws
      unread := [] }
    registry := got.state.registry
    waiting := s.waiting ++ got.handedOn }

/-- The relay with other bytes to read. -/
def facing (s : LaterRelay) (bytes : Bytes) : LaterRelay :=
  { s with edge := { s.edge with unread := bytes } }

theorem next_of_leads {f : TypedFrame} {behind : Bytes} (hc : s.edge.isConnected = true)
    (h : TypedFrame.Leads s.edge.settings.maxFrameLength s.edge.requestKeystream s.edge.unread f behind) :
    s.next .receive = (s.serve f).facing behind := by
  obtain ⟨t, handedOn, hhandle, -⟩ := InboundState.handle_serves s.edge.settings s.inbound f behind
  have hlong : f.head.remaining ≤ (f.payload.drop Frame.headPayloadLength).length :=
    Nat.le_of_eq (f.head_remaining behind).1
  obtain ⟨hstate, hhanded⟩ := InboundState.handle_append s.edge.settings s.inbound hlong behind
  rw [hhandle] at hstate hhanded
  rw [next, step, receive_of_handle hc h hhandle, serve, ← hstate, ← hhanded]
  rfl

/-- The frames that are accepted of a row, received one after another. -/
def acceptedOf (s : LaterRelay) : List TypedFrame → List TypedFrame
  | [] => []
  | f :: more =>
    (if (s.serve f).edge.metrics.protocolFaults = s.edge.metrics.protocolFaults then [f.asRead]
      else []) ++ (s.serve f).acceptedOf more

/-- A line that has arrived as a whole is received frame by frame. -/
theorem receive_line (frames : List TypedFrame) {ks : HeaderKeystream}
    (hc : s.edge.isConnected = true) (hks : s.edge.requestKeystream = ks)
    (hfit : ∀ f ∈ frames, Frame.length f.payload.length ≤ s.edge.settings.maxFrameLength ∧
      Frame.length f.payload.length < 2 ^ 32) :
    (List.replicate frames.length .receive).foldl next (s.facing (TypedFrame.encodeAll ks frames).1) =
        (frames.foldl serve s).facing [] ∧
      outputs next acceptedAt (s.facing (TypedFrame.encodeAll ks frames).1)
        (List.replicate frames.length .receive) = s.acceptedOf frames := by
  induction frames generalizing s ks with
  | nil => exact ⟨rfl, rfl⟩
  | cons f more ih =>
    subst hks
    let ks := s.edge.requestKeystream
    let t := s.facing (TypedFrame.encodeAll ks (f :: more)).1
    obtain ⟨hmax, hword⟩ := hfit f List.mem_cons_self
    have hleads : TypedFrame.Leads t.edge.settings.maxFrameLength t.edge.requestKeystream
        t.edge.unread f (TypedFrame.encodeAll ks.advance more).1 :=
      TypedFrame.leads_encodeAll ks f more hmax hword
    have hnext : t.next .receive = (s.serve f).facing (TypedFrame.encodeAll ks.advance more).1 :=
      next_of_leads hc hleads
    have hadvanced : (s.serve f).edge.requestKeystream = ks.advance :=
      congrArg EdgeCipher.keystream (EdgeCipher.forGeneration_of_eq rfl)
    obtain ⟨hafter, hrest⟩ := ih (s := s.serve f) hc hadvanced fun g hg =>
      hfit g (List.mem_cons_of_mem f hg)
    have hread : t.readAt .receive = [f.asRead] := readAt_of_leads hc hleads
    rw [List.length_cons, List.replicate_succ, List.foldl_cons, outputs, acceptedAt, hnext, hread,
      hafter, hrest]
    exact ⟨rfl, rfl⟩

/-- Rounds of one and of two requests. -/
def hopRounds : List AnnouncedRound :=
  [⟨⟨.batchSize, 1, []⟩, [hopFirst], rfl, rfl, by decide, by decide⟩,
    ⟨⟨.batchSize, 2, []⟩, [hopSecond, ⟨.message, 5, [5, 6]⟩], rfl, rfl, by decide, by decide⟩]

/-- The two rounds with a release between them. -/
def hopLine : List TypedFrame :=
  [⟨.batchSize, 1, []⟩, hopFirst, ⟨.release, 7, []⟩, ⟨.batchSize, 2, []⟩, hopSecond,
    ⟨.message, 5, [5, 6]⟩]

/-- Both rounds are received before the mixer takes the first of them. -/
def hopRoundEvents (bytes : Bytes) : List LaterRelayEvent :=
  [.accept, .arrive bytes] ++ List.replicate hopLine.length .receive ++
    List.replicate 5 (.take .keep)

theorem receive_hop :
    let s := (hopRoundEvents (TypedFrame.encodeAll hopKeystream hopLine).1).foldl next hopRelay
    s.waiting = [] ∧
      ofRounds (outputs next acceptedAt hopRelay
        (hopRoundEvents (TypedFrame.encodeAll hopKeystream hopLine).1)) =
      (hopRounds.flatMap AnnouncedRound.frames).map TypedFrame.asRead := by
  obtain ⟨hafter, hline⟩ := @receive_line (hopRelay.next .accept) hopLine hopKeystream rfl rfl
    (by decide)
  have hbefore (bytes : Bytes) : outputs next acceptedAt hopRelay [.accept, .arrive bytes] = [] := rfl
  have hstart (bytes : Bytes) : [LaterRelayEvent.accept, .arrive bytes].foldl next hopRelay =
      (hopRelay.next .accept).facing bytes := rfl
  have htakes (t : LaterRelay) :
      outputs next acceptedAt t (List.replicate 5 (.take .keep)) = [] := by
    refine outputs_eq_nil (fun t e he => ?_) t
    rw [List.eq_of_mem_replicate he]
    exact acceptedAt_of_ne nofun
  rw [hopRoundEvents, List.foldl_append, List.foldl_append, outputs_append, outputs_append, hbefore,
    htakes, hstart, hafter, hline, List.nil_append, List.append_nil]
  constructor <;> decide +kernel

theorem rounds_survive_hop_mixed :
    let events := hopRoundEvents (TypedFrame.encodeAll hopKeystream hopLine).1
    ofRounds (outputs next acceptedAt hopRelay events) =
        (hopRounds.flatMap AnnouncedRound.frames).map TypedFrame.asRead ∧
      Along next Patient hopRelay events ∧
      ∃ mixed : List (MixedRound hopInbound.framing),
        mixed.map MixedRound.round = hopRounds ∧
        (departures hopRelay events).filter (fun sent => sent.any Message.isRequest) =
          mixed.map (MixedRound.sent hopSettings) := by
  intro events
  obtain ⟨hwaiting, hread⟩ := receive_hop
  have hpatient : Along next Patient hopRelay events := by
    refine along_iff.2 fun front e rest hsplit htimeout => ?_
    obtain ⟨shuffle, rfl⟩ := htimeout
    have hmem : LaterRelayEvent.timeout shuffle ∈ events := by
      rw [hsplit]
      exact List.mem_append_right _ List.mem_cons_self
    rcases List.mem_append.1 hmem with hmem | hmem
    · rcases List.mem_append.1 hmem with hmem | hmem
      · simp at hmem
      · cases List.eq_of_mem_replicate hmem
    · cases List.eq_of_mem_replicate hmem
  obtain ⟨mixed, -, hsent, -, -, -, hall⟩ := rounds_survive_hop hopInbound hopKey (.ofList [9, 10]) 16
    hopSettings events hopRounds (hread ▸ List.prefix_refl _) hpatient
  exact ⟨hread, hpatient, mixed, hall hread hwaiting, hsent⟩

end LaterRelay
end MixRelay
