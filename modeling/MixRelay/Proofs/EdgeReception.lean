import MixRelay.Proofs.ReplyFrames

/-!
# What an edge makes of the next frame

A frame that is all there is dealt with as a whole. One that is not leaves the relay as it is; then the
receiver waits, or it gives the connection up.
-/
namespace MixRelay

/-- Reading moves a keystream on by a block, or not at all. -/
theorem Frame.readHead_keystream (maxLength : Nat) (ks : HeaderKeystream) (input : Bytes) :
    (readHead maxLength ks input).keystream = ks ∨
      (readHead maxLength ks input).keystream = ks.advance := by
  unfold readHead
  split
  · exact .inl rfl
  · dsimp only
    split
    · exact .inl rfl
    · split
      · exact .inl rfl
      · split
        · exact .inl rfl
        · exact .inr rfl

theorem receiveFrame_keystream {σ : Type} (maxLength : Nat) (handle : FrameHead → Bytes → Handled σ)
    (state : σ) (ks : HeaderKeystream) (input : Bytes) :
    (receiveFrame maxLength handle state ks input).keystream = ks ∨
      (receiveFrame maxLength handle state ks input).keystream = ks.advance := by
  have hread := Frame.readHead_keystream maxLength ks input
  cases hanswer : (Frame.readHead maxLength ks input).answer with
  | error e =>
    rw [receiveFrame_of_error hanswer]
    exact hread
  | ok h =>
    rw [receiveFrame_of_ok hanswer]
    exact hread

namespace TypedFrame

/-- A payload of the length that is due fits, also if it is padded on the way. -/
theorem fits_of_length (f : TypedFrame) {n : Nat} (h : f.payload.length = n) :
    InboundState.fits n f.head = true := by
  rw [← h]
  exact decide_eq_true rfl

theorem padded_take (f : TypedFrame) {n : Nat} (h : f.payload.length = n) :
    (Frame.padded f.payload).take n = f.payload := by
  rw [Frame.padded_eq, ← h, List.take_left]

end TypedFrame

namespace InboundState
variable {s : InboundSettings} {st : InboundState} {ks : HeaderKeystream} {input behind : Bytes}
  {f : TypedFrame}

/-- The frame does not fit: its channel is known already or not at all, the channel has sent in this
round, or the length is wrong. Replies do not belong here. -/
def Refuses (s : InboundSettings) (st : InboundState) (f : TypedFrame) : Prop :=
  match f.kind with
  | .establish =>
    st.table.containsEdge f.field = true ∨ fits s.framing.establishLength f.head = false
  | .message => ∀ c, st.channel? f.field = some c →
      c.requestClaimed = true ∨ fits s.framing.messageLength f.head = false
  | .reply => True
  | .release | .batchSize => False

/-- The ways to deal with a frame that is all there: the state behind it, and what is handed on. -/
inductive Serves (s : InboundSettings) (st : InboundState) (f : TypedFrame) :
    InboundState → List Message → Prop
  | refused (n : Nat) (reason : st.Refuses s f) :
    Serves s st f { st with metrics := st.metrics.countFault n } []
  | established (n : Nat) (kind : f.kind = .establish)
      (unknown : st.table.containsEdge f.field = false)
      (fit : fits s.framing.establishLength f.head = true) :
    Serves s st f
      ({ st with metrics := st.metrics.countReceived n }.establish f.field
        ((Frame.padded f.payload).take s.framing.establishLength)).1
      ({ st with metrics := st.metrics.countReceived n }.establish f.field
        ((Frame.padded f.payload).take s.framing.establishLength)).2
  | requested (n : Nat) (c : Channel) (kind : f.kind = .message)
      (known : st.channel? f.field = some c) (free : c.requestClaimed = false)
      (fit : fits s.framing.messageLength f.head = true) :
    Serves s st f
      { st with
        metrics := st.metrics.countReceived n
        registry := st.registry.modify c.id fun c => c.claimRequest.2 }
      [.message c.id ((Frame.padded f.payload).take s.framing.messageLength)]
  | opened (n : Nat) (kind : f.kind = .batchSize) :
    Serves s st f
      { st with
        metrics := st.metrics.countReceived n
        registry := st.registry.closeRequestRound }
      [.batchSize f.field]
  | released (n : Nat) (d : ChannelId) (kind : f.kind = .release)
      (known : st.table.localId? f.field = some d) :
    Serves s st f
      { st with
        metrics := st.metrics.countReceived n
        table := st.table.dropEdge f.field
        registry := st.registry.discard d }
      (if s.isLast then [] else [.release d])
  | forgotten (n : Nat) (kind : f.kind = .release) (unknown : st.table.localId? f.field = none) :
    Serves s st f { st with metrics := st.metrics.countReceived n } []

/-- A frame that is all there is dealt with in one of these ways, and only what is behind it is left. -/
theorem handle_serves (s : InboundSettings) (st : InboundState) (f : TypedFrame) (behind : Bytes) :
    ∃ t handedOn,
      st.handle s f.head (f.payload.drop Frame.headPayloadLength ++ behind) =
        ⟨none, t, handedOn, behind⟩ ∧ Serves s st f t handedOn := by
  obtain ⟨hremaining, hlong⟩ := f.head_remaining behind
  have hskip (after : Nat → InboundState) (handedOn : List Message) :
      Handled.skip st after handedOn f.head (f.payload.drop Frame.headPayloadLength ++ behind) =
        ⟨none, after f.head.remaining, handedOn, behind⟩ := by
    rw [Handled.skip_of_long hlong, hremaining, List.drop_left]
  have htake (after : Bytes → InboundState × List Message) :
      Handled.take st after f.head (f.payload.drop Frame.headPayloadLength ++ behind) =
        ⟨none, (after (Frame.padded f.payload)).1, (after (Frame.padded f.payload)).2, behind⟩ := by
    rw [Handled.take_of_long hlong, hremaining, List.take_left, List.drop_left]
    rfl
  have hrefuse (reason : st.Refuses s f) : ∃ t handedOn,
      st.refuse f.head (f.payload.drop Frame.headPayloadLength ++ behind) =
        ⟨none, t, handedOn, behind⟩ ∧ Serves s st f t handedOn :=
    ⟨_, _, hskip _ _, .refused f.head.remaining reason⟩
  have hkind : f.head.kind = f.kind := rfl
  have hfield : f.head.field = f.field := rfl
  unfold handle
  cases hk : f.kind with
  | establish =>
    rw [hkind, hk]
    dsimp only
    unfold onEstablish
    rw [hfield]
    cases hknown : st.table.containsEdge f.field with
    | true =>
      rw [if_pos rfl]
      exact hrefuse (by rw [Refuses, hk]; exact .inl hknown)
    | false =>
      rw [if_neg nofun]
      cases hfit : fits s.framing.establishLength f.head with
      | true =>
        rw [if_pos rfl, htake]
        exact ⟨_, _, rfl, .established _ hk hknown hfit⟩
      | false =>
        rw [if_neg nofun]
        exact hrefuse (by rw [Refuses, hk]; exact .inr hfit)
  | message =>
    rw [hkind, hk]
    dsimp only
    unfold onMessage
    rw [hfield]
    cases hc : st.channel? f.field with
    | none => exact hrefuse (by rw [Refuses, hk]; simp [hc])
    | some c =>
      dsimp only
      cases hfree : c.requestClaimed with
      | true =>
        rw [if_pos rfl]
        exact hrefuse (by rw [Refuses, hk]; simp [hc, hfree])
      | false =>
        rw [if_neg nofun]
        cases hfit : fits s.framing.messageLength f.head with
        | true =>
          rw [if_pos rfl, htake]
          exact ⟨_, _, rfl, .requested _ c hk hc hfree hfit⟩
        | false =>
          rw [if_neg nofun]
          exact hrefuse (by rw [Refuses, hk]; simp [hc, hfit])
  | release =>
    rw [hkind, hk]
    dsimp only
    unfold onRelease
    rw [hfield]
    dsimp only
    cases hd : st.table.localId? f.field with
    | none =>
      dsimp only
      rw [hskip]
      exact ⟨_, _, rfl, .forgotten _ hk hd⟩
    | some d =>
      dsimp only
      rw [hskip]
      exact ⟨_, _, rfl, .released _ d hk hd⟩
  | batchSize =>
    rw [hkind, hk]
    dsimp only
    unfold onBatchSize
    rw [hskip]
    exact ⟨_, _, rfl, .opened _ hk⟩
  | reply =>
    rw [hkind, hk]
    exact hrefuse (by rw [Refuses, hk]; trivial)

theorem receive_of_leads (s : InboundSettings) (st : InboundState)
    (h : TypedFrame.Leads s.maxFrameLength ks input f behind) :
    ∃ t handedOn, st.receive s ks input = ⟨none, t, handedOn, behind, ks.advance⟩ ∧
      Serves s st f t handedOn := by
  have hhead : (Frame.readHead s.maxFrameLength ks input).answer = .ok f.head :=
    congrArg ReadResult.answer h
  obtain ⟨t, handedOn, hhandle, hserves⟩ := handle_serves s st f behind
  refine ⟨t, handedOn, ?_, hserves⟩
  rw [receive, receiveFrame_of_ok hhead, h, hhandle]

/-- Whatever a handler does with a frame, it first takes the payload or passes over it, and the state
from which it does so is the one that it has found. -/
theorem handle_cases (s : InboundSettings) (st : InboundState) (h : FrameHead) (input : Bytes) :
    (∃ after handedOn, st.handle s h input = Handled.skip st after handedOn h input) ∨
      ∃ after, st.handle s h input = Handled.take st after h input := by
  unfold handle
  split
  · unfold onEstablish
    split
    · exact .inl ⟨_, _, rfl⟩
    · split
      · exact .inr ⟨_, rfl⟩
      · exact .inl ⟨_, _, rfl⟩
  · unfold onMessage
    split
    · exact .inl ⟨_, _, rfl⟩
    · split
      · exact .inl ⟨_, _, rfl⟩
      · split
        · exact .inr ⟨_, rfl⟩
        · exact .inl ⟨_, _, rfl⟩
  · unfold onRelease
    dsimp only
    split <;> exact .inl ⟨_, _, rfl⟩
  · exact .inl ⟨_, _, rfl⟩
  · exact .inl ⟨_, _, rfl⟩

/-- What a frame comes to does not depend on the bytes behind it. -/
theorem handle_append (s : InboundSettings) (st : InboundState) {h : FrameHead}
    (hlong : h.remaining ≤ input.length) (behind : Bytes) :
    (st.handle s h (input ++ behind)).state = (st.handle s h input).state ∧
      (st.handle s h (input ++ behind)).handedOn = (st.handle s h input).handedOn := by
  have hboth : h.remaining ≤ (input ++ behind).length := by
    rw [List.length_append]
    omega
  have hskip (after : Nat → InboundState) (handedOn : List Message) :
      (Handled.skip st after handedOn h (input ++ behind)).state =
          (Handled.skip st after handedOn h input).state ∧
        (Handled.skip st after handedOn h (input ++ behind)).handedOn =
          (Handled.skip st after handedOn h input).handedOn := by
    rw [Handled.skip_of_long hboth, Handled.skip_of_long hlong]
    exact ⟨rfl, rfl⟩
  have htake (after : Bytes → InboundState × List Message) :
      (Handled.take st after h (input ++ behind)).state = (Handled.take st after h input).state ∧
        (Handled.take st after h (input ++ behind)).handedOn =
          (Handled.take st after h input).handedOn := by
    rw [Handled.take_of_long hboth, Handled.take_of_long hlong,
      List.take_append_of_le_length hlong]
    exact ⟨rfl, rfl⟩
  cases hk : h.kind with
  | establish =>
    simp only [handle, hk, onEstablish, refuse]
    split
    · exact hskip _ _
    · split
      · exact htake _
      · exact hskip _ _
  | message =>
    simp only [handle, hk, onMessage, refuse]
    split
    · exact hskip _ _
    · split
      · exact hskip _ _
      · split
        · exact htake _
        · exact hskip _ _
  | release =>
    simp only [handle, hk, onRelease]
    split <;> exact hskip _ _
  | batchSize =>
    simp only [handle, hk, onBatchSize]
    exact hskip _ _
  | reply =>
    simp only [handle, hk, refuse]
    exact hskip _ _

/-- A frame that is not all there leaves the state as it is. -/
theorem handle_of_short (s : InboundSettings) (st : InboundState) {head : FrameHead}
    (hshort : input.length < head.remaining) :
    ∃ e, (e = .shortRead ∨ e = .endOfStream) ∧
      st.handle s head input = ⟨some (.transfer e), st, [], []⟩ := by
  rcases handle_cases s st head input with ⟨after, handedOn, hskip⟩ | ⟨after, htake⟩
  · exact ⟨_, .inr rfl, hskip.trans (Handled.skip_of_short hshort after handedOn)⟩
  · exact ⟨_, .inl rfl, htake.trans (Handled.take_of_short hshort after)⟩

theorem receive_of_lacks (s : InboundSettings) (st : InboundState)
    (h : Frame.Lacks s.maxFrameLength ks input) :
    ∃ e rest ks', st.receive s ks input = ⟨some e, st, [], rest, ks'⟩ := by
  cases hhead : (Frame.readHead s.maxFrameLength ks input).answer with
  | error e =>
    rw [receive, receiveFrame_of_error hhead]
    exact ⟨e, _, _, rfl⟩
  | ok head =>
    obtain ⟨e, -, hhandle⟩ := st.handle_of_short s (h head hhead)
    rw [receive, receiveFrame_of_ok hhead, hhandle]
    exact ⟨_, _, _, rfl⟩

end InboundState

namespace InboundEdge
variable {e : InboundEdge} {f : TypedFrame} {behind : Bytes}

/-- The keystream with which the next request is read. -/
def requestKeystream (e : InboundEdge) : HeaderKeystream :=
  (e.receiver.forGeneration e.connection.generation).keystream

/-- Whatever is received, the connection is kept or given up, and the cipher goes on with it. -/
theorem receiveNext?_wires {r r' : ChannelRegistry} {handedOn : List Message} {e' : InboundEdge}
    (h : e.receiveNext? r = some (handedOn, e', r')) :
    e'.sender = e.sender ∧ e'.ended = e.ended ∧
      (e'.connection = e.connection ∨ e'.connection = e.connection.takeDown) ∧
      (e'.receiver = ⟨e.requestKeystream, e.connection.generation⟩ ∨
        e'.receiver = ⟨e.requestKeystream.advance, e.connection.generation⟩) := by
  unfold receiveNext? at h
  split at h
  · cases h
  · dsimp only at h
    split at h
    · cases h
    · obtain ⟨-, rfl, -⟩ := Prod.mk.inj (Option.some.inj h) |>.imp_right Prod.mk.inj
      have hks := receiveFrame_keystream e.settings.maxFrameLength
        (InboundState.handle e.settings ⟨r, e.table, e.metrics, e.draws⟩)
        ⟨r, e.table, e.metrics, e.draws⟩ e.requestKeystream e.unread
      rw [EdgeCipher.generation_forGeneration]
      split
      · unfold drop EdgeConnection.invalidate
        dsimp only
        refine ⟨rfl, rfl, ?_, ?_⟩
        · split
          · exact .inr rfl
          · exact .inl rfl
        · exact hks.imp (congrArg (EdgeCipher.mk · _)) (congrArg (EdgeCipher.mk · _))
      · exact ⟨rfl, rfl, .inl rfl, hks.imp (congrArg (EdgeCipher.mk · _)) (congrArg (EdgeCipher.mk · _))⟩

/-- The next request frame is received once it is all there. -/
theorem receiveNext?_of_leads (hc : e.isConnected = true) (r : ChannelRegistry)
    (h : TypedFrame.Leads e.settings.maxFrameLength e.requestKeystream e.unread f behind) :
    ∃ t handedOn,
      e.receiveNext? r = some (handedOn, { e with
        receiver := ⟨e.requestKeystream.advance, e.connection.generation⟩
        table := t.table
        metrics := t.metrics
        draws := t.draws
        unread := behind }, t.registry) ∧
      InboundState.Serves e.settings ⟨r, e.table, e.metrics, e.draws⟩ f t handedOn := by
  obtain ⟨t, handedOn, hreceive, hserves⟩ :=
    InboundState.receive_of_leads e.settings ⟨r, e.table, e.metrics, e.draws⟩ h
  have hunread : e.unread ≠ [] := List.ne_nil_of_length_pos h.lt_length
  exact ⟨t, handedOn, receiveNext?_of_receive hc hunread hreceive, hserves⟩

/-- Without the next frame nothing changes but the connection, which may be given up. -/
theorem receiveNext?_of_lacks (hc : e.isConnected = true) (r : ChannelRegistry)
    (h : Frame.Lacks e.settings.maxFrameLength e.requestKeystream e.unread) :
    e.receiveNext? r = none ∨ ∃ ks, e.receiveNext? r = some ([], { e with
      receiver := ⟨ks, e.connection.generation⟩
      connection := e.connection.takeDown
      unread := [] }, r) := by
  obtain ⟨error, rest, ks, hreceive⟩ :=
    InboundState.receive_of_lacks e.settings ⟨r, e.table, e.metrics, e.draws⟩ h
  have hlive : e.connection.isConnected = true := hc
  rw [requestKeystream] at hreceive
  unfold receiveNext?
  split
  · exact .inl rfl
  · dsimp only
    rw [hreceive, EdgeCipher.generation_forGeneration]
    split
    · exact .inl rfl
    · refine .inr ⟨ks, ?_⟩
      simp [drop, EdgeConnection.invalidate, hlive]

end InboundEdge

namespace OutboundEdge
variable {e : OutboundEdge} {f : TypedFrame} {behind : Bytes}

/-- The keystream with which the next reply is read. -/
def replyKeystream (e : OutboundEdge) : HeaderKeystream :=
  (e.receiver.forGeneration e.connection.generation).keystream

/-- Whatever is received, the cipher goes on with the connection, or the relay dials again. -/
theorem receiveNext?_wires {r r' : ChannelRegistry} {handedOn : List Message} {e' : OutboundEdge}
    (h : e.receiveNext? r = some (handedOn, e', r')) :
    ∃ ks metrics rest, (ks = e.replyKeystream ∨ ks = e.replyKeystream.advance) ∧
      (e' = { e with
        receiver := ⟨ks, e.connection.generation⟩
        metrics := metrics
        unread := rest } ∨
      e' = { e with
        receiver := ⟨ks, e.connection.generation⟩
        metrics := metrics
        unread := rest }.recover e.connection.generation) := by
  unfold receiveNext? at h
  split at h
  · cases h
  · dsimp only at h
    split at h
    · cases h
    · obtain ⟨-, rfl, -⟩ := Prod.mk.inj (Option.some.inj h) |>.imp_right Prod.mk.inj
      have hks := receiveFrame_keystream e.maxFrameLength
        (OutboundState.handle ⟨r, e.metrics⟩ e.table) ⟨r, e.metrics⟩ e.replyKeystream e.unread
      let got := OutboundState.receive e.maxFrameLength e.table ⟨r, e.metrics⟩ e.replyKeystream e.unread
      refine ⟨got.keystream, got.state.metrics, got.rest, hks, ?_⟩
      rw [EdgeCipher.generation_forGeneration]
      split
      · exact .inr rfl
      · exact .inl rfl

/-- The next reply frame is received once it is all there. What is handed on is its payload, under
the channel that the table has for its identifier. -/
theorem receiveNext?_of_leads (hc : e.isConnected = true) (hkind : f.kind = .reply)
    (r : ChannelRegistry)
    (h : TypedFrame.Leads e.maxFrameLength e.replyKeystream e.unread f behind) :
    ∃ metrics r' handedOn,
      e.receiveNext? r = some (handedOn, { e with
        receiver := ⟨e.replyKeystream.advance, e.connection.generation⟩
        metrics := metrics
        unread := behind }, r') ∧
      (handedOn = [] ∨ ∃ c, e.table.localId? f.field = some c ∧
        handedOn = [.reply c (Frame.padded f.payload)]) := by
  obtain ⟨kind, field, payload⟩ := f
  obtain rfl : kind = .reply := hkind
  let s : ReplyPath := ⟨e, r, [], .start false⟩
  have hstarts : Frame.Starts s.edge.maxFrameLength s.keystream s.edge.unread (field, payload) behind := h
  have hreceive := ReplyPath.receiveNext?_of_starts hc hstarts
  obtain ⟨-, hrest, hks, hhanded⟩ := OutboundState.receive_of_starts s.receiver s.edge.table hstarts
  refine ⟨s.reception.state.metrics, s.reception.state.registry, s.reception.handedOn, ?_, ?_⟩
  · have hpassed : s.passed = { e with
        receiver := ⟨e.replyKeystream.advance, e.connection.generation⟩
        metrics := s.reception.state.metrics
        unread := behind } := by
      rw [ReplyPath.passed, ReplyPath.reception, hrest, hks]
      rfl
    rw [← hpassed]
    exact hreceive
  · rcases hhanded with ⟨hnone, -, -⟩ | ⟨c, hc, -, hsome, -⟩
    · exact .inl hnone
    · obtain ⟨d, hd, hfind⟩ := Option.bind_eq_some_iff.1 hc
      refine .inr ⟨d, hd, ?_⟩
      rw [← ChannelRegistry.find?_some_id hfind]
      exact hsome

/-- Without the next frame nothing is handed on, and the relay waits or dials again. -/
theorem receiveNext?_of_lacks (r : ChannelRegistry)
    (h : Frame.Lacks e.maxFrameLength e.replyKeystream e.unread) :
    e.receiveNext? r = none ∨ ∃ ks metrics rest r',
      (ks = e.replyKeystream ∨ ks = e.replyKeystream.advance) ∧
      e.receiveNext? r = some ([], { e with
        receiver := ⟨ks, e.connection.generation⟩
        metrics := metrics
        unread := rest }.recover e.connection.generation, r') := by
  obtain ⟨error, t, rest, ks, hreceive⟩ := OutboundState.receive_of_lacks ⟨r, e.metrics⟩ e.table h
  have hks := receiveFrame_keystream e.maxFrameLength (OutboundState.handle ⟨r, e.metrics⟩ e.table)
    ⟨r, e.metrics⟩ e.replyKeystream e.unread
  rw [← OutboundState.receive, hreceive] at hks
  rw [replyKeystream] at hreceive
  unfold receiveNext?
  split
  · exact .inl rfl
  · dsimp only
    rw [hreceive, EdgeCipher.generation_forGeneration]
    split
    · exact .inl rfl
    · exact .inr ⟨ks, t.metrics, rest, t.registry, hks, rfl⟩

end OutboundEdge

end MixRelay
