import MixRelay.Proofs.LaterRelay

/-!
# Frames that break off

A stream may end within its next frame, announce a length that is out of range, or show a kind that
there is not. The receiver changes nothing before it has the frame as a whole, so in all these cases it
leaves the relay as it was, whatever frame it was about to deal with.
-/
namespace MixRelay

namespace Frame

/-- The length that stands in front of the next frame. -/
def announced (input : Bytes) : Nat := Bytes.toNat (input.take 4)

/-- The header block of the next frame in the clear. -/
def clearBlock (ks : HeaderKeystream) (input : Bytes) : Block :=
  ks.mask (Block.ofList ((input.drop 4).take 16))

/-- What keeps the next frame of a stream from being received, with the error that tells it. What is
missing at the end is an end of the stream to whoever passes over it. -/
inductive Breaks (maxLength : Nat) (ks : HeaderKeystream) (input : Bytes) : FrameError → Prop
  | word (short : input.length < 4) : Breaks maxLength ks input (.transfer .shortRead)
  | tooShort (word : 4 ≤ input.length) (small : announced input < 16) :
    Breaks maxLength ks input (.tooShort (announced input))
  | tooLong (word : 4 ≤ input.length) (least : 16 ≤ announced input)
      (large : maxLength < announced input) :
    Breaks maxLength ks input (.tooLong (announced input) maxLength)
  | block (word : 4 ≤ input.length) (least : 16 ≤ announced input)
      (most : announced input ≤ maxLength) (short : input.length < 20) :
    Breaks maxLength ks input (.transfer .shortRead)
  | kind (block : 20 ≤ input.length) (least : 16 ≤ announced input)
      (most : announced input ≤ maxLength)
      (unknown : MessageKind.ofCode? ((clearBlock ks input).toList.getD 0 0) = none) :
    Breaks maxLength ks input (.unknownKind ((clearBlock ks input).toList.getD 0 0))
  | tail (block : 20 ≤ input.length) (least : 16 ≤ announced input)
      (most : announced input ≤ maxLength)
      (known : MessageKind.ofCode? ((clearBlock ks input).toList.getD 0 0) ≠ none)
      (short : input.length < 4 + announced input) {error : TransferError}
      (ends : error = .shortRead ∨ error = .endOfStream) :
    Breaks maxLength ks input (.transfer error)

variable {maxLength : Nat} {ks : HeaderKeystream} {input : Bytes}

/-- A head is read, or the frame breaks before it. -/
theorem readHead_cases (maxLength : Nat) (ks : HeaderKeystream) (input : Bytes) :
    (∃ e, (readHead maxLength ks input).answer = .error e ∧ Breaks maxLength ks input e) ∨
      ∃ h, (readHead maxLength ks input).answer = .ok h ∧ h.length = announced input ∧
        (readHead maxLength ks input).rest = input.drop 20 ∧ 20 ≤ input.length ∧
        16 ≤ announced input ∧ announced input ≤ maxLength ∧
        MessageKind.ofCode? ((clearBlock ks input).toList.getD 0 0) ≠ none := by
  by_cases hword : input.length < 4
  · refine .inl ⟨_, ?_, .word hword⟩
    rw [readHead, if_pos hword]
  have hfour := Nat.le_of_not_lt hword
  rw [readHead_of_word maxLength ks hfour, ← announced]
  dsimp only
  by_cases hsmall : announced input < 16
  · rw [if_pos hsmall]
    exact .inl ⟨_, rfl, .tooShort hfour hsmall⟩
  have hleast := Nat.le_of_not_lt hsmall
  rw [if_neg hsmall]
  by_cases hlarge : maxLength < announced input
  · rw [if_pos hlarge]
    exact .inl ⟨_, rfl, .tooLong hfour hleast hlarge⟩
  have hmost := Nat.le_of_not_lt hlarge
  rw [if_neg hlarge, List.length_drop]
  by_cases hblock : input.length - 4 < 16
  · rw [if_pos hblock]
    exact .inl ⟨_, rfl, .block hfour hleast hmost (by omega)⟩
  have htwenty : 20 ≤ input.length := by omega
  rw [if_neg hblock, ← clearBlock, List.drop_drop]
  unfold headOfBlock
  dsimp only
  cases hkind : MessageKind.ofCode? ((clearBlock ks input).toList.getD 0 0) with
  | none => exact .inl ⟨_, rfl, .kind htwenty hleast hmost hkind⟩
  | some k => exact .inr ⟨_, rfl, rfl, rfl, htwenty, hleast, hmost, Option.some_ne_none k⟩

end Frame

namespace InboundState
variable {s : InboundSettings} {st : InboundState} {ks : HeaderKeystream} {input : Bytes}

/-- A frame that is all there is dealt with. -/
theorem handle_of_long (s : InboundSettings) (st : InboundState) {h : FrameHead}
    (hlong : h.remaining ≤ input.length) : (st.handle s h input).failure = none := by
  rcases handle_cases s st h input with ⟨after, handedOn, hskip⟩ | ⟨after, htake⟩
  · rw [hskip, Handled.skip_of_long hlong]
  · rw [htake, Handled.take_of_long hlong]

/-- A frame is received without failure, or it breaks and nothing has changed. -/
theorem receive_breaks (s : InboundSettings) (st : InboundState) (ks : HeaderKeystream)
    (input : Bytes) :
    ((st.receive s ks input).failure = none ∧ ∀ e, ¬ Frame.Breaks s.maxFrameLength ks input e) ∨
      ∃ e, (st.receive s ks input).failure = some e ∧ Frame.Breaks s.maxFrameLength ks input e ∧
        (st.receive s ks input).state = st ∧ (st.receive s ks input).handedOn = [] := by
  rcases Frame.readHead_cases s.maxFrameLength ks input with
    ⟨e, hanswer, hbreaks⟩ | ⟨h, hanswer, hlength, hrest, hblock, hleast, hmost, hknown⟩
  · rw [receive, receiveFrame_of_error hanswer]
    exact .inr ⟨e, rfl, hbreaks, rfl, rfl⟩
  rw [receive, receiveFrame_of_ok hanswer]
  dsimp only
  rw [hrest]
  have hremaining : h.remaining = Frame.announced input - 16 := congrArg (· - 16) hlength
  by_cases hshort : input.length < 4 + Frame.announced input
  · have hmissing : (input.drop 20).length < h.remaining := by
      rw [hremaining, List.length_drop]
      omega
    obtain ⟨e, hends, hhandle⟩ := st.handle_of_short s hmissing
    rw [hhandle]
    exact .inr ⟨_, rfl, .tail hblock hleast hmost hknown hshort hends, rfl, rfl⟩
  · have hthere : h.remaining ≤ (input.drop 20).length := by
      rw [hremaining, List.length_drop]
      omega
    refine .inl ⟨st.handle_of_long s hthere, fun e hbreaks => ?_⟩
    cases hbreaks with
    | word | block => omega
    | tooShort | tooLong => omega
    | kind _ _ _ unknown => exact hknown unknown
    | tail => omega

end InboundState

/-- A relay whose next frame breaks gives the connection up, or waits for the rest of the frame. -/
theorem LaterRelay.receive_of_failure {relay : LaterRelay}
    (h : (relay.inbound.receive relay.edge.settings relay.edge.requestKeystream
      relay.edge.unread).failure ≠ none) :
    relay.receive.1 = [] ∧ ∃ connection receiver unread, relay.receive.2 = { relay with
      edge := { relay.edge with
        connection := connection
        receiver := receiver
        unread := unread } } := by
  have hstays (hnone : relay.edge.receiveNext? relay.registry = none) :
      relay.receive = ([], relay) := by rw [LaterRelay.receive, hnone]
  cases hc : relay.edge.isConnected with
  | false =>
    have hnone : relay.edge.receiveNext? relay.registry = none := by
      unfold InboundEdge.receiveNext?
      rw [hc]
      rfl
    rw [hstays hnone]
    exact ⟨rfl, _, _, _, rfl⟩
  | true =>
    rcases TypedFrame.lacks_or_leads_of_input relay.edge.settings.maxFrameLength
        relay.edge.requestKeystream relay.edge.unread with hlacks | ⟨f, behind, hleads⟩
    · rcases InboundEdge.receiveNext?_of_lacks hc relay.registry hlacks with hnone | ⟨ks, hdown⟩
      · rw [hstays hnone]
        exact ⟨rfl, _, _, _, rfl⟩
      · rw [LaterRelay.receive, hdown]
        dsimp only
        rw [List.append_nil]
        exact ⟨rfl, _, _, _, rfl⟩
    · obtain ⟨t, handedOn, hreceive, -⟩ :=
        InboundState.receive_of_leads relay.edge.settings relay.inbound hleads
      exact absurd (by rw [hreceive]) h

/-- Receiving from the previous relay fails exactly if the next frame breaks. Then the channels with
their flags, the rounds, the names on the edge and the counters are what they were before, and nothing
is handed on; of the whole relay only the connection and what is to be read from it may change. -/
theorem broken_frames_change_nothing :
    (∀ (s : InboundSettings) (st : InboundState) (ks : HeaderKeystream) (input : Bytes),
      let got := st.receive s ks input
      (got.failure = none ↔ ∀ e, ¬ Frame.Breaks s.maxFrameLength ks input e) ∧
        ∀ e, got.failure = some e →
          Frame.Breaks s.maxFrameLength ks input e ∧ got.state = st ∧ got.handedOn = []) ∧
      ∀ relay : LaterRelay,
        (relay.inbound.receive relay.edge.settings relay.edge.requestKeystream
          relay.edge.unread).failure ≠ none →
        relay.receive.1 = [] ∧ ∃ connection receiver unread, relay.receive.2 = { relay with
          edge := { relay.edge with
            connection := connection
            receiver := receiver
            unread := unread } } := by
  refine ⟨fun s st ks input => ?_, fun relay => LaterRelay.receive_of_failure⟩
  rcases st.receive_breaks s ks input with ⟨hnone, hwhole⟩ | ⟨e, hfailed, hbreaks, hstate, hhanded⟩
  · refine ⟨iff_of_true hnone hwhole, fun e hfailed => ?_⟩
    rw [hnone] at hfailed
    cases hfailed
  · refine ⟨iff_of_false (by rw [hfailed]; exact nofun) fun hwhole => hwhole e hbreaks,
      fun other hother => ?_⟩
    cases hfailed.symm.trans hother
    exact ⟨hbreaks, hstate, hhanded⟩

end MixRelay
