import MixRelay.InboundEdge
import MixRelay.Proofs.FragmentedFrames
import MixRelay.Proofs.ReplySlots

/-!
# Receivers stay aligned with their streams

Whatever a receiver makes of a frame, it takes it off the stream as a whole: the length, the header
block and all that the length announces behind it. Each frame is counted once, as one that was received
or as a fault, so the counters add up to the bytes that were read.
-/
namespace MixRelay

/-- A frame as it stands on a stream: the header block as it is hidden, and what follows the block. -/
structure WireFrame where
  block : Block
  rest : Bytes

namespace WireFrame

/-- What the length in front of the frame says. -/
def length (f : WireFrame) : Nat := 16 + f.rest.length

def bytes (f : WireFrame) : Bytes := Bytes.ofWord f.length ++ (f.block.toList ++ f.rest)

/-- The length is in range, and the header block shows one of the five kinds. -/
structure WellFramed (maxLength : Nat) (ks : HeaderKeystream) (f : WireFrame) : Prop where
  fits : f.length ≤ maxLength
  word : f.length < 2 ^ 32
  known : MessageKind.ofCode? ((ks.mask f.block).toList.getD 0 0) ≠ none

variable {maxLength : Nat} {ks : HeaderKeystream} {f : WireFrame}

theorem length_bytes (f : WireFrame) : f.bytes.length = 20 + f.rest.length := by
  rw [bytes, List.length_append, List.length_append, Bytes.length_ofWord, Vector.length_toList]
  omega

theorem headOfBlock_of_known {block : Block} (n : Nat)
    (h : MessageKind.ofCode? (block.toList.getD 0 0) ≠ none) :
    ∃ head, Frame.headOfBlock n block = .ok head ∧ head.length = n := by
  obtain ⟨kind, hkind⟩ := Option.ne_none_iff_exists'.1 h
  unfold Frame.headOfBlock
  dsimp only
  rw [hkind]
  exact ⟨_, rfl, rfl⟩

/-- The head is read with one block of the keystream, and the rest of the frame is left. -/
theorem WellFramed.readHead (h : f.WellFramed maxLength ks) (behind : Bytes) :
    ∃ head, Frame.readHead maxLength ks (f.bytes ++ behind) =
        ⟨.ok head, f.rest ++ behind, ks.advance⟩ ∧ head.length = f.length := by
  obtain ⟨head, hhead, hlength⟩ := headOfBlock_of_known f.length h.known
  refine ⟨head, ?_, hlength⟩
  have hblock : f.block.toList.length = 16 := Vector.length_toList
  have hword : Bytes.toNat (Bytes.ofWord f.length) = f.length := Bytes.toNat_ofWord_of_lt h.word
  have htake : (f.bytes ++ behind).take 4 = Bytes.ofWord f.length := rfl
  have hdrop : (f.bytes ++ behind).drop 4 = f.block.toList ++ (f.rest ++ behind) :=
    List.append_assoc f.block.toList f.rest behind
  have hfront : (f.block.toList ++ (f.rest ++ behind)).take 16 = f.block.toList :=
    List.take_left' hblock
  have hback : (f.block.toList ++ (f.rest ++ behind)).drop 16 = f.rest ++ behind :=
    List.drop_left' hblock
  have hfour : ¬ (f.bytes ++ behind).length < 4 := by
    rw [List.length_append, length_bytes]
    omega
  have hmin : ¬ f.length < 16 := Nat.not_lt.2 (Nat.le_add_right 16 _)
  have hsixteen : ¬ (f.block.toList ++ (f.rest ++ behind)).length < 16 := by
    rw [List.length_append, hblock]
    omega
  simp only [Frame.readHead, if_neg hfour, htake, hdrop, hword, if_neg hmin,
    if_neg (Nat.not_lt.2 h.fits), if_neg hsixteen, hfront, hback, Block.ofList_toList, hhead]

end WireFrame

namespace LinkMetrics

/-- The counters that a receiver writes. -/
def received (m : LinkMetrics) : Nat × Nat × Nat × Nat :=
  (m.framesReceived, m.bytesReceived, m.protocolFaults, m.skippedBytes)

/-- The bytes that the counters speak for: of a fault, the length and the header block are not among
the skipped bytes. -/
def bytesRead (m : LinkMetrics) : Nat := m.bytesReceived + m.skippedBytes + 20 * m.protocolFaults

/-- The frames that the counters speak for. -/
def framesRead (m : LinkMetrics) : Nat := m.framesReceived + m.protocolFaults

/-- One more frame, as one that was received or as a fault. -/
inductive Counts (m : LinkMetrics) (f : WireFrame) : LinkMetrics → Prop
  | received : Counts m f (m.countReceived f.bytes.length)
  | fault : Counts m f (m.countFault f.rest.length)

variable {m m' : LinkMetrics} {f : WireFrame}

theorem bytesRead_congr (h : m'.received = m.received) : m'.bytesRead = m.bytesRead := by
  obtain ⟨-, hbytes, hfaults, hskipped⟩ : _ ∧ _ ∧ _ ∧ _ := by simpa only [received, Prod.mk.injEq] using h
  rw [bytesRead, bytesRead, hbytes, hfaults, hskipped]

theorem framesRead_congr (h : m'.received = m.received) : m'.framesRead = m.framesRead := by
  obtain ⟨hframes, -, hfaults, -⟩ : _ ∧ _ ∧ _ ∧ _ := by simpa only [received, Prod.mk.injEq] using h
  rw [framesRead, framesRead, hframes, hfaults]

theorem Counts.bytesRead (h : Counts m f m') : m'.bytesRead = m.bytesRead + f.bytes.length := by
  cases h with
  | received =>
    simp only [LinkMetrics.bytesRead, countReceived]
    omega
  | fault =>
    rw [f.length_bytes]
    simp only [LinkMetrics.bytesRead, countFault]
    omega

theorem Counts.framesRead (h : Counts m f m') : m'.framesRead = m.framesRead + 1 := by
  cases h with
  | received => exact Nat.add_right_comm _ _ _
  | fault => exact (Nat.add_assoc _ _ _).symm

end LinkMetrics

section Aligned
variable {σ : Type}

/-- A handler deals with the rest of a frame as a whole. -/
structure Handled.Whole (metrics : σ → LinkMetrics) (state : σ) (f : WireFrame) (behind : Bytes)
    (done : Handled σ) : Prop where
  failure : done.failure = none
  rest : done.rest = behind
  counts : (metrics state).Counts f (metrics done.state)

/-- One frame has been received: without failure, exactly its bytes are gone, and one block of the
keystream. -/
structure Reception.Whole (metrics : σ → LinkMetrics) (state : σ) (ks : HeaderKeystream)
    (f : WireFrame) (behind : Bytes) (got : Reception σ) : Prop where
  failure : got.failure = none
  rest : got.rest = behind
  keystream : got.keystream = ks.advance
  counts : (metrics state).Counts f (metrics got.state)

variable {metrics : σ → LinkMetrics} {state : σ} {f : WireFrame} {behind : Bytes} {head : FrameHead}

theorem remaining_of_length (hhead : head.length = f.length) : head.remaining = f.rest.length := by
  rw [FrameHead.remaining, hhead, WireFrame.length]
  omega

theorem remaining_le_append (hhead : head.length = f.length) (behind : Bytes) :
    head.remaining ≤ (f.rest ++ behind).length := by
  rw [remaining_of_length hhead, List.length_append]
  exact Nat.le_add_right _ _

theorem drop_remaining (hhead : head.length = f.length) (behind : Bytes) :
    (f.rest ++ behind).drop head.remaining = behind := by
  rw [remaining_of_length hhead, List.drop_left]

theorem counts_received (hhead : head.length = f.length) (m : LinkMetrics) :
    m.Counts f (m.countReceived head.wireLength) := by
  have hwire : head.wireLength = f.bytes.length := by
    rw [FrameHead.wireLength, hhead, f.length_bytes, WireFrame.length, ← Nat.add_assoc]
  exact hwire ▸ .received

/-- Passing over what is left of a frame. -/
theorem Handled.whole_skip (hhead : head.length = f.length) {after : Nat → σ}
    (hafter : (metrics state).Counts f (metrics (after f.rest.length))) (handedOn : List Message) :
    Whole metrics state f behind (Handled.skip state after handedOn head (f.rest ++ behind)) := by
  rw [Handled.skip_of_long (remaining_le_append hhead behind), drop_remaining hhead,
    remaining_of_length hhead]
  exact ⟨rfl, rfl, hafter⟩

/-- Taking what is left of a frame. -/
theorem Handled.whole_take (hhead : head.length = f.length) {after : Bytes → σ × List Message}
    (hafter : ∀ payload, metrics (after payload).1 = (metrics state).countReceived head.wireLength) :
    Whole metrics state f behind (Handled.take state after head (f.rest ++ behind)) := by
  rw [Handled.take_of_long (remaining_le_append hhead behind), drop_remaining hhead]
  refine ⟨rfl, rfl, ?_⟩
  rw [hafter]
  exact counts_received hhead _

theorem receiveFrame_whole {maxLength : Nat} {handle : FrameHead → Bytes → Handled σ}
    {ks : HeaderKeystream} (hf : f.WellFramed maxLength ks)
    (hhandle : ∀ head, head.length = f.length →
      Handled.Whole metrics state f behind (handle head (f.rest ++ behind))) :
    Reception.Whole metrics state ks f behind
      (receiveFrame maxLength handle state ks (f.bytes ++ behind)) := by
  obtain ⟨head, hread, hhead⟩ := hf.readHead behind
  have hanswer : (Frame.readHead maxLength ks (f.bytes ++ behind)).answer = .ok head :=
    congrArg ReadResult.answer hread
  obtain ⟨hfailure, hrest, hcounts⟩ := hhandle head hhead
  rw [receiveFrame_of_ok hanswer, hread]
  exact ⟨hfailure, hrest, rfl, hcounts⟩

end Aligned

namespace InboundState
variable {s : InboundSettings} {st : InboundState} {f : WireFrame} {behind : Bytes} {head : FrameHead}

theorem handle_whole (s : InboundSettings) (st : InboundState) (hhead : head.length = f.length)
    (behind : Bytes) :
    Handled.Whole InboundState.metrics st f behind (st.handle s head (f.rest ++ behind)) := by
  have hrefuse : Handled.Whole InboundState.metrics st f behind (st.refuse head (f.rest ++ behind)) :=
    Handled.whole_skip hhead .fault []
  unfold handle
  split
  · unfold onEstablish
    split
    · exact hrefuse
    · split
      · exact Handled.whole_take hhead fun _ => rfl
      · exact hrefuse
  · unfold onMessage
    split
    · exact hrefuse
    · split
      · exact hrefuse
      · split
        · exact Handled.whole_take hhead fun _ => rfl
        · exact hrefuse
  · unfold onRelease
    dsimp only
    split <;> exact Handled.whole_skip hhead (counts_received hhead _) _
  · exact Handled.whole_skip hhead (counts_received hhead _) _
  · exact hrefuse

end InboundState

namespace OutboundState
variable {st : OutboundState} {f : WireFrame} {behind : Bytes} {head : FrameHead}

theorem handle_whole (table : EdgeIdTable) (st : OutboundState) (hhead : head.length = f.length)
    (behind : Bytes) :
    Handled.Whole OutboundState.metrics st f behind (st.handle table head (f.rest ++ behind)) := by
  have hrefuse : Handled.Whole OutboundState.metrics st f behind (st.refuse head (f.rest ++ behind)) :=
    Handled.whole_skip hhead .fault []
  rcases handle_cases st table head (f.rest ++ behind) with ⟨hrefused, -⟩ | ⟨c, -, -, -, htaken⟩
  · rw [hrefused]
    exact hrefuse
  · rw [htaken]
    have htake : Handled.Whole OutboundState.metrics { st with registry := st.claimed c.id } f behind
        (st.takeReply c.id head (f.rest ++ behind)) := Handled.whole_take hhead fun _ => rfl
    exact ⟨htake.failure, htake.rest, htake.counts⟩

/-- Receiving a reply reads the table of the edge, which other threads change. -/
def receiveWith (maxFrameLength : Nat) (st : EdgeIdTable × OutboundState) (ks : HeaderKeystream)
    (input : Bytes) : Reception (EdgeIdTable × OutboundState) :=
  let got := st.2.receive maxFrameLength st.1 ks input
  ⟨got.failure, (st.1, got.state), got.handedOn, got.rest, got.keystream⟩

end OutboundState

/-- A receiver in the midst of a stream. -/
structure StreamPosition (σ : Type) where
  state : σ
  keystream : HeaderKeystream
  unread : Bytes

/-- The other threads change the state, and then a frame is received. -/
structure ReceiverTurn (σ : Type) where
  change : σ → σ
  frame : WireFrame

section Runs
variable {σ : Type} (metrics : σ → LinkMetrics)
  (receive : σ → HeaderKeystream → Bytes → Reception σ)

def StreamPosition.reception (p : StreamPosition σ) (t : ReceiverTurn σ) : Reception σ :=
  receive (t.change p.state) p.keystream p.unread

def StreamPosition.next (p : StreamPosition σ) (t : ReceiverTurn σ) : StreamPosition σ :=
  let got := p.reception receive t
  ⟨got.state, got.keystream, got.rest⟩

/-- The bytes of the frames of some turns. -/
def ReceiverTurn.bytesOf (turns : List (ReceiverTurn σ)) : Bytes := turns.flatMap fun t => t.frame.bytes

/-- What stands before each turn is a frame, and the other threads leave the receiver's counters alone. -/
def ReceiverTurn.Fair (maxLength : Nat) (ks : HeaderKeystream) (t : ReceiverTurn σ) : Prop :=
  t.frame.WellFramed maxLength ks ∧
    ∀ st, (metrics (t.change st)).received = (metrics st).received

/-- A receiver takes one frame after the other, whatever state it is in and whatever the other threads
do in between. -/
structure StaysAligned (maxLength : Nat) : Prop where
  frame : ∀ (st : σ) (ks : HeaderKeystream) (f : WireFrame) (behind : Bytes),
    f.WellFramed maxLength ks →
      Reception.Whole metrics st ks f behind (receive st ks (f.bytes ++ behind))
  run : ∀ (turns : List (ReceiverTurn σ)) (st : σ) (ks : HeaderKeystream) (behind : Bytes),
    Along (fun ks _ => ks.advance) (ReceiverTurn.Fair metrics maxLength) ks turns →
      let p : StreamPosition σ := ⟨st, ks, ReceiverTurn.bytesOf turns ++ behind⟩
      let q := turns.foldl (StreamPosition.next receive) p
      outputs (StreamPosition.next receive) (fun p t => (p.reception receive t).failure.toList) p turns = [] ∧
        q.unread = behind ∧
        q.keystream = { ks with position := ks.position + turns.length } ∧
        (metrics q.state).bytesRead = (metrics st).bytesRead + (ReceiverTurn.bytesOf turns).length ∧
        (metrics q.state).framesRead = (metrics st).framesRead + turns.length

variable {metrics receive} {maxLength : Nat}

theorem ReceiverTurn.bytesOf_cons (t : ReceiverTurn σ) (turns : List (ReceiverTurn σ)) :
    bytesOf (t :: turns) = t.frame.bytes ++ bytesOf turns := List.flatMap_cons

/-- One turn takes its frame, and counts it on top of what was counted before. -/
theorem StreamPosition.next_of_fair
    (hframe : ∀ (st : σ) (ks : HeaderKeystream) (f : WireFrame) (behind : Bytes),
      f.WellFramed maxLength ks →
        Reception.Whole metrics st ks f behind (receive st ks (f.bytes ++ behind)))
    {t : ReceiverTurn σ} {ks : HeaderKeystream} (ht : t.Fair metrics maxLength ks) (st : σ)
    (behind : Bytes) :
    ∃ after, StreamPosition.next receive ⟨st, ks, t.frame.bytes ++ behind⟩ t =
        ⟨after, ks.advance, behind⟩ ∧
      (StreamPosition.reception receive ⟨st, ks, t.frame.bytes ++ behind⟩ t).failure = none ∧
      (metrics after).bytesRead = (metrics st).bytesRead + t.frame.bytes.length ∧
      (metrics after).framesRead = (metrics st).framesRead + 1 := by
  obtain ⟨hf, hothers⟩ := ht
  obtain ⟨hfailure, hrest, hks, hcounts⟩ := hframe (t.change st) ks t.frame behind hf
  refine ⟨(receive (t.change st) ks (t.frame.bytes ++ behind)).state, ?_, hfailure, ?_, ?_⟩
  · rw [StreamPosition.next, StreamPosition.reception, hrest, hks]
  · rw [hcounts.bytesRead, LinkMetrics.bytesRead_congr (hothers st)]
  · rw [hcounts.framesRead, LinkMetrics.framesRead_congr (hothers st)]

/-- Taking single frames as a whole is enough. -/
theorem staysAligned_of_frame
    (hframe : ∀ (st : σ) (ks : HeaderKeystream) (f : WireFrame) (behind : Bytes),
      f.WellFramed maxLength ks →
        Reception.Whole metrics st ks f behind (receive st ks (f.bytes ++ behind))) :
    StaysAligned metrics receive maxLength := by
  refine ⟨hframe, fun turns st ks behind h => ?_⟩
  induction turns generalizing st ks with
  | nil => exact ⟨rfl, rfl, rfl, rfl, rfl⟩
  | cons t turns ih =>
    obtain ⟨ht, hrest⟩ := h
    obtain ⟨after, hnext, hfailure, hbytes, hframes⟩ :=
      StreamPosition.next_of_fair hframe ht st (ReceiverTurn.bytesOf turns ++ behind)
    obtain ⟨hnone, hunread, hks, hbytesRead, hframesRead⟩ := ih after ks.advance hrest
    rw [ReceiverTurn.bytesOf_cons, List.append_assoc]
    dsimp only
    rw [outputs, List.foldl_cons, hnext, hfailure]
    refine ⟨hnone, hunread, ?_, ?_, ?_⟩
    · rw [hks, HeaderKeystream.advance, List.length_cons]
      simp only [Nat.add_assoc, Nat.add_comm 1]
    · rw [hbytesRead, hbytes, List.length_append, Nat.add_assoc]
    · rw [hframesRead, hframes, List.length_cons, Nat.add_assoc, Nat.add_comm 1]

end Runs

/-- Both receivers of a relay stay aligned with every stream of frames, expected or not. -/
theorem receivers_stay_aligned (s : InboundSettings) (maxFrameLength : Nat) :
    StaysAligned InboundState.metrics (InboundState.receive s) s.maxFrameLength ∧
      StaysAligned (fun st => st.2.metrics) (OutboundState.receiveWith maxFrameLength) maxFrameLength := by
  constructor
  · refine staysAligned_of_frame fun st ks f behind hf => ?_
    exact receiveFrame_whole hf fun head hhead => InboundState.handle_whole s st hhead behind
  · refine staysAligned_of_frame fun st ks f behind hf => ?_
    have hwhole : Reception.Whole OutboundState.metrics st.2 ks f behind
        (st.2.receive maxFrameLength st.1 ks (f.bytes ++ behind)) :=
      receiveFrame_whole hf fun head hhead => OutboundState.handle_whole st.1 st.2 hhead behind
    exact ⟨hwhole.failure, hwhole.rest, hwhole.keystream, hwhole.counts⟩

namespace TypedFrame

/-- A frame as its sender puts it on a stream. -/
def onWire (ks : HeaderKeystream) (f : TypedFrame) : WireFrame :=
  ⟨ks.mask (Frame.headerBlock f.header f.payload), f.payload.drop Frame.headPayloadLength⟩

theorem length_onWire (ks : HeaderKeystream) (f : TypedFrame) :
    (f.onWire ks).length = Frame.length f.payload.length := by
  have hrest : (f.onWire ks).rest.length = Frame.length f.payload.length - 16 :=
    (Frame.remaining_eq f.payload).symm
  have hmin := Frame.le_length f.payload.length
  rw [WireFrame.length, hrest]
  omega

/-- What is encoded is well framed. -/
theorem wellFramed_onWire {maxLength : Nat} {f : TypedFrame}
    (hmax : Frame.length f.payload.length ≤ maxLength) (hword : Frame.length f.payload.length < 2 ^ 32)
    (ks : HeaderKeystream) : (f.onWire ks).WellFramed maxLength ks := by
  have hlength := f.length_onWire ks
  refine ⟨hlength ▸ hmax, hlength ▸ hword, ?_⟩
  have hcode : (Frame.headerBlock f.header f.payload).toList.getD 0 0 = f.kind.code := by
    rw [Frame.headerBlock, Block.toList_ofList (by simp [FrameHeader.wire, Frame.headPayloadLength])]
    rfl
  rw [onWire, HeaderKeystream.mask_mask, hcode, MessageKind.ofCode?_code]
  exact Option.some_ne_none f.kind

end TypedFrame

def plainSettings : InboundSettings := ⟨⟨0, 2, 2, 0⟩, 64, false⟩

def plainKeystream : HeaderKeystream := .start ⟨Block.ofNat 1, Block.ofNat 2⟩ .requests

/-- A channel is established; the channels are taken away, and a reply arrives, which does not belong on
this edge. -/
def strayTurns : List (ReceiverTurn InboundState) :=
  [⟨id, (⟨.establish, 5, [1, 2]⟩ : TypedFrame).onWire plainKeystream⟩,
    ⟨fun st => { st with registry := .empty 0 },
      (⟨.reply, 7, List.replicate 20 0⟩ : TypedFrame).onWire plainKeystream.advance⟩]

theorem receivers_stay_aligned_stray :
    Along (fun ks _ => ks.advance) (ReceiverTurn.Fair InboundState.metrics 64) plainKeystream
        strayTurns ∧
      (strayTurns.foldl (StreamPosition.next (InboundState.receive plainSettings))
        ⟨⟨.empty 16, .empty, .zero, .ofList [9]⟩, plainKeystream,
          ReceiverTurn.bytesOf strayTurns ++ [0]⟩).state.metrics.bytesRead = 49 := by
  have hfair : Along (fun ks _ => ks.advance) (ReceiverTurn.Fair InboundState.metrics 64) plainKeystream
      strayTurns :=
    ⟨⟨TypedFrame.wellFramed_onWire (by decide) (by decide) _, fun _ => rfl⟩,
      ⟨TypedFrame.wellFramed_onWire (by decide) (by decide) _, fun _ => rfl⟩, trivial⟩
  refine ⟨hfair, ?_⟩
  obtain ⟨-, -, -, hbytes, -⟩ := (receivers_stay_aligned plainSettings 64).1.run strayTurns
    ⟨.empty 16, .empty, .zero, .ofList [9]⟩ plainKeystream [0] hfair
  rw [hbytes, strayTurns, ReceiverTurn.bytesOf_cons, ReceiverTurn.bytesOf_cons, List.length_append,
    List.length_append, WireFrame.length_bytes, WireFrame.length_bytes]
  rfl

end MixRelay
