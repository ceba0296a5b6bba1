import MixRelay.EdgeCipher
import MixRelay.FrameReader
import MixRelay.FrameReception

/-! # Reading back what was written

A frame is twenty bytes of length and header block, and the payload behind its first eleven bytes. A
reader with the writer's keystream finds them again, however far the stream goes on behind. -/
namespace MixRelay

namespace EdgeCipher

@[simp] theorem generation_forGeneration (c : EdgeCipher) (n : Nat) :
    (c.forGeneration n).generation = n := by
  unfold forGeneration
  split
  · assumption
  · rfl

theorem forGeneration_of_eq {c : EdgeCipher} {n : Nat} (h : c.generation = n) :
    c.forGeneration n = c := if_pos h

end EdgeCipher

theorem Block.toList_ofList {bs : Bytes} (h : bs.length = 16) : (Block.ofList bs).toList = bs := by
  refine List.ext_getElem (by simp [h]) fun i hi _ => ?_
  simp [Block.ofList, h]

namespace Frame

variable {maxLength : Nat} {ks : HeaderKeystream} {kind : MessageKind} {field : UInt32}
  {payload : Bytes}

/-- The part of a frame that its receiver reads before it deals with the payload. -/
def head (ks : HeaderKeystream) (h : FrameHeader) (payload : Bytes) : Bytes :=
  Bytes.ofWord (length payload.length) ++ (ks.mask (headerBlock h payload)).toList

theorem encode_eq (ks : HeaderKeystream) (h : FrameHeader) (payload : Bytes) :
    encode ks h payload = (head ks h payload ++ payload.drop headPayloadLength, ks.advance) := rfl

@[simp] theorem length_head (ks : HeaderKeystream) (h : FrameHeader) (payload : Bytes) :
    (head ks h payload).length = 20 := by
  simp [head]

theorem headOfBlock_headerBlock (n : Nat) (kind : MessageKind) (field : UInt32) (payload : Bytes) :
    headOfBlock n (headerBlock ⟨kind.code, field⟩ payload) =
      .ok ⟨kind, field, Bytes.fit headPayloadLength payload, n⟩ := by
  have hblock : (headerBlock ⟨kind.code, field⟩ payload).toList =
      kind.code :: (Bytes.ofWord field.toNat ++ Bytes.fit headPayloadLength payload) :=
    Block.toList_ofList (by simp [FrameHeader.wire, headPayloadLength])
  have htake : (Bytes.ofWord field.toNat ++ Bytes.fit headPayloadLength payload).take 4 =
      Bytes.ofWord field.toNat := rfl
  simp only [headOfBlock, hblock, List.getD_cons_zero, MessageKind.ofCode?_code, List.drop_succ_cons,
    List.drop_zero, htake, Bytes.toNat_ofWord_of_lt field.toNat_lt, UInt32.ofNat_toNat]
  rfl

theorem le_length (n : Nat) : 16 ≤ length n := Nat.le_max_left _ _

/-- The head of a frame is read back, and what follows it is left. -/
theorem readHead_head (hmax : length payload.length ≤ maxLength)
    (hword : length payload.length < 2 ^ 32) (rest : Bytes) :
    readHead maxLength ks (head ks ⟨kind.code, field⟩ payload ++ rest) =
      ⟨.ok ⟨kind, field, Bytes.fit headPayloadLength payload, length payload.length⟩, rest,
        ks.advance⟩ := by
  let block := (ks.mask (headerBlock ⟨kind.code, field⟩ payload)).toList
  have hblock : block.length = 16 := by simp [block]
  have hn : Bytes.toNat (Bytes.ofWord (length payload.length)) = length payload.length :=
    Bytes.toNat_ofWord_of_lt hword
  have htake : (head ks ⟨kind.code, field⟩ payload ++ rest).take 4 =
      Bytes.ofWord (length payload.length) := rfl
  have hdrop : (head ks ⟨kind.code, field⟩ payload ++ rest).drop 4 = block ++ rest := rfl
  have hfront : (block ++ rest).take 16 = block := by rw [← hblock, List.take_left]
  have hback : (block ++ rest).drop 16 = rest := by rw [← hblock, List.drop_left]
  have hlong : ¬ (head ks ⟨kind.code, field⟩ payload ++ rest).length < 4 := by
    rw [List.length_append, length_head]
    omega
  have hlong' : ¬ (block ++ rest).length < 16 := by simp [hblock]
  simp only [readHead, if_neg hlong, htake, hdrop, hn, if_neg (Nat.not_lt.2 (le_length _)),
    if_neg (Nat.not_lt.2 hmax), if_neg hlong', hfront, hback]
  rw [Block.ofList_toList, HeaderKeystream.mask_mask, headOfBlock_headerBlock]

/-- The payload as its receiver puts it together: a short one with the zeros behind it. -/
def padded (payload : Bytes) : Bytes :=
  Bytes.fit headPayloadLength payload ++ payload.drop headPayloadLength

theorem padded_eq (payload : Bytes) :
    padded payload = payload ++ List.replicate (headPayloadLength - payload.length) 0 := by
  by_cases h : headPayloadLength ≤ payload.length
  · rw [padded, Bytes.fit_of_le h, List.take_append_drop, Nat.sub_eq_zero_of_le h,
      List.replicate_zero, List.append_nil]
  · have hle := Nat.le_of_not_le h
    rw [padded, Bytes.fit, List.take_of_length_le hle, List.drop_eq_nil_of_le hle, List.append_nil]

theorem remaining_eq (payload : Bytes) :
    length payload.length - 16 = (payload.drop headPayloadLength).length := by
  rw [List.length_drop, length, headerLength, headPayloadLength]
  omega

theorem encodeAll_concat (ks : HeaderKeystream) (frames : List (FrameHeader × Bytes))
    (h : FrameHeader) (payload : Bytes) :
    encodeAll ks (frames ++ [(h, payload)]) =
      ((encodeAll ks frames).1 ++ (encode (encodeAll ks frames).2 h payload).1,
        (encode (encodeAll ks frames).2 h payload).2) := by
  induction frames generalizing ks with
  | nil => simp [encodeAll]
  | cons f frames ih => simp [encodeAll, ih, List.append_assoc]

end Frame

section Receiving
variable {σ : Type} {maxLength : Nat} {handle : FrameHead → Bytes → Handled σ} {state : σ}
  {ks : HeaderKeystream} {input : Bytes}

theorem receiveFrame_of_error {e : FrameError}
    (h : (Frame.readHead maxLength ks input).answer = .error e) :
    receiveFrame maxLength handle state ks input = ⟨some e, state, [],
      (Frame.readHead maxLength ks input).rest, (Frame.readHead maxLength ks input).keystream⟩ := by
  unfold receiveFrame
  generalize Frame.readHead maxLength ks input = read at h ⊢
  obtain ⟨answer, rest, keystream⟩ := read
  subst h
  rfl

theorem receiveFrame_of_ok {head : FrameHead}
    (h : (Frame.readHead maxLength ks input).answer = .ok head) :
    receiveFrame maxLength handle state ks input =
      let done := handle head (Frame.readHead maxLength ks input).rest
      ⟨done.failure, done.state, done.handedOn, done.rest,
        (Frame.readHead maxLength ks input).keystream⟩ := by
  unfold receiveFrame
  generalize Frame.readHead maxLength ks input = read at h ⊢
  obtain ⟨answer, rest, keystream⟩ := read
  subst h
  rfl

theorem Frame.readPayload_of_short {head : FrameHead} (h : input.length < head.remaining) :
    Frame.readPayload head input = (.error (.transfer .shortRead), []) := if_pos h

theorem Frame.readPayload_of_long {head : FrameHead} (h : head.remaining ≤ input.length) :
    Frame.readPayload head input =
      (.ok (head.inBlock ++ input.take head.remaining), input.drop head.remaining) :=
  if_neg (Nat.not_lt.2 h)

theorem Frame.skipPayload_of_short {head : FrameHead} (h : input.length < head.remaining) :
    Frame.skipPayload head input = (.error (.transfer .endOfStream), []) := if_pos h

theorem Frame.skipPayload_of_long {head : FrameHead} (h : head.remaining ≤ input.length) :
    Frame.skipPayload head input = (.ok head.remaining, input.drop head.remaining) :=
  if_neg (Nat.not_lt.2 h)

theorem Handled.skip_invariant {P : σ → Prop} {after : Nat → σ} (h : P state)
    (ha : ∀ n, P (after n)) (handedOn : List Message) (head : FrameHead) (input : Bytes) :
    P (Handled.skip state after handedOn head input).state := by
  unfold Handled.skip
  split
  · exact h
  · exact ha _

theorem Handled.take_invariant {P : σ → Prop} {after : Bytes → σ × List Message} (h : P state)
    (ha : ∀ payload, P (after payload).1) (head : FrameHead) (input : Bytes) :
    P (Handled.take state after head input).state := by
  unfold Handled.take
  split
  · exact h
  · exact ha _

/-- A payload that is not all there fails, and the state is what it was before. -/
theorem Handled.take_of_short {head : FrameHead} (h : input.length < head.remaining)
    (after : Bytes → σ × List Message) :
    Handled.take state after head input = ⟨some (.transfer .shortRead), state, [], []⟩ := by
  have hread := Frame.readPayload_of_short h
  unfold Handled.take
  generalize Frame.readPayload head input = got at hread ⊢
  subst hread
  rfl

theorem Handled.take_of_long {head : FrameHead} (h : head.remaining ≤ input.length)
    (after : Bytes → σ × List Message) :
    Handled.take state after head input =
      ⟨none, (after (head.inBlock ++ input.take head.remaining)).1,
        (after (head.inBlock ++ input.take head.remaining)).2, input.drop head.remaining⟩ := by
  have hread := Frame.readPayload_of_long h
  unfold Handled.take
  generalize Frame.readPayload head input = got at hread ⊢
  subst hread
  rfl

theorem Handled.skip_of_short {head : FrameHead} (h : input.length < head.remaining)
    (after : Nat → σ) (handedOn : List Message) :
    Handled.skip state after handedOn head input = ⟨some (.transfer .endOfStream), state, [], []⟩ := by
  have hread := Frame.skipPayload_of_short h
  unfold Handled.skip
  generalize Frame.skipPayload head input = got at hread ⊢
  subst hread
  rfl

theorem Handled.skip_of_long {head : FrameHead} (h : head.remaining ≤ input.length)
    (after : Nat → σ) (handedOn : List Message) :
    Handled.skip state after handedOn head input =
      ⟨none, after head.remaining, handedOn, input.drop head.remaining⟩ := by
  have hread := Frame.skipPayload_of_long h
  unfold Handled.skip
  generalize Frame.skipPayload head input = got at hread ⊢
  subst hread
  rfl

end Receiving
end MixRelay
