import MixRelay.FragmentedReader
import MixRelay.Proofs.FrameStreams

/-!
# Frames behind any fragmentation

However a stream is cut, its reader gets what a reader of all its bytes would get. So the frames that a
sender has written one behind the other come out again, whether the reader takes a payload or passes
over it, and the two keystreams stay in step.
-/
namespace MixRelay

namespace FragmentedStream
variable {n : Nat} {s t : FragmentedStream} {got : Bytes}

theorem read_append (h : s.read n = (got, t)) : s.bytes = got ++ t.bytes := by
  obtain ⟨fragments, hf⟩ := s
  cases fragments with
  | nil =>
    cases h
    rfl
  | cons f rest =>
    simp only [read] at h
    split at h <;> cases h
    · simp only [bytes, List.flatten_cons, ← List.append_assoc, List.take_append_drop]
    · simp only [bytes, List.flatten_cons]

theorem read_length_le (h : s.read n = (got, t)) : got.length ≤ n := by
  obtain ⟨fragments, hf⟩ := s
  cases fragments with
  | nil =>
    cases h
    exact Nat.zero_le n
  | cons f rest =>
    simp only [read] at h
    split at h
    · cases h
      exact List.length_take_le n f
    · rename_i hle
      cases h
      exact Nat.le_of_not_lt hle

/-- A call brings nothing only at the end. -/
theorem bytes_of_read_nil (hn : n ≠ 0) (h : s.read n = ([], t)) : s.bytes = [] := by
  obtain ⟨fragments, hf⟩ := s
  cases fragments with
  | nil => rfl
  | cons f rest =>
    have hne := hf f List.mem_cons_self
    simp only [read] at h
    split at h
    · have hnil := congrArg Prod.fst h
      simp [hn, hne] at hnil
    · exact absurd (congrArg Prod.fst h) hne

theorem bytes_of_read_end (hn : n ≠ 0) (h : s.read n = ([], t)) : s.bytes = [] ∧ t.bytes = [] := by
  have hs := bytes_of_read_nil hn h
  have ht := read_append h
  rw [hs] at ht
  exact ⟨hs, ht.symm⟩

/-- The calls together bring the front of the stream if there is enough of it. -/
theorem readExact_spec (n : Nat) (s : FragmentedStream) :
    (s.readExact n).1 =
        (if s.bytes.length < n then .error .shortRead else .ok (s.bytes.take n)) ∧
      (s.readExact n).2.bytes = s.bytes.drop n := by
  fun_induction readExact n s with
  | case1 s => simp
  | case2 n s hn t hread =>
    obtain ⟨hs, ht⟩ := bytes_of_read_end hn hread
    simp only [hs, ht, List.length_nil, Nat.pos_of_ne_zero hn, if_true, List.drop_nil, and_self]
  | case3 n s hn got t hread hgot more u hmore ih =>
    have hle := read_length_le hread
    rw [hmore] at ih
    obtain ⟨hanswer, hrest⟩ := ih
    dsimp only at hanswer hrest ⊢
    rw [hanswer, hrest, read_append hread, List.length_append, List.drop_append,
      List.drop_eq_nil_of_le hle, List.nil_append, List.take_append, List.take_of_length_le hle]
    refine ⟨?_, rfl⟩
    split
    · rw [if_pos (by omega)]
      rfl
    · rw [if_neg (by omega)]
      rfl

theorem readExact_of_short (h : s.bytes.length < n) :
    ∃ t, s.readExact n = (.error .shortRead, t) ∧ t.bytes = [] := by
  obtain ⟨hanswer, hrest⟩ := readExact_spec n s
  rw [if_pos h] at hanswer
  rw [List.drop_eq_nil_of_le (Nat.le_of_lt h)] at hrest
  exact ⟨_, Prod.ext hanswer rfl, hrest⟩

theorem readExact_of_long (h : n ≤ s.bytes.length) :
    ∃ t, s.readExact n = (.ok (s.bytes.take n), t) ∧ t.bytes = s.bytes.drop n := by
  obtain ⟨hanswer, hrest⟩ := readExact_spec n s
  rw [if_neg (Nat.not_lt.2 h)] at hanswer
  exact ⟨_, Prod.ext hanswer rfl, hrest⟩

theorem discard_spec (n : Nat) (s : FragmentedStream) :
    ∃ t, s.discard n = (min n s.bytes.length, t) ∧ t.bytes = s.bytes.drop n := by
  fun_induction discard n s with
  | case1 s => simp
  | case2 n s hn t hread =>
    obtain ⟨hs, ht⟩ := bytes_of_read_end (by simp [hn, discardLength]) hread
    simp [hs, ht]
  | case3 n s hn got t hread hgot more u hmore ih =>
    have hle := Nat.le_trans (read_length_le hread) (Nat.min_le_left _ _)
    obtain ⟨v, hv, hrest⟩ := ih
    obtain ⟨rfl, rfl⟩ := Prod.mk.inj (hmore.symm.trans hv)
    refine ⟨u, Prod.ext ?_ rfl, ?_⟩
    · rw [read_append hread, List.length_append]
      omega
    · rw [hrest, read_append hread, List.drop_append, List.drop_eq_nil_of_le hle, List.nil_append]

@[simp] theorem bytes_cut (n : Nat) (whole : Bytes) : (cut n whole).bytes = whole := by
  fun_induction cut n whole with
  | case1 => rfl
  | case2 whole h rest ih =>
    rw [bytes] at ih ⊢
    rw [List.flatten_cons, ih, List.take_append_drop]

end FragmentedStream

namespace Frame
variable {input : Bytes}

/-- What follows the length of a frame is its header block, unless the length is out of range. -/
theorem readHead_of_word (maxLength : Nat) (ks : HeaderKeystream) (h : 4 ≤ input.length) :
    readHead maxLength ks input =
      let n := Bytes.toNat (input.take 4)
      let rest := input.drop 4
      if n < 16 then ⟨.error (.tooShort n), rest, ks⟩
      else if maxLength < n then ⟨.error (.tooLong n maxLength), rest, ks⟩
      else if rest.length < 16 then ⟨.error (.transfer .shortRead), [], ks⟩
      else ⟨headOfBlock n (ks.mask (Block.ofList (rest.take 16))), rest.drop 16, ks.advance⟩ :=
  if_neg (Nat.not_lt.2 h)

end Frame

namespace FragmentedReader
variable {r : FragmentedReader} {maxLength : Nat}

/-- The reader that has all the bytes at once. -/
def whole (r : FragmentedReader) : FrameReader := ⟨r.head, r.stream.bytes, r.keystream⟩

/-- What reading comes to does not depend on the cut. -/
theorem readHead_whole (r : FragmentedReader) (maxLength : Nat) :
    r.whole.readHead maxLength = ((r.readHead maxLength).1, (r.readHead maxLength).2.whole) := by
  obtain ⟨head, stream, ks⟩ := r
  have hwhole {answer : Except FrameError FrameHead} {rest : Bytes} {ks' : HeaderKeystream}
      (h : Frame.readHead maxLength ks stream.bytes = ⟨answer, rest, ks'⟩) :
      (whole ⟨head, stream, ks⟩).readHead maxLength =
        (answer, ⟨answer.toOption.or head, rest, ks'⟩) := by
    rw [whole, FrameReader.readHead]
    dsimp only
    rw [h]
    cases answer <;> rfl
  unfold readHead
  dsimp only
  by_cases hfour : stream.bytes.length < 4
  · obtain ⟨s, hread, hs⟩ := FragmentedStream.readExact_of_short hfour
    rw [hwhole (if_pos hfour), hread, ← hs]
    rfl
  have hword := Nat.le_of_not_lt hfour
  obtain ⟨s, hread, hs⟩ := FragmentedStream.readExact_of_long hword
  have hframe := Frame.readHead_of_word maxLength ks hword
  rw [← hs] at hframe
  rw [hread]
  dsimp only
  by_cases hshort : Bytes.toNat (stream.bytes.take 4) < 16
  · rw [hwhole (hframe.trans (if_pos hshort)), if_pos hshort]
    rfl
  have hframe := hframe.trans (if_neg hshort)
  rw [if_neg hshort]
  by_cases hlong : maxLength < Bytes.toNat (stream.bytes.take 4)
  · rw [hwhole (hframe.trans (if_pos hlong)), if_pos hlong]
    rfl
  have hframe := hframe.trans (if_neg hlong)
  rw [if_neg hlong]
  by_cases hsixteen : s.bytes.length < 16
  · obtain ⟨t, hblock, ht⟩ := FragmentedStream.readExact_of_short hsixteen
    rw [hwhole (hframe.trans (if_pos hsixteen)), hblock, ← ht]
    rfl
  · obtain ⟨t, hblock, ht⟩ := FragmentedStream.readExact_of_long (Nat.le_of_not_lt hsixteen)
    rw [hwhole (hframe.trans (if_neg hsixteen)), hblock, ← ht]
    dsimp only
    cases Frame.headOfBlock (Bytes.toNat (stream.bytes.take 4))
      (ks.mask (Block.ofList (s.bytes.take 16))) <;> rfl

theorem readPayload_whole (r : FragmentedReader) (h : FrameHead) :
    r.whole.readPayload h = ((r.readPayload h).1, (r.readPayload h).2.whole) := by
  unfold readPayload FrameReader.readPayload whole
  by_cases hshort : r.stream.bytes.length < h.remaining
  · obtain ⟨s, hread, hs⟩ := FragmentedStream.readExact_of_short hshort
    rw [hread, Frame.readPayload_of_short hshort, ← hs]
  · have hlong := Nat.le_of_not_lt hshort
    obtain ⟨s, hread, hs⟩ := FragmentedStream.readExact_of_long hlong
    rw [hread, Frame.readPayload_of_long hlong, ← hs]

end FragmentedReader

/-- A frame of one of the five kinds. -/
structure TypedFrame where
  kind : MessageKind
  field : UInt32
  payload : Bytes
  deriving DecidableEq

namespace TypedFrame

def header (f : TypedFrame) : FrameHeader := ⟨f.kind.code, f.field⟩

/-- The head of the frame as it is read. -/
def head (f : TypedFrame) : FrameHead :=
  ⟨f.kind, f.field, Bytes.fit Frame.headPayloadLength f.payload, Frame.length f.payload.length⟩

/-- The bytes of frames in a row. -/
def encodeAll (ks : HeaderKeystream) (frames : List TypedFrame) : Bytes × HeaderKeystream :=
  Frame.encodeAll ks (frames.map fun f => (f.header, f.payload))

theorem encodeAll_cons (ks : HeaderKeystream) (f : TypedFrame) (frames : List TypedFrame) :
    encodeAll ks (f :: frames) =
      (Frame.head ks f.header f.payload ++
          (f.payload.drop Frame.headPayloadLength ++ (encodeAll ks.advance frames).1),
        (encodeAll ks.advance frames).2) := by
  rw [← List.append_assoc]
  rfl

/-- Writing moves the keystream on by a block for each frame. -/
theorem encodeAll_keystream (ks : HeaderKeystream) (frames : List TypedFrame) :
    (encodeAll ks frames).2 = { ks with position := ks.position + frames.length } := by
  induction frames generalizing ks with
  | nil => rfl
  | cons f frames ih =>
    rw [encodeAll_cons, ih, HeaderKeystream.advance]
    simp only [List.length_cons, Nat.add_assoc, Nat.add_comm 1]

/-- What a reader gets that takes the payload, or that passes over it. -/
def body (f : TypedFrame) : PayloadUse → FrameBody
  | .take => .payload (f.payload ++ List.replicate (max 11 f.payload.length - f.payload.length) 0)
  | .skip => .skipped (Frame.length f.payload.length - 16)

end TypedFrame

namespace FragmentedReader
variable {r : FragmentedReader} {f : TypedFrame} {rest : Bytes} {maxLength : Nat}

theorem readHead_of_head (hmax : Frame.length f.payload.length ≤ maxLength)
    (hword : Frame.length f.payload.length < 2 ^ 32)
    (h : r.stream.bytes = Frame.head r.keystream f.header f.payload ++ rest) :
    ∃ s : FragmentedStream, s.bytes = rest ∧
      r.readHead maxLength = (.ok f.head, ⟨some f.head, s, r.keystream.advance⟩) := by
  have hread : Frame.readHead maxLength r.keystream r.stream.bytes =
      ⟨.ok f.head, rest, r.keystream.advance⟩ := by
    rw [h]
    exact Frame.readHead_head hmax hword rest
  have hwhole := r.readHead_whole maxLength
  rw [FrameReader.readHead, whole] at hwhole
  dsimp only at hwhole
  rw [hread] at hwhole
  obtain ⟨hanswer, hafter⟩ := Prod.mk.inj hwhole
  generalize r.readHead maxLength = got at hanswer hafter
  obtain ⟨answer, head, stream, ks⟩ := got
  obtain ⟨rfl, hrest, rfl⟩ := FrameReader.mk.inj hafter
  subst hanswer
  exact ⟨stream, hrest.symm, rfl⟩

theorem readBody_of_tail (use : PayloadUse)
    (h : r.stream.bytes = f.payload.drop Frame.headPayloadLength ++ rest) :
    ∃ s : FragmentedStream, s.bytes = rest ∧
      r.readBody f.head use = (.ok (f.body use), { r with stream := s }) := by
  have hremaining : f.head.remaining = (f.payload.drop Frame.headPayloadLength).length :=
    Frame.remaining_eq f.payload
  have hlong : f.head.remaining ≤ r.stream.bytes.length := by
    rw [h, hremaining, List.length_append]
    omega
  have hrest : r.stream.bytes.drop f.head.remaining = rest := by rw [h, hremaining, List.drop_left]
  cases use with
  | take =>
    obtain ⟨s, hread, hs⟩ := FragmentedStream.readExact_of_long hlong
    refine ⟨s, hs.trans hrest, ?_⟩
    have hpayload : f.head.inBlock ++ r.stream.bytes.take f.head.remaining = Frame.padded f.payload := by
      rw [h, hremaining, List.take_left]
      rfl
    have hzeros : Frame.headPayloadLength - f.payload.length =
        max 11 f.payload.length - f.payload.length := by
      rw [Frame.headPayloadLength]
      omega
    rw [readBody, readPayload, hread, TypedFrame.body, ← hzeros, ← Frame.padded_eq, ← hpayload]
    rfl
  | skip =>
    obtain ⟨s, hread, hs⟩ := FragmentedStream.discard_spec f.head.remaining r.stream
    refine ⟨s, hs.trans hrest, ?_⟩
    rw [readBody, skipPayload, hread, Nat.min_eq_left hlong]
    dsimp only
    rw [if_pos rfl]
    rfl

/-- Frames are read back as they were written, in order, whatever their number and however their bytes
are cut: each with its kind and field, and with its payload or the count of what was passed over.
Nothing is left, and writer and reader have used a keystream block for each. -/
theorem readFrames_encodeAll (ks : HeaderKeystream) (maxLength : Nat)
    (frames : List (TypedFrame × PayloadUse))
    (hfit : ∀ f ∈ frames, Frame.length f.1.payload.length ≤ maxLength ∧
      Frame.length f.1.payload.length < 2 ^ 32)
    (r : FragmentedReader) (hks : r.keystream = ks)
    (hbytes : r.stream.bytes = (TypedFrame.encodeAll ks (frames.map (·.1))).1) :
    let got := r.readFrames maxLength (frames.map (·.2))
    let after := { ks with position := ks.position + frames.length }
    got.1 = .ok (frames.map fun f => (f.1.head, f.1.body f.2)) ∧
      got.2.stream.bytes = [] ∧ got.2.keystream = after ∧
      (TypedFrame.encodeAll ks (frames.map (·.1))).2 = after := by
  intro got after
  have hwriter : (TypedFrame.encodeAll ks (frames.map (·.1))).2 = after := by
    rw [TypedFrame.encodeAll_keystream, List.length_map]
  suffices hgot : got.1 = .ok (frames.map fun f => (f.1.head, f.1.body f.2)) ∧
      got.2.stream.bytes = [] ∧ got.2.keystream = after from
    ⟨hgot.1, hgot.2.1, hgot.2.2, hwriter⟩
  clear hwriter
  induction frames generalizing ks r with
  | nil => exact ⟨rfl, hbytes, hks⟩
  | cons f frames ih =>
    obtain ⟨hmax, hword⟩ := hfit f List.mem_cons_self
    rw [List.map_cons, TypedFrame.encodeAll_cons, ← hks] at hbytes
    obtain ⟨s, hs, hhead⟩ := readHead_of_head hmax hword hbytes
    obtain ⟨t, ht, hbody⟩ :=
      readBody_of_tail (r := ⟨some f.1.head, s, r.keystream.advance⟩) f.2 hs
    -- both keystreams have moved on by the block of this frame
    obtain ⟨hmore, hleft, hafter⟩ := ih r.keystream.advance
      (fun g hg => hfit g (List.mem_cons_of_mem f hg)) ⟨some f.1.head, t, r.keystream.advance⟩ rfl ht
    have hgot : got =
        let more := readFrames maxLength (frames.map (·.2)) ⟨some f.1.head, t, r.keystream.advance⟩
        (more.1.map ((f.1.head, f.1.body f.2) :: ·), more.2) := by
      dsimp only [got]
      rw [List.map_cons, readFrames, hhead]
      dsimp only
      rw [hbody]
    rw [hgot]
    refine ⟨?_, hleft, ?_⟩
    · dsimp only
      rw [hmore]
      rfl
    · dsimp only [after]
      rw [hafter, ← hks, HeaderKeystream.advance]
      simp only [List.length_cons, Nat.add_assoc, Nat.add_comm 1]

/-- A short payload is taken and a long one passed over. -/
def shortAndLong : List (TypedFrame × PayloadUse) :=
  [(⟨.establish, 7, [1, 2, 3]⟩, .take), (⟨.reply, 9, List.replicate 30 5⟩, .skip)]

/-- The stream comes in fragments of seven bytes, so none of them ends where a frame does. -/
def shortAndLongReader : FragmentedReader :=
  let ks : HeaderKeystream := ⟨⟨Block.ofNat 1, Block.ofNat 2⟩, .replies, 5⟩
  ⟨none, .cut 6 (TypedFrame.encodeAll ks (shortAndLong.map (·.1))).1, ks⟩

theorem readFrames_shortAndLong :
    (shortAndLongReader.readFrames 64 (shortAndLong.map (·.2))).1 =
        .ok [(⟨.establish, 7, 1 :: 2 :: 3 :: List.replicate 8 0, 16⟩,
            .payload (1 :: 2 :: 3 :: List.replicate 8 0)),
          (⟨.reply, 9, List.replicate 11 5, 35⟩, .skipped 19)] ∧
      (shortAndLongReader.readFrames 64 (shortAndLong.map (·.2))).2.keystream.position = 7 := by
  have hfit : ∀ f ∈ shortAndLong, Frame.length f.1.payload.length ≤ 64 ∧
      Frame.length f.1.payload.length < 2 ^ 32 := by decide
  have hframes : shortAndLong.map (fun f => (f.1.head, f.1.body f.2)) =
      [(⟨.establish, 7, 1 :: 2 :: 3 :: List.replicate 8 0, 16⟩,
          .payload (1 :: 2 :: 3 :: List.replicate 8 0)),
        (⟨.reply, 9, List.replicate 11 5, 35⟩, .skipped 19)] := by decide
  obtain ⟨hanswer, -, hks, -⟩ := readFrames_encodeAll shortAndLongReader.keystream 64 shortAndLong
    hfit shortAndLongReader rfl (FragmentedStream.bytes_cut 6 _)
  exact ⟨hanswer.trans (congrArg Except.ok hframes), congrArg HeaderKeystream.position hks⟩

end FragmentedReader
end MixRelay
