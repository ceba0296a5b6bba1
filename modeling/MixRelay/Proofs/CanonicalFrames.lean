import MixRelay.Proofs.BrokenFrames

/-!
# The canonical form of frames

A reader takes bytes from whoever is at the other end. What it accepts as a frame is the one form in which
a writer with the same keystream would write that frame; and where it refuses, how far it has come in the
stream and in the keystream is told by the error.
-/
namespace MixRelay

namespace Bytes

/-- Four bytes are the word of their value. -/
theorem ofWord_toNat {bs : Bytes} (h : bs.length = 4) : ofWord (toNat bs) = bs := by
  obtain ⟨a, b, c, d, rfl⟩ : ∃ a b c d, bs = [a, b, c, d] := by
    match bs, h with
    | [a, b, c, d], _ => exact ⟨a, b, c, d, rfl⟩
  have hb := b.toNat_lt
  have hc := c.toNat_lt
  have hd := d.toNat_lt
  have hvalue : toNat [a, b, c, d] = ((a.toNat * 256 + b.toNat) * 256 + c.toNat) * 256 + d.toNat := by
    simp only [toNat, List.foldl_cons, List.foldl_nil]
    omega
  have hbyte {n : Nat} {x : UInt8} (hn : n % 256 = x.toNat) : UInt8.ofNat n = x := by
    apply UInt8.toNat_inj.1
    rw [UInt8.toNat_ofNat', ← hn]
  have ha := a.toNat_lt
  rw [hvalue, ofWord, hbyte (x := a) (by omega), hbyte (x := b) (by omega), hbyte (x := c) (by omega),
    hbyte (x := d) (by omega)]

theorem toNat_word_lt {bs : Bytes} (h : bs.length = 4) : toNat bs < 2 ^ 32 := by
  rw [← ofWord_toNat h, toNat_ofWord]
  exact Nat.mod_lt _ (by decide)

end Bytes

/-- The codes that stand for no kind are zero and those above five. -/
theorem MessageKind.ofCode?_eq_none {c : UInt8} : ofCode? c = none ↔ c = 0 ∨ 5 < c := by
  have hall : ∀ n : Fin 256, ofCode? (UInt8.ofNat n.val) = none ↔
      UInt8.ofNat n.val = 0 ∨ 5 < UInt8.ofNat n.val := by
    decide +kernel
  have hc := hall ⟨c.toNat, c.toNat_lt⟩
  rwa [UInt8.ofNat_toNat] at hc

namespace Frame
variable {maxLength n : Nat} {ks : HeaderKeystream} {input rest payload : Bytes} {h : FrameHead}
  {block : Block}

/-- A block that shows a head is the header block of a frame that starts with it. -/
theorem headerBlock_of_headOfBlock (hhead : headOfBlock n block = .ok h) (tail : Bytes) :
    h.length = n ∧ h.inBlock.length = headPayloadLength ∧
      headerBlock ⟨h.kind.code, h.field⟩ (h.inBlock ++ tail) = block := by
  unfold headOfBlock at hhead
  dsimp only at hhead
  split at hhead
  · cases hhead
  rename_i kind hkind
  cases hhead
  obtain ⟨code, bs, hlist⟩ : ∃ code bs, block.toList = code :: bs :=
    List.exists_cons_of_length_pos (by simp)
  have hlength : bs.length = 15 := by
    have hsixteen := congrArg List.length hlist
    simpa using hsixteen.symm
  have hinBlock : (block.toList.drop headerLength).length = headPayloadLength := by
    simp [headerLength, headPayloadLength]
  have hcode : kind.code = code := by
    rw [hlist] at hkind
    exact MessageKind.code_eq_of_ofCode? hkind
  have hword : ((block.toList.drop 1).take 4).length = 4 := by simp
  refine ⟨rfl, hinBlock, ?_⟩
  have hfield : (UInt32.ofNat (Bytes.toNat ((block.toList.drop 1).take 4))).toNat =
      Bytes.toNat ((block.toList.drop 1).take 4) :=
    UInt32.toNat_ofNat_of_lt' (Bytes.toNat_word_lt hword)
  have hfit : Bytes.fit headPayloadLength (block.toList.drop headerLength ++ tail) =
      block.toList.drop headerLength := by
    rw [Bytes.fit_of_le (by rw [List.length_append]; omega), ← hinBlock, List.take_left]
  have hsplit : kind.code :: ((block.toList.drop 1).take 4 ++ block.toList.drop headerLength) =
      block.toList := by
    rw [hlist, hcode, List.drop_succ_cons, List.drop_zero, headerLength, List.drop_succ_cons,
      List.take_append_drop]
  rw [headerBlock, FrameHeader.wire]
  dsimp only
  rw [hfield, Bytes.ofWord_toNat hword, hfit, List.cons_append, hsplit, Block.ofList_toList]

/-- A head that has been read is twenty bytes, and its length is within the bounds. -/
theorem bounds_of_readHead (hread : (readHead maxLength ks input).answer = .ok h) :
    (readHead maxLength ks input).rest = input.drop 20 ∧ 20 ≤ input.length ∧
      16 ≤ announced input ∧ announced input ≤ maxLength := by
  obtain ⟨e, herror, -⟩ | ⟨-, -, -, hrest, htwenty, hleast, hmost, -⟩ :=
    readHead_cases maxLength ks input
  · cases hread.symm.trans herror
  · exact ⟨hrest, htwenty, hleast, hmost⟩

/-- What a head has been read from. -/
theorem headOfBlock_of_readHead (hread : (readHead maxLength ks input).answer = .ok h) :
    headOfBlock (announced input) (clearBlock ks input) = .ok h := by
  obtain ⟨-, htwenty, hleast, hmost⟩ := bounds_of_readHead hread
  have hfour : 4 ≤ input.length := by omega
  have hblock : ¬ (input.drop 4).length < 16 := by
    rw [List.length_drop]
    omega
  rw [readHead_of_word maxLength ks hfour, ← announced] at hread
  dsimp only at hread
  rwa [if_neg (Nat.not_lt.2 hleast), if_neg (Nat.not_lt.2 hmost), if_neg hblock] at hread

/-- The bytes of a head are those that a writer begins its frame with. -/
theorem take_of_readHead (hread : (readHead maxLength ks input).answer = .ok h) {tail : Bytes}
    (htail : tail.length = h.remaining) :
    input.take 20 = head ks ⟨h.kind.code, h.field⟩ (h.inBlock ++ tail) := by
  obtain ⟨-, htwenty, hleast, -⟩ := bounds_of_readHead hread
  obtain ⟨hannounced, hinBlock, hblock⟩ :=
    headerBlock_of_headOfBlock (headOfBlock_of_readHead hread) tail
  have hfour : 4 ≤ input.length := by omega
  have hword : length (h.inBlock ++ tail).length = announced input := by
    rw [FrameHead.remaining] at htail
    rw [List.length_append, hinBlock, length, headerLength, headPayloadLength]
    omega
  have hsixteen : ((input.drop 4).take 16).length = 16 := by
    rw [List.length_take, List.length_drop]
    omega
  rw [head, hword, hblock, clearBlock, HeaderKeystream.mask_mask, Block.toList_ofList hsixteen, announced,
    Bytes.ofWord_toNat (List.length_take_of_le hfour), ← List.take_add]

/-- What is read as a frame is a frame as it is written, and no byte more is read. -/
theorem encode_of_read (hread : (readHead maxLength ks input).answer = .ok h)
    (hpayload : readPayload h (readHead maxLength ks input).rest = (.ok payload, rest)) :
    ∃ frame, input = frame ++ rest ∧
      encode ks ⟨h.kind.code, h.field⟩ payload = (frame, (readHead maxLength ks input).keystream) := by
  obtain ⟨hrest, -⟩ := bounds_of_readHead hread
  obtain ⟨hkeystream, hinBlock, -⟩ := readHead_ok hread
  rw [hrest] at hpayload
  have hlong : h.remaining ≤ (input.drop 20).length := by
    refine Nat.le_of_not_lt fun hshort => ?_
    rw [readPayload_of_short hshort] at hpayload
    cases hpayload
  rw [readPayload_of_long hlong] at hpayload
  cases hpayload
  refine ⟨_, ?_, by rw [encode_eq, hkeystream]⟩
  rw [← take_of_readHead hread (List.length_take_of_le hlong), ← hinBlock, List.drop_left,
    List.append_assoc, List.take_append_drop, List.take_append_drop]

/-- A length that is too short or too long is read, and nothing behind it. -/
theorem readHead_out_of_range (hword : 4 ≤ input.length) :
    (announced input < 16 →
      readHead maxLength ks input = ⟨.error (.tooShort (announced input)), input.drop 4, ks⟩) ∧
    (16 ≤ announced input → maxLength < announced input →
      readHead maxLength ks input = ⟨.error (.tooLong (announced input) maxLength), input.drop 4, ks⟩) := by
  rw [readHead_of_word maxLength ks hword, ← announced]
  dsimp only
  constructor
  · intro hsmall
    rw [if_pos hsmall]
  · intro hleast hlarge
    rw [if_neg (Nat.not_lt.2 hleast), if_pos hlarge]

/-- A block that shows no kind is read, and nothing behind it. -/
theorem readHead_of_unknown (hblock : 20 ≤ input.length) (hleast : 16 ≤ announced input)
    (hmost : announced input ≤ maxLength)
    (hunknown : MessageKind.ofCode? ((clearBlock ks input).toList.getD 0 0) = none) :
    readHead maxLength ks input =
      ⟨.error (.unknownKind ((clearBlock ks input).toList.getD 0 0)), input.drop 20, ks.advance⟩ := by
  have hsixteen : ¬ (input.drop 4).length < 16 := by
    rw [List.length_drop]
    omega
  rw [readHead_of_word maxLength ks (by omega), ← announced]
  dsimp only
  rw [if_neg (Nat.not_lt.2 hleast), if_neg (Nat.not_lt.2 hmost), if_neg hsixteen, ← clearBlock,
    List.drop_drop, headOfBlock]
  rw [hunknown]

/-- A head is refused with these errors where the frame breaks in the way they tell. -/
theorem breaks_of_error {e : FrameError} (herror : (readHead maxLength ks input).answer = .error e) :
    Breaks maxLength ks input e := by
  obtain ⟨e', herror', hbreaks⟩ | ⟨h, hok, -⟩ := readHead_cases maxLength ks input
  · cases herror.symm.trans herror'
    exact hbreaks
  · cases herror.symm.trans hok

theorem answer_tooShort_iff : (readHead maxLength ks input).answer = .error (.tooShort n) ↔
    4 ≤ input.length ∧ n = announced input ∧ n < 16 := by
  constructor
  · intro herror
    cases breaks_of_error herror with
    | tooShort word small => exact ⟨word, rfl, small⟩
  · rintro ⟨hword, rfl, hsmall⟩
    rw [(readHead_out_of_range hword).1 hsmall]

theorem answer_tooLong_iff {most : Nat} :
    (readHead maxLength ks input).answer = .error (.tooLong n most) ↔
      4 ≤ input.length ∧ n = announced input ∧ most = maxLength ∧ 16 ≤ n ∧ most < n := by
  constructor
  · intro herror
    cases breaks_of_error herror with
    | tooLong word least large => exact ⟨word, rfl, rfl, least, large⟩
  · rintro ⟨hword, rfl, rfl, hleast, hlarge⟩
    rw [(readHead_out_of_range hword).2 hleast hlarge]

theorem answer_unknownKind_iff {code : UInt8} :
    (readHead maxLength ks input).answer = .error (.unknownKind code) ↔
      20 ≤ input.length ∧ 16 ≤ announced input ∧ announced input ≤ maxLength ∧
        code = (clearBlock ks input).toList.getD 0 0 ∧ (code = 0 ∨ 5 < code) := by
  constructor
  · intro herror
    cases breaks_of_error herror with
    | kind block least most unknown =>
      exact ⟨block, least, most, rfl, MessageKind.ofCode?_eq_none.1 unknown⟩
  · rintro ⟨hblock, hleast, hmost, rfl, hcode⟩
    rw [readHead_of_unknown hblock hleast hmost (MessageKind.ofCode?_eq_none.2 hcode)]

end Frame

namespace FragmentedReader

/-- The first byte of the next header block in the clear. -/
def clearCode (r : FragmentedReader) : UInt8 :=
  (Frame.clearBlock r.keystream r.stream.bytes).toList.getD 0 0

/-- Reading a head, said of all the bytes that the stream has still to bring. -/
theorem readHead_eq (r : FragmentedReader) (maxLength : Nat) :
    let read := Frame.readHead maxLength r.keystream r.stream.bytes
    (r.readHead maxLength).1 = read.answer ∧ (r.readHead maxLength).2.stream.bytes = read.rest ∧
      (r.readHead maxLength).2.keystream = read.keystream := by
  have hwhole := r.readHead_whole maxLength
  obtain ⟨hanswer, hafter⟩ := Prod.mk.inj hwhole
  obtain ⟨-, hrest, hkeystream⟩ := FrameReader.mk.inj hafter
  exact ⟨hanswer.symm, hrest.symm, hkeystream.symm⟩

theorem readPayload_eq (r : FragmentedReader) (h : FrameHead) :
    Frame.readPayload h r.stream.bytes = ((r.readPayload h).1, (r.readPayload h).2.stream.bytes) ∧
      (r.readPayload h).2.keystream = r.keystream := by
  have hwhole := r.readPayload_whole h
  obtain ⟨hanswer, hafter⟩ := Prod.mk.inj hwhole
  obtain ⟨-, hrest, hkeystream⟩ := FrameReader.mk.inj hafter
  exact ⟨Prod.ext hanswer hrest, hkeystream.symm⟩

/-- Frames have one form. However a stream comes, and whatever its bytes, the limit and the keystream: if
a head and its payload are read, then the bytes that have gone are those of the frame that a writer with
this keystream makes of them, and both keystreams stand behind the same block. A length out of range is
told exactly where there is one, with four bytes gone and no block of the keystream; an unknown kind
exactly where there is one in a whole block behind a length in range, with twenty bytes gone and one
block. -/
theorem readHead_canonical (r : FragmentedReader) (maxLength : Nat) :
    let input := r.stream.bytes
    let announced := Frame.announced input
    let got := r.readHead maxLength
    (∀ h payload done, got.1 = .ok h → got.2.readPayload h = (.ok payload, done) →
      ∃ frame, input = frame ++ done.stream.bytes ∧
        Frame.encode r.keystream ⟨h.kind.code, h.field⟩ payload = (frame, done.keystream)) ∧
    (∀ n, got.1 = .error (.tooShort n) ↔ 4 ≤ input.length ∧ n = announced ∧ n < 16) ∧
    (∀ n most, got.1 = .error (.tooLong n most) ↔
      4 ≤ input.length ∧ n = announced ∧ most = maxLength ∧ 16 ≤ n ∧ most < n) ∧
    (4 ≤ input.length → announced < 16 ∨ maxLength < announced →
      got.2.stream.bytes = input.drop 4 ∧ got.2.keystream = r.keystream) ∧
    (∀ code, got.1 = .error (.unknownKind code) ↔ 20 ≤ input.length ∧ 16 ≤ announced ∧
      announced ≤ maxLength ∧ code = r.clearCode ∧ (code = 0 ∨ 5 < code)) ∧
    (20 ≤ input.length → 16 ≤ announced → announced ≤ maxLength → r.clearCode = 0 ∨ 5 < r.clearCode →
      got.2.stream.bytes = input.drop 20 ∧ got.2.keystream = r.keystream.advance) := by
  intro input announced got
  obtain ⟨hanswer, hrest, hkeystream⟩ : got.1 = _ ∧ got.2.stream.bytes = _ ∧ got.2.keystream = _ :=
    r.readHead_eq maxLength
  rw [hanswer, hrest, hkeystream]
  refine ⟨?_, fun n => Frame.answer_tooShort_iff, fun n most => Frame.answer_tooLong_iff, ?_,
    fun code => Frame.answer_unknownKind_iff, ?_⟩
  · intro h payload done hhead hdone
    obtain ⟨hpayload, hsame⟩ := got.2.readPayload_eq h
    rw [hdone, hrest] at hpayload
    rw [hdone, hkeystream] at hsame
    obtain ⟨frame, hinput, hencode⟩ := Frame.encode_of_read hhead hpayload
    exact ⟨frame, hinput, hencode.trans (by rw [hsame])⟩
  · intro hword hrange
    by_cases hsmall : Frame.announced r.stream.bytes < 16
    · rw [(Frame.readHead_out_of_range hword).1 hsmall]
      exact ⟨rfl, rfl⟩
    · rw [(Frame.readHead_out_of_range hword).2 (Nat.le_of_not_lt hsmall)
        (hrange.resolve_left hsmall)]
      exact ⟨rfl, rfl⟩
  · intro hblock hleast hmost hcode
    rw [Frame.readHead_of_unknown hblock hleast hmost (MessageKind.ofCode?_eq_none.2 hcode)]
    exact ⟨rfl, rfl⟩

/-- A reader of the replies of a connection, whose bytes come seven by seven. -/
def bySeven (bytes : Bytes) : FragmentedReader :=
  ⟨none, .cut 6 bytes, ⟨⟨Block.ofNat 1, Block.ofNat 2⟩, .replies, 5⟩⟩

/-- A frame of three payload bytes and one byte more. -/
def frameAndByte : Bytes := (Frame.encode (bySeven []).keystream ⟨1, 7⟩ [1, 2, 3]).1 ++ [9]

/-- A length of three; a block of zeros, which shows a kind that there is not; and a frame: what is left of
each is the last byte. -/
theorem readHead_canonical_bySeven :
    (let got := (bySeven [0, 0, 0, 3, 9]).readHead 64
     got.1 = .error (.tooShort 3) ∧ got.2.stream.bytes = [9]) ∧
    (let got := (bySeven ([0, 0, 0, 16] ++ List.replicate 16 0 ++ [9])).readHead 64
     got.1 = .error (.unknownKind 214) ∧ got.2.stream.bytes = [9]) ∧
    let got := (bySeven frameAndByte).readHead 64
    ∃ h payload done frame, got.1 = .ok h ∧ got.2.readPayload h = (.ok payload, done) ∧
      frameAndByte = frame ++ done.stream.bytes ∧
      Frame.encode (bySeven []).keystream ⟨h.kind.code, h.field⟩ payload = (frame, done.keystream) := by
  have hcut (bytes : Bytes) : (bySeven bytes).stream.bytes = bytes := FragmentedStream.bytes_cut 6 bytes
  refine ⟨?_, ?_, ?_⟩
  · obtain ⟨-, htooShort, -, hgone, -⟩ := readHead_canonical (bySeven [0, 0, 0, 3, 9]) 64
    rw [hcut] at htooShort hgone
    exact ⟨(htooShort 3).2 (by decide), (hgone (by decide) (by decide)).1⟩
  · have hcode : (bySeven ([0, 0, 0, 16] ++ List.replicate 16 0 ++ [9])).clearCode = 214 := by
      decide +kernel
    obtain ⟨-, -, -, -, hunknown, hgone⟩ :=
      readHead_canonical (bySeven ([0, 0, 0, 16] ++ List.replicate 16 0 ++ [9])) 64
    rw [hcode, hcut] at hunknown hgone
    exact ⟨(hunknown 214).2 (by decide), (hgone (by decide) (by decide) (by decide) (by decide)).1⟩
  · let f : TypedFrame := ⟨.establish, 7, [1, 2, 3]⟩
    have hbytes : (bySeven frameAndByte).stream.bytes =
        Frame.head (bySeven frameAndByte).keystream f.header f.payload ++ [9] := by
      rw [hcut, frameAndByte, Frame.encode_eq]
      exact congrArg (· ++ [9]) (List.append_nil _)
    have hmax : Frame.length f.payload.length ≤ 64 := by decide
    obtain ⟨s, -, hread⟩ := readHead_of_head hmax (by decide) hbytes
    obtain ⟨t, hpayload, -⟩ := FragmentedStream.readExact_of_long (Nat.zero_le s.bytes.length)
    have hwhole := (readHead_canonical (bySeven frameAndByte) 64).1
    rw [hcut] at hwhole
    have hdone : ((bySeven frameAndByte).readHead 64).2.readPayload f.head =
        (.ok (f.head.inBlock ++ []), ⟨some f.head, t, (bySeven []).keystream.advance⟩) := by
      rw [hread, readPayload, show f.head.remaining = 0 from rfl, hpayload]
      rfl
    obtain ⟨frame, hinput, hencode⟩ := hwhole _ _ _ (congrArg Prod.fst hread) hdone
    exact ⟨_, _, _, frame, congrArg Prod.fst hread, hdone, hinput, hencode⟩

end FragmentedReader
end MixRelay
