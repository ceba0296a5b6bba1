import MixRelay.EdgeKeys
import MixRelay.Proofs.FrameStreams
import Mathlib.Data.List.TakeWhile

/-!
# Which texts are edge keys

A key and a counter block are written as thirty-two hexadecimal digits each. With blanks around them, and in
either case, those are just the texts that are read, and writing what was read gives the digits in lower
case. Of any other pair of texts the first that is wrong is reported: by the number of its bytes if that is
odd, else by the first byte that is no digit, else by the number of bytes that its digits stand for.
-/
namespace MixRelay

/-- A text without the blanks around it. -/
structure Trims (text middle : List Char) : Prop where
  around : ∃ front back, text = front ++ middle ++ back ∧ ∀ c ∈ front ++ back, isBlank c = true
  first : ∀ c ∈ middle.head?, isBlank c = false
  last : ∀ c ∈ middle.getLast?, isBlank c = false

theorem not_of_head?_dropWhile {α : Type} {p : α → Bool} {l : List α} {a : α}
    (h : (l.dropWhile p).head? = some a) : p a = false := by
  have hnot := List.head?_dropWhile_not p l
  rw [h] at hnot
  exact hnot

theorem trims_trimBlanks (text : List Char) : Trims text (trimBlanks text) := by
  have hfront : text.takeWhile isBlank ++ text.dropWhile isBlank = text := List.takeWhile_append_dropWhile
  have hback : trimBlanks text ++ ((text.dropWhile isBlank).reverse.takeWhile isBlank).reverse =
      text.dropWhile isBlank := by
    rw [trimBlanks, ← List.reverse_append, List.takeWhile_append_dropWhile, List.reverse_reverse]
  refine ⟨⟨text.takeWhile isBlank, ((text.dropWhile isBlank).reverse.takeWhile isBlank).reverse, ?_,
    fun c hc => ?_⟩, fun c hc => ?_, fun c hc => ?_⟩
  · rw [List.append_assoc, hback, hfront]
  · rcases List.mem_append.1 hc with hc | hc
    · exact List.mem_takeWhile_imp hc
    · exact List.mem_takeWhile_imp (List.mem_reverse.1 hc)
  · apply not_of_head?_dropWhile (l := text)
    rw [← hback, List.head?_append, Option.mem_def.1 hc]
    rfl
  · rw [trimBlanks, List.getLast?_reverse] at hc
    exact not_of_head?_dropWhile hc

namespace HexText

section Bytes
variable {b : UInt8} {text front rest : Bytes}

/-- The character of which a byte below 128 is the code. -/
def character (b : UInt8) : Char := Char.ofNat b.toNat

/-- The code of a hexadecimal digit, in either case. -/
def IsDigit (b : UInt8) : Prop := (character b).isHexDigit = true

instance : DecidablePred IsDigit := fun b => inferInstanceAs (Decidable ((character b).isHexDigit = true))

theorem forall_byte {P : UInt8 → Prop} (h : ∀ n < 256, P (UInt8.ofNat n)) (b : UInt8) : P b := by
  have hb := h b.toNat b.toNat_lt
  rwa [UInt8.ofNat_toNat] at hb

set_option maxRecDepth 4096 in
theorem toNat_character (b : UInt8) : (character b).toNat = b.toNat := by
  revert b
  exact forall_byte (by decide)

set_option maxRecDepth 4096 in
theorem isSome_digit? (b : UInt8) : (digit? b).isSome = (character b).isHexDigit := by
  revert b
  exact forall_byte (by decide)

set_option maxRecDepth 4096 in
/-- The value of a digit is written as the digit in lower case. -/
theorem digitCode_of_digit? (b : UInt8) :
    ∀ d ∈ digit? b, d < 16 ∧ character (digitCode d) = (character b).toLower := by
  revert b
  exact forall_byte (by decide)

theorem readDigit_of_digit (hb : IsDigit b) (position : Nat) : ∃ d, readDigit b position = .ok d ∧
    d < 16 ∧ character (digitCode d) = (character b).toLower := by
  have hsome : (digit? b).isSome = true := (isSome_digit? b).trans hb
  obtain ⟨d, hd⟩ := Option.isSome_iff_exists.1 hsome
  exact ⟨d, by rw [readDigit, hd], digitCode_of_digit? b d hd⟩

theorem readDigit_of_not_digit (hb : ¬ IsDigit b) (position : Nat) :
    readDigit b position = .error (.notADigit b position) := by
  have hnone : digit? b = none := by
    rw [← Option.not_isSome_iff_eq_none, isSome_digit?]
    exact hb
  rw [readDigit, hnone]

/-- What is not all digits has a first byte that is none. -/
theorem exists_first (h : ¬ ∀ b ∈ text, IsDigit b) :
    ∃ front b rest, text = front ++ b :: rest ∧ (∀ a ∈ front, IsDigit a) ∧ ¬ IsDigit b := by
  have hsome : (text.find? fun b => ¬ IsDigit b).isSome = true := by
    rw [List.find?_isSome]
    simpa using h
  obtain ⟨b, hb⟩ := Option.isSome_iff_exists.1 hsome
  obtain ⟨hnot, front, rest, hsplit, hfront⟩ := List.find?_eq_some_iff_append.1 hb
  exact ⟨front, b, rest, hsplit, fun a ha => by simpa using hfront a ha, of_decide_eq_true hnot⟩

/-- Pairs of digits are read as bytes whose writing they are, but for upper case. -/
theorem readPairs_of_digits (position : Nat) (text : Bytes) (heven : text.length % 2 = 0)
    (hdigits : ∀ b ∈ text, IsDigit b) : ∃ bs, readPairs position text = .ok bs ∧
      (encodeBytes bs).map character = text.map fun b => (character b).toLower := by
  match text with
  | [] => exact ⟨[], rfl, rfl⟩
  | [_] => cases heven
  | h :: l :: more =>
    obtain ⟨high, hhigh, hhighlt, hhighcode⟩ := readDigit_of_digit (hdigits h (by simp)) position
    obtain ⟨low, hlow, hlowlt, hlowcode⟩ := readDigit_of_digit (hdigits l (by simp)) (position + 1)
    have hmoreEven : more.length % 2 = 0 := by
      rw [List.length_cons, List.length_cons] at heven
      omega
    obtain ⟨bs, hread, hwritten⟩ :=
      readPairs_of_digits (position + 2) more hmoreEven fun b hb => hdigits b (by simp [hb])
    have hvalue : (UInt8.ofNat (16 * high + low)).toNat = 16 * high + low := by
      rw [UInt8.toNat_ofNat']
      omega
    have hhalves : (16 * high + low) / 16 = high ∧ (16 * high + low) % 16 = low := by omega
    refine ⟨UInt8.ofNat (16 * high + low) :: bs, ?_, ?_⟩
    · simp only [readPairs, hhigh, hlow, hread, bind, Except.bind]
    · rw [encodeBytes_cons, hvalue, hhalves.1, hhalves.2]
      simp only [List.map_cons, hhighcode, hlowcode, hwritten]

/-- The first byte that is no digit is reported with its position. -/
theorem readPairs_of_first (position : Nat) (front : Bytes) (hfront : ∀ a ∈ front, IsDigit a)
    (hb : ¬ IsDigit b) (heven : (front ++ b :: rest).length % 2 = 0) :
    readPairs position (front ++ b :: rest) = .error (.notADigit b (position + front.length)) := by
  match front with
  | [] =>
    cases rest with
    | nil => exact absurd heven (by simp)
    | cons l more =>
      simp only [List.nil_append, readPairs, readDigit_of_not_digit hb, bind, Except.bind, List.length_nil,
        Nat.add_zero]
  | [h] =>
    obtain ⟨high, hhigh, -⟩ := readDigit_of_digit (hfront h (by simp)) position
    simp only [List.cons_append, List.nil_append, readPairs, hhigh, readDigit_of_not_digit hb, bind,
      Except.bind, List.length_singleton]
  | h :: l :: more =>
    obtain ⟨high, hhigh, -⟩ := readDigit_of_digit (hfront h (by simp)) position
    obtain ⟨low, hlow, -⟩ := readDigit_of_digit (hfront l (by simp)) (position + 1)
    have hmoreEven : (more ++ b :: rest).length % 2 = 0 := by
      rw [List.cons_append, List.cons_append, List.length_cons, List.length_cons] at heven
      omega
    have hmore := readPairs_of_first (position + 2) more (fun a ha => hfront a (by simp [ha])) hb hmoreEven
    simp only [List.cons_append, readPairs, hhigh, hlow, hmore, bind, Except.bind, List.length_cons]
    rw [Nat.add_assoc, Nat.add_comm 2]

end Bytes

section Characters
variable {c : Char} {cs : List Char} {front rest : Bytes} {b : UInt8}

theorem isHexDigit_iff : c.isHexDigit = true ↔
    (48 ≤ c.toNat ∧ c.toNat ≤ 57 ∨ 97 ≤ c.toNat ∧ c.toNat ≤ 102) ∨ 65 ≤ c.toNat ∧ c.toNat ≤ 70 := by
  simp only [Char.isHexDigit, Char.isDigit, Bool.or_eq_true, Bool.and_eq_true, decide_eq_true_eq, ge_iff_le,
    UInt32.le_iff_toNat_le]
  exact Iff.rfl

theorem isBlank_of_isHexDigit (h : c.isHexDigit = true) : isBlank c = false := by
  have hrange := isHexDigit_iff.1 h
  simp only [isBlank, Bool.or_eq_false_iff, Bool.and_eq_false_iff, decide_eq_false_iff_not,
    beq_eq_false_iff_ne]
  omega

/-- The bytes of a text. -/
def utf8 (cs : List Char) : Bytes := (String.ofList cs).toUTF8.data.toList

theorem utf8_eq (cs : List Char) : utf8 cs = cs.flatMap String.utf8EncodeChar := by
  simp [utf8, String.toUTF8, List.utf8Encode]

theorem utf8EncodeChar_of_ascii (h : c.toNat ≤ 127) : String.utf8EncodeChar c = [UInt8.ofNat c.toNat] :=
  if_pos h

theorem utf8_of_ascii (h : ∀ c ∈ cs, c.toNat ≤ 127) : utf8 cs = cs.map fun c => UInt8.ofNat c.toNat := by
  rw [utf8_eq]
  induction cs with
  | nil => rfl
  | cons c cs ih =>
    rw [List.flatMap_cons, utf8EncodeChar_of_ascii (h c (by simp)), ih fun d hd => h d (by simp [hd])]
    rfl

theorem character_ofNat (h : c.toNat ≤ 127) : character (UInt8.ofNat c.toNat) = c := by
  have hsame : (UInt8.ofNat c.toNat).toNat = c.toNat := by
    rw [UInt8.toNat_ofNat']
    omega
  rw [character, hsame, Char.ofNat_toNat]

/-- Of a character beyond the ASCII ones all bytes are. -/
theorem le_of_mem_utf8EncodeChar (h : 127 < c.toNat) : ∀ b ∈ String.utf8EncodeChar c, 128 ≤ b.toNat := by
  have hnot : ¬ c.val.toNat ≤ 127 := Nat.not_le.2 h
  intro b hb
  simp only [String.utf8EncodeChar, hnot, if_false] at hb
  repeat' split at hb
  all_goals
    simp only [List.mem_cons, List.not_mem_nil, or_false] at hb
    rcases hb with rfl | rfl | rfl | rfl <;> rw [UInt8.toNat_ofNat'] <;> omega

set_option maxRecDepth 4096 in
theorem not_isDigit_of_le {b : UInt8} (h : 128 ≤ b.toNat) : ¬ IsDigit b := by
  revert h
  exact forall_byte (P := fun b => 128 ≤ b.toNat → ¬ IsDigit b) (by decide) b

theorem forall_isDigit_utf8EncodeChar :
    (∀ b ∈ String.utf8EncodeChar c, IsDigit b) ↔ c.isHexDigit = true := by
  rcases Nat.lt_or_ge 127 c.toNat with hlarge | hascii
  · obtain ⟨b, hb⟩ := List.exists_mem_of_ne_nil _ (String.utf8EncodeChar_ne_nil (c := c))
    have hnot : ¬ IsDigit b := not_isDigit_of_le (le_of_mem_utf8EncodeChar hlarge b hb)
    refine iff_of_false (fun hdigits => hnot (hdigits b hb)) fun hdigit => ?_
    have hrange := isHexDigit_iff.1 hdigit
    omega
  · rw [utf8EncodeChar_of_ascii hascii]
    simp [IsDigit, character_ofNat hascii]

/-- The bytes of a text are digits if its characters are. -/
theorem forall_isDigit_utf8 : (∀ b ∈ utf8 cs, IsDigit b) ↔ ∀ c ∈ cs, c.isHexDigit = true := by
  rw [utf8_eq, List.forall_mem_flatMap]
  exact forall₂_congr fun c _ => forall_isDigit_utf8EncodeChar

theorem utf8_of_digits (h : ∀ c ∈ cs, c.isHexDigit = true) :
    utf8 cs = cs.map fun c => UInt8.ofNat c.toNat := by
  refine utf8_of_ascii fun c hc => ?_
  have hrange := isHexDigit_iff.1 (h c hc)
  omega

theorem length_utf8_of_digits (h : ∀ c ∈ cs, c.isHexDigit = true) : (utf8 cs).length = cs.length := by
  rw [utf8_of_digits h, List.length_map]

theorem decode_of_digits (hdigits : ∀ c ∈ cs, c.isHexDigit = true) (heven : (utf8 cs).length % 2 = 0) :
    ∃ bs, decode (String.ofList cs) = .ok bs ∧ 2 * bs.length = (utf8 cs).length ∧
      encode bs = (String.ofList cs).toLower := by
  obtain ⟨bs, hread, hwritten⟩ := readPairs_of_digits 0 (utf8 cs) heven (forall_isDigit_utf8.2 hdigits)
  have hlength : 2 * bs.length = (utf8 cs).length := by
    simpa using congrArg List.length hwritten
  refine ⟨bs, ?_, hlength, ?_⟩
  · exact (if_neg (by rw [← utf8, heven]; decide)).trans hread
  · have hlower : (utf8 cs).map (fun b => (character b).toLower) = cs.map Char.toLower := by
      rw [utf8_of_digits hdigits, List.map_map]
      refine List.map_congr_left fun c hc => ?_
      have hrange := isHexDigit_iff.1 (hdigits c hc)
      exact congrArg Char.toLower (character_ofNat (by omega))
    have hmap : (String.ofList cs).toLower = (String.ofList cs).map Char.toLower := rfl
    rw [hmap, ← String.toList_inj, String.toList_map, String.toList_ofList, ← hlower, ← hwritten]
    exact String.toList_ofList

theorem decode_of_first (heven : (utf8 cs).length % 2 = 0) (hsplit : utf8 cs = front ++ b :: rest)
    (hfront : ∀ a ∈ front, IsDigit a) (hb : ¬ IsDigit b) :
    decode (String.ofList cs) = .error (.notADigit b front.length) := by
  have hread : readPairs 0 (utf8 cs) = .error (.notADigit b (0 + front.length)) := by
    rw [hsplit] at heven ⊢
    exact readPairs_of_first 0 front hfront hb heven
  rw [Nat.zero_add] at hread
  exact (if_neg (by rw [← utf8, heven]; decide)).trans hread

theorem decode_of_odd (hodd : (utf8 cs).length % 2 = 1) :
    decode (String.ofList cs) = .error .oddLength := if_pos hodd

set_option maxRecDepth 4096 in
theorem digitCode_ascii {n : Nat} (h : n < 16) : (digitCode n).toNat ≤ 127 ∧ IsDigit (digitCode n) := by
  have hall : ∀ k < 16, (digitCode k).toNat ≤ 127 ∧ IsDigit (digitCode k) := by decide
  exact hall n h

/-- What is written are digits. -/
theorem ascii_of_mem_encodeBytes {bs : Bytes} : ∀ b ∈ encodeBytes bs, b.toNat ≤ 127 ∧ IsDigit b := by
  intro b hb
  obtain ⟨a, -, hb⟩ := List.mem_flatMap.1 hb
  have ha := a.toNat_lt
  simp only [List.mem_cons, List.not_mem_nil, or_false] at hb
  rcases hb with rfl | rfl
  · exact digitCode_ascii (by omega)
  · exact digitCode_ascii (by omega)

theorem utf8_encodeBytes (bs : Bytes) : utf8 ((encodeBytes bs).map character) = encodeBytes bs := by
  have hascii : ∀ c ∈ (encodeBytes bs).map character, c.toNat ≤ 127 := by
    intro c hc
    obtain ⟨b, hb, rfl⟩ := List.mem_map.1 hc
    rw [toNat_character]
    exact (ascii_of_mem_encodeBytes b hb).1
  rw [utf8_of_ascii hascii, List.map_map]
  refine (List.map_congr_left fun b _ => ?_).trans (List.map_id _)
  rw [Function.comp_apply, toNat_character, UInt8.ofNat_toNat]
  rfl

/-- Reading gives back what was written as a text. -/
theorem decode_encode (bs : Bytes) : decode (encode bs) = .ok bs :=
  (congrArg decodeBytes (utf8_encodeBytes bs)).trans (decodeBytes_encodeBytes bs)

end Characters
end HexText

/-- Thirty-two hexadecimal digits, in either case. -/
def IsBlockText (text : List Char) : Prop := text.length = 32 ∧ ∀ c ∈ text, c.isHexDigit = true

open HexText in
/-- What is wrong with the text of a block: the number of its bytes, or failing that the first byte that is no
digit, or failing that the number of bytes that its digits stand for. -/
inductive BlockFault (text : List Char) : CipherError → Prop
  | oddLength (hodd : (utf8 text).length % 2 = 1) :
    BlockFault text (.invalidHex Fault.oddLength.message)
  | notADigit {front rest : Bytes} {b : UInt8} (heven : (utf8 text).length % 2 = 0)
    (hsplit : utf8 text = front ++ b :: rest) (hfront : ∀ a ∈ front, IsDigit a) (hb : ¬ IsDigit b) :
    BlockFault text (.invalidHex (Fault.notADigit b front.length).message)
  | length (heven : (utf8 text).length % 2 = 0) (hdigits : ∀ b ∈ utf8 text, IsDigit b)
    (hlength : (utf8 text).length ≠ 32) : BlockFault text (.invalidLength 16 ((utf8 text).length / 2))

/-- A text that is no block has a fault. -/
theorem isBlockText_or_fault (text : List Char) : IsBlockText text ∨ ∃ e, BlockFault text e := by
  rcases Nat.mod_two_eq_zero_or_one (HexText.utf8 text).length with heven | hodd
  · by_cases hdigits : ∀ b ∈ HexText.utf8 text, HexText.IsDigit b
    · by_cases hlength : (HexText.utf8 text).length = 32
      · have hcharacters := HexText.forall_isDigit_utf8.1 hdigits
        exact .inl ⟨HexText.length_utf8_of_digits hcharacters ▸ hlength, hcharacters⟩
      · exact .inr ⟨_, .length heven hdigits hlength⟩
    · obtain ⟨front, b, rest, hsplit, hfront, hb⟩ := HexText.exists_first hdigits
      exact .inr ⟨_, .notADigit heven hsplit hfront hb⟩
  · exact .inr ⟨_, .oddLength hodd⟩

namespace EdgeKey
variable {text key iv : String} {e : CipherError}

theorem parseBlock_of_isBlockText (h : IsBlockText (trimBlanks text.toList)) :
    ∃ block, parseBlock text = .ok block ∧
      HexText.encode block.toList = (String.ofList (trimBlanks text.toList)).toLower := by
  obtain ⟨hlength, hdigits⟩ := h
  have hbytes : (HexText.utf8 (trimBlanks text.toList)).length = 32 :=
    (HexText.length_utf8_of_digits hdigits).trans hlength
  obtain ⟨bs, hread, hcount, hwritten⟩ := HexText.decode_of_digits hdigits (by rw [hbytes])
  have hsixteen : bs.length = 16 := by omega
  refine ⟨Block.ofList bs, ?_, ?_⟩
  · rw [parseBlock, hread]
    exact if_pos hsixteen
  · rw [Block.toList_ofList hsixteen, hwritten]

theorem parseBlock_of_fault (h : BlockFault (trimBlanks text.toList) e) : parseBlock text = .error e := by
  cases h with
  | oddLength hodd => rw [parseBlock, HexText.decode_of_odd hodd]
  | notADigit heven hsplit hfront hb => rw [parseBlock, HexText.decode_of_first heven hsplit hfront hb]
  | length heven hdigits hlength =>
    obtain ⟨bs, hread, hcount, -⟩ :=
      HexText.decode_of_digits (HexText.forall_isDigit_utf8.1 hdigits) heven
    have hother : bs.length ≠ 16 := by omega
    have hhalf : (HexText.utf8 (trimBlanks text.toList)).length / 2 = bs.length := by omega
    rw [parseBlock, hread, hhalf]
    exact if_neg hother

theorem parseBlock_ok_iff :
    (∃ block, parseBlock text = .ok block) ↔ IsBlockText (trimBlanks text.toList) := by
  constructor
  · rintro ⟨block, hblock⟩
    refine (isBlockText_or_fault _).resolve_right fun ⟨e, he⟩ => ?_
    rw [parseBlock_of_fault he] at hblock
    cases hblock
  · intro h
    obtain ⟨block, hblock, -⟩ := parseBlock_of_isBlockText h
    exact ⟨block, hblock⟩

theorem parseBlock_error_iff : parseBlock text = .error e ↔ BlockFault (trimBlanks text.toList) e := by
  constructor
  · intro h
    rcases isBlockText_or_fault (trimBlanks text.toList) with hblock | ⟨other, hother⟩
    · obtain ⟨block, hblock⟩ := parseBlock_ok_iff.2 hblock
      rw [hblock] at h
      cases h
    · rw [parseBlock_of_fault hother] at h
      cases h
      exact hother
  · exact parseBlock_of_fault

theorem encode_of_parseBlock {block : Block} (h : parseBlock text = .ok block) :
    HexText.encode block.toList = (String.ofList (trimBlanks text.toList)).toLower := by
  obtain ⟨other, hother, hwritten⟩ := parseBlock_of_isBlockText (parseBlock_ok_iff.1 ⟨block, h⟩)
  rw [h] at hother
  cases hother
  exact hwritten

/-- The text of a block is read as the block. -/
theorem parseBlock_encode (block : Block) : parseBlock (HexText.encode block.toList) = .ok block := by
  have hdigits : ∀ c ∈ (HexText.encode block.toList).toList, c.isHexDigit = true := by
    intro c hc
    rw [HexText.encode, String.toList_ofList] at hc
    obtain ⟨b, hb, rfl⟩ := List.mem_map.1 hc
    exact (HexText.ascii_of_mem_encodeBytes b hb).2
  have htrim : trimBlanks (HexText.encode block.toList).toList = (HexText.encode block.toList).toList :=
    trimBlanks_eq_self
      (fun c hc => HexText.isBlank_of_isHexDigit (hdigits c (List.mem_of_mem_head? hc)))
      (fun c hc => HexText.isBlank_of_isHexDigit (hdigits c (List.mem_of_mem_getLast? hc)))
  rw [parseBlock, htrim, String.ofList_toList, HexText.decode_encode]
  exact (if_pos block.length_toList).trans (congrArg _ (Block.ofList_toList block))

theorem parse_ok_iff {k : EdgeKey} :
    parse key iv = .ok k ↔ parseBlock key = .ok k.key ∧ parseBlock iv = .ok k.iv := by
  unfold parse
  cases hkey : parseBlock key with
  | error e => simp [bind, Except.bind]
  | ok block =>
    cases hiv : parseBlock iv with
    | error e => simp [bind, Except.bind]
    | ok start =>
      obtain ⟨first, second⟩ := k
      simp [bind, Except.bind]

theorem parse_error_iff : parse key iv = .error e ↔
    parseBlock key = .error e ∨ (∃ block, parseBlock key = .ok block) ∧ parseBlock iv = .error e := by
  unfold parse
  cases hkey : parseBlock key with
  | error e => simp [bind, Except.bind]
  | ok block =>
    cases hiv : parseBlock iv with
    | error e => simp [bind, Except.bind]
    | ok start => simp [bind, Except.bind]

/-- A pair of texts is read exactly if both are, without the blanks around them, thirty-two hexadecimal digits
in either case, and what is read is written as those digits in lower case. What is written is read as the same
key. Any other pair is refused for the fault of its first text, or of the second if there is none in the
first. -/
theorem parse_accepts (key iv : String) :
    Trims key.toList (trimBlanks key.toList) ∧ Trims iv.toList (trimBlanks iv.toList) ∧
    ((∃ k, parse key iv = .ok k) ↔
      IsBlockText (trimBlanks key.toList) ∧ IsBlockText (trimBlanks iv.toList)) ∧
    (∀ k, parse key iv = .ok k →
      k.keyText = (String.ofList (trimBlanks key.toList)).toLower ∧
      k.ivText = (String.ofList (trimBlanks iv.toList)).toLower) ∧
    (∀ k : EdgeKey, parse k.keyText k.ivText = .ok k) ∧
    ∀ e, parse key iv = .error e ↔
      BlockFault (trimBlanks key.toList) e ∨
        IsBlockText (trimBlanks key.toList) ∧ BlockFault (trimBlanks iv.toList) e := by
  refine ⟨trims_trimBlanks key.toList, trims_trimBlanks iv.toList, ?_, fun k hk => ?_, fun k => ?_,
    fun e => ?_⟩
  · rw [← parseBlock_ok_iff, ← parseBlock_ok_iff]
    constructor
    · rintro ⟨k, hk⟩
      exact ⟨⟨k.key, (parse_ok_iff.1 hk).1⟩, ⟨k.iv, (parse_ok_iff.1 hk).2⟩⟩
    · rintro ⟨⟨block, hkey⟩, ⟨start, hiv⟩⟩
      exact ⟨⟨block, start⟩, parse_ok_iff.2 ⟨hkey, hiv⟩⟩
  · obtain ⟨hkey, hiv⟩ := parse_ok_iff.1 hk
    exact ⟨encode_of_parseBlock hkey, encode_of_parseBlock hiv⟩
  · exact parse_ok_iff.2 ⟨parseBlock_encode k.key, parseBlock_encode k.iv⟩
  · rw [parse_error_iff, parseBlock_error_iff, parseBlock_error_iff, parseBlock_ok_iff]

/-- A key in both cases, with a blank in front that is no ASCII character. -/
def spacedKey : String := "\u00a000112233445566778899aabbCCDDEEFF\n"

/-- The blanks do not count. The letter in place of the other block has two bytes, none of them a digit. -/
theorem parse_accepts_foreignLetter :
    IsBlockText (trimBlanks spacedKey.toList) ∧
      parse spacedKey "é" = .error (.invalidHex (HexText.Fault.notADigit 0xc3 0).message) ∧
      ¬ ∃ k, parse spacedKey "é" = .ok k := by
  obtain ⟨-, -, hread, -, -, hrefused⟩ := parse_accepts spacedKey "é"
  have hdigits : (trimBlanks spacedKey.toList).all Char.isHexDigit = true := by decide
  have hkey : IsBlockText (trimBlanks spacedKey.toList) := ⟨by decide, List.all_eq_true.1 hdigits⟩
  have hletter : BlockFault (trimBlanks "é".toList) (.invalidHex (HexText.Fault.notADigit 0xc3 0).message) :=
    @BlockFault.notADigit _ [] [0xa9] 0xc3 (by decide) (by decide) nofun (by decide)
  refine ⟨hkey, (hrefused _).2 (.inr ⟨hkey, hletter⟩), fun hok => ?_⟩
  exact absurd (hread.1 hok).2.1 (by decide)

end EdgeKey
end MixRelay
