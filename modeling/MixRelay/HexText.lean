import MixRelay.ByteStrings
import MixRelay.QuotedCharacter

/-! # Hexadecimal text

Two digits a byte, high half first; written in lower case and read in either case. A text is
judged by its UTF-8 bytes: first by their number, then by the first byte that is no digit. -/
namespace MixRelay.HexText

inductive Fault
  | oddLength
  | notADigit (byte : UInt8) (position : Nat)
  deriving DecidableEq

def Fault.message : Fault → String
  | .oddLength => "Odd number of digits"
  | .notADigit b i => s!"Invalid character {QuotedCharacter.render b} at position {i}"

/-- The value of an ASCII hexadecimal digit. -/
def digit? (b : UInt8) : Option Nat :=
  if 48 ≤ b ∧ b ≤ 57 then some (b.toNat - 48)
  else if 97 ≤ b ∧ b ≤ 102 then some (b.toNat - 87)
  else if 65 ≤ b ∧ b ≤ 70 then some (b.toNat - 55)
  else none

/-- The ASCII code of a digit below sixteen. -/
def digitCode (n : Nat) : UInt8 := if n < 10 then UInt8.ofNat (48 + n) else UInt8.ofNat (87 + n)

def readDigit (b : UInt8) (position : Nat) : Except Fault Nat :=
  match digit? b with
  | some d => .ok d
  | none => .error (.notADigit b position)

/-- Reads pairs of digits, the first of which stands at `position`. -/
def readPairs (position : Nat) : Bytes → Except Fault Bytes
  | [] => .ok []
  | [_] => .error .oddLength
  | h :: l :: rest => do
    let high ← readDigit h position
    let low ← readDigit l (position + 1)
    let more ← readPairs (position + 2) rest
    .ok (UInt8.ofNat (16 * high + low) :: more)

/-- Reads the UTF-8 bytes of a text. -/
def decodeBytes (text : Bytes) : Except Fault Bytes :=
  if text.length % 2 = 1 then .error .oddLength else readPairs 0 text

def decode (text : String) : Except Fault Bytes := decodeBytes text.toUTF8.data.toList

/-- The digits of a byte string, as ASCII codes. -/
def encodeBytes (bs : Bytes) : Bytes :=
  bs.flatMap fun b => [digitCode (b.toNat / 16), digitCode (b.toNat % 16)]

def encode (bs : Bytes) : String :=
  String.ofList ((encodeBytes bs).map fun b => Char.ofNat b.toNat)

@[simp] theorem encodeBytes_cons (b : UInt8) (bs : Bytes) : encodeBytes (b :: bs) =
    digitCode (b.toNat / 16) :: digitCode (b.toNat % 16) :: encodeBytes bs := rfl

@[simp] theorem length_encodeBytes (bs : Bytes) : (encodeBytes bs).length = 2 * bs.length := by
  induction bs with
  | nil => rfl
  | cons b bs ih => simp [ih]; omega

theorem digit?_digitCode {n : Nat} (h : n < 16) : digit? (digitCode n) = some n := by
  have : ∀ k : Fin 16, digit? (digitCode k) = some k.val := by decide
  exact this ⟨n, h⟩

theorem readPairs_encodeBytes (bs : Bytes) (i : Nat) : readPairs i (encodeBytes bs) = .ok bs := by
  induction bs generalizing i with
  | nil => rfl
  | cons b bs ih =>
    have hb : b.toNat < 256 := b.toNat_lt
    have high := digit?_digitCode (n := b.toNat / 16) (by omega)
    have low := digit?_digitCode (n := b.toNat % 16) (by omega)
    have whole : UInt8.ofNat (16 * (b.toNat / 16) + b.toNat % 16) = b := by
      rw [Nat.div_add_mod, UInt8.ofNat_toNat]
    simp only [encodeBytes_cons, readPairs, readDigit, high, low, ih, bind, Except.bind, whole]

/-- Reading gives back the bytes that were written. -/
theorem decodeBytes_encodeBytes (bs : Bytes) : decodeBytes (encodeBytes bs) = .ok bs := by
  rw [decodeBytes, length_encodeBytes, if_neg (by omega), readPairs_encodeBytes]

end MixRelay.HexText
