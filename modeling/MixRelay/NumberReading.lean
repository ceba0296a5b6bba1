import MixRelay.ByteStrings

/-! # Reading unsigned numbers from the front of a text -/
namespace MixRelay

/-- A reader takes a value off the front of a text, or refuses it. -/
abbrev Reader (α : Type) := List Char → Option (α × List Char)

/-- The value of a digit in a radix of at most 36, letters in either case. -/
def digitOf? (radix : Nat) (c : Char) : Option Nat :=
  let n := c.toNat
  let value? := if 48 ≤ n ∧ n ≤ 57 then some (n - 48)
    else if 97 ≤ n ∧ n ≤ 122 then some (n - 87)
    else if 65 ≤ n ∧ n ≤ 90 then some (n - 55)
    else none
  value?.filter (· < radix)

def isDigitOf (radix : Nat) (c : Char) : Bool := (digitOf? radix c).isSome

/-- The value of a digit string, its first digit the highest. -/
def valueOf (radix : Nat) (ds : List Char) : Nat :=
  ds.foldl (fun n c => radix * n + (digitOf? radix c).getD 0) 0

namespace Reader

/-- Takes one given character. -/
def char (c : Char) : Reader Unit
  | [] => none
  | d :: rest => if c = d then some ((), rest) else none

/-- Takes all digits that follow: at least one, and a value of at most `bound`. -/
def number (radix bound : Nat) : Reader Nat := fun cs =>
  let ds := cs.takeWhile (isDigitOf radix)
  let n := valueOf radix ds
  if ds.isEmpty || bound < n then none else some (n, cs.dropWhile (isDigitOf radix))

/-- Takes a number written in at most `width` digits. -/
def shortNumber (radix width bound : Nat) : Reader Nat := fun cs =>
  if width < (cs.takeWhile (isDigitOf radix)).length then none else number radix bound cs

/-- Refuses a number of several digits that starts with a zero. -/
def withoutLeadingZero (r : Reader Nat) : Reader Nat := fun cs =>
  match cs with
  | '0' :: d :: _ => if isDigitOf 10 d then none else r cs
  | _ => r cs

/-- What the reader makes of a whole text. -/
def whole {α : Type} (r : Reader α) (cs : List Char) : Option α :=
  match r cs with
  | some (a, []) => some a
  | _ => none

end Reader
end MixRelay
