/-! # Characters of the first 256 code points between single quotes -/
namespace MixRelay.QuotedCharacter

/-- Lower-case hexadecimal digits without leading zeros. -/
def hexDigits (n : Nat) : List Char := Nat.toDigits 16 n

/-- Control characters, the no-break space and the soft hyphen are not shown as themselves. -/
def isShown (n : Nat) : Bool := (32 ≤ n && n < 127) || (161 ≤ n && n < 256 && n != 173)

/-- The text of a character inside the quotes. -/
def escape (b : UInt8) : String :=
  match b.toNat with
  | 0 => "\\0"
  | 9 => "\\t"
  | 10 => "\\n"
  | 13 => "\\r"
  | 39 => "\\'"
  | 92 => "\\\\"
  | n => if isShown n then String.singleton (Char.ofNat n)
    else "\\u\x7b" ++ String.ofList (hexDigits n) ++ "\x7d"

/-- The character whose code point is the byte, between single quotes. -/
def render (b : UInt8) : String := "'" ++ escape b ++ "'"

end MixRelay.QuotedCharacter
