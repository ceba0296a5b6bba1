import MixRelay.DecimalFloats
import MixRelay.NumberReading
import MixRelay.TomlValues

/-! # Strings, numbers and dates of TOML -/
namespace MixRelay.Toml

def isBlank (c : Char) : Bool := c == ' ' || c == '\t'

/-- Control characters other than the tab stand nowhere in a text. -/
def isText (c : Char) : Bool := c == '\t' || (32 ≤ c.toNat && c.toNat != 127)

def skipBlanks (cs : List Char) : List Char := cs.dropWhile isBlank

/-- A character by its code in `n` hexadecimal digits. -/
def codePoint? (n : Nat) : Reader Char := fun cs =>
  let ds := cs.take n
  let code := valueOf 16 ds
  if ds.length = n ∧ ds.all (isDigitOf 16) ∧ code.isValidChar then some (Char.ofNat code, cs.drop n)
  else none

/-- What follows a backslash in a quoted string. -/
def escape? : Reader Char
  | 'b' :: cs => some ('\x08', cs)
  | 't' :: cs => some ('\t', cs)
  | 'n' :: cs => some ('\n', cs)
  | 'f' :: cs => some ('\x0c', cs)
  | 'r' :: cs => some ('\r', cs)
  | 'e' :: cs => some ('\x1b', cs)
  | '"' :: cs => some ('"', cs)
  | '\\' :: cs => some ('\\', cs)
  | 'x' :: cs => codePoint? 2 cs
  | 'u' :: cs => codePoint? 4 cs
  | 'U' :: cs => codePoint? 8 cs
  | _ => none

/-- Puts a character in front of what a reader took. -/
def prepend (front : List Char) (r : Option (List Char × List Char)) : Option (List Char × List Char) :=
  r.map fun (text, rest) => (front ++ text, rest)

/-- A quoted string on one line, behind its opening quote. -/
def basicString : Nat → Reader (List Char)
  | 0, _ => none
  | _ + 1, '"' :: cs => some ([], cs)
  | fuel + 1, '\\' :: cs =>
    match escape? cs with
    | some (c, cs) => prepend [c] (basicString fuel cs)
    | none => none
  | fuel + 1, c :: cs => if isText c then prepend [c] (basicString fuel cs) else none
  | _ + 1, [] => none

/-- A literal string on one line, behind its opening quote: nothing is escaped. -/
def literalString : Reader (List Char)
  | [] => none
  | c :: cs => if c = '\'' then some ([], cs) else if isText c then prepend [c] (literalString cs) else none

/-- A newline is a line feed, with or without a carriage return in front. -/
def newline? : List Char → Option (List Char)
  | '\n' :: cs | '\r' :: '\n' :: cs => some cs
  | _ => none

def skipNewline (cs : List Char) : List Char := (newline? cs).getD cs

/-- Blanks and newlines. -/
def skipSpace : List Char → List Char
  | '\r' :: '\n' :: cs => skipSpace cs
  | c :: cs => if isBlank c || c == '\n' then skipSpace cs else c :: cs
  | [] => []

/-- A run of quotes inside a string of several lines: three close it, after at most two more that
belong to it. -/
inductive QuoteRun
  | inside (quotes rest : List Char)
  | closing (quotes rest : List Char)

def quoteRun (quote : Char) (cs : List Char) : QuoteRun :=
  let n := (cs.takeWhile (· == quote)).length
  if n < 3 then .inside (List.replicate n quote) (cs.drop n)
  else .closing (List.replicate (min (n - 3) 2) quote) (cs.drop (min (n - 3) 2 + 3))

/-- A string of several lines, behind its opening quotes. Newlines stay as they are written. Without
escapes a backslash is itself; with them one at the end of a line takes the space up to the next text
away. -/
def linesString (quote : Char) (escapes : Bool) : Nat → Reader (List Char)
  | 0, _ => none
  | _ + 1, [] => none
  | fuel + 1, c :: cs =>
    if c = quote then
      match quoteRun quote (c :: cs) with
      | .inside quotes rest => prepend quotes (linesString quote escapes fuel rest)
      | .closing quotes rest => some (quotes, rest)
    else if c = '\\' ∧ escapes then
      match newline? (skipBlanks cs) with
      | some rest => linesString quote escapes fuel (skipSpace rest)
      | none =>
        match escape? cs with
        | some (d, rest) => prepend [d] (linesString quote escapes fuel rest)
        | none => none
    else if isText c ∨ (newline? (c :: cs)).isSome then prepend [c] (linesString quote escapes fuel cs)
    else none

/-- Any string, from its opening quotes on. -/
def string? : Reader (List Char)
  | '"' :: '"' :: '"' :: cs => linesString '"' true (cs.length + 1) (skipNewline cs)
  | '\'' :: '\'' :: '\'' :: cs => linesString '\'' false (cs.length + 1) (skipNewline cs)
  | '"' :: cs => basicString (cs.length + 1) cs
  | '\'' :: cs => literalString cs
  | _ => none

/-- Digits without the underscores that may stand singly between two of them. -/
def ungroup? (radix : Nat) : List Char → Option (List Char)
  | [] => none
  | [c] => if isDigitOf radix c then some [c] else none
  | c :: '_' :: cs => if isDigitOf radix c then (ungroup? radix cs).map (c :: ·) else none
  | c :: cs => if isDigitOf radix c then (ungroup? radix cs).map (c :: ·) else none

/-- Decimal digits, without a zero in front of others. -/
def plainDigits? (cs : List Char) : Option (List Char) :=
  match cs with
  | '0' :: _ :: _ => none
  | _ => ungroup? 10 cs

/-- Splits off a sign; true is minus. -/
def splitSign : List Char → Bool × List Char
  | '-' :: cs => (true, cs)
  | '+' :: cs => (false, cs)
  | cs => (false, cs)

/-- The value of decimal digits under a sign. -/
def signedValue (negative : Bool) (ds : List Char) : Int :=
  if negative then -(valueOf 10 ds : Int) else (valueOf 10 ds : Int)

/-- An integer has at most 128 bits. -/
def integerValue (n : Int) : TomlValue :=
  if -(2 ^ 127 : Int) ≤ n ∧ n < (2 ^ 128 : Int) then .integer n else .unusable

/-- An integer by what stands behind the name of its radix; if that is nothing, it is unusable. -/
def radixInteger? (radix : Nat) (cs : List Char) : Option TomlValue :=
  if cs.isEmpty then some .unusable
  else (ungroup? radix cs).map fun ds => integerValue (valueOf radix ds)

def integer? (cs : List Char) : Option TomlValue :=
  match cs with
  | '0' :: 'x' :: ds => radixInteger? 16 ds
  | '0' :: 'o' :: ds => radixInteger? 8 ds
  | '0' :: 'b' :: ds => radixInteger? 2 ds
  | _ =>
    let (negative, ds) := splitSign cs
    (plainDigits? ds).map fun ds => integerValue (signedValue negative ds)

/-- The exponent behind an `e`, or zero where there is none. -/
def exponent? : List Char → Option Int
  | [] => some 0
  | _ :: cs =>
    let (negative, ds) := splitSign cs
    (ungroup? 10 ds).map (signedValue negative)

/-- The digits behind a point, or none where there is no point. -/
def fraction? : List Char → Option (List Char)
  | [] => some []
  | _ :: cs => ungroup? 10 cs

/-- A float has a fraction or an exponent, or is infinite by name, or no number. A finite one that is
too great is unusable. -/
def float? (cs : List Char) : Option TomlValue :=
  let (negative, body) := splitSign cs
  let bits (positive : UInt64) : Option TomlValue :=
    some (.float (Float.ofBits (if negative then positive ||| 0x8000000000000000 else positive)))
  if body = ['i', 'n', 'f'] then bits 0x7ff0000000000000
  else if body = ['n', 'a', 'n'] then bits 0x7ff8000000000000
  else
    let isE (c : Char) : Bool := c == 'e' || c == 'E'
    let mantissa := body.takeWhile (!isE ·)
    let tail := body.dropWhile (!isE ·)
    let point := mantissa.dropWhile (· != '.')
    if tail.isEmpty && point.isEmpty then none
    else do
      let whole ← plainDigits? (mantissa.takeWhile (· != '.'))
      let part ← fraction? point
      let exponent ← exponent? tail
      let x? := DecimalFloats.ofDecimal? negative (valueOf 10 (whole ++ part)) (exponent - part.length)
      some ((x?.map TomlValue.float).getD .unusable)

/-- Exactly `n` digits. -/
def fixedNumber? (n : Nat) : Reader Nat := fun cs =>
  let ds := cs.take n
  if ds.length = n ∧ ds.all (isDigitOf 10) then some (valueOf 10 ds, cs.drop n) else none

def isLeapYear (y : Nat) : Bool := y % 4 == 0 && (y % 100 != 0 || y % 400 == 0)

def daysIn (year month : Nat) : Nat :=
  if month = 2 then (if isLeapYear year then 29 else 28)
  else if month = 4 ∨ month = 6 ∨ month = 9 ∨ month = 11 then 30
  else 31

def readDate : Reader Unit := fun cs => do
  let (year, cs) ← fixedNumber? 4 cs
  let (_, cs) ← Reader.char '-' cs
  let (month, cs) ← fixedNumber? 2 cs
  let (_, cs) ← Reader.char '-' cs
  let (day, cs) ← fixedNumber? 2 cs
  if 1 ≤ month ∧ month ≤ 12 ∧ 1 ≤ day ∧ day ≤ daysIn year month then some ((), cs) else none

/-- The fraction of a second, behind its point. -/
def skipSecondFraction : List Char → Option (List Char)
  | '.' :: c :: cs => if isDigitOf 10 c then some (cs.dropWhile (isDigitOf 10)) else none
  | '.' :: [] => none
  | cs => some cs

/-- Seconds may be left out; a minute may have a leap second. -/
def skipSeconds : List Char → Option (List Char)
  | ':' :: cs => do
    let (second, cs) ← fixedNumber? 2 cs
    if second ≤ 60 then skipSecondFraction cs else none
  | cs => some cs

def readHourMinute : Reader Unit := fun cs => do
  let (hour, cs) ← fixedNumber? 2 cs
  let (_, cs) ← Reader.char ':' cs
  let (minute, cs) ← fixedNumber? 2 cs
  if hour ≤ 23 ∧ minute ≤ 59 then some ((), cs) else none

def readTime : Reader Unit := fun cs => do
  let (_, cs) ← readHourMinute cs
  let cs ← skipSeconds cs
  some ((), cs)

/-- Nothing, or the offset of a time zone. -/
def isOffset : List Char → Bool
  | [] | ['Z'] | ['z'] => true
  | c :: cs => (c == '+' || c == '-') && (Reader.whole readHourMinute cs).isSome

/-- A date, a time, or both with an optional offset. -/
def isDateTime (cs : List Char) : Bool :=
  match readDate cs with
  | some (_, []) => true
  | some (_, c :: rest) =>
    (c == 'T' || c == 't' || c == ' ') &&
      match readTime rest with
      | some (_, rest) => isOffset rest
      | none => false
  | none => (Reader.whole readTime cs).isSome

/-- A value that is neither quoted nor bracketed. -/
def plain? (cs : List Char) : Option TomlValue :=
  if cs = "true".toList then some (.boolean true)
  else if cs = "false".toList then some (.boolean false)
  else (integer? cs).or ((float? cs).or (if isDateTime cs then some .dateTime else none))

/-- Where a plain value ends. -/
def endsPlain (c : Char) : Bool :=
  isBlank c || c == '\n' || c == '\r' || c == ',' || c == ']' || c == '}' || c == '#'

/-- The text of a plain value. A date goes on behind one blank if a digit follows it. -/
def plainText (cs : List Char) : List Char × List Char :=
  let front := cs.takeWhile (!endsPlain ·)
  let rest := cs.dropWhile (!endsPlain ·)
  match (Reader.whole readDate front).isSome, rest with
  | true, ' ' :: c :: more =>
    if isDigitOf 10 c then
      (front ++ ' ' :: (c :: more).takeWhile (!endsPlain ·), (c :: more).dropWhile (!endsPlain ·))
    else (front, rest)
  | _, _ => (front, rest)

end MixRelay.Toml
