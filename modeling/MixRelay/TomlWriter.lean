import MixRelay.TomlValues

/-! # Writing TOML strings

A string is written in the first of six styles that shows it without escapes: quoted or literal, on
one line or on several. Only control characters force escapes. A string that holds a newline starts
on a line of its own. -/
namespace MixRelay.Toml

def isControl (c : Char) : Bool := (c.toNat < 32 && c != '\t' && c != '\n') || c.toNat == 127

/-- The longest run of a character. -/
def longestRun (quote : Char) (cs : List Char) : Nat :=
  (cs.foldl (fun (best, now) c =>
    let now := if c = quote then now + 1 else 0
    (max best now, now)) (0, 0)).1

inductive StringStyle
  | basic
  | literal
  | basicLines
  | literalLines
  deriving DecidableEq

def StringStyle.delimiter : StringStyle → String
  | .basic => "\""
  | .literal => "'"
  | .basicLines => "\"\"\""
  | .literalLines => "'''"

def StringStyle.isLines : StringStyle → Bool
  | .basic | .literal => false
  | .basicLines | .literalLines => true

/-- The style of a string: quoted unless a quote, a backslash or a newline asks for another. -/
def styleOf (cs : List Char) : StringStyle :=
  let control := cs.any isControl
  let backslash := cs.contains '\\'
  let newline := cs.contains '\n'
  let quotes := longestRun '"' cs
  let marks := longestRun '\'' cs
  if !control && !backslash && quotes = 0 && !newline then .basic
  else if !control && marks = 0 && !newline then .literal
  else if !control && !backslash && quotes ≤ 2 then .basicLines
  else if !control && marks ≤ 2 then .literalLines
  else if newline then .basicLines
  else .basic

def upperHex (n width : Nat) : String :=
  let ds := (Nat.toDigits 16 n).map Char.toUpper
  String.ofList (List.replicate (width - ds.length) '0' ++ ds)

/-- One character between quotes that escape; on several lines a newline is itself. -/
def escaped (lines : Bool) (c : Char) : String :=
  if c = '\x08' then "\\b"
  else if c = '\t' then "\\t"
  else if c = '\n' then (if lines then "\n" else "\\n")
  else if c = '\x0c' then "\\f"
  else if c = '\r' then "\\r"
  else if c = '\\' then "\\\\"
  else if isControl c then "\\u" ++ upperHex c.toNat 4
  else String.singleton c

/-- The text between quotes that escape. Quotes are escaped, on several lines only every third of a
run; `run` counts those before. -/
def escapeAll (lines : Bool) (run : Nat) : List Char → String
  | [] => ""
  | c :: cs =>
    if c = '"' then
      if (if lines then 2 else 0) ≤ run then "\\\"" ++ escapeAll lines 0 cs
      else "\"" ++ escapeAll lines (run + 1) cs
    else escaped lines c ++ escapeAll lines 0 cs

def renderString (text : String) : String :=
  let cs := text.toList
  let style := styleOf cs
  let lead := if style.isLines && cs.contains '\n' then "\n" else ""
  let body := match style with
    | .basic | .basicLines => escapeAll style.isLines 0 cs
    | .literal | .literalLines => text
  style.delimiter ++ lead ++ body ++ style.delimiter

/-- A line of a table. -/
def renderEntry (key value : String) : String := key ++ " = " ++ value ++ "\n"

/-- A table under its header. -/
def renderTable (name : String) (entries : List (String × String)) : String :=
  "[" ++ name ++ "]\n" ++ String.join (entries.map fun e => renderEntry e.1 e.2)

end MixRelay.Toml
