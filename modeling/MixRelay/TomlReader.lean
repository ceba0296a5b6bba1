import MixRelay.TomlLexemes

/-! # Reading TOML documents -/
namespace MixRelay.Toml

def isBareKey (c : Char) : Bool := c.isAlphanum || c == '_' || c == '-'

/-- One part of a key: bare, or quoted on one line. -/
def keyPart? : Reader String
  | '"' :: cs => (basicString (cs.length + 1) cs).map fun (k, rest) => (String.ofList k, rest)
  | '\'' :: cs => (literalString cs).map fun (k, rest) => (String.ofList k, rest)
  | cs =>
    let k := cs.takeWhile isBareKey
    if k.isEmpty then none else some (String.ofList k, cs.dropWhile isBareKey)

/-- How many parts a key may have, and how deep arrays and inline tables may stand in each other. -/
def depthLimit : Nat := 80

/-- A key of so many parts at most, divided by points, with blanks around them: the path and the last
part. -/
def keyParts? : Nat → Reader (List String × String)
  | 0, _ => none
  | parts + 1, cs => do
    let (part, cs) ← keyPart? (skipBlanks cs)
    match skipBlanks cs with
    | '.' :: rest =>
      let ((path, last), rest) ← keyParts? parts rest
      some ((part :: path, last), rest)
    | rest => some (([], part), rest)

def key? : Reader (List String × String) := keyParts? depthLimit

/-- Blanks, newlines and comments. -/
def skipFill (inComment : Bool) : List Char → Option (List Char)
  | [] => some []
  | '\r' :: '\n' :: cs => skipFill false cs
  | c :: cs =>
    if c = '\n' then skipFill false cs
    else if inComment then (if isText c then skipFill true cs else none)
    else if isBlank c then skipFill false cs
    else if c = '#' then skipFill true cs
    else some (c :: cs)

mutual

/-- A value; arrays and inline tables may stand in each other to the depth that is left. -/
def value? : Nat → Nat → Reader TomlValue
  | 0, _, _ => none
  | fuel + 1, depth, cs =>
    match cs, depth with
    | '[' :: _, 0 | '{' :: _, 0 => none
    | '[' :: rest, depth + 1 => (items? fuel depth rest).map fun (items, rest) => (.array items, rest)
    | '{' :: rest, depth + 1 =>
      (entries? fuel depth [] rest).map fun (es, rest) => (.table .inline es, rest)
    | '"' :: _, _ | '\'' :: _, _ =>
      (string? cs).map fun (text, rest) => (.string (String.ofList text), rest)
    | _, _ =>
      let (text, rest) := plainText cs
      (plain? text).map fun v => (v, rest)

/-- The items of an array, behind its bracket or a comma. -/
def items? : Nat → Nat → Reader (List TomlValue)
  | 0, _, _ => none
  | fuel + 1, depth, cs => do
    match ← skipFill false cs with
    | ']' :: rest => some ([], rest)
    | cs =>
      let (v, cs) ← value? fuel depth cs
      match ← skipFill false cs with
      | ']' :: rest => some ([v], rest)
      | ',' :: rest =>
        let (vs, rest) ← items? fuel depth rest
        some (v :: vs, rest)
      | _ => none

/-- The entries of an inline table, behind its brace or a comma, added to those before. A key, its
equals sign and its value may stand on lines of their own. -/
def entries? : Nat → Nat → TomlEntries → Reader TomlEntries
  | 0, _, _, _ => none
  | fuel + 1, depth, es, cs => do
    match ← skipFill false cs with
    | '}' :: rest => some (es, rest)
    | cs =>
      let ((path, key), cs) ← key? cs
      let (_, cs) ← Reader.char '=' (← skipFill false cs)
      let (v, cs) ← value? fuel depth (← skipFill false cs)
      let es ← TomlEntries.addUnder path key v .header es
      match ← skipFill false cs with
      | '}' :: rest => some (es, rest)
      | ',' :: rest => entries? fuel depth es rest
      | _ => none

end

/-- The rest of a line may hold blanks and a comment. -/
def endOfLine? (cs : List Char) : Option (List Char) :=
  let cs := skipBlanks cs
  let cs := match cs with
    | '#' :: rest => rest.dropWhile fun c => isText c
    | _ => cs
  if cs.isEmpty then some [] else newline? cs

/-- A document in the making: its entries, and the path of the table opened last. -/
structure Draft where
  entries : TomlEntries
  opened : List String

/-- Reads a line: a header, a value with its key, or nothing. -/
def line? (d : Draft) (cs : List Char) : Option (Draft × List Char) :=
  match skipBlanks cs with
  | '[' :: '[' :: rest => do
    let ((path, key), rest) ← key? rest
    let (_, rest) ← Reader.char ']' rest
    let (_, rest) ← Reader.char ']' rest
    let entries ← d.entries.openElement path key
    let rest ← endOfLine? rest
    some (⟨entries, path ++ [key]⟩, rest)
  | '[' :: rest => do
    let ((path, key), rest) ← key? rest
    let (_, rest) ← Reader.char ']' rest
    let entries ← d.entries.openTable path key
    let rest ← endOfLine? rest
    some (⟨entries, path ++ [key]⟩, rest)
  | cs =>
    match endOfLine? cs with
    | some rest => some (d, rest)
    | none => do
      let ((path, key), rest) ← key? cs
      let (_, rest) ← Reader.char '=' rest
      let (v, rest) ← value? (cs.length + 1) depthLimit (skipBlanks rest)
      let entries ← d.entries.add d.opened path key v
      let rest ← endOfLine? rest
      some (⟨entries, d.opened⟩, rest)

def lines? : Nat → Draft → List Char → Option Draft
  | _, d, [] => some d
  | 0, _, _ => none
  | fuel + 1, d, cs => do
    let (d, rest) ← line? d cs
    lines? fuel d rest

/-- The entries of a document, or none if it is not well formed. A byte order mark may stand first. -/
def parse? (text : String) : Option TomlEntries :=
  let cs := match text.toList with
    | '\ufeff' :: cs => cs
    | cs => cs
  (lines? (cs.length + 1) ⟨[], []⟩ cs).map Draft.entries

end MixRelay.Toml
