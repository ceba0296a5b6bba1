/-! # TOML values and the tables they stand in

A table remembers how it came to be, for that decides who may still add to it: a table header opens
a table once and goes through any table but an inline one; a dotted key goes through tables that no
header has opened, and adds to those that dotted keys have made. On the way through an array of
tables both go through the last one. -/
namespace MixRelay

inductive TableForm
  /-- named on the way to the table of a header -/
  | implied
  /-- named on the way to the key of a value -/
  | dotted
  /-- opened by a header; the document itself is one -/
  | header
  /-- written between braces, and complete -/
  | inline
  deriving DecidableEq

inductive TomlValue
  | string (text : String)
  | integer (n : Int)
  | float (x : Float)
  /-- a number too great for any use, or without digits -/
  | unusable
  | boolean (b : Bool)
  | dateTime
  | array (items : List TomlValue)
  /-- an array of tables, opened one by one by headers -/
  | tables (items : List TomlValue)
  | table (form : TableForm) (entries : List (String × TomlValue))

abbrev TomlEntries := List (String × TomlValue)

mutual

/-- A value can be read if no number in it, at any depth, is unusable. -/
def TomlValue.isReadable : TomlValue → Bool
  | .unusable => false
  | .array items | .tables items => TomlValue.areReadable items
  | .table _ entries => TomlEntries.areReadable entries
  | .string _ | .integer _ | .float _ | .boolean _ | .dateTime => true

def TomlValue.areReadable : List TomlValue → Bool
  | [] => true
  | v :: vs => v.isReadable && TomlValue.areReadable vs

def TomlEntries.areReadable : TomlEntries → Bool
  | [] => true
  | (_, v) :: es => v.isReadable && TomlEntries.areReadable es

end

namespace TomlEntries

def get? (es : TomlEntries) (key : String) : Option TomlValue :=
  (es.find? fun e => e.1 = key).map (·.2)

/-- Gives a key a value, in its old place if it had one. -/
def put (es : TomlEntries) (key : String) (v : TomlValue) : TomlEntries :=
  if (es.get? key).isSome then es.map fun e => if e.1 = key then (key, v) else e
  else es ++ [(key, v)]

/-- Changes the table at the end of a path. On the way missing tables are made, by a dotted key or
for a header; of an array of tables the last one is meant. -/
def descend (dotted : Bool) (change : TableForm → TomlEntries → Option TomlEntries) :
    List String → TableForm → TomlEntries → Option TomlEntries
  | [], form, es => change form es
  | key :: path, _, es =>
    match es.get? key with
    | none =>
      let form := if dotted then .dotted else .implied
      (descend dotted change path form []).map fun sub => es.put key (.table form sub)
    | some (.table form sub) =>
      if form = .inline ∨ (dotted ∧ form = .header) then none
      else (descend dotted change path form sub).map fun sub => es.put key (.table form sub)
    | some (.tables items) =>
      match items.getLast? with
      | some (.table form sub) =>
        (descend dotted change path form sub).map fun sub =>
          es.put key (.tables (items.dropLast ++ [.table form sub]))
      | _ => none
    | some _ => none

/-- Adds a value under a dotted key to a table of some form; no key is given twice. -/
def addUnder (path : List String) (key : String) (v : TomlValue) (form : TableForm)
    (es : TomlEntries) : Option TomlEntries :=
  descend true (fun form es =>
    if (form == .dotted) == path.isEmpty then none
    else if (es.get? key).isSome then none
    else some (es ++ [(key, v)])) path form es

/-- Adds a value under a dotted key to the table that a header has opened. -/
def add (opened path : List String) (key : String) (v : TomlValue) (es : TomlEntries) :
    Option TomlEntries :=
  descend false (addUnder path key v) opened .header es

/-- Opens a table. One that headers have only named so far is opened, others are not opened twice. -/
def openTable (path : List String) (key : String) (es : TomlEntries) : Option TomlEntries :=
  descend false (fun _ es =>
    match es.get? key with
    | none => some (es.put key (.table .header []))
    | some (.table .implied sub) => some (es.put key (.table .header sub))
    | some _ => none) path .header es

/-- Opens the next table of an array of tables. -/
def openElement (path : List String) (key : String) (es : TomlEntries) : Option TomlEntries :=
  descend false (fun _ es =>
    match es.get? key with
    | none => some (es.put key (.tables [.table .header []]))
    | some (.tables items) => some (es.put key (.tables (items ++ [.table .header []])))
    | some _ => none) path .header es

end TomlEntries
end MixRelay
