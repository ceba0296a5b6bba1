import MixRelay.NumberReading

/-! # Internet addresses and their text

IPv4 in dotted decimal without leading zeros; IPv6 in groups of up to four hexadecimal digits, with
at most one `::` for at least one group of zeros, and an IPv4 tail. Written IPv6 is canonical: lower
case, the first longest run of at least two zero groups as `::`, IPv4-mapped addresses with their
IPv4 tail. -/
namespace MixRelay

inductive IpAddress
  | v4 (a b c d : UInt8)
  | v6 (groups : Vector UInt16 8)
  deriving DecidableEq

namespace IpAddress
open Reader

/-- Four numbers of at most three digits, divided by points. -/
def readV4 : Reader (List Nat) := fun cs => do
  let octet := withoutLeadingZero (shortNumber 10 3 255)
  let (a, cs) ← octet cs
  let (_, cs) ← char '.' cs
  let (b, cs) ← octet cs
  let (_, cs) ← char '.' cs
  let (c, cs) ← octet cs
  let (_, cs) ← char '.' cs
  let (d, cs) ← octet cs
  some ([a, b, c, d], cs)

/-- The colon before a group; there is none before the first. -/
def readSeparator (isFirst : Bool) : Reader Unit := fun cs =>
  if isFirst then some ((), cs) else char ':' cs

/-- An IPv4 tail as two groups. -/
def readV4Groups (isFirst : Bool) : Reader (List Nat) := fun cs => do
  let (_, cs) ← readSeparator isFirst cs
  let (octets, cs) ← readV4 cs
  match octets with
  | [a, b, c, d] => some ([256 * a + b, 256 * c + d], cs)
  | _ => none

def readGroup (isFirst : Bool) : Reader Nat := fun cs => do
  let (_, cs) ← readSeparator isFirst cs
  shortNumber 16 4 65535 cs

/-- Takes up to `limit` groups, with an IPv4 tail where two groups still fit. The flag tells whether
there was one; the groups then end with it. -/
def readGroups (isFirst : Bool) : Nat → List Char → List Nat × Bool × List Char
  | 0, cs => ([], false, cs)
  | limit + 1, cs =>
    match if limit = 0 then none else readV4Groups isFirst cs with
    | some (gs, rest) => (gs, true, rest)
    | none =>
      match readGroup isFirst cs with
      | none => ([], false, cs)
      | some (g, rest) =>
        let (gs, tail, rest) := readGroups false limit rest
        (g :: gs, tail, rest)

def readV6 : Reader (List Nat) := fun cs =>
  let (front, tail, cs) := readGroups true 8 cs
  if front.length = 8 then some (front, cs)
  else if tail then none
  else do
    let (_, cs) ← char ':' cs
    let (_, cs) ← char ':' cs
    let (back, _, cs) := readGroups true (7 - front.length) cs
    some (front ++ List.replicate (8 - front.length - back.length) 0 ++ back, cs)

def ofOctets (ns : List Nat) : IpAddress :=
  .v4 (UInt8.ofNat (ns.getD 0 0)) (UInt8.ofNat (ns.getD 1 0)) (UInt8.ofNat (ns.getD 2 0))
    (UInt8.ofNat (ns.getD 3 0))

def ofGroups (ns : List Nat) : IpAddress := .v6 (Vector.ofFn fun i => UInt16.ofNat (ns.getD i 0))

def readAny : Reader IpAddress := fun cs =>
  match readV4 cs with
  | some (ns, rest) => some (ofOctets ns, rest)
  | none => (readV6 cs).map fun (ns, rest) => (ofGroups ns, rest)

/-- The address that the whole text stands for. -/
def parse? (text : String) : Option IpAddress := whole readAny text.toList

def renderV4 (a b c d : Nat) : String := s!"{a}.{b}.{c}.{d}"

def renderGroups (gs : List Nat) : String :=
  ":".intercalate (gs.map fun g => String.ofList (Nat.toDigits 16 g))

def zeroRunAt (gs : List Nat) (start : Nat) : Nat := ((gs.drop start).takeWhile (· == 0)).length

/-- Where the first longest run of zero groups starts. -/
def longestZeroRun (gs : List Nat) : Nat :=
  (List.range gs.length).foldl (fun best i => if zeroRunAt gs best < zeroRunAt gs i then i else best) 0

def renderV6 (gs : List Nat) : String :=
  match gs with
  | [0, 0, 0, 0, 0, 0xffff, x, y] => "::ffff:" ++ renderV4 (x / 256) (x % 256) (y / 256) (y % 256)
  | _ =>
    let start := longestZeroRun gs
    let run := zeroRunAt gs start
    if run < 2 then renderGroups gs
    else renderGroups (gs.take start) ++ "::" ++ renderGroups (gs.drop (start + run))

def render : IpAddress → String
  | .v4 a b c d => renderV4 a.toNat b.toNat c.toNat d.toNat
  | .v6 gs => renderV6 (gs.toList.map UInt16.toNat)

end IpAddress
end MixRelay
