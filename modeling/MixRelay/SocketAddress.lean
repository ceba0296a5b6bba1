import MixRelay.IpAddress

/-! # Socket addresses, their text, and numeric hosts

`a.b.c.d:port`, or `[v6]:port` with an optional numeric scope `%n` inside the brackets. A text of
neither form may still name a numeric host in front of its last colon: IPv6 without brackets, or
IPv4 in one to four parts, each decimal, octal or hexadecimal, the last one filling the octets that
remain. -/
namespace MixRelay

structure SocketAddress where
  ip : IpAddress
  scope : Nat
  port : UInt16
  deriving DecidableEq

namespace SocketAddress
open Reader

def readPort : Reader UInt16 := fun cs => do
  let (_, cs) ← char ':' cs
  let (n, cs) ← number 10 65535 cs
  some (UInt16.ofNat n, cs)

/-- A scope is a percent sign and a number; without one it is zero. -/
def readScope : Reader Nat := fun cs =>
  match cs with
  | '%' :: rest => (number 10 (2 ^ 32 - 1) rest).or (some (0, cs))
  | _ => some (0, cs)

def readV4 : Reader SocketAddress := fun cs => do
  let (ns, cs) ← IpAddress.readV4 cs
  let (port, cs) ← readPort cs
  some (⟨IpAddress.ofOctets ns, 0, port⟩, cs)

def readV6 : Reader SocketAddress := fun cs => do
  let (_, cs) ← char '[' cs
  let (ns, cs) ← IpAddress.readV6 cs
  let (scope, cs) ← readScope cs
  let (_, cs) ← char ']' cs
  let (port, cs) ← readPort cs
  some (⟨IpAddress.ofGroups ns, scope, port⟩, cs)

def parse? (text : String) : Option SocketAddress :=
  whole (fun cs => (readV4 cs).or (readV6 cs)) text.toList

def render (a : SocketAddress) : String :=
  match a.ip with
  | .v4 .. => s!"{a.ip.render}:{a.port.toNat}"
  | .v6 _ =>
    let scope := if a.scope = 0 then "" else s!"%{a.scope}"
    s!"[{a.ip.render}{scope}]:{a.port.toNat}"

/-- A part of a numeric IPv4 host: `0x` starts hexadecimal and `0` octal. -/
def readHostPart : Reader Nat := fun cs =>
  match cs with
  | '0' :: x :: rest =>
    if x = 'x' ∨ x = 'X' then (number 16 (2 ^ 32 - 1) rest).or (some (0, x :: rest))
    else if isDigitOf 8 x then number 8 (2 ^ 32 - 1) cs
    else some (0, x :: rest)
  | _ => number 10 (2 ^ 32 - 1) cs

/-- The parts of a numeric IPv4 host, at most `limit` of them. -/
def readHostParts : Nat → List Char → Option (List Nat)
  | 0, _ => none
  | limit + 1, cs =>
    match readHostPart cs with
    | none => none
    | some (n, []) => some [n]
    | some (n, '.' :: rest) => (readHostParts limit rest).map (n :: ·)
    | some _ => none

/-- All parts but the last are octets; the last fills the octets that remain. -/
def hostOctets? : List Nat → Option (List Nat)
  | [n] => if n < 2 ^ 32 then some [n / 2 ^ 24, n / 2 ^ 16 % 256, n / 256 % 256, n % 256] else none
  | [a, n] => if a < 256 ∧ n < 2 ^ 24 then some [a, n / 2 ^ 16, n / 256 % 256, n % 256] else none
  | [a, b, n] => if a < 256 ∧ b < 256 ∧ n < 2 ^ 16 then some [a, b, n / 256, n % 256] else none
  | [a, b, c, d] => if a < 256 ∧ b < 256 ∧ c < 256 ∧ d < 256 then some [a, b, c, d] else none
  | _ => none

def readScopedV6 : Reader (List Nat × Nat) := fun cs => do
  let (ns, cs) ← IpAddress.readV6 cs
  let (scope, cs) ← readScope cs
  some ((ns, scope), cs)

/-- The address and scope of a numeric host. -/
def numericHost? (host : List Char) : Option (IpAddress × Nat) :=
  match (readHostParts 4 host).bind hostOctets? with
  | some ns => some (IpAddress.ofOctets ns, 0)
  | none => (whole readScopedV6 host).map fun (ns, scope) => (IpAddress.ofGroups ns, scope)

/-- A port with an optional plus sign. -/
def portNumber? (cs : List Char) : Option UInt16 :=
  let digits := match cs with
    | '+' :: rest => rest
    | _ => cs
  (whole (number 10 65535) digits).map UInt16.ofNat

/-- The texts before and after the last colon. -/
def splitLastColon (cs : List Char) : Option (List Char × List Char) :=
  let back := cs.reverse
  let port := (back.takeWhile (· != ':')).reverse
  match back.dropWhile (· != ':') with
  | [] => none
  | _ :: host => some (host.reverse, port)

/-- The address of a text that names its host by number. -/
def resolve? (text : String) : Option SocketAddress :=
  match parse? text with
  | some a => some a
  | none => do
    let (host, port) ← splitLastColon text.toList
    let port ← portNumber? port
    let (ip, scope) ← numericHost? host
    some ⟨ip, scope, port⟩

end SocketAddress
end MixRelay
