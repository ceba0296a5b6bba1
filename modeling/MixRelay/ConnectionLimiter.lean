import MixRelay.IpAddress

/-! # Caps on client connections

One cap for the relay and one for each address; a cap of zero per address is none. The counts are
those of the live connections, and an address without any has no entry. -/
namespace MixRelay

inductive LimitExceeded
  | total (current max : Nat)
  | perAddress (ip : IpAddress) (current max : Nat)
  deriving DecidableEq

def LimitExceeded.message : LimitExceeded → String
  | .total current max => s!"connection limit reached: {current} connections (max: {max})"
  | .perAddress ip current max =>
    s!"connection limit exceeded for {ip.render}: {current} connections (max: {max})"

structure ConnectionLimiter where
  maxTotal : Nat
  maxPerAddress : Nat
  total : Nat
  counts : List (IpAddress × Nat)
  deriving DecidableEq

namespace ConnectionLimiter

def new (maxTotal maxPerAddress : Nat) : ConnectionLimiter := ⟨maxTotal, maxPerAddress, 0, []⟩

def count (l : ConnectionLimiter) (ip : IpAddress) : Nat :=
  ((l.counts.find? fun entry => entry.1 = ip).map (·.2)).getD 0

/-- The number of addresses with an entry. -/
def addresses (l : ConnectionLimiter) : Nat := l.counts.length

def hasEntry (l : ConnectionLimiter) (ip : IpAddress) : Bool :=
  l.counts.any fun entry => entry.1 = ip

/-- The entries with one more connection of an address. -/
def countUp (l : ConnectionLimiter) (ip : IpAddress) : List (IpAddress × Nat) :=
  if l.hasEntry ip then
    l.counts.map fun entry => if entry.1 = ip then (entry.1, entry.2 + 1) else entry
  else l.counts ++ [(ip, 1)]

/-- The entries with one connection of an address less; an entry that comes to zero goes. -/
def countDown (l : ConnectionLimiter) (ip : IpAddress) : List (IpAddress × Nat) :=
  l.counts.filterMap fun entry =>
    if entry.1 = ip then (if entry.2 ≤ 1 then none else some (entry.1, entry.2 - 1)) else some entry

/-- Admits a connection, or tells which cap it meets; the cap of the relay is checked first. -/
def connect (l : ConnectionLimiter) (ip : IpAddress) : Except LimitExceeded ConnectionLimiter :=
  if l.maxTotal ≤ l.total then .error (.total l.total l.maxTotal)
  else if l.maxPerAddress ≠ 0 ∧ l.maxPerAddress ≤ l.count ip then
    .error (.perAddress ip (l.count ip) l.maxPerAddress)
  else .ok { l with total := l.total + 1, counts := l.countUp ip }

/-- The entry of an address, made at zero where there is none. -/
def withEntry (l : ConnectionLimiter) (ip : IpAddress) : ConnectionLimiter :=
  if l.hasEntry ip then l else { l with counts := l.counts ++ [(ip, 0)] }

/-- Admits or refuses a connection in place. Once the cap of the relay is passed the address has an entry,
before its own cap is checked. -/
def tryConnect (l : ConnectionLimiter) (ip : IpAddress) :
    Except LimitExceeded Unit × ConnectionLimiter :=
  if l.maxTotal ≤ l.total then (.error (.total l.total l.maxTotal), l)
  else
    let l := l.withEntry ip
    if l.maxPerAddress ≠ 0 ∧ l.maxPerAddress ≤ l.count ip then
      (.error (.perAddress ip (l.count ip) l.maxPerAddress), l)
    else
      (.ok (), { l with
        total := l.total + 1
        counts := l.counts.map fun entry => if entry.1 = ip then (entry.1, entry.2 + 1) else entry })

/-- Ends a connection of an address; without one nothing changes. -/
def disconnect (l : ConnectionLimiter) (ip : IpAddress) : ConnectionLimiter :=
  if l.hasEntry ip then { l with total := l.total - 1, counts := l.countDown ip } else l

end ConnectionLimiter
end MixRelay
