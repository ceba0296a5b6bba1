import MixRelay.MixMessages

/-! # Payload lengths along the cascade

Requests start with one header for each relay that has still to process them. Each relay strips its
own, so an establish or message payload shrinks by one header unit a hop, down to its base. -/
namespace MixRelay

structure PayloadFraming where
  headerUnit : Nat
  establishBase : Nat
  messageBase : Nat
  furtherHops : Nat
  deriving DecidableEq

namespace PayloadFraming

/-- The four numbers in their order. -/
def toList (f : PayloadFraming) : List Nat :=
  [f.headerUnit, f.establishBase, f.messageBase, f.furtherHops]

/-- The relays that have still to process a request arriving here, this one included. -/
def remainingHops (f : PayloadFraming) : Nat := f.furtherHops + 1

def base? (f : PayloadFraming) : MessageKind → Option Nat
  | .establish => some f.establishBase
  | .message => some f.messageBase
  | _ => none

/-- The payload length with which a message arrives; replies and control messages have no fixed one. -/
def inbound? (f : PayloadFraming) (k : MessageKind) : Option Nat :=
  (f.base? k).map (· + f.headerUnit * f.remainingHops)

def outbound? (f : PayloadFraming) (k : MessageKind) : Option Nat :=
  (f.base? k).map (· + f.headerUnit * f.furtherHops)

def establishLength (f : PayloadFraming) : Nat := f.establishBase + f.headerUnit * f.remainingHops

def messageLength (f : PayloadFraming) : Nat := f.messageBase + f.headerUnit * f.remainingHops

/-- The request length due from a client, before and after its establish message. -/
def requestLength (f : PayloadFraming) (established : Bool) : Nat :=
  if established then f.messageLength else f.establishLength

def describe (f : PayloadFraming) : String :=
  s!"Framing \x7b header_unit: {f.headerUnit}, establish_base: {f.establishBase}, " ++
    s!"message_base: {f.messageBase}, further_hops: {f.furtherHops} \x7d"

/-- What leaves a relay arrives at the next one, which has one further hop less. -/
theorem outbound?_eq_inbound? (f : PayloadFraming) (h : 0 < f.furtherHops) (k : MessageKind) :
    f.outbound? k = { f with furtherHops := f.furtherHops - 1 }.inbound? k := by
  have : f.furtherHops - 1 + 1 = f.furtherHops := by omega
  cases k <;> simp [outbound?, inbound?, base?, remainingHops, this]

end PayloadFraming
end MixRelay
