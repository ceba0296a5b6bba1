import MixRelay.InboundEdge
import MixRelay.OutboundEdge

/-! # Writing all that an edge can write

An edge takes its messages up one by one, and writes the frame of each before the next. Without a
connection it keeps the frame in hand. -/
namespace MixRelay

namespace InboundEdge

/-- A message costs two steps, taking it up and writing it. -/
def pendingSteps (e : InboundEdge) : Nat := 2 * e.replies.length + (if e.inHand.isSome then 1 else 0)

def sendSome : Nat → InboundEdge → Bytes × InboundEdge
  | 0, e => ([], e)
  | steps + 1, e =>
    match e.sendNext? with
    | none => ([], e)
    | some (bytes, e) =>
      let (more, e) := e.sendSome steps
      (bytes ++ more, e)

/-- Sends messages behind those that wait. -/
def send (e : InboundEdge) (messages : List Message) : Bytes × InboundEdge :=
  let e := { e with replies := e.replies ++ messages }
  e.sendSome e.pendingSteps

end InboundEdge

namespace OutboundEdge

def pendingSteps (e : OutboundEdge) : Nat := 2 * e.requests.length + (if e.inHand.isSome then 1 else 0)

def sendSome : Nat → OutboundEdge → Bytes × OutboundEdge
  | 0, e => ([], e)
  | steps + 1, e =>
    match e.sendNext? with
    | none => ([], e)
    | some (bytes, e) =>
      let (more, e) := e.sendSome steps
      (bytes ++ more, e)

/-- Sends messages behind those that wait. -/
def send (e : OutboundEdge) (messages : List Message) : Bytes × OutboundEdge :=
  let e := { e with requests := e.requests ++ messages }
  e.sendSome e.pendingSteps

end OutboundEdge
end MixRelay
