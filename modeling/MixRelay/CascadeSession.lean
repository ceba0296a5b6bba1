import MixRelay.Cascade
import MixRelay.ReplyPayloads

/-! # A cascade and its clients

Clients are numbered in the order in which they try to connect. A client waits for the data of
replies, whose padding it drops. -/
namespace MixRelay

structure CascadeSession where
  cascade : Cascade
  /-- For each client its token, or none if it was refused, and the bytes it has waited for so far. -/
  clients : List (Option Nat × Nat)

namespace CascadeSession

/-- The settings of one relay of a row on one host; a channel with any data counts as filled. -/
def settingsAt (framing : PayloadFraming) (maxReplyLength roundSize roundTimeoutMs : Nat)
    (previousHops furtherHops : Nat) : RelaySettings :=
  let s := (RelaySettings.atPosition previousHops furtherHops none).onLoopback
  { s with
    framing := { s.framing with
      headerUnit := framing.headerUnit
      establishBase := framing.establishBase
      messageBase := framing.messageBase
      maxReplyLength := maxReplyLength }
    mixing := { s.mixing with roundSize := roundSize, roundTimeoutMs := roundTimeoutMs }
    reply := { s.reply with minVolume := 1 } }

/-- Starts a row of relays on one host. -/
def start (relays : Nat) (framing : PayloadFraming) (maxReplyLength roundSize roundTimeoutMs : Nat)
    (draws : Draws) : Except RelayError CascadeSession := do
  let row := (List.range relays).map fun i =>
    (settingsAt framing maxReplyLength roundSize roundTimeoutMs i (relays - 1 - i), draws)
  .ok ⟨← Cascade.start .loopback (.published []) row, []⟩

def token? (s : CascadeSession) (number : Nat) : Option Nat := (s.clients[number]?).bind (·.1)

def connect (s : CascadeSession) (address : IpAddress) : CascadeSession :=
  let (token, cascade) := s.cascade.connectClient address
  ⟨cascade, s.clients ++ [(token, 0)]⟩

/-- Bytes of a client arrive, and maybe the end of its stream. -/
def arrive (s : CascadeSession) (number : Nat) (bytes : Bytes) (ended : Bool) : CascadeSession :=
  match s.token? number with
  | none => s
  | some token => { s with cascade := s.cascade.first fun r => r.hearClient token bytes ended }

/-- All reply data that a client has been sent. -/
def dataFor (s : CascadeSession) (number : Nat) : Bytes :=
  match s.token? number with
  | none => []
  | some token => (s.cascade.framesFor token).flatMap fun frame =>
      (ReplyPayload.decode? (frame.drop 4)).getD []

/-- Lets time pass until a client has so many bytes, for some laps at most. -/
def waitFor (number size : Nat) : Nat → CascadeSession → CascadeSession
  | 0, s => s
  | laps + 1, s =>
    if size ≤ (s.dataFor number).length then s
    else waitFor number size laps { s with cascade := s.cascade.passTime }

/-- A client waits for so many bytes more, and gets what has come by then. -/
def await (s : CascadeSession) (number size : Nat) : Bytes × CascadeSession :=
  let before := ((s.clients[number]?).map (·.2)).getD 0
  let s := waitFor number (before + size) 64 s
  let data := s.dataFor number
  (data.drop before, { s with clients := s.clients.modify number fun c => (c.1, data.length) })

/-- The protocol faults that each relay has counted, of its clients and of the previous relay. -/
def faults (s : CascadeSession) : List (Option Nat × Option Nat) :=
  s.cascade.relays.map fun r =>
    (r.listener.map fun l => l.metrics.protocolFaults, r.inbound.map fun e => e.metrics.protocolFaults)

end CascadeSession
end MixRelay
