import MixRelay.Relay

/-! # Relays in a row

Each relay is connected to the next. Requests sweep from the first relay to the last and replies back
to the first; a request never waits for a reply, so one sweep each way hands everything on. -/
namespace MixRelay

/-- The relays from the first to the last. -/
structure Cascade where
  relays : List Relay

namespace Cascade

/-- The previous relay of a row connects to its first one. -/
def acceptAtHead : List Relay → List Relay
  | [] => []
  | r :: rest => r.acceptPrevious :: rest

/-- Starts relays from the last to the first, each told the address of the one behind it. -/
def startRow (host : Host) :
    KeyExchange → List (RelaySettings × Draws) → Except RelayError (List Relay × KeyExchange)
  | keys, [] => .ok ([], keys)
  | keys, (s, draws) :: rest => do
    let (relays, keys) ← startRow host keys rest
    let next := (relays.head?.bind Relay.address).map SocketAddress.render
    let s := { s with outbound := { s.outbound with address := next } }
    let (r, keys) ← Relay.start s host keys draws
    .ok (r :: acceptAtHead relays, keys)

def start (host : Host) (keys : KeyExchange) (row : List (RelaySettings × Draws)) :
    Except RelayError Cascade :=
  (startRow host keys row).map fun (relays, _) => ⟨relays⟩

/-- Hands requests on from the first relay to the last. -/
def sweepForward : Bytes → List Relay → List Relay
  | _, [] => []
  | arriving, r :: rest =>
    let (bytes, r) := (r.hearPrevious arriving).takeToNext
    r :: sweepForward bytes rest

/-- Hands replies on from the last relay to the first. -/
def sweepBack : List Relay → Bytes × List Relay
  | [] => ([], [])
  | r :: rest =>
    let (arriving, rest) := sweepBack rest
    let (bytes, r) := (r.hearNext arriving).takeToPrevious
    (bytes, r :: rest)

/-- Everything that has been written arrives. -/
def settle (c : Cascade) : Cascade := ⟨(sweepBack (sweepForward [] c.relays)).2⟩

/-- Every relay does something of its own, and what it writes arrives. -/
def each (c : Cascade) (act : Relay → Relay) : Cascade := settle ⟨c.relays.map act⟩

/-- The first relay does something, and what it writes arrives. -/
def first (c : Cascade) (act : Relay → Relay) : Cascade :=
  match c.relays with
  | [] => c
  | r :: rest => settle ⟨act r :: rest⟩

/-- Time passes until the rounds of all mixers and of the replies are over. -/
def passTime (c : Cascade) : Cascade :=
  (((c.each (·.sample false)).each Relay.endRounds).each (·.sample true)).each Relay.endRounds

/-- A client connects to the first relay; the answer is its token, unless it is refused. -/
def connectClient (c : Cascade) (address : IpAddress) : Option Nat × Cascade :=
  match c.relays with
  | [] => (none, c)
  | r :: rest =>
    let (token, r) := r.connectClient address
    (token, ⟨r :: rest⟩)

/-- The channels that each relay knows, counted. -/
def channelCounts (c : Cascade) : List Nat := c.relays.map fun r => r.registry.channels.length

/-- The frames written so far for a client of the first relay. -/
def framesFor (c : Cascade) (token : Nat) : List Bytes :=
  match c.relays with
  | [] => []
  | r :: _ => (r.toClients.filter fun frame => frame.1 = token).map (·.2)

end Cascade
end MixRelay
