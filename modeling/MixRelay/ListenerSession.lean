import MixRelay.ClientListener

/-! # A listener and its clients

Clients are numbered in the order in which they try to connect. -/
namespace MixRelay

structure ListenerSession where
  listener : ClientListener
  /-- For each client its token and channel, or none if it was refused. -/
  clients : List (Option (Nat × ChannelId))
  deriving DecidableEq

/-- What a step comes to: the messages handed on, and the frames written, under their tokens. -/
structure ListenerStep where
  requests : List Message
  frames : List (Nat × Bytes)
  session : ListenerSession

namespace ListenerSession

def start (listener : ClientListener) : ListenerSession := ⟨listener, []⟩

def idle (s : ListenerSession) : ListenerStep := ⟨[], [], s⟩

def client? (s : ListenerSession) (number : Nat) : Option (Nat × ChannelId) := (s.clients[number]?).join

/-- The number of the client of a channel. -/
def numberOf (s : ListenerSession) (id : ChannelId) : Nat :=
  s.clients.findIdx fun c => c.map (·.2) == some id

def isLive (s : ListenerSession) (number : Nat) : Bool :=
  ((s.client? number).bind fun c => s.listener.connection? c.1).isSome

/-- The channel of a client, while it is registered. -/
def channel? (s : ListenerSession) (number : Nat) : Option Channel :=
  (s.client? number).bind fun c => s.listener.registry.find? c.2

/-- A client tries to connect, and is told whether it may. -/
def connect (s : ListenerSession) (address : IpAddress) : Bool × ListenerSession :=
  let (token, l) := s.listener.accept address
  let client := token.bind fun t => (l.connection? t).map fun c => (t, c.channel)
  (token.isSome, ⟨l, s.clients ++ [client]⟩)

/-- Bytes of a client arrive, and maybe the end of its stream. -/
def arrive (s : ListenerSession) (number : Nat) (bytes : Bytes) (ended : Bool) : ListenerStep :=
  match s.client? number with
  | none => s.idle
  | some (token, _) =>
    let (requests, l) := s.listener.arrive token bytes ended
    ⟨requests, [], { s with listener := l }⟩

def deliver (s : ListenerSession) (m : Message) : ListenerStep :=
  let (frame, l) := s.listener.deliver m
  ⟨[], frame.toList, { s with listener := l }⟩

/-- A reply for the channel of a client. -/
def reply (s : ListenerSession) (number : Nat) (payload : Bytes) : ListenerStep :=
  match s.client? number with
  | none => s.idle
  | some (_, id) => s.deliver (.reply id payload)

/-- A request round closes, and paused clients are read again. -/
def closeRound (s : ListenerSession) : ListenerStep :=
  let l := { s.listener with registry := s.listener.registry.closeRequestRound }
  let (requests, l) := l.resumeDeferred
  ⟨requests, [], { s with listener := l }⟩

/-- The payloads of the frames written for a client. -/
def payloadsFor (s : ListenerStep) (number : Nat) : List Bytes :=
  match s.session.client? number with
  | none => []
  | some (token, _) => (s.frames.filter fun f => f.1 = token).map fun f => f.2.drop 4

/-- The messages ordered by client, those of one client in their order. -/
def byClient (s : ListenerSession) (messages : List Message) : List Message :=
  let number (m : Message) : Nat := (m.channel?.map s.numberOf).getD 0
  messages.mergeSort fun a b => number a ≤ number b

end ListenerSession
end MixRelay
