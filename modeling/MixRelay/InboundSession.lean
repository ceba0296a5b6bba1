import MixRelay.EdgeTraffic
import MixRelay.FrameReader

/-! # An inbound edge and the relay at its far end

The far end writes frames with its own keystream, which starts again with each of its connections. It
knows channels by the identifiers of the edge only, so local identifiers are followed back to those
that the edge has used for them. -/
namespace MixRelay

structure InboundSession where
  edge : InboundEdge
  registry : ChannelRegistry
  farEnd : HeaderKeystream
  /-- What the edge calls the local channels, the latest names first. -/
  names : List (ChannelId × ChannelId)
  deriving DecidableEq

namespace InboundSession

/-- The far end is connected from the start. -/
def start (settings : InboundSettings) (key : EdgeKey) (draws : Draws) (registry : ChannelRegistry) :
    InboundSession :=
  ⟨(InboundEdge.start settings key draws).accept, registry, .start key .requests, []⟩

/-- What the edge calls or has called a local channel. -/
def edgeName? (s : InboundSession) (id : ChannelId) : Option ChannelId :=
  (s.names.find? fun n => n.1 = id).map (·.2)

/-- The registered channels with the names that the edge uses for them, in the order of the names. -/
def namedChannels (s : InboundSession) : List (Option ChannelId × Channel) :=
  let order (c : Channel) : Nat := ((s.edgeName? c.id).getD 0).toNat
  (s.registry.channels.mergeSort fun a b => order a ≤ order b).map fun c => (s.edgeName? c.id, c)

def receive : Nat → InboundSession → List Message × InboundSession
  | 0, s => ([], s)
  | frames + 1, s =>
    match s.edge.receiveNext? s.registry with
    | none => ([], s)
    | some (messages, edge, registry) =>
      let seen := edge.table.pairs.map fun p => (p.2, p.1)
      let (more, s) := receive frames
        { s with edge := edge, registry := registry, names := seen ++ s.names }
      (messages ++ more, s)

/-- Receives all that has arrived; each frame has a byte at least. -/
def receiveAll (s : InboundSession) : List Message × InboundSession :=
  s.receive (s.edge.unread.length + 1)

/-- The far end writes frames; what it hands on are the requests. -/
def writeFrames (s : InboundSession) (frames : List (FrameHeader × Bytes)) :
    List Message × InboundSession :=
  let (wire, farEnd) := Frame.encodeAll s.farEnd frames
  { s with edge := s.edge.arrive wire, farEnd := farEnd }.receiveAll

/-- The far end writes bytes and closes. -/
def writeAndClose (s : InboundSession) (bytes : Bytes) : List Message × InboundSession :=
  { s with edge := (s.edge.arrive bytes).finish }.receiveAll

/-- The edge drops the connection, and tells whether there was one. -/
def drop (s : InboundSession) : Bool × InboundSession :=
  let (dropped, edge) := s.edge.drop
  (dropped, { s with edge := edge })

/-- Replies leave; the answer is their bytes. -/
def send (s : InboundSession) (replies : List Message) : Bytes × InboundSession :=
  let (wire, edge) := s.edge.send replies
  (wire, { s with edge := edge })

/-- The far end connects again, and what has waited leaves. -/
def reconnect (s : InboundSession) : Bytes × InboundSession :=
  { s with edge := s.edge.accept, farEnd := s.farEnd.reset }.send []

/-- The far end loses its place in the keystream. -/
def skew (s : InboundSession) (blocks : Nat) : InboundSession :=
  { s with farEnd := { s.farEnd with position := s.farEnd.position + blocks } }

/-- A reply leaves for the channel under an identifier of the edge, if there is one. -/
def reply (s : InboundSession) (edge : ChannelId) (payload : Bytes) : Bytes × InboundSession :=
  match s.edge.table.localId? edge with
  | none => ([], s)
  | some id => s.send [.reply id payload]

/-- Forgets a local channel in the registry, and tells whether it knew it. -/
def discard (s : InboundSession) (edge : ChannelId) : Bool × InboundSession :=
  match s.edge.table.localId? edge with
  | none => (false, s)
  | some id => (s.registry.contains id, { s with registry := s.registry.discard id })

end InboundSession
end MixRelay
