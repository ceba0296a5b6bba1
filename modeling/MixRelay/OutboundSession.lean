import MixRelay.EdgeTraffic
import MixRelay.FrameReader

/-! # An outbound edge and the relay at its far end

The far end reads the frames of the edge and writes frames of its own; both keystreams start again
with each connection. -/
namespace MixRelay

structure OutboundSession where
  edge : OutboundEdge
  registry : ChannelRegistry
  farReader : HeaderKeystream
  farWriter : HeaderKeystream
  /-- Local channels of the identifiers in use at the end of some step, the latest first. -/
  names : List (ChannelId × ChannelId)
  deriving DecidableEq

/-- What a step comes to: the frames that the far end reads, and the replies handed on. -/
structure OutboundStep where
  frames : List (FrameHead × Bytes)
  replies : List Message
  session : OutboundSession

namespace OutboundSession

def start (maxFrameLength : Nat) (key : EdgeKey) (draws : Draws) (registry : ChannelRegistry) :
    OutboundSession :=
  ⟨.start maxFrameLength key draws, registry, .start key .requests, .start key .replies, []⟩

def generation (s : OutboundSession) : Nat := s.edge.connection.generation

/-- The local channel that an identifier of the edge stands or stood for. -/
def localName? (s : OutboundSession) (edge : ChannelId) : Option ChannelId :=
  (s.names.find? fun n => n.1 = edge).map (·.2)

def receive : Nat → OutboundSession → List Message × OutboundSession
  | 0, s => ([], s)
  | frames + 1, s =>
    match s.edge.receiveNext? s.registry with
    | none => ([], s)
    | some (messages, edge, registry) =>
      let (more, s) := receive frames { s with edge := edge, registry := registry }
      (messages ++ more, s)

/-- On a new connection the far end starts its keystreams again. -/
def follow (s : OutboundSession) (generation : Nat) : OutboundSession :=
  if s.generation = generation then s
  else { s with farReader := s.farReader.reset, farWriter := s.farWriter.reset }

/-- Requests leave, and the far end reads their frames. -/
def send (s : OutboundSession) (requests : List Message) : OutboundStep :=
  let (wire, edge) := s.edge.send requests
  let (frames, reader) := FrameReader.readFrames (2 ^ 32) wire.length ⟨none, wire, s.farReader⟩
  ⟨frames, [], { s with
    edge := edge, farReader := reader.keystream, names := edge.table.pairs ++ s.names }⟩

/-- Receives all that has arrived, and sends what a new connection lets go. -/
def settle (s : OutboundSession) : OutboundStep :=
  let (replies, after) := s.receive (s.edge.unread.length + 1)
  { (after.follow s.generation).send [] with replies := replies }

/-- The header of a frame for a local channel; a channel the edge does not know gets an identifier
that it does not know either. -/
def headerFor (s : OutboundSession) (code : UInt8) (channel : Option ChannelId) : FrameHeader :=
  let unknown := (s.edge.draws.firstFree s.edge.table.size s.edge.table.containsEdge).1
  ⟨code, (channel.bind s.edge.table.edgeId?).getD unknown⟩

/-- The far end writes frames. -/
def writeFrames (s : OutboundSession) (frames : List (FrameHeader × Bytes)) : OutboundStep :=
  let (wire, farWriter) := Frame.encodeAll s.farWriter frames
  { s with edge := s.edge.arrive wire, farWriter := farWriter }.settle

/-- The far end writes bytes and closes, so that the edge connects again. -/
def writeAndClose (s : OutboundSession) (bytes : Bytes) : OutboundStep :=
  { s with edge := (s.edge.arrive bytes).finish }.settle

end OutboundSession
end MixRelay
