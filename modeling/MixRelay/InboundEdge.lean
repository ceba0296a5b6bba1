import MixRelay.ChannelRegistry
import MixRelay.EdgeCipher
import MixRelay.EdgeConnection
import MixRelay.EdgeIdTable
import MixRelay.FrameReception
import MixRelay.PayloadFraming

/-! # The edge from the previous relay

Requests come in and replies go out. An establish frame makes a channel here and records its
identifier on the edge; a batch size opens a round; a release forgets the channel. Frames of unknown
or known-before channels, of a wrong length, of a second request in a round or of a wrong kind are
passed over and counted as faults. -/
namespace MixRelay

structure InboundSettings where
  framing : PayloadFraming
  maxFrameLength : Nat
  isLast : Bool
  deriving DecidableEq

/-- What receiving frames may change. -/
structure InboundState where
  registry : ChannelRegistry
  table : EdgeIdTable
  metrics : LinkMetrics
  draws : Draws
  deriving DecidableEq

namespace InboundState

/-- The registered channel under an identifier of the edge. -/
def channel? (st : InboundState) (edge : ChannelId) : Option Channel :=
  (st.table.localId? edge).bind st.registry.find?

/-- Passes over a frame that does not fit. -/
def refuse (st : InboundState) (h : FrameHead) (input : Bytes) : Handled InboundState :=
  .skip st (fun n => { st with metrics := st.metrics.countFault n }) [] h input

/-- A frame carries a payload of a length exactly if its own length is that of its encoding. -/
def fits (length : Nat) (h : FrameHead) : Bool :=
  h.payloadLength = Frame.length length - Frame.headerLength

/-- Makes an established channel with a request in the round, and hands its request on. -/
def establish (st : InboundState) (edge : ChannelId) (payload : Bytes) : InboundState × List Message :=
  let (id, draws, registry) := st.registry.createFresh st.draws
  let registry := registry.modify id fun c => c.establish.claimRequest.2
  ({ st with registry := registry, table := (st.table.insert edge id).2, draws := draws },
    [.establish id payload])

def onEstablish (s : InboundSettings) (st : InboundState) (h : FrameHead) (input : Bytes) :
    Handled InboundState :=
  if st.table.containsEdge h.field then st.refuse h input
  else if fits s.framing.establishLength h then
    .take st (fun payload =>
      { st with metrics := st.metrics.countReceived h.wireLength }.establish h.field
        (payload.take s.framing.establishLength)) h input
  else st.refuse h input

/-- A channel's first request in the round is handed on. -/
def request (st : InboundState) (id : ChannelId) (payload : Bytes) : InboundState × List Message :=
  ({ st with registry := st.registry.modify id fun c => c.claimRequest.2 }, [.message id payload])

def onMessage (s : InboundSettings) (st : InboundState) (h : FrameHead) (input : Bytes) :
    Handled InboundState :=
  match st.channel? h.field with
  | none => st.refuse h input
  | some channel =>
    if channel.requestClaimed then st.refuse h input
    else if fits s.framing.messageLength h then
      .take st (fun payload =>
        { st with metrics := st.metrics.countReceived h.wireLength }.request channel.id
          (payload.take s.framing.messageLength)) h input
    else st.refuse h input

/-- The previous relay opens a round, so every channel may send again. -/
def onBatchSize (st : InboundState) (h : FrameHead) (input : Bytes) : Handled InboundState :=
  .skip st (fun _ => { st with
    metrics := st.metrics.countReceived h.wireLength
    registry := st.registry.closeRequestRound }) [.batchSize h.field] h input

/-- Forgets a channel. Its release is handed on unless this relay is the last; an unknown one is
taken without effect. -/
def onRelease (s : InboundSettings) (st : InboundState) (h : FrameHead) (input : Bytes) :
    Handled InboundState :=
  let counted := { st with metrics := st.metrics.countReceived h.wireLength }
  match st.table.localId? h.field with
  | none => .skip st (fun _ => counted) [] h input
  | some id =>
    .skip st (fun _ => { counted with
      table := st.table.dropEdge h.field
      registry := st.registry.discard id }) (if s.isLast then [] else [.release id]) h input

def handle (s : InboundSettings) (st : InboundState) (h : FrameHead) (input : Bytes) :
    Handled InboundState :=
  match h.kind with
  | .establish => st.onEstablish s h input
  | .message => st.onMessage s h input
  | .release => st.onRelease s h input
  | .batchSize => st.onBatchSize h input
  | .reply => st.refuse h input

/-- Receives one frame from the previous relay. -/
def receive (s : InboundSettings) (st : InboundState) (ks : HeaderKeystream) (input : Bytes) :
    Reception InboundState :=
  receiveFrame s.maxFrameLength (st.handle s) st ks input

end InboundState

/-- The link with its connection: the bytes that have arrived and are not read yet, whether the peer
has ended them, the reply frame in hand, and the replies that wait behind it. -/
structure InboundEdge where
  settings : InboundSettings
  connection : EdgeConnection
  table : EdgeIdTable
  metrics : LinkMetrics
  draws : Draws
  receiver : EdgeCipher
  sender : EdgeCipher
  unread : Bytes
  ended : Bool
  inHand : Option OutgoingFrame
  replies : List Message
  deriving DecidableEq

namespace InboundEdge

def start (settings : InboundSettings) (key : EdgeKey) (draws : Draws) : InboundEdge :=
  ⟨settings, .new, .empty, .zero, draws, .start key .requests, .start key .replies, [], false, none, []⟩

def isConnected (e : InboundEdge) : Bool := e.connection.isConnected

/-- The previous relay connects. -/
def accept (e : InboundEdge) : InboundEdge :=
  { e with
    connection := e.connection.install.2
    metrics := e.metrics.countConnection
    unread := []
    ended := false }

/-- Bytes of the previous relay arrive, unless there is no connection. -/
def arrive (e : InboundEdge) (bytes : Bytes) : InboundEdge :=
  if e.isConnected then { e with unread := e.unread ++ bytes } else e

/-- The previous relay ends its bytes. -/
def finish (e : InboundEdge) : InboundEdge := if e.isConnected then { e with ended := true } else e

/-- Drops the connection, and tells whether there was one. -/
def drop (e : InboundEdge) : Bool × InboundEdge :=
  let (dropped, connection) := e.connection.invalidate e.connection.generation
  (dropped, { e with connection := connection, unread := [] })

/-- Receives the next frame, or drops the connection on a failure. None while there is nothing to
receive. The system is taken to have a handle of the stream to give; a receiver without one ends for good. -/
def receiveNext? (e : InboundEdge) (registry : ChannelRegistry) :
    Option (List Message × InboundEdge × ChannelRegistry) :=
  if !e.isConnected || (e.unread.isEmpty && !e.ended) then none
  else
    let cipher := e.receiver.forGeneration e.connection.generation
    let got := InboundState.receive e.settings ⟨registry, e.table, e.metrics, e.draws⟩
      cipher.keystream e.unread
    if got.awaitsMore e.ended then none
    else
      let e := { e with
        receiver := { cipher with keystream := got.keystream }
        table := got.state.table
        metrics := got.state.metrics
        draws := got.state.draws
        unread := got.rest }
      let e := if got.failure.isSome then e.drop.2 else e
      some (got.handedOn, e, got.state.registry)

/-- The frame of a reply: its channel has to have an identifier on the edge. -/
def frame? (table : EdgeIdTable) : Message → Option OutgoingFrame
  | .reply id payload => (table.edgeId? id).map fun edge => ⟨.ofChannel .reply edge, payload⟩
  | _ => none

/-- Drops the reply in hand, as the sender does if its stream is live and the system has no handle of it to
give. -/
def dropFrame (e : InboundEdge) : InboundEdge := if e.isConnected then { e with inHand := none } else e

/-- Writes the reply in hand, or else takes up the next one. None while there is nothing to do. The system is
taken to have a handle of the stream to give; `dropFrame` is what happens without one. -/
def sendNext? (e : InboundEdge) : Option (Bytes × InboundEdge) :=
  match e.inHand with
  | some frame =>
    if e.isConnected then
      let (bytes, sender) := e.sender.encode e.connection.generation frame
      some (bytes, { e with
        sender := sender
        metrics := e.metrics.countSent bytes.length
        inHand := none })
    else none
  | none =>
    match e.replies with
    | [] => none
    | m :: rest => some ([], { e with inHand := frame? e.table m, replies := rest })

end InboundEdge
end MixRelay
