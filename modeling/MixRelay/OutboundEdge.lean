import MixRelay.ChannelRegistry
import MixRelay.EdgeCipher
import MixRelay.EdgeConnection
import MixRelay.EdgeIdTable
import MixRelay.FrameReception

/-! # The edge to the next relay

Requests go out and replies come in. Sending an establish message draws the channel's identifier on
the edge, and sending a release gives it up again. A reply is taken once a reply round for each
channel; the slot is claimed before the payload is read. A connection that fails is dialled again. -/
namespace MixRelay

/-- What receiving replies may change; the table of identifiers is only read. -/
structure OutboundState where
  registry : ChannelRegistry
  metrics : LinkMetrics
  deriving DecidableEq

namespace OutboundState

/-- The registered channel under an identifier of the edge. -/
def channel? (st : OutboundState) (table : EdgeIdTable) (edge : ChannelId) : Option Channel :=
  (table.localId? edge).bind st.registry.find?

/-- Passes over a frame that does not fit. -/
def refuse (st : OutboundState) (h : FrameHead) (input : Bytes) : Handled OutboundState :=
  .skip st (fun n => { st with metrics := st.metrics.countFault n }) [] h input

/-- Claims the reply slot of a channel and takes the payload. -/
def takeReply (st : OutboundState) (id : ChannelId) (h : FrameHead) (input : Bytes) :
    Handled OutboundState :=
  let st := { st with registry := st.registry.modify id fun c => c.claimReply.2 }
  .take st (fun payload =>
    ({ st with metrics := st.metrics.countReceived h.wireLength }, [.reply id payload])) h input

def handle (st : OutboundState) (table : EdgeIdTable) (h : FrameHead) (input : Bytes) :
    Handled OutboundState :=
  if h.kind = .reply then
    match st.channel? table h.field with
    | none => st.refuse h input
    | some channel =>
      if channel.replyClaimed then st.refuse h input else st.takeReply channel.id h input
  else st.refuse h input

/-- Receives one frame from the next relay. -/
def receive (maxFrameLength : Nat) (table : EdgeIdTable) (st : OutboundState) (ks : HeaderKeystream)
    (input : Bytes) : Reception OutboundState :=
  receiveFrame maxFrameLength (st.handle table) st ks input

end OutboundState

/-- A frame in hand; a release gives its channel's identifier up once it is written. -/
structure OutboundFrame where
  frame : OutgoingFrame
  released : Option ChannelId
  deriving DecidableEq

/-- The link with its connection: the bytes that have arrived and are not read yet, whether the peer
has ended them, the frame in hand, and the requests that wait behind it. -/
structure OutboundEdge where
  maxFrameLength : Nat
  connection : EdgeConnection
  table : EdgeIdTable
  metrics : LinkMetrics
  draws : Draws
  sender : EdgeCipher
  receiver : EdgeCipher
  unread : Bytes
  ended : Bool
  inHand : Option OutboundFrame
  requests : List Message
  deriving DecidableEq

namespace OutboundEdge

/-- Connects to the next relay. -/
def dial (e : OutboundEdge) : OutboundEdge :=
  { e with
    connection := e.connection.install.2
    metrics := e.metrics.countConnection
    unread := []
    ended := false }

def start (maxFrameLength : Nat) (key : EdgeKey) (draws : Draws) : OutboundEdge :=
  dial ⟨maxFrameLength, .new, .empty, .zero, draws, .start key .requests, .start key .replies,
    [], false, none, []⟩

def isConnected (e : OutboundEdge) : Bool := e.connection.isConnected

/-- Bytes of the next relay arrive. -/
def arrive (e : OutboundEdge) (bytes : Bytes) : OutboundEdge :=
  if e.isConnected then { e with unread := e.unread ++ bytes } else e

/-- The next relay ends its bytes. -/
def finish (e : OutboundEdge) : OutboundEdge := if e.isConnected then { e with ended := true } else e

/-- After a failure in a generation, the one that takes its stream down dials again. -/
def recover (e : OutboundEdge) (generation : Nat) : OutboundEdge :=
  let (won, connection) := e.connection.invalidate generation
  let e := { e with connection := connection }
  if won then e.dial else e

/-- Receives the next frame, or dials again on a failure. None while there is nothing to receive. The system
is taken to have a handle of the stream to give; a receiver without one ends for good. -/
def receiveNext? (e : OutboundEdge) (registry : ChannelRegistry) :
    Option (List Message × OutboundEdge × ChannelRegistry) :=
  if !e.isConnected || (e.unread.isEmpty && !e.ended) then none
  else
    let cipher := e.receiver.forGeneration e.connection.generation
    let got := OutboundState.receive e.maxFrameLength e.table ⟨registry, e.metrics⟩
      cipher.keystream e.unread
    if got.awaitsMore e.ended then none
    else
      let e := { e with
        receiver := { cipher with keystream := got.keystream }
        metrics := got.state.metrics
        unread := got.rest }
      let e := if got.failure.isSome then e.recover e.connection.generation else e
      some (got.handedOn, e, got.state.registry)

/-- The frame of a request, with the identifiers of the edge after it. Messages and releases of a
channel without an identifier have none, and replies do not belong here. -/
def frame? (table : EdgeIdTable) (draws : Draws) :
    Message → Option OutboundFrame × Draws × EdgeIdTable
  | .establish id payload =>
    let (edge, draws, table) := table.allocate id draws
    (some ⟨⟨.ofChannel .establish edge, payload⟩, none⟩, draws, table)
  | .message id payload =>
    ((table.edgeId? id).map fun edge => ⟨⟨.ofChannel .message edge, payload⟩, none⟩, draws, table)
  | .release id =>
    ((table.edgeId? id).map fun edge => ⟨⟨.ofChannel .release edge, []⟩, some id⟩, draws, table)
  | .batchSize size => (some ⟨⟨.ofBatchSize size, []⟩, none⟩, draws, table)
  | .reply .. => (none, draws, table)

/-- Drops the frame in hand, as the sender does if its stream is live and the system has no handle of it to
give. A channel whose release is dropped keeps its identifier. -/
def dropFrame (e : OutboundEdge) : OutboundEdge := if e.isConnected then { e with inHand := none } else e

/-- Writes the frame in hand, or else takes up the next request. None while there is nothing to do. The
system is taken to have a handle of the stream to give; `dropFrame` is what happens without one. -/
def sendNext? (e : OutboundEdge) : Option (Bytes × OutboundEdge) :=
  match e.inHand with
  | some out =>
    if e.isConnected then
      let (bytes, sender) := e.sender.encode e.connection.generation out.frame
      some (bytes, { e with
        sender := sender
        metrics := e.metrics.countSent bytes.length
        table := match out.released with
          | some id => e.table.dropLocal id
          | none => e.table
        inHand := none })
    else none
  | none =>
    match e.requests with
    | [] => none
    | m :: rest =>
      let (out, draws, table) := frame? e.table e.draws m
      some ([], { e with inHand := out, draws := draws, table := table, requests := rest })

end OutboundEdge
end MixRelay
