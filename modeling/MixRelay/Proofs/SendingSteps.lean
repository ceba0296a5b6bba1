import MixRelay.Proofs.ConnectionSlots
import MixRelay.Proofs.RelayEdge

/-!
# The steps of a sender

A sender waits for a stream, encodes the frame in hand for it, and writes. In between, others report the
stream as failed, put in the next one, or close the slot. A write that fails leaves some bytes of the
frame on the stream; the sender then reports the generation that it has written on, and tries again. On
the edge to the next relay, whoever takes a stream down also dials the next. A sender to whom the system
gives no handle of the stream does not try again: it drops the frame and takes the next one.
-/
namespace MixRelay

/-- What a sender is about to do: to take a frame up or wait for a stream to write it to, to write on the
stream of a generation, to report the generation of a write that failed, or to dial; or it has ended. -/
inductive SendingStage
  | ready
  | writing (generation : Nat)
  | failed (generation : Nat)
  | dialling
  | ended
  deriving DecidableEq

/-- A sender and the slot that it shares with others. -/
structure SendingSide where
  dials : Bool
  connection : EdgeConnection
  cipher : EdgeCipher
  inHand : Option TypedFrame
  stage : SendingStage
  deriving DecidableEq

/-- The sender is handed a frame, asks for a stream, writes, fails to write after some bytes, reports the
failure, dials, or gives dialling up; others use the slot. A fault is what the system reports if the
stream's handle has to be duplicated and cannot be. -/
inductive SendingEvent
  | hand (frame : TypedFrame)
  | acquire (fault : Option TransferError)
  | write
  | breakOff (bytes : Nat)
  | report
  | dial
  | giveUp
  | others (call : ConnectionCall)
  deriving DecidableEq

/-- A frame and what has been written of it on the stream of a generation. -/
structure WriteTry where
  generation : Nat
  frame : TypedFrame
  bytes : Bytes
  complete : Bool
  deriving DecidableEq

namespace SendingSide

/-- A sender that dials begins with it. -/
def start (dials : Bool) (key : EdgeKey) (direction : Direction) : SendingSide :=
  ⟨dials, .new, .start key direction, none, if dials then .dialling else .ready⟩

/-- The sender has nothing to do, so that it can be handed the next frame. -/
def free (s : SendingSide) : Bool := s.stage = .ready && s.inHand = none

/-- Asks for a stream once a frame is in hand. A refusal ends the sender; any other error is taken for one of
the frame, which is dropped. -/
def acquire (s : SendingSide) (fault : Option TransferError) : SendingSide :=
  match s.stage, s.inHand with
  | .ready, some _ =>
    match s.connection.await fault with
    | .done g => { s with stage := .writing g }
    | .wait => s
    | .refused .stopped => { s with stage := .ended }
    | .refused _ => { s with inHand := none }
  | _, _ => s

/-- Writes a frame: all of it, or some bytes if the stream breaks. A whole frame is never written when the
write fails. -/
def write (s : SendingSide) (g : Nat) (f : TypedFrame) (broken : Option Nat) : WriteTry × SendingSide :=
  let (bytes, cipher) := s.cipher.encode g f.outgoing
  match broken with
  | none => (⟨g, f, bytes, true⟩, { s with cipher := cipher, inHand := none, stage := .ready })
  | some n =>
    (⟨g, f, bytes.dropLast.take n, false⟩, { s with cipher := cipher, stage := .failed g })

/-- Writes if there is a stream to write on. -/
def tryWrite (s : SendingSide) (broken : Option Nat) : List WriteTry × SendingSide :=
  match s.stage, s.inHand with
  | .writing g, some f => ([(s.write g f broken).1], (s.write g f broken).2)
  | _, _ => ([], s)

def report (s : SendingSide) : SendingSide :=
  match s.stage with
  | .failed g =>
    { s with
      connection := (s.connection.invalidate g).2
      stage := if (s.connection.invalidate g).1 && s.dials then .dialling else .ready }
  | _ => s

/-- One step, with what is written in it. -/
def step (s : SendingSide) : SendingEvent → List WriteTry × SendingSide
  | .hand f => ([], if s.free then { s with inHand := some f } else s)
  | .acquire fault => ([], s.acquire fault)
  | .write => s.tryWrite none
  | .breakOff n => s.tryWrite (some n)
  | .report => ([], s.report)
  | .dial =>
    match s.stage with
    | .dialling => ([], { s with connection := s.connection.install.2, stage := .ready })
    | _ => ([], s)
  | .giveUp =>
    match s.stage with
    | .dialling => ([], if s.connection.isClosed then { s with stage := .ended } else s)
    | _ => ([], s)
  | .others call => ([], { s with connection := s.connection.call call })

def next (s : SendingSide) (e : SendingEvent) : SendingSide := (s.step e).2

/-- The frames that the sender is handed. -/
def handedAt (s : SendingSide) : SendingEvent → List TypedFrame
  | .hand f => if s.free then [f] else []
  | _ => []

def triesAt (s : SendingSide) (e : SendingEvent) : List WriteTry := (s.step e).1

/-- The frame in hand is dropped when its stream is live, in an open slot, and has no handle to give. -/
def droppedAt (s : SendingSide) : SendingEvent → List TypedFrame
  | .acquire (some _) =>
    if s.stage = .ready ∧ s.connection.isClosed = false ∧ s.connection.isConnected = true then
      s.inHand.toList
    else []
  | _ => []

@[simp] theorem generation_write (s : SendingSide) (g : Nat) (f : TypedFrame) (broken : Option Nat) :
    (s.write g f broken).1.generation = g := by cases broken <;> rfl

@[simp] theorem connection_write (s : SendingSide) (g : Nat) (f : TypedFrame) (broken : Option Nat) :
    (s.write g f broken).2.connection = s.connection := by cases broken <;> rfl

/-- The cipher moves on with the write, whatever comes of it. -/
theorem cipher_write (s : SendingSide) (g : Nat) (f : TypedFrame) (broken : Option Nat) :
    (s.write g f broken).2.cipher = ⟨(s.cipher.forGeneration g).keystream.advance, g⟩ := by
  rw [← EdgeCipher.encode_snd s.cipher g f.outgoing]
  cases broken <;> rfl

variable {s : SendingSide}

/-- Without a handle of the live stream the frame in hand is dropped. -/
theorem drops_of_connected {f : TypedFrame} (hopen : s.connection.isClosed = false)
    (hlive : s.connection.isConnected = true) (hf : s.inHand = some f) (hready : s.stage = .ready)
    (fault : TransferError) :
    s.next (.acquire (some fault)) = { s with inHand := none } ∧
      s.droppedAt (.acquire (some fault)) = [f] := by
  have hfailed : s.connection.await (some fault) = .refused (.transfer fault) :=
    EdgeConnection.await_failed_iff.2 ⟨rfl, hopen, hlive⟩
  constructor
  · rw [next, step, acquire, hready, hf, hfailed]
  · rw [droppedAt, if_pos ⟨hready, hopen, hlive⟩, hf]
    rfl

/-- What comes of the wish for a stream: nothing yet, a stream to write on, the end of the sender, or the
loss of the frame in hand. -/
theorem acquire_cases (s : SendingSide) (fault : Option TransferError) :
    s.acquire fault = s ∧ s.droppedAt (.acquire fault) = [] ∨
      s.stage = .ready ∧
        (s.acquire fault = { s with stage := .writing s.connection.generation } ∧
            s.connection.isConnected = true ∧ s.droppedAt (.acquire fault) = [] ∨
          s.acquire fault = { s with stage := .ended } ∧
            s.connection.isClosed = true ∧ s.droppedAt (.acquire fault) = [] ∨
          ∃ f, s.inHand = some f ∧ s.acquire fault = { s with inHand := none } ∧
            s.droppedAt (.acquire fault) = [f]) := by
  unfold acquire
  split
  · rename_i f hready hf
    cases hclosed : s.connection.isClosed with
    | true =>
      have hrefused : s.connection.await fault = .refused .stopped :=
        EdgeConnection.await_refused_iff.2 hclosed
      rw [hrefused]
      exact .inr ⟨hready, .inr (.inl ⟨rfl, rfl, by cases fault <;> simp [droppedAt, hclosed]⟩)⟩
    | false =>
      cases hlive : s.connection.isConnected with
      | false =>
        rw [EdgeConnection.await_wait_iff.2 ⟨hclosed, hlive⟩]
        exact .inl ⟨rfl, by cases fault <;> simp [droppedAt, hlive]⟩
      | true =>
        refine .inr ⟨hready, ?_⟩
        cases fault with
        | none =>
          rw [EdgeConnection.await_done_iff.2 ⟨rfl, hclosed, hlive, rfl⟩]
          exact .inl ⟨rfl, rfl, rfl⟩
        | some e =>
          rw [EdgeConnection.await_failed_iff.2 ⟨rfl, hclosed, hlive⟩]
          exact .inr (.inr ⟨f, hf, rfl, (drops_of_connected hclosed hlive hf hready e).2⟩)
  · rename_i hidle
    refine .inl ⟨rfl, ?_⟩
    cases fault with
    | none => rfl
    | some e =>
      rw [droppedAt]
      split
      · rename_i hasks
        rw [Option.eq_none_iff_forall_ne_some.2 fun f hf => hidle f hasks.1 hf]
        rfl
      · rfl

/-- With a live stream in an open slot the next frame goes out. -/
theorem tries_of_connected {f : TypedFrame} (hopen : s.connection.isClosed = false)
    (hlive : s.connection.isConnected = true) (hf : s.inHand = some f) (hready : s.stage = .ready) :
    outputs next triesAt s [.acquire none, .write] =
        [⟨s.connection.generation, f,
          (s.cipher.encode s.connection.generation f.outgoing).1, true⟩] ∧
      [SendingEvent.acquire none, .write].foldl next s = { s with
        cipher := (s.cipher.encode s.connection.generation f.outgoing).2
        inHand := none
        stage := .ready } := by
  have hdone : s.connection.await none = .done s.connection.generation :=
    EdgeConnection.await_done_iff.2 ⟨rfl, hopen, hlive, rfl⟩
  have hacquire : s.next (.acquire none) = { s with stage := .writing s.connection.generation } := by
    rw [next, step, acquire, hready, hf, hdone]
  have hwrite : (s.next (.acquire none)).step .write =
      ([⟨s.connection.generation, f, (s.cipher.encode s.connection.generation f.outgoing).1, true⟩],
        { s with
          cipher := (s.cipher.encode s.connection.generation f.outgoing).2
          inHand := none
          stage := .ready }) := by
    rw [hacquire, step, tryWrite, hf]
    rfl
  constructor
  · have hrun : outputs next triesAt s [.acquire none, .write] =
        ((s.next (.acquire none)).step .write).1 ++ [] := rfl
    rw [hrun, hwrite]
    rfl
  · exact congrArg Prod.snd hwrite

end SendingSide

/-- The sender of requests, with the frame in hand. -/
def OutboundEdge.sending (e : OutboundEdge) (inHand : Option TypedFrame) (stage : SendingStage) :
    SendingSide :=
  ⟨true, e.connection, e.sender, inHand, stage⟩

/-- The sender of replies, with the frame in hand. -/
def InboundEdge.sending (e : InboundEdge) (inHand : Option TypedFrame) (stage : SendingStage) :
    SendingSide :=
  ⟨false, e.connection, e.sender, inHand, stage⟩

/-- The edge to the next relay starts with a stream that its sender has dialled. -/
theorem OutboundEdge.start_steps (maxFrameLength : Nat) (key : EdgeKey) (draws : Draws) :
    (SendingSide.start true key .requests).next .dial =
      (OutboundEdge.start maxFrameLength key draws).sending none .ready := rfl

theorem InboundEdge.start_steps (settings : InboundSettings) (key : EdgeKey) (draws : Draws) :
    SendingSide.start false key .replies =
      (InboundEdge.start settings key draws).sending none .ready := rfl

/-- The previous relay puts the streams in on which replies are sent. -/
theorem InboundEdge.accept_steps (e : InboundEdge) (inHand : Option TypedFrame) (stage : SendingStage) :
    (e.sending inHand stage).next (.others .install) = e.accept.sending inHand stage := rfl

/-- Writing the frame in hand is to ask for the stream and to write on it. -/
theorem OutboundEdge.sendNext?_steps {e : OutboundEdge} {out : OutboundFrame} {f : TypedFrame}
    (hopen : e.connection.isClosed = false) (hlive : e.isConnected = true)
    (hout : e.inHand = some out) (hf : out.frame = f.outgoing) :
    ∃ bytes e', e.sendNext? = some (bytes, e') ∧
      outputs SendingSide.next SendingSide.triesAt (e.sending (some f) .ready) [.acquire none, .write] =
        [⟨e.connection.generation, f, bytes, true⟩] ∧
      [SendingEvent.acquire none, .write].foldl SendingSide.next (e.sending (some f) .ready) =
        e'.sending none .ready := by
  obtain ⟨htries, hafter⟩ := SendingSide.tries_of_connected (s := e.sending (some f) .ready) hopen hlive
    rfl rfl
  refine ⟨_, _, OutboundEdge.sendNext?_of_inHand hlive hout, ?_, ?_⟩
  · rw [htries, hf]
    rfl
  · rw [hafter, EdgeCipher.encode_snd]
    rfl

theorem InboundEdge.sendNext?_steps {e : InboundEdge} {f : TypedFrame}
    (hopen : e.connection.isClosed = false) (hlive : e.isConnected = true)
    (hf : e.inHand = some f.outgoing) :
    ∃ bytes e', e.sendNext? = some (bytes, e') ∧
      outputs SendingSide.next SendingSide.triesAt (e.sending (some f) .ready) [.acquire none, .write] =
        [⟨e.connection.generation, f, bytes, true⟩] ∧
      [SendingEvent.acquire none, .write].foldl SendingSide.next (e.sending (some f) .ready) =
        e'.sending none .ready := by
  obtain ⟨htries, hafter⟩ := SendingSide.tries_of_connected (s := e.sending (some f) .ready) hopen hlive
    rfl rfl
  refine ⟨_, _, InboundEdge.sendNext?_of_inHand hlive hf, ?_, ?_⟩
  · rw [htries]
    rfl
  · rw [hafter, EdgeCipher.encode_snd]
    rfl

/-- A sender that asks for the live stream without getting a handle of it drops the frame in hand. -/
theorem OutboundEdge.dropFrame_steps {e : OutboundEdge} {f : TypedFrame}
    (hopen : e.connection.isClosed = false) (hlive : e.isConnected = true) (fault : TransferError) :
    (e.sending (some f) .ready).next (.acquire (some fault)) = e.dropFrame.sending none .ready ∧
      (e.sending (some f) .ready).droppedAt (.acquire (some fault)) = [f] := by
  rw [dropFrame, if_pos hlive]
  exact SendingSide.drops_of_connected (s := e.sending (some f) .ready) hopen hlive rfl rfl fault

theorem InboundEdge.dropFrame_steps {e : InboundEdge} {f : TypedFrame}
    (hopen : e.connection.isClosed = false) (hlive : e.isConnected = true) (fault : TransferError) :
    (e.sending (some f) .ready).next (.acquire (some fault)) = e.dropFrame.sending none .ready ∧
      (e.sending (some f) .ready).droppedAt (.acquire (some fault)) = [f] := by
  rw [dropFrame, if_pos hlive]
  exact SendingSide.drops_of_connected (s := e.sending (some f) .ready) hopen hlive rfl rfl fault

/-- Recovering is to report the failed generation, and to dial if that took the stream down. -/
theorem OutboundEdge.recover_steps (e : OutboundEdge) (g : Nat) (inHand : Option TypedFrame) :
    [SendingEvent.report, .dial].foldl SendingSide.next (e.sending inHand (.failed g)) =
      (e.recover g).sending inHand .ready := by
  rw [recover]
  cases hwon : (e.connection.invalidate g).1 <;>
    simp [SendingSide.next, SendingSide.step, SendingSide.report, sending, hwon, dial]

/-- Dropping the connection is to report its generation. -/
theorem InboundEdge.drop_steps (e : InboundEdge) (inHand : Option TypedFrame) :
    (e.sending inHand (.failed e.connection.generation)).next .report = e.drop.2.sending inHand .ready := by
  simp [SendingSide.next, SendingSide.step, SendingSide.report, sending, drop]

end MixRelay
