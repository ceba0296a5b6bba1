import MixRelay.EdgeFrames
import MixRelay.LinkMetrics

/-! # Receiving one frame

A receiver reads the head of the next frame and lets a handler deal with the rest: it takes the
payload or passes over it. After a failure the stream stands at an unknown place and the connection
has to go. -/
namespace MixRelay

/-- What a handler makes of a frame: its failure if any, the state it leaves, the messages it hands
on, and the bytes that are left. -/
structure Handled (σ : Type) where
  failure : Option FrameError
  state : σ
  handedOn : List Message
  rest : Bytes

/-- What receiving one frame comes to. -/
structure Reception (σ : Type) where
  failure : Option FrameError
  state : σ
  handedOn : List Message
  rest : Bytes
  keystream : HeaderKeystream

/-- Does the frame only lack bytes that may still arrive? -/
def Reception.awaitsMore {σ : Type} (r : Reception σ) (ended : Bool) : Bool :=
  match r.failure with
  | some (.transfer _) => !ended
  | _ => false

namespace Handled
variable {σ : Type}

/-- Passes over the rest of a frame; `after` is the state once that is done. -/
def skip (state : σ) (after : Nat → σ) (handedOn : List Message) (h : FrameHead) (input : Bytes) :
    Handled σ :=
  match Frame.skipPayload h input with
  | (.error e, rest) => ⟨some e, state, [], rest⟩
  | (.ok n, rest) => ⟨none, after n, handedOn, rest⟩

/-- Takes the payload of a frame; `after` is what it leads to. -/
def take (state : σ) (after : Bytes → σ × List Message) (h : FrameHead) (input : Bytes) : Handled σ :=
  match Frame.readPayload h input with
  | (.error e, rest) => ⟨some e, state, [], rest⟩
  | (.ok payload, rest) => ⟨none, (after payload).1, (after payload).2, rest⟩

end Handled

/-- Reads one frame from a stream with a handler for its rest. -/
def receiveFrame {σ : Type} (maxLength : Nat) (handle : FrameHead → Bytes → Handled σ) (state : σ)
    (ks : HeaderKeystream) (input : Bytes) : Reception σ :=
  let read := Frame.readHead maxLength ks input
  match read.answer with
  | .error e => ⟨some e, state, [], read.rest, read.keystream⟩
  | .ok h =>
    let done := handle h read.rest
    ⟨done.failure, done.state, done.handedOn, done.rest, read.keystream⟩

end MixRelay
