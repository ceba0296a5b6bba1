import MixRelay.EdgeFrames

/-! # Frames on a whole stream

Frames are written one behind the other with one keystream. A reader goes through a stream with
another, and keeps the last head that it could read. -/
namespace MixRelay

namespace Frame

/-- The bytes of frames in a row. -/
def encodeAll (ks : HeaderKeystream) : List (FrameHeader × Bytes) → Bytes × HeaderKeystream
  | [] => ([], ks)
  | (header, payload) :: rest =>
    let (frame, ks) := encode ks header payload
    let (more, ks) := encodeAll ks rest
    (frame ++ more, ks)

end Frame

structure FrameReader where
  head : Option FrameHead
  rest : Bytes
  keystream : HeaderKeystream

namespace FrameReader

def readHead (r : FrameReader) (maxLength : Nat) : Except FrameError FrameHead × FrameReader :=
  let got := Frame.readHead maxLength r.keystream r.rest
  let head := match got.answer with
    | .ok h => some h
    | .error _ => r.head
  (got.answer, ⟨head, got.rest, got.keystream⟩)

/-- Reads the payload under a head. -/
def readPayload (r : FrameReader) (h : FrameHead) : Except FrameError Bytes × FrameReader :=
  let (answer, rest) := Frame.readPayload h r.rest
  (answer, { r with rest := rest })

/-- Reads whole frames, at most so many, up to the first that is not there. -/
def readFrames (maxLength : Nat) : Nat → FrameReader → List (FrameHead × Bytes) × FrameReader
  | 0, r => ([], r)
  | frames + 1, r =>
    match r.readHead maxLength with
    | (.error _, _) => ([], r)
    | (.ok h, r') =>
      match r'.readPayload h with
      | (.error _, _) => ([], r)
      | (.ok payload, r') =>
        let (more, r') := r'.readFrames maxLength frames
        ((h, payload) :: more, r')

end FrameReader
end MixRelay
