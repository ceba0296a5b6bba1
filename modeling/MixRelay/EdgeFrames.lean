import MixRelay.HeaderKeystream
import MixRelay.MixMessages

/-! # Frames on an edge

A frame is a big-endian length, a header block hidden by the keystream, and the rest of the payload
in the clear. The header block holds the kind, a field (an edge identifier, or the size of a round)
and the first eleven payload bytes, zeros where there are fewer; the length counts all behind
itself. So the receiver of a short payload sees eleven bytes. Clients use plain frames of a length
and a payload. -/
namespace MixRelay

/-- Failures below the relay: data that ends too early, and what the system reports. -/
inductive TransferError
  | shortRead
  | endOfStream
  | reported (text : String)
  | system (code : Nat) (text : String)
  deriving DecidableEq

def TransferError.message : TransferError → String
  | .shortRead => "failed to fill whole buffer"
  | .endOfStream => "unexpected end of file"
  | .reported text => text
  | .system code text => s!"{text} (os error {code})"

inductive FrameError
  | transfer (error : TransferError)
  | tooShort (length : Nat)
  | tooLong (length max : Nat)
  | unknownKind (code : UInt8)
  | cipher (error : CipherError)
  deriving DecidableEq

namespace FrameError

def message : FrameError → String
  | .transfer e => s!"I/O error: {e.message}"
  | .tooShort n => s!"frame length {n} shorter than a header block"
  | .tooLong n max => s!"frame length {n} exceeds maximum {max}"
  | .unknownKind code => s!"unknown message discriminant {code.toNat}"
  | .cipher e => s!"cipher error: {e.message}"

/-- The message followed by those of its causes. -/
def chain (e : FrameError) : List String :=
  e.message :: match e with
    | .transfer e => [e.message]
    | .cipher e => [e.message]
    | _ => []

end FrameError

structure FrameHeader where
  code : UInt8
  field : UInt32
  deriving DecidableEq

namespace FrameHeader

def ofChannel (kind : MessageKind) (edge : ChannelId) : FrameHeader := ⟨kind.code, edge⟩

def ofBatchSize (size : UInt32) : FrameHeader := ⟨MessageKind.batchSize.code, size⟩

/-- The five bytes of the header. -/
def wire (h : FrameHeader) : Bytes := h.code :: Bytes.ofWord h.field.toNat

end FrameHeader

namespace Frame

/-- The length of the header in front of the payload. -/
def headerLength : Nat := 5

/-- The payload bytes that travel in the header block. -/
def headPayloadLength : Nat := 11

def defaultMaxLength : Nat := 2 ^ 20

/-- What the length of a frame counts, for a payload length. -/
def length (payloadLength : Nat) : Nat := max 16 (headerLength + payloadLength)

/-- The header block before it is hidden. -/
def headerBlock (h : FrameHeader) (payload : Bytes) : Block :=
  Block.ofList (h.wire ++ Bytes.fit headPayloadLength payload)

/-- A frame, and the keystream one block further. -/
def encode (ks : HeaderKeystream) (h : FrameHeader) (payload : Bytes) : Bytes × HeaderKeystream :=
  (Bytes.ofWord (length payload.length) ++ (ks.mask (headerBlock h payload)).toList ++
    payload.drop headPayloadLength, ks.advance)

/-- A frame of a client. -/
def encodeClient (payload : Bytes) : Bytes := Bytes.ofWord payload.length ++ payload

end Frame

/-- A frame whose header block is read and whose rest is still on the stream. -/
structure FrameHead where
  kind : MessageKind
  field : UInt32
  inBlock : Bytes
  length : Nat
  deriving DecidableEq

namespace FrameHead

/-- The payload length, the padding of a short payload included. -/
def payloadLength (h : FrameHead) : Nat := h.length - Frame.headerLength

/-- The bytes that follow the header block. -/
def remaining (h : FrameHead) : Nat := h.length - 16

/-- The bytes of the whole frame on the wire. -/
def wireLength (h : FrameHead) : Nat := 4 + h.length

end FrameHead

/-- What a read makes of a stream: its answer, what is left, and the keystream afterwards. -/
structure ReadResult (α : Type) where
  answer : Except FrameError α
  rest : Bytes
  keystream : HeaderKeystream

namespace Frame

/-- The head of a frame from its length and its header block in the clear. -/
def headOfBlock (length : Nat) (block : Block) : Except FrameError FrameHead :=
  let bs := block.toList
  match MessageKind.ofCode? (bs.getD 0 0) with
  | none => .error (.unknownKind (bs.getD 0 0))
  | some kind =>
    .ok ⟨kind, UInt32.ofNat (Bytes.toNat ((bs.drop 1).take 4)), bs.drop headerLength, length⟩

/-- Reads the length and the header block of the next frame. A stream that ends too early is used
up; a length out of range leaves the keystream alone. -/
def readHead (maxLength : Nat) (ks : HeaderKeystream) (input : Bytes) : ReadResult FrameHead :=
  if input.length < 4 then ⟨.error (.transfer .shortRead), [], ks⟩
  else
    let n := Bytes.toNat (input.take 4)
    let input := input.drop 4
    if n < 16 then ⟨.error (.tooShort n), input, ks⟩
    else if maxLength < n then ⟨.error (.tooLong n maxLength), input, ks⟩
    else if input.length < 16 then ⟨.error (.transfer .shortRead), [], ks⟩
    else ⟨headOfBlock n (ks.mask (Block.ofList (input.take 16))), input.drop 16, ks.advance⟩

/-- Reads the rest of a frame and puts its payload together. -/
def readPayload (h : FrameHead) (input : Bytes) : Except FrameError Bytes × Bytes :=
  if input.length < h.remaining then (.error (.transfer .shortRead), [])
  else (.ok (h.inBlock ++ input.take h.remaining), input.drop h.remaining)

/-- Passes over the rest of a frame and counts it. -/
def skipPayload (h : FrameHead) (input : Bytes) : Except FrameError Nat × Bytes :=
  if input.length < h.remaining then (.error (.transfer .endOfStream), [])
  else (.ok h.remaining, input.drop h.remaining)

end Frame
end MixRelay
