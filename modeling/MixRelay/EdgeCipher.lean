import MixRelay.EdgeFrames

/-! # Keystreams that follow the connection

A keystream belongs to one generation of an edge's connection. Whoever sends or receives starts it
anew on the first frame of another generation. -/
namespace MixRelay

structure EdgeCipher where
  keystream : HeaderKeystream
  generation : Nat
  deriving DecidableEq

/-- A frame before it is written. -/
structure OutgoingFrame where
  header : FrameHeader
  payload : Bytes
  deriving DecidableEq

namespace EdgeCipher

/-- Generations count from one, so the first frame starts the keystream. -/
def start (key : EdgeKey) (direction : Direction) : EdgeCipher := ⟨.start key direction, 0⟩

def forGeneration (c : EdgeCipher) (generation : Nat) : EdgeCipher :=
  if c.generation = generation then c else ⟨c.keystream.reset, generation⟩

/-- The bytes of a frame on the connection of a generation. -/
def encode (c : EdgeCipher) (generation : Nat) (frame : OutgoingFrame) : Bytes × EdgeCipher :=
  let c := c.forGeneration generation
  let (bytes, keystream) := Frame.encode c.keystream frame.header frame.payload
  (bytes, { c with keystream := keystream })

end EdgeCipher
end MixRelay
