import MixRelay.EdgeKeys

/-! # The keystream of frame headers

One block of keystream hides one header block. The block at position `i` is the AES image of the
counter block `start + i`, a 128-bit big-endian number; the reply direction starts half the counter
space away from the request direction. A keystream belongs to one connection and starts again with
the next. -/
namespace MixRelay

inductive Direction
  | requests
  | replies
  deriving DecidableEq

def Direction.name : Direction → String
  | .requests => "Requests"
  | .replies => "Replies"

namespace Block

def toNat (b : Block) : Nat := Bytes.toNat b.toList

/-- The sixteen big-endian bytes of `n` modulo `2 ^ 128`. -/
def ofNat (n : Nat) : Block := Vector.ofFn fun i => UInt8.ofNat (n / 256 ^ (15 - i.val))

end Block

namespace EdgeKey

/-- Where the counter of a direction starts: replies flip the highest bit. -/
def counterStart (k : EdgeKey) : Direction → Block
  | .requests => k.iv
  | .replies => k.iv.xor (.ofNat (2 ^ 127))

def counterBlock (k : EdgeKey) (d : Direction) (i : Nat) : Block :=
  Block.ofNat ((k.counterStart d).toNat + i)

def keystreamBlock (k : EdgeKey) (d : Direction) (i : Nat) : Block :=
  AES.encrypt k.key (k.counterBlock d i)

end EdgeKey

structure HeaderKeystream where
  key : EdgeKey
  direction : Direction
  position : Nat
  deriving DecidableEq

namespace HeaderKeystream

def start (key : EdgeKey) (direction : Direction) : HeaderKeystream := ⟨key, direction, 0⟩

def reset (ks : HeaderKeystream) : HeaderKeystream := { ks with position := 0 }

def advance (ks : HeaderKeystream) : HeaderKeystream := { ks with position := ks.position + 1 }

/-- Hides or shows a block with the keystream at the present position. -/
def mask (ks : HeaderKeystream) (b : Block) : Block :=
  Block.xor b (ks.key.keystreamBlock ks.direction ks.position)

/-- Hides or shows a byte string, which has to be a whole block. -/
def apply (ks : HeaderKeystream) (data : Bytes) : Except CipherError (Bytes × HeaderKeystream) :=
  if data.length = 16 then .ok ((ks.mask (Block.ofList data)).toList, ks.advance)
  else .error (.notABlock data.length)

def describe (ks : HeaderKeystream) : String :=
  s!"HeaderCipher \x7b key: {ks.key.fingerprint}, direction: {ks.direction.name}, blocks: {ks.position} \x7d"

theorem mask_mask (ks : HeaderKeystream) (b : Block) : ks.mask (ks.mask b) = b :=
  Block.xor_xor_cancel ..

end HeaderKeystream
end MixRelay
