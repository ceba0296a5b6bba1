import MixRelay.ByteStrings

/-! # Reply payloads

A reply payload is a big-endian count of its data bytes, then a chunk that starts with the data and
is padded behind it. -/
namespace MixRelay.ReplyPayload

/-- The length of the count in front of the chunk. -/
def headerLength : Nat := 4

def encode (chunk : Bytes) (valid : Nat) : Bytes := Bytes.ofWord valid ++ chunk

/-- The data without count and padding; nothing if the payload is shorter than it says. -/
def decode? (payload : Bytes) : Option Bytes :=
  let valid := Bytes.toNat (payload.take headerLength)
  let chunk := payload.drop headerLength
  if headerLength ≤ payload.length ∧ valid ≤ chunk.length then some (chunk.take valid) else none

@[simp] theorem length_encode (chunk : Bytes) (valid : Nat) :
    (encode chunk valid).length = headerLength + chunk.length := by
  simp [encode, headerLength]

theorem decode?_encode {chunk : Bytes} {valid : Nat} (h : valid ≤ chunk.length)
    (hw : valid < 2 ^ 32) : decode? (encode chunk valid) = some (chunk.take valid) := by
  have front : (encode chunk valid).take headerLength = Bytes.ofWord valid := rfl
  have back : (encode chunk valid).drop headerLength = chunk := rfl
  simp only [decode?, front, back, Bytes.toNat_ofWord_of_lt hw, length_encode]
  rw [if_pos ⟨by omega, h⟩]

end MixRelay.ReplyPayload
