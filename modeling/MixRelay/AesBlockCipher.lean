/-! # The AES-128 block cipher

A block is sixteen bytes in column order: row `r` of column `c` is at position `4 * c + r`.
The key schedule and the rounds are those of FIPS 197. -/
namespace MixRelay

abbrev Block := Vector UInt8 16

namespace Block

def xor (a b : Block) : Block := Vector.zipWith (· ^^^ ·) a b

def zero : Block := Vector.replicate 16 0

/-- The block of the first sixteen bytes of a list, zero where there are fewer. -/
def ofList (bs : List UInt8) : Block := Vector.ofFn fun i => bs.getD i 0

@[simp] theorem getElem_xor (a b : Block) (i : Nat) (h : i < 16) :
    (xor a b)[i] = a[i] ^^^ b[i] := by simp [xor]

theorem xor_xor_cancel (a k : Block) : xor (xor a k) k = a := by
  ext i h
  simp only [getElem_xor, UInt8.xor_assoc, UInt8.xor_self, UInt8.xor_zero]

theorem ofList_toList (b : Block) : ofList b.toList = b := by
  ext i h
  simp [ofList]

end Block

namespace AES

def substitutionTable : Array UInt8 := #[
  0x63, 0x7c, 0x77, 0x7b, 0xf2, 0x6b, 0x6f, 0xc5, 0x30, 0x01, 0x67, 0x2b, 0xfe, 0xd7, 0xab, 0x76,
  0xca, 0x82, 0xc9, 0x7d, 0xfa, 0x59, 0x47, 0xf0, 0xad, 0xd4, 0xa2, 0xaf, 0x9c, 0xa4, 0x72, 0xc0,
  0xb7, 0xfd, 0x93, 0x26, 0x36, 0x3f, 0xf7, 0xcc, 0x34, 0xa5, 0xe5, 0xf1, 0x71, 0xd8, 0x31, 0x15,
  0x04, 0xc7, 0x23, 0xc3, 0x18, 0x96, 0x05, 0x9a, 0x07, 0x12, 0x80, 0xe2, 0xeb, 0x27, 0xb2, 0x75,
  0x09, 0x83, 0x2c, 0x1a, 0x1b, 0x6e, 0x5a, 0xa0, 0x52, 0x3b, 0xd6, 0xb3, 0x29, 0xe3, 0x2f, 0x84,
  0x53, 0xd1, 0x00, 0xed, 0x20, 0xfc, 0xb1, 0x5b, 0x6a, 0xcb, 0xbe, 0x39, 0x4a, 0x4c, 0x58, 0xcf,
  0xd0, 0xef, 0xaa, 0xfb, 0x43, 0x4d, 0x33, 0x85, 0x45, 0xf9, 0x02, 0x7f, 0x50, 0x3c, 0x9f, 0xa8,
  0x51, 0xa3, 0x40, 0x8f, 0x92, 0x9d, 0x38, 0xf5, 0xbc, 0xb6, 0xda, 0x21, 0x10, 0xff, 0xf3, 0xd2,
  0xcd, 0x0c, 0x13, 0xec, 0x5f, 0x97, 0x44, 0x17, 0xc4, 0xa7, 0x7e, 0x3d, 0x64, 0x5d, 0x19, 0x73,
  0x60, 0x81, 0x4f, 0xdc, 0x22, 0x2a, 0x90, 0x88, 0x46, 0xee, 0xb8, 0x14, 0xde, 0x5e, 0x0b, 0xdb,
  0xe0, 0x32, 0x3a, 0x0a, 0x49, 0x06, 0x24, 0x5c, 0xc2, 0xd3, 0xac, 0x62, 0x91, 0x95, 0xe4, 0x79,
  0xe7, 0xc8, 0x37, 0x6d, 0x8d, 0xd5, 0x4e, 0xa9, 0x6c, 0x56, 0xf4, 0xea, 0x65, 0x7a, 0xae, 0x08,
  0xba, 0x78, 0x25, 0x2e, 0x1c, 0xa6, 0xb4, 0xc6, 0xe8, 0xdd, 0x74, 0x1f, 0x4b, 0xbd, 0x8b, 0x8a,
  0x70, 0x3e, 0xb5, 0x66, 0x48, 0x03, 0xf6, 0x0e, 0x61, 0x35, 0x57, 0xb9, 0x86, 0xc1, 0x1d, 0x9e,
  0xe1, 0xf8, 0x98, 0x11, 0x69, 0xd9, 0x8e, 0x94, 0x9b, 0x1e, 0x87, 0xe9, 0xce, 0x55, 0x28, 0xdf,
  0x8c, 0xa1, 0x89, 0x0d, 0xbf, 0xe6, 0x42, 0x68, 0x41, 0x99, 0x2d, 0x0f, 0xb0, 0x54, 0xbb, 0x16]

def substitute (b : UInt8) : UInt8 := substitutionTable.getD b.toNat 0

/-- Doubling in the field of 256 elements with the polynomial `x^8 + x^4 + x^3 + x + 1`. -/
def double (b : UInt8) : UInt8 := if b < 0x80 then b <<< 1 else (b <<< 1) ^^^ 0x1b

/-- Row `r` moves `r` columns to the left. -/
def shiftRows (s : Block) : Block :=
  Vector.ofFn fun i => s[(i.val + 4 * (i.val % 4)) % 16]

def mixColumns (s : Block) : Block :=
  Vector.ofFn fun i =>
    let row (k : Nat) : UInt8 := s[(4 * (i.val / 4) + (i.val + k) % 4) % 16]
    double (row 0) ^^^ double (row 1) ^^^ row 1 ^^^ row 2 ^^^ row 3

/-- The next round key: each column is the one to its left, the last one substituted, rotated and
marked with the round constant, added to the same column of the key before. -/
def nextRoundKey (k : Block) (constant : UInt8) : Block :=
  let c0 := k[0] ^^^ substitute k[13] ^^^ constant
  let c1 := k[1] ^^^ substitute k[14]
  let c2 := k[2] ^^^ substitute k[15]
  let c3 := k[3] ^^^ substitute k[12]
  let d0 := k[4] ^^^ c0
  let d1 := k[5] ^^^ c1
  let d2 := k[6] ^^^ c2
  let d3 := k[7] ^^^ c3
  let e0 := k[8] ^^^ d0
  let e1 := k[9] ^^^ d1
  let e2 := k[10] ^^^ d2
  let e3 := k[11] ^^^ d3
  #v[c0, c1, c2, c3, d0, d1, d2, d3, e0, e1, e2, e3,
    k[12] ^^^ e0, k[13] ^^^ e1, k[14] ^^^ e2, k[15] ^^^ e3]

def round (s : Block × Block) (constant : UInt8) : Block × Block :=
  let key := nextRoundKey s.2 constant
  (Block.xor (mixColumns (shiftRows (s.1.map substitute))) key, key)

/-- The constants of the nine full rounds. -/
def roundConstants : List UInt8 := [0x01, 0x02, 0x04, 0x08, 0x10, 0x20, 0x40, 0x80, 0x1b]

/-- The last round does not mix columns; its constant is `0x36`. -/
def encrypt (key block : Block) : Block :=
  let s := roundConstants.foldl round (Block.xor block key, key)
  Block.xor (shiftRows (s.1.map substitute)) (nextRoundKey s.2 0x36)

end AES
end MixRelay
