import MixRelay.ByteStrings

/-! # The SHA-256 digest

The compression function and the padding of FIPS 180-4, on lists of 32-bit words. -/
namespace MixRelay.SHA256

/-- The first 32 bits of the fractional parts of the cube roots of the first 64 primes. -/
def roundConstants : List UInt32 := [
  0x428a2f98, 0x71374491, 0xb5c0fbcf, 0xe9b5dba5, 0x3956c25b, 0x59f111f1, 0x923f82a4, 0xab1c5ed5,
  0xd807aa98, 0x12835b01, 0x243185be, 0x550c7dc3, 0x72be5d74, 0x80deb1fe, 0x9bdc06a7, 0xc19bf174,
  0xe49b69c1, 0xefbe4786, 0x0fc19dc6, 0x240ca1cc, 0x2de92c6f, 0x4a7484aa, 0x5cb0a9dc, 0x76f988da,
  0x983e5152, 0xa831c66d, 0xb00327c8, 0xbf597fc7, 0xc6e00bf3, 0xd5a79147, 0x06ca6351, 0x14292967,
  0x27b70a85, 0x2e1b2138, 0x4d2c6dfc, 0x53380d13, 0x650a7354, 0x766a0abb, 0x81c2c92e, 0x92722c85,
  0xa2bfe8a1, 0xa81a664b, 0xc24b8b70, 0xc76c51a3, 0xd192e819, 0xd6990624, 0xf40e3585, 0x106aa070,
  0x19a4c116, 0x1e376c08, 0x2748774c, 0x34b0bcb5, 0x391c0cb3, 0x4ed8aa4a, 0x5b9cca4f, 0x682e6ff3,
  0x748f82ee, 0x78a5636f, 0x84c87814, 0x8cc70208, 0x90befffa, 0xa4506ceb, 0xbef9a3f7, 0xc67178f2]

/-- The first 32 bits of the fractional parts of the square roots of the first 8 primes. -/
def initialState : List UInt32 :=
  [0x6a09e667, 0xbb67ae85, 0x3c6ef372, 0xa54ff53a,
   0x510e527f, 0x9b05688c, 0x1f83d9ab, 0x5be0cd19]

def rotateRight (w : UInt32) (n : UInt32) : UInt32 := (w >>> n) ||| (w <<< (32 - n))

/-- A one bit, zeros up to 56 modulo 64 bytes, and the length in bits as eight bytes. -/
def pad (message : Bytes) : Bytes :=
  let bits := 8 * message.length
  message ++ 0x80 :: List.replicate ((119 - message.length % 64) % 64) 0 ++
    Bytes.ofWord (bits / 2 ^ 32) ++ Bytes.ofWord bits

/-- Splits into pieces of `n` bytes; a shorter rest is dropped. -/
def pieces (n : Nat) (bs : Bytes) : List Bytes :=
  (List.range (bs.length / n)).map fun i => (bs.drop (n * i)).take n

def words (block : Bytes) : List UInt32 :=
  (pieces 4 block).map fun w => UInt32.ofNat (Bytes.toNat w)

/-- Adds the next word of the message schedule to the words so far, kept last word first. -/
def extendSchedule (ws : List UInt32) : List UInt32 :=
  let a := ws.getD 14 0
  let b := ws.getD 1 0
  let s0 := rotateRight a 7 ^^^ rotateRight a 18 ^^^ (a >>> 3)
  let s1 := rotateRight b 17 ^^^ rotateRight b 19 ^^^ (b >>> 10)
  (ws.getD 15 0 + s0 + ws.getD 6 0 + s1) :: ws

def schedule (block : Bytes) : List UInt32 :=
  ((List.range 48).foldl (fun ws _ => extendSchedule ws) (words block).reverse).reverse

/-- One round on the eight working variables; `kw` is the round constant plus the schedule word. -/
def round (s : List UInt32) (kw : UInt32) : List UInt32 :=
  match s with
  | [a, b, c, d, e, f, g, h] =>
    let s1 := rotateRight e 6 ^^^ rotateRight e 11 ^^^ rotateRight e 25
    let choice := (e &&& f) ^^^ ((e ^^^ 0xffffffff) &&& g)
    let t1 := h + s1 + choice + kw
    let s0 := rotateRight a 2 ^^^ rotateRight a 13 ^^^ rotateRight a 22
    let majority := (a &&& b) ^^^ (a &&& c) ^^^ (b &&& c)
    [t1 + s0 + majority, a, b, c, d + t1, e, f, g]
  | _ => s

def compress (state : List UInt32) (block : Bytes) : List UInt32 :=
  let kws := List.zipWith (· + ·) roundConstants (schedule block)
  List.zipWith (· + ·) state (kws.foldl round state)

def digest (message : Bytes) : Bytes :=
  ((pieces 64 (pad message)).foldl compress initialState).flatMap fun w => Bytes.ofWord w.toNat

end MixRelay.SHA256
