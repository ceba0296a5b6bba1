import MixRelay.AesBlockCipher
import MixRelay.BlankCharacters
import MixRelay.HexText
import MixRelay.Sha256Digest

/-! # Shared keys of an edge and their text

An edge key is an AES-128 key with the block at which the counter starts. Its text is a pair of
hexadecimal strings; blanks around them do not count. -/
namespace MixRelay

inductive CipherError
  | invalidLength (expected actual : Nat)
  | invalidHex (reason : String)
  | notABlock (length : Nat)
  deriving DecidableEq

def CipherError.message : CipherError → String
  | .invalidLength expected actual =>
    s!"invalid key material length: expected {expected} bytes, got {actual}"
  | .invalidHex reason => s!"invalid hex key material: {reason}"
  | .notABlock length => s!"header block must be 16 bytes, got {length}"

structure EdgeKey where
  key : Block
  iv : Block
  deriving DecidableEq

namespace EdgeKey

/-- A block from its text; a text of other than sixteen bytes is refused. -/
def parseBlock (text : String) : Except CipherError Block :=
  match HexText.decode (String.ofList (trimBlanks text.toList)) with
  | .error fault => .error (.invalidHex fault.message)
  | .ok bs => if bs.length = 16 then .ok (Block.ofList bs) else .error (.invalidLength 16 bs.length)

/-- The key text is judged before the text of the counter block. -/
def parse (key iv : String) : Except CipherError EdgeKey := do
  let key ← parseBlock key
  let iv ← parseBlock iv
  .ok ⟨key, iv⟩

/-- A key from 32 random draws, the low byte of each. -/
def ofDraws (draws : List UInt32) : EdgeKey :=
  let bytes := draws.map UInt32.toUInt8
  ⟨Block.ofList (bytes.take 16), Block.ofList ((bytes.drop 16).take 16)⟩

def keyText (k : EdgeKey) : String := HexText.encode k.key.toList

def ivText (k : EdgeKey) : String := HexText.encode k.iv.toList

def bytes (k : EdgeKey) : Bytes := k.key.toList ++ k.iv.toList

/-- Four digest bytes stand for the key where it may be seen. -/
def fingerprint (k : EdgeKey) : String :=
  s!"EdgeKey(sha256:{HexText.encode ((SHA256.digest k.bytes).take 4)})"

end EdgeKey
end MixRelay
