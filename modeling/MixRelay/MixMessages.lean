import MixRelay.ByteStrings

/-! # The messages that relays pass along

A client's session is a channel. It is opened by an establish message, fed by messages, and closed
by a release; replies travel back. A batch size announces how many requests make up a round. -/
namespace MixRelay

/-- Identifiers of channels, on a relay or on one edge. -/
abbrev ChannelId := UInt32

namespace ChannelId

/-- Eight lower-case hexadecimal digits. -/
def render (id : ChannelId) : String :=
  let ds := Nat.toDigits 16 id.toNat
  String.ofList (List.replicate (8 - ds.length) '0' ++ ds)

def describe (id : ChannelId) : String := s!"ChannelId({render id})"

def wire (id : ChannelId) : Bytes := Bytes.ofWord id.toNat

def ofWire (bs : Bytes) : ChannelId := UInt32.ofNat (Bytes.toNat (bs.take 4))

end ChannelId

inductive MessageKind
  | establish
  | message
  | release
  | batchSize
  | reply
  deriving DecidableEq

namespace MessageKind

def all : List MessageKind := [.establish, .message, .release, .batchSize, .reply]

/-- The byte that stands for the kind in a frame. -/
def code : MessageKind → UInt8
  | .establish => 1
  | .message => 2
  | .release => 3
  | .batchSize => 4
  | .reply => 5

def ofCode? (b : UInt8) : Option MessageKind := all.find? fun k => k.code = b

def name : MessageKind → String
  | .establish => "ChannelEstablish"
  | .message => "ChannelMessage"
  | .release => "ChannelRelease"
  | .batchSize => "BatchSize"
  | .reply => "Reply"

def word : MessageKind → String
  | .establish => "establish"
  | .message => "message"
  | .release => "release"
  | .batchSize => "batch-size"
  | .reply => "reply"

@[simp] theorem ofCode?_code (k : MessageKind) : ofCode? k.code = some k := by cases k <;> rfl

theorem code_eq_of_ofCode? {b : UInt8} {k : MessageKind} (h : ofCode? b = some k) : k.code = b := by
  simpa using List.find?_some h

end MessageKind

inductive Message
  | establish (channel : ChannelId) (payload : Bytes)
  | message (channel : ChannelId) (payload : Bytes)
  | release (channel : ChannelId)
  | batchSize (size : UInt32)
  | reply (channel : ChannelId) (payload : Bytes)
  deriving DecidableEq

namespace Message

def kind : Message → MessageKind
  | .establish .. => .establish
  | .message .. => .message
  | .release _ => .release
  | .batchSize _ => .batchSize
  | .reply .. => .reply

def channel? : Message → Option ChannelId
  | .establish c _ | .message c _ | .release c | .reply c _ => some c
  | .batchSize _ => none

/-- The payload; messages that only control the relay have none. -/
def payload : Message → Bytes
  | .establish _ p | .message _ p | .reply _ p => p
  | .release _ | .batchSize _ => []

/-- Requests are what a channel may send once in a round. -/
def isRequest : Message → Bool
  | .establish .. | .message .. => true
  | _ => false

/-- Removes one relay's header from the payload of a request. -/
def stripHeader (unit : Nat) : Message → Message
  | .establish c p => .establish c (p.drop unit)
  | .message c p => .message c (p.drop unit)
  | m => m

/-- What may be shown of a message: never its payload. -/
def describe (m : Message) : String :=
  let detail := match m with
    | .batchSize n => s!"size: {n.toNat}"
    | _ =>
      let channel := match m.channel? with
        | some c => s!"channel: {ChannelId.describe c}, "
        | none => ""
      s!"{channel}payload_len: {m.payload.length}"
  s!"MixMessage \x7b type: {m.kind.name}, {detail} \x7d"

@[simp] theorem kind_stripHeader (n : Nat) (m : Message) : (m.stripHeader n).kind = m.kind := by
  cases m <;> rfl

end Message
end MixRelay
