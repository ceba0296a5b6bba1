import MixRelay.ClientListener
import MixRelay.InboundEdge
import MixRelay.RelayErrors
import MixRelay.ReplySizing
import MixRelay.RequestMixing

/-! # The settings of a relay

Settings come in sections, each with defaults; durations are in milliseconds. Every component of a
relay draws its own settings from them. Valid settings fit together: the greatest payload fits in a
frame, and whoever is not the last relay knows the next one. -/
namespace MixRelay

structure CascadeSection where
  previousHops : Nat
  furtherHops : Nat
  deriving DecidableEq

structure ListenerSection where
  bindAddress : String
  port : Nat
  backlog : Nat
  acceptTimeoutMs : Nat
  maxConnections : Nat
  maxPerAddress : Nat
  deriving DecidableEq

/-- The edge to the next relay. -/
structure OutboundSection where
  address : Option String
  infoPort : Nat
  reconnectBackoffMs : Nat
  deriving DecidableEq

/-- The edge from the previous relay. -/
structure InboundSection where
  listen : String
  deriving DecidableEq

structure FramingSection where
  blockSize : Nat
  headerUnit : Nat
  establishBase : Nat
  messageBase : Nat
  maxReplyLength : Nat
  maxFrameLength : Nat
  deriving DecidableEq

structure ReplySection where
  pollIntervalMs : Nat
  minVolume : Nat
  minFraction : Float
  timeoutMs : Nat
  weight : Float
  headerLength : Nat

structure MixingSection where
  roundSize : Nat
  roundTimeoutMs : Nat
  queueCapacity : Nat
  proxyCapacity : Nat
  deriving DecidableEq

/-- The texts of a shared edge key. -/
structure KeySection where
  key : String
  iv : String
  deriving DecidableEq

/-- The texts of a key are not shown. -/
def KeySection.describe (_ : KeySection) : String := "KeySettings(..)"

structure RelaySettings where
  cascade : CascadeSection
  listener : ListenerSection
  outbound : OutboundSection
  inbound : InboundSection
  framing : FramingSection
  reply : ReplySection
  mixing : MixingSection
  keys : Option KeySection

namespace RelaySettings

/-- The header cipher works on whole blocks of this size. -/
def cipherBlockSize : Nat := 16

/-- A relay on its own. -/
def default : RelaySettings where
  cascade := ⟨0, 0⟩
  listener := ⟨"0.0.0.0", 7300, 64, 100, 1024, 16⟩
  outbound := ⟨none, 7302, 1000⟩
  inbound := ⟨"0.0.0.0:7301"⟩
  framing := ⟨cipherBlockSize, 16, 64, 512, 4096, Frame.defaultMaxLength⟩
  reply := ⟨50, 256, 0.5, 2000, 0.5, ReplyPayload.headerLength⟩
  mixing := ⟨8, 1000, 4096, 65536⟩
  keys := none

/-- A relay at a place in the cascade. -/
def atPosition (previousHops furtherHops : Nat) (nextRelay : Option String) : RelaySettings :=
  { default with
    cascade := ⟨previousHops, furtherHops⟩
    outbound := { default.outbound with address := nextRelay } }

/-- The same relay on a host with its neighbours, where it takes any free port. -/
def onLoopback (s : RelaySettings) : RelaySettings :=
  { s with
    listener := { s.listener with bindAddress := "127.0.0.1", port := 0 }
    inbound := ⟨"127.0.0.1:0"⟩ }

/-- The first relay accepts clients. -/
def isFirst (s : RelaySettings) : Bool := s.cascade.previousHops == 0

/-- The last relay talks to the destination. -/
def isLast (s : RelaySettings) : Bool := s.cascade.furtherHops == 0

def payloadFraming (s : RelaySettings) : PayloadFraming :=
  ⟨s.framing.headerUnit, s.framing.establishBase, s.framing.messageBase, s.cascade.furtherHops⟩

/-- The greatest payload of a request that arrives or a reply that leaves. -/
def largestPayload (s : RelaySettings) : Nat :=
  max (max s.payloadFraming.establishLength s.payloadFraming.messageLength) s.framing.maxReplyLength

/-- A share lies between nothing and all; what is no number does not. -/
def isShare (x : Float) : Bool := 0.0 ≤ x && x ≤ 1.0

/-- The address that a setting names. -/
def resolve (field value : String) : Except SettingsError SocketAddress :=
  match SocketAddress.resolve? value with
  | some address => .ok address
  | none => .error (.address field value)

/-- The shared edge key; without a section there is none. -/
def edgeKey (s : RelaySettings) : Except SettingsError (Option EdgeKey) :=
  match s.keys with
  | none => .ok none
  | some keys =>
    match EdgeKey.parse keys.key keys.iv with
    | .ok key => .ok (some key)
    | .error e => .error (.key e)

/-- What is wrong with the numbers, the first fault only. -/
def numberFault? (s : RelaySettings) : Option SettingsError :=
  if s.framing.blockSize ≠ cipherBlockSize then
    some (.invalid "framing.block_size" s!"must be {cipherBlockSize}, got {s.framing.blockSize}")
  else if s.framing.maxReplyLength < s.framing.blockSize then
    some (.invalid "framing.max_reply_len" "must hold at least one cipher block")
  else if s.framing.maxFrameLength < Frame.length s.largestPayload then
    some (.invalid "framing.max_frame_len"
      s!"{s.framing.maxFrameLength} is smaller than the largest frame")
  else if !isShare s.reply.weight then
    some (.invalid "reply.weight" "must be within [0, 1]")
  else if !isShare s.reply.minFraction then
    some (.invalid "reply.min_fraction" "must be within [0, 1]")
  else if s.reply.headerLength ≠ ReplyPayload.headerLength then
    some (.invalid "reply.header_len" s!"only {ReplyPayload.headerLength} is supported")
  else if s.reply.pollIntervalMs = 0 then
    some (.invalid "reply.poll_interval_ms" "must be positive")
  else if s.mixing.roundSize = 0 then
    some (.invalid "mixing.round_size" "must be positive")
  else if s.mixing.queueCapacity = 0 then
    some (.invalid "mixing.queue_capacity" "must be positive")
  else none

/-- Refuses settings that do not fit together. Addresses are only judged where they are used. -/
def validate (s : RelaySettings) : Except SettingsError Unit :=
  match s.numberFault? with
  | some e => .error e
  | none =>
    if !s.isLast && s.outbound.address.isNone then .error .missingNextRelay
    else s.edgeKey.map fun _ => ()

/-- The settings of the client listener. -/
def forListener (s : RelaySettings) : ListenerSettings :=
  ⟨⟨s.payloadFraming, s.framing.maxFrameLength⟩, s.isLast, s.listener.backlog⟩

def listenerAddress (s : RelaySettings) : Except SettingsError SocketAddress :=
  resolve "listener" s!"{s.listener.bindAddress}:{s.listener.port}"

/-- The address of the next relay. -/
def outboundAddress (s : RelaySettings) : Except SettingsError SocketAddress :=
  match s.outbound.address with
  | none => .error .missingNextRelay
  | some address => resolve "upstream" address

/-- The settings of the edge from the previous relay. -/
def forInbound (s : RelaySettings) : InboundSettings :=
  ⟨s.payloadFraming, s.framing.maxFrameLength, s.isLast⟩

def inboundAddress (s : RelaySettings) : Except SettingsError SocketAddress :=
  resolve "downstream" s.inbound.listen

def forMixer (s : RelaySettings) : MixerSettings :=
  ⟨s.mixing.roundSize, s.mixing.roundTimeoutMs, s.framing.headerUnit, s.isFirst, s.isLast⟩

def forSizing (s : RelaySettings) : SizingSettings :=
  ⟨s.reply.pollIntervalMs, s.reply.minVolume, s.reply.minFraction, s.reply.timeoutMs,
    s.reply.weight, s.framing.blockSize, s.reply.headerLength, s.framing.maxReplyLength⟩

/-- In valid settings a request of either kind and the greatest reply fit in a frame. -/
theorem length_le_maxFrameLength_of_validate {s : RelaySettings} (h : s.validate = .ok ()) :
    Frame.length s.largestPayload ≤ s.framing.maxFrameLength := by
  have none : s.numberFault? = none := by
    cases e : s.numberFault? with
    | none => rfl
    | some e => simp [validate, *] at h
  apply Nat.le_of_not_lt
  intro small
  unfold numberFault? at none
  split at none
  · cases none
  · split at none
    · cases none
    · simp at none

end RelaySettings
end MixRelay
