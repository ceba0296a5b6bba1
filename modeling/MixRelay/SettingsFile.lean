import MixRelay.RelaySettings
import MixRelay.TomlReader
import MixRelay.TomlWriter

/-! # The settings file of a relay

Each section is a TOML table. What is not given takes its default, and what is not known is passed
over, though its numbers have to be of use. Fields may also stand in an array, in the order in
which the file lists them; what stands behind them there is not looked at. The sections and fields
here are in that order. -/
namespace MixRelay

/-- The fields of a section, under their names or in their places. -/
inductive SectionFields
  | named (entries : TomlEntries)
  | placed (items : List TomlValue)

namespace SectionFields

/-- The fields under their names; every value there is read, also under names that are not known. -/
def ofEntries? (entries : TomlEntries) : Option SectionFields :=
  if entries.areReadable then some (.named entries) else none

/-- The fields that a value holds; a date is a table of none. -/
def ofValue? : TomlValue → Option SectionFields
  | .table _ entries => ofEntries? entries
  | .array items | .tables items => some (.placed items)
  | .dateTime => some (.named [])
  | _ => none

def field? (s : SectionFields) (place : Nat) (key : String) : Option TomlValue :=
  match s with
  | .named entries => entries.get? key
  | .placed items => items[place]?

/-- What is read from a field, or its default where the field is not given. -/
def fieldOr {α : Type} (s : SectionFields) (place : Nat) (key : String)
    (read? : TomlValue → Option α) (default : α) : Option α :=
  match s.field? place key with
  | none => some default
  | some v => read? v

end SectionFields

namespace TomlValue

def natural? (bound : Nat) : TomlValue → Option Nat
  | .integer n => if 0 ≤ n ∧ n ≤ bound then some n.toNat else none
  | _ => none

def port? : TomlValue → Option Nat := natural? (2 ^ 16 - 1)

def count? : TomlValue → Option Nat := natural? (2 ^ 32 - 1)

def size? : TomlValue → Option Nat := natural? (2 ^ 64 - 1)

/-- A float, or the one nearest to an integer of at most 64 bits. -/
def float? : TomlValue → Option Float
  | .float x => some x
  | .integer n =>
    if -(2 ^ 63 : Int) ≤ n ∧ n < 2 ^ 64 then DecimalFloats.ofDecimal? (n < 0) n.natAbs 0 else none
  | _ => none

def text? : TomlValue → Option String
  | .string text => some text
  | _ => none

end TomlValue

def CascadeSection.read? (s : SectionFields) : Option CascadeSection := do
  let d := RelaySettings.default.cascade
  let previousHops ← s.fieldOr 0 "previous_hops" TomlValue.count? d.previousHops
  let furtherHops ← s.fieldOr 1 "further_hops" TomlValue.count? d.furtherHops
  some ⟨previousHops, furtherHops⟩

def CascadeSection.fields (s : CascadeSection) : List (String × String) :=
  [("previous_hops", toString s.previousHops), ("further_hops", toString s.furtherHops)]

def ListenerSection.read? (s : SectionFields) : Option ListenerSection := do
  let d := RelaySettings.default.listener
  let bindAddress ← s.fieldOr 0 "bind_address" TomlValue.text? d.bindAddress
  let port ← s.fieldOr 1 "port" TomlValue.port? d.port
  let backlog ← s.fieldOr 2 "backlog" TomlValue.size? d.backlog
  let acceptTimeoutMs ← s.fieldOr 3 "accept_timeout_ms" TomlValue.size? d.acceptTimeoutMs
  let maxConnections ← s.fieldOr 4 "max_connections" TomlValue.size? d.maxConnections
  let maxPerAddress ← s.fieldOr 5 "max_per_ip" TomlValue.count? d.maxPerAddress
  some ⟨bindAddress, port, backlog, acceptTimeoutMs, maxConnections, maxPerAddress⟩

def ListenerSection.fields (s : ListenerSection) : List (String × String) :=
  [("bind_address", Toml.renderString s.bindAddress), ("port", toString s.port),
    ("backlog", toString s.backlog), ("accept_timeout_ms", toString s.acceptTimeoutMs),
    ("max_connections", toString s.maxConnections), ("max_per_ip", toString s.maxPerAddress)]

def OutboundSection.read? (s : SectionFields) : Option OutboundSection := do
  let d := RelaySettings.default.outbound
  let address ← s.fieldOr 0 "address" (fun v => v.text?.map some) d.address
  let infoPort ← s.fieldOr 1 "info_port" TomlValue.port? d.infoPort
  let reconnectBackoffMs ← s.fieldOr 2 "reconnect_backoff_ms" TomlValue.size? d.reconnectBackoffMs
  some ⟨address, infoPort, reconnectBackoffMs⟩

def OutboundSection.fields (s : OutboundSection) : List (String × String) :=
  (s.address.map fun a => ("address", Toml.renderString a)).toList ++
    [("info_port", toString s.infoPort), ("reconnect_backoff_ms", toString s.reconnectBackoffMs)]

def InboundSection.read? (s : SectionFields) : Option InboundSection := do
  let listen ← s.fieldOr 0 "listen" TomlValue.text? RelaySettings.default.inbound.listen
  some ⟨listen⟩

def InboundSection.fields (s : InboundSection) : List (String × String) :=
  [("listen", Toml.renderString s.listen)]

def FramingSection.read? (s : SectionFields) : Option FramingSection := do
  let d := RelaySettings.default.framing
  let blockSize ← s.fieldOr 0 "block_size" TomlValue.size? d.blockSize
  let headerUnit ← s.fieldOr 1 "header_unit" TomlValue.size? d.headerUnit
  let establishBase ← s.fieldOr 2 "establish_base" TomlValue.size? d.establishBase
  let messageBase ← s.fieldOr 3 "message_base" TomlValue.size? d.messageBase
  let maxReplyLength ← s.fieldOr 4 "max_reply_len" TomlValue.size? d.maxReplyLength
  let maxFrameLength ← s.fieldOr 5 "max_frame_len" TomlValue.size? d.maxFrameLength
  some ⟨blockSize, headerUnit, establishBase, messageBase, maxReplyLength, maxFrameLength⟩

def FramingSection.fields (s : FramingSection) : List (String × String) :=
  [("block_size", toString s.blockSize), ("header_unit", toString s.headerUnit),
    ("establish_base", toString s.establishBase), ("message_base", toString s.messageBase),
    ("max_reply_len", toString s.maxReplyLength), ("max_frame_len", toString s.maxFrameLength)]

def ReplySection.read? (s : SectionFields) : Option ReplySection := do
  let d := RelaySettings.default.reply
  let pollIntervalMs ← s.fieldOr 0 "poll_interval_ms" TomlValue.size? d.pollIntervalMs
  let minVolume ← s.fieldOr 1 "min_volume" TomlValue.size? d.minVolume
  let minFraction ← s.fieldOr 2 "min_fraction" TomlValue.float? d.minFraction
  let timeoutMs ← s.fieldOr 3 "timeout_ms" TomlValue.size? d.timeoutMs
  let weight ← s.fieldOr 4 "weight" TomlValue.float? d.weight
  let headerLength ← s.fieldOr 5 "header_len" TomlValue.size? d.headerLength
  some ⟨pollIntervalMs, minVolume, minFraction, timeoutMs, weight, headerLength⟩

def ReplySection.fields (s : ReplySection) : List (String × String) :=
  [("poll_interval_ms", toString s.pollIntervalMs), ("min_volume", toString s.minVolume),
    ("min_fraction", DecimalFloats.render s.minFraction), ("timeout_ms", toString s.timeoutMs),
    ("weight", DecimalFloats.render s.weight), ("header_len", toString s.headerLength)]

def MixingSection.read? (s : SectionFields) : Option MixingSection := do
  let d := RelaySettings.default.mixing
  let roundSize ← s.fieldOr 0 "round_size" TomlValue.size? d.roundSize
  let roundTimeoutMs ← s.fieldOr 1 "round_timeout_ms" TomlValue.size? d.roundTimeoutMs
  let queueCapacity ← s.fieldOr 2 "queue_capacity" TomlValue.size? d.queueCapacity
  let proxyCapacity ← s.fieldOr 3 "proxy_capacity" TomlValue.size? d.proxyCapacity
  some ⟨roundSize, roundTimeoutMs, queueCapacity, proxyCapacity⟩

def MixingSection.fields (s : MixingSection) : List (String × String) :=
  [("round_size", toString s.roundSize), ("round_timeout_ms", toString s.roundTimeoutMs),
    ("queue_capacity", toString s.queueCapacity), ("proxy_capacity", toString s.proxyCapacity)]

/-- A key has both texts. -/
def KeySection.read? (s : SectionFields) : Option KeySection := do
  let key ← (← s.field? 0 "key").text?
  let iv ← (← s.field? 1 "iv").text?
  some ⟨key, iv⟩

def KeySection.fields (s : KeySection) : List (String × String) :=
  [("key", Toml.renderString s.key), ("iv", Toml.renderString s.iv)]

namespace RelaySettings

def sectionNames : List String :=
  ["cascade", "listener", "upstream", "downstream", "framing", "reply", "mixing", "keys"]

/-- The entries of a document that belong to no section. -/
def otherEntries (entries : TomlEntries) : TomlEntries :=
  entries.filter fun e => !sectionNames.contains e.1

/-- Reads the settings from the entries of a document. -/
def read? (entries : TomlEntries) : Option RelaySettings := do
  let _ ← SectionFields.ofEntries? (otherEntries entries)
  let document := SectionFields.named entries
  let sectionOr {α : Type} (place : Nat) (name : String) (read? : SectionFields → Option α)
      (default : α) : Option α :=
    document.fieldOr place name (fun v => (SectionFields.ofValue? v).bind read?) default
  let cascade ← sectionOr 0 "cascade" CascadeSection.read? default.cascade
  let listener ← sectionOr 1 "listener" ListenerSection.read? default.listener
  let outbound ← sectionOr 2 "upstream" OutboundSection.read? default.outbound
  let inbound ← sectionOr 3 "downstream" InboundSection.read? default.inbound
  let framing ← sectionOr 4 "framing" FramingSection.read? default.framing
  let reply ← sectionOr 5 "reply" ReplySection.read? default.reply
  let mixing ← sectionOr 6 "mixing" MixingSection.read? default.mixing
  let keys ← sectionOr 7 "keys" (fun s => (KeySection.read? s).map some) default.keys
  some ⟨cascade, listener, outbound, inbound, framing, reply, mixing, keys⟩

/-- The settings that a text holds, if it is a TOML document of them. -/
def parse? (text : String) : Option RelaySettings := (Toml.parse? text).bind read?

/-- The sections under their names, without the key section if there is no key. -/
def sections (s : RelaySettings) : List (String × List (String × String)) :=
  [("cascade", s.cascade.fields), ("listener", s.listener.fields), ("upstream", s.outbound.fields),
    ("downstream", s.inbound.fields), ("framing", s.framing.fields), ("reply", s.reply.fields),
    ("mixing", s.mixing.fields)] ++ (s.keys.map fun k => ("keys", k.fields)).toList

/-- The text of the settings, a blank line between two sections. -/
def render (s : RelaySettings) : String :=
  "\n".intercalate (s.sections.map fun t => Toml.renderTable t.1 t.2)

end RelaySettings
end MixRelay
