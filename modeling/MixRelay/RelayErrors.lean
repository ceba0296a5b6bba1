import MixRelay.EdgeFrames
import MixRelay.KeyExchange
import MixRelay.MessageQueues

/-! # Errors of links, listener, settings and relay

An error wraps its cause; its chain is its message followed by those of its causes, the nearest
first. A message repeats the message of the cause it wraps. -/
namespace MixRelay

inductive LinkError
  | transfer (error : TransferError)
  | frame (error : FrameError)
  | keyExchange (error : KeyExchangeError)
  | bind (address : SocketAddress) (cause : TransferError)
  | stopped
  deriving DecidableEq

namespace LinkError

/-- A link that waits on a queue ends when the queue refuses it. -/
def ofQueueError : QueueError → LinkError
  | .stopped | .timedOut => .stopped

def message : LinkError → String
  | .transfer e => s!"I/O error: {e.message}"
  | .frame e => s!"frame error: {e.message}"
  | .keyExchange e => s!"key exchange failed: {e.message}"
  | .bind address cause => s!"failed to bind edge listener on {address.render}: {cause.message}"
  | .stopped => "link shut down"

def chain (e : LinkError) : List String :=
  e.message :: match e with
    | .transfer e => [e.message]
    | .frame e => e.chain
    | .keyExchange e => [e.message]
    | .bind _ cause => [cause.message]
    | .stopped => []

end LinkError

inductive ListenerError
  | bind (address : SocketAddress) (cause : TransferError)
  | transfer (error : TransferError)
  deriving DecidableEq

namespace ListenerError

def message : ListenerError → String
  | .bind address cause => s!"failed to bind client listener on {address.render}: {cause.message}"
  | .transfer e => s!"I/O error: {e.message}"

def chain (e : ListenerError) : List String :=
  e.message :: match e with
    | .bind _ cause => [cause.message]
    | .transfer e => [e.message]

end ListenerError

inductive SettingsError
  | invalid (field reason : String)
  | address (field value : String)
  | missingNextRelay
  | key (error : CipherError)
  deriving DecidableEq

namespace SettingsError

def message : SettingsError → String
  | .invalid field reason => s!"invalid {field}: {reason}"
  | .address field value => s!"cannot resolve {field} address '{value}'"
  | .missingNextRelay => "relays other than the last need an upstream address"
  | .key e => s!"invalid edge key: {e.message}"

def chain (e : SettingsError) : List String :=
  e.message :: match e with
    | .key e => [e.message]
    | _ => []

end SettingsError

inductive RelayError
  | settings (error : SettingsError)
  | listener (error : ListenerError)
  | link (error : LinkError)
  | transfer (error : TransferError)
  deriving DecidableEq

namespace RelayError

def message : RelayError → String
  | .settings e => s!"configuration: {e.message}"
  | .listener e => s!"client listener: {e.message}"
  | .link e => s!"relay link: {e.message}"
  | .transfer e => s!"I/O error: {e.message}"

def chain (e : RelayError) : List String :=
  e.message :: match e with
    | .settings e => e.chain
    | .listener e => e.chain
    | .link e => e.chain
    | .transfer e => [e.message]

end RelayError
end MixRelay
