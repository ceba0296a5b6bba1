import MixRelay.EdgeKeys
import MixRelay.SocketAddress

/-! # How the two ends of an edge come by its key

Either one key is pinned for every edge, or the listening end publishes a key under its address and
the connecting end fetches it there. -/
namespace MixRelay

inductive KeyExchangeError
  | notPublished (peer : SocketAddress)
  | unavailable (reason : String)
  deriving DecidableEq

def KeyExchangeError.message : KeyExchangeError → String
  | .notPublished peer => s!"No edge key published for {peer.render}"
  | .unavailable reason => s!"Key exchange unavailable: {reason}"

inductive KeyExchange
  | pinned (key : EdgeKey)
  | published (keys : List (SocketAddress × EdgeKey))

namespace KeyExchange

/-- The key in effect at an address, once any wait for it is over. -/
def fetch (x : KeyExchange) (peer : SocketAddress) : Except KeyExchangeError EdgeKey :=
  match x with
  | .pinned key => .ok key
  | .published keys =>
    match keys.find? fun entry => entry.1 = peer with
    | some entry => .ok entry.2
    | none => .error (.notPublished peer)

/-- The key in effect after a proposal; a pinned key stays, else the last proposal wins. -/
def publish (x : KeyExchange) (listen : SocketAddress) (proposed : EdgeKey) : EdgeKey × KeyExchange :=
  match x with
  | .pinned key => (key, x)
  | .published keys => (proposed, .published ((listen, proposed) :: keys))

end KeyExchange
end MixRelay
