import MixRelay.RelayErrors
import MixRelay.SocketAddress

/-! # Hosts and the addresses they listen at

A host answers a wish to listen at an address. Its own addresses it grants; what it refuses, it
refuses with a reason of the system. -/
namespace MixRelay

/-- What the host makes of an address to listen at: the address it gives, or why it gives none. -/
abbrev Host := SocketAddress → Except TransferError SocketAddress

namespace Host

def unavailable : TransferError := .system 99 "Cannot assign requested address"

/-- The loopback addresses, and those that stand for all. -/
def isLoopback : IpAddress → Bool
  | .v4 127 _ _ _ | .v4 0 0 0 0 => true
  | ip => ip == IpAddress.ofGroups [] || ip == IpAddress.ofGroups [0, 0, 0, 0, 0, 0, 0, 1]

/-- A host with loopback addresses only. -/
def loopback : Host := fun address =>
  if isLoopback address.ip then .ok address else .error unavailable

end Host
end MixRelay
