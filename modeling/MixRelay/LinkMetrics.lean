/-! # Counters of an edge -/
namespace MixRelay

structure LinkMetrics where
  framesSent : Nat
  framesReceived : Nat
  bytesSent : Nat
  bytesReceived : Nat
  connections : Nat
  protocolFaults : Nat
  skippedBytes : Nat
  deriving DecidableEq

namespace LinkMetrics

def zero : LinkMetrics := ⟨0, 0, 0, 0, 0, 0, 0⟩

/-- The counters in their order. -/
def counts (m : LinkMetrics) : List Nat :=
  [m.framesSent, m.framesReceived, m.bytesSent, m.bytesReceived, m.connections, m.protocolFaults,
    m.skippedBytes]

def countSent (m : LinkMetrics) (bytes : Nat) : LinkMetrics :=
  { m with framesSent := m.framesSent + 1, bytesSent := m.bytesSent + bytes }

def countReceived (m : LinkMetrics) (bytes : Nat) : LinkMetrics :=
  { m with framesReceived := m.framesReceived + 1, bytesReceived := m.bytesReceived + bytes }

def countConnection (m : LinkMetrics) : LinkMetrics := { m with connections := m.connections + 1 }

/-- A frame that was passed over, with the bytes behind its header block. -/
def countFault (m : LinkMetrics) (skipped : Nat) : LinkMetrics :=
  { m with protocolFaults := m.protocolFaults + 1, skippedBytes := m.skippedBytes + skipped }

end LinkMetrics
end MixRelay
