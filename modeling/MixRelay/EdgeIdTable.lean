import MixRelay.Draws
import MixRelay.MixMessages

/-! # Channel identifiers on one edge

The two relays of an edge name a channel by an identifier of the edge's own. The sending relay draws
it when it establishes the channel; the receiving relay records what it is told. No identifier, local
or of the edge, stands in two pairs. -/
namespace MixRelay

/-- Pairs of an edge identifier and a local one. -/
structure EdgeIdTable where
  pairs : List (ChannelId × ChannelId)
  deriving DecidableEq

namespace EdgeIdTable

def empty : EdgeIdTable := ⟨[]⟩

def size (t : EdgeIdTable) : Nat := t.pairs.length

def edgeId? (t : EdgeIdTable) (localId : ChannelId) : Option ChannelId :=
  (t.pairs.find? fun p => p.2 = localId).map (·.1)

def localId? (t : EdgeIdTable) (edge : ChannelId) : Option ChannelId :=
  (t.pairs.find? fun p => p.1 = edge).map (·.2)

def containsEdge (t : EdgeIdTable) (edge : ChannelId) : Bool := (t.localId? edge).isSome

def containsLocal (t : EdgeIdTable) (localId : ChannelId) : Bool := (t.edgeId? localId).isSome

def dropLocal (t : EdgeIdTable) (localId : ChannelId) : EdgeIdTable :=
  ⟨t.pairs.filter fun p => p.2 ≠ localId⟩

def dropEdge (t : EdgeIdTable) (edge : ChannelId) : EdgeIdTable :=
  ⟨t.pairs.filter fun p => p.1 ≠ edge⟩

/-- Adds a pair; the caller has seen that neither identifier is taken. -/
def add (t : EdgeIdTable) (edge localId : ChannelId) : EdgeIdTable := ⟨t.pairs ++ [(edge, localId)]⟩

/-- Gives a local channel the first draw that names no channel on the edge. An identifier that it had
is free before the first draw. -/
def allocate (t : EdgeIdTable) (localId : ChannelId) (draws : Draws) :
    ChannelId × Draws × EdgeIdTable :=
  let t := t.dropLocal localId
  let (edge, draws) := draws.firstFree t.size t.containsEdge
  (edge, draws, t.add edge localId)

/-- Records a pair unless one of the two is taken, and tells whether it did. -/
def insert (t : EdgeIdTable) (edge localId : ChannelId) : Bool × EdgeIdTable :=
  if t.containsEdge edge || t.containsLocal localId then (false, t) else (true, t.add edge localId)

/-- Forgets a local identifier and tells what the edge called it. -/
def removeLocal (t : EdgeIdTable) (localId : ChannelId) : Option ChannelId × EdgeIdTable :=
  (t.edgeId? localId, t.dropLocal localId)

/-- Forgets an edge identifier and tells the local channel. -/
def removeEdge (t : EdgeIdTable) (edge : ChannelId) : Option ChannelId × EdgeIdTable :=
  (t.localId? edge, t.dropEdge edge)

end EdgeIdTable
end MixRelay
