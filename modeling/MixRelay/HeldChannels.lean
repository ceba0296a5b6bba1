import MixRelay.ChannelRegistry

/-! # Channels in the hands of those who looked them up

Whoever holds a channel keeps it when it leaves the registry. From then on no closing round frees
its slots, and a new channel under the same identifier is another one. -/
namespace MixRelay

/-- What a holder has: a channel that is still registered, or one of those removed since. -/
inductive Hold
  | registered (id : ChannelId)
  | removed (index : Nat)
  deriving DecidableEq

structure HeldChannels where
  registry : ChannelRegistry
  removed : List Channel
  holds : List (Nat × Hold)

namespace HeldChannels

def ofRegistry (r : ChannelRegistry) : HeldChannels := ⟨r, [], []⟩

def channel? (h : HeldChannels) : Hold → Option Channel
  | .registered id => h.registry.find? id
  | .removed i => h.removed[i]?

def modify (h : HeldChannels) (at_ : Hold) (f : Channel → Channel) : HeldChannels :=
  match at_ with
  | .registered id => { h with registry := h.registry.modify id f }
  | .removed i => { h with removed := h.removed.modify i f }

/-- What the holder `label` has. -/
def hold? (h : HeldChannels) (label : Nat) : Option Hold :=
  (h.holds.find? fun entry => entry.1 = label).map (·.2)

/-- The channel that a holder has, or that is registered if no holder is named, with where it is. -/
def resolve (h : HeldChannels) (label : Option Nat) (id : ChannelId) :
    Except RegistryError (Hold × Channel) :=
  let hold := match label with
    | some label => h.hold? label
    | none => some (.registered id)
  match hold.bind fun hold => (h.channel? hold).map fun c => (hold, c) with
  | some found => .ok found
  | none => .error (.notFound id)

/-- The holder `label` takes the registered channel under `id`. -/
def take (h : HeldChannels) (label : Nat) (id : ChannelId) : HeldChannels :=
  { h with holds := (label, .registered id) :: h.holds }

/-- Those who hold the channel keep it as it is when it leaves the registry. -/
def remove (h : HeldChannels) (id : ChannelId) : Except RegistryError HeldChannels := do
  let channel ← h.registry.lookup id
  let registry ← h.registry.remove id
  let kept (hold : Hold) : Hold := if hold = .registered id then .removed h.removed.length else hold
  .ok ⟨registry, h.removed ++ [channel], h.holds.map fun entry => (entry.1, kept entry.2)⟩

end HeldChannels
end MixRelay
