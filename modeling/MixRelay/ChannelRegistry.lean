import MixRelay.Draws
import MixRelay.MixMessages
import MixRelay.ProxyBuffers

/-! # The channels that a relay knows

Within a round a channel contributes at most one request, and within a reply round it receives at
most one reply: a slot is claimed by the first and stays claimed until the round closes. Closing a
round frees the slots of all registered channels and then counts the round. -/
namespace MixRelay

structure Channel where
  id : ChannelId
  established : Bool
  requestClaimed : Bool
  replyClaimed : Bool
  proxy : ProxyBuffers
  deriving DecidableEq

namespace Channel

def new (id : ChannelId) (proxyCapacity : Nat) : Channel :=
  ⟨id, false, false, false, .empty proxyCapacity⟩

def establish (c : Channel) : Channel := { c with established := true }

/-- Claims the request slot of the round; false if it was claimed before. -/
def claimRequest (c : Channel) : Bool × Channel := (!c.requestClaimed, { c with requestClaimed := true })

/-- Claims the reply slot of the reply round; false if it was claimed before. -/
def claimReply (c : Channel) : Bool × Channel := (!c.replyClaimed, { c with replyClaimed := true })

def clearRequest (c : Channel) : Channel := { c with requestClaimed := false }

def clearReply (c : Channel) : Channel := { c with replyClaimed := false }

def buffered (c : Channel) : Nat := c.proxy.replies.length

def pushReply (c : Channel) (data : Bytes) : Nat × Channel :=
  let (n, p) := c.proxy.pushReply data
  (n, { c with proxy := p })

def pushRequest (c : Channel) (data : Bytes) : Nat × Channel :=
  let (n, p) := c.proxy.pushRequest data
  (n, { c with proxy := p })

def takeReply (c : Channel) (n : Nat) : Bytes × Nat × Channel :=
  let (chunk, valid, p) := c.proxy.takeReply n
  (chunk, valid, { c with proxy := p })

def drainRequests (c : Channel) : Bytes × Channel :=
  let (data, p) := c.proxy.drainRequests
  (data, { c with proxy := p })

end Channel

inductive RegistryError
  | alreadyExists (id : ChannelId)
  | notFound (id : ChannelId)
  deriving DecidableEq

def RegistryError.message : RegistryError → String
  | .alreadyExists id => s!"channel {ChannelId.render id} already exists"
  | .notFound id => s!"channel {ChannelId.render id} not found"

/-- The registered channels, oldest first, and the number of rounds closed so far. -/
structure ChannelRegistry where
  channels : List Channel
  proxyCapacity : Nat
  requestRound : Nat
  replyRound : Nat
  deriving DecidableEq

namespace ChannelRegistry

def empty (proxyCapacity : Nat) : ChannelRegistry := ⟨[], proxyCapacity, 0, 0⟩

def ids (r : ChannelRegistry) : List ChannelId := r.channels.map Channel.id

def find? (r : ChannelRegistry) (id : ChannelId) : Option Channel :=
  r.channels.find? fun c => c.id = id

def contains (r : ChannelRegistry) (id : ChannelId) : Bool := (r.find? id).isSome

/-- The channel under an identifier, if there is one. -/
def lookup (r : ChannelRegistry) (id : ChannelId) : Except RegistryError Channel :=
  match r.find? id with
  | some c => .ok c
  | none => .error (.notFound id)

/-- The registry with a new channel; the caller has seen that its identifier is free. -/
def add (r : ChannelRegistry) (id : ChannelId) : ChannelRegistry :=
  { r with channels := r.channels ++ [Channel.new id r.proxyCapacity] }

def create (r : ChannelRegistry) (id : ChannelId) : Except RegistryError ChannelRegistry :=
  if r.contains id then .error (.alreadyExists id)
  else .ok (r.add id)

/-- Registers a channel that may be established already, with some reply data, and counts the data
that it accepts. -/
def createWith (r : ChannelRegistry) (id : ChannelId) (established : Bool) (data : Bytes) :
    Except RegistryError (Nat × ChannelRegistry) :=
  if r.contains id then .error (.alreadyExists id)
  else
    let (accepted, c) := (Channel.new id r.proxyCapacity).pushReply data
    .ok (accepted, { r with channels := r.channels ++ [{ c with established := established }] })

/-- Registers a channel under the first draw that is free. -/
def createFresh (r : ChannelRegistry) (draws : Draws) : ChannelId × Draws × ChannelRegistry :=
  let (id, draws) := draws.firstFree r.channels.length r.contains
  (id, draws, r.add id)

def remove (r : ChannelRegistry) (id : ChannelId) : Except RegistryError ChannelRegistry :=
  if r.contains id then .ok { r with channels := r.channels.filter fun c => c.id ≠ id }
  else .error (.notFound id)

/-- The registry without a channel, whether it was registered or not. -/
def discard (r : ChannelRegistry) (id : ChannelId) : ChannelRegistry :=
  { r with channels := r.channels.filter fun c => c.id ≠ id }

/-- Changes the channel under an identifier. -/
def modify (r : ChannelRegistry) (id : ChannelId) (f : Channel → Channel) : ChannelRegistry :=
  { r with channels := r.channels.map fun c => if c.id = id then f c else c }

def establishedChannels (r : ChannelRegistry) : List Channel :=
  r.channels.filter Channel.established

/-- Channels in the order of their identifiers. -/
def sortById (channels : List Channel) : List Channel := channels.mergeSort fun a b => a.id ≤ b.id

/-- The first half of closing a request round: every registered channel may send again. -/
def clearRequests (r : ChannelRegistry) : ChannelRegistry :=
  { r with channels := r.channels.map Channel.clearRequest }

/-- The second half of closing a request round. -/
def countRequestRound (r : ChannelRegistry) : ChannelRegistry :=
  { r with requestRound := r.requestRound + 1 }

def closeRequestRound (r : ChannelRegistry) : ChannelRegistry := r.clearRequests.countRequestRound

def closeReplyRound (r : ChannelRegistry) : ChannelRegistry :=
  { r with channels := r.channels.map Channel.clearReply, replyRound := r.replyRound + 1 }

theorem find?_some_id {r : ChannelRegistry} {id : ChannelId} {c : Channel} (h : r.find? id = some c) :
    c.id = id := by
  simpa using List.find?_some h

theorem mem_of_find? {r : ChannelRegistry} {id : ChannelId} {c : Channel} (h : r.find? id = some c) :
    c ∈ r.channels := List.mem_of_find?_eq_some h

theorem contains_iff {r : ChannelRegistry} {id : ChannelId} : r.contains id = true ↔ id ∈ r.ids := by
  simp [contains, find?, ids, List.find?_isSome]

@[simp] theorem ids_closeRequestRound (r : ChannelRegistry) : r.closeRequestRound.ids = r.ids := by
  simp [closeRequestRound, clearRequests, countRequestRound, ids, List.map_map,
    Function.comp_def, Channel.clearRequest]

@[simp] theorem ids_closeReplyRound (r : ChannelRegistry) : r.closeReplyRound.ids = r.ids := by
  simp [closeReplyRound, ids, List.map_map, Function.comp_def, Channel.clearReply]

end ChannelRegistry
end MixRelay
