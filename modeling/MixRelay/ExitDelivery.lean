import MixRelay.ChannelRegistry

/-! # Delivery to the destination

The last relay hands each mixed request to the destination through the channel that sent it, and
tells it of releases. Requests of channels that are gone are dropped. -/
namespace MixRelay

/-- A destination with its own state: it may use the buffers of the channel it is called for. -/
structure Destination (σ : Type) where
  deliver : σ → Channel → Bytes → σ × Channel
  release : σ → ChannelId → σ

/-- What a destination was asked to do. -/
inductive DestinationCall
  | deliver (channel : ChannelId) (payload : Bytes)
  | release (channel : ChannelId)
  deriving DecidableEq

namespace Destination

/-- Sends request data back as reply data, as far as the buffers have room. -/
def echo (channel : Channel) (payload : Bytes) : Channel :=
  let (data, channel) := (channel.pushRequest payload).2.drainRequests
  (channel.pushReply data).2

def loopback {σ : Type} : Destination σ := ⟨fun state c payload => (state, echo c payload), fun state _ => state⟩

/-- Writes down its calls and leaves the channels alone. -/
def journal : Destination (List DestinationCall) :=
  ⟨fun calls c payload => (calls ++ [.deliver c.id payload], c), fun calls id => calls ++ [.release id]⟩

end Destination

namespace ExitDelivery

def request {σ : Type} (d : Destination σ) (state : σ) (r : ChannelRegistry) (id : ChannelId)
    (payload : Bytes) : σ × ChannelRegistry :=
  match r.find? id with
  | none => (state, r)
  | some channel =>
    let (state, channel) := d.deliver state channel payload
    (state, r.modify id fun _ => channel)

/-- Hands one message on; batch sizes mean nothing here, and replies do not belong here. -/
def step {σ : Type} (d : Destination σ) (state : σ) (r : ChannelRegistry) :
    Message → σ × ChannelRegistry
  | .establish id payload | .message id payload => request d state r id payload
  | .release id => (d.release state id, r)
  | .batchSize _ | .reply .. => (state, r)

end ExitDelivery
end MixRelay
