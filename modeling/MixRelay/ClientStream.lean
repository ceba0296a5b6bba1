import MixRelay.ChannelRegistry
import MixRelay.PayloadFraming

/-! # Reading a client's stream

A client sends plain frames: a big-endian length and a payload. The length has to be the one due
for its channel, that of an establish payload first and of a message payload afterwards; frames of
another length are skipped and counted as faults, and one above the limit ends the client. The bytes
between two frames are where reading pauses while the channel's request of the round is taken. -/
namespace MixRelay

/-- What the next byte belongs to; the bytes so far are kept last byte first. -/
inductive ReadStage
  | length (got : Bytes)
  | payload (missing : Nat) (got : Bytes)
  | skip (missing : Nat)
  deriving DecidableEq

/-- Why a client is torn down. -/
inductive CloseReason
  | ended
  | tooLong (length : Nat)
  | stopped
  deriving DecidableEq

structure StreamLimits where
  framing : PayloadFraming
  maxFrameLength : Nat
  deriving DecidableEq

/-- A client's stream with the channel it feeds, the requests read from it, and the counts of faults
and of pauses. -/
structure ClientStream where
  stage : ReadStage
  paused : Bool
  channel : Channel
  requests : List Message
  faults : Nat
  pauses : Nat
  deriving DecidableEq

namespace ClientStream

/-- Between two frames, with the round's request taken, no byte is read. -/
def mustPause (c : ClientStream) : Bool := c.stage == .length [] && c.channel.requestClaimed

def pause (c : ClientStream) : ClientStream :=
  if c.paused then c else { c with paused := true, pauses := c.pauses + 1 }

/-- Skips bytes; the next frame follows them. -/
def skipping (c : ClientStream) (n : Nat) : ClientStream :=
  { c with stage := if n = 0 then .length [] else .skip n }

/-- Judges the length of a frame. -/
def announced (limits : StreamLimits) (c : ClientStream) (n : Nat) : Except CloseReason ClientStream :=
  if limits.maxFrameLength < n then .error (.tooLong n)
  else if n = limits.framing.requestLength c.channel.established then
    .ok { c with stage := .payload n [] }
  else .ok ({ c with faults := c.faults + 1 }.skipping n)

/-- Turns a payload into the channel's request of the round; without a free slot it is dropped. -/
def complete (c : ClientStream) (payload : Bytes) : ClientStream :=
  let c := { c with stage := .length [] }
  let (free, channel) := c.channel.claimRequest
  if !free then c
  else
    let request : Message :=
      if channel.established then .message channel.id payload else .establish channel.id payload
    { c with channel := channel.establish, requests := c.requests ++ [request] }

/-- Reads one byte. Where a payload of no bytes is due, what comes next reads like the end of the
stream. -/
def read (limits : StreamLimits) (c : ClientStream) (b : UInt8) : Except CloseReason ClientStream :=
  match c.stage with
  | .length got =>
    if got.length = 3 then c.announced limits (Bytes.toNat (b :: got).reverse)
    else .ok { c with stage := .length (b :: got) }
  | .payload 0 _ => .error .ended
  | .payload 1 got => .ok (c.complete (b :: got).reverse)
  | .payload (n + 2) got => .ok { c with stage := .payload (n + 1) (b :: got) }
  | .skip n => .ok (c.skipping (n - 1))

/-- Reads until the bytes are used up, the stream pauses, or the client has to go, and tells what is
left of them. -/
def readAll (limits : StreamLimits) (c : ClientStream) : Bytes → ClientStream × Option CloseReason × Bytes
  | [] => (if c.mustPause then c.pause else c, none, [])
  | b :: rest =>
    if c.mustPause then (c.pause, none, b :: rest)
    else match c.read limits b with
      | .error reason => (c, some reason, rest)
      | .ok c => c.readAll limits rest

end ClientStream
end MixRelay
