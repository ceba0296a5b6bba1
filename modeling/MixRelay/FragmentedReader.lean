import MixRelay.FrameReader

/-! # Reading a stream that comes in fragments

A stream gives its bytes call by call. A call brings what one fragment holds, though no more than it
asked for, and brings nothing only at the end; so whoever needs a certain number of bytes calls until
they are there. -/
namespace MixRelay

/-- What is still to come of a stream, cut as it will come. -/
structure FragmentedStream where
  fragments : List Bytes
  nonempty : ∀ f ∈ fragments, f ≠ []

namespace FragmentedStream

def empty : FragmentedStream := ⟨[], nofun⟩

def bytes (s : FragmentedStream) : Bytes := s.fragments.flatten

/-- A byte string that comes in fragments of `n + 1` bytes; the last one may be shorter. -/
def cut (n : Nat) (bytes : Bytes) : FragmentedStream :=
  if h : bytes = [] then empty
  else
    let rest := cut n (bytes.drop (n + 1))
    ⟨bytes.take (n + 1) :: rest.fragments, by
      intro f hf
      rcases List.mem_cons.1 hf with rfl | hf
      · simpa using h
      · exact rest.nonempty f hf⟩
termination_by bytes.length
decreasing_by
  have := List.length_pos_iff.2 h
  rw [List.length_drop]
  omega

/-- One call for at most `n` bytes. -/
def read (n : Nat) : FragmentedStream → Bytes × FragmentedStream
  | ⟨[], h⟩ => ([], ⟨[], h⟩)
  | ⟨f :: rest, h⟩ =>
    if hn : n < f.length then
      (f.take n, ⟨f.drop n :: rest, by
        intro g hg
        rcases List.mem_cons.1 hg with rfl | hg
        · simpa using hn
        · exact h g (List.mem_cons_of_mem f hg)⟩)
    else (f, ⟨rest, fun g hg => h g (List.mem_cons_of_mem f hg)⟩)

/-- Exactly `n` bytes, in as many calls as it takes. A stream that ends before is used up. -/
def readExact (n : Nat) (s : FragmentedStream) : Except TransferError Bytes × FragmentedStream :=
  if n = 0 then (.ok [], s)
  else
    let (got, s) := s.read n
    if got = [] then (.error .shortRead, s)
    else
      let (more, s) := s.readExact (n - got.length)
      (more.map (got ++ ·), s)
termination_by n
decreasing_by
  have := List.length_pos_iff.2 (by assumption)
  omega

/-- The bytes that are passed over in one call, at most. -/
def discardLength : Nat := 8192

/-- Passes over `n` bytes and counts those that were there. -/
def discard (n : Nat) (s : FragmentedStream) : Nat × FragmentedStream :=
  if n = 0 then (0, s)
  else
    let (got, s) := s.read (min n discardLength)
    if got = [] then (0, s)
    else
      let (more, s) := s.discard (n - got.length)
      (got.length + more, s)
termination_by n
decreasing_by
  have := List.length_pos_iff.2 (by assumption)
  omega

end FragmentedStream

/-- A reader of frames, with the last head that it could read. -/
structure FragmentedReader where
  head : Option FrameHead
  stream : FragmentedStream
  keystream : HeaderKeystream

/-- What becomes of the payload of a frame. -/
inductive PayloadUse
  | take
  | skip
  deriving DecidableEq

inductive FrameBody
  | payload (bytes : Bytes)
  | skipped (count : Nat)
  deriving DecidableEq

namespace FragmentedReader

def readHead (maxLength : Nat) (r : FragmentedReader) :
    Except FrameError FrameHead × FragmentedReader :=
  match r.stream.readExact 4 with
  | (.error e, s) => (.error (.transfer e), { r with stream := s })
  | (.ok word, s) =>
    let n := Bytes.toNat word
    if n < 16 then (.error (.tooShort n), { r with stream := s })
    else if maxLength < n then (.error (.tooLong n maxLength), { r with stream := s })
    else
      match s.readExact 16 with
      | (.error e, s) => (.error (.transfer e), { r with stream := s })
      | (.ok block, s) =>
        let clear := r.keystream.mask (Block.ofList block)
        let r := { r with stream := s, keystream := r.keystream.advance }
        match Frame.headOfBlock n clear with
        | .error e => (.error e, r)
        | .ok h => (.ok h, { r with head := some h })

def readPayload (h : FrameHead) (r : FragmentedReader) : Except FrameError Bytes × FragmentedReader :=
  match r.stream.readExact h.remaining with
  | (.error e, s) => (.error (.transfer e), { r with stream := s })
  | (.ok rest, s) => (.ok (h.inBlock ++ rest), { r with stream := s })

def skipPayload (h : FrameHead) (r : FragmentedReader) : Except FrameError Nat × FragmentedReader :=
  let (count, s) := r.stream.discard h.remaining
  (if count = h.remaining then .ok count else .error (.transfer .endOfStream), { r with stream := s })

def reset (r : FragmentedReader) : FragmentedReader := { r with keystream := r.keystream.reset }

def readBody (h : FrameHead) (use : PayloadUse) (r : FragmentedReader) :
    Except FrameError FrameBody × FragmentedReader :=
  match use with
  | .take => let (answer, r) := r.readPayload h; (answer.map .payload, r)
  | .skip => let (answer, r) := r.skipPayload h; (answer.map .skipped, r)

/-- Reads frame after frame, one for each use, up to the first failure. -/
def readFrames (maxLength : Nat) : List PayloadUse → FragmentedReader →
    Except FrameError (List (FrameHead × FrameBody)) × FragmentedReader
  | [], r => (.ok [], r)
  | use :: uses, r =>
    match r.readHead maxLength with
    | (.error e, r) => (.error e, r)
    | (.ok h, r) =>
      match r.readBody h use with
      | (.error e, r) => (.error e, r)
      | (.ok body, r) =>
        let (more, r) := r.readFrames maxLength uses
        (more.map ((h, body) :: ·), r)

end FragmentedReader
end MixRelay
