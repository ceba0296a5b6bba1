import MixRelay.RelayErrors

/-! # The one connection of an edge

Sender and receiver of an edge share a slot for a stream. Each stream put into it starts a new
generation; the stream before it is shut down. Whoever finds that the stream of a generation fails
takes it out, once. A closed slot shuts every stream down at once. -/
namespace MixRelay

/-- What comes of the wish for a stream: the generation of the live one, a wait for one, or an error. -/
inductive StreamAnswer
  | done (generation : Nat)
  | wait
  | refused (error : LinkError)
  deriving DecidableEq

/-- A handle of the stream of a generation, or the fault that the system reports when it is duplicated. -/
def StreamAnswer.ofHandle (generation : Nat) : Option TransferError → StreamAnswer
  | none => .done generation
  | some e => .refused (.transfer e)

structure EdgeConnection where
  /-- For each stream installed so far, oldest first: has it been shut down? -/
  shutDown : List Bool
  /-- The place of the live stream among them. -/
  live : Option Nat
  generation : Nat
  closed : Bool
  stopped : Bool
  deriving DecidableEq

namespace EdgeConnection

def new : EdgeConnection := ⟨[], none, 0, false, false⟩

/-- Takes the live stream, if any, out of the slot and shuts it down. -/
def takeDown (c : EdgeConnection) : EdgeConnection :=
  match c.live with
  | none => c
  | some i => { c with shutDown := c.shutDown.set i true, live := none }

/-- Puts a new stream into the slot and tells its generation. -/
def install (c : EdgeConnection) : Nat × EdgeConnection :=
  let c := c.takeDown
  if c.closed then (c.generation, { c with shutDown := c.shutDown ++ [true] })
  else
    (c.generation + 1, { c with
      shutDown := c.shutDown ++ [false]
      live := some c.shutDown.length
      generation := c.generation + 1 })

def isConnected (c : EdgeConnection) : Bool := c.live.isSome

def isClosed (c : EdgeConnection) : Bool := c.closed || c.stopped

/-- Reports the stream of a generation as failed. True for the one report that takes it down. -/
def invalidate (c : EdgeConnection) (generation : Nat) : Bool × EdgeConnection :=
  if c.generation = generation && c.isConnected then (true, c.takeDown) else (false, c)

/-- The generation of the live stream, or a wait for one. Whoever asks gets a handle of its own, and so an
error where the system cannot duplicate the stream's handle. -/
def await (c : EdgeConnection) (fault : Option TransferError) : StreamAnswer :=
  if c.isClosed then .refused .stopped
  else if c.isConnected then .ofHandle c.generation fault
  else .wait

def close (c : EdgeConnection) : EdgeConnection := { c.takeDown with closed := true }

/-- The relay stops: nobody waits for a stream any longer. -/
def stop (c : EdgeConnection) : EdgeConnection := { c with stopped := true }

@[simp] theorem isConnected_takeDown (c : EdgeConnection) : c.takeDown.isConnected = false := by
  unfold takeDown isConnected
  split <;> simp_all

@[simp] theorem live_takeDown (c : EdgeConnection) : c.takeDown.live = none := by
  unfold takeDown
  split
  · assumption
  · rfl

@[simp] theorem generation_takeDown (c : EdgeConnection) : c.takeDown.generation = c.generation := by
  unfold takeDown
  split <;> rfl

@[simp] theorem closed_takeDown (c : EdgeConnection) : c.takeDown.closed = c.closed := by
  unfold takeDown
  split <;> rfl

@[simp] theorem stopped_takeDown (c : EdgeConnection) : c.takeDown.stopped = c.stopped := by
  unfold takeDown
  split <;> rfl

@[simp] theorem length_takeDown (c : EdgeConnection) :
    c.takeDown.shutDown.length = c.shutDown.length := by
  unfold takeDown
  split
  · rfl
  · exact List.length_set

/-- A report takes the live stream down if it names its generation, and else changes nothing. -/
theorem invalidate_cases (c : EdgeConnection) (generation : Nat) :
    c.invalidate generation = (true, c.takeDown) ∧ generation = c.generation ∧ c.isConnected = true ∨
      c.invalidate generation = (false, c) ∧ ¬ (generation = c.generation ∧ c.isConnected = true) := by
  unfold invalidate
  split
  · rename_i h
    obtain ⟨hsame, hlive⟩ := Bool.and_eq_true_iff.1 h
    exact .inl ⟨rfl, (of_decide_eq_true hsame).symm, hlive⟩
  · rename_i h
    refine .inr ⟨rfl, fun hboth => h ?_⟩
    rw [hboth.2, hboth.1, decide_eq_true rfl]
    rfl

end EdgeConnection
end MixRelay
