/-! # Random draws

A run draws finitely many random words, so a source of draws is a list of them; behind its end each
draw is one more than the last. Searching a source for a word that is not taken therefore ends. -/
namespace MixRelay

structure Draws where
  values : List UInt32
  next : UInt32
  deriving DecidableEq

namespace Draws

/-- The source that starts with some values, or with zero. -/
def ofList (values : List UInt32) : Draws :=
  ⟨values, match values.getLast? with
    | some last => last + 1
    | none => 0⟩

def draw (d : Draws) : UInt32 × Draws :=
  match d.values with
  | [] => (d.next, ⟨[], d.next + 1⟩)
  | v :: rest => (v, ⟨rest, d.next⟩)

/-- The next `n` draws. -/
def take (d : Draws) : Nat → List UInt32 × Draws
  | 0 => ([], d)
  | n + 1 =>
    let (v, d) := d.draw
    let (vs, d) := d.take n
    (v :: vs, d)

/-- Draws until a word is not taken, and at most `patience + 1` times. -/
def search (taken : UInt32 → Bool) : Nat → Draws → UInt32 × Draws
  | 0, d => d.draw
  | patience + 1, d =>
    let (v, d) := d.draw
    if taken v then search taken patience d else (v, d)

/-- The first draw that is not taken, where `count` words are: the listed draws and `count` more may
be. -/
def firstFree (d : Draws) (count : Nat) (taken : UInt32 → Bool) : UInt32 × Draws :=
  search taken (d.values.length + count) d

end Draws
end MixRelay
