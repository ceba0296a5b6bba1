/-! # Runs

The threads of a relay meet in steps. A run is a list of events, in whatever order the threads came
to act; `Along` says what every event of a run finds before it. -/
namespace MixRelay

universe u v w
variable {σ : Type u} {ε : Type v} {α : Type w}

/-- Each event of a run finds a state that is fit for it. -/
def Along (step : σ → ε → σ) (fit : σ → ε → Prop) : σ → List ε → Prop
  | _, [] => True
  | s, e :: rest => fit s e ∧ Along step fit (step s e) rest

variable {step : σ → ε → σ} {fit : σ → ε → Prop}

instance Along.instDecidable [∀ s e, Decidable (fit s e)] :
    ∀ (s : σ) (events : List ε), Decidable (Along step fit s events)
  | _, [] => .isTrue trivial
  | s, e :: rest => @instDecidableAnd (fit s e) (Along step fit (step s e) rest) _
      (Along.instDecidable (step s e) rest)

theorem along_append {s : σ} {first second : List ε} :
    Along step fit s (first ++ second) ↔
      Along step fit s first ∧ Along step fit (first.foldl step s) second := by
  induction first generalizing s with
  | nil => simp [Along]
  | cons e first ih => simp only [List.cons_append, Along, ih, List.foldl_cons, and_assoc]

theorem along_iff {s : σ} {events : List ε} :
    Along step fit s events ↔
      ∀ front e rest, events = front ++ e :: rest → fit (front.foldl step s) e := by
  constructor
  · rintro h front e rest rfl
    exact (along_append.1 h).2.1
  · intro h
    induction events generalizing s with
    | nil => trivial
    | cons e rest ih =>
      refine ⟨h [] e rest rfl, ih ?_⟩
      rintro front d behind rfl
      exact h (e :: front) d behind rfl

/-- What every fit event preserves holds after the run. -/
theorem Along.invariant {Inv : σ → Prop} (hstep : ∀ s e, Inv s → fit s e → Inv (step s e)) {s : σ}
    {events : List ε} (h : Along step fit s events) (hs : Inv s) : Inv (events.foldl step s) := by
  induction events generalizing s with
  | nil => exact hs
  | cons e rest ih => exact ih h.2 (hstep s e hs h.1)

theorem foldl_invariant {Inv : σ → Prop} (hstep : ∀ s e, Inv s → Inv (step s e)) {s : σ}
    (events : List ε) (hs : Inv s) : Inv (events.foldl step s) := by
  induction events generalizing s with
  | nil => exact hs
  | cons e rest ih => exact ih (hstep s e hs)

/-- What the events of a run bring, in their order. -/
def outputs (step : σ → ε → σ) (output : σ → ε → List α) : σ → List ε → List α
  | _, [] => []
  | s, e :: rest => output s e ++ outputs step output (step s e) rest

theorem outputs_append (output : σ → ε → List α) (s : σ) (first second : List ε) :
    outputs step output s (first ++ second) =
      outputs step output s first ++ outputs step output (first.foldl step s) second := by
  induction first generalizing s with
  | nil => rfl
  | cons e first ih => simp only [List.cons_append, outputs, ih, List.foldl_cons, List.append_assoc]

theorem outputs_concat (output : σ → ε → List α) (s : σ) (events : List ε) (e : ε) :
    outputs step output s (events ++ [e]) =
      outputs step output s events ++ output (events.foldl step s) e := by
  rw [outputs_append, outputs, outputs, List.append_nil]

/-- Some events bring nothing, whatever they find. -/
theorem outputs_eq_nil {output : σ → ε → List α} {events : List ε}
    (h : ∀ s, ∀ e ∈ events, output s e = []) (s : σ) : outputs step output s events = [] := by
  induction events generalizing s with
  | nil => rfl
  | cons e rest ih =>
    rw [outputs, h s e List.mem_cons_self, List.nil_append]
    exact ih (fun t d hd => h t d (List.mem_cons_of_mem e hd)) (step s e)

/-- Events that leave the related state as it is and bring nothing can be left out of a run. -/
theorem outputs_filter {output : σ → ε → List α} {Related : σ → σ → Prop} {p : ε → Bool}
    (hkept : ∀ s t e, p e = true → Related s t → Related (step s e) (step t e) ∧ output s e = output t e)
    (hleft : ∀ s t e, p e = false → Related s t → Related (step s e) t ∧ output s e = [])
    {s t : σ} (h : Related s t) (events : List ε) :
    Related (events.foldl step s) ((events.filter p).foldl step t) ∧
      outputs step output s events = outputs step output t (events.filter p) := by
  induction events generalizing s t with
  | nil => exact ⟨h, rfl⟩
  | cons e rest ih =>
    cases hp : p e with
    | true =>
      obtain ⟨hrelated, hsame⟩ := hkept s t e hp h
      rw [List.filter_cons_of_pos hp, outputs, outputs, hsame, (ih hrelated).2]
      exact ⟨(ih hrelated).1, rfl⟩
    | false =>
      obtain ⟨hrelated, hnone⟩ := hleft s t e hp h
      rw [List.filter_cons_of_neg (by simp [hp]), outputs, hnone, List.nil_append]
      exact ih hrelated

end MixRelay
