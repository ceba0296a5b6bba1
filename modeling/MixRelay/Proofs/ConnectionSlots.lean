import MixRelay.EdgeConnection
import MixRelay.Proofs.Runs
import Mathlib.Data.List.Basic
import Mathlib.Data.List.Count

/-!
# The slot of an edge's connection

Sender, receiver and whoever brings new streams use the slot in any order, with generations that may be
long gone. Only the stream that was put in last can be live. It is live until somebody reports its
generation as failed, puts the next one in, or closes the slot.
-/
namespace MixRelay

/-- What is done to the slot: a stream is put in, a generation is reported as failed, the slot is
closed, the relay stops. -/
inductive ConnectionCall
  | install
  | invalidate (generation : Nat)
  | close
  | stop
  deriving DecidableEq

namespace EdgeConnection

def call (c : EdgeConnection) : ConnectionCall → EdgeConnection
  | .install => c.install.2
  | .invalidate g => (c.invalidate g).2
  | .close => c.close
  | .stop => c.stop

/-- The generation whose stream a report takes down. -/
def takenDown (c : EdgeConnection) : ConnectionCall → List Nat
  | .invalidate g => if (c.invalidate g).1 then [g] else []
  | _ => []

variable {c : EdgeConnection}

theorem install_closed (h : c.closed = true) :
    c.install.2 = { c.takeDown with shutDown := c.takeDown.shutDown ++ [true] } := by
  unfold install
  simp only [closed_takeDown, h, if_true]

theorem install_open (h : c.closed = false) :
    c.install.2 = { c.takeDown with
      shutDown := c.takeDown.shutDown ++ [false]
      live := some c.shutDown.length
      generation := c.generation + 1 } := by
  unfold install
  simp only [closed_takeDown, h, Bool.false_eq_true, if_false, length_takeDown, generation_takeDown]

/-- The live stream is the only one that is not shut down and the last one that was put in. While the
slot is open each stream has been given a generation. -/
structure Kept (c : EdgeConnection) : Prop where
  open_iff : ∀ i, c.shutDown[i]? = some false ↔ c.live = some i
  newest : ∀ i, c.live = some i → i + 1 = c.shutDown.length
  counted : c.closed = false → c.generation = c.shutDown.length
  vacant : c.closed = true → c.live = none

theorem kept_new : Kept new where
  open_iff := by simp [new]
  newest := nofun
  counted := fun _ => rfl
  vacant := nofun

namespace Kept

theorem takeDown (h : Kept c) : Kept c.takeDown := by
  refine ⟨fun j => ?_, fun i hi => ?_, fun hopen => ?_, fun _ => live_takeDown c⟩
  · rw [live_takeDown]
    refine ⟨fun hdown => ?_, nofun⟩
    cases hlive : c.live with
    | none =>
      have hsame : c.takeDown = c := by rw [EdgeConnection.takeDown, hlive]
      rw [hsame, h.open_iff, hlive] at hdown
      cases hdown
    | some i =>
      have hset : c.takeDown.shutDown = c.shutDown.set i true := by rw [EdgeConnection.takeDown, hlive]
      rw [hset] at hdown
      by_cases hj : i = j
      · have hin : i < c.shutDown.length := Nat.lt_of_succ_le (Nat.le_of_eq (h.newest i hlive))
        rw [← hj, List.getElem?_set_self hin] at hdown
        cases hdown
      · rw [List.getElem?_set_ne hj, h.open_iff, hlive] at hdown
        exact absurd (Option.some.inj hdown) hj
  · rw [live_takeDown] at hi
    cases hi
  · rw [generation_takeDown, length_takeDown]
    exact h.counted (closed_takeDown c ▸ hopen)

theorem install (h : Kept c) : Kept c.install.2 := by
  have hdown := h.takeDown
  have hnone (i : Nat) : c.takeDown.shutDown[i]? ≠ some false := by
    rw [Ne, hdown.open_iff, live_takeDown]
    exact nofun
  cases hclosed : c.closed with
  | true =>
    rw [install_closed hclosed]
    refine ⟨fun i => ?_, fun i hi => ?_, fun hopen => ?_, fun _ => live_takeDown c⟩
    · dsimp only
      rw [live_takeDown, List.getElem?_append]
      refine ⟨fun hi => ?_, nofun⟩
      split at hi
      · exact absurd hi (hnone i)
      · simp [List.getElem?_singleton] at hi
    · rw [live_takeDown] at hi
      cases hi
    · rw [closed_takeDown, hclosed] at hopen
      cases hopen
  | false =>
    rw [install_open hclosed]
    refine ⟨fun i => ?_, fun i hi => ?_, fun _ => ?_, fun hshut => ?_⟩
    · dsimp only
      rw [List.getElem?_append, length_takeDown, List.getElem?_singleton]
      split
      · rename_i hlt
        exact iff_of_false (hnone i) fun hi => by cases hi; omega
      · rename_i hge
        by_cases hi : i = c.shutDown.length
        · rw [hi, Nat.sub_self]
          exact iff_of_true rfl rfl
        · rw [if_neg (by omega)]
          exact iff_of_false nofun fun heq => hi (Option.some.inj heq).symm
    · cases hi
      rw [List.length_append, length_takeDown]
      rfl
    · dsimp only
      rw [List.length_append, length_takeDown, h.counted hclosed]
      rfl
    · rw [closed_takeDown, hclosed] at hshut
      cases hshut

theorem invalidate (h : Kept c) (g : Nat) : Kept (c.invalidate g).2 := by
  rcases c.invalidate_cases g with ⟨hwon, -⟩ | ⟨hlost, -⟩
  · rw [hwon]
    exact h.takeDown
  · rwa [hlost]

theorem close (h : Kept c) : Kept c.close := by
  obtain ⟨hopen, hnewest, -, -⟩ := h.takeDown
  exact ⟨hopen, hnewest, nofun, fun _ => live_takeDown c⟩

theorem call (h : Kept c) (call : ConnectionCall) : Kept (c.call call) := by
  cases call with
  | install => exact h.install
  | invalidate g => exact h.invalidate g
  | close => exact h.close
  | stop => exact ⟨h.open_iff, h.newest, h.counted, h.vacant⟩

theorem isOpen (h : Kept c) (hlive : c.isConnected = true) : c.closed = false := by
  refine Bool.eq_false_iff.2 fun hclosed => ?_
  rw [isConnected, h.vacant hclosed] at hlive
  cases hlive

theorem live_iff (h : Kept c) (i : Nat) :
    c.shutDown[i]? = some false ↔ c.isConnected = true ∧ i + 1 = c.shutDown.length := by
  rw [h.open_iff]
  constructor
  · intro hlive
    exact ⟨by rw [isConnected, hlive]; rfl, h.newest i hlive⟩
  · rintro ⟨hlive, hlast⟩
    obtain ⟨j, hj⟩ := Option.isSome_iff_exists.1 hlive
    have hnewest := h.newest j hj
    rw [hj, Nat.succ.inj (hnewest.trans hlast.symm)]

theorem invalidate_iff (h : Kept c) (g : Nat) :
    (c.invalidate g).1 = true ↔ g = c.generation ∧ ∃ i, i + 1 = g ∧ c.shutDown[i]? = some false := by
  rcases c.invalidate_cases g with ⟨hwon, rfl, hlive⟩ | ⟨hlost, hnot⟩
  · rw [hwon]
    obtain ⟨i, hi⟩ := Option.isSome_iff_exists.1 hlive
    have hcounted := h.counted (h.isOpen hlive)
    exact iff_of_true rfl ⟨rfl, i, (h.newest i hi).trans hcounted.symm, (h.open_iff i).2 hi⟩
  · rw [hlost]
    refine iff_of_false nofun ?_
    rintro ⟨rfl, i, -, hi⟩
    exact hnot ⟨rfl, ((h.live_iff i).1 hi).1⟩

end Kept

section Waiting
variable {fault : Option TransferError}

theorem await_done_iff {g : Nat} : c.await fault = .done g ↔
    fault = none ∧ c.isClosed = false ∧ c.isConnected = true ∧ g = c.generation := by
  unfold await
  cases c.isClosed <;> cases c.isConnected <;> cases fault <;> simp [StreamAnswer.ofHandle, eq_comm]

theorem await_failed_iff {e : TransferError} : c.await fault = .refused (.transfer e) ↔
    fault = some e ∧ c.isClosed = false ∧ c.isConnected = true := by
  unfold await
  cases c.isClosed <;> cases c.isConnected <;> cases fault <;> simp [StreamAnswer.ofHandle]

theorem await_refused_iff : c.await fault = .refused .stopped ↔ c.isClosed = true := by
  unfold await
  cases c.isClosed <;> cases c.isConnected <;> cases fault <;> simp [StreamAnswer.ofHandle]

theorem await_wait_iff : c.await fault = .wait ↔ c.isClosed = false ∧ c.isConnected = false := by
  unfold await
  cases c.isClosed <;> cases c.isConnected <;> cases fault <;> simp [StreamAnswer.ofHandle]

/-- Whoever waits goes on waiting until the next stream, a close or the stop of the relay. -/
theorem await_call (h : c.await fault = .wait) (d : ConnectionCall) (later : Option TransferError) :
    (c.call d).await later = match d with
      | .install => .ofHandle (c.generation + 1) later
      | .invalidate _ => .wait
      | .close | .stop => .refused .stopped := by
  obtain ⟨hshut, hdead⟩ := await_wait_iff.1 h
  obtain ⟨hclosed, hstopped⟩ := Bool.or_eq_false_iff.1 hshut
  cases d with
  | install =>
    have hopen : (c.call .install).isClosed = false := by
      rw [call, install_open hclosed, isClosed, closed_takeDown, stopped_takeDown, hclosed, hstopped]
      rfl
    rw [await, hopen, call, install_open hclosed]
    rfl
  | invalidate g =>
    rw [call]
    rcases c.invalidate_cases g with ⟨-, -, hlive⟩ | ⟨hlost, -⟩
    · exact absurd (hdead.symm.trans hlive) nofun
    · rw [hlost]
      exact await_wait_iff.2 ⟨hshut, hdead⟩
  | close => exact await_refused_iff.2 rfl
  | stop => exact await_refused_iff.2 (Bool.or_true _)

end Waiting

/-- What a call does to the streams, the generation and the two flags. -/
theorem counts_call (c : EdgeConnection) (call : ConnectionCall) :
    (c.call call).shutDown.length = c.shutDown.length + [call].count .install ∧
      (c.call call).generation = c.generation + (if c.closed then 0 else [call].count .install) ∧
      ((c.call call).closed = true ↔ c.closed = true ∨ call = .close) ∧
      ((c.call call).stopped = true ↔ c.stopped = true ∨ call = .stop) := by
  cases call with
  | install =>
    rw [EdgeConnection.call]
    cases hclosed : c.closed with
    | true =>
      rw [install_closed hclosed]
      simp [hclosed]
    | false =>
      rw [install_open hclosed]
      simp [hclosed]
  | invalidate g =>
    rw [EdgeConnection.call]
    rcases c.invalidate_cases g with ⟨hwon, -⟩ | ⟨hlost, -⟩
    · simp [hwon]
    · simp [hlost]
  | close => simp [EdgeConnection.call, close]
  | stop => simp [EdgeConnection.call, stop]

/-- A slot that is closed, or whose relay has stopped, stays so. -/
theorem isClosed_call (c : EdgeConnection) (d : ConnectionCall) :
    (c.call d).isClosed = true ↔ c.isClosed = true ∨ d = .close ∨ d = .stop := by
  obtain ⟨-, -, hclosed, hstopped⟩ := c.counts_call d
  rw [isClosed, isClosed, Bool.or_eq_true, Bool.or_eq_true, hclosed, hstopped]
  tauto

theorem isOpen_call {d : ConnectionCall} (h : c.isClosed = false) (hclose : d ≠ .close)
    (hstop : d ≠ .stop) : (c.call d).isClosed = false := by
  rw [← Bool.not_eq_true, isClosed_call, h]
  exact fun hshut => hshut.elim Bool.false_ne_true (·.elim hclose hstop)

/-- Only a new stream, with a new generation, makes a slot live again. -/
theorem generation_lt_call {d : ConnectionCall} (hdead : c.isConnected = false)
    (hlive : (c.call d).isConnected = true) : c.generation < (c.call d).generation := by
  have hdown : c.takeDown.isConnected = true → False := by simp
  cases d with
  | install =>
    rw [call] at hlive ⊢
    cases hclosed : c.closed with
    | true =>
      rw [install_closed hclosed] at hlive
      exact (hdown hlive).elim
    | false =>
      rw [install_open hclosed]
      exact Nat.lt_succ_self _
  | invalidate g =>
    rw [call] at hlive
    rcases c.invalidate_cases g with ⟨hwon, -⟩ | ⟨hlost, -⟩
    · rw [hwon] at hlive
      exact (hdown hlive).elim
    · rw [hlost] at hlive
      exact absurd (hdead.symm.trans hlive) nofun
  | close => exact (hdown hlive).elim
  | stop => exact absurd (hdead.symm.trans hlive) nofun

theorem generation_le_call (c : EdgeConnection) (d : ConnectionCall) :
    c.generation ≤ (c.call d).generation := by
  rw [(c.counts_call d).2.1]
  exact Nat.le_add_right _ _

/-- What a report takes down is the present generation. -/
theorem takenDown_cases (c : EdgeConnection) (d : ConnectionCall) :
    c.takenDown d = [] ∨ c.takenDown d = [c.generation] ∧ c.isConnected = true ∧
      (c.call d).isConnected = false := by
  cases d with
  | invalidate g =>
    rw [takenDown, call]
    rcases c.invalidate_cases g with ⟨hwon, rfl, hlive⟩ | ⟨hlost, -⟩
    · rw [hwon]
      exact .inr ⟨rfl, hlive, isConnected_takeDown c⟩
    · rw [hlost]
      exact .inl rfl
  | _ => exact .inl rfl

section Runs
variable (calls : List ConnectionCall)

theorem length_run (c : EdgeConnection) :
    (calls.foldl call c).shutDown.length = c.shutDown.length + calls.count .install := by
  induction calls generalizing c with
  | nil => rfl
  | cons d calls ih =>
    rw [List.foldl_cons, ih, (c.counts_call d).1, List.count_cons (l := calls), List.count_singleton]
    omega

theorem closed_run (c : EdgeConnection) :
    (calls.foldl call c).closed = true ↔ c.closed = true ∨ .close ∈ calls := by
  induction calls generalizing c with
  | nil => simp
  | cons d calls ih =>
    rw [List.foldl_cons, ih, (c.counts_call d).2.2.1, List.mem_cons, or_assoc, @eq_comm _ d]

theorem stopped_run (c : EdgeConnection) :
    (calls.foldl call c).stopped = true ↔ c.stopped = true ∨ .stop ∈ calls := by
  induction calls generalizing c with
  | nil => simp
  | cons d calls ih =>
    rw [List.foldl_cons, ih, (c.counts_call d).2.2.2, List.mem_cons, or_assoc, @eq_comm _ d]

/-- Once the slot is closed the generation stays. -/
theorem generation_run_of_closed (h : c.closed = true) :
    (calls.foldl call c).generation = c.generation := by
  induction calls generalizing c with
  | nil => rfl
  | cons d calls ih =>
    obtain ⟨-, hgeneration, hclosed, -⟩ := c.counts_call d
    rw [if_pos h, Nat.add_zero] at hgeneration
    rw [List.foldl_cons, ih (hclosed.2 (.inl h)), hgeneration]

theorem generation_run_of_open (h : c.closed = false) :
    (calls.foldl call c).generation =
      c.generation + (calls.takeWhile (· ≠ .close)).count .install := by
  induction calls generalizing c with
  | nil => rfl
  | cons d calls ih =>
    obtain ⟨-, hgeneration, hclosed, -⟩ := c.counts_call d
    rw [h, if_neg nofun] at hgeneration
    rw [List.foldl_cons]
    by_cases hd : d = .close
    · rw [generation_run_of_closed calls (hclosed.2 (.inr hd)), hgeneration, hd]
      rfl
    · have hopen : (c.call d).closed = false :=
        Bool.eq_false_iff.2 fun hshut => (hclosed.1 hshut).elim (by simp [h]) hd
      rw [ih hopen, hgeneration, List.takeWhile_cons_of_pos (by simpa using hd),
        List.count_cons (l := calls.takeWhile _), List.count_singleton]
      omega

theorem kept_run (h : Kept c) : Kept (calls.foldl call c) :=
  foldl_invariant (fun _ call hkept => hkept.call call) calls h

/-- The generations that are taken down rise, and none of them is behind the present one. -/
theorem takenDown_run (c : EdgeConnection) :
    (outputs call takenDown c calls).Pairwise (· < ·) ∧
      ∀ g ∈ outputs call takenDown c calls,
        c.generation ≤ g ∧ (c.isConnected = false → c.generation < g) := by
  induction calls generalizing c with
  | nil => exact ⟨.nil, nofun⟩
  | cons d calls ih =>
    obtain ⟨hrise, hlater⟩ := ih (c.call d)
    have hle := c.generation_le_call d
    have hafter : ∀ g ∈ outputs call takenDown (c.call d) calls,
        c.generation ≤ g ∧ (c.isConnected = false → c.generation < g) := by
      intro g hg
      obtain ⟨hnext, hdead⟩ := hlater g hg
      refine ⟨Nat.le_trans hle hnext, fun hdown => ?_⟩
      cases hlive : (c.call d).isConnected with
      | false => exact Nat.lt_of_le_of_lt hle (hdead hlive)
      | true => exact Nat.lt_of_lt_of_le (generation_lt_call hdown hlive) hnext
    rw [outputs]
    rcases c.takenDown_cases d with hnone | ⟨hone, hlive, hdown⟩
    · rw [hnone]
      exact ⟨hrise, hafter⟩
    · rw [hone, List.singleton_append, List.pairwise_cons]
      refine ⟨⟨fun g hg => Nat.lt_of_le_of_lt hle ((hlater g hg).2 hdown), hrise⟩, fun g hg => ?_⟩
      rcases List.mem_cons.1 hg with rfl | hg
      · exact ⟨Nat.le_refl _, fun hdead => absurd (hdead.symm.trans hlive) Bool.false_ne_true⟩
      · exact hafter g hg

end Runs

/-- What a slot has come to after some calls. Its streams are numbered in the order in which they were
put in, and so are the generations, from one. -/
structure Records (calls : List ConnectionCall) (c : EdgeConnection) : Prop where
  streams : c.shutDown.length = calls.count .install
  generation : c.generation = (calls.takeWhile (· ≠ .close)).count .install
  /-- Only the last stream may not be shut down, and it is not just as long as the slot is live. -/
  live : ∀ i, c.shutDown[i]? = some false ↔ c.isConnected = true ∧ i + 1 = calls.count .install
  /-- The live stream is that of the present generation. -/
  present : c.isConnected = true → c.generation = calls.count .install
  /-- A report of a generation counts if that is the present one and its stream is live. -/
  counts : ∀ g, (c.invalidate g).1 = true ↔
    g = c.generation ∧ ∃ i, i + 1 = g ∧ c.shutDown[i]? = some false
  once : (outputs call takenDown new calls).Pairwise (· < ·)
  closed : ∀ before after, calls = before ++ .close :: after →
    c.generation = (before.foldl call new).generation ∧ c.isConnected = false ∧
      ∀ down ∈ c.shutDown, down = true
  /-- The live stream's generation comes with a handle of the stream. -/
  done : ∀ fault g, c.await fault = .done g ↔
    fault = none ∧ .close ∉ calls ∧ .stop ∉ calls ∧ c.isConnected = true ∧ g = c.generation
  /-- Without a handle there is the system's error in its place. -/
  failed : ∀ fault e, c.await fault = .refused (.transfer e) ↔
    fault = some e ∧ .close ∉ calls ∧ .stop ∉ calls ∧ c.isConnected = true
  refused : ∀ fault, c.await fault = .refused .stopped ↔ .close ∈ calls ∨ .stop ∈ calls
  waits : ∀ fault, c.await fault = .wait ↔ .close ∉ calls ∧ .stop ∉ calls ∧ c.isConnected = false
  /-- Whoever waits goes on waiting until the next stream, a close or the stop of the relay. -/
  wakes : ∀ fault, c.await fault = .wait → ∀ d later, (c.call d).await later = match d with
    | .install => .ofHandle (c.generation + 1) later
    | .invalidate _ => .wait
    | .close | .stop => .refused .stopped

/-- Whoever uses the slot and in whatever order, at most one stream is live, namely the last; its
generation is reported with success at most once; and behind a close no stream comes to live. -/
theorem slot_records (calls : List ConnectionCall) : Records calls (calls.foldl call new) := by
  have hkept : Kept (calls.foldl call new) := kept_run calls kept_new
  have hstreams : (calls.foldl call new).shutDown.length = calls.count .install := by
    simpa [new] using length_run calls new
  have hclosed : (calls.foldl call new).closed = true ↔ .close ∈ calls := by
    simpa [new] using closed_run calls new
  have hstopped : (calls.foldl call new).stopped = true ↔ .stop ∈ calls := by
    simpa [new] using stopped_run calls new
  have hgeneration := generation_run_of_open (c := new) calls rfl
  have hfrozen : ∀ before after, calls = before ++ .close :: after →
      (calls.foldl call new).generation = (before.foldl call new).generation := by
    rintro before after rfl
    rw [List.foldl_append, List.foldl_cons, generation_run_of_closed after rfl]
    exact generation_takeDown _
  generalize calls.foldl call new = c at *
  have hshut : c.isClosed = true ↔ .close ∈ calls ∨ .stop ∈ calls := by
    rw [isClosed, Bool.or_eq_true, hclosed, hstopped]
  have hopen : c.isClosed = false ↔ .close ∉ calls ∧ .stop ∉ calls := by
    rw [← Bool.not_eq_true, hshut, not_or]
  exact {
    streams := hstreams
    generation := by rw [hgeneration]; exact Nat.zero_add _
    live := fun i => hstreams ▸ hkept.live_iff i
    present := fun hlive => (hkept.counted (hkept.isOpen hlive)).trans hstreams
    counts := hkept.invalidate_iff
    once := (takenDown_run calls new).1
    closed := fun before after hcalls => by
      have hdead : c.live = none :=
        hkept.vacant (hclosed.2 (hcalls ▸ List.mem_append_right before List.mem_cons_self))
      refine ⟨hfrozen before after hcalls, by rw [isConnected, hdead]; rfl, fun down hdown => ?_⟩
      obtain ⟨i, hi⟩ := List.mem_iff_getElem?.1 hdown
      cases down with
      | true => rfl
      | false => exact absurd ((hkept.open_iff i).1 hi) (by rw [hdead]; exact nofun)
    done := fun fault g => by rw [await_done_iff, hopen, and_assoc]
    failed := fun fault e => by rw [await_failed_iff, hopen, and_assoc]
    refused := fun fault => by rw [await_refused_iff, hshut]
    waits := fun fault => by rw [await_wait_iff, hopen, and_assoc]
    wakes := fun fault hwait d later => await_call hwait d later }

/-- With a live stream in an open slot there is an error, and no generation, if the system has no descriptor
left for the stream's handle. -/
theorem await_exhausted :
    let c := [ConnectionCall.install].foldl call new
    c.isConnected = true ∧ c.isClosed = false ∧
      c.await (some (.system 24 "Too many open files")) =
        .refused (.transfer (.system 24 "Too many open files")) :=
  ⟨rfl, rfl, rfl⟩

/-- Each stream has a generation of its own, and the first one fails once. -/
example : outputs call takenDown new [.install, .invalidate 2, .invalidate 1, .invalidate 1] = [1] ∧
    ([ConnectionCall.install, .install].foldl call new).await none = .done 2 := by decide

end EdgeConnection
end MixRelay
