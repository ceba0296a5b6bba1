import MixRelay.Proofs.FrameLines
import Mathlib.Data.List.Forall2

/-!
# Requests between two relays

Seen from the requests, an edge is a row of lines: the one that the far relay reads, those that it has
still to accept, and the last one, on which the near relay writes. What they carry, one behind the
other, are frames in the order in which they were written; some may be missing, none is doubled.
-/
namespace MixRelay
open TypedFrame

/-- The lines of the requests: is the far relay connected, with which keystream does it read, and what
comes to it; what stands on the lines that wait for it; and what the near relay has written on a line
that waits behind them, or none if it writes on the line of the far relay. -/
structure RequestWire where
  connected : Bool
  reader : HeaderKeystream
  coming : Bytes
  waiting : List Bytes
  fresh : Option Bytes
  writer : HeaderKeystream

namespace RequestWire
variable {origin : HeaderKeystream} {w : RequestWire} {ahead sent : List TypedFrame}
  {queued : List (List TypedFrame)} {contents : List TypedFrame} {f : TypedFrame} {later : Bytes}

/-- The frames on each of the lines. Those on the line of the far relay say nothing once it has lost
its connection. -/
structure Carries (origin : HeaderKeystream) (w : RequestWire) (ahead : List TypedFrame)
    (queued : List (List TypedFrame)) (sent : List TypedFrame) : Prop where
  left : w.connected = true → w.fresh ≠ none → Comes w.reader ahead w.coming
  met : w.connected = true → w.fresh = none → Runs w.reader ahead w.coming w.writer
  waits : List.Forall₂ (Comes origin) queued w.waiting
  joined : w.fresh = none → queued = [] ∧ sent = []
  apart : ∀ b, w.fresh = some b → Runs origin sent b w.writer

/-- The frames on all lines, in their order. -/
def Holds (origin : HeaderKeystream) (w : RequestWire) (contents : List TypedFrame) : Prop :=
  ∃ ahead queued sent, Carries origin w ahead queued sent ∧
    contents = ahead ++ queued.flatten ++ sent

def write (bytes : Bytes) (w : RequestWire) : RequestWire :=
  match w.fresh with
  | some b => { w with fresh := some (b ++ bytes), writer := w.writer.advance }
  | none => { w with coming := w.coming ++ bytes, writer := w.writer.advance }

/-- A frame is written behind the others. It is lost if the far relay has dropped the connection and
the near relay does not know. -/
theorem Holds.write (h : Holds origin w contents) (f : TypedFrame) :
    ∃ contents', Holds origin (w.write (Frame.encode w.writer f.header f.payload).1) contents' ∧
      contents'.Sublist (contents ++ [f]) := by
  obtain ⟨ahead, queued, sent, h, rfl⟩ := h
  obtain ⟨connected, reader, coming, waiting, fresh, writer⟩ := w
  cases fresh with
  | some b =>
    refine ⟨_, ⟨ahead, queued, sent ++ [f], ?_, rfl⟩, by simp⟩
    exact {
      left := fun hc _ => h.left hc nofun
      met := nofun
      waits := h.waits
      joined := nofun
      apart := fun _ hb => Option.some.inj hb ▸ (h.apart b rfl).concat f }
  | none =>
    obtain ⟨rfl, rfl⟩ := h.joined rfl
    cases connected with
    | true =>
      refine ⟨_, ⟨ahead ++ [f], [], [], ?_, rfl⟩, by simp⟩
      exact {
        left := fun _ hne => absurd rfl hne
        met := fun _ _ => (h.met rfl rfl).concat f
        waits := h.waits
        joined := fun _ => ⟨rfl, rfl⟩
        apart := nofun }
    | false =>
      refine ⟨_, ⟨ahead, [], [], ?_, rfl⟩, List.sublist_append_left _ _⟩
      exact {
        left := nofun
        met := nofun
        waits := h.waits
        joined := fun _ => ⟨rfl, rfl⟩
        apart := nofun }

/-- The near relay gives its line up, with some torn bytes at its end, and dials another. -/
def redial (torn : Bytes) (origin : HeaderKeystream) (w : RequestWire) : RequestWire :=
  match w.fresh with
  | some b => { w with waiting := w.waiting ++ [b ++ torn], fresh := some [], writer := origin }
  | none => { w with coming := w.coming ++ torn, fresh := some [], writer := origin }

/-- What was written may come nevertheless; a frame that broke off does not. -/
theorem Holds.redial (h : Holds origin w contents) {torn : Bytes}
    (htorn : ∀ ks frames bytes, Runs ks frames bytes w.writer → Comes ks frames (bytes ++ torn)) :
    Holds origin (w.redial torn origin) contents := by
  obtain ⟨ahead, queued, sent, h, rfl⟩ := h
  obtain ⟨connected, reader, coming, waiting, fresh, writer⟩ := w
  cases fresh with
  | some b =>
    refine ⟨ahead, queued ++ [sent], [], ?_, by simp⟩
    exact {
      left := fun hc _ => h.left hc nofun
      met := nofun
      waits := List.rel_append h.waits (.cons (htorn _ _ _ (h.apart b rfl)) .nil)
      joined := nofun
      apart := fun _ hb => Option.some.inj hb ▸ .nil origin }
  | none =>
    obtain ⟨rfl, rfl⟩ := h.joined rfl
    refine ⟨ahead, [], [], ?_, rfl⟩
    exact {
      left := fun hc _ => htorn _ _ _ (h.met hc rfl)
      met := nofun
      waits := h.waits
      joined := nofun
      apart := fun _ hb => Option.some.inj hb ▸ .nil origin }

/-- The oldest line that waits is accepted, if there is one. -/
def accept (origin : HeaderKeystream) (w : RequestWire) : RequestWire :=
  match w.waiting, w.fresh with
  | bytes :: rest, _ => { w with connected := true, reader := origin, coming := bytes, waiting := rest }
  | [], some bytes => { w with connected := true, reader := origin, coming := bytes, fresh := none }
  | [], none => w

/-- What the line before still carried is lost. -/
theorem Holds.accept (h : Holds origin w contents) :
    ∃ contents', Holds origin (w.accept origin) contents' ∧ contents'.Sublist contents := by
  obtain ⟨ahead, queued, sent, h, rfl⟩ := h
  obtain ⟨connected, reader, coming, waiting, fresh, writer⟩ := w
  cases h.waits with
  | cons hfirst hrest =>
    rename_i first bytes rest more
    refine ⟨_, ⟨first, rest, sent, ?_, rfl⟩, ?_⟩
    · exact {
        left := fun _ _ => hfirst
        met := fun _ hjoined => absurd (h.joined hjoined).1 nofun
        waits := hrest
        joined := fun hjoined => absurd (h.joined hjoined).1 nofun
        apart := h.apart }
    · rw [List.flatten_cons, List.append_assoc ahead, List.append_assoc first]
      exact List.sublist_append_right ahead _
  | nil =>
    cases fresh with
    | none => exact ⟨_, ⟨ahead, [], sent, h, rfl⟩, List.Sublist.refl _⟩
    | some b =>
      refine ⟨_, ⟨sent, [], [], ?_, rfl⟩, ?_⟩
      · exact {
          left := fun _ hne => absurd rfl hne
          met := fun _ _ => h.apart b rfl
          waits := .nil
          joined := fun _ => ⟨rfl, rfl⟩
          apart := nofun }
      · rw [List.flatten_nil, List.append_nil, List.append_nil, List.append_nil]
        exact List.sublist_append_right ahead sent

/-- Without a connection it says nothing what comes on it, or with which keystream it is read. -/
theorem Holds.lost {v : RequestWire} (h : Holds origin w contents) (hlost : v.connected = false)
    (hwaiting : v.waiting = w.waiting) (hfresh : v.fresh = w.fresh) (hwriter : v.writer = w.writer) :
    Holds origin v contents := by
  obtain ⟨ahead, queued, sent, h, rfl⟩ := h
  refine ⟨ahead, queued, sent, ?_, rfl⟩
  exact {
    left := fun hc => absurd (hlost.symm.trans hc) nofun
    met := fun hc => absurd (hlost.symm.trans hc) nofun
    waits := hwaiting ▸ h.waits
    joined := hfresh ▸ h.joined
    apart := by
      rw [hfresh, hwriter]
      exact h.apart }

/-- The line that the near relay has left ends before some of its bytes. -/
theorem Holds.clip (h : Holds origin w contents) {front : Bytes} (hcoming : w.coming = front ++ later)
    (hfresh : w.fresh ≠ none) : Holds origin { w with coming := front } contents := by
  obtain ⟨ahead, queued, sent, h, rfl⟩ := h
  refine ⟨ahead, queued, sent, ?_, rfl⟩
  exact {
    left := fun hc hne => by
      have hcomes := h.left hc hne
      rw [hcoming] at hcomes
      exact hcomes.front
    met := fun _ hjoined => absurd hjoined hfresh
    waits := h.waits
    joined := h.joined
    apart := h.apart }

/-- The far relay reads the first frame once it is all there; the others follow. -/
theorem Holds.lacks_or_leads (h : Holds origin w contents) (hc : w.connected = true)
    {unread : Bytes} (hcoming : w.coming = unread ++ later) (maxLength : Nat)
    (hword : ∀ f ∈ contents, Frame.length f.payload.length < 2 ^ 32) :
    Frame.Lacks maxLength w.reader unread ∨ ∃ f more behind, contents = f :: more ∧
      Leads maxLength w.reader unread f behind ∧
      Holds origin { w with reader := w.reader.advance, coming := behind ++ later } more := by
  obtain ⟨ahead, queued, sent, h, rfl⟩ := h
  have hwords : ∀ f ∈ ahead, Frame.length f.payload.length < 2 ^ 32 := fun f hf =>
    hword f (List.mem_append_left _ (List.mem_append_left _ hf))
  by_cases hfresh : w.fresh = none
  · have hruns := h.met hc hfresh
    rw [hcoming] at hruns
    rcases TypedFrame.lacks_or_leads maxLength hruns hwords with
      hlacks | ⟨f, more, behind, rfl, hleads, hrest⟩
    · exact .inl hlacks
    · refine .inr ⟨f, _, behind, rfl, hleads, more, queued, sent, ?_, rfl⟩
      exact {
        left := fun _ hne => absurd hfresh hne
        met := fun _ _ => hrest
        waits := h.waits
        joined := h.joined
        apart := h.apart }
  · have hcomes := h.left hc hfresh
    rw [hcoming] at hcomes
    rcases hcomes.lacks_or_leads maxLength hwords with
      hlacks | ⟨f, more, behind, rfl, hleads, hrest⟩
    · exact .inl hlacks
    · refine .inr ⟨f, _, behind, rfl, hleads, more, queued, sent, ?_, rfl⟩
      exact {
        left := fun _ _ => hrest
        met := fun _ hjoined => absurd hjoined hfresh
        waits := h.waits
        joined := h.joined
        apart := h.apart }

end RequestWire
end MixRelay
