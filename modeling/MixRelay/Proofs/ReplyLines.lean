import MixRelay.Proofs.RelayEdge

/-!
# Replies between two relays

Seen from the replies, an edge is one line: what the far relay writes on the connection that both have.
Once one of them has given that up, what is on it may come or be lost, and the next one starts empty.
-/
namespace MixRelay
open TypedFrame

/-- The line of the replies: is the near relay on the connection of the far one, has the far relay a
connection, has the near relay seen its own end; with which keystream it reads, what comes to it, and
with which keystream the far relay writes. -/
structure ReplyWire where
  joined : Bool
  connected : Bool
  ended : Bool
  reader : HeaderKeystream
  coming : Bytes
  writer : HeaderKeystream

namespace ReplyWire
variable {origin : HeaderKeystream} {w : ReplyWire} {onWay : List TypedFrame} {f : TypedFrame}

/-- The frames on the line. -/
structure Carries (origin : HeaderKeystream) (w : ReplyWire) (onWay : List TypedFrame) : Prop where
  comes : Comes w.reader onWay w.coming
  apart : w.joined = false → w.coming = [] ∧ w.reader = origin ∧ onWay = []
  met : w.joined = true → w.connected = true → w.ended = false →
    Runs w.reader onWay w.coming w.writer

/-- Bytes go on the line if it leads to the near relay. -/
def write (bytes : Bytes) (w : ReplyWire) : ReplyWire :=
  if w.joined && !w.ended then { w with coming := w.coming ++ bytes } else w

/-- The frame in hand goes behind the others, or it is lost. -/
theorem Carries.write (h : Carries origin w onWay) (hc : w.connected = true) (f : TypedFrame) :
    ∃ onWay', Carries origin
        { w.write (Frame.encode w.writer f.header f.payload).1 with
          connected := w.connected
          writer := w.writer.advance } onWay' ∧
      (onWay' = onWay ++ [f] ∨ onWay' = onWay) := by
  obtain ⟨joined, connected, ended, reader, coming, writer⟩ := w
  cases joined with
  | false =>
    refine ⟨onWay, ?_, .inr rfl⟩
    exact {
      comes := h.comes
      apart := h.apart
      met := nofun }
  | true =>
    cases ended with
    | true =>
      refine ⟨onWay, ?_, .inr rfl⟩
      exact {
        comes := h.comes
        apart := nofun
        met := nofun }
    | false =>
      have hruns := (h.met rfl hc rfl).concat f
      refine ⟨onWay ++ [f], ?_, .inl rfl⟩
      exact {
        comes := hruns.comes
        apart := nofun
        met := fun _ _ _ => hruns }

/-- The far relay has lost its connection, perhaps within a frame. -/
theorem Carries.tear (h : Carries origin w onWay) (hc : w.connected = true)
    (hword : Frame.length f.payload.length < 2 ^ 32) (n : Nat) (writer : HeaderKeystream) :
    Carries origin
      { w.write ((Frame.encode w.writer f.header f.payload).1.dropLast.take n) with
        connected := false
        writer := writer } onWay := by
  obtain ⟨joined, connected, ended, reader, coming, writer⟩ := w
  cases joined with
  | false =>
    exact {
      comes := h.comes
      apart := h.apart
      met := nofun }
  | true =>
    cases ended with
    | true =>
      exact {
        comes := h.comes
        apart := nofun
        met := nofun }
    | false =>
      exact {
        comes := (h.met rfl hc rfl).torn hword n
        apart := nofun
        met := nofun }

theorem Carries.lost {v : ReplyWire} (h : Carries origin w onWay) (hjoined : v.joined = w.joined)
    (hlost : v.connected = false) (hreader : v.reader = w.reader) (hcoming : v.coming = w.coming) :
    Carries origin v onWay where
  comes := by
    rw [hreader, hcoming]
    exact h.comes
  apart := by
    rw [hjoined, hreader, hcoming]
    exact h.apart
  met := fun _ hc => absurd (hlost.symm.trans hc) nofun

/-- The near relay has seen the end of its connection, behind some bytes. -/
theorem Carries.finish (h : Carries origin w onWay) {front later : Bytes}
    (hcoming : w.coming = front ++ later) :
    Carries origin { w with ended := true, coming := front } onWay where
  comes := by
    have hcomes := h.comes
    rw [hcoming] at hcomes
    exact hcomes.front
  apart := fun hjoined => by
    obtain ⟨hnil, hreader, honWay⟩ := h.apart hjoined
    rw [hcoming] at hnil
    exact ⟨(List.append_eq_nil_iff.1 hnil).1, hreader, honWay⟩
  met := nofun

/-- On a new connection nothing is on its way. -/
theorem Carries.dialled (origin : HeaderKeystream) {v : ReplyWire} (hjoined : v.joined = false)
    (hreader : v.reader = origin) (hcoming : v.coming = []) : Carries origin v [] where
  comes := by
    rw [hcoming]
    exact (Runs.nil v.reader).comes
  apart := fun _ => ⟨hcoming, hreader, rfl⟩
  met := fun h => absurd (hjoined.symm.trans h) nofun

/-- The far relay has accepted a connection, that of the near relay or one that it has left. -/
theorem Carries.accept {v : ReplyWire} (h : Carries origin w onWay) (hapart : w.joined = false)
    (hreader : v.reader = w.reader) (hcoming : v.coming = w.coming) (hwriter : v.writer = origin) :
    Carries origin v onWay := by
  obtain ⟨hnil, horigin, rfl⟩ := h.apart hapart
  rw [hnil] at hcoming
  rw [horigin] at hreader
  exact {
    comes := by
      rw [hcoming]
      exact (Runs.nil v.reader).comes
    apart := fun _ => ⟨hcoming, hreader, rfl⟩
    met := fun _ _ _ => by
      rw [hcoming, hreader, hwriter]
      exact Runs.nil origin }

/-- The near relay reads the first frame once it is all there. -/
theorem Carries.lacks_or_leads (h : Carries origin w onWay) {unread later : Bytes}
    (hcoming : w.coming = unread ++ later) (maxLength : Nat)
    (hword : ∀ f ∈ onWay, Frame.length f.payload.length < 2 ^ 32) :
    Frame.Lacks maxLength w.reader unread ∨ ∃ f more behind, onWay = f :: more ∧
      Leads maxLength w.reader unread f behind ∧
      Carries origin { w with reader := w.reader.advance, coming := behind ++ later } more := by
  have hcomes := h.comes
  rw [hcoming] at hcomes
  rcases hcomes.lacks_or_leads maxLength hword with hlacks | ⟨f, more, behind, rfl, hleads, hrest⟩
  · exact .inl hlacks
  refine .inr ⟨f, more, behind, rfl, hleads, ?_⟩
  exact {
    comes := hrest
    apart := fun hjoined => absurd (h.apart hjoined).2.2 nofun
    met := fun hjoined hc hended => by
      have hruns := h.met hjoined hc hended
      rw [hcoming] at hruns
      rcases TypedFrame.lacks_or_leads maxLength hruns hword with
        hlacks | ⟨g, others, rest, hmore, hleads', hrest'⟩
      · have hnext := hleads.next?
        rw [hlacks.next?] at hnext
        cases hnext
      · obtain ⟨rfl, rfl⟩ := List.cons.inj hmore
        have hread := hleads.symm.trans hleads'
        have hbehind := List.append_cancel_left (congrArg ReadResult.rest hread)
        rw [hbehind]
        exact hrest' }

end ReplyWire
end MixRelay
