import MixRelay.Proofs.RelayEdge
import MixRelay.Proofs.RequestLines

/-!
# Requests arrive in order and at most once

However often the connection fails, and wherever a frame breaks off, the far relay receives frames that
the near relay has made, in their order and each at most once. The frame in hand is the last of them.
-/
namespace MixRelay

/-- The message that the sender takes up next, with the frame that it makes of it. -/
def OutboundEdge.framed? (e : OutboundEdge) : Option (Message × TypedFrame) :=
  match e.inHand, e.requests with
  | none, m :: _ => (frame? e.table e.draws m).1.map fun out =>
      (m, ⟨m.kind, out.frame.header.field, out.frame.payload⟩)
  | _, _ => none

/-- The head of a frame that was received, the messages handed on, and whether it was refused. -/
structure Hearing where
  head : FrameHead
  handedOn : List Message
  refused : Bool
  deriving DecidableEq

/-- It is this frame that was received; a channel is made for an establish frame only. -/
def Hearing.Of (h : Hearing) (f : TypedFrame) : Prop :=
  h.head = f.head ∧ ∀ d payload, h.handedOn = [.establish d payload] → f.kind = .establish

theorem InboundState.Serves.hearing {s : InboundSettings} {st t : InboundState} {f : TypedFrame}
    {handedOn : List Message} (h : Serves s st f t handedOn) (refused : Bool) :
    Hearing.Of ⟨f.head, handedOn, refused⟩ f := by
  refine ⟨rfl, fun d payload hestablish => ?_⟩
  cases h with
  | established n kind unknown fit => exact kind
  | released n e kind known =>
    dsimp only at hestablish
    split at hestablish <;> cases hestablish
  | _ => cases hestablish

def InboundEdge.heard? (e : InboundEdge) (r : ChannelRegistry) : Option Hearing :=
  match e.receiveNext? r, Frame.next? e.settings.maxFrameLength e.requestKeystream e.unread with
  | some (handedOn, e', _), some (head, _) =>
    some ⟨head, handedOn, e.metrics.protocolFaults < e'.metrics.protocolFaults⟩
  | _, _ => none

namespace RelayEdge

/-- The frames that the near relay makes. -/
def framedAt (s : RelayEdge) : RelayEdgeEvent → List (Message × TypedFrame)
  | .send => s.near.framed?.toList
  | _ => []

/-- The frames that the far relay receives. -/
def heardAt (s : RelayEdge) : RelayEdgeEvent → List Hearing
  | .hear => (s.far.heard? s.farChannels).toList
  | _ => []

/-- What the far relay knows of its channels. -/
def farState (s : RelayEdge) : InboundState := ⟨s.farChannels, s.far.table, s.far.metrics, s.far.draws⟩

def requestWire (s : RelayEdge) : RequestWire where
  connected := s.far.isConnected
  reader := s.far.requestKeystream
  coming := s.far.unread ++ s.line
  waiting := s.waiting
  fresh := s.fresh
  writer := s.near.requestKeystream

variable {s : RelayEdge} {key : EdgeKey} {contents : List TypedFrame}

theorem frame?_outgoing {table : EdgeIdTable} {draws : Draws} {m : Message} {out : OutboundFrame}
    (h : (OutboundEdge.frame? table draws m).1 = some out) :
    out.frame = TypedFrame.outgoing ⟨m.kind, out.frame.header.field, out.frame.payload⟩ := by
  cases m with
  | establish c payload =>
    cases h
    rfl
  | message c payload =>
    obtain ⟨edge, -, rfl⟩ := Option.map_eq_some_iff.1 h
    rfl
  | release c =>
    obtain ⟨edge, -, rfl⟩ := Option.map_eq_some_iff.1 h
    rfl
  | batchSize n =>
    cases h
    rfl
  | reply c payload => cases h

/-- The far relay receives nothing, perhaps because it gives its connection up, or it receives the
frame that comes first and deals with it. -/
theorem hear_cases (h : s.requestWire.Holds (.start key .requests) contents)
    (hword : ∀ f ∈ contents, Frame.length f.payload.length < 2 ^ 32) :
    (s.heardAt .hear = [] ∧ (s.hear = s ∨ ∃ ks, s.hear = { s with far := { s.far with
        receiver := ⟨ks, s.far.connection.generation⟩
        connection := s.far.connection.takeDown
        unread := [] } })) ∨
      ∃ f more behind t handedOn, contents = f :: more ∧
        InboundState.Serves s.far.settings s.farState f t handedOn ∧
        s.heardAt .hear =
          [⟨f.head, handedOn, s.far.metrics.protocolFaults < t.metrics.protocolFaults⟩] ∧
        s.hear = { s with
          far := { s.far with
            receiver := ⟨s.far.requestKeystream.advance, s.far.connection.generation⟩
            table := t.table
            metrics := t.metrics
            draws := t.draws
            unread := behind }
          farChannels := t.registry } ∧
        s.hear.requestWire.Holds (.start key .requests) more := by
  cases hc : s.far.isConnected with
  | false =>
    have hnone : s.far.receiveNext? s.farChannels = none := by
      unfold InboundEdge.receiveNext?
      rw [hc]
      rfl
    refine .inl ⟨?_, .inl ?_⟩
    · rw [heardAt, InboundEdge.heard?, hnone]
      rfl
    · rw [hear, hnone]
  | true =>
    rcases h.lacks_or_leads hc rfl s.far.settings.maxFrameLength hword with
      hlacks | ⟨f, more, behind, rfl, hleads, hmore⟩
    · have hnext : Frame.next? s.far.settings.maxFrameLength s.far.requestKeystream s.far.unread =
          none := hlacks.next?
      refine .inl ⟨?_, ?_⟩
      · rw [heardAt, InboundEdge.heard?, hnext]
        cases s.far.receiveNext? s.farChannels <;> rfl
      · rcases InboundEdge.receiveNext?_of_lacks hc s.farChannels hlacks with hnone | ⟨ks, hdrop⟩
        · rw [hear, hnone]
          exact .inl rfl
        · rw [hear, hdrop]
          exact .inr ⟨ks, rfl⟩
    · obtain ⟨t, handedOn, hreceive, hserves⟩ :=
        InboundEdge.receiveNext?_of_leads hc s.farChannels hleads
      have hnext : Frame.next? s.far.settings.maxFrameLength s.far.requestKeystream s.far.unread =
          some (f.head, Frame.padded f.payload) := hleads.next?
      have hhear : s.hear = { s with
          far := { s.far with
            receiver := ⟨s.far.requestKeystream.advance, s.far.connection.generation⟩
            table := t.table
            metrics := t.metrics
            draws := t.draws
            unread := behind }
          farChannels := t.registry } := by
        rw [hear, hreceive]
      refine .inr ⟨f, more, behind, t, handedOn, rfl, hserves, ?_, hhear, ?_⟩
      · rw [heardAt, InboundEdge.heard?, hreceive, hnext]
        rfl
      · rw [hhear]
        have hks : InboundEdge.requestKeystream { s.far with
            receiver := ⟨s.far.requestKeystream.advance, s.far.connection.generation⟩
            table := t.table
            metrics := t.metrics
            draws := t.draws
            unread := behind } = s.far.requestKeystream.advance :=
          congrArg EdgeCipher.keystream (EdgeCipher.forGeneration_of_eq rfl)
        rw [requestWire, hks]
        exact hmore

/-- The frames that are read, those on the lines, and the one in hand are some of those that the near
relay has made, in their order. -/
def Underway (key : EdgeKey) (framed read : List TypedFrame) (s : RelayEdge) : Prop :=
  ∃ (contents : List TypedFrame) (hand : Option TypedFrame),
    s.requestWire.Holds (.start key .requests) contents ∧
      s.near.inHand.map OutboundFrame.frame = hand.map TypedFrame.outgoing ∧
      (read ++ contents ++ hand.toList).Sublist framed

variable {framed read : List TypedFrame}

theorem underway_start (c : RelayEdgeSettings) : Underway c.key [] [] (start c) := by
  refine ⟨[], none, ⟨[], [], [], ?_, rfl⟩, rfl, List.Sublist.refl _⟩
  exact {
    left := nofun
    met := nofun
    waits := .nil
    joined := nofun
    apart := fun _ hb => Option.some.inj hb ▸ .nil _ }

theorem framed?_of_inHand {e : OutboundEdge} {out : OutboundFrame} (h : e.inHand = some out) :
    e.framed? = none := by
  rw [OutboundEdge.framed?, h]

theorem framed?_of_requests {e : OutboundEdge} {m : Message} {rest : List Message}
    (h : e.inHand = none) (hr : e.requests = m :: rest) :
    e.framed? = (OutboundEdge.frame? e.table e.draws m).1.map fun out =>
      (m, ⟨m.kind, out.frame.header.field, out.frame.payload⟩) := by
  rw [OutboundEdge.framed?, h, hr]

theorem framed?_of_idle {e : OutboundEdge} (hr : e.requests = []) : e.framed? = none := by
  rw [OutboundEdge.framed?, hr]
  cases e.inHand <;> rfl

/-- Taking a request up leaves what is on the lines; its frame is in hand then. -/
theorem Underway.take (h : Underway key framed read s) {m : Message} {rest : List Message}
    (hh : s.near.inHand = none) (hr : s.near.requests = m :: rest) :
    Underway key (framed ++ s.near.framed?.toList.map Prod.snd) read
      { s with near := s.near.takenUp m rest } := by
  obtain ⟨contents, hand, hholds, hhand, hsub⟩ := h
  obtain rfl : hand = none := by
    rw [hh] at hhand
    exact Option.map_eq_none_iff.1 hhand.symm
  rw [framed?_of_requests hh hr]
  refine ⟨contents, (OutboundEdge.frame? s.near.table s.near.draws m).1.map fun out =>
      ⟨m.kind, out.frame.header.field, out.frame.payload⟩, hholds, ?_, ?_⟩
  · rw [Option.map_map]
    exact Option.map_congr fun out hout => frame?_outgoing hout
  · rw [Option.toList_none, List.append_nil] at hsub
    apply List.Sublist.append hsub
    cases (OutboundEdge.frame? s.near.table s.near.draws m).1 <;> exact List.Sublist.refl _

/-- Writing to the connection is writing to the last of the lines. -/
theorem requestWire_write {e : OutboundEdge} (s : RelayEdge) (bytes : Bytes)
    (hks : e.requestKeystream = s.near.requestKeystream.advance) :
    ({ s with near := e }.write bytes).requestWire = s.requestWire.write bytes := by
  obtain ⟨near, nearChannels, far, farChannels, line, waiting, fresh, back⟩ := s
  cases fresh with
  | none =>
    simp only [write, requestWire, RequestWire.write, hks, List.append_assoc]
  | some b =>
    simp only [write, requestWire, RequestWire.write, hks]

/-- The frame in hand goes behind those that were written before. -/
theorem Underway.write (h : Underway key framed read s) {out : OutboundFrame}
    (hh : s.near.inHand = some out) :
    Underway key framed read ({ s with near := s.near.written out }.write
      (Frame.encode s.near.requestKeystream out.frame.header out.frame.payload).1) := by
  obtain ⟨contents, hand, hholds, hhand, hsub⟩ := h
  obtain ⟨f, rfl, hf⟩ : ∃ f, hand = some f ∧ TypedFrame.outgoing f = out.frame := by
    rw [hh] at hhand
    exact Option.map_eq_some_iff.1 hhand.symm
  obtain ⟨contents', hholds', hsub'⟩ := hholds.write f
  refine ⟨contents', none, ?_, ?_, ?_⟩
  · have hks : (s.near.written out).requestKeystream = s.near.requestKeystream.advance :=
      congrArg EdgeCipher.keystream (EdgeCipher.forGeneration_of_eq rfl)
    rw [requestWire_write s _ hks, ← hf]
    exact hholds'
  · unfold RelayEdge.write
    split <;> rfl
  · rw [Option.toList_none, List.append_nil]
    rw [Option.toList_some, List.append_assoc] at hsub
    exact (List.Sublist.append_left hsub' read).trans hsub

theorem Underway.send (h : Underway key framed read s) (hw : s.Wired key) :
    Underway key (framed ++ (s.framedAt .send).map Prod.snd) read s.send := by
  rw [framedAt]
  rcases send_cases hw.live with ⟨-, hr, hidle⟩ | ⟨m, rest, hh, hr, htaken⟩ | ⟨out, hh, hwritten⟩
  · rw [hidle, framed?_of_idle hr, Option.toList_none, List.map_nil, List.append_nil]
    exact h
  · rw [htaken]
    exact h.take hh hr
  · rw [hwritten, framed?_of_inHand hh, Option.toList_none, List.map_nil, List.append_nil]
    exact h.write hh

/-- Dialling again leaves the frame in hand where it is, and perhaps a torn copy on the line. -/
theorem Underway.redial (h : Underway key framed read s) {e : OutboundEdge} {torn : Bytes}
    (hhand : e.inHand = s.near.inHand) (hks : e.requestKeystream = .start key .requests)
    (htorn : ∀ ks frames bytes, TypedFrame.Runs ks frames bytes s.near.requestKeystream →
      TypedFrame.Comes ks frames (bytes ++ torn)) :
    Underway key framed read ({ s with near := e }.write torn).redial := by
  obtain ⟨contents, hand, hholds, hh, hsub⟩ := h
  refine ⟨contents, hand, ?_, ?_, hsub⟩
  · have hwire : ({ s with near := e }.write torn).redial.requestWire =
        s.requestWire.redial torn (.start key .requests) := by
      obtain ⟨near, nearChannels, far, farChannels, line, waiting, fresh, back⟩ := s
      cases fresh with
      | none =>
        simp only [RelayEdge.write, RelayEdge.redial, requestWire, RequestWire.redial, hks,
          List.append_assoc, Option.toList_none, List.append_nil]
      | some b =>
        simp only [RelayEdge.write, RelayEdge.redial, requestWire, RequestWire.redial, hks,
          Option.toList_some]
    rw [hwire]
    exact hholds.redial htorn
  · rw [← hh, ← hhand]
    unfold RelayEdge.write RelayEdge.redial
    split <;> rfl

/-- The keystream of the requests starts again on the next connection. -/
theorem Wired.requestKeystream_recover (h : s.Wired key) :
    (s.near.recover s.near.connection.generation).requestKeystream = .start key .requests := by
  obtain ⟨c, metrics, hrecover, -, -, hgeneration⟩ := OutboundEdge.recover_of_open h.live h.nearOpen
  rw [hrecover, OutboundEdge.requestKeystream]
  dsimp only
  rw [hgeneration]
  exact h.requestWriter.keystream_next

theorem Wired.inHand_recover (h : s.Wired key) :
    (s.near.recover s.near.connection.generation).inHand = s.near.inHand := by
  obtain ⟨c, metrics, hrecover, -, -, -⟩ := OutboundEdge.recover_of_open h.live h.nearOpen
  rw [hrecover]

theorem Underway.tear (h : Underway key framed read s) (hw : s.Wired key)
    (hword : ∀ f ∈ framed, Frame.length f.payload.length < 2 ^ 32) (n : Nat) :
    Underway key framed read (s.tear n) := by
  unfold RelayEdge.tear
  split
  · exact h
  · rename_i out hh
    have hhand := h
    obtain ⟨contents, hand, -, hhand, hsub⟩ := hhand
    obtain ⟨f, rfl, hf⟩ : ∃ f, hand = some f ∧ TypedFrame.outgoing f = out.frame := by
      rw [hh] at hhand
      exact Option.map_eq_some_iff.1 hhand.symm
    have hlength := hword f (hsub.subset (by simp))
    have hsender := hw.requestWriter.advance
    have htorn : { s with near := { s.near with
        sender := ⟨s.near.requestKeystream.advance, s.near.connection.generation⟩ } }.Wired key :=
      { hw with requestWriter := hsender }
    dsimp only
    rw [EdgeCipher.encode_snd, EdgeCipher.encode_fst, ← hf]
    refine h.redial htorn.inHand_recover htorn.requestKeystream_recover ?_
    intro ks frames bytes hruns
    exact hruns.torn hlength n

theorem Underway.receive (h : Underway key framed read s) (hw : s.Wired key) :
    Underway key framed read s.receive := by
  rcases receive_cases hw with hidle | ⟨ks, metrics, rest, r, hks, hpassed | hdialled⟩
  · rw [hidle]
    exact h
  · rw [hpassed]
    exact h
  · have hrecover := hw.passed hks metrics rest
    have hcopy : Underway key framed read
        ({ s with
          near := (s.passed ks metrics rest).recover s.near.connection.generation
          nearChannels := r }.write []).redial := by
      refine Underway.redial (s := { s with nearChannels := r }) h hrecover.inHand_recover
        hrecover.requestKeystream_recover ?_
      intro ks frames bytes hruns
      rw [List.append_nil]
      exact hruns.comes
    rw [hdialled]
    rwa [write_nil] at hcopy

theorem Underway.accept (h : Underway key framed read s) (hw : s.Wired key) :
    Underway key framed read s.accept := by
  obtain ⟨contents, hand, hholds, hhand, hsub⟩ := h
  obtain ⟨contents', hholds', hsub'⟩ := hholds.accept
  have hks : s.far.accept.requestKeystream = .start key .requests := by
    obtain ⟨-, -, hgeneration⟩ := EdgeConnection.install_of_open hw.farOpen
    rw [InboundEdge.requestKeystream, InboundEdge.accept]
    dsimp only
    rw [hgeneration]
    exact hw.requestReader.keystream_next
  have hlive : s.far.accept.isConnected = true := (EdgeConnection.install_of_open hw.farOpen).1
  have hunread : s.far.accept.unread = [] := rfl
  have hwire : s.accept.requestWire = s.requestWire.accept (.start key .requests) := by
    unfold RelayEdge.accept RequestWire.accept
    obtain ⟨near, nearChannels, far, farChannels, line, waiting, fresh, back⟩ := s
    dsimp only at hks hlive hunread
    cases waiting with
    | nil =>
      cases fresh with
      | none => rfl
      | some b => simp only [requestWire, hks, hlive, hunread, List.nil_append]
    | cons bytes rest => simp only [requestWire, hks, hlive, hunread, List.nil_append]
  refine ⟨contents', hand, hwire ▸ hholds', ?_, ?_⟩
  · rw [← hhand]
    unfold RelayEdge.accept
    split <;> rfl
  · exact ((List.Sublist.append_left hsub' read).append_right _).trans hsub

/-- What the far relay loses with its connection never comes. -/
theorem Underway.lost {t : RelayEdge} (h : Underway key framed read s) (hlost : t.far.isConnected = false)
    (hnear : t.near = s.near) (hwaiting : t.waiting = s.waiting) (hfresh : t.fresh = s.fresh) :
    Underway key framed read t := by
  obtain ⟨contents, hand, hholds, hhand, hsub⟩ := h
  refine ⟨contents, hand, hholds.lost hlost hwaiting hfresh ?_, hnear ▸ hhand, hsub⟩
  rw [requestWire, hnear]
  rfl

/-- Bytes that arrive are the next of those on the line. -/
theorem Underway.deliver (h : Underway key framed read s) (n : Nat) :
    Underway key framed read (s.step (.deliver n)) := by
  cases hc : s.far.isConnected with
  | false =>
    have harrive : s.far.arrive (s.line.take n) = s.far := if_neg (by simp [hc])
    refine h.lost ?_ rfl rfl rfl
    rw [step, harrive]
    exact hc
  | true =>
    have harrive : s.far.arrive (s.line.take n) =
        { s.far with unread := s.far.unread ++ s.line.take n } := if_pos hc
    obtain ⟨contents, hand, hholds, hhand, hsub⟩ := h
    refine ⟨contents, hand, ?_, hhand, hsub⟩
    have hwire : (s.step (.deliver n)).requestWire = s.requestWire := by
      rw [step, harrive, requestWire, requestWire]
      dsimp only
      rw [List.append_assoc, List.take_append_drop]
      rfl
    rw [hwire]
    exact hholds

theorem Underway.hangUp (h : Underway key framed read s) : Underway key framed read (s.step .hangUp) := by
  rw [step]
  split
  · rename_i hsome
    obtain ⟨contents, hand, hholds, hhand, hsub⟩ := h
    have hclip := hholds.clip rfl (Option.isSome_iff_ne_none.1 hsome)
    refine ⟨contents, hand, ?_, hhand, hsub⟩
    have hwire : { s with far := s.far.finish, line := [] }.requestWire =
        { s.requestWire with coming := s.far.unread } := by
      unfold InboundEdge.finish requestWire
      split
      · simp only [List.append_nil]
        rfl
      · simp only [List.append_nil]
    rw [hwire]
    exact hclip
  · exact h

theorem drop_isConnected (e : InboundEdge) : e.drop.2.isConnected = false := by
  unfold InboundEdge.drop EdgeConnection.invalidate
  dsimp only
  cases hc : e.connection.isConnected with
  | false => simp [InboundEdge.isConnected, hc]
  | true => simp [InboundEdge.isConnected]

theorem Underway.tearAnswer (h : Underway key framed read s) (n : Nat) :
    Underway key framed read (s.tearAnswer n) := by
  unfold RelayEdge.tearAnswer
  split
  · exact h
  · split
    · dsimp only
      unfold RelayEdge.writeBack
      split
      · exact h.lost (drop_isConnected _) rfl rfl rfl
      · exact h.lost (drop_isConnected _) rfl rfl rfl
    · exact h

theorem Underway.answer (h : Underway key framed read s) : Underway key framed read s.answer := by
  rcases s.answer_cases with hidle | ⟨m, rest, -, -, htaken⟩ | ⟨frame, -, -, hwritten⟩
  · rw [hidle]
    exact h
  · rw [htaken]
    exact h
  · rw [hwritten]
    unfold RelayEdge.writeBack
    split
    · exact h
    · exact h

/-- The frame that is received is the first of those under way. -/
theorem Underway.hear_cases (h : Underway key framed read s)
    (hword : ∀ f ∈ framed, Frame.length f.payload.length < 2 ^ 32) :
    (s.heardAt .hear = [] ∧ s.hear.farState = s.farState ∧ s.hear.far.settings = s.far.settings ∧
        Underway key framed read s.hear) ∨
      ∃ f t handedOn, InboundState.Serves s.far.settings s.farState f t handedOn ∧
        s.heardAt .hear =
          [⟨f.head, handedOn, s.farState.metrics.protocolFaults < t.metrics.protocolFaults⟩] ∧
        s.hear.farState = t ∧ s.hear.far.settings = s.far.settings ∧
        Underway key framed (read ++ [f]) s.hear := by
  obtain ⟨contents, hand, hholds, hhand, hsub⟩ := id h
  have hwords : ∀ f ∈ contents, Frame.length f.payload.length < 2 ^ 32 := fun f hf =>
    hword f (hsub.subset (List.mem_append_left _ (List.mem_append_right _ hf)))
  rcases RelayEdge.hear_cases hholds hwords with
    ⟨hnone, hsame⟩ | ⟨f, more, behind, t, handedOn, rfl, hserves, hheard, hhear, hmore⟩
  · refine .inl ⟨hnone, ?_⟩
    rcases hsame with hsame | ⟨ks, hdrop⟩
    · rw [hsame]
      exact ⟨rfl, rfl, h⟩
    · rw [hdrop]
      exact ⟨rfl, rfl, h.lost (EdgeConnection.isConnected_takeDown _) rfl rfl rfl⟩
  · refine .inr ⟨f, t, handedOn, hserves, hheard, ?_, ?_, more, hand, hmore, ?_, ?_⟩
    · rw [hhear]
      rfl
    · rw [hhear]
    · rw [hhear]
      exact hhand
    · rw [List.append_assoc read]
      exact hsub

theorem Underway.hear (h : Underway key framed read s)
    (hword : ∀ f ∈ framed, Frame.length f.payload.length < 2 ^ 32) :
    ∃ more, List.Forall₂ Hearing.Of (s.heardAt .hear) more ∧
      Underway key framed (read ++ more) s.hear := by
  rcases h.hear_cases hword with ⟨hnone, -, -, hsame⟩ | ⟨f, t, handedOn, hserves, hheard, -, -, hread⟩
  · refine ⟨[], by rw [hnone]; exact .nil, ?_⟩
    rw [List.append_nil]
    exact hsame
  · exact ⟨[f], by rw [hheard]; exact .cons (hserves.hearing _) .nil, hread⟩

/-- What is read was made. -/
theorem Underway.read_sublist (h : Underway key framed read s) : read.Sublist framed := by
  obtain ⟨contents, hand, -, -, hsub⟩ := h
  refine List.Sublist.trans ?_ hsub
  rw [List.append_assoc]
  exact List.sublist_append_left _ _

/-- One step reads some of what is under way, and may add a frame to it. -/
theorem Underway.step (h : Underway key framed read s) (hw : s.Wired key)
    (hword : ∀ f ∈ framed, Frame.length f.payload.length < 2 ^ 32) (e : RelayEdgeEvent) :
    ∃ more, List.Forall₂ Hearing.Of (s.heardAt e) more ∧
      Underway key (framed ++ (s.framedAt e).map Prod.snd) (read ++ more) (s.step e) := by
  have hquiet (hheard : s.heardAt e = []) (hframed : s.framedAt e = [])
      (hstep : Underway key framed read (s.step e)) :
      ∃ more, List.Forall₂ Hearing.Of (s.heardAt e) more ∧
        Underway key (framed ++ (s.framedAt e).map Prod.snd) (read ++ more) (s.step e) := by
    refine ⟨[], by rw [hheard]; exact .nil, ?_⟩
    rw [hframed, List.map_nil, List.append_nil, List.append_nil]
    exact hstep
  cases e with
  | request | reply | nearChannels | farChannels => exact hquiet rfl rfl h
  | send =>
    refine ⟨[], .nil, ?_⟩
    rw [List.append_nil]
    exact h.send hw
  | tear n => exact hquiet rfl rfl (h.tear hw hword n)
  | deliver n => exact hquiet rfl rfl (h.deliver n)
  | hear =>
    have hnone : s.framedAt .hear = [] := rfl
    rw [hnone, List.map_nil, List.append_nil]
    exact h.hear hword
  | accept => exact hquiet rfl rfl (h.accept hw)
  | hangUp => exact hquiet rfl rfl h.hangUp
  | drop => exact hquiet rfl rfl (h.lost (drop_isConnected _) rfl rfl rfl)
  | answer => exact hquiet rfl rfl h.answer
  | tearAnswer n => exact hquiet rfl rfl (h.tearAnswer n)
  | bring n =>
    refine hquiet rfl rfl ?_
    rw [RelayEdge.step]
    unfold OutboundEdge.arrive
    split
    · exact h
    · exact h
  | finish =>
    refine hquiet rfl rfl ?_
    rw [RelayEdge.step]
    unfold OutboundEdge.finish
    split
    · exact h
    · exact h
  | receive => exact hquiet rfl rfl (h.receive hw)

/-- Of each message that is taken up, the frame has the kind and the payload. -/
theorem framed?_eq {e : OutboundEdge} {m : Message} {f : TypedFrame} (h : e.framed? = some (m, f)) :
    f.kind = m.kind ∧ f.payload = m.payload ∧ m.kind ≠ .reply := by
  unfold OutboundEdge.framed? at h
  split at h
  · rename_i next rest _ _
    obtain ⟨out, hout, hpair⟩ := Option.map_eq_some_iff.1 h
    obtain ⟨rfl, rfl⟩ := Prod.mk.inj hpair
    refine ⟨rfl, ?_⟩
    cases next with
    | establish c payload =>
      cases hout
      exact ⟨rfl, nofun⟩
    | message c payload =>
      obtain ⟨edge, -, rfl⟩ := Option.map_eq_some_iff.1 hout
      exact ⟨rfl, nofun⟩
    | release c =>
      obtain ⟨edge, -, rfl⟩ := Option.map_eq_some_iff.1 hout
      exact ⟨rfl, nofun⟩
    | batchSize n =>
      cases hout
      exact ⟨rfl, nofun⟩
    | reply c payload => cases hout
  · cases h

/-- What the near relay was handed, the frames that it has made of that, and what the far relay has
made of those that it received. -/
structure Delivers (key : EdgeKey) (handed : List Message) (framed : List (Message × TypedFrame))
    (heard : List Hearing) (s : RelayEdge) : Prop where
  wired : s.Wired key
  frames : ∀ p ∈ framed, p.2.kind = p.1.kind ∧ p.2.payload = p.1.payload ∧ p.1.kind ≠ .reply
  taken : (framed.map Prod.fst ++ s.near.requests).Sublist handed
  underway : ∃ read, List.Forall₂ Hearing.Of heard read ∧ Underway key (framed.map Prod.snd) read s

variable {handed : List Message} {framed : List (Message × TypedFrame)} {heard : List Hearing}

theorem delivers_start (c : RelayEdgeSettings) : (start c).Delivers c.key [] [] [] where
  wired := wired_start c
  frames := nofun
  taken := List.Sublist.refl _
  underway := ⟨[], .nil, underway_start c⟩

theorem Delivers.word (h : s.Delivers key handed framed heard)
    (hword : ∀ m ∈ handed, m.kind ≠ .reply → Frame.length m.payload.length < 2 ^ 32) :
    ∀ f ∈ framed.map Prod.snd, Frame.length f.payload.length < 2 ^ 32 := by
  intro f hf
  obtain ⟨p, hp, rfl⟩ := List.mem_map.1 hf
  obtain ⟨-, hpayload, hkind⟩ := h.frames p hp
  rw [hpayload]
  exact hword _ (h.taken.subset (List.mem_append_left _ (List.mem_map_of_mem hp))) hkind

/-- The sender takes up the requests that wait, in their order, and drops those without a frame. -/
theorem Delivers.taken_step (h : s.Delivers key handed framed heard) (e : RelayEdgeEvent) :
    ((framed ++ s.framedAt e).map Prod.fst ++ (s.step e).near.requests).Sublist
      (handed ++ e.request?.toList) := by
  by_cases hsend : e = .send
  · subst hsend
    have hnone : RelayEdgeEvent.send.request?.toList = [] := rfl
    rw [hnone, List.append_nil, framedAt, step]
    rcases send_cases h.wired.live with ⟨-, hr, hidle⟩ | ⟨m, rest, hh, hr, htaken⟩ | ⟨out, hh, hwritten⟩
    · rw [hidle, framed?_of_idle hr, Option.toList_none, List.append_nil]
      exact h.taken
    · have hold := h.taken
      rw [hr] at hold
      rw [htaken, framed?_of_requests hh hr]
      refine List.Sublist.trans ?_ hold
      cases (OutboundEdge.frame? s.near.table s.near.draws m).1 with
      | none =>
        rw [Option.map_none, Option.toList_none, List.append_nil]
        exact List.Sublist.append_left (List.sublist_cons_self m rest) _
      | some out =>
        rw [List.map_append, List.append_assoc]
        exact List.Sublist.refl _
    · rw [hwritten, near_write, framed?_of_inHand hh, Option.toList_none, List.append_nil]
      exact h.taken
  · have hnone : s.framedAt e = [] := by
      cases e with
      | send => exact absurd rfl hsend
      | _ => rfl
    rw [hnone, List.append_nil, (near_step h.wired hsend).2.2.2, ← List.append_assoc]
    exact h.taken.append_right _

theorem Delivers.step (h : s.Delivers key handed framed heard)
    (hword : ∀ m ∈ handed, m.kind ≠ .reply → Frame.length m.payload.length < 2 ^ 32)
    (e : RelayEdgeEvent) :
    (s.step e).Delivers key (handed ++ e.request?.toList) (framed ++ s.framedAt e)
      (heard ++ s.heardAt e) := by
  refine ⟨h.wired.step e, ?_, h.taken_step e, ?_⟩
  · intro p hp
    rcases List.mem_append.1 hp with hp | hp
    · exact h.frames p hp
    · cases e with
      | send => exact framed?_eq (Option.mem_toList.1 hp)
      | _ => cases hp
  · obtain ⟨read, hof, hunder⟩ := h.underway
    obtain ⟨more, hmore, hnext⟩ := hunder.step h.wired (h.word hword) e
    refine ⟨read ++ more, List.rel_append hof hmore, ?_⟩
    rw [List.map_append]
    exact hnext

/-- The requests that the near relay is handed in a run. -/
def requestsOf (events : List RelayEdgeEvent) : List Message :=
  events.filterMap RelayEdgeEvent.request?

/-- The frames that the near relay makes in a run. -/
def framedIn (c : RelayEdgeSettings) (events : List RelayEdgeEvent) : List (Message × TypedFrame) :=
  outputs step framedAt (start c) events

/-- The frames that the far relay receives in a run. -/
def heardIn (c : RelayEdgeSettings) (events : List RelayEdgeEvent) : List Hearing :=
  outputs step heardAt (start c) events

theorem requestsOf_concat (events : List RelayEdgeEvent) (e : RelayEdgeEvent) :
    requestsOf (events ++ [e]) = requestsOf events ++ e.request?.toList := by
  cases he : e.request? <;> simp [requestsOf, he]

theorem framedIn_concat (c : RelayEdgeSettings) (events : List RelayEdgeEvent) (e : RelayEdgeEvent) :
    framedIn c (events ++ [e]) = framedIn c events ++ (events.foldl step (start c)).framedAt e :=
  outputs_concat _ _ _ _

theorem heardIn_concat (c : RelayEdgeSettings) (events : List RelayEdgeEvent) (e : RelayEdgeEvent) :
    heardIn c (events ++ [e]) = heardIn c events ++ (events.foldl step (start c)).heardAt e :=
  outputs_concat _ _ _ _

end RelayEdge
end MixRelay
