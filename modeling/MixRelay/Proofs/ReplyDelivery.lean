import MixRelay.Proofs.ReplyLines
import MixRelay.Proofs.RequestDelivery

/-!
# Replies reach the channel that they were sent for

A reply travels under the identifier that its channel has on the edge when the far relay takes it up.
The near relay looks the identifier up when the reply has come, which may be much later. As long as no
identifier is drawn twice, it finds the channel for which the far one was made, or none.
-/
namespace MixRelay

/-- A reply under an identifier of the edge, and the channel that it was submitted for. -/
structure Parcel where
  edge : ChannelId
  channel : ChannelId
  payload : Bytes

namespace Parcel

def frame (p : Parcel) : TypedFrame := ⟨.reply, p.edge, p.payload⟩

def submitted (p : Parcel) : ChannelId × Bytes := (p.channel, p.payload)

end Parcel

/-- The channel and the payload of a reply. -/
def Message.reply? : Message → Option (ChannelId × Bytes)
  | .reply c payload => some (c, payload)
  | _ => none

/-- The reply that the far relay is handed. -/
def RelayEdgeEvent.reply? : RelayEdgeEvent → Option (ChannelId × Bytes)
  | .reply m => m.reply?
  | _ => none

/-- The identifier of the edge that an establish message was given, with its channel. -/
def drawn (framed : List (Message × TypedFrame)) : List (ChannelId × ChannelId) :=
  framed.filterMap fun
    | (.establish c _, f) => some (f.field, c)
    | _ => none

/-- The identifier of the edge in an establish frame, with the channel that was made for it. -/
def born (heard : List Hearing) : List (ChannelId × ChannelId) :=
  heard.filterMap fun h =>
    match h.handedOn with
    | [.establish d _] => some (h.head.field, d)
    | _ => none

namespace RelayEdge

/-- The replies that the near relay hands on. -/
def enqueuedAt (s : RelayEdge) : RelayEdgeEvent → List (ChannelId × Bytes)
  | .receive =>
    match s.near.receiveNext? s.nearChannels with
    | some (handedOn, _, _) => handedOn.filterMap Message.reply?
    | none => []
  | _ => []

def replyWire (s : RelayEdge) : ReplyWire where
  joined := s.fresh.isNone
  connected := s.far.isConnected
  ended := s.near.ended
  reader := s.near.replyKeystream
  coming := s.near.unread ++ s.back
  writer := s.far.replyKeystream

variable {s : RelayEdge} {key : EdgeKey} {onWay : List TypedFrame}

/-- The near relay receives nothing, perhaps because it dials again, or it receives the reply that comes
first, and may hand it on under the channel that it has for the reply's identifier. -/
theorem receive_reply_cases (hw : s.Wired key)
    (h : s.replyWire.Carries (.start key .replies) onWay)
    (hword : ∀ f ∈ onWay, Frame.length f.payload.length < 2 ^ 32)
    (hkind : ∀ f ∈ onWay, f.kind = .reply) :
    (s.enqueuedAt .receive = [] ∧ (s.receive = s ∨ ∃ ks metrics rest r,
        { s with near := s.passed ks metrics rest }.Wired key ∧
        s.receive = { s with
          near := (s.passed ks metrics rest).recover s.near.connection.generation
          nearChannels := r }.redial)) ∨
      ∃ f more metrics behind r, onWay = f :: more ∧
        (s.enqueuedAt .receive = [] ∨ ∃ c, s.near.table.localId? f.field = some c ∧
          s.enqueuedAt .receive = [(c, Frame.padded f.payload)]) ∧
        s.receive = { s with
          near := s.passed s.near.replyKeystream.advance metrics behind
          nearChannels := r } ∧
        s.receive.replyWire.Carries (.start key .replies) more := by
  rcases h.lacks_or_leads rfl s.near.maxFrameLength hword with
    hlacks | ⟨f, more, behind, rfl, hleads, hmore⟩
  · left
    rcases OutboundEdge.receiveNext?_of_lacks s.nearChannels hlacks with
      hnone | ⟨ks, metrics, rest, r, hks, hredial⟩
    · refine ⟨?_, .inl ?_⟩
      · rw [enqueuedAt, hnone]
      · rw [receive, hnone]
    · have hpassed := hw.passed hks metrics rest
      refine ⟨?_, .inr ⟨ks, metrics, rest, r, hpassed, ?_⟩⟩
      · rw [enqueuedAt, hredial]
        rfl
      · rw [receive, hredial]
        exact if_neg (OutboundEdge.connection_recover_ne hpassed.live)
  · obtain ⟨metrics, r, handedOn, hreceive, hhanded⟩ :=
      OutboundEdge.receiveNext?_of_leads hw.live (hkind f List.mem_cons_self) s.nearChannels hleads
    have hpassed : s.receive = { s with
        near := s.passed s.near.replyKeystream.advance metrics behind
        nearChannels := r } := by
      rw [receive, hreceive]
      exact if_pos rfl
    refine .inr ⟨f, more, metrics, behind, r, rfl, ?_, hpassed, ?_⟩
    · rw [enqueuedAt, hreceive]
      rcases hhanded with rfl | ⟨c, hc, rfl⟩
      · exact .inl rfl
      · exact .inr ⟨c, hc, rfl⟩
    · rw [hpassed]
      have hks : (s.passed s.near.replyKeystream.advance metrics behind).replyKeystream =
          s.near.replyKeystream.advance :=
        congrArg EdgeCipher.keystream (EdgeCipher.forGeneration_of_eq rfl)
      rw [replyWire, hks]
      exact hmore

/-- Each pair of a table was drawn here, or was born there. -/
structure Recorded (drawnPairs bornPairs : List (ChannelId × ChannelId)) (s : RelayEdge) : Prop where
  near : s.near.table.pairs ⊆ drawnPairs
  far : s.far.table.pairs ⊆ bornPairs

theorem drawn_append (first second : List (Message × TypedFrame)) :
    drawn (first ++ second) = drawn first ++ drawn second := List.filterMap_append

theorem born_append (first second : List Hearing) : born (first ++ second) = born first ++ born second :=
  List.filterMap_append

theorem dropLocal_subset (t : EdgeIdTable) (c : ChannelId) : (t.dropLocal c).pairs ⊆ t.pairs :=
  List.filter_subset_self _

theorem dropEdge_subset (t : EdgeIdTable) (edge : ChannelId) : (t.dropEdge edge).pairs ⊆ t.pairs :=
  List.filter_subset_self _

variable {d b : List (ChannelId × ChannelId)}

theorem near_table_written (s : RelayEdge) (out : OutboundFrame) :
    (s.near.written out).table.pairs ⊆ s.near.table.pairs := by
  unfold OutboundEdge.written
  dsimp only
  split
  · exact dropLocal_subset _ _
  · exact List.Subset.refl _

/-- Only an establish message that is taken up adds a pair to the table of the near relay. -/
theorem near_table_takenUp {m : Message} {rest : List Message} (hh : s.near.inHand = none)
    (hr : s.near.requests = m :: rest) :
    (s.near.takenUp m rest).table.pairs ⊆ s.near.table.pairs ++ drawn s.near.framed?.toList := by
  rw [framed?_of_requests hh hr]
  unfold OutboundEdge.takenUp
  dsimp only
  cases m with
  | establish c payload =>
    intro p hp
    rcases List.mem_append.1 hp with hp | hp
    · exact List.mem_append_left _ (dropLocal_subset _ _ hp)
    · refine List.mem_append_right _ ?_
      rw [List.mem_singleton.1 hp]
      exact List.mem_singleton.2 rfl
  | _ => exact List.subset_append_left _ _

/-- Only an establish frame that is received adds a pair to the table of the far relay. -/
theorem far_table_serves {c : InboundSettings} {st t : InboundState} {f : TypedFrame}
    {handedOn : List Message} (refused : Bool) (h : InboundState.Serves c st f t handedOn) :
    t.table.pairs ⊆ st.table.pairs ++ born [⟨f.head, handedOn, refused⟩] := by
  cases h with
  | established n kind unknown fit =>
    intro p hp
    unfold InboundState.establish at hp
    dsimp only at hp
    unfold EdgeIdTable.insert at hp
    split at hp
    · exact List.mem_append_left _ hp
    · rcases List.mem_append.1 hp with hp | hp
      · exact List.mem_append_left _ hp
      · refine List.mem_append_right _ ?_
        rw [List.mem_singleton.1 hp]
        exact List.mem_singleton.2 rfl
  | released n e kind known => exact List.Subset.trans (dropEdge_subset _ _) (List.subset_append_left _ _)
  | refused n reason => exact List.subset_append_left _ _
  | requested n e kind known free fit => exact List.subset_append_left _ _
  | opened n kind => exact List.subset_append_left _ _
  | forgotten n kind unknown => exact List.subset_append_left _ _

theorem Recorded.of_same {t : RelayEdge} (h : Recorded d b s) (hnear : t.near.table = s.near.table)
    (hfar : t.far.table = s.far.table) : Recorded d b t :=
  ⟨hnear ▸ h.near, hfar ▸ h.far⟩

theorem Recorded.send (h : Recorded d b s) (hw : s.Wired key) :
    Recorded (d ++ drawn (s.framedAt .send)) b s.send := by
  have hold : s.near.table.pairs ⊆ d ++ drawn (s.framedAt .send) :=
    List.Subset.trans h.near (List.subset_append_left _ _)
  rcases send_cases hw.live with ⟨-, -, hidle⟩ | ⟨m, rest, hh, hr, htaken⟩ | ⟨out, hh, hwritten⟩
  · rw [hidle]
    exact ⟨hold, h.far⟩
  · rw [htaken]
    refine ⟨fun p hp => ?_, h.far⟩
    rcases List.mem_append.1 (near_table_takenUp hh hr hp) with hp | hp
    · exact hold hp
    · exact List.mem_append_right _ hp
  · rw [hwritten]
    refine ⟨?_, ?_⟩
    · rw [near_write]
      exact List.Subset.trans (near_table_written s out) hold
    · rw [far_write]
      exact h.far

theorem Recorded.hear {framed read : List TypedFrame} (h : Recorded d b s) (hw : s.Wired key)
    (hu : Underway key framed read s) (hword : ∀ f ∈ framed, Frame.length f.payload.length < 2 ^ 32) :
    Recorded d (b ++ born (s.heardAt .hear)) s.hear := by
  have hnear : s.hear.near.table = s.near.table := (near_step hw (e := .hear) nofun).1
  refine ⟨hnear ▸ h.near, ?_⟩
  rcases hu.hear_cases hword with ⟨hnone, hstate, -⟩ | ⟨f, t, handedOn, hserves, hheard, hstate, -⟩
  · have htable : s.hear.far.table = s.far.table := congrArg InboundState.table hstate
    rw [htable]
    exact List.Subset.trans h.far (List.subset_append_left _ _)
  · have htable : s.hear.far.table = t.table := congrArg InboundState.table hstate
    rw [hheard, htable]
    intro p hp
    rcases List.mem_append.1 (far_table_serves _ hserves hp) with hp | hp
    · exact List.mem_append_left _ (h.far hp)
    · exact List.mem_append_right _ hp

theorem Recorded.step {framed read : List TypedFrame} (h : Recorded d b s) (hw : s.Wired key)
    (hu : Underway key framed read s) (hword : ∀ f ∈ framed, Frame.length f.payload.length < 2 ^ 32)
    (e : RelayEdgeEvent) :
    Recorded (d ++ drawn (s.framedAt e)) (b ++ born (s.heardAt e)) (s.step e) := by
  by_cases hsend : e = .send
  · subst hsend
    have hnone : born (s.heardAt .send) = [] := rfl
    rw [hnone, List.append_nil]
    exact h.send hw
  by_cases hhear : e = .hear
  · subst hhear
    have hnone : drawn (s.framedAt .hear) = [] := rfl
    rw [hnone, List.append_nil]
    exact h.hear hw hu hword
  · have hkept := h.of_same (near_step hw hsend).1 (s.far_step hhear).2.1
    exact ⟨List.Subset.trans hkept.near (List.subset_append_left _ _),
      List.Subset.trans hkept.far (List.subset_append_left _ _)⟩

/-- The replies that are chosen to be handed on, those on their way, the one in hand and those that
wait are some of the submitted ones, in their order. Each on its way is under an identifier that its
channel was born with. -/
def Sends (key : EdgeKey) (b : List (ChannelId × ChannelId)) (submitted chosen : List (ChannelId × Bytes))
    (s : RelayEdge) : Prop :=
  ∃ (onWay : List Parcel) (hand : Option Parcel),
    s.replyWire.Carries (.start key .replies) (onWay.map Parcel.frame) ∧
      s.far.inHand = hand.map (fun p => p.frame.outgoing) ∧
      (∀ p ∈ onWay ++ hand.toList, (p.edge, p.channel) ∈ b) ∧
      (chosen ++ (onWay ++ hand.toList).map Parcel.submitted ++
        s.far.replies.filterMap Message.reply?).Sublist submitted

variable {submitted chosen : List (ChannelId × Bytes)} {t : RelayEdge}

theorem sends_start (c : RelayEdgeSettings) : Sends c.key [] [] [] (start c) := by
  refine ⟨[], none, .dialled _ rfl ?_ rfl, rfl, nofun, List.Sublist.refl _⟩
  exact (EdgeCipher.follows_start c.key .replies 0).keystream_next

theorem Sends.mono (h : Sends key b submitted chosen s) {b' : List (ChannelId × ChannelId)}
    (hb : b ⊆ b') : Sends key b' submitted chosen s := by
  obtain ⟨onWay, hand, hcarries, hhand, hborn, hsub⟩ := h
  exact ⟨onWay, hand, hcarries, hhand, fun p hp => hb (hborn p hp), hsub⟩

/-- What touches neither the line nor the sender of the replies leaves all as it is. -/
theorem Sends.of_same (h : Sends key b submitted chosen s) (hwire : t.replyWire = s.replyWire)
    (hhand : t.far.inHand = s.far.inHand) (hreplies : t.far.replies = s.far.replies) :
    Sends key b submitted chosen t := by
  obtain ⟨onWay, hand, hcarries, hh, hborn, hsub⟩ := h
  refine ⟨onWay, hand, hwire ▸ hcarries, hhand.trans hh, hborn, ?_⟩
  rw [hreplies]
  exact hsub

/-- What is on its way is lost with the connection. -/
theorem Sends.dialled (h : Sends key b submitted chosen s) (hjoined : t.fresh ≠ none)
    (hks : t.near.replyKeystream = .start key .replies) (hunread : t.near.unread = [])
    (hback : t.back = []) (hhand : t.far.inHand = s.far.inHand)
    (hreplies : t.far.replies = s.far.replies) : Sends key b submitted chosen t := by
  obtain ⟨onWay, hand, -, hh, hborn, hsub⟩ := h
  refine ⟨[], hand, ?_, hhand.trans hh, fun p hp => hborn p (List.mem_append_right _ hp), ?_⟩
  · apply ReplyWire.Carries.dialled
    · rw [replyWire]
      exact Option.isNone_eq_false_iff.2 (Option.isSome_iff_ne_none.2 hjoined)
    · exact hks
    · rw [replyWire, hunread, hback]
      rfl
  · rw [hreplies, List.nil_append]
    rw [List.map_append] at hsub
    refine List.Sublist.trans (List.Sublist.append_right (List.Sublist.append_left ?_ chosen) _) hsub
    exact List.sublist_append_right _ _

theorem Sends.submit (h : Sends key b submitted chosen s) (m : Message) :
    Sends key b (submitted ++ m.reply?.toList) chosen (s.step (.reply m)) := by
  obtain ⟨onWay, hand, hcarries, hhand, hborn, hsub⟩ := h
  refine ⟨onWay, hand, hcarries, hhand, hborn, ?_⟩
  have hlast : [m].filterMap Message.reply? = m.reply?.toList := by
    cases m <;> rfl
  rw [step, List.filterMap_append, hlast, ← List.append_assoc]
  exact hsub.append_right _

/-- A reply is taken up under the identifier that the table has for its channel. -/
theorem Sends.take (h : Sends key b submitted chosen s) (hr : Recorded d b s) {m : Message}
    {rest : List Message} (hh : s.far.inHand = none) (hm : s.far.replies = m :: rest) :
    Sends key b submitted chosen { s with far := s.far.takenUp m rest } := by
  obtain ⟨onWay, hand, hcarries, hhand, hborn, hsub⟩ := h
  obtain rfl : hand = none := by
    rw [hh] at hhand
    exact Option.map_eq_none_iff.1 hhand.symm
  rw [hm, Option.toList_none, List.append_nil] at hsub
  rw [Option.toList_none, List.append_nil] at hborn
  have hdropped (hnone : InboundEdge.frame? s.far.table m = none) :
      Sends key b submitted chosen { s with far := s.far.takenUp m rest } := by
    refine ⟨onWay, none, hcarries, hnone, ?_, ?_⟩
    · rw [Option.toList_none, List.append_nil]
      exact hborn
    · rw [Option.toList_none, List.append_nil]
      refine List.Sublist.trans (List.Sublist.append_left ?_ _) hsub
      exact List.Sublist.filterMap _ (List.sublist_cons_self m rest)
  cases m with
  | reply c payload =>
    cases hedge : s.far.table.edgeId? c with
    | none => exact hdropped (by rw [InboundEdge.frame?, hedge]; rfl)
    | some edge =>
      refine ⟨onWay, some ⟨edge, c, payload⟩, hcarries, ?_, ?_, ?_⟩
      · rw [InboundEdge.takenUp, InboundEdge.frame?, hedge]
        rfl
      · intro p hp
        rcases List.mem_append.1 hp with hp | hp
        · exact hborn p hp
        · rw [List.mem_singleton.1 hp]
          exact hr.far (EdgeIdTable.mem_of_edgeId? hedge)
      · have hmore : (Message.reply c payload :: rest).filterMap Message.reply? =
            [(c, payload)] ++ rest.filterMap Message.reply? := rfl
        rw [hmore, ← List.append_assoc] at hsub
        rw [Option.toList_some, List.map_append, ← List.append_assoc]
        exact hsub
  | _ => exact hdropped rfl

theorem replyWire_writeBack (s : RelayEdge) (e : InboundEdge) (bytes : Bytes) :
    ({ s with far := e }.writeBack bytes).replyWire =
      { s.replyWire.write bytes with connected := e.isConnected, writer := e.replyKeystream } := by
  unfold writeBack ReplyWire.write
  have hjoined : s.replyWire.joined = s.fresh.isNone := rfl
  have hended : s.replyWire.ended = s.near.ended := rfl
  rw [hjoined, hended]
  dsimp only
  split
  · simp only [replyWire, List.append_assoc]
  · rfl

theorem replyWire_write (s : RelayEdge) (bytes : Bytes) :
    (s.write bytes).replyWire = s.replyWire := by
  unfold write
  split
  · rename_i hfresh
    simp only [replyWire, hfresh, Option.isNone_some]
  · rfl

theorem Sends.answer (h : Sends key b submitted chosen s) (hr : Recorded d b s) :
    Sends key b submitted chosen s.answer := by
  rcases s.answer_cases with hidle | ⟨m, rest, hh, hm, htaken⟩ | ⟨frame, hc, hh, hwritten⟩
  · rw [hidle]
    exact h
  · rw [htaken]
    exact h.take hr hh hm
  · obtain ⟨onWay, hand, hcarries, hhand, hborn, hsub⟩ := h
    obtain ⟨p, rfl, rfl⟩ : ∃ p, hand = some p ∧ p.frame.outgoing = frame := by
      rw [hh] at hhand
      exact Option.map_eq_some_iff.1 hhand.symm
    obtain ⟨onWay', hcarries', honWay⟩ := hcarries.write hc p.frame
    obtain ⟨parcels, rfl, hparcels⟩ : ∃ parcels : List Parcel, onWay' = parcels.map Parcel.frame ∧
        parcels.Sublist (onWay ++ [p]) := by
      rcases honWay with rfl | rfl
      · exact ⟨onWay ++ [p], by rw [List.map_append, List.map_singleton], List.Sublist.refl _⟩
      · exact ⟨onWay, rfl, List.sublist_append_left _ _⟩
    have hks : (s.far.written p.frame.outgoing).replyKeystream = s.far.replyKeystream.advance :=
      congrArg EdgeCipher.keystream (EdgeCipher.forGeneration_of_eq rfl)
    have hlive : (s.far.written p.frame.outgoing).isConnected = s.replyWire.connected := rfl
    rw [hwritten]
    refine ⟨parcels, none, ?_, ?_, ?_, ?_⟩
    · rw [replyWire_writeBack, hks, hlive]
      exact hcarries'
    · rw [far_writeBack]
      rfl
    · rw [Option.toList_none, List.append_nil]
      exact fun q hq => hborn q (hparcels.subset hq)
    · rw [Option.toList_none, List.append_nil, far_writeBack]
      exact ((List.Sublist.append_left (hparcels.map _) chosen).append_right _).trans hsub

theorem Sends.tearAnswer (h : Sends key b submitted chosen s)
    (hword : ∀ r ∈ submitted, Frame.length r.2.length < 2 ^ 32) (n : Nat) :
    Sends key b submitted chosen (s.tearAnswer n) := by
  unfold RelayEdge.tearAnswer
  split
  · exact h
  rename_i frame hh
  cases hc : s.far.isConnected with
  | false =>
    rw [if_neg nofun]
    exact h
  | true =>
    rw [if_pos rfl]
    obtain ⟨onWay, hand, hcarries, hhand, hborn, hsub⟩ := h
    obtain ⟨p, rfl, rfl⟩ : ∃ p, hand = some p ∧ p.frame.outgoing = frame := by
      rw [hh] at hhand
      exact Option.map_eq_some_iff.1 hhand.symm
    have hmem : p.submitted ∈ submitted := hsub.subset (by simp)
    have hlength : Frame.length p.frame.payload.length < 2 ^ 32 := hword _ hmem
    dsimp only
    refine ⟨onWay, some p, ?_, ?_, hborn, ?_⟩
    · rw [replyWire_writeBack, drop_isConnected]
      exact hcarries.tear hc hlength n _
    · rw [far_writeBack]
      exact hh
    · rw [far_writeBack]
      exact hsub

theorem Sends.drop (h : Sends key b submitted chosen s) :
    Sends key b submitted chosen (s.step .drop) := by
  obtain ⟨onWay, hand, hcarries, hhand, hborn, hsub⟩ := h
  exact ⟨onWay, hand, hcarries.lost rfl (drop_isConnected _) rfl rfl, hhand, hborn, hsub⟩

theorem Sends.accept (h : Sends key b submitted chosen s) (hw : s.Wired key) :
    Sends key b submitted chosen s.accept := by
  obtain ⟨onWay, hand, hcarries, hhand, hborn, hsub⟩ := h
  have hwriter : s.far.accept.replyKeystream = .start key .replies := by
    obtain ⟨-, -, hgeneration⟩ := EdgeConnection.install_of_open hw.farOpen
    rw [InboundEdge.replyKeystream, InboundEdge.accept]
    dsimp only
    rw [hgeneration]
    exact hw.replyWriter.keystream_next
  have hapart (hfresh : s.fresh ≠ none) : s.replyWire.joined = false :=
    Option.isNone_eq_false_iff.2 (Option.isSome_iff_ne_none.2 hfresh)
  unfold RelayEdge.accept
  split
  · rename_i hwaiting
    have hfresh : s.fresh ≠ none := by
      intro hnone
      cases (hw.joined hnone).symm.trans hwaiting
    exact ⟨onWay, hand, hcarries.accept (hapart hfresh) rfl rfl hwriter, hhand, hborn, hsub⟩
  · rename_i hfresh
    exact ⟨onWay, hand, hcarries.accept (hapart (by simp [hfresh])) rfl rfl hwriter, hhand, hborn, hsub⟩
  · exact ⟨onWay, hand, hcarries, hhand, hborn, hsub⟩

theorem Sends.hear (h : Sends key b submitted chosen s) : Sends key b submitted chosen s.hear := by
  unfold RelayEdge.hear
  split
  · exact h
  · rename_i handedOn e r hreceive
    obtain ⟨hsender, -, hconnection, -⟩ := InboundEdge.receiveNext?_wires hreceive
    obtain ⟨-, hinHand, hreplies, -⟩ := InboundEdge.receiveNext?_frame hreceive
    obtain ⟨onWay, hand, hcarries, hhand, hborn, hsub⟩ := h
    refine ⟨onWay, hand, ?_, hinHand.trans hhand, hborn, by rw [hreplies]; exact hsub⟩
    rcases hconnection with hsame | hdown
    · have hwire : { s with far := e, farChannels := r }.replyWire = s.replyWire := by
        simp only [replyWire, InboundEdge.isConnected, InboundEdge.replyKeystream, hsender, hsame]
      rw [hwire]
      exact hcarries
    · refine hcarries.lost rfl ?_ rfl rfl
      simp only [replyWire, InboundEdge.isConnected, hdown, EdgeConnection.isConnected_takeDown]

/-- A reply that is handed on has the payload of a submitted one, with zeros behind a short one. There
is an identifier that was drawn for its channel, and under which the other channel was born. -/
def Routes (d b : List (ChannelId × ChannelId)) (got sent : ChannelId × Bytes) : Prop :=
  got.2 = Frame.padded sent.2 ∧ ∃ edge, (edge, got.1) ∈ d ∧ (edge, sent.1) ∈ b

theorem replyKeystream_recover (hw : s.Wired key) :
    (s.near.recover s.near.connection.generation).replyKeystream = .start key .replies := by
  obtain ⟨c, metrics, hrecover, -, -, hgeneration⟩ := OutboundEdge.recover_of_open hw.live hw.nearOpen
  rw [hrecover, OutboundEdge.replyKeystream]
  dsimp only
  rw [hgeneration]
  exact hw.replyReader.keystream_next

theorem unread_recover (hw : s.Wired key) :
    (s.near.recover s.near.connection.generation).unread = [] := by
  obtain ⟨c, metrics, hrecover, -, -, -⟩ := OutboundEdge.recover_of_open hw.live hw.nearOpen
  rw [hrecover]

theorem Sends.receive (h : Sends key b submitted chosen s) (hw : s.Wired key) (hr : Recorded d b s)
    (hword : ∀ r ∈ submitted, Frame.length r.2.length < 2 ^ 32) :
    ∃ more, List.Forall₂ (Routes d b) (s.enqueuedAt .receive) more ∧
      Sends key b submitted (chosen ++ more) s.receive := by
  obtain ⟨onWay, hand, hcarries, hhand, hborn, hsub⟩ := id h
  have hwords : ∀ f ∈ onWay.map Parcel.frame, Frame.length f.payload.length < 2 ^ 32 := by
    intro f hf
    obtain ⟨p, hp, rfl⟩ := List.mem_map.1 hf
    have hmem : p.submitted ∈ (onWay ++ hand.toList).map Parcel.submitted :=
      List.mem_map_of_mem (List.mem_append_left _ hp)
    exact hword _ (hsub.subset (List.mem_append_left _ (List.mem_append_right _ hmem)))
  have hkinds : ∀ f ∈ onWay.map Parcel.frame, f.kind = .reply := by
    intro f hf
    obtain ⟨p, -, rfl⟩ := List.mem_map.1 hf
    rfl
  rcases receive_reply_cases hw hcarries hwords hkinds with
    ⟨hnone, hidle | ⟨ks, metrics, rest, r, hpassed, hredial⟩⟩ |
      ⟨f, more, metrics, behind, r, hsplit, henqueued, hreceive, hcarries'⟩
  · refine ⟨[], by rw [hnone]; exact .nil, ?_⟩
    rw [List.append_nil, hidle]
    exact h
  · refine ⟨[], by rw [hnone]; exact .nil, ?_⟩
    rw [List.append_nil, hredial]
    exact h.dialled nofun (replyKeystream_recover hpassed) (unread_recover hpassed) rfl rfl rfl
  · obtain ⟨p, parcels, rfl, rfl, rfl⟩ := List.map_eq_cons_iff.1 hsplit
    have hborn' : ∀ q ∈ parcels ++ hand.toList, (q.edge, q.channel) ∈ b := fun q hq =>
      hborn q (List.mem_cons_of_mem p hq)
    have hrest : Sends key b submitted chosen s.receive ∧
        Sends key b submitted (chosen ++ [p.submitted]) s.receive := by
      refine ⟨⟨parcels, hand, hcarries', ?_, hborn', ?_⟩, parcels, hand, hcarries', ?_, hborn', ?_⟩
      · rw [hreceive]
        exact hhand
      · rw [hreceive]
        refine List.Sublist.trans (List.Sublist.append_right (List.Sublist.append_left ?_ chosen) _) hsub
        exact List.sublist_cons_self _ _
      · rw [hreceive]
        exact hhand
      · rw [hreceive, List.append_assoc chosen]
        exact hsub
    rcases henqueued with hnone | ⟨c, hc, hsome⟩
    · refine ⟨[], by rw [hnone]; exact .nil, ?_⟩
      rw [List.append_nil]
      exact hrest.1
    · refine ⟨[p.submitted], ?_, hrest.2⟩
      rw [hsome]
      have hedge : (p.edge, c) ∈ d := hr.near (EdgeIdTable.mem_of_localId? hc)
      exact .cons ⟨rfl, p.edge, hedge, hborn p List.mem_cons_self⟩ .nil

theorem Sends.tear (h : Sends key b submitted chosen s) (hw : s.Wired key) (n : Nat) :
    Sends key b submitted chosen (s.tear n) := by
  unfold RelayEdge.tear
  split
  · exact h
  · have htorn : { s with near := { s.near with
        sender := ⟨s.near.requestKeystream.advance, s.near.connection.generation⟩ } }.Wired key :=
      { hw with requestWriter := hw.requestWriter.advance }
    dsimp only
    rw [EdgeCipher.encode_snd]
    refine h.dialled nofun ?_ ?_ rfl ?_ ?_
    · rw [redial, near_write]
      exact replyKeystream_recover htorn
    · rw [redial, near_write]
      exact unread_recover htorn
    · rw [redial, far_write]
    · rw [redial, far_write]

theorem Sends.send (h : Sends key b submitted chosen s) (hw : s.Wired key) :
    Sends key b submitted chosen s.send := by
  rcases send_cases hw.live with ⟨-, -, hidle⟩ | ⟨m, rest, -, -, htaken⟩ | ⟨out, -, hwritten⟩
  · rw [hidle]
    exact h
  · rw [htaken]
    exact h.of_same rfl rfl rfl
  · rw [hwritten]
    refine h.of_same ?_ ?_ ?_
    · rw [replyWire_write]
      rfl
    · rw [far_write]
    · rw [far_write]

theorem Sends.bring (h : Sends key b submitted chosen s) (hw : s.Wired key) (n : Nat) :
    Sends key b submitted chosen (s.step (.bring n)) := by
  have harrive : s.near.arrive (s.back.take n) =
      { s.near with unread := s.near.unread ++ s.back.take n } := if_pos hw.live
  refine h.of_same ?_ rfl rfl
  rw [step, harrive, replyWire, replyWire]
  dsimp only
  rw [List.append_assoc, List.take_append_drop]
  rfl

theorem Sends.finish (h : Sends key b submitted chosen s) (hw : s.Wired key) :
    Sends key b submitted chosen (s.step .finish) := by
  have hfinish : s.near.finish = { s.near with ended := true } := if_pos hw.live
  obtain ⟨onWay, hand, hcarries, hhand, hborn, hsub⟩ := h
  refine ⟨onWay, hand, ?_, hhand, hborn, hsub⟩
  have hwire : (s.step .finish).replyWire =
      { s.replyWire with ended := true, coming := s.near.unread } := by
    rw [step, hfinish, replyWire, replyWire]
    dsimp only
    rw [List.append_nil]
    rfl
  rw [hwire]
  exact hcarries.finish rfl

/-- One step may submit a reply, and may hand one on that was submitted before. -/
theorem Sends.step (h : Sends key b submitted chosen s) (hw : s.Wired key) (hr : Recorded d b s)
    (hword : ∀ r ∈ submitted, Frame.length r.2.length < 2 ^ 32) (e : RelayEdgeEvent) :
    ∃ more, List.Forall₂ (Routes d b) (s.enqueuedAt e) more ∧
      Sends key b (submitted ++ e.reply?.toList) (chosen ++ more) (s.step e) := by
  have hquiet (henqueued : s.enqueuedAt e = []) (hsubmitted : e.reply? = none)
      (hstep : Sends key b submitted chosen (s.step e)) :
      ∃ more, List.Forall₂ (Routes d b) (s.enqueuedAt e) more ∧
        Sends key b (submitted ++ e.reply?.toList) (chosen ++ more) (s.step e) := by
    refine ⟨[], by rw [henqueued]; exact .nil, ?_⟩
    rw [hsubmitted, Option.toList_none, List.append_nil, List.append_nil]
    exact hstep
  cases e with
  | reply m =>
    refine ⟨[], .nil, ?_⟩
    rw [List.append_nil]
    exact h.submit m
  | receive =>
    have hnone : RelayEdgeEvent.receive.reply?.toList = [] := rfl
    rw [hnone, List.append_nil]
    exact h.receive hw hr hword
  | send => exact hquiet rfl rfl (h.send hw)
  | tear n => exact hquiet rfl rfl (h.tear hw n)
  | hear => exact hquiet rfl rfl h.hear
  | accept => exact hquiet rfl rfl (h.accept hw)
  | drop => exact hquiet rfl rfl h.drop
  | answer => exact hquiet rfl rfl (h.answer hr)
  | tearAnswer n => exact hquiet rfl rfl (h.tearAnswer hword n)
  | bring n => exact hquiet rfl rfl (h.bring hw n)
  | finish => exact hquiet rfl rfl (h.finish hw)
  | deliver n =>
    refine hquiet rfl rfl ?_
    rw [RelayEdge.step]
    unfold InboundEdge.arrive
    split
    · exact h.of_same rfl rfl rfl
    · exact h.of_same rfl rfl rfl
  | hangUp =>
    refine hquiet rfl rfl ?_
    rw [RelayEdge.step]
    split
    · unfold InboundEdge.finish
      split
      · exact h.of_same rfl rfl rfl
      · exact h.of_same rfl rfl rfl
    · exact h
  | request | nearChannels | farChannels => exact hquiet rfl rfl (h.of_same rfl rfl rfl)

end RelayEdge
end MixRelay
