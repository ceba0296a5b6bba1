import MixRelay.Proofs.EdgeMirror

/-!
# The two ends of an edge agree

Once all frames that the near relay has written are received, both relays have the same identifiers on
the edge. Each channel of the near relay has had one channel of the far relay, under which its requests
were handed on as they are.
-/
namespace MixRelay
namespace RelayEdge

/-- What else the far relay does keeps its channels and what it knows of their requests. -/
def KeepsSlots (s : RelayEdge) : RelayEdgeEvent → Prop
  | .farChannels r => r.slots = s.farChannels.slots
  | _ => True

/-- As long as the frames that were received are the first of those that were made, the far relay
mirrors the names that the near relay had given when it made the last of them. -/
structure Agreeing (c : RelayEdgeSettings) (handed : List Message) (framed : List (Message × TypedFrame))
    (heard : List Hearing) (s : RelayEdge) : Prop where
  delivers : s.Delivers c.key handed framed heard
  naming : s.Naming handed framed
  settings : s.far.settings = c.inbound
  mirrors : ∃ read, heard.length = read.length ∧ Underway c.key (framed.map Prod.snd) read s ∧
    (read <+: framed.map Prod.snd →
      ∃ far, Mirrors c.inbound.isLast (framed.take read.length) heard far s.farState)

variable {s : RelayEdge} {c : RelayEdgeSettings} {handed : List Message}
  {framed : List (Message × TypedFrame)} {heard : List Hearing}

theorem agreeing_start (c : RelayEdgeSettings) : (start c).Agreeing c [] [] [] where
  delivers := delivers_start c
  naming := naming_start c
  settings := rfl
  mirrors := ⟨[], rfl, underway_start c, fun _ => ⟨id, .start _ _ _ _ _ rfl rfl⟩⟩

theorem heardAt_of_ne {e : RelayEdgeEvent} (h : e ≠ .hear) : s.heardAt e = [] := by
  cases e with
  | hear => exact absurd rfl h
  | _ => rfl

/-- Nothing but its receiver changes what the far relay knows. -/
theorem mirrors_of_ne {isLast : Bool} {far : ChannelId → ChannelId}
    (h : Mirrors isLast framed heard far s.farState) {e : RelayEdgeEvent} (he : e ≠ .hear)
    (hkeeps : s.KeepsSlots e) : Mirrors isLast framed heard far (s.step e).farState := by
  obtain ⟨-, htable, -, hfaults⟩ := s.far_step he
  have hslots : (s.step e).farChannels.slots = s.farChannels.slots := by
    cases e with
    | farChannels r => exact hkeeps
    | _ => rw [s.farChannels_step he nofun]
  exact {
    table := (congrArg EdgeIdTable.pairs htable).trans h.table
    slots := hslots.trans h.slots
    apart := h.apart
    answers := h.answers
    faults := hfaults.trans h.faults }

/-- The frame that comes next is the one that was made next. -/
theorem Agreeing.hear (h : s.Agreeing c handed framed heard) (honce : (established handed).Nodup)
    (hfit : ∀ m ∈ handed, m.Fits c.inbound.framing)
    (hword : ∀ f ∈ framed.map Prod.snd, Frame.length f.payload.length < 2 ^ 32) :
    ∃ read, (heard ++ s.heardAt .hear).length = read.length ∧
      Underway c.key (framed.map Prod.snd) read s.hear ∧ (read <+: framed.map Prod.snd →
        ∃ far, Mirrors c.inbound.isLast (framed.take read.length) (heard ++ s.heardAt .hear) far
          s.hear.farState) := by
  obtain ⟨read, hlength, hunder, hmirrors⟩ := h.mirrors
  rcases hunder.hear_cases hword with
    ⟨hnone, hstate, -, hsame⟩ | ⟨f, t, handedOn, hserves, hheard, hstate, -, hread⟩
  · refine ⟨read, ?_, hsame, ?_⟩
    · rw [hnone, List.append_nil]
      exact hlength
    · rw [hnone, List.append_nil, hstate]
      exact hmirrors
  · rw [hheard, hstate]
    refine ⟨read ++ [f], ?_, hread, fun hprefix => ?_⟩
    · rw [List.length_append, List.length_append, hlength]
      rfl
    · obtain ⟨far, hmirror⟩ := hmirrors ((List.prefix_append read [f]).trans hprefix)
      obtain ⟨rest, hrest⟩ := hprefix
      obtain ⟨front, behind, rfl, hfront, -⟩ := List.map_eq_append_iff.1 hrest.symm
      obtain ⟨before, last, rfl, rfl, hlast⟩ := List.map_eq_append_iff.1 hfront
      obtain ⟨⟨m, g⟩, rfl, rfl⟩ := List.map_eq_singleton_iff.1 hlast
      have htaken := h.delivers.taken
      rw [List.map_append, List.append_assoc] at htaken
      have hsub : ((before ++ [(m, g)]).map Prod.fst).Sublist handed :=
        (List.sublist_append_left _ _).trans htaken
      have hlastMem : (m, g) ∈ [(m, g)] := List.mem_singleton_self _
      obtain ⟨hkind, hpayload, -⟩ := h.delivers.frames (m, g)
        (List.mem_append_left _ (List.mem_append_right _ hlastMem))
      rw [List.length_map, List.append_assoc, List.take_left] at hmirror
      rw [h.settings] at hserves
      have hnext := hmirror.serve (along_append.1 h.naming.names).1
        (honce.sublist (hsub.filterMap _)) hkind hpayload
        (hfit m (hsub.subset (List.mem_map.2 ⟨_, List.mem_append_right _ hlastMem, rfl⟩))) hserves
      have hlength : (before.map Prod.snd ++ [(m, g)].map Prod.snd).length =
          (before ++ [(m, g)]).length := by
        rw [← List.map_append, List.length_map]
      rw [← hlast, hlength, List.take_left]
      exact hnext

theorem word_of_fits (hfit : ∀ m ∈ handed, m.Fits c.inbound.framing)
    (hbound : ∀ k n, c.inbound.framing.inbound? k = some n → Frame.length n < 2 ^ 32) :
    ∀ m ∈ handed, m.kind ≠ .reply → Frame.length m.payload.length < 2 ^ 32 := by
  intro m hm hkind
  cases m with
  | establish d payload =>
    have hlength : payload.length = c.inbound.framing.establishLength := hfit _ hm _ rfl
    rw [Message.payload, hlength]
    exact hbound .establish _ rfl
  | message d payload =>
    have hlength : payload.length = c.inbound.framing.messageLength := hfit _ hm _ rfl
    rw [Message.payload, hlength]
    exact hbound .message _ rfl
  | release d => exact (by decide : Frame.length 0 < 2 ^ 32)
  | batchSize n => exact (by decide : Frame.length 0 < 2 ^ 32)
  | reply d payload => exact absurd rfl hkind

/-- Events other than receiving leave the frames that were received and what came of them. -/
theorem Agreeing.mirrors_step (h : s.Agreeing c handed framed heard) {e : RelayEdgeEvent}
    (he : e ≠ .hear) (hkeeps : s.KeepsSlots e)
    (hword : ∀ f ∈ framed.map Prod.snd, Frame.length f.payload.length < 2 ^ 32) :
    ∃ read, heard.length = read.length ∧
      Underway c.key ((framed ++ s.framedAt e).map Prod.snd) read (s.step e) ∧
      (read <+: (framed ++ s.framedAt e).map Prod.snd →
        ∃ far, Mirrors c.inbound.isLast ((framed ++ s.framedAt e).take read.length) heard far
          (s.step e).farState) := by
  obtain ⟨read, hlength, hunder, hmirrors⟩ := h.mirrors
  have hle : read.length ≤ framed.length := by
    have hread := hunder.read_sublist.length_le
    rwa [List.length_map] at hread
  obtain ⟨more, hmore, hnext⟩ := hunder.step h.delivers.wired hword e
  rw [heardAt_of_ne he] at hmore
  cases hmore
  rw [List.append_nil, ← List.map_append] at hnext
  refine ⟨read, hlength, hnext, fun hprefix => ?_⟩
  rw [List.take_append_of_le_length hle]
  rw [List.map_append] at hprefix
  have hfront : read <+: framed.map Prod.snd := by
    refine List.prefix_of_prefix_length_le hprefix (List.prefix_append _ _) ?_
    rwa [List.length_map]
  obtain ⟨far, hmirror⟩ := hmirrors hfront
  exact ⟨far, mirrors_of_ne hmirror he hkeeps⟩

theorem Agreeing.step (h : s.Agreeing c handed framed heard) (honce : (established handed).Nodup)
    (hfit : ∀ m ∈ handed, m.Fits c.inbound.framing)
    (hbound : ∀ k n, c.inbound.framing.inbound? k = some n → Frame.length n < 2 ^ 32)
    {e : RelayEdgeEvent} (hkeeps : s.KeepsSlots e) :
    (s.step e).Agreeing c (handed ++ e.request?.toList) (framed ++ s.framedAt e)
      (heard ++ s.heardAt e) := by
  have hword := word_of_fits hfit hbound
  refine ⟨h.delivers.step hword e, h.naming.step h.delivers.wired honce e, ?_, ?_⟩
  · by_cases he : e = .hear
    · subst he
      obtain ⟨read, -, hunder, -⟩ := h.mirrors
      rcases hunder.hear_cases (h.delivers.word hword) with
        ⟨-, -, hsettings, -⟩ | ⟨f, t, handedOn, -, -, -, hsettings, -⟩
      · exact hsettings.trans h.settings
      · exact hsettings.trans h.settings
    · exact (s.far_step he).1.trans h.settings
  · by_cases he : e = .hear
    · subst he
      have hnone : s.framedAt .hear = [] := rfl
      rw [hnone, List.append_nil]
      exact h.hear honce hfit (h.delivers.word hword)
    · rw [heardAt_of_ne he, List.append_nil]
      exact h.mirrors_step he hkeeps (h.delivers.word hword)

theorem agreeing_run (c : RelayEdgeSettings) (events : List RelayEdgeEvent)
    (honce : (established (requestsOf events)).Nodup)
    (hfit : ∀ m ∈ requestsOf events, m.Fits c.inbound.framing)
    (hbound : ∀ k n, c.inbound.framing.inbound? k = some n → Frame.length n < 2 ^ 32)
    (hkeeps : Along step KeepsSlots (start c) events) :
    (events.foldl step (start c)).Agreeing c (requestsOf events) (framedIn c events)
      (heardIn c events) := by
  induction events using List.reverseRecOn with
  | nil => exact agreeing_start c
  | append_singleton events e ih =>
    rw [requestsOf_concat] at honce hfit ⊢
    rw [established_append] at honce
    obtain ⟨hbefore, hkeep, -⟩ := along_append.1 hkeeps
    have hfits : ∀ m ∈ requestsOf events, m.Fits c.inbound.framing :=
      fun m hm => hfit m (List.mem_append_left _ hm)
    rw [framedIn_concat, heardIn_concat, List.foldl_append]
    exact (ih honce.of_append_left hfits hbefore).step honce.of_append_left hfits hbound hkeep

/-- What the two relays agree on after some frames, which are all received: the identifiers, and one
channel `far d` for each channel `d` that was open. Each request came out as `answered` says. -/
structure EndsAgree (c : RelayEdgeSettings) (framed : List (Message × TypedFrame)) (heard : List Hearing)
    (far : ChannelId → ChannelId) (s : RelayEdge) : Prop where
  edges : ∀ edge, s.near.table.containsEdge edge = s.far.table.containsEdge edge
  faults : s.far.metrics.protocolFaults = (heard.filter Hearing.refused).length
  answers : heard.map (fun h => (h.handedOn, h.refused)) =
    outputs sentAfter (answered c.inbound.isLast far) [] (framed.map Prod.fst)
  apart : ∀ front, front <+: framed.map Prod.fst → ∀ d ∈ front.foldl openAfter [],
    ∀ e ∈ front.foldl openAfter [], far d = far e → d = e

/-- The ends agree whenever all that was written is received. The frames are those of the requests that
the sender has taken up, but for messages and releases of channels that are not open. -/
theorem ends_agree (c : RelayEdgeSettings) (events : List RelayEdgeEvent)
    (honce : (established (requestsOf events)).Nodup)
    (hfit : ∀ m ∈ requestsOf events, m.Fits c.inbound.framing)
    (hbound : ∀ k n, c.inbound.framing.inbound? k = some n → Frame.length n < 2 ^ 32)
    (hkeeps : Along step KeepsSlots (start c) events)
    (hwritten : (events.foldl step (start c)).near.inHand = none)
    (hreceived : (heardIn c events).length = (framedIn c events).length) :
    (∃ far, EndsAgree c (framedIn c events) (heardIn c events) far (events.foldl step (start c))) ∧
      ∃ taken, requestsOf events = taken ++ (events.foldl step (start c)).near.requests ∧
        (framedIn c events).map Prod.fst = outputs openAfter carried [] taken := by
  have hrun := agreeing_run c events honce hfit hbound hkeeps
  obtain ⟨taken, hhanded, hframed, -⟩ := hrun.naming.taken
  refine ⟨?_, taken, hhanded, hframed⟩
  obtain ⟨read, hlength, hunder, hmirrors⟩ := hrun.mirrors
  have hall : read.length = (framedIn c events).length := hlength.symm.trans hreceived
  have hread : read = (framedIn c events).map Prod.snd :=
    hunder.read_sublist.eq_of_length (hall.trans (List.length_map _).symm)
  obtain ⟨far, hmirror⟩ := hmirrors (hread ▸ List.prefix_refl _)
  rw [hall, List.take_length] at hmirror
  have hnear : (events.foldl step (start c)).near.table.pairs = (framedIn c events).foldl named [] := by
    have htable := hrun.naming.table
    rw [hwritten] at htable
    exact htable
  refine ⟨far, fun edge => Bool.eq_iff_iff.2 ?_, hmirror.faults, hmirror.answers, hmirror.apart⟩
  rw [EdgeIdTable.containsEdge_iff, EdgeIdTable.containsEdge_iff, hnear, ← hmirror.edges_eq]
  rfl

/-- A frame that is all there is received. -/
theorem heardAt_of_arrived (hc : s.far.isConnected = true) {f : TypedFrame} {behind : Bytes}
    (hmax : Frame.length f.payload.length ≤ s.far.settings.maxFrameLength)
    (hword : Frame.length f.payload.length < 2 ^ 32)
    (hunread : s.far.unread =
      (Frame.encode s.far.requestKeystream f.header f.payload).1 ++ behind) :
    ∃ x, s.heardAt .hear = [x] := by
  have hleads : TypedFrame.Leads s.far.settings.maxFrameLength s.far.requestKeystream s.far.unread f
      behind := by
    rw [hunread, Frame.encode_eq, List.append_assoc]
    exact Frame.readHead_head hmax hword _
  obtain ⟨t, handedOn, hreceive, -⟩ := InboundEdge.receiveNext?_of_leads hc s.farChannels hleads
  rw [heardAt, InboundEdge.heard?, hreceive, hleads.next?]
  exact ⟨_, rfl⟩

def openingSettings : RelayEdgeSettings where
  maxFrameLength := 64
  inbound := ⟨⟨0, 2, 2, 0⟩, 64, false⟩
  key := ⟨Block.ofNat 1, Block.ofNat 2⟩
  nearDraws := .ofList [5]
  farDraws := .ofList [9]
  proxyCapacity := 16

/-- An establish frame is written, and all of it arrives. -/
def arrivalEvents : List RelayEdgeEvent :=
  [.request (.establish 7 [1, 2]), .send, .send, .accept, .deliver 20]

def openingEvents : List RelayEdgeEvent := arrivalEvents ++ [.hear]

theorem heard_opening : (heardIn openingSettings openingEvents).length = 1 := by
  let bytes := (Frame.encode (.start openingSettings.key .requests) ⟨1, 5⟩ [1, 2]).1
  have hline : (arrivalEvents.foldl step (start openingSettings)).far.unread = bytes.take 20 := rfl
  have hhead : bytes = Frame.head (.start openingSettings.key .requests) ⟨1, 5⟩ [1, 2] ++ [] := rfl
  have hbytes : bytes.take 20 = bytes ++ [] := by
    rw [hhead, List.append_nil, List.append_nil, List.take_of_length_le]
    exact Nat.le_of_eq (Frame.length_head _ _ _)
  obtain ⟨x, hx⟩ := heardAt_of_arrived (s := arrivalEvents.foldl step (start openingSettings))
    (f := ⟨.establish, 5, [1, 2]⟩) rfl (by decide) (by decide) (hline.trans hbytes)
  have hfront : outputs step heardAt (start openingSettings) arrivalEvents = [] := rfl
  rw [openingEvents, heardIn_concat, heardIn, hfront, List.nil_append, hx]
  rfl

theorem ends_agree_opening :
    (∃ far, EndsAgree openingSettings [(.establish 7 [1, 2], ⟨.establish, 5, [1, 2]⟩)]
      (heardIn openingSettings openingEvents) far
      (openingEvents.foldl step (start openingSettings))) ∧
      ∃ taken, [.establish 7 [1, 2]] =
        taken ++ (openingEvents.foldl step (start openingSettings)).near.requests ∧
        [.establish 7 [1, 2]] = outputs openAfter carried [] taken := by
  have hframed : framedIn openingSettings openingEvents =
      [(.establish 7 [1, 2], ⟨.establish, 5, [1, 2]⟩)] := rfl
  have hwired : (arrivalEvents.foldl step (start openingSettings)).Wired openingSettings.key :=
    foldl_invariant (fun _ e h => h.step e) arrivalEvents (wired_start openingSettings)
  have hwritten : (openingEvents.foldl step (start openingSettings)).near.inHand = none := by
    rw [openingEvents, List.foldl_append, List.foldl_cons, List.foldl_nil,
      (near_step hwired (e := .hear) nofun).2.2.1]
    rfl
  have hfit : ∀ m ∈ requestsOf openingEvents, m.Fits openingSettings.inbound.framing := by
    intro m hm n hn
    rw [List.mem_singleton.1 hm] at hn ⊢
    exact Option.some.inj hn
  have hbound : ∀ k n, openingSettings.inbound.framing.inbound? k = some n →
      Frame.length n < 2 ^ 32 := by
    intro k n hn
    cases k with
    | establish | message => exact Option.some.inj hn ▸ (by decide)
    | _ => cases hn
  have hagree := ends_agree openingSettings openingEvents (by decide) hfit hbound
    (by simp [openingEvents, arrivalEvents, Along, KeepsSlots]) hwritten
    (by rw [heard_opening, hframed]; rfl)
  rw [hframed] at hagree
  exact hagree

end RelayEdge
end MixRelay
