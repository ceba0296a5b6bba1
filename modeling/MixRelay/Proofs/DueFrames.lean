import MixRelay.Proofs.ReadingProgress
import MixRelay.RelaySettings

/-!
# Clients that send what is due

A client that sends only frames of the lengths that are due is served to its last frame, however its bytes
are cut, if requests have some bytes. Valid settings do not ask for that: where they leave neither headers
nor a base, the frame that is due is empty, no read ever completes it, and the next byte of the client
reads like its end.
-/
namespace MixRelay

/-- Payloads of the lengths that are due one after the other, each of which a length word can announce. -/
def PayloadFraming.Due (f : PayloadFraming) : Bool → List Bytes → Prop
  | _, [] => True
  | established, payload :: more =>
    payload.length = f.requestLength established ∧ payload.length < 2 ^ 32 ∧ f.Due true more

/-- The frames of a client, one behind the other. -/
def clientFrames (payloads : List Bytes) : Bytes := payloads.flatMap Frame.encodeClient

/-- Frames of every length that is due are within the limit. -/
def StreamLimits.Roomy (limits : StreamLimits) : Prop :=
  ∀ established, limits.framing.requestLength established ≤ limits.maxFrameLength

section Readings
variable {limits : StreamLimits} {established : Bool} {payloads : List Bytes} {bytes more : Bytes}

instance PayloadFraming.Due.instDecidable (f : PayloadFraming) :
    ∀ established payloads, Decidable (f.Due established payloads)
  | _, [] => .isTrue trivial
  | established, payload :: more =>
    let _ := instDecidable f true more
    inferInstanceAs (Decidable (payload.length = f.requestLength established ∧
      payload.length < 2 ^ 32 ∧ f.Due true more))

theorem clientFrames_cons (payload : Bytes) (payloads : List Bytes) :
    clientFrames (payload :: payloads) = Frame.encodeClient payload ++ clientFrames payloads :=
  List.flatMap_cons

theorem PayloadFraming.Due.take {f : PayloadFraming} (h : f.Due established payloads) (k : Nat) :
    f.Due established (payloads.take k) := by
  induction payloads generalizing established k with
  | nil => rwa [List.take_nil]
  | cons payload payloads ih =>
    cases k with
    | zero => exact trivial
    | succ k => exact ⟨h.1, h.2.1, ih h.2.2 k⟩

/-- Frames that are due and all there are taken, each with its payload. -/
theorem reading_clientFrames_append (hroom : limits.Roomy) (h : limits.framing.Due established payloads)
    (more : Bytes) : ∃ later, reading limits established (clientFrames payloads ++ more) =
      (reading limits later more).behind payloads 0 := by
  induction payloads generalizing established with
  | nil => exact ⟨established, (Reading.behind_nil _).symm⟩
  | cons payload payloads ih =>
    obtain ⟨hdue, hword, hrest⟩ := h
    obtain ⟨later, hlater⟩ := ih hrest
    refine ⟨later, ?_⟩
    rw [clientFrames_cons, List.append_assoc, reading_encodeClient (hdue ▸ hroom established) hword,
      if_pos hdue, hlater, Reading.behind_behind]
    rfl

/-- The front of a frame that is due breaks off without a fault. -/
theorem reading_of_broken {payload : Bytes} (hroom : limits.Roomy)
    (hdue : payload.length = limits.framing.requestLength established) (hword : payload.length < 2 ^ 32)
    (h : bytes <+: Frame.encodeClient payload) (hshort : bytes.length < 4 + payload.length) :
    reading limits established bytes = ⟨[], 0, .within established bytes⟩ ∧
      (ReadingEnd.within established bytes).faults limits = 0 := by
  obtain ⟨rest, hrest⟩ := h
  have hannounced (hfour : 4 ≤ bytes.length) : announcedLength bytes = payload.length := by
    rw [← announcedLength_append hfour rest, hrest, announcedLength, Frame.encodeClient,
      List.take_left' (Bytes.length_ofWord _), Bytes.toNat_ofWord_of_lt hword]
  have hincomplete : Incomplete limits bytes := by
    by_cases hfour : 4 ≤ bytes.length
    · rw [Incomplete, hannounced hfour]
      exact .inr ⟨hdue ▸ hroom established, hshort⟩
    · exact .inl (Nat.lt_of_not_le hfour)
  refine ⟨reading_of_incomplete hincomplete established, if_neg ?_⟩
  rintro ⟨hfour, hother⟩
  exact hother ((hannounced hfour).trans hdue)

/-- What has come of frames that are due is read as their payloads, one after the other, with no fault. -/
theorem reading_of_due (hroom : limits.Roomy) (h : limits.framing.Due established payloads)
    (hbytes : bytes <+: clientFrames payloads) :
    (reading limits established bytes).payloads <+: payloads ∧
      (reading limits established bytes).faults limits = 0 ∧
      ∀ n, (reading limits established bytes).ending ≠ .tooLong n := by
  induction payloads generalizing established bytes with
  | nil =>
    obtain rfl := List.prefix_nil.1 hbytes
    rw [reading_of_incomplete (.inl (by decide))]
    exact ⟨List.nil_prefix, rfl, fun _ => ReadingEnd.noConfusion⟩
  | cons payload payloads ih =>
    obtain ⟨hdue, hword, hrest⟩ := h
    rw [clientFrames_cons] at hbytes
    have hlength : (Frame.encodeClient payload).length = 4 + payload.length := by
      rw [Frame.encodeClient, List.length_append, Bytes.length_ofWord]
    by_cases hshort : bytes.length < 4 + payload.length
    · have hfront : bytes <+: Frame.encodeClient payload :=
        List.prefix_of_prefix_length_le hbytes (List.prefix_append _ _) (by omega)
      obtain ⟨hreading, hfaults⟩ := reading_of_broken hroom hdue hword hfront hshort
      rw [hreading, Reading.faults, hfaults]
      exact ⟨List.nil_prefix, rfl, fun _ => ReadingEnd.noConfusion⟩
    · obtain ⟨more, rfl⟩ : Frame.encodeClient payload <+: bytes :=
        List.prefix_of_prefix_length_le (List.prefix_append _ _) hbytes (by omega)
      obtain ⟨hpayloads, hfaults, hending⟩ := ih hrest ((List.prefix_append_right_inj _).1 hbytes)
      rw [reading_encodeClient (hdue ▸ hroom established) hword, if_pos hdue]
      refine ⟨List.prefix_cons_inj payload |>.2 hpayloads, ?_, hending⟩
      rw [Reading.faults] at hfaults ⊢
      rw [Reading.behind, Nat.zero_add]
      exact hfaults

/-- Frames that have come as a whole have their payloads read. -/
theorem length_le_of_frames (hroom : limits.Roomy) (h : limits.framing.Due established payloads)
    (hbytes : clientFrames payloads <+: bytes) :
    payloads.length ≤ (reading limits established bytes).payloads.length := by
  obtain ⟨more, rfl⟩ := hbytes
  obtain ⟨later, hreading⟩ := reading_clientFrames_append hroom h more
  rw [hreading, Reading.behind]
  exact (List.prefix_append payloads _).length_le

/-- Where some request is due without bytes, a client that sends what is due comes to it. -/
theorem StreamLimits.exists_empty_due (hzero : ¬ limits.Positive)
    (hword : limits.framing.establishLength < 2 ^ 32) :
    ∃ payloads, limits.framing.Due false payloads ∧ [] ∈ payloads := by
  obtain ⟨established, hlength⟩ := not_forall.1 hzero
  have hnone : limits.framing.requestLength established = 0 := Nat.eq_zero_of_not_pos hlength
  cases established with
  | false => exact ⟨[[]], ⟨hnone.symm, by decide, trivial⟩, List.mem_singleton_self _⟩
  | true =>
    have hestablish : (List.replicate limits.framing.establishLength (0 : UInt8)).length =
        limits.framing.establishLength := List.length_replicate
    refine ⟨[List.replicate limits.framing.establishLength 0, []], ⟨hestablish, ?_, ?_⟩, by simp⟩
    · rwa [hestablish]
    · exact ⟨hnone.symm, by decide, trivial⟩

end Readings

namespace ClientListener
variable {first : ClientListener} {front back : List ListenerEvent}

open Finset in
/-- What a run has come to for a client that has sent some of the frames with these payloads: as many of
its requests are handed on, in their order, as it has sent by some point and rounds have closed since; it
is connected until its stream ends; and the faults counted are those of the other clients. -/
structure ServesDue (first : ClientListener) (events : List ListenerEvent) (token : Nat)
    (payloads : List Bytes) (id : ChannelId) : Prop where
  channel : ∀ c, (events.foldl next first).connection? token = some c → c.channel = id
  requests : first.requestsAlong token events <+: requestsOf id false payloads
  handedOn : ∀ front back k, events = front ++ back →
    clientFrames (payloads.take k) <+: first.sentAlong token front →
    k ≤ (first.requestsAlong token front).length + back.count .closeRound →
    requestsOf id false (payloads.take k) <+: first.requestsAlong token events
  stays : token < (events.foldl next first).nextToken → ¬ first.EndsAlong token events →
    ((events.foldl next first).connection? token).isSome
  faults : (events.foldl next first).metrics.protocolFaults =
    ∑ t ∈ (range (events.foldl next first).nextToken).erase token,
      (reading first.settings.limits false
        ((events.foldl next first).consumed t (first.sentAlong t events))).faults first.settings.limits

/-- Every client that sends only frames that are due is served. -/
def ServesDueClients (first : ClientListener) : Prop :=
  ∀ events, Along next Fit first events → ∀ token payloads,
    first.settings.limits.framing.Due false payloads →
    first.sentAlong token events <+: clientFrames payloads →
    ∃ id, first.ServesDue events token payloads id

section Served

/-- As many requests of a client are handed on as it had sent in the front of a run and rounds close in the
back. -/
theorem length_le_of_closings {ended : Nat → Prop} (hpos : first.settings.limits.Positive)
    (hstart : first.Serves (fun _ => []) (fun _ => []) ended)
    (hfit : Along next Fit first (front ++ back))
    (hends : ∀ t, first.EndsAlong t (front ++ back) → ended t) (token : Nat) :
    min ((first.requestsAlong token front).length + back.count .closeRound)
        (reading first.settings.limits false (first.sentAlong token front)).payloads.length ≤
      (first.requestsAlong token (front ++ back)).length := by
  obtain ⟨hfront, hback⟩ := along_append.1 hfit
  obtain ⟨hserves, hsettings⟩ := serves_run hpos hstart hfront fun t hend => hends t (hend.append back)
  have hprogress :=
    progress_run (hsettings ▸ hpos) hserves hback (fun t hend => hends t hend.of_append) token
  rw [hsettings] at hprogress
  have hboth : first.requestsAlong token (front ++ back) =
      first.requestsAlong token front ++ (front.foldl next first).requestsAlong token back :=
    outputs_append _ _ _ _
  rw [hboth, List.length_append]
  exact hprogress

/-- Where every request has some bytes and its frame is within the limit, such clients are served. -/
theorem servesDueClients {settings : ListenerSettings} (hpos : settings.limits.Positive)
    (hroom : settings.limits.Roomy) (limiter : ConnectionLimiter) (registry : ChannelRegistry)
    (draws : Draws) : (start settings limiter registry draws).ServesDueClients := by
  intro events hfit token payloads hdue hsent
  let first := start settings limiter registry draws
  let ended (t : Nat) : Prop := first.EndsAlong t events
  have hstart : first.Serves (fun _ => []) (fun _ => []) ended :=
    ⟨keeps_start settings limiter registry draws, rfl, fun t c hc => by
      have hnone : first.connection? t = none := rfl
      cases hnone.symm.trans hc⟩
  obtain ⟨hserves, hsettings⟩ := serves_run hpos hstart hfit fun _ hend => hend
  simp only [List.nil_append] at hserves
  have hlimits : (events.foldl next first).settings = settings := hsettings
  obtain ⟨id, hserved⟩ := hserves.served token
  have hread := reading_of_due hroom hdue hsent
  have hrequests : first.requestsAlong token events <+: requestsOf id false payloads := by
    have hgiven := hserved.given_prefix
    rw [hlimits] at hgiven
    exact hgiven.trans (requestsOf_isPrefix hread.1 id false)
  refine ⟨id, fun c hc => (hserved.connected c hc).1, hrequests, ?_, fun hearlier hopen => ?_, ?_⟩
  · rintro front back k rfl hframes hclosings
    have hpast := length_le_of_closings hpos hstart hfit (fun _ hend => hend) token
    have hall : (payloads.take k).length ≤
        (reading settings.limits false (first.sentAlong token front)).payloads.length :=
      length_le_of_frames hroom (hdue.take k) hframes
    refine List.prefix_of_prefix_length_le (requestsOf_isPrefix (List.take_prefix k payloads) id false)
      hrequests ?_
    have hk := List.length_take_le k payloads
    rw [length_requestsOf]
    exact (Nat.le_min.2 ⟨hk.trans hclosings, hall⟩).trans hpast
  · rw [Option.isSome_iff_ne_none]
    intro hgone
    rcases hserved.left hgone hearlier with hend | ⟨n, hlong⟩
    · exact hopen hend
    · rw [hlimits] at hlong
      exact hread.2.2 n hlong
  · have hnone : (reading settings.limits false
        ((events.foldl next first).consumed token (first.sentAlong token events))).faults
          settings.limits = 0 :=
      (reading_of_due hroom hdue ((List.take_prefix _ _).trans hsent)).2.1
    have hfaults := hserves.faults
    rw [hlimits] at hfaults
    rw [hfaults]
    refine (Finset.sum_erase _ ?_).symm
    exact hnone

end Served
end ClientListener

/-- Each of the requests among some messages has a payload of some bytes. -/
def NoneEmpty (messages : List Message) : Prop := ∀ m ∈ messages, m.isRequest = true → m.payload ≠ []

theorem noneEmpty_nil : NoneEmpty [] := fun _ hm => absurd hm List.not_mem_nil

theorem noneEmpty_append {messages more : List Message} :
    NoneEmpty (messages ++ more) ↔ NoneEmpty messages ∧ NoneEmpty more := by
  simp only [NoneEmpty, List.mem_append, or_imp, forall_and]

section NoneEmpty
variable {limits : StreamLimits} {c d : ClientStream}

/-- A payload is complete with its last byte, so it has one. -/
theorem ClientStream.noneEmpty_read {b : UInt8} (h : NoneEmpty c.requests) (hread : c.read limits b = .ok d) :
    NoneEmpty d.requests := by
  unfold ClientStream.read at hread
  split at hread
  · split at hread
    · unfold announced at hread
      repeat' split at hread
      all_goals cases hread
      all_goals exact h
    · cases hread
      exact h
  · cases hread
  · rename_i got _
    cases hread
    unfold complete
    dsimp only
    split
    · exact h
    · refine noneEmpty_append.2 ⟨h, fun m hm _ => ?_⟩
      have hbytes : (b :: got).reverse ≠ [] := by simp
      rw [List.mem_singleton.1 hm]
      split
      · exact hbytes
      · exact hbytes
  · cases hread
    exact h
  · cases hread
    exact h

theorem ClientStream.noneEmpty_readAll (h : NoneEmpty c.requests) (limits : StreamLimits) (bytes : Bytes) :
    NoneEmpty (c.readAll limits bytes).1.requests := by
  have hpause (c : ClientStream) : c.pause.requests = c.requests := by
    unfold pause
    split <;> rfl
  induction bytes generalizing c with
  | nil =>
    unfold readAll
    split
    · rwa [hpause]
    · exact h
  | cons b rest ih =>
    unfold readAll
    split
    · rwa [hpause]
    · split
      · exact h
      · rename_i d hread
        exact ih (noneEmpty_read h hread)

namespace ClientListener
variable {payloads : List Bytes}

theorem noneEmpty_tearDown (l : ClientListener) (c : ClientConnection) (reason : CloseReason) :
    NoneEmpty (l.tearDown c reason).1 := by
  intro m hm hrequest
  unfold tearDown at hm
  dsimp only at hm
  split at hm
  · cases hm
  · rw [List.mem_singleton.1 hm] at hrequest
    cases hrequest

theorem noneEmpty_readFrom (l : ClientListener) (token : Nat) : NoneEmpty (l.readFrom token).1 := by
  unfold readFrom
  split
  · exact noneEmpty_nil
  · rename_i c _
    split
    · exact noneEmpty_nil
    · rename_i channel _
      have hread : NoneEmpty ((streamOf c channel).readAll l.settings.limits c.unread).1.requests :=
        ClientStream.noneEmpty_readAll noneEmpty_nil _ _
      dsimp only
      split
      · exact hread
      · exact noneEmpty_append.2 ⟨hread, noneEmpty_tearDown _ _ _⟩

theorem noneEmpty_resumeOne (l : ClientListener) (token : Nat) : NoneEmpty (l.resumeOne token).1 := by
  unfold resumeOne
  split
  · exact noneEmpty_nil
  · exact noneEmpty_readFrom _ token

/-- No empty request is handed on, whatever happens. -/
theorem noneEmpty_act (l : ClientListener) (e : ListenerEvent) : NoneEmpty (l.act e).1 := by
  cases e with
  | connect | deliver => exact noneEmpty_nil
  | arrive token bytes ended =>
    unfold act arrive
    dsimp only
    split
    · exact noneEmpty_nil
    · split
      · exact noneEmpty_nil
      · exact noneEmpty_readFrom _ token
  | closeRound =>
    unfold act closeRound resumeDeferred
    dsimp only
    split
    · exact noneEmpty_nil
    · refine List.foldlRecOn _ _ (motive := fun acc : List Message × ClientListener => NoneEmpty acc.1)
        noneEmpty_nil fun acc hacc c _ => ?_
      exact noneEmpty_append.2 ⟨hacc, noneEmpty_resumeOne acc.2 c.token⟩

theorem noneEmpty_share {messages : List Message} (h : NoneEmpty messages) (l : ClientListener)
    (token : Nat) : NoneEmpty (l.share token messages) := by
  unfold share
  split
  · exact noneEmpty_nil
  · exact fun m hm => h m (List.mem_of_mem_filter hm)

theorem noneEmpty_requestsAlong (first : ClientListener) (token : Nat) (events : List ListenerEvent) :
    NoneEmpty (first.requestsAlong token events) := by
  induction events generalizing first with
  | nil => exact noneEmpty_nil
  | cons e rest ih =>
    exact noneEmpty_append.2 ⟨noneEmpty_share (noneEmpty_act first e) first token, ih (first.next e)⟩

theorem exists_empty_request (h : [] ∈ payloads) (id : ChannelId)
    (established : Bool) :
    ∃ m ∈ requestsOf id established payloads, m.isRequest = true ∧ m.payload = [] := by
  induction payloads generalizing established with
  | nil => cases h
  | cons payload payloads ih =>
    rcases List.mem_cons.1 h with rfl | hmore
    · refine ⟨_, List.mem_cons_self, ?_⟩
      cases established <;> exact ⟨rfl, rfl⟩
    · obtain ⟨m, hm, hempty⟩ := ih hmore true
      exact ⟨m, List.mem_cons_of_mem _ hm, hempty⟩

/-- A client whose frames are due and come to an empty one is not served. -/
theorem not_servesDueClients {settings : ListenerSettings} (hdue : settings.limits.framing.Due false payloads)
    (hempty : [] ∈ payloads) :
    ¬ (start settings (.new 1 0) (.empty 1) (.ofList [])).ServesDueClients := by
  intro hserves
  let first := start settings (.new 1 0) (.empty 1) (.ofList [])
  let front : List ListenerEvent := [.connect (.v4 127 0 0 1), .arrive 0 (clientFrames payloads) false]
  let back : List ListenerEvent := List.replicate payloads.length .closeRound
  have hclosings (e : ListenerEvent) (he : e ∈ back) : e = .closeRound := List.eq_of_mem_replicate he
  have hsent : first.sentAlong 0 front = clientFrames payloads := List.append_nil (clientFrames payloads)
  have hfit : Along next Fit first (front ++ back) := by
    refine along_append.2 ⟨⟨Nat.two_pow_pos 32, trivial, trivial⟩,
      along_iff.2 fun before e after hback => ?_⟩
    rw [hclosings e (hback ▸ List.mem_append_right before List.mem_cons_self)]
    exact trivial
  have hquiet : (front.foldl next first).sentAlong 0 back = [] := by
    refine outputs_eq_nil (fun l e he => ?_) _
    rw [hclosings e he]
    rfl
  have hall : first.sentAlong 0 (front ++ back) = clientFrames payloads := by
    have hboth : first.sentAlong 0 (front ++ back) =
        first.sentAlong 0 front ++ (front.foldl next first).sentAlong 0 back := outputs_append _ _ _ _
    rw [hboth, hsent, hquiet, List.append_nil]
  obtain ⟨id, hserved⟩ := hserves (front ++ back) hfit 0 payloads hdue (hall ▸ List.prefix_rfl)
  have hhanded := hserved.handedOn front back payloads.length rfl
  rw [List.take_length, hsent, List.count_replicate_self] at hhanded
  obtain ⟨m, hm, hrequest, hnone⟩ := exists_empty_request hempty id false
  have hmember := (hhanded List.prefix_rfl (Nat.le_add_left _ _)).subset hm
  exact noneEmpty_requestsAlong first 0 (front ++ back) m hmember hrequest hnone

end ClientListener
end NoneEmpty

namespace RelaySettings
variable {s : RelaySettings}

/-- Valid settings leave room for every request that is due. -/
theorem roomy_of_validate (hvalid : s.validate = .ok ()) : s.forListener.limits.Roomy := by
  have hmax := length_le_maxFrameLength_of_validate hvalid
  intro established
  have hlargest : s.payloadFraming.requestLength established ≤ s.largestPayload := by
    unfold largestPayload PayloadFraming.requestLength
    split <;> omega
  have hlength : s.largestPayload ≤ Frame.length s.largestPayload := by
    unfold Frame.length
    omega
  exact hlargest.trans (hlength.trans hmax)

/-- Requests have some bytes if they carry headers, or both their bases have some. -/
theorem positive_iff : s.forListener.limits.Positive ↔
    0 < s.framing.headerUnit ∨ 0 < s.framing.establishBase ∧ 0 < s.framing.messageBase := by
  have hheaders : 0 < s.framing.headerUnit * s.payloadFraming.remainingHops ↔ 0 < s.framing.headerUnit :=
    Nat.mul_pos_iff_of_pos_right (Nat.succ_pos s.cascade.furtherHops)
  have hestablish : s.payloadFraming.establishLength =
      s.framing.establishBase + s.framing.headerUnit * s.payloadFraming.remainingHops := rfl
  have hmessage : s.payloadFraming.messageLength =
      s.framing.messageBase + s.framing.headerUnit * s.payloadFraming.remainingHops := rfl
  have hboth : s.forListener.limits.Positive ↔
      0 < s.payloadFraming.establishLength ∧ 0 < s.payloadFraming.messageLength := Bool.forall_bool
  rw [hboth, ← hheaders]
  omega

/-- With valid settings a first relay serves every client that sends what is due, if requests carry headers
or both of their bases have some bytes. Otherwise it does not, unless the first request that is due is too
long for any frame: then nobody can send what is due. -/
theorem serves_due_clients (hvalid : s.validate = .ok ()) :
    (0 < s.framing.headerUnit ∨ 0 < s.framing.establishBase ∧ 0 < s.framing.messageBase →
      ∀ limiter registry draws,
        (ClientListener.start s.forListener limiter registry draws).ServesDueClients) ∧
    (s.payloadFraming.establishLength < 2 ^ 32 →
      (∀ limiter registry draws,
        (ClientListener.start s.forListener limiter registry draws).ServesDueClients) →
      0 < s.framing.headerUnit ∨ 0 < s.framing.establishBase ∧ 0 < s.framing.messageBase) := by
  rw [← positive_iff]
  constructor
  · intro hpos limiter registry draws
    exact ClientListener.servesDueClients hpos (roomy_of_validate hvalid) limiter registry draws
  · intro hword hserves
    by_contra hzero
    obtain ⟨payloads, hdue, hempty⟩ := StreamLimits.exists_empty_due hzero hword
    exact ClientListener.not_servesDueClients hdue hempty (hserves _ _ _)

/-- A relay on its own, without headers and with an empty establish request. -/
def headerless : RelaySettings :=
  { default with framing := ⟨16, 0, 0, 4, 64, Frame.defaultMaxLength⟩ }

/-- The default relay serves its clients, and the headerless one does not. -/
theorem serves_due_clients_default :
    (∀ limiter registry draws,
      (ClientListener.start default.forListener limiter registry draws).ServesDueClients) ∧
    ¬ ∀ limiter registry draws,
      (ClientListener.start headerless.forListener limiter registry draws).ServesDueClients := by
  have hdefault : default.validate = .ok () := by rfl
  have hheaderless : headerless.validate = .ok () := by rfl
  exact ⟨(serves_due_clients hdefault).1 (by decide),
    fun hserves => absurd ((serves_due_clients hheaderless).2 (by decide) hserves) (by decide)⟩

/-- A client of the headerless relay sends its empty establish request and a message of four bytes, both as
they are due, and the rounds close. -/
def emptyEstablish : List ListenerEvent :=
  [.connect (.v4 127 0 0 1), .arrive 0 [0, 0, 0, 0] false, .closeRound,
    .arrive 0 [0, 0, 0, 4, 1, 2, 3, 4] false, .closeRound]

/-- None of the requests is handed on, and the client is torn down though its stream has not ended. -/
theorem headerless_not_served :
    headerless.validate = .ok () ∧ headerless.isFirst = true ∧
    let first := ClientListener.start headerless.forListener (.new 1024 16) (.empty 65536) (.ofList [5])
    Along ClientListener.next ClientListener.Fit first emptyEstablish ∧
    headerless.payloadFraming.Due false [[], [1, 2, 3, 4]] ∧
    first.sentAlong 0 emptyEstablish = clientFrames [[], [1, 2, 3, 4]] ∧
    first.requestsAlong 0 emptyEstablish = [] ∧ ¬ first.EndsAlong 0 emptyEstablish ∧
    (emptyEstablish.foldl ClientListener.next first).connection? 0 = none ∧
    ¬ first.ServesDueClients := by
  refine ⟨by rfl, rfl, ?_⟩
  intro first
  have hfit : Along ClientListener.next ClientListener.Fit first emptyEstablish := by decide
  have hdue : headerless.payloadFraming.Due false [[], [1, 2, 3, 4]] := by decide
  have hsent : first.sentAlong 0 emptyEstablish = clientFrames [[], [1, 2, 3, 4]] := by decide
  have hopen : ¬ first.EndsAlong 0 emptyEstablish := by
    rintro ⟨front, bytes, back, hevents, -⟩
    have hend : ListenerEvent.arrive 0 bytes true ∈ emptyEstablish :=
      hevents ▸ List.mem_append_right front List.mem_cons_self
    simp [emptyEstablish] at hend
  have hgone : (emptyEstablish.foldl ClientListener.next first).connection? 0 = none := by decide
  refine ⟨hfit, hdue, hsent, by decide, hopen, hgone, fun hserves => ?_⟩
  obtain ⟨id, hserved⟩ := hserves emptyEstablish hfit 0 _ hdue (hsent ▸ List.prefix_rfl)
  have hstays := hserved.stays (by decide) hopen
  rw [hgone] at hstays
  cases hstays

end RelaySettings
end MixRelay
