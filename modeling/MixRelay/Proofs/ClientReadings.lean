import MixRelay.Proofs.ClientIntake

/-!
# What a client's bytes say

A client's bytes are frames of a length and a payload. `reading` is how they are to be taken as a whole:
the payloads of the frames whose length is due, the number of frames skipped, and what the bytes end
with. A stream that is read byte by byte, with pauses between frames, always stands where the reading of
the bytes so far ends.
-/
namespace MixRelay

/-- Bytes end with a length above the limit, or at some point of a frame, with the frame's bytes so far. -/
inductive ReadingEnd
  | tooLong (length : Nat)
  | within (established : Bool) (tail : Bytes)
  deriving DecidableEq

/-- The length that a frame of at least four bytes announces. -/
def announcedLength (tail : Bytes) : Nat := Bytes.toNat (tail.take 4)

/-- Faults counted for how bytes end: for a length above the limit, and for a length that is not due,
whether its frame is all there or not. -/
def ReadingEnd.faults (limits : StreamLimits) : ReadingEnd → Nat
  | .tooLong _ => 1
  | .within established tail =>
    if 4 ≤ tail.length ∧ announcedLength tail ≠ limits.framing.requestLength established then 1 else 0

structure Reading where
  payloads : List Bytes
  skipped : Nat
  ending : ReadingEnd
  deriving DecidableEq

namespace Reading

/-- Faults counted for some bytes: for the frames skipped, and for how the bytes end. -/
def faults (limits : StreamLimits) (r : Reading) : Nat := r.skipped + r.ending.faults limits

/-- The reading of bytes behind frames that gave some payloads and some that were skipped. -/
def behind (r : Reading) (payloads : List Bytes) (skipped : Nat) : Reading :=
  ⟨payloads ++ r.payloads, skipped + r.skipped, r.ending⟩

end Reading

/-- How the bytes of a client are to be taken, whose channel is established or not. -/
def reading (limits : StreamLimits) (established : Bool) (bytes : Bytes) : Reading :=
  let n := announcedLength bytes
  if bytes.length < 4 then ⟨[], 0, .within established bytes⟩
  else if limits.maxFrameLength < n then ⟨[], 0, .tooLong n⟩
  else if bytes.length < 4 + n then ⟨[], 0, .within established bytes⟩
  else if n = limits.framing.requestLength established then
    (reading limits true (bytes.drop (4 + n))).behind [(bytes.drop 4).take n] 0
  else (reading limits established (bytes.drop (4 + n))).behind [] 1
termination_by bytes.length
decreasing_by
  all_goals
    rw [List.length_drop]
    omega

/-- The requests of a channel for some payloads, the first of which establishes it. -/
def requestsOf (id : ChannelId) : Bool → List Bytes → List Message
  | _, [] => []
  | established, payload :: more =>
    (if established then .message id payload else .establish id payload) :: requestsOf id true more

/-- Bytes that end before their first frame does, and announce no length above the limit. -/
def Incomplete (limits : StreamLimits) (tail : Bytes) : Prop :=
  tail.length < 4 ∨ announcedLength tail ≤ limits.maxFrameLength ∧ tail.length < 4 + announcedLength tail

section Reading
variable {limits : StreamLimits} {established : Bool} {bytes tail more : Bytes}

theorem announcedLength_append (h : 4 ≤ tail.length) (more : Bytes) :
    announcedLength (tail ++ more) = announcedLength tail := by
  rw [announcedLength, List.take_append_of_le_length h, announcedLength]

theorem reading_of_incomplete (h : Incomplete limits tail) (established : Bool) :
    reading limits established tail = ⟨[], 0, .within established tail⟩ := by
  rw [reading]
  rcases h with hshort | ⟨hmax, hmissing⟩
  · exact if_pos hshort
  · rw [if_neg (Nat.not_lt.2 hmax), if_pos hmissing, ite_self]

theorem reading_of_tooLong (hfour : 4 ≤ bytes.length)
    (hmax : limits.maxFrameLength < announcedLength bytes) (established : Bool) :
    reading limits established bytes = ⟨[], 0, .tooLong (announcedLength bytes)⟩ := by
  rw [reading, if_neg (Nat.not_lt.2 hfour), if_pos hmax]

/-- A frame that is all there: its payload, or one frame more to skip, and the reading of the rest. -/
theorem reading_of_frame (hmax : announcedLength bytes ≤ limits.maxFrameLength)
    (hall : 4 + announcedLength bytes ≤ bytes.length) (established : Bool) :
    reading limits established bytes =
      if announcedLength bytes = limits.framing.requestLength established then
        (reading limits true (bytes.drop (4 + announcedLength bytes))).behind
          [(bytes.drop 4).take (announcedLength bytes)] 0
      else (reading limits established (bytes.drop (4 + announcedLength bytes))).behind [] 1 := by
  rw [reading, if_neg (by omega), if_neg (Nat.not_lt.2 hmax), if_neg (Nat.not_lt.2 hall)]

/-- A frame as a client writes it: its payload is taken if the length is due, and skipped otherwise. -/
theorem reading_encodeClient {payload : Bytes} (hmax : payload.length ≤ limits.maxFrameLength)
    (hword : payload.length < 2 ^ 32) (established : Bool) (more : Bytes) :
    reading limits established (Frame.encodeClient payload ++ more) =
      if payload.length = limits.framing.requestLength established then
        (reading limits true more).behind [payload] 0
      else (reading limits established more).behind [] 1 := by
  have hfour : (Bytes.ofWord payload.length).length = 4 := rfl
  have hn : announcedLength (Frame.encodeClient payload ++ more) = payload.length := by
    rw [announcedLength, Frame.encodeClient, List.append_assoc, List.take_left' hfour,
      Bytes.toNat_ofWord_of_lt hword]
  have hlength : (Frame.encodeClient payload).length = 4 + payload.length := by
    rw [Frame.encodeClient, List.length_append, hfour]
  have hpayload : ((Frame.encodeClient payload ++ more).drop 4).take payload.length = payload := by
    rw [Frame.encodeClient, List.append_assoc, List.drop_left' hfour, List.take_left]
  have hall : 4 + announcedLength (Frame.encodeClient payload ++ more) ≤
      (Frame.encodeClient payload ++ more).length := by
    rw [hn, List.length_append, hlength]
    exact Nat.le_add_right _ _
  rw [reading_of_frame (hn.symm ▸ hmax) hall, hn, hpayload, List.drop_left' hlength]

@[simp] theorem Reading.behind_nil (r : Reading) : r.behind [] 0 = r := by
  rw [behind, List.nil_append, Nat.zero_add]

theorem Reading.behind_behind (r : Reading) (payloads others : List Bytes) (skipped n : Nat) :
    (r.behind payloads skipped).behind others n = r.behind (others ++ payloads) (n + skipped) := by
  rw [behind, behind, behind, List.append_assoc, Nat.add_assoc]

/-- A frame that is all there is taken in the same way whatever follows. -/
theorem reading_frame_append (hmax : announcedLength bytes ≤ limits.maxFrameLength)
    (hfour : 4 ≤ bytes.length) (hall : 4 + announcedLength bytes ≤ bytes.length) (established : Bool)
    (more : Bytes) :
    reading limits established (bytes ++ more) =
      if announcedLength bytes = limits.framing.requestLength established then
        (reading limits true (bytes.drop (4 + announcedLength bytes) ++ more)).behind
          [(bytes.drop 4).take (announcedLength bytes)] 0
      else (reading limits established (bytes.drop (4 + announcedLength bytes) ++ more)).behind [] 1 := by
  have hn := announcedLength_append hfour more
  have hmore : 4 + announcedLength (bytes ++ more) ≤ (bytes ++ more).length := by
    rw [hn, List.length_append]
    omega
  have hpayload : ((bytes ++ more).drop 4).take (announcedLength bytes) =
      (bytes.drop 4).take (announcedLength bytes) := by
    rw [List.drop_append_of_le_length hfour, List.take_append_of_le_length]
    rw [List.length_drop]
    omega
  rw [reading_of_frame (hn.symm ▸ hmax) hmore, hn, hpayload, List.drop_append_of_le_length hall]

/-- More bytes are taken with the tail of those before. -/
theorem reading_append {later : Bool} (h : (reading limits established bytes).ending = .within later tail)
    (more : Bytes) : reading limits established (bytes ++ more) =
      (reading limits later (tail ++ more)).behind (reading limits established bytes).payloads
        (reading limits established bytes).skipped := by
  fun_induction reading limits established bytes with
  | case1 | case3 =>
    cases h
    rw [Reading.behind_nil]
  | case2 => cases h
  | case4 established bytes n hfour hmax hall hdue ih =>
    rw [reading_frame_append (Nat.not_lt.1 hmax) (Nat.not_lt.1 hfour) (Nat.not_lt.1 hall), if_pos hdue,
      ih h, Reading.behind_behind]
    rfl
  | case5 established bytes n hfour hmax hall hdue ih =>
    rw [reading_frame_append (Nat.not_lt.1 hmax) (Nat.not_lt.1 hfour) (Nat.not_lt.1 hall), if_neg hdue,
      ih h, Reading.behind_behind]
    rfl

/-- Behind a length above the limit nothing is taken. -/
theorem reading_append_of_tooLong {n : Nat}
    (h : (reading limits established bytes).ending = .tooLong n) (more : Bytes) :
    reading limits established (bytes ++ more) = reading limits established bytes := by
  fun_induction reading limits established bytes with
  | case1 | case3 => cases h
  | case2 established bytes m hfour hmax =>
    have hm := announcedLength_append (Nat.not_lt.1 hfour) more
    rw [reading_of_tooLong _ (hm.symm ▸ hmax), hm]
    rw [List.length_append]
    omega
  | case4 established bytes m hfour hmax hall hdue ih =>
    rw [reading_frame_append (Nat.not_lt.1 hmax) (Nat.not_lt.1 hfour) (Nat.not_lt.1 hall), if_pos hdue,
      ih h]
  | case5 established bytes m hfour hmax hall hdue ih =>
    rw [reading_frame_append (Nat.not_lt.1 hmax) (Nat.not_lt.1 hfour) (Nat.not_lt.1 hall), if_neg hdue,
      ih h]

/-- The tail is incomplete, and the channel is established once a payload is accepted. -/
theorem reading_ending {later : Bool}
    (h : (reading limits established bytes).ending = .within later tail) :
    Incomplete limits tail ∧ later = (established || !(reading limits established bytes).payloads.isEmpty) := by
  fun_induction reading limits established bytes with
  | case1 established bytes hshort =>
    cases h
    exact ⟨.inl hshort, by simp⟩
  | case2 => cases h
  | case3 established bytes n hfour hmax hmissing =>
    cases h
    exact ⟨.inr ⟨Nat.not_lt.1 hmax, hmissing⟩, by simp⟩
  | case4 established bytes n hfour hmax hall hdue ih =>
    obtain ⟨htail, hlater⟩ := ih h
    exact ⟨htail, by simp [hlater, Reading.behind]⟩
  | case5 established bytes n hfour hmax hall hdue ih =>
    obtain ⟨htail, hlater⟩ := ih h
    exact ⟨htail, by simpa [Reading.behind] using hlater⟩

/-- With more bytes there are more payloads behind the same ones. -/
theorem payloads_mono (limits : StreamLimits) (established : Bool) (bytes more : Bytes) :
    (reading limits established bytes).payloads <+:
      (reading limits established (bytes ++ more)).payloads := by
  cases h : (reading limits established bytes).ending with
  | tooLong n => exact ⟨[], by rw [List.append_nil, reading_append_of_tooLong h]⟩
  | within later tail =>
    rw [reading_append h]
    exact List.prefix_append _ _

theorem requestsOf_append (id : ChannelId) (established : Bool) (payloads others : List Bytes) :
    requestsOf id established (payloads ++ others) =
      requestsOf id established payloads ++ requestsOf id (established || !payloads.isEmpty) others := by
  induction payloads generalizing established with
  | nil => simp [requestsOf]
  | cons p payloads ih => simp [requestsOf, ih]

theorem requestsOf_isPrefix {payloads others : List Bytes} (h : payloads <+: others) (id : ChannelId)
    (established : Bool) : requestsOf id established payloads <+: requestsOf id established others := by
  obtain ⟨rest, rfl⟩ := h
  rw [requestsOf_append]
  exact List.prefix_append _ _

end Reading

/-- Where reading stands within a frame, or between two. -/
def stageAt (limits : StreamLimits) (established : Bool) (tail : Bytes) : ReadStage :=
  let missing := 4 + announcedLength tail - tail.length
  if tail.length < 4 then .length tail.reverse
  else if announcedLength tail = limits.framing.requestLength established then
    .payload missing (tail.drop 4).reverse
  else .skip missing

/-- Every request has some bytes. -/
def StreamLimits.Positive (limits : StreamLimits) : Prop :=
  ∀ established, 0 < limits.framing.requestLength established

namespace ClientStream
variable {limits : StreamLimits} {c d : ClientStream} {tail : Bytes} {b : UInt8}

/-- The stream stands within a frame of which it has read a tail; within a frame the slot is free. -/
structure StandsAt (limits : StreamLimits) (c : ClientStream) (tail : Bytes) : Prop where
  stage_eq : c.stage = stageAt limits c.channel.established tail
  incomplete : Incomplete limits tail
  free : tail ≠ [] → c.channel.requestClaimed = false

theorem StandsAt.free_of_not_mustPause (h : c.StandsAt limits tail) (hp : c.mustPause = false) :
    c.channel.requestClaimed = false := by
  by_cases htail : tail = []
  · subst htail
    have hstage : c.stage = .length [] := h.stage_eq
    simpa [mustPause, hstage] using hp
  · exact h.free htail

/-- A stream has read some bytes more: where it stands then, the requests it has read and the faults it
has counted are those of the reading. -/
structure Consumes (limits : StreamLimits) (c : ClientStream) (tail got : Bytes) (d : ClientStream)
    (tail' : Bytes) : Prop where
  id_eq : d.channel.id = c.channel.id
  ending : (reading limits c.channel.established (tail ++ got)).ending =
    .within d.channel.established tail'
  stands : d.StandsAt limits tail'
  requests_eq : d.requests = c.requests ++ requestsOf c.channel.id c.channel.established
    (reading limits c.channel.established (tail ++ got)).payloads
  faults_eq : d.faults + (ReadingEnd.within c.channel.established tail).faults limits =
    c.faults + (reading limits c.channel.established (tail ++ got)).faults limits

/-- A byte that leaves its frame incomplete. -/
theorem consumes_of_incomplete (hid : d.channel = c.channel) (hrequests : d.requests = c.requests)
    (hfree : c.channel.requestClaimed = false) (hincomplete : Incomplete limits (tail ++ [b]))
    (hstage : d.stage = stageAt limits c.channel.established (tail ++ [b]))
    (hfaults : d.faults + (ReadingEnd.within c.channel.established tail).faults limits =
      c.faults + (ReadingEnd.within c.channel.established (tail ++ [b])).faults limits) :
    c.Consumes limits tail [b] d (tail ++ [b]) := by
  have hreading := reading_of_incomplete hincomplete c.channel.established
  constructor
  · rw [hid]
  · rw [hreading, hid]
  · exact ⟨hid ▸ hstage, hincomplete, fun _ => hid ▸ hfree⟩
  · rw [hreading, hrequests]
    exact (List.append_nil _).symm
  · rw [hreading, hfaults, Reading.faults, Nat.zero_add]

/-- What is read once a byte completes a frame. -/
theorem reading_of_last (hmax : announcedLength (tail ++ [b]) ≤ limits.maxFrameLength)
    (hlast : tail.length + 1 = 4 + announcedLength (tail ++ [b])) (established : Bool) :
    reading limits established (tail ++ [b]) =
      if announcedLength (tail ++ [b]) = limits.framing.requestLength established then
        ⟨[(tail ++ [b]).drop 4], 0, .within true []⟩
      else ⟨[], 1, .within established []⟩ := by
  have hlength : (tail ++ [b]).length = 4 + announcedLength (tail ++ [b]) := by
    rw [List.length_append, List.length_singleton, hlast]
  have hpayload : ((tail ++ [b]).drop 4).take (announcedLength (tail ++ [b])) = (tail ++ [b]).drop 4 := by
    refine List.take_of_length_le ?_
    rw [List.length_drop, hlength]
    omega
  have hempty (established : Bool) : reading limits established [] = ⟨[], 0, .within established []⟩ :=
    reading_of_incomplete (.inl (by decide)) established
  rw [reading_of_frame hmax (Nat.le_of_eq hlength.symm), ← hlength, List.drop_length, hempty, hempty,
    hpayload]
  rfl

/-- What a byte more comes to: the stream stands where the reading ends, or the reading ends with the
length that the stream is given up for. -/
def Reads (limits : StreamLimits) (c : ClientStream) (tail : Bytes) (b : UInt8) :
    Except CloseReason ClientStream → Prop
  | .ok d => d.paused = c.paused ∧ ∃ tail', c.Consumes limits tail [b] d tail'
  | .error reason => ∃ n, reason = .tooLong n ∧
      reading limits c.channel.established (tail ++ [b]) = ⟨[], 0, .tooLong n⟩ ∧
      (ReadingEnd.within c.channel.established tail).faults limits = 0

theorem faults_of_short (limits : StreamLimits) (established : Bool) (h : tail.length < 4) :
    (ReadingEnd.within established tail).faults limits = 0 :=
  if_neg fun hfault => absurd hfault.1 (Nat.not_le.2 h)

theorem faults_of_due {established : Bool}
    (h : announcedLength tail = limits.framing.requestLength established) :
    (ReadingEnd.within established tail).faults limits = 0 :=
  if_neg fun hfault => hfault.2 h

theorem faults_of_not_due {established : Bool} (hfour : 4 ≤ tail.length)
    (h : announcedLength tail ≠ limits.framing.requestLength established) :
    (ReadingEnd.within established tail).faults limits = 1 := if_pos ⟨hfour, h⟩

/-- The last byte of a frame that is skipped. -/
theorem consumes_of_skipped (hid : d.channel = c.channel) (hrequests : d.requests = c.requests)
    (hstage : d.stage = .length [])
    (hreading : reading limits c.channel.established (tail ++ [b]) =
      ⟨[], 1, .within c.channel.established []⟩)
    (hfaults : d.faults + (ReadingEnd.within c.channel.established tail).faults limits = c.faults + 1) :
    c.Consumes limits tail [b] d [] := by
  constructor
  · rw [hid]
  · rw [hreading, hid]
  · exact ⟨hstage, .inl (by decide), fun h => absurd rfl h⟩
  · rw [hreading, hrequests]
    exact (List.append_nil _).symm
  · rw [hreading, hfaults, Reading.faults, faults_of_short limits _ (by decide)]

/-- A byte of a length. -/
theorem reads_length (hpos : limits.Positive) (h : c.StandsAt limits tail)
    (hfree : c.channel.requestClaimed = false) (hlength : tail.length < 4) (b : UInt8) :
    c.Reads limits tail b (c.read limits b) := by
  have hstage : c.stage = .length tail.reverse := h.stage_eq.trans (if_pos hlength)
  have hreverse : (b :: tail.reverse).reverse = tail ++ [b] := by
    rw [List.reverse_cons, List.reverse_reverse]
  have hnone := faults_of_short limits c.channel.established hlength
  by_cases hthree : tail.length = 3
  · -- the length is all there and is judged
    have hfour : (tail ++ [b]).length = 4 := by simp [hthree]
    have hn : Bytes.toNat (tail ++ [b]) = announcedLength (tail ++ [b]) := by
      rw [announcedLength, List.take_of_length_le (Nat.le_of_eq hfour)]
    have hread : c.read limits b = c.announced limits (announcedLength (tail ++ [b])) := by
      unfold ClientStream.read
      rw [hstage]
      dsimp only
      rw [if_pos (by simp [hthree]), hreverse, hn]
    rw [hread]
    unfold announced
    by_cases hmax : limits.maxFrameLength < announcedLength (tail ++ [b])
    · rw [if_pos hmax]
      exact ⟨_, rfl, reading_of_tooLong (Nat.le_of_eq hfour.symm) hmax _, hnone⟩
    rw [if_neg hmax]
    by_cases hdue : announcedLength (tail ++ [b]) = limits.framing.requestLength c.channel.established
    · have hpositive := hpos c.channel.established
      rw [← hdue] at hpositive
      rw [if_pos hdue]
      refine ⟨rfl, _, consumes_of_incomplete rfl rfl hfree (.inr ⟨Nat.le_of_not_lt hmax, by omega⟩) ?_ ?_⟩
      · rw [stageAt, if_neg (by omega), if_pos hdue, hfour, Nat.add_sub_cancel_left,
          List.drop_of_length_le (Nat.le_of_eq hfour)]
        rfl
      · rw [hnone, faults_of_due hdue]
    · rw [if_neg hdue]
      by_cases hzero : announcedLength (tail ++ [b]) = 0
      · refine ⟨rfl, [], consumes_of_skipped rfl rfl (if_pos hzero) ?_ ?_⟩
        · rw [reading_of_last (Nat.le_of_not_lt hmax) (by omega), if_neg hdue]
        · rw [hnone]
          rfl
      · refine ⟨rfl, _, consumes_of_incomplete rfl rfl hfree
          (.inr ⟨Nat.le_of_not_lt hmax, by omega⟩) ?_ ?_⟩
        · rw [stageAt, if_neg (by omega), if_neg hdue, hfour, Nat.add_sub_cancel_left]
          exact if_neg hzero
        · rw [hnone, faults_of_not_due (Nat.le_of_eq hfour.symm) hdue]
          rfl
  · have hmore : (tail ++ [b]).length < 4 := by
      rw [List.length_append, List.length_singleton]
      omega
    have hread : c.read limits b = .ok { c with stage := .length (b :: tail.reverse) } := by
      unfold ClientStream.read
      rw [hstage]
      exact if_neg (by simpa using hthree)
    rw [hread]
    refine ⟨rfl, _, consumes_of_incomplete rfl rfl hfree (.inl hmore) ?_ ?_⟩
    · rw [stageAt, if_pos hmore, ← hreverse, List.reverse_reverse]
    · rw [hnone, faults_of_short limits _ hmore]

/-- A byte of a payload that is due. -/
theorem reads_payload (h : c.StandsAt limits tail) (hfour : 4 ≤ tail.length)
    (hdue : announcedLength tail = limits.framing.requestLength c.channel.established) (b : UInt8) :
    c.Reads limits tail b (c.read limits b) := by
  obtain ⟨hmax, hmissing⟩ := h.incomplete.resolve_left (Nat.not_lt.2 hfour)
  have hfree := h.free (List.ne_nil_of_length_pos (by omega))
  have hn := announcedLength_append hfour [b]
  have hstage : c.stage = .payload (4 + announcedLength tail - tail.length) (tail.drop 4).reverse :=
    h.stage_eq.trans ((if_neg (Nat.not_lt.2 hfour)).trans (if_pos hdue))
  have hgot : (b :: (tail.drop 4).reverse).reverse = (tail ++ [b]).drop 4 := by
    rw [List.reverse_cons, List.reverse_reverse, List.drop_append_of_le_length hfour]
  have hdue' : announcedLength (tail ++ [b]) = limits.framing.requestLength c.channel.established :=
    hn.trans hdue
  by_cases hlast : tail.length + 1 = 4 + announcedLength tail
  · have hone : 4 + announcedLength tail - tail.length = 1 := by omega
    have hread : c.read limits b = .ok (c.complete ((tail ++ [b]).drop 4)) := by
      unfold ClientStream.read
      rw [hstage, hone, ← hgot]
    have hcomplete : c.complete ((tail ++ [b]).drop 4) = { c with
        stage := .length []
        channel := c.channel.withRequest
        requests := c.requests ++ [c.channel.requestOf ((tail ++ [b]).drop 4)] } := by
      simp [complete, Channel.claimRequest, hfree, Channel.establish, Channel.withRequest,
        Channel.requestOf]
    have hreading : reading limits c.channel.established (tail ++ [b]) =
        ⟨[(tail ++ [b]).drop 4], 0, .within true []⟩ := by
      rw [reading_of_last (hn.symm ▸ hmax) (hn.symm ▸ hlast), if_pos hdue']
    rw [hread, hcomplete]
    refine ⟨rfl, [], ⟨rfl, ?_, ⟨rfl, .inl (by decide), fun hnil => absurd rfl hnil⟩, ?_, ?_⟩⟩
    · rw [hreading]
      rfl
    · rw [hreading]
      rfl
    · rw [hreading, faults_of_due hdue, Reading.faults, faults_of_short limits _ (by decide)]
  · obtain ⟨k, hk⟩ : ∃ k, 4 + announcedLength tail - tail.length = k + 2 :=
      ⟨4 + announcedLength tail - tail.length - 2, by omega⟩
    have hread : c.read limits b = .ok { c with stage := .payload (k + 1) (b :: (tail.drop 4).reverse) } := by
      unfold ClientStream.read
      rw [hstage, hk]
    have hlength : (tail ++ [b]).length = tail.length + 1 := by simp
    rw [hread]
    refine ⟨rfl, _, consumes_of_incomplete rfl rfl hfree (.inr ⟨hn.symm ▸ hmax, by omega⟩) ?_ ?_⟩
    · rw [stageAt, if_neg (by omega), if_pos hdue', ← hgot, List.reverse_reverse, hlength, hn]
      exact congrArg (ReadStage.payload · _) (by omega)
    · rw [faults_of_due hdue, faults_of_due hdue']

/-- A byte of a frame whose length is not due. -/
theorem reads_skip (h : c.StandsAt limits tail) (hfour : 4 ≤ tail.length)
    (hdue : announcedLength tail ≠ limits.framing.requestLength c.channel.established) (b : UInt8) :
    c.Reads limits tail b (c.read limits b) := by
  obtain ⟨hmax, hmissing⟩ := h.incomplete.resolve_left (Nat.not_lt.2 hfour)
  have hfree := h.free (List.ne_nil_of_length_pos (by omega))
  have hn := announcedLength_append hfour [b]
  have hstage : c.stage = .skip (4 + announcedLength tail - tail.length) :=
    h.stage_eq.trans ((if_neg (Nat.not_lt.2 hfour)).trans (if_neg hdue))
  have hread : c.read limits b = .ok (c.skipping (4 + announcedLength tail - tail.length - 1)) := by
    unfold ClientStream.read
    rw [hstage]
  have hdue' : announcedLength (tail ++ [b]) ≠ limits.framing.requestLength c.channel.established :=
    hn.symm ▸ hdue
  have hlength : (tail ++ [b]).length = tail.length + 1 := by simp
  rw [hread]
  by_cases hlast : tail.length + 1 = 4 + announcedLength tail
  · refine ⟨rfl, [], consumes_of_skipped rfl rfl (if_pos (by omega)) ?_ ?_⟩
    · rw [reading_of_last (hn.symm ▸ hmax) (hn.symm ▸ hlast), if_neg hdue']
    · rw [faults_of_not_due hfour hdue]
      rfl
  · refine ⟨rfl, _, consumes_of_incomplete rfl rfl hfree (.inr ⟨hn.symm ▸ hmax, by omega⟩) ?_ ?_⟩
    · rw [stageAt, if_neg (by omega), if_neg hdue', hlength, hn]
      refine (if_neg (by omega)).trans (congrArg ReadStage.skip ?_)
      omega
    · rw [faults_of_not_due hfour hdue, faults_of_not_due (by omega) hdue']
      rfl

/-- Whatever byte comes, the stream follows the reading. -/
theorem reads (hpos : limits.Positive) (h : c.StandsAt limits tail) (hp : c.mustPause = false)
    (b : UInt8) : c.Reads limits tail b (c.read limits b) := by
  by_cases hlength : tail.length < 4
  · exact reads_length hpos h (h.free_of_not_mustPause hp) hlength b
  · by_cases hdue : announcedLength tail = limits.framing.requestLength c.channel.established
    · exact reads_payload h (Nat.not_lt.1 hlength) hdue b
    · exact reads_skip h (Nat.not_lt.1 hlength) hdue b

theorem Consumes.of_same (h : c.StandsAt limits tail) (hstage : d.stage = c.stage)
    (hchannel : d.channel = c.channel) (hrequests : d.requests = c.requests)
    (hfaults : d.faults = c.faults) : c.Consumes limits tail [] d tail := by
  have hreading : reading limits c.channel.established (tail ++ []) =
      ⟨[], 0, .within c.channel.established tail⟩ := by
    rw [List.append_nil, reading_of_incomplete h.incomplete]
  constructor
  · rw [hchannel]
  · rw [hreading, hchannel]
  · exact ⟨hstage.trans (hchannel ▸ h.stage_eq), h.incomplete, hchannel ▸ h.free⟩
  · rw [hreading, hrequests]
    exact (List.append_nil _).symm
  · rw [hreading, hfaults, Reading.faults, Nat.zero_add]

variable {e : ClientStream} {tail' tail'' got more : Bytes}

theorem Consumes.reading_append (h : c.Consumes limits tail got d tail') (more : Bytes) :
    reading limits c.channel.established (tail ++ (got ++ more)) =
      (reading limits d.channel.established (tail' ++ more)).behind
        (reading limits c.channel.established (tail ++ got)).payloads
        (reading limits c.channel.established (tail ++ got)).skipped := by
  rw [← List.append_assoc]
  exact MixRelay.reading_append h.ending more

/-- The requests of a reading that goes on are those before and those behind. -/
theorem Consumes.requestsOf_append (h : c.Consumes limits tail got d tail') (more : Bytes) :
    c.requests ++ requestsOf c.channel.id c.channel.established
        (reading limits c.channel.established (tail ++ (got ++ more))).payloads =
      d.requests ++ requestsOf d.channel.id d.channel.established
        (reading limits d.channel.established (tail' ++ more)).payloads := by
  rw [h.reading_append, h.requests_eq, h.id_eq, List.append_assoc, Reading.behind]
  dsimp only
  rw [MixRelay.requestsOf_append, ← (reading_ending h.ending).2]

theorem Consumes.faults_append (h : c.Consumes limits tail got d tail') (more : Bytes) :
    c.faults + (reading limits c.channel.established (tail ++ (got ++ more))).faults limits +
        (ReadingEnd.within d.channel.established tail').faults limits =
      d.faults + (ReadingEnd.within c.channel.established tail).faults limits +
        (reading limits d.channel.established (tail' ++ more)).faults limits := by
  have hfaults := h.faults_eq
  rw [Reading.faults, h.ending] at hfaults
  rw [h.reading_append, Reading.faults, Reading.behind, Reading.faults]
  dsimp only
  omega

theorem Consumes.trans (h : c.Consumes limits tail got d tail')
    (h' : d.Consumes limits tail' more e tail'') : c.Consumes limits tail (got ++ more) e tail'' where
  id_eq := h'.id_eq.trans h.id_eq
  ending := by
    rw [h.reading_append]
    exact h'.ending
  stands := h'.stands
  requests_eq := h'.requests_eq.trans (h.requestsOf_append more).symm
  faults_eq := by
    have hboth := h.faults_append more
    have hmore := h'.faults_eq
    omega

/-- A stream stops at a pause, or with its bytes read. -/
structure Stops (limits : StreamLimits) (c : ClientStream) (tail bytes : Bytes) (d : ClientStream)
    (rest : Bytes) : Prop where
  consumes : ∃ got tail', bytes = got ++ rest ∧ c.Consumes limits tail got d tail'
  paused_eq : d.paused = (c.paused || d.mustPause)
  rest_eq : d.mustPause = false → rest = []

/-- A stream is given up for a length above the limit, with the requests before it. -/
structure GivesUp (limits : StreamLimits) (c : ClientStream) (tail bytes : Bytes) (d : ClientStream)
    (length : Nat) (rest : Bytes) : Prop where
  reads : ∃ got, bytes = got ++ rest ∧
    (reading limits c.channel.established (tail ++ got)).ending = .tooLong length ∧
    d.requests = c.requests ++ requestsOf c.channel.id c.channel.established
      (reading limits c.channel.established (tail ++ got)).payloads ∧
    d.faults + 1 + (ReadingEnd.within c.channel.established tail).faults limits =
      c.faults + (reading limits c.channel.established (tail ++ got)).faults limits

theorem paused_pause (c : ClientStream) : c.pause.paused = true := by
  unfold pause
  split
  · assumption
  · rfl

theorem Consumes.pause (h : c.StandsAt limits tail) : c.Consumes limits tail [] c.pause tail := by
  unfold ClientStream.pause
  split
  · exact .of_same h rfl rfl rfl rfl
  · exact .of_same h rfl rfl rfl rfl

theorem mustPause_pause (c : ClientStream) : c.pause.mustPause = c.mustPause := by
  unfold pause
  split <;> rfl

theorem stops_pause (h : c.StandsAt limits tail) (hp : c.mustPause = true) (rest : Bytes) :
    c.Stops limits tail rest c.pause rest where
  consumes := ⟨[], tail, rfl, .pause h⟩
  paused_eq := by rw [paused_pause, mustPause_pause, hp, Bool.or_true]
  rest_eq hnot := by
    rw [mustPause_pause, hp] at hnot
    cases hnot

/-- However many bytes have come, reading them follows the reading up to where it stops. -/
theorem readAll_cases (hpos : limits.Positive) (h : c.StandsAt limits tail) (bytes : Bytes) :
    (∃ d rest, c.readAll limits bytes = (d, none, rest) ∧ c.Stops limits tail bytes d rest) ∨
      ∃ d length rest, c.readAll limits bytes = (d, some (.tooLong length), rest) ∧
        c.GivesUp limits tail bytes d length rest := by
  induction bytes generalizing c tail with
  | nil =>
    refine .inl ?_
    rw [ClientStream.readAll]
    cases hp : c.mustPause with
    | true => exact ⟨_, _, rfl, stops_pause h hp []⟩
    | false =>
      refine ⟨_, _, rfl, ⟨[], tail, rfl, .of_same h rfl rfl rfl rfl⟩, ?_, fun _ => rfl⟩
      rw [if_neg Bool.false_ne_true, hp, Bool.or_false]
  | cons b rest ih =>
    cases hp : c.mustPause with
    | true =>
      refine .inl ⟨c.pause, b :: rest, ?_, stops_pause h hp _⟩
      rw [ClientStream.readAll, if_pos hp]
    | false =>
      have hb := reads hpos h hp b
      cases hread : c.read limits b with
      | error reason =>
        rw [hread] at hb
        obtain ⟨n, rfl, hreading, hnone⟩ := hb
        refine .inr ⟨c, n, rest, ?_, ⟨[b], rfl, ?_, ?_, ?_⟩⟩
        · rw [ClientStream.readAll, hp, hread]
          rfl
        · rw [hreading]
        · rw [hreading]
          exact (List.append_nil _).symm
        · rw [hreading, hnone]
          rfl
      | ok d =>
        rw [hread] at hb
        obtain ⟨hpaused, tail', hconsumes⟩ := hb
        rw [readAll_cons hp hread]
        rcases ih hconsumes.stands with ⟨e, left, heq, hstops⟩ | ⟨e, n, left, heq, hgives⟩
        · refine .inl ⟨e, left, heq, ?_, hpaused ▸ hstops.paused_eq, hstops.rest_eq⟩
          obtain ⟨got, tail'', rfl, hmore⟩ := hstops.consumes
          exact ⟨b :: got, tail'', rfl, hconsumes.trans hmore⟩
        · refine .inr ⟨e, n, left, heq, ?_⟩
          obtain ⟨got, rfl, hending, hrequests, hfaults⟩ := hgives.reads
          refine ⟨b :: got, rfl, ?_, hrequests.trans (hconsumes.requestsOf_append got).symm, ?_⟩
          · have happend := hconsumes.reading_append got
            rw [List.singleton_append] at happend
            rw [happend]
            exact hending
          · have hboth := hconsumes.faults_append got
            rw [List.singleton_append] at hboth
            omega

end ClientStream
end MixRelay
