import MixRelay.Proofs.ClientIntake
import MixRelay.Proofs.RequestBatches
import MixRelay.Proofs.Runs
import Mathlib.Data.List.Nodup
import Mathlib.Data.List.Basic

/-!
# One request per channel in a round of the first relay

The listener claims a channel's slot and hands its request on; the mixer takes requests one by one,
sends a full round, and then frees the slots of all channels. A channel whose request still waits
is freed as well, so it can send again before that request has left. The rounds hold one request per
channel exactly as long as the requests that wait at each freeing are a number of whole rounds: what is
left over of them shares its round with the requests that come next.
-/
namespace MixRelay

/-- The channels that the requests among some messages are from, one entry for each request. -/
def requesters (messages : List Message) : List ChannelId := messages.filterMap Message.requester?

/-- The request side of the first relay as its threads share it: what the listener holds, the
messages that wait behind it, the mixer, and whether the mixer has still to free the slots after the
round it has sent. -/
structure FirstRelay where
  listener : ClientListener
  waiting : List Message
  mixer : RequestMixer
  closing : Bool

/-- What the two threads do: clients connect, are heard, and are read on; the mixer takes the next
message, gives up waiting for one, or frees the slots. -/
inductive FirstRelayEvent
  | connect (address : IpAddress)
  | arrive (token : Nat) (bytes : Bytes) (ended : Bool)
  | resume (token : Nat)
  | take
  | timeout
  | close

namespace FirstRelay

def start (settings : MixerSettings) (listener : ClientListener) : FirstRelay :=
  ⟨listener, [], .start settings, false⟩

def hear (s : FirstRelay) (heard : List Message × ClientListener) : FirstRelay :=
  { s with listener := heard.2, waiting := s.waiting ++ heard.1 }

def mix (shuffle : List Message → List Message) (s : FirstRelay) (rest : List Message)
    (e : MixerEvent) : List Message × FirstRelay :=
  let t := s.mixer.step shuffle e
  (t.sent, { s with waiting := rest, mixer := t.mixer, closing := t.closesRound })

/-- One step, with the messages that leave the mixer in it. The mixer gives up only while nothing
waits for it; the listener may still act before the slots are freed. -/
def step (shuffle : List Message → List Message) (s : FirstRelay) :
    FirstRelayEvent → List Message × FirstRelay
  | .connect address => ([], { s with listener := (s.listener.accept address).2 })
  | .arrive token bytes ended => ([], s.hear (s.listener.arrive token bytes ended))
  | .resume token => ([], s.hear (s.listener.resumeOne token))
  | .take =>
    match s.closing, s.waiting with
    | false, m :: rest => s.mix shuffle rest (.arrival m)
    | _, _ => ([], s)
  | .timeout =>
    match s.closing, s.waiting with
    | false, [] => s.mix shuffle [] .timeout
    | _, _ => ([], s)
  | .close =>
    if s.closing then
      ([], { s with
        listener := { s.listener with registry := s.listener.registry.closeRequestRound }
        closing := false })
    else ([], s)

def next (shuffle : List Message → List Message) (s : FirstRelay) (e : FirstRelayEvent) : FirstRelay :=
  (s.step shuffle e).2

/-- The channels of the requests that have not left yet, in the order in which they will be mixed. -/
def pending (s : FirstRelay) : List ChannelId := requesters (s.mixer.batch ++ s.waiting)

/-- The messages that the listener hands on in a step. -/
def heard (s : FirstRelay) : FirstRelayEvent → List Message
  | .arrive token bytes ended => (s.listener.arrive token bytes ended).1
  | .resume token => (s.listener.resumeOne token).1
  | _ => []

/-- What leaves the mixer, step by step. -/
def departures (shuffle : List Message → List Message) : FirstRelay → List FirstRelayEvent →
    List (List Message)
  | _, [] => []
  | s, e :: rest => (s.step shuffle e).1 :: departures shuffle (s.next shuffle e) rest

/-- The identifier that the next client would get. -/
def nextId (s : FirstRelay) : ChannelId := (s.listener.registry.createFresh s.listener.draws).1

/-- Slots are freed when the requests that wait fill whole rounds, and no client gets an identifier
under which a request is pending. -/
def Orderly (s : FirstRelay) : FirstRelayEvent → Prop
  | .connect _ => s.nextId ∉ s.pending
  | .close => s.closing = true → s.mixer.roundSize ∣ (requesters s.waiting).length
  | _ => True

instance (s : FirstRelay) : ∀ e, Decidable (s.Orderly e)
  | .connect _ => inferInstanceAs (Decidable (s.nextId ∉ s.pending))
  | .close => inferInstanceAs
      (Decidable (s.closing = true → s.mixer.roundSize ∣ (requesters s.waiting).length))
  | .arrive .. | .resume _ | .take | .timeout => .isTrue trivial

end FirstRelay

section Spacing
variable {size : Nat} {ids : List ChannelId} {id x : ChannelId}

/-- Cut into rounds of a size, a list has no identifier twice in one round. -/
def Spaced (size : Nat) (ids : List ChannelId) : Prop :=
  ∀ i j id, i < j → ids[i]? = some id → ids[j]? = some id → i / size < j / size

/-- An identifier stands in full rounds only, so it may come next. -/
def MayFollow (size : Nat) (ids : List ChannelId) (id : ChannelId) : Prop :=
  ∀ i, ids[i]? = some id → i / size < ids.length / size

theorem spaced_nil (size : Nat) : Spaced size [] := by
  intro i j id _ hi
  simp at hi

theorem mayFollow_nil (size : Nat) (id : ChannelId) : MayFollow size [] id := by
  intro i hi
  simp at hi

theorem Spaced.append (h : Spaced size ids) (hx : MayFollow size ids x) : Spaced size (ids ++ [x]) := by
  intro i j id hij hi hj
  have hjlt : j < ids.length + 1 := by simpa using (List.getElem?_eq_some_iff.1 hj).1
  have hi' : ids[i]? = some id := by rwa [List.getElem?_append_left (by omega)] at hi
  by_cases hjl : j < ids.length
  · exact h i j id hij hi' (by rwa [List.getElem?_append_left hjl] at hj)
  · obtain rfl : j = ids.length := by omega
    have hxid : x = id := by simpa using hj
    exact hx i (hxid ▸ hi')

theorem MayFollow.append (h : MayFollow size ids id) (hne : x ≠ id) : MayFollow size (ids ++ [x]) id := by
  intro i hi
  have hlt : i < ids.length := by
    by_contra hge
    have hieq : i = ids.length := by
      have := (List.getElem?_eq_some_iff.1 hi).1
      simp at this
      omega
    subst hieq
    exact hne (by simpa using hi)
  have hle : ids.length / size ≤ (ids ++ [x]).length / size := Nat.div_le_div_right (by simp)
  exact Nat.lt_of_lt_of_le (h i (by rwa [List.getElem?_append_left hlt] at hi)) hle

theorem mayFollow_of_dvd (hpos : 0 < size) (hd : size ∣ ids.length) : MayFollow size ids id := by
  intro i hi
  obtain ⟨k, hk⟩ := hd
  have hlt := (List.getElem?_eq_some_iff.1 hi).1
  rw [hk, Nat.mul_div_cancel_left k hpos]
  exact Nat.div_lt_of_lt_mul (hk ▸ hlt)

theorem mayFollow_of_notMem (h : id ∉ ids) : MayFollow size ids id := by
  intro i hi
  exact absurd (List.mem_of_getElem? hi) h

theorem Spaced.drop (hpos : 0 < size) (h : Spaced size ids) : Spaced size (ids.drop size) := by
  intro i j id hij hi hj
  rw [List.getElem?_drop] at hi hj
  have hs := h (size + i) (size + j) id (by omega) hi hj
  rwa [Nat.add_div_left i hpos, Nat.add_div_left j hpos, Nat.succ_lt_succ_iff] at hs

theorem MayFollow.drop (hpos : 0 < size) (hle : size ≤ ids.length) (h : MayFollow size ids id) :
    MayFollow size (ids.drop size) id := by
  intro i hi
  rw [List.getElem?_drop] at hi
  have hs := h (size + i) hi
  obtain ⟨k, hk⟩ := Nat.exists_eq_add_of_le hle
  rw [hk, Nat.add_div_left i hpos, Nat.add_div_left k hpos, Nat.succ_lt_succ_iff] at hs
  simpa [hk] using hs

theorem Spaced.of_append {first second : List ChannelId} (h : Spaced size (first ++ second)) :
    Spaced size first := by
  intro i j id hij hi hj
  have hlt := (List.getElem?_eq_some_iff.1 hj).1
  exact h i j id hij (by rwa [List.getElem?_append_left (by omega)])
    (by rwa [List.getElem?_append_left hlt])

/-- What fits into one round has no identifier twice. -/
theorem Spaced.nodup (h : Spaced size ids) (hle : ids.length ≤ size) : ids.Nodup := by
  rw [List.nodup_iff_getElem?_ne_getElem?]
  intro i j hij hj heq
  have hs := h i j ids[j] hij (by rw [heq]; exact List.getElem?_eq_getElem hj)
    (List.getElem?_eq_getElem hj)
  rw [Nat.div_eq_of_lt (by omega), Nat.div_eq_of_lt (by omega)] at hs
  exact Nat.lt_irrefl _ hs

theorem spaced_append_iff (hpos : 0 < size) {round rest : List ChannelId}
    (hround : round.length = size ∨ rest = [] ∧ round.length ≤ size) :
    Spaced size (round ++ rest) ↔ round.Nodup ∧ Spaced size rest := by
  constructor
  · intro h
    rcases hround with rfl | ⟨rfl, hle⟩
    · exact ⟨h.of_append.nodup (Nat.le_refl _), by simpa using h.drop hpos⟩
    · exact ⟨h.of_append.nodup hle, spaced_nil size⟩
  · rintro ⟨hnodup, h⟩ i j id hij hi hj
    by_cases hjr : j < round.length
    · rw [List.getElem?_append_left (by omega)] at hi
      rw [List.getElem?_append_left hjr] at hj
      exact absurd (hnodup.getElem_inj_iff.1 (Option.some.inj
        ((List.getElem?_eq_getElem (by omega)).symm.trans (hi.trans (hj.symm.trans
          (List.getElem?_eq_getElem hjr)))))) (Nat.ne_of_lt hij)
    · rcases hround with rfl | ⟨rfl, -⟩
      · obtain ⟨k, rfl⟩ := Nat.exists_eq_add_of_le (Nat.le_of_not_lt hjr)
        rw [Nat.add_div_left k hpos]
        by_cases hir : i < round.length
        · rw [Nat.div_eq_of_lt hir]
          exact Nat.succ_pos _
        · obtain ⟨l, rfl⟩ := Nat.exists_eq_add_of_le (Nat.le_of_not_lt hir)
          rw [List.getElem?_append_right (by omega), Nat.add_sub_cancel_left] at hi hj
          rw [Nat.add_div_left l hpos]
          exact Nat.succ_lt_succ (h l k id (by omega) hi hj)
      · rw [List.append_nil] at hj
        exact absurd (List.getElem?_eq_some_iff.1 hj).1 hjr

/-- An identifier that stands last in a round that is not full may not come next. -/
theorem not_spaced_append_last (hlast : ids.getLast? = some id) (hd : ¬ size ∣ ids.length) :
    ¬ Spaced size (ids ++ [id]) := by
  intro h
  obtain ⟨front, rfl⟩ := List.getLast?_eq_some_iff.1 hlast
  have hs := h front.length (front.length + 1) id (Nat.lt_succ_self _) (by simp) (by simp)
  rw [List.length_append, List.length_singleton, ← Nat.succ_eq_add_one] at hd
  rw [← Nat.succ_eq_add_one, Nat.succ_div, if_neg hd] at hs
  exact Nat.lt_irrefl _ hs

end Spacing

@[simp] theorem requesters_nil : requesters [] = [] := rfl

@[simp] theorem requesters_append (first second : List Message) :
    requesters (first ++ second) = requesters first ++ requesters second := by
  simp [requesters]

theorem requesters_cons_some {m : Message} {id : ChannelId} (h : m.requester? = some id)
    (rest : List Message) : requesters (m :: rest) = id :: requesters rest := by
  simp [requesters, h]

theorem requesters_cons_none {m : Message} (h : m.requester? = none) (rest : List Message) :
    requesters (m :: rest) = requesters rest := by
  simp [requesters, h]

theorem Message.requester?_stripHeader (n : Nat) (m : Message) :
    (m.stripHeader n).requester? = m.requester? := by
  cases m <;> rfl

@[simp] theorem Channel.requester?_requestOf (c : Channel) (payload : Bytes) :
    (c.requestOf payload).requester? = some c.id := by
  unfold requestOf
  split <;> rfl

namespace RequestMixer
variable {shuffle : List Message → List Message}

/-- Neither the header that goes nor the size ahead changes whose requests a round holds. -/
theorem requesters_announced (m : RequestMixer) (round : List Message) :
    requesters (m.announced round) = requesters round :=
  filterMap_announced (fun n message => message.requester?_stripHeader n) (fun _ => rfl) m round

theorem requesters_flush (hsh : ∀ l, (shuffle l).Perm l) (m : RequestMixer) :
    (requesters (m.flush shuffle).sent).Perm (requesters m.batch) := by
  rw [flush, requesters_announced]
  exact (hsh m.batch).filterMap _

theorem step_request {m : RequestMixer} {request : Message} {id : ChannelId}
    (h : request.requester? = some id) :
    m.step shuffle (.arrival request) = m.collect shuffle request := by
  cases request <;> first | rfl | cases h

end RequestMixer

/-- No round has an identifier twice, and none would have if a channel with a free slot sent next. -/
structure SlotsSpaced (size : Nat) (r : ChannelRegistry) (ids : List ChannelId) : Prop where
  spaced : Spaced size ids
  free : ∀ c ∈ r.channels, c.requestClaimed = false → MayFollow size ids c.id

theorem Intake.slotsSpaced {size : Nat} {r r' : ChannelRegistry} {sent : List Message}
    {ids : List ChannelId} (hi : Intake r sent r') (h : SlotsSpaced size r ids) :
    SlotsSpaced size r' (ids ++ requesters sent) := by
  induction hi generalizing ids with
  | idle r => simpa using h
  | @store r c hf =>
    rw [requesters_nil, List.append_nil]
    refine ⟨h.spaced, fun d hd hfree => ?_⟩
    obtain ⟨e, he, rfl⟩ := ChannelRegistry.mem_modify.1 hd
    by_cases hid : e.id = c.id
    · rw [if_pos hid] at hfree ⊢
      exact h.free c (ChannelRegistry.mem_of_find? hf) hfree
    · rw [if_neg hid] at hfree ⊢
      exact h.free e he hfree
  | @request r c payload hf hfree =>
    rw [requesters_cons_some (c.requester?_requestOf payload), requesters_nil]
    refine ⟨h.spaced.append (h.free c (ChannelRegistry.mem_of_find? hf) hfree), fun d hd hd' => ?_⟩
    obtain ⟨e, he, rfl⟩ := ChannelRegistry.mem_modify.1 hd
    by_cases hid : e.id = c.id
    · rw [if_pos hid] at hd'
      cases hd'
    · rw [if_neg hid] at hd' ⊢
      exact (h.free e he hd').append (Ne.symm hid)
  | leave r id released =>
    have hnil : requesters (if released then [.release id] else []) = [] := by
      cases released <;> rfl
    rw [hnil, List.append_nil]
    exact ⟨h.spaced, fun d hd => h.free d (ChannelRegistry.mem_discard.1 hd).1⟩
  | seq first second ih₁ ih₂ =>
    rw [requesters_append, ← List.append_assoc]
    exact ih₂ (ih₁ h)

/-- Clients send no sizes of rounds. -/
theorem Intake.kind_ne_batchSize {r r' : ChannelRegistry} {sent : List Message}
    (hi : Intake r sent r') : ∀ m ∈ sent, m.kind ≠ .batchSize := by
  induction hi with
  | idle r => simp
  | store hf => simp
  | @request r c payload hf hfree =>
    intro m hm
    obtain rfl := List.mem_singleton.1 hm
    unfold Channel.requestOf
    split <;> simp [Message.kind]
  | leave r id released =>
    intro m hm
    cases released
    · simp at hm
    · obtain rfl := List.mem_singleton.1 hm
      simp [Message.kind]
  | seq first second ih₁ ih₂ =>
    intro m hm
    rcases List.mem_append.1 hm with hm | hm
    · exact ih₁ m hm
    · exact ih₂ m hm

theorem length_requesters {messages : List Message} (h : ∀ m ∈ messages, m.requester? ≠ none) :
    (requesters messages).length = messages.length := by
  induction messages with
  | nil => rfl
  | cons m rest ih =>
    obtain ⟨id, hid⟩ := Option.ne_none_iff_exists'.1 (h m (by simp))
    rw [requesters_cons_some hid, List.length_cons, List.length_cons,
      ih fun d hd => h d (List.mem_cons_of_mem m hd)]
namespace FirstRelay
variable {shuffle : List Message → List Message} {s : FirstRelay}

/-- No request that is read shares its round with an earlier one of its channel. -/
def Unshared (s : FirstRelay) (e : FirstRelayEvent) : Prop :=
  Spaced s.mixer.roundSize (s.pending ++ requesters (s.heard e))

/-- What holds between any two steps, whether slots are freed in time or too early. -/
structure Shape (s : FirstRelay) : Prop where
  batch_lt : s.mixer.batch.length < s.mixer.roundSize
  batch_requests : ∀ m ∈ s.mixer.batch, m.requester? ≠ none
  closing_batch : s.closing = true → s.mixer.batch = []
  waiting_kind : ∀ m ∈ s.waiting, m.kind ≠ .batchSize

/-- What a step does to the pending requests: those heard join them at the end, or a round leaves
from their front, a full one or all that there are. -/
inductive Progress (s : FirstRelay) (heard sent : List Message) (s' : FirstRelay) : Prop
  | held (hsent : requesters sent = []) (hp : s'.pending = s.pending ++ requesters heard)
  | left {round : List ChannelId} (hheard : heard = []) (hsent : (requesters sent).Perm round)
      (hp : s.pending = round ++ s'.pending)
      (hround : round.length = s.mixer.roundSize ∨
        s'.pending = [] ∧ round.length ≤ s.mixer.roundSize)

/-- A step between two states of the right shape. -/
structure Sound (s : FirstRelay) (heard : List Message) (t : List Message × FirstRelay) : Prop where
  shape : Shape t.2
  roundSize : t.2.mixer.roundSize = s.mixer.roundSize
  progress : Progress s heard t.1 t.2

theorem shape_start (settings : MixerSettings) (listener : ClientListener) :
    Shape (start settings listener) where
  batch_lt := Nat.lt_of_lt_of_le Nat.zero_lt_one (Nat.le_max_left 1 settings.roundSize)
  batch_requests := by simp [start, RequestMixer.start]
  closing_batch := by simp [start]
  waiting_kind := by simp [start]

theorem Shape.idle (h : Shape s) : Sound s [] ([], s) :=
  ⟨h, rfl, .held rfl (by simp)⟩

theorem Shape.hear (h : Shape s) {heard : List Message × ClientListener}
    (hi : Intake s.listener.registry heard.1 heard.2.registry) :
    Sound s heard.1 ([], s.hear heard) := by
  refine ⟨{ h with waiting_kind := fun m hm => ?_ }, rfl, .held rfl ?_⟩
  · rcases List.mem_append.1 hm with hm | hm
    · exact h.waiting_kind m hm
    · exact hi.kind_ne_batchSize m hm
  · simp [FirstRelay.hear, pending, List.append_assoc]

theorem Shape.connect (h : Shape s) (address : IpAddress) :
    Sound s [] (s.step shuffle (.connect address)) :=
  ⟨{ h with }, rfl, .held rfl (by simp [step, pending])⟩

theorem Shape.close (h : Shape s) : Sound s [] (s.step shuffle .close) := by
  rw [step]
  split
  · exact ⟨{ h with closing_batch := fun h => absurd h Bool.false_ne_true }, rfl,
      .held rfl (by simp [pending])⟩
  · exact h.idle

/-- Sending a round that is full, or all that is pending. -/
theorem Shape.flush (h : Shape s) (hsh : ∀ l, (shuffle l).Perm l) {m : RequestMixer}
    (hm : m.roundSize = s.mixer.roundSize) {rest : List Message}
    (hp : s.pending = requesters m.batch ++ requesters rest)
    (hround : (requesters m.batch).length = s.mixer.roundSize ∨
      rest = [] ∧ (requesters m.batch).length ≤ s.mixer.roundSize)
    (hrest : ∀ m ∈ rest, m.kind ≠ .batchSize) (closing : Bool) :
    Sound s [] ((m.flush shuffle).sent, ⟨s.listener, rest, { m with batch := [] }, closing⟩) := by
  have hpos := Nat.zero_lt_of_lt h.batch_lt
  have hleft : (⟨s.listener, rest, { m with batch := [] }, closing⟩ : FirstRelay).pending =
      requesters rest := rfl
  refine ⟨⟨hm ▸ hpos, by simp, fun _ => rfl, hrest⟩, hm, ?_⟩
  refine .left rfl (m.requesters_flush hsh) (by rw [hp, hleft]) ?_
  rw [hleft]
  exact hround.imp_right fun ⟨hnil, hle⟩ => ⟨by rw [hnil, requesters_nil], hle⟩

/-- The mixer with one more request in its round. -/
def grown (s : FirstRelay) (m : Message) : RequestMixer :=
  { s.mixer with batch := s.mixer.batch ++ [m] }

theorem mix_request {m : Message} {id : ChannelId} (hm : m.requester? = some id)
    (rest : List Message) :
    s.mix shuffle rest (.arrival m) =
      if s.mixer.roundSize ≤ (s.grown m).batch.length then
        (((s.grown m).flush shuffle).sent,
          ⟨s.listener, rest, { s.grown m with batch := [] }, s.mixer.settings.isFirst⟩)
      else ([], ⟨s.listener, rest, s.grown m, false⟩) := by
  have hcollect : s.mixer.collect shuffle m =
      if s.mixer.roundSize ≤ (s.grown m).batch.length then (s.grown m).flush shuffle
      else (s.grown m).idle := rfl
  rw [mix, RequestMixer.step_request hm, hcollect]
  split <;> rfl

/-- What is not a request passes the mixer by, and there are no sizes of rounds. -/
theorem mix_control (shuffle : List Message → List Message) (s : FirstRelay) {m : Message}
    (hm : m.requester? = none) (hk : m.kind ≠ .batchSize) (rest : List Message) :
    requesters (s.mix shuffle rest (.arrival m)).1 = [] ∧
      (s.mix shuffle rest (.arrival m)).2 = ⟨s.listener, rest, s.mixer, false⟩ := by
  cases m with
  | establish | message => cases hm
  | release | reply => exact ⟨rfl, rfl⟩
  | batchSize n => exact absurd rfl hk

theorem Shape.grown_requests (h : Shape s) {m : Message} {id : ChannelId}
    (hm : m.requester? = some id) : ∀ d ∈ (s.grown m).batch, d.requester? ≠ none := by
  intro d hd
  rcases List.mem_append.1 hd with hd | hd
  · exact h.batch_requests d hd
  · rw [List.mem_singleton.1 hd, hm]
    exact Option.some_ne_none id

theorem Shape.take_request (h : Shape s) (hsh : ∀ l, (shuffle l).Perm l) {m : Message}
    {rest : List Message} {id : ChannelId} (hm : m.requester? = some id)
    (hw : s.waiting = m :: rest) : Sound s [] (s.mix shuffle rest (.arrival m)) := by
  have hrequests := h.grown_requests hm
  have hlt := h.batch_lt
  have hlen : (s.grown m).batch.length = s.mixer.batch.length + 1 := by simp [grown]
  have hp : s.pending = requesters (s.grown m).batch ++ requesters rest := by
    rw [pending, hw, ← requesters_append, grown, List.append_assoc, List.singleton_append]
  have hkind : ∀ d ∈ rest, d.kind ≠ .batchSize := fun d hd =>
    h.waiting_kind d (hw ▸ List.mem_cons_of_mem m hd)
  rw [mix_request hm]
  split
  · rename_i hfull
    refine h.flush hsh (m := s.grown m) rfl hp (.inl ?_) hkind _
    rw [length_requesters hrequests]
    omega
  · rename_i hshort
    refine ⟨⟨Nat.lt_of_not_le hshort, hrequests, fun h => absurd h Bool.false_ne_true, hkind⟩, rfl,
      .held rfl ?_⟩
    rw [hp, requesters_nil, List.append_nil, ← requesters_append]
    rfl

theorem Shape.take (h : Shape s) (hsh : ∀ l, (shuffle l).Perm l) :
    Sound s [] (s.step shuffle .take) := by
  rw [step]
  split
  · rename_i m rest hc hw
    rcases hm : m.requester? with _ | id
    · obtain ⟨hsent, hs⟩ := mix_control shuffle s hm
        (h.waiting_kind m (hw ▸ List.mem_cons_self)) rest
      have hkind : ∀ d ∈ rest, d.kind ≠ .batchSize := fun d hd =>
        h.waiting_kind d (hw ▸ List.mem_cons_of_mem m hd)
      refine ⟨?_, by rw [hs], .held hsent ?_⟩
      · rw [hs]
        exact ⟨h.batch_lt, h.batch_requests, fun h => absurd h Bool.false_ne_true, hkind⟩
      · rw [hs, pending, pending, hw, requesters_append, requesters_append, requesters_cons_none hm,
          requesters_nil, List.append_nil]
    · exact h.take_request hsh hm hw
  · exact h.idle

theorem Shape.timeout (h : Shape s) (hsh : ∀ l, (shuffle l).Perm l) :
    Sound s [] (s.step shuffle .timeout) := by
  rw [step]
  split
  · rename_i hc hw
    rw [mix, RequestMixer.step, RequestMixer.flushUnlessEmpty]
    split
    · refine ⟨⟨h.batch_lt, h.batch_requests, fun h => absurd h Bool.false_ne_true, by simp⟩, rfl,
        .held rfl ?_⟩
      simp [pending, hw, RequestMixer.idle]
    · have hle : (requesters s.mixer.batch).length ≤ s.mixer.roundSize := by
        rw [length_requesters h.batch_requests]
        exact Nat.le_of_lt h.batch_lt
      exact h.flush hsh rfl (by simp [pending, hw]) (.inr ⟨rfl, hle⟩) (by simp) _
  · exact h.idle

theorem Shape.step (h : Shape s) (hsh : ∀ l, (shuffle l).Perm l) (e : FirstRelayEvent) :
    Sound s (s.heard e) (s.step shuffle e) := by
  cases e with
  | connect address => exact h.connect address
  | arrive token bytes ended => exact h.hear (s.listener.arrive_intake token bytes ended)
  | resume token => exact h.hear (s.listener.resumeOne_intake token)
  | take => exact h.take hsh
  | timeout => exact h.timeout hsh
  | close => exact h.close

/-- A step that hears no second request for a round is one that sends no round with two, unless it
makes one among the pending. -/
theorem Sound.unshared_iff {heard : List Message} {t : List Message × FirstRelay} (h : Shape s)
    (ht : Sound s heard t) :
    Spaced s.mixer.roundSize (s.pending ++ requesters heard) ↔
      (requesters t.1).Nodup ∧ Spaced s.mixer.roundSize t.2.pending := by
  rcases ht.progress with ⟨hsent, hp⟩ | ⟨rfl, hsent, hp, hround⟩
  · simp [hsent, hp]
  · rw [requesters_nil, List.append_nil, hsent.nodup_iff, hp]
    exact spaced_append_iff (Nat.zero_lt_of_lt h.batch_lt) hround

theorem along_unshared_iff (hsh : ∀ l, (shuffle l).Perm l) (h : Shape s)
    (events : List FirstRelayEvent) :
    (Spaced s.mixer.roundSize s.pending ∧ Along (next shuffle) Unshared s events) ↔
      (∀ sent ∈ departures shuffle s events, (requesters sent).Nodup) ∧
        Spaced s.mixer.roundSize (events.foldl (next shuffle) s).pending := by
  induction events generalizing s with
  | nil => simp [Along, departures]
  | cons e rest ih =>
    have hstep := h.step hsh e
    have hone := hstep.unshared_iff h
    have hrest := ih hstep.shape
    rw [hstep.roundSize] at hrest
    have hweak : Unshared s e → Spaced s.mixer.roundSize s.pending := Spaced.of_append
    simp only [Along, departures, List.forall_mem_cons, List.foldl_cons]
    constructor
    · rintro ⟨-, hu, ha⟩
      obtain ⟨hnodup, hspaced⟩ := hone.1 hu
      obtain ⟨hsent, hlast⟩ := hrest.1 ⟨hspaced, ha⟩
      exact ⟨⟨hnodup, hsent⟩, hlast⟩
    · rintro ⟨⟨hnodup, hsent⟩, hlast⟩
      obtain ⟨hspaced, ha⟩ := hrest.2 ⟨hsent, hlast⟩
      have hu := hone.2 ⟨hnodup, hspaced⟩
      exact ⟨hweak hu, hu, ha⟩

/-- While slots are freed in time, the slots know what may come next. -/
def Slotted (s : FirstRelay) : Prop := SlotsSpaced s.mixer.roundSize s.listener.registry s.pending

theorem listener_take : (s.step shuffle .take).2.listener = s.listener := by
  rw [step]
  split <;> rfl

theorem listener_timeout : (s.step shuffle .timeout).2.listener = s.listener := by
  rw [step]
  split <;> rfl

/-- The mixer at work leaves the slots right. -/
theorem Slotted.mixed (h : Shape s) (hs : Slotted s) {t : List Message × FirstRelay}
    (ht : Sound s [] t) (hl : t.2.listener = s.listener) : Slotted t.2 := by
  have hpos := Nat.zero_lt_of_lt h.batch_lt
  rw [Slotted, hl, ht.roundSize]
  rcases ht.progress with ⟨-, hp⟩ | @⟨round, -, -, hp, hfull | ⟨hnil, -⟩⟩
  · rw [hp, requesters_nil, List.append_nil]
    exact hs
  · have hdrop : s.pending.drop s.mixer.roundSize = t.2.pending := by
      rw [hp, ← hfull, List.drop_left]
    have hle : s.mixer.roundSize ≤ s.pending.length := by
      rw [hp, List.length_append, hfull]
      exact Nat.le_add_right _ _
    rw [← hdrop]
    exact ⟨hs.spaced.drop hpos, fun c hc hfree => (hs.free c hc hfree).drop hpos hle⟩
  · rw [hnil]
    exact ⟨spaced_nil _, fun _ _ _ => mayFollow_nil _ _⟩

theorem Slotted.connect (hs : Slotted s) (address : IpAddress) (hid : s.nextId ∉ s.pending) :
    Slotted (s.next shuffle (.connect address)) := by
  refine ⟨hs.spaced, fun c hc hfree => ?_⟩
  simp only [next, step, ClientListener.accept] at hc
  split at hc
  · exact hs.free c hc hfree
  · rcases ChannelRegistry.mem_add.1 hc with hc | rfl
    · exact hs.free c hc hfree
    · exact mayFollow_of_notMem hid

theorem Slotted.close (h : Shape s) (hs : Slotted s)
    (hd : s.closing = true → s.mixer.roundSize ∣ (requesters s.waiting).length) :
    Slotted (s.next shuffle .close) := by
  by_cases hc : s.closing = true
  · have hpend : s.pending = requesters s.waiting := by simp [pending, h.closing_batch hc]
    rw [next, step, if_pos hc]
    exact ⟨hs.spaced, fun c _ _ =>
      mayFollow_of_dvd (Nat.zero_lt_of_lt h.batch_lt) (hpend ▸ hd hc)⟩
  · rw [next, step, if_neg hc]
    exact hs

theorem Slotted.hear (hs : Slotted s) {heard : List Message × ClientListener}
    (hi : Intake s.listener.registry heard.1 heard.2.registry) : Slotted (s.hear heard) := by
  have h := hi.slotsSpaced hs
  rwa [pending, ← requesters_append, List.append_assoc] at h

theorem Slotted.next (hsh : ∀ l, (shuffle l).Perm l) (h : Shape s) (hs : Slotted s)
    {e : FirstRelayEvent} (ho : s.Orderly e) : Slotted (s.next shuffle e) := by
  cases e with
  | connect address => exact hs.connect address ho
  | arrive token bytes ended => exact hs.hear (s.listener.arrive_intake token bytes ended)
  | resume token => exact hs.hear (s.listener.resumeOne_intake token)
  | take => exact hs.mixed h (h.take hsh) listener_take
  | timeout => exact hs.mixed h (h.timeout hsh) listener_timeout
  | close => exact hs.close h ho

theorem Slotted.unshared (hsh : ∀ l, (shuffle l).Perm l) (h : Shape s) (hs : Slotted s)
    {e : FirstRelayEvent} (ho : s.Orderly e) : s.Unshared e := by
  have hnext := (hs.next hsh h ho).spaced
  rcases (h.step hsh e).progress with ⟨-, hp⟩ | ⟨hheard, -, -, -⟩
  · rwa [FirstRelay.next, (h.step hsh e).roundSize, hp] at hnext
  · rw [Unshared, hheard, requesters_nil, List.append_nil]
    exact hs.spaced

theorem along_unshared_of_orderly (hsh : ∀ l, (shuffle l).Perm l) (h : Shape s) (hs : Slotted s)
    {events : List FirstRelayEvent} (ho : Along (next shuffle) Orderly s events) :
    Along (next shuffle) Unshared s events := by
  induction events generalizing s with
  | nil => trivial
  | cons e rest ih => exact ⟨hs.unshared hsh h ho.1, ih (h.step hsh e).shape (hs.next hsh h ho.1) ho.2⟩

theorem departures_append (first second : List FirstRelayEvent) :
    departures shuffle s (first ++ second) =
      departures shuffle s first ++ departures shuffle (first.foldl (next shuffle) s) second := by
  induction first generalizing s with
  | nil => rfl
  | cons e first ih => simp [departures, ih]

theorem Shape.run (hsh : ∀ l, (shuffle l).Perm l) (h : Shape s) (events : List FirstRelayEvent) :
    Shape (events.foldl (next shuffle) s) :=
  foldl_invariant (fun _ e h => (h.step hsh e).shape) events h

theorem Shape.run_roundSize (hsh : ∀ l, (shuffle l).Perm l) (h : Shape s)
    (events : List FirstRelayEvent) :
    (events.foldl (next shuffle) s).mixer.roundSize = s.mixer.roundSize := by
  induction events generalizing s with
  | nil => rfl
  | cons e rest ih => exact (ih (h.step hsh e).shape).trans (h.step hsh e).roundSize

theorem closing_close (shuffle : List Message → List Message) (s : FirstRelay) :
    (s.next shuffle .close).closing = false := by
  rw [next, step]
  split
  · rfl
  · rename_i h
    simpa using h

theorem waiting_close (shuffle : List Message → List Message) (s : FirstRelay) :
    (s.next shuffle .close).waiting = s.waiting := by
  rw [next, step]
  split <;> rfl

theorem waiting_take (shuffle : List Message → List Message) {m : Message} {rest : List Message}
    (hc : s.closing = false) (hw : s.waiting = m :: rest) : (s.next shuffle .take).waiting = rest := by
  simp [next, step, hc, hw, mix]

/-- Left to itself, the mixer sends all that is pending. -/
theorem exists_drained (shuffle : List Message → List Message) (s : FirstRelay) :
    ∃ events : List FirstRelayEvent, (events.foldl (next shuffle) s).pending = [] := by
  generalize hw : s.waiting = waiting
  induction waiting generalizing s with
  | nil =>
    refine ⟨[.close, .timeout], ?_⟩
    have hc := closing_close shuffle s
    have hn := (waiting_close shuffle s).trans hw
    simp only [List.foldl_cons, List.foldl_nil]
    generalize s.next shuffle .close = t at hc hn
    rw [next, step, hc, hn]
    dsimp only
    rw [mix, RequestMixer.step, RequestMixer.flushUnlessEmpty]
    split
    · rename_i hb
      simpa [pending, RequestMixer.idle] using congrArg requesters (List.isEmpty_iff.1 hb)
    · rfl
  | cons m rest ih =>
    have hw := waiting_take shuffle (closing_close shuffle s) ((waiting_close shuffle s).trans hw)
    obtain ⟨events, he⟩ := ih _ hw
    exact ⟨.close :: .take :: events, he⟩

/-- A channel that is freed while its request waits can have the next one read at once. -/
theorem heard_after_close (shuffle : List Message → List Message) {token : Nat} {channel : Channel}
    (hc : s.closing = true) (hr : s.listener.Ready token channel) {payload : Bytes}
    (hdue : payload.length =
      s.listener.settings.limits.framing.requestLength channel.established)
    (hpos : 0 < payload.length) (hmax : payload.length ≤ s.listener.settings.limits.maxFrameLength)
    (hword : payload.length < 2 ^ 32) :
    ∃ t, [FirstRelayEvent.close, .resume token].foldl (next shuffle) s = t ∧
      t.mixer = s.mixer ∧ t.waiting = s.waiting ∧
      t.heard (.arrive token (Frame.encodeClient payload) false) =
        [channel.clearRequest.requestOf payload] := by
  have hopen : ClientListener.Ready
      { s.listener with registry := s.listener.registry.closeRequestRound } token
      channel.clearRequest := by
    refine ⟨hr.client, ?_⟩
    have hf := hr.registered
    simp only [ChannelRegistry.find?, ChannelRegistry.closeRequestRound,
      ChannelRegistry.clearRequests, ChannelRegistry.countRequestRound, List.find?_map] at hf ⊢
    exact congrArg (Option.map Channel.clearRequest) hf
  obtain ⟨hsent, hset, hready, c, hc', hpaused⟩ := hopen.resumeOne rfl
  refine ⟨_, rfl, ?_, ?_, ?_⟩
  · simp [next, step, hc, hear]
  · simp [next, step, hc, hear, hsent]
  · have harrive := hready.arrive hc' hpaused rfl (hset ▸ hdue) hpos (hset ▸ hmax) hword
    simpa [next, step, hc, hear, heard] using harrive

/-- Slots that are freed too early spoil a round: the last channel that waits sends again. -/
theorem exists_shared_round (hsh : ∀ l, (shuffle l).Perm l) (h : Shape s) {token : Nat}
    {channel : Channel} (hc : s.closing = true)
    (hd : ¬ s.mixer.roundSize ∣ (requesters s.waiting).length)
    (hlast : (requesters s.waiting).getLast? = some channel.id)
    (hr : s.listener.Ready token channel) {payload : Bytes}
    (hdue : payload.length =
      s.listener.settings.limits.framing.requestLength channel.established)
    (hpos : 0 < payload.length) (hmax : payload.length ≤ s.listener.settings.limits.maxFrameLength)
    (hword : payload.length < 2 ^ 32) :
    ∃ events, ∃ sent ∈ departures shuffle s events, ¬ (requesters sent).Nodup := by
  obtain ⟨t, ht, hmixer, hwaiting, hheard⟩ :=
    heard_after_close shuffle hc hr hdue hpos hmax hword
  let again : FirstRelayEvent := .arrive token (Frame.encodeClient payload) false
  have hshared : ¬ t.Unshared again := by
    have hpend : t.pending = requesters s.waiting := by
      simp [pending, hmixer, hwaiting, h.closing_batch hc]
    rw [Unshared, hheard, hpend, hmixer, requesters_cons_some (Channel.requester?_requestOf _ _)]
    exact not_spaced_append_last hlast hd
  obtain ⟨drain, hdrain⟩ := exists_drained shuffle (t.next shuffle again)
  have hshape : Shape t := ht ▸ h.run hsh _
  refine ⟨[.close, .resume token] ++ (again :: drain), ?_⟩
  by_contra hnone
  refine hshared ((along_unshared_iff hsh hshape (again :: drain)).2 ⟨fun sent hsent => ?_, ?_⟩).2.1
  · refine not_not.1 fun hdup => hnone ⟨sent, ?_, hdup⟩
    rw [departures_append, ht]
    exact List.mem_append_right _ hsent
  · rw [List.foldl_cons, hdrain]
    exact spaced_nil _

/-- The mixer is about to free a channel whose request waits in a round that others will fill, and
its client could send the next one at once. -/
structure FreedEarly (s : FirstRelay) (token : Nat) (channel : Channel) (payload : Bytes) : Prop where
  closing : s.closing = true
  short : ¬ s.mixer.roundSize ∣ (requesters s.waiting).length
  last : (requesters s.waiting).getLast? = some channel.id
  ready : s.listener.Ready token channel
  due : payload.length = s.listener.settings.limits.framing.requestLength channel.established
  nonempty : 0 < payload.length
  fits : payload.length ≤ s.listener.settings.limits.maxFrameLength
  word : payload.length < 2 ^ 32

/-- The rounds of a run have one request per channel, those that have left and those in which the
pending requests will, exactly if none was read into a round that its channel had a part in. Slots
that are freed when whole rounds wait ensure it; slots that are freed earlier do not. -/
theorem rounds_nodup_iff (hsh : ∀ l, (shuffle l).Perm l) (settings : MixerSettings)
    (listener : ClientListener) (events : List FirstRelayEvent) :
    let s₀ := start settings listener
    let s := events.foldl (next shuffle) s₀
    (((∀ sent ∈ departures shuffle s₀ events, (requesters sent).Nodup) ∧
        Spaced s.mixer.roundSize s.pending) ↔ Along (next shuffle) Unshared s₀ events) ∧
    (Along (next shuffle) Orderly s₀ events → Along (next shuffle) Unshared s₀ events) ∧
    ∀ token channel payload, s.FreedEarly token channel payload →
      ∃ more, ∃ sent ∈ departures shuffle s₀ (events ++ more), ¬ (requesters sent).Nodup := by
  intro s₀ s
  have hshape : Shape s₀ := shape_start settings listener
  have hspaced : Spaced s₀.mixer.roundSize s₀.pending := spaced_nil _
  have hslotted : Slotted s₀ := ⟨hspaced, fun _ _ _ => mayFollow_nil _ _⟩
  have hsize : s.mixer.roundSize = s₀.mixer.roundSize :=
    hshape.run_roundSize hsh events
  refine ⟨?_, along_unshared_of_orderly hsh hshape hslotted, ?_⟩
  · rw [hsize, ← along_unshared_iff hsh hshape events]
    exact and_iff_right hspaced
  · intro token channel payload h
    obtain ⟨more, sent, hsent, hdup⟩ := exists_shared_round hsh (hshape.run hsh events) h.closing
      h.short h.last h.ready h.due h.nonempty h.fits h.word
    refine ⟨more, sent, ?_, hdup⟩
    rw [departures_append]
    exact List.mem_append_right _ hsent

/-- A listener whose clients send frames of one byte. -/
def byteListener : ClientListener :=
  .start ⟨⟨⟨0, 1, 1, 0⟩, 16⟩, false, 4⟩ (.new 4 4) (.empty 0) (.ofList [1, 2, 3])

/-- Rounds of two. -/
def pairs : MixerSettings := ⟨2, 50, 0, true, false⟩

/-- So many clients connect and send. -/
def sendAll (clients : Nat) : List FirstRelayEvent :=
  .replicate clients (.connect (.v4 127 0 0 1)) ++
    (List.range clients).map fun token => .arrive token (Frame.encodeClient [7]) false

theorem rounds_nodup_of_pair :
    (∀ l : List Message, (id l).Perm l) ∧
      ∀ sent ∈ departures id (start pairs byteListener)
        (sendAll 2 ++ [.take, .take, .close, .resume 1, .arrive 1 (Frame.encodeClient [8]) false,
          .take, .timeout]), (requesters sent).Nodup := by
  refine ⟨fun l => .refl l, ?_⟩
  have h := @rounds_nodup_iff id (fun l => .refl l) pairs byteListener
    (sendAll 2 ++ [.take, .take, .close, .resume 1, .arrive 1 (Frame.encodeClient [8]) false,
      .take, .timeout])
  exact (h.1.2 (h.2.1 (by decide))).1

/-- A third client whose request waits while the others' round leaves is freed with them. -/
theorem third_shares_round :
    ¬ ∀ sent ∈ departures id (start pairs byteListener)
        (sendAll 3 ++ [.take, .take, .close, .resume 2, .arrive 2 (Frame.encodeClient [8]) false,
          .take, .take]), (requesters sent).Nodup := by
  decide

end FirstRelay
end MixRelay
