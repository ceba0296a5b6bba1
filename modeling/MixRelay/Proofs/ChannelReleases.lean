import MixRelay.OutboundEdge
import MixRelay.Proofs.EdgeIdentifiers
import MixRelay.Proofs.RequestBatches
import MixRelay.Proofs.Runs
import Mathlib.Data.List.Basic

/-!
# What becomes of a channel that is released

Requests pass a queue, the mixer and the queue of the sender, which gives a channel its identifier on
the edge when it takes up the establish message and gives it up with the release. The mixer holds
establish messages back but not releases. A channel whose release overtakes its establish message
gets its identifier when nothing is left to give it up, and keeps it; the others are forgotten.
-/
namespace MixRelay

/-- What a message does to a channel on the edge: it opens it there or ends it. -/
inductive ChannelTurn
  | opens
  | ends
  deriving DecidableEq

def Message.turn? (c : ChannelId) : Message → Option ChannelTurn
  | .establish d _ => if d = c then some .opens else none
  | .release d => if d = c then some .ends else none
  | _ => none

/-- The turns that some messages make a channel take, in order. -/
def turns (c : ChannelId) (messages : List Message) : List ChannelTurn :=
  messages.filterMap (Message.turn? c)

/-- Nothing of a channel comes after its release, and its establish message comes once. -/
def Message.MayPrecede (a b : Message) : Prop :=
  a.channel? = b.channel? → a.kind ≠ .release ∧ ¬ (a.kind = .establish ∧ b.kind = .establish)

instance : DecidableRel Message.MayPrecede := fun a b =>
  inferInstanceAs (Decidable (a.channel? = b.channel? → _ ∧ _))

def Lifelike (messages : List Message) : Prop := messages.Pairwise Message.MayPrecede

instance (messages : List Message) : Decidable (Lifelike messages) :=
  inferInstanceAs (Decidable (messages.Pairwise _))

/-- The way of the requests through a relay that is not the last: the messages that wait for the
mixer, the mixer, and the edge with the messages behind the mixer. The last two fields only record
the messages that the sender has taken up and the frames that it made of them; the last frame may
still be in its hand. -/
structure RequestPath where
  waiting : List Message
  mixer : RequestMixer
  edge : OutboundEdge
  taken : List Message
  framed : List (Message × OutgoingFrame)

inductive RequestPathEvent
  | enqueue (message : Message)
  | take
  | timeout
  | send

/-- The messages put into the queue in a run. -/
def arrivals (events : List RequestPathEvent) : List Message :=
  events.filterMap fun
    | .enqueue m => some m
    | _ => none

namespace RequestPath

def start (settings : MixerSettings) (edge : OutboundEdge) : RequestPath :=
  ⟨[], .start settings, edge, [], []⟩

def mix (shuffle : List Message → List Message) (s : RequestPath) (rest : List Message)
    (e : MixerEvent) : RequestPath :=
  let t := s.mixer.step shuffle e
  { s with
    waiting := rest
    mixer := t.mixer
    edge := { s.edge with requests := s.edge.requests ++ t.sent } }

/-- The sender takes up the next message or writes the frame in hand. -/
def send (s : RequestPath) : RequestPath :=
  match s.edge.sendNext? with
  | none => s
  | some (_, e) =>
    match s.edge.inHand, s.edge.requests with
    | none, m :: _ => { s with
        edge := e
        taken := s.taken ++ [m]
        framed := s.framed ++ (e.inHand.map fun out => (m, out.frame)).toList }
    | _, _ => { s with edge := e }

/-- One step of one thread. The mixer gives up waiting only while nothing waits for it. -/
def step (shuffle : List Message → List Message) (s : RequestPath) : RequestPathEvent → RequestPath
  | .enqueue m => { s with waiting := s.waiting ++ [m] }
  | .take =>
    match s.waiting with
    | m :: rest => s.mix shuffle rest (.arrival m)
    | [] => s
  | .timeout => if s.waiting.isEmpty then s.mix shuffle [] .timeout else s
  | .send => s.send

/-- Nothing is on its way. -/
structure Quiet (s : RequestPath) : Prop where
  waiting : s.waiting = []
  batch : s.mixer.batch = []
  requests : s.edge.requests = []
  inHand : s.edge.inHand = none

/-- The edge has no identifier for the channel, and the next relay has been told to give up each one
that it was told of. -/
def Forgotten (s : RequestPath) (c : ChannelId) : Prop :=
  s.edge.table.edgeId? c = none ∧
    ∀ front payload frame back, s.framed = front ++ (.establish c payload, frame) :: back →
      (.release c, ⟨.ofChannel .release frame.header.field, []⟩) ∈ back

/-- No release is taken while the establish message of its channel waits in the round. -/
def Patient (s : RequestPath) : RequestPathEvent → Prop
  | .take => ∀ next ∈ s.waiting.head?, next.kind = .release →
      ∀ m ∈ s.mixer.batch, m.kind = .establish → m.channel? ≠ next.channel?
  | _ => True

instance (s : RequestPath) : ∀ e, Decidable (s.Patient e)
  | .take => inferInstanceAs (Decidable (∀ next ∈ s.waiting.head?, next.kind = .release → _))
  | .enqueue _ | .timeout | .send => .isTrue trivial

end RequestPath

@[simp] theorem turns_nil (c : ChannelId) : turns c [] = [] := rfl

@[simp] theorem turns_append (c : ChannelId) (first second : List Message) :
    turns c (first ++ second) = turns c first ++ turns c second := by
  simp [turns]

theorem turns_cons (c : ChannelId) (m : Message) (rest : List Message) :
    turns c (m :: rest) = turns c [m] ++ turns c rest := turns_append c [m] rest

theorem turns_single_none {c : ChannelId} {m : Message} (h : m.turn? c = none) :
    turns c [m] = [] := by
  simp [turns, h]

theorem Message.turn?_stripHeader (n : Nat) (c : ChannelId) (m : Message) :
    (m.stripHeader n).turn? c = m.turn? c := by
  cases m <;> rfl

theorem Message.turn?_of_channel? {c : ChannelId} {m : Message} (h : m.channel? ≠ some c) :
    m.turn? c = none := by
  cases m <;> simp_all [Message.turn?, Message.channel?]

theorem Message.turn?_eq_ends {c : ChannelId} {m : Message} :
    m.turn? c = some .ends ↔ m = .release c := by
  cases m <;> simp [Message.turn?]

theorem Message.turn?_eq_opens {c : ChannelId} {m : Message} :
    m.turn? c = some .opens ↔ ∃ payload, m = .establish c payload := by
  cases m <;> simp [Message.turn?]

namespace RequestMixer
variable {shuffle : List Message → List Message} {c : ChannelId}

/-- What a mixer holds back are requests, which open a channel if they do anything to it. -/
theorem turns_requests {batch : List Message} (h : ∀ m ∈ batch, m.isRequest = true) :
    ∀ t ∈ turns c batch, t = .opens := by
  intro t ht
  obtain ⟨m, hm, hmt⟩ := List.mem_filterMap.1 ht
  have hreq := h m hm
  cases m with
  | establish d p =>
    simp only [Message.turn?] at hmt
    split at hmt
    · exact (Option.some.inj hmt).symm
    · cases hmt
  | message => cases hmt
  | release | batchSize | reply => cases hreq

/-- So no shuffle shows in the turns of a channel. -/
theorem turns_shuffle (hsh : ∀ l, (shuffle l).Perm l) {batch : List Message}
    (h : ∀ m ∈ batch, m.isRequest = true) : turns c (shuffle batch) = turns c batch := by
  have hrep := List.eq_replicate_of_mem (turns_requests (c := c) h)
  have hperm : (turns c (shuffle batch)).Perm (turns c batch) := (hsh batch).filterMap _
  rw [hrep] at hperm ⊢
  exact List.perm_replicate.1 hperm

theorem turns_announced (m : RequestMixer) (round : List Message) :
    turns c (m.announced round) = turns c round :=
  filterMap_announced (fun n message => message.turn?_stripHeader n c) (fun _ => rfl) m round

/-- What a step makes of a channel's turns: those that leave, then those that stay. -/
def leftTurns (c : ChannelId) (t : RequestMixerStep) : List ChannelTurn :=
  turns c t.sent ++ turns c t.mixer.batch

theorem leftTurns_flush (hsh : ∀ l, (shuffle l).Perm l) {m : RequestMixer}
    (h : ∀ d ∈ m.batch, d.isRequest = true) : leftTurns c (m.flush shuffle) = turns c m.batch := by
  simp [leftTurns, flush, turns_announced, turns_shuffle hsh h]

theorem leftTurns_flushUnlessEmpty (hsh : ∀ l, (shuffle l).Perm l) {m : RequestMixer}
    (h : ∀ d ∈ m.batch, d.isRequest = true) :
    leftTurns c (m.flushUnlessEmpty shuffle) = turns c m.batch := by
  unfold flushUnlessEmpty
  split
  · rfl
  · exact leftTurns_flush hsh h

theorem leftTurns_collect (hsh : ∀ l, (shuffle l).Perm l) {m : RequestMixer}
    (h : ∀ d ∈ m.batch, d.isRequest = true) {request : Message} (hr : request.isRequest = true) :
    leftTurns c (m.collect shuffle request) = turns c m.batch ++ turns c [request] := by
  rw [← turns_append]
  unfold collect
  dsimp only
  split
  · refine leftTurns_flush (m := { m with batch := m.batch ++ [request] }) hsh fun d hd => ?_
    rcases List.mem_append.1 hd with hd | hd
    · exact h d hd
    · rwa [List.mem_singleton.1 hd]
  · rfl

theorem leftTurns_arrival (hsh : ∀ l, (shuffle l).Perm l) {m : RequestMixer}
    (h : ∀ d ∈ m.batch, d.isRequest = true) {message : Message} (hr : message.turn? c ≠ some .ends) :
    leftTurns c (m.step shuffle (.arrival message)) = turns c m.batch ++ turns c [message] := by
  cases message with
  | establish | message => exact leftTurns_collect hsh h rfl
  | release d =>
    have hnil : turns c [.release d] = [] := by
      simp only [turns, List.filterMap_eq_nil_iff, List.mem_singleton, forall_eq]
      simpa [Message.turn?] using hr
    simp [step, leftTurns, hnil]
  | batchSize n =>
    simp only [step]
    split
    · rw [leftTurns_flushUnlessEmpty hsh h]
      simp [turns, Message.turn?]
    · rw [leftTurns_flushUnlessEmpty (m := { m with roundSize := n.toNat }) hsh h]
      simp [turns, Message.turn?]
  | reply => simp [step, idle, leftTurns, turns, Message.turn?]

theorem leftTurns_release (m : RequestMixer) :
    leftTurns c (m.step shuffle (.arrival (.release c))) = .ends :: turns c m.batch := by
  simp [step, leftTurns, turns, Message.turn?]

end RequestMixer

namespace OutboundEdge

/-- A table once a frame is written. -/
def settle (table : EdgeIdTable) : Option OutboundFrame → EdgeIdTable
  | some ⟨_, some id⟩ => table.dropLocal id
  | _ => table

/-- What taking a message up makes of the table, once its frame is written. -/
def tableAfter (table : EdgeIdTable) (draws : Draws) (m : Message) : EdgeIdTable :=
  settle (frame? table draws m).2.2 (frame? table draws m).1

variable {table : EdgeIdTable} {draws : Draws} {c : ChannelId} {m : Message}

theorem edgeId?_tableAfter (h : m.turn? c = none) :
    (tableAfter table draws m).edgeId? c = table.edgeId? c := by
  cases m with
  | establish d payload =>
    have hne : c ≠ d := by
      rintro rfl
      simp [Message.turn?] at h
    exact EdgeIdTable.edgeId?_allocate_of_ne hne draws
  | release d =>
    have hne : c ≠ d := by
      rintro rfl
      simp [Message.turn?] at h
    simp only [tableAfter, frame?]
    cases table.edgeId? d with
    | none => rfl
    | some edge => exact EdgeIdTable.edgeId?_dropLocal_of_ne hne
  | message d payload =>
    simp only [tableAfter, frame?]
    cases table.edgeId? d <;> rfl
  | batchSize | reply => rfl

theorem edgeId?_tableAfter_release : (tableAfter table draws (.release c)).edgeId? c = none := by
  simp only [tableAfter, frame?]
  cases h : table.edgeId? c with
  | none => exact h
  | some edge => exact EdgeIdTable.edgeId?_dropLocal_self table c

end OutboundEdge

namespace RequestPath
variable {shuffle : List Message → List Message} {s : RequestPath} {c : ChannelId}

def settledTable (s : RequestPath) : EdgeIdTable :=
  OutboundEdge.settle s.edge.table s.edge.inHand

/-- What the table and the frames of the sender say of a channel that has taken some turns. -/
structure Served (c : ChannelId) (s : RequestPath) : Prop where
  entry : (s.settledTable.edgeId? c).isSome = true ↔ (turns c s.taken).getLast? = some .opens
  opened : (turns c (s.framed.map Prod.fst)).Sublist (turns c s.taken)
  ended : ∀ front payload frame back, s.framed = front ++ (.establish c payload, frame) :: back →
    (.release c, ⟨.ofChannel .release frame.header.field, []⟩) ∈ back ∨
      s.settledTable.edgeId? c = some frame.header.field ∨ .opens ∈ turns c (back.map Prod.fst)

theorem served_start (settings : MixerSettings) {edge : OutboundEdge} (ht : edge.table = .empty)
    (hh : edge.inHand = none) (c : ChannelId) : Served c (start settings edge) where
  entry := by simp [start, settledTable, ht, hh, OutboundEdge.settle]
  opened := List.Sublist.refl []
  ended := by simp [start]

/-- Writing the frame in hand changes nothing of it. -/
theorem send_write {out : OutboundFrame} (h : s.edge.inHand = some out) :
    s.send.taken = s.taken ∧ s.send.framed = s.framed ∧ s.send.settledTable = s.settledTable ∧
      s.send.edge.requests = s.edge.requests := by
  unfold send OutboundEdge.sendNext?
  simp only [h]
  by_cases hc : s.edge.isConnected = true
  · rw [if_pos hc]
    refine ⟨rfl, rfl, ?_, rfl⟩
    simp only [settledTable, h]
    obtain ⟨frame, _ | id⟩ := out <;> rfl
  · rw [if_neg hc]
    exact ⟨rfl, rfl, rfl, rfl⟩

theorem send_idle (h : s.edge.inHand = none) (hr : s.edge.requests = []) : s.send = s := by
  simp [send, OutboundEdge.sendNext?, h, hr]

theorem send_take {m : Message} {rest : List Message} (h : s.edge.inHand = none)
    (hr : s.edge.requests = m :: rest) :
    s.send.taken = s.taken ++ [m] ∧ s.send.edge.requests = rest ∧
      s.send.framed = s.framed ++ ((OutboundEdge.frame? s.edge.table s.edge.draws m).1.map
        fun out => (m, out.frame)).toList ∧
      s.send.settledTable = OutboundEdge.tableAfter s.edge.table s.edge.draws m := by
  simp [send, OutboundEdge.sendNext?, h, hr, settledTable, OutboundEdge.tableAfter]

theorem eq_append_cons_of_concat {α : Type} {l front back : List α} {x y : α}
    (h : l ++ [y] = front ++ x :: back) :
    (back = [] ∧ x = y) ∨ ∃ more, back = more ++ [y] ∧ l = front ++ x :: more := by
  rcases List.eq_nil_or_concat back with rfl | ⟨more, z, rfl⟩
  · exact .inl ⟨rfl, ((List.append_inj' h rfl).2 |> List.singleton_inj.1).symm⟩
  · refine .inr ⟨more, ?_⟩
    rw [List.concat_eq_append] at h ⊢
    rw [← List.cons_append, ← List.append_assoc] at h
    obtain ⟨hl, hy⟩ := List.append_inj' h rfl
    exact ⟨by rw [List.singleton_inj.1 hy], hl⟩

/-- A message that does nothing to the channel leaves it as it is. -/
theorem Served.take_other (h : Served c s) (hh : s.edge.inHand = none) {m : Message}
    {rest : List Message} (hr : s.edge.requests = m :: rest) (hm : m.turn? c = none) :
    Served c s.send := by
  obtain ⟨htaken, -, hframed, htable⟩ := send_take hh hr
  have hturns : turns c s.send.taken = turns c s.taken := by
    rw [htaken, turns_append, turns_single_none hm, List.append_nil]
  have hedge : s.send.settledTable.edgeId? c = s.settledTable.edgeId? c := by
    rw [htable, OutboundEdge.edgeId?_tableAfter hm, settledTable, hh]
    rfl
  cases ho : (OutboundEdge.frame? s.edge.table s.edge.draws m).1 with
  | none =>
    rw [ho, Option.map_none, Option.toList_none, List.append_nil] at hframed
    refine ⟨?_, ?_, ?_⟩
    · rw [hedge, hturns]
      exact h.entry
    · rw [hframed, hturns]
      exact h.opened
    · rw [hframed, hedge]
      exact h.ended
  | some out =>
    rw [ho, Option.map_some, Option.toList_some] at hframed
    refine ⟨?_, ?_, ?_⟩
    · rw [hedge, hturns]
      exact h.entry
    · rw [hframed, hturns, List.map_append, turns_append, List.map_singleton,
        turns_single_none hm, List.append_nil]
      exact h.opened
    · intro front payload frame back hsplit
      rw [hframed] at hsplit
      rcases eq_append_cons_of_concat hsplit with ⟨-, heq⟩ | ⟨more, rfl, hmore⟩
      · obtain rfl := (Prod.mk.inj heq).1
        simp [Message.turn?] at hm
      · rw [hedge, List.map_append, turns_append]
        rcases h.ended front payload frame more hmore with hrel | hopen | hagain
        · exact .inl (List.mem_append_left _ hrel)
        · exact .inr (.inl hopen)
        · exact .inr (.inr (List.mem_append_left _ hagain))

theorem Served.take_establish (h : Served c s) (hh : s.edge.inHand = none) {payload : Bytes}
    {rest : List Message} (hr : s.edge.requests = .establish c payload :: rest) :
    Served c s.send := by
  obtain ⟨htaken, -, hframed, htable⟩ := send_take hh hr
  have hnew : turns c [.establish c payload] = [.opens] := by simp [turns, Message.turn?]
  have hturns : turns c s.send.taken = turns c s.taken ++ [.opens] := by
    rw [htaken, turns_append, hnew]
  have hedge : s.send.settledTable.edgeId? c =
      some (s.edge.table.allocate c s.edge.draws).1 := by
    rw [htable]
    exact EdgeIdTable.edgeId?_allocate_self _ _ _
  refine ⟨?_, ?_, ?_⟩
  · simp [hedge, hturns]
  · rw [hframed, hturns]
    simpa [OutboundEdge.frame?, hnew] using h.opened
  · intro front payload' frame back hsplit
    rw [hframed] at hsplit
    rcases eq_append_cons_of_concat hsplit with ⟨rfl, heq⟩ | ⟨more, rfl, -⟩
    · obtain rfl := (Prod.mk.inj heq).2
      exact .inr (.inl hedge)
    · refine .inr (.inr ?_)
      simp [hnew]

theorem Served.take_release (h : Served c s) (hh : s.edge.inHand = none) {rest : List Message}
    (hr : s.edge.requests = .release c :: rest) : Served c s.send := by
  obtain ⟨htaken, -, hframed, htable⟩ := send_take hh hr
  have hnew : turns c [.release c] = [.ends] := by simp [turns, Message.turn?]
  have hturns : turns c s.send.taken = turns c s.taken ++ [.ends] := by
    rw [htaken, turns_append, hnew]
  have hedge : s.send.settledTable.edgeId? c = none := by
    rw [htable]
    exact OutboundEdge.edgeId?_tableAfter_release
  have hset : s.settledTable = s.edge.table := by
    rw [settledTable, hh]
    rfl
  refine ⟨by simp [hedge, hturns], ?_, ?_⟩
  · rw [hframed, hturns, List.map_append, turns_append]
    refine h.opened.append ?_
    cases ho : s.edge.table.edgeId? c <;> simp [OutboundEdge.frame?, ho, hnew]
  · intro front payload frame back hsplit
    rw [hframed] at hsplit
    cases ho : s.edge.table.edgeId? c with
    | none =>
      simp only [OutboundEdge.frame?, ho, Option.map_none, Option.toList_none,
        List.append_nil] at hsplit
      rcases h.ended front payload frame back hsplit with hrel | hopen | hagain
      · exact .inl hrel
      · rw [hset, ho] at hopen
        cases hopen
      · exact .inr (.inr hagain)
    | some edge =>
      simp only [OutboundEdge.frame?, ho, Option.map_some, Option.toList_some] at hsplit
      rcases eq_append_cons_of_concat hsplit with ⟨-, heq⟩ | ⟨more, rfl, hmore⟩
      · cases (Prod.mk.inj heq).1
      · rcases h.ended front payload frame more hmore with hrel | hopen | hagain
        · exact .inl (List.mem_append_left _ hrel)
        · rw [hset, ho] at hopen
          obtain rfl := Option.some.inj hopen
          exact .inl (List.mem_append_right _ (List.mem_singleton_self _))
        · refine .inr (.inr ?_)
          rw [List.map_append, turns_append]
          exact List.mem_append_left _ hagain

theorem Served.send (h : Served c s) : Served c s.send := by
  cases hh : s.edge.inHand with
  | some out =>
    obtain ⟨htaken, hframed, htable, -⟩ := send_write hh
    exact ⟨by rw [htable, htaken]; exact h.entry, by rw [hframed, htaken]; exact h.opened,
      by rw [hframed, htable]; exact h.ended⟩
  | none =>
    cases hr : s.edge.requests with
    | nil => rwa [send_idle hh hr]
    | cons m rest =>
      cases hm : m.turn? c with
      | none => exact h.take_other hh hr hm
      | some turn =>
        cases turn with
        | ends =>
          obtain rfl := Message.turn?_eq_ends.1 hm
          exact h.take_release hh hr
        | opens =>
          obtain ⟨payload, rfl⟩ := Message.turn?_eq_opens.1 hm
          exact h.take_establish hh hr

end RequestPath

namespace RequestPath
variable {shuffle : List Message → List Message} {s : RequestPath} {c : ChannelId}

/-- The turns of a channel that the mixer has seen, in the order in which the sender takes them up. -/
def mixedTurns (c : ChannelId) (s : RequestPath) : List ChannelTurn :=
  turns c (s.taken ++ s.edge.requests) ++ turns c s.mixer.batch

/-- The batch holds requests only. -/
def Batched (s : RequestPath) : Prop := ∀ m ∈ s.mixer.batch, m.isRequest = true

theorem send_mixer : s.send.waiting = s.waiting ∧ s.send.mixer = s.mixer := by
  unfold send
  split
  · exact ⟨rfl, rfl⟩
  · split <;> exact ⟨rfl, rfl⟩

theorem send_stream : s.send.taken ++ s.send.edge.requests = s.taken ++ s.edge.requests := by
  cases hh : s.edge.inHand with
  | some out =>
    obtain ⟨htaken, -, -, hrequests⟩ := send_write hh
    rw [htaken, hrequests]
  | none =>
    cases hr : s.edge.requests with
    | nil => rw [send_idle hh hr, hr]
    | cons m rest =>
      obtain ⟨htaken, hrequests, -, -⟩ := send_take hh hr
      rw [htaken, hrequests, List.append_assoc, List.singleton_append]

theorem mixedTurns_mix (s : RequestPath) (rest : List Message) (e : MixerEvent) :
    mixedTurns c (s.mix shuffle rest e) = turns c (s.taken ++ s.edge.requests) ++
      RequestMixer.leftTurns c (s.mixer.step shuffle e) := by
  simp [mixedTurns, mix, RequestMixer.leftTurns]

theorem Batched.step (h : Batched s) (e : RequestPathEvent) : Batched (s.step shuffle e) := by
  cases e with
  | enqueue m => exact h
  | take =>
    rw [RequestPath.step]
    split
    · exact RequestMixer.requests_step h _
    · exact h
  | timeout =>
    rw [RequestPath.step]
    split
    · exact RequestMixer.requests_step h _
    · exact h
  | send =>
    rw [Batched, RequestPath.step, send_mixer.2]
    exact h

theorem Batched.turns_eq_nil (h : Batched s) (hn : ∀ payload, .establish c payload ∉ s.mixer.batch) :
    turns c s.mixer.batch = [] := by
  refine List.filterMap_eq_nil_iff.2 fun m hm => ?_
  rcases ht : m.turn? c with _ | _ | _
  · rfl
  · obtain ⟨payload, rfl⟩ := Message.turn?_eq_opens.1 ht
    exact absurd hm (hn payload)
  · obtain rfl := Message.turn?_eq_ends.1 ht
    cases h _ hm

/-- No turn of a channel gets lost, and all stay in order unless its release is taken while the
batch holds one back. -/
theorem turns_step (hsh : ∀ l, (shuffle l).Perm l) (h : Batched s) (e : RequestPathEvent)
    (ho : e = .take → s.waiting.head? = some (.release c) → turns c s.mixer.batch = []) :
    mixedTurns c (s.step shuffle e) ++ turns c (s.step shuffle e).waiting =
      mixedTurns c s ++ turns c s.waiting ++ turns c (arrivals [e]) := by
  cases e with
  | enqueue m => simp [step, mixedTurns, arrivals, List.append_assoc]
  | send =>
    have hs := send_stream (s := s)
    have hm := send_mixer (s := s)
    simp [step, mixedTurns, hs, hm, arrivals]
  | timeout =>
    rw [step]
    split
    · rename_i hw
      rw [mixedTurns_mix, RequestMixer.step, RequestMixer.leftTurns_flushUnlessEmpty hsh h]
      simp [mixedTurns, mix, List.isEmpty_iff.1 hw, arrivals]
    · simp [arrivals]
  | take =>
    rw [step]
    split
    · rename_i m rest hw
      rw [mixedTurns_mix, hw, turns_cons c m rest]
      by_cases hr : m = .release c
      · subst hr
        have hbatch := ho rfl (by rw [hw]; rfl)
        rw [RequestMixer.leftTurns_release, mixedTurns, hbatch]
        simp [mix, arrivals, turns, Message.turn?]
      · rw [RequestMixer.leftTurns_arrival hsh h (fun ht => hr (Message.turn?_eq_ends.1 ht))]
        simp [mixedTurns, mix, arrivals]
    · simp [arrivals]

theorem arrivals_cons (e : RequestPathEvent) (rest : List RequestPathEvent) :
    arrivals (e :: rest) = arrivals [e] ++ arrivals rest := List.filterMap_append (l := [e])

theorem arrivals_append (first second : List RequestPathEvent) :
    arrivals (first ++ second) = arrivals first ++ arrivals second := List.filterMap_append

/-- In a patient run every channel's turns reach the sender in the order in which they were made. -/
theorem turns_run (hsh : ∀ l, (shuffle l).Perm l) (h : Batched s) {events : List RequestPathEvent}
    (hp : Along (step shuffle) Patient s events) :
    let t := events.foldl (step shuffle) s
    mixedTurns c t ++ turns c t.waiting = mixedTurns c s ++ turns c s.waiting ++
      turns c (arrivals events) := by
  induction events generalizing s with
  | nil => simp [arrivals]
  | cons e rest ih =>
    have hone := turns_step hsh h e (c := c) (by
      rintro rfl hw
      exact h.turns_eq_nil fun payload hm => hp.1 _ hw rfl _ hm rfl rfl)
    rw [List.foldl_cons, arrivals_cons, turns_append, ← List.append_assoc, ← hone]
    exact ih (h.step e) hp.2

/-- The mixer is behind with a channel: its last turn is an opening, and no turn is to come. -/
structure Overdue (c : ChannelId) (s : RequestPath) : Prop where
  waiting : turns c s.waiting = []
  last : (mixedTurns c s).getLast? = some .opens

theorem Overdue.run (hsh : ∀ l, (shuffle l).Perm l) (hb : Batched s) (h : Overdue c s)
    {events : List RequestPathEvent} (hn : turns c (arrivals events) = []) :
    Overdue c (events.foldl (step shuffle) s) := by
  induction events generalizing s with
  | nil => exact h
  | cons e rest ih =>
    rw [arrivals_cons, turns_append, List.append_eq_nil_iff] at hn
    have hone := turns_step hsh hb e (c := c) (by
      rintro rfl hw
      obtain ⟨rest, hw⟩ := List.head?_eq_some_iff.1 hw
      have hnone := h.waiting
      simp [hw, turns, Message.turn?] at hnone)
    rw [h.waiting, hn.1, List.append_nil, List.append_nil] at hone
    have hlast := h.last
    have hwait : turns c (s.step shuffle e).waiting = [] := by
      cases e with
      | enqueue m => simpa [step, arrivals, h.waiting] using hn.1
      | send => rw [step, send_mixer.1]; exact h.waiting
      | timeout =>
        rw [step]
        split
        · rfl
        · exact h.waiting
      | take =>
        rw [step]
        split
        · rename_i m rest hw
          have hnone := h.waiting
          rw [hw, turns_cons, List.append_eq_nil_iff] at hnone
          exact hnone.2
        · exact h.waiting
    rw [hwait, List.append_nil] at hone
    exact ih (hb.step e) ⟨hwait, hone ▸ hlast⟩ hn.2

/-- A release that passes an establish message leaves its channel behind. -/
theorem overdue_of_overtaken (shuffle : List Message → List Message) (hb : Batched s)
    {payload : Bytes} {rest : List Message} (hw : s.waiting = .release c :: rest)
    (hm : .establish c payload ∈ s.mixer.batch) (hr : turns c rest = []) :
    Overdue c (s.step shuffle .take) := by
  have hne : turns c s.mixer.batch ≠ [] := by
    intro hnil
    have hturn := List.filterMap_eq_nil_iff.1 hnil _ hm
    simp [Message.turn?] at hturn
  have hlast : (turns c s.mixer.batch).getLast? = some .opens := by
    rw [List.getLast?_eq_some_getLast hne]
    exact congrArg some (RequestMixer.turns_requests hb _ (List.getLast_mem hne))
  refine ⟨?_, ?_⟩
  · simpa [step, hw, mix] using hr
  · simp only [step, hw]
    rw [mixedTurns_mix, RequestMixer.leftTurns_release]
    simp [List.getLast?_append, List.getLast?_cons, hlast]

end RequestPath

section Lifelike
variable {c : ChannelId} {front back messages : List Message}

/-- Nothing turns a channel behind its release. -/
theorem Lifelike.turns_after (h : Lifelike (front ++ .release c :: back)) : turns c back = [] := by
  refine List.filterMap_eq_nil_iff.2 fun m hm => Message.turn?_of_channel? fun hc => ?_
  exact ((List.pairwise_cons.1 (List.pairwise_append.1 h).2.1).1 m hm hc.symm).1 rfl

theorem Lifelike.count_opens (h : Lifelike messages) : (turns c messages).count .opens ≤ 1 := by
  have hpair : (turns c messages).Pairwise fun a b => a = .opens → b ≠ .opens := by
    refine List.pairwise_filterMap.2 (h.imp ?_)
    rintro a b hab _ ha _ hb rfl rfl
    obtain ⟨_, rfl⟩ := Message.turn?_eq_opens.1 ha
    obtain ⟨_, rfl⟩ := Message.turn?_eq_opens.1 hb
    exact (hab rfl).2 ⟨rfl, rfl⟩
  by_contra hmany
  have htwo : List.Sublist [.opens, .opens] (turns c messages) :=
    List.replicate_sublist_iff.2 (by omega : 2 ≤ _)
  have hfalse := hpair.sublist htwo
  simp at hfalse

theorem Lifelike.getLast?_turns (h : Lifelike messages) (hm : .release c ∈ messages) :
    (turns c messages).getLast? = some .ends := by
  obtain ⟨front, back, rfl⟩ := List.append_of_mem hm
  rw [turns_append, turns_cons, h.turns_after]
  simp [turns, Message.turn?]

end Lifelike

namespace RequestPath
variable {shuffle : List Message → List Message} {s : RequestPath} {c : ChannelId}

/-- What waits is what arrived last. -/
theorem exists_consumed (shuffle : List Message → List Message) (s : RequestPath)
    (events : List RequestPathEvent) :
    ∃ consumed, s.waiting ++ arrivals events =
      consumed ++ (events.foldl (step shuffle) s).waiting := by
  induction events generalizing s with
  | nil => exact ⟨[], by simp [arrivals]⟩
  | cons e rest ih =>
    obtain ⟨consumed, hrest⟩ := ih (s.step shuffle e)
    rw [arrivals_cons, List.foldl_cons]
    have hsame (hw : (s.step shuffle e).waiting = s.waiting) (ha : arrivals [e] = []) :
        ∃ consumed, s.waiting ++ (arrivals [e] ++ arrivals rest) =
          consumed ++ (rest.foldl (step shuffle) (s.step shuffle e)).waiting :=
      ⟨consumed, by rw [ha, List.nil_append, ← hw, hrest]⟩
    cases e with
    | enqueue m =>
      refine ⟨consumed, ?_⟩
      rw [← hrest, ← List.append_assoc]
      rfl
    | send => exact hsame send_mixer.1 rfl
    | timeout =>
      refine hsame ?_ rfl
      rw [step]
      split
      · rename_i hw
        exact (List.isEmpty_iff.1 hw).symm
      · rfl
    | take =>
      cases hw : s.waiting with
      | nil => exact hw ▸ hsame (by simp [step, hw]) rfl
      | cons m more =>
        have hstep : (s.step shuffle .take).waiting = more := by simp [step, hw, mix]
        refine ⟨m :: consumed, ?_⟩
        rw [hstep] at hrest
        exact congrArg (m :: ·) hrest

theorem Served.run (h : Served c s) (events : List RequestPathEvent) :
    Served c (events.foldl (step shuffle) s) := by
  refine foldl_invariant (fun s e h => ?_) events h
  cases e with
  | enqueue m => exact { h with }
  | send => exact h.send
  | take =>
    rw [step]
    split
    · exact { h with }
    · exact h
  | timeout =>
    rw [step]
    split
    · exact { h with }
    · exact h

theorem settledTable_quiet (hq : s.Quiet) : s.settledTable = s.edge.table := by
  rw [settledTable, hq.inHand]
  rfl

theorem mixedTurns_quiet (hq : s.Quiet) : mixedTurns c s = turns c s.taken := by
  simp [mixedTurns, hq.batch, hq.requests]

/-- Once nothing is on its way, a channel whose last turn was to open is still there. -/
theorem Served.not_forgotten (h : Served c s) (hq : s.Quiet)
    (hlast : (turns c s.taken).getLast? = some .opens) : ¬ s.Forgotten c := by
  intro hf
  have hsome := h.entry.2 hlast
  rw [settledTable_quiet hq, hf.1] at hsome
  cases hsome

theorem Served.forgotten (h : Served c s) (hq : s.Quiet)
    (hlast : (turns c s.taken).getLast? ≠ some .opens)
    (hone : (turns c s.taken).count .opens ≤ 1) : s.Forgotten c := by
  have hnone : s.settledTable.edgeId? c = none :=
    Option.not_isSome_iff_eq_none.1 fun hs => hlast (h.entry.1 hs)
  refine ⟨settledTable_quiet hq ▸ hnone, fun front payload frame back hsplit => ?_⟩
  rcases h.ended front payload frame back hsplit with hrel | hopen | hagain
  · exact hrel
  · rw [hnone] at hopen
    cases hopen
  · -- a second establish message would have to be among the turns
    have hsub := h.opened
    rw [hsplit, List.map_append, turns_append, List.map_cons, turns_cons] at hsub
    have hcount := hsub.count_le .opens
    have hfirst : (turns c [Message.establish c payload]).count .opens = 1 := by
      simp [turns, Message.turn?]
    have hagain := List.count_pos_iff.2 hagain
    simp only [List.count_append] at hcount
    omega

/-- A relay that has nothing on its way has forgotten its released channels exactly if no release
was taken while its channel's establish message waited in the round. -/
theorem forgotten_iff_patient (hsh : ∀ l, (shuffle l).Perm l) (settings : MixerSettings)
    (maxFrameLength : Nat) (key : EdgeKey) (draws : Draws) (events : List RequestPathEvent)
    (hlife : Lifelike (arrivals events)) :
    let s₀ := start settings (.start maxFrameLength key draws)
    let s := events.foldl (step shuffle) s₀
    s.Quiet → ((∀ c, .release c ∈ arrivals events → s.Forgotten c) ↔
      Along (step shuffle) Patient s₀ events) := by
  intro s₀ s hquiet
  have hbatched : Batched s₀ := by simp [s₀, Batched, start, RequestMixer.start]
  have hserved (c : ChannelId) : Served c s := (served_start settings rfl rfl c).run events
  constructor
  · intro hall
    rw [along_iff]
    intro front e rest hsplit
    subst hsplit
    cases e with
    | enqueue | timeout | send => trivial
    | take =>
      intro next hhead hrelease m hmem hestablish hchannel
      obtain ⟨c, rfl⟩ : ∃ c, next = .release c := by
        cases next <;> simp_all [Message.kind]
      obtain ⟨payload, rfl⟩ : ∃ payload, m = .establish c payload := by
        cases m <;> simp_all [Message.kind, Message.channel?]
      obtain ⟨more, hw⟩ := List.head?_eq_some_iff.1 hhead
      obtain ⟨consumed, hcons⟩ := exists_consumed shuffle s₀ front
      have harrived : arrivals (front ++ .take :: rest) =
          consumed ++ .release c :: (more ++ arrivals rest) := by
        have hfront : arrivals front = consumed ++ .release c :: more := by rw [← hw, ← hcons]; rfl
        rw [arrivals_append, arrivals_cons, hfront]
        simp [arrivals]
      rw [harrived] at hlife
      have hafter := hlife.turns_after
      rw [turns_append, List.append_eq_nil_iff] at hafter
      have hb : Batched (front.foldl (step shuffle) s₀) :=
        foldl_invariant (fun _ e h => h.step e) front hbatched
      have hover := (overdue_of_overtaken shuffle hb hw hmem hafter.1).run hsh (hb.step .take)
        hafter.2
      simp only [s, List.foldl_append, List.foldl_cons] at hquiet hserved hall
      refine (hserved c).not_forgotten hquiet (mixedTurns_quiet hquiet ▸ hover.last) (hall c ?_)
      rw [harrived]
      exact List.mem_append_right _ List.mem_cons_self
  · intro hp c hc
    have hrun : turns c s.taken = turns c (arrivals events) :=
      calc turns c s.taken = mixedTurns c s ++ turns c s.waiting := by
            rw [mixedTurns_quiet hquiet, hquiet.waiting, turns_nil, List.append_nil]
        _ = mixedTurns c s₀ ++ turns c s₀.waiting ++ turns c (arrivals events) :=
            turns_run hsh hbatched hp
        _ = turns c (arrivals events) := rfl
    refine (hserved c).forgotten hquiet ?_ ?_
    · rw [hrun, hlife.getLast?_turns hc]
      decide
    · rw [hrun]
      exact hlife.count_opens

/-- Rounds of two, behind the first relay. -/
def pairsBehind : MixerSettings := ⟨2, 50, 0, false, false⟩

def idleEdge : OutboundEdge := .start 64 ⟨.zero, .zero⟩ (.ofList [5, 6])

/-- A channel that leaves once its request has left. -/
def patientEvents : List RequestPathEvent :=
  [.enqueue (.establish 1 [7]), .take, .timeout, .enqueue (.release 1), .take] ++ .replicate 6 .send

/-- A channel that leaves while its request waits in the round. -/
def hastyEvents : List RequestPathEvent :=
  [.enqueue (.establish 1 [7]), .take, .enqueue (.release 1), .take, .timeout] ++ .replicate 6 .send

theorem forgotten_of_patientEvents :
    Lifelike (arrivals patientEvents) ∧
      (patientEvents.foldl (step id) (start pairsBehind idleEdge)).Quiet ∧
      (patientEvents.foldl (step id) (start pairsBehind idleEdge)).Forgotten 1 := by
  have hquiet : (patientEvents.foldl (step id) (start pairsBehind idleEdge)).Quiet :=
    ⟨by decide, by decide, by decide, by decide⟩
  have h := @forgotten_iff_patient id (fun l => .refl l) pairsBehind 64 ⟨.zero, .zero⟩
    (.ofList [5, 6]) patientEvents (by decide) hquiet
  exact ⟨by decide, hquiet, h.2 (by decide) 1 (by decide)⟩

/-- The hasty channel's identifier stays in the table, with nothing on its way to give it up. -/
theorem not_forgotten_of_hastyEvents :
    Lifelike (arrivals hastyEvents) ∧
      (hastyEvents.foldl (step id) (start pairsBehind idleEdge)).Quiet ∧
      .release 1 ∈ arrivals hastyEvents ∧
      ¬ (hastyEvents.foldl (step id) (start pairsBehind idleEdge)).Forgotten 1 := by
  refine ⟨by decide, ⟨by decide, by decide, by decide, by decide⟩, by decide, fun h => ?_⟩
  have hedge : (hastyEvents.foldl (step id) (start pairsBehind idleEdge)).edge.table.edgeId? 1 =
      some 5 := by decide
  rw [h.1] at hedge
  cases hedge

end RequestPath

end MixRelay
