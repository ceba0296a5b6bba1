import MixRelay.Proofs.ClientReadings

/-!
# Reading from one of many clients

A listener that reads from a client takes its bytes as the reading of them tells, up to where it
pauses, and changes nothing of the other clients. `Looks` says all that it comes to.
-/
namespace MixRelay

namespace ClientListener
variable {l : ClientListener} {token : Nat} {c d : ClientConnection}

section Lookups

/-- The clients that are connected, with their channels. -/
def names (l : ClientListener) : List (Nat × ChannelId) := l.connections.map fun c => (c.token, c.channel)

theorem token_of_connection? (h : l.connection? token = some c) : c.token = token := by
  simpa using List.find?_some h

theorem mem_names (h : l.connection? token = some c) : (token, c.channel) ∈ l.names :=
  List.mem_map.2 ⟨c, List.mem_of_find?_eq_some h, by rw [token_of_connection? h]⟩

theorem connection?_replace_eq (l : ClientListener) (d : ClientConnection) (t : Nat) :
    (l.replace d).connection? t =
      (l.connection? t).map fun e => if e.token = d.token then d else e := by
  rw [connection?, replace, List.find?_map, connection?]
  congr 2
  funext e
  rw [Function.comp_apply]
  split
  · rename_i heq
    rw [heq]
  · rfl

theorem connection?_replace_of_ne (l : ClientListener) {t : Nat} (h : t ≠ d.token) :
    (l.replace d).connection? t = l.connection? t := by
  rw [connection?_replace_eq]
  cases he : l.connection? t with
  | none => rfl
  | some e => exact congrArg some (if_neg fun heq => h ((token_of_connection? he).symm.trans heq))

/-- Whatever a change leaves as it is for its client, it leaves as it is for all. -/
theorem map_replace {α : Type} (f : ClientConnection → α) (htokens : (l.names.map Prod.fst).Nodup)
    (hc : l.connection? token = some c) (htoken : d.token = token) (hf : f d = f c) :
    (l.replace d).connections.map f = l.connections.map f := by
  rw [replace, List.map_map]
  refine List.map_congr_left fun e he => ?_
  rw [Function.comp_apply]
  split
  · rename_i heq
    have hdifferent : (l.connections.map ClientConnection.token).Nodup := by
      rwa [names, List.map_map] at htokens
    have hsame : e = c := List.inj_on_of_nodup_map hdifferent he (List.mem_of_find?_eq_some hc)
      (heq.trans (htoken.trans (token_of_connection? hc).symm))
    rw [hf, hsame]
  · rfl

/-- A client keeps its token and its channel. -/
theorem names_replace (htokens : (l.names.map Prod.fst).Nodup) (hc : l.connection? token = some c)
    (htoken : d.token = token) (hchannel : d.channel = c.channel) : (l.replace d).names = l.names :=
  map_replace _ htokens hc htoken (Prod.ext (htoken.trans (token_of_connection? hc).symm) hchannel)

theorem connection?_tearDown_self (l : ClientListener) (c : ClientConnection) (reason : CloseReason) :
    (l.tearDown c reason).2.connection? c.token = none := by
  rw [connection?, tearDown, List.find?_filter, List.find?_eq_none]
  intro e _
  simp

theorem connection?_tearDown_of_ne (l : ClientListener) (reason : CloseReason) {t : Nat}
    (h : t ≠ c.token) : (l.tearDown c reason).2.connection? t = l.connection? t := by
  rw [connection?, tearDown, List.find?_filter, connection?]
  congr 1
  funext e
  by_cases he : e.token = t <;> simp [he, h]

theorem names_tearDown (l : ClientListener) (c : ClientConnection) (reason : CloseReason) :
    (l.tearDown c reason).2.names.Sublist l.names := List.filter_sublist.map _

end Lookups

/-- A client's stream as it is read on. -/
def streamOf (c : ClientConnection) (channel : Channel) : ClientStream :=
  ⟨c.stage, c.paused, channel, [], 0, 0⟩

section Requests

/-- The requests of a channel among some messages. -/
def requestsFrom (id : ChannelId) (messages : List Message) : List Message :=
  messages.filter fun m => m.requester? = some id

theorem requestsFrom_append (id : ChannelId) (messages more : List Message) :
    requestsFrom id (messages ++ more) = requestsFrom id messages ++ requestsFrom id more :=
  List.filter_append _ _

theorem requester?_requestsOf {id : ChannelId} {established : Bool} {payloads : List Bytes} :
    ∀ m ∈ requestsOf id established payloads, m.requester? = some id := by
  induction payloads generalizing established with
  | nil => exact fun m hm => absurd hm List.not_mem_nil
  | cons payload payloads ih =>
    intro m hm
    rcases List.mem_cons.1 hm with rfl | hm
    · cases established <;> rfl
    · exact ih m hm

theorem requestsFrom_requestsOf (id : ChannelId) (established : Bool) (payloads : List Bytes) :
    requestsFrom id (requestsOf id established payloads) = requestsOf id established payloads := by
  refine List.filter_eq_self.2 fun m hm => ?_
  rw [requester?_requestsOf m hm]
  exact decide_eq_true rfl

theorem requestsFrom_requestsOf_of_ne {id other : ChannelId} (h : other ≠ id) (established : Bool)
    (payloads : List Bytes) : requestsFrom other (requestsOf id established payloads) = [] := by
  refine List.filter_eq_nil_iff.2 fun m hm => ?_
  rw [requester?_requestsOf m hm]
  simpa using h.symm

/-- A client that goes leaves no request. -/
theorem requestsFrom_tearDown (l : ClientListener) (c : ClientConnection) (reason : CloseReason)
    (id : ChannelId) : requestsFrom id (l.tearDown c reason).1 = [] := by
  rw [tearDown]
  split <;> rfl

end Requests

section Confined
variable {m n : ClientListener} {id : ChannelId}

/-- No two clients have a token or a channel in common, and every token has been given out. -/
structure Distinct (l : ClientListener) : Prop where
  tokens : (l.names.map Prod.fst).Nodup
  channels : (l.names.map Prod.snd).Nodup
  earlier : ∀ name ∈ l.names, name.1 < l.nextToken

/-- What is done for a client leaves the other clients and their channels as they are. -/
structure Confined (l m : ClientListener) (token : Nat) (id : ChannelId) : Prop where
  settings_eq : m.settings = l.settings
  nextToken_eq : m.nextToken = l.nextToken
  seenRound_eq : m.seenRound = l.seenRound
  requestRound_eq : m.registry.requestRound = l.registry.requestRound
  names : m.names.Sublist l.names
  connection?_eq : ∀ other, other ≠ token → m.connection? other = l.connection? other
  find?_eq : ∀ other, other ≠ id → m.registry.find? other = l.registry.find? other

theorem Confined.trans (h : l.Confined m token id) (h' : m.Confined n token id) :
    l.Confined n token id where
  settings_eq := h'.settings_eq.trans h.settings_eq
  nextToken_eq := h'.nextToken_eq.trans h.nextToken_eq
  seenRound_eq := h'.seenRound_eq.trans h.seenRound_eq
  requestRound_eq := h'.requestRound_eq.trans h.requestRound_eq
  names := h'.names.trans h.names
  connection?_eq other ho := (h'.connection?_eq other ho).trans (h.connection?_eq other ho)
  find?_eq other ho := (h'.find?_eq other ho).trans (h.find?_eq other ho)

theorem Confined.distinct (h : l.Confined m token id) (hl : l.Distinct) : m.Distinct where
  tokens := hl.tokens.sublist (h.names.map _)
  channels := hl.channels.sublist (h.names.map _)
  earlier name hname := h.nextToken_eq ▸ hl.earlier name (h.names.subset hname)

theorem confined_replace (hl : l.Distinct) (hc : l.connection? c.token = some c)
    (htoken : d.token = c.token) (hchannel : d.channel = c.channel) :
    l.Confined (l.replace d) c.token c.channel where
  settings_eq := rfl
  nextToken_eq := rfl
  seenRound_eq := rfl
  requestRound_eq := rfl
  names := by rw [names_replace hl.tokens hc htoken hchannel]
  connection?_eq other ho := connection?_replace_of_ne l (htoken.symm ▸ ho)
  find?_eq _ _ := rfl

theorem confined_settle (hl : l.Distinct) (hc : l.connection? c.token = some c) {s : ClientStream}
    (hs : s.channel.id = c.channel) (rest : Bytes) :
    l.Confined (l.settle c s rest).2 c.token c.channel where
  settings_eq := rfl
  nextToken_eq := rfl
  seenRound_eq := rfl
  requestRound_eq := rfl
  names := (confined_replace (d := (l.settle c s rest).1) hl hc rfl rfl).names
  connection?_eq _ ho := connection?_replace_of_ne l (d := (l.settle c s rest).1) ho
  find?_eq _ ho := ChannelRegistry.find?_modify_of_ne (fun _ _ => hs) ho

theorem confined_tearDown (l : ClientListener) (c : ClientConnection) (reason : CloseReason) :
    l.Confined (l.tearDown c reason).2 c.token c.channel where
  settings_eq := rfl
  nextToken_eq := rfl
  seenRound_eq := rfl
  requestRound_eq := rfl
  names := names_tearDown l c reason
  connection?_eq _ ho := connection?_tearDown_of_ne l reason ho
  find?_eq _ ho := ChannelRegistry.find?_discard_of_ne _ ho

/-- Two clients have two channels. -/
theorem Distinct.channel_ne (hl : l.Distinct) (hc : l.connection? token = some c) {other : Nat}
    (hd : l.connection? other = some d) (hne : other ≠ token) : d.channel ≠ c.channel := by
  intro heq
  have hboth := List.inj_on_of_nodup_map hl.channels (mem_names hd) (mem_names hc) heq
  exact hne (congrArg Prod.fst hboth)

end Confined

section Looks
variable {channel : Channel} {tail : Bytes} {s : ClientStream} {rest : Bytes}

/-- The bytes of a client that have arrived and are not read. -/
def unread (l : ClientListener) (token : Nat) : Bytes :=
  ((l.connection? token).map ClientConnection.unread).getD []

theorem unread_eq (h : l.connection? token = some c) : l.unread token = c.unread := by
  rw [unread, h]
  rfl

theorem unread_eq_nil (h : l.connection? token = none) : l.unread token = [] := by
  rw [unread, h]
  rfl

/-- The number of requests that a client may still make in the round: one, unless it has made it or
has gone. -/
def mayAsk (l : ClientListener) (token : Nat) : Nat :=
  match l.connection? token with
  | none => if l.nextToken ≤ token then 1 else 0
  | some c => if (l.registry.find? c.channel).any fun channel => !channel.requestClaimed then 1 else 0

theorem mayAsk_le_one (l : ClientListener) (token : Nat) : l.mayAsk token ≤ 1 := by
  rw [mayAsk]
  split <;> split <;> omega

theorem mayAsk_eq (hc : l.connection? token = some c)
    (hchannel : l.registry.find? c.channel = some channel) :
    l.mayAsk token = if channel.requestClaimed then 0 else 1 := by
  rw [mayAsk, hc]
  dsimp only
  rw [hchannel]
  cases hclaimed : channel.requestClaimed <;> simp [hclaimed]

theorem mayAsk_gone (hc : l.connection? token = none) (h : token < l.nextToken) :
    l.mayAsk token = 0 := by
  rw [mayAsk, hc]
  exact if_neg (Nat.not_le.2 h)

/-- A client that has sent some bytes is still served: it stands where the reading of those that have
been read ends. -/
structure Stands (l : ClientListener) (c : ClientConnection) (channel : Channel) (tail : Bytes) :
    Prop where
  connected : l.connection? c.token = some c
  registered : l.registry.find? c.channel = some channel
  within_frame : (streamOf c channel).StandsAt l.settings.limits tail

/-- Bytes of a client wait only while its reading is paused, and it is paused only behind its request of
the round. -/
def Prompt (l : ClientListener) (token : Nat) : Prop :=
  ∀ c, l.connection? token = some c → (c.paused = false → c.unread = []) ∧
    (c.paused = true → l.mayAsk token = 0)

/-- What reading from a client comes to, given as the messages handed on and the listener then: some of
its bytes are read, and the requests and faults are those of the reading. If it is still there, then it
stands where the reading ends; it goes only at the end of its stream or for a length above the limit. -/
structure Looks (l : ClientListener) (c : ClientConnection) (channel : Channel) (tail : Bytes)
    (sent : List Message) (m : ClientListener) : Prop where
  confined : l.Confined m c.token c.channel
  others : ∀ id, id ≠ c.channel → requestsFrom id sent = []
  slot : (requestsFrom c.channel sent).length + m.mayAsk c.token ≤ l.mayAsk c.token
  progress : ∃ got, c.unread = got ++ m.unread c.token ∧
    requestsFrom c.channel sent = requestsOf c.channel channel.established
      (reading l.settings.limits channel.established (tail ++ got)).payloads ∧
    m.metrics.protocolFaults + (ReadingEnd.within channel.established tail).faults l.settings.limits =
      l.metrics.protocolFaults +
        (reading l.settings.limits channel.established (tail ++ got)).faults l.settings.limits ∧
    ∀ d, m.connection? c.token = some d → d.channel = c.channel ∧ d.ended = c.ended ∧
      ∃ channel' tail', m.Stands d channel' tail' ∧
        (reading l.settings.limits channel.established (tail ++ got)).ending =
          .within channel'.established tail'
  left : m.connection? c.token = none → c.ended = true ∨
    ∃ n, (reading l.settings.limits channel.established (tail ++ c.unread)).ending = .tooLong n
  prompt : c.paused = false → m.Prompt c.token

/-- The client is still there. -/
theorem looks_settle (hl : l.Distinct) (h : l.Stands c channel tail)
    (hstops : (streamOf c channel).Stops l.settings.limits tail c.unread s rest)
    (hsince : s.Since channel) : l.Looks c channel tail s.requests (l.settle c s rest).2 := by
  obtain ⟨got, tail', hbytes, hconsumes⟩ := hstops.consumes
  have hchannel : channel.id = c.channel := ChannelRegistry.find?_some_id h.registered
  have hid : s.channel.id = c.channel := hconsumes.id_eq.trans hchannel
  have hd : (l.settle c s rest).2.connection? c.token = some (l.settle c s rest).1 :=
    connection?_replace h.connected rfl
  have hfound : (l.settle c s rest).2.registry.find? c.channel = some s.channel :=
    ChannelRegistry.find?_modify h.registered hid
  have hrequests : s.requests = requestsOf c.channel channel.established
      (reading l.settings.limits channel.established (tail ++ got)).payloads := by
    rw [← hchannel]
    exact hconsumes.requests_eq
  have hfrom : requestsFrom c.channel s.requests = s.requests := by
    rw [hrequests, requestsFrom_requestsOf]
  refine ⟨confined_settle hl h.connected hid rest, fun id hne => ?_, ?_, ⟨got, ?_, ?_, ?_, ?_⟩,
    fun hgone => ?_, ?_⟩
  · rw [hrequests, requestsFrom_requestsOf_of_ne hne]
  · rw [hfrom, mayAsk_eq hd hfound, mayAsk_eq h.connected h.registered]
    exact hsince.slot
  · rw [unread_eq hd, hbytes]
    rfl
  · rw [hfrom, hrequests]
  · have hfaults := hconsumes.faults_eq
    dsimp only [settle, streamOf] at hfaults ⊢
    omega
  · intro d hdSome
    obtain rfl := Option.some.inj (hd.symm.trans hdSome)
    exact ⟨rfl, rfl, s.channel, tail', ⟨hd, hfound, hconsumes.stands.stage_eq,
      hconsumes.stands.incomplete, hconsumes.stands.free⟩, hconsumes.ending⟩
  · cases hgone.symm.trans hd
  · intro hresumed d hdSome
    obtain rfl := Option.some.inj (hd.symm.trans hdSome)
    have hpause : s.paused = s.mustPause := by
      have hboth : s.paused = (c.paused || s.mustPause) := hstops.paused_eq
      rwa [hresumed, Bool.false_or] at hboth
    refine ⟨fun hnot => hstops.rest_eq (hpause.symm.trans hnot), fun hpaused => ?_⟩
    have hclaimed : s.channel.requestClaimed = true := by
      have hmust := hpause.symm.trans hpaused
      rw [ClientStream.mustPause, Bool.and_eq_true] at hmust
      exact hmust.2
    rw [mayAsk_eq hd hfound, if_pos hclaimed]

/-- The client has gone, with all of its bytes taken. -/
theorem looks_tearDown (hl : l.Distinct) (h : l.Stands c channel tail) (hsince : s.Since channel)
    {reason : CloseReason}
    (hrequests : s.requests = requestsOf c.channel channel.established
      (reading l.settings.limits channel.established (tail ++ c.unread)).payloads)
    (hfaults : (countClose (l.settle c s rest).2.metrics reason).protocolFaults +
        (ReadingEnd.within channel.established tail).faults l.settings.limits =
      l.metrics.protocolFaults +
        (reading l.settings.limits channel.established (tail ++ c.unread)).faults l.settings.limits)
    (hleft : c.ended = true ∨
      ∃ n, (reading l.settings.limits channel.established (tail ++ c.unread)).ending = .tooLong n) :
    l.Looks c channel tail
      (s.requests ++ ((l.settle c s rest).2.tearDown (l.settle c s rest).1 reason).1)
      ((l.settle c s rest).2.tearDown (l.settle c s rest).1 reason).2 := by
  have hid : s.channel.id = c.channel :=
    hsince.id_eq.trans (ChannelRegistry.find?_some_id h.registered)
  have hgone : ((l.settle c s rest).2.tearDown (l.settle c s rest).1 reason).2.connection? c.token = none :=
    connection?_tearDown_self (l.settle c s rest).2 (l.settle c s rest).1 reason
  have hfrom : requestsFrom c.channel s.requests = s.requests := by
    rw [hrequests, requestsFrom_requestsOf]
  have hconfined := (confined_settle hl h.connected hid rest).trans
    (confined_tearDown (l.settle c s rest).2 (l.settle c s rest).1 reason)
  have hearlier := hl.earlier _ (mem_names h.connected)
  refine ⟨hconfined, fun id hne => ?_, ?_, ⟨c.unread, ?_, ?_, hfaults, ?_⟩, fun _ => hleft, ?_⟩
  · rw [requestsFrom_append, requestsFrom_tearDown, hrequests, requestsFrom_requestsOf_of_ne hne]
    rfl
  · have hslot := hsince.slot
    rw [requestsFrom_append, requestsFrom_tearDown, hfrom, List.append_nil,
      mayAsk_gone hgone (hconfined.nextToken_eq.symm ▸ hearlier), mayAsk_eq h.connected h.registered]
    omega
  · rw [unread_eq_nil hgone, List.append_nil]
  · rw [requestsFrom_append, requestsFrom_tearDown, hfrom, List.append_nil, hrequests]
  · intro d hd
    cases hgone.symm.trans hd
  · intro _ d hd
    cases hgone.symm.trans hd

/-- A client that nothing ends stays. -/
theorem readFrom_of_open (h : l.Stands c channel tail)
    (hread : (streamOf c channel).readAll l.settings.limits c.unread = (s, none, rest))
    (hopen : ¬ (c.ended && rest.isEmpty && !s.mustPause) = true) :
    l.readFrom c.token = (s.requests, (l.settle c s rest).2) := by
  unfold streamOf at hread
  simp only [readFrom, h.connected, h.registered, hread, settle, Option.none_or, if_neg hopen]

/-- A client goes at the end of its stream, or with what its stream is given up for. -/
theorem readFrom_of_closed (h : l.Stands c channel tail) {verdict : Option CloseReason}
    (hread : (streamOf c channel).readAll l.settings.limits c.unread = (s, verdict, rest))
    {reason : CloseReason}
    (hclosed : verdict.or (if c.ended && rest.isEmpty && !s.mustPause then some .ended else none) =
      some reason) :
    l.readFrom c.token =
      (s.requests ++ ((l.settle c s rest).2.tearDown (l.settle c s rest).1 reason).1,
        ((l.settle c s rest).2.tearDown (l.settle c s rest).1 reason).2) := by
  unfold streamOf at hread
  simp only [readFrom, h.connected, h.registered, hread, settle, hclosed]

/-- Reading from a client that is connected. -/
theorem looks_readFrom (hpos : l.settings.limits.Positive) (hl : l.Distinct)
    (h : l.Stands c channel tail) :
    l.Looks c channel tail (l.readFrom c.token).1 (l.readFrom c.token).2 := by
  have hchannel : channel.id = c.channel := ChannelRegistry.find?_some_id h.registered
  have hsince : (streamOf c channel).Since channel := .inl ⟨rfl, rfl⟩
  have hall := hsince.readAll l.settings.limits c.unread
  rcases ClientStream.readAll_cases hpos h.within_frame c.unread with
    ⟨s, rest, hread, hstops⟩ | ⟨s, n, rest, hread, hgives⟩
  · rw [hread] at hall
    by_cases hended : (c.ended && rest.isEmpty && !s.mustPause) = true
    · -- the stream has ended, and nothing of it is left
      rw [readFrom_of_closed h hread (by rw [Option.none_or, if_pos hended])]
      simp only [Bool.and_eq_true, List.isEmpty_iff] at hended
      obtain ⟨got, tail', hbytes, hconsumes⟩ := hstops.consumes
      rw [hended.1.2, List.append_nil] at hbytes
      refine looks_tearDown hl h hall ?_ ?_ (.inl hended.1.1)
      · rw [hbytes, ← hchannel]
        exact hconsumes.requests_eq
      · have hfaults := hconsumes.faults_eq
        rw [hbytes]
        dsimp only [settle, streamOf, countClose] at hfaults ⊢
        omega
    · rw [readFrom_of_open h hread hended]
      exact looks_settle hl h hstops hall
  · rw [hread] at hall
    rw [readFrom_of_closed h hread (Option.some_or ..)]
    obtain ⟨got, hbytes, hending, hrequests, hfaults⟩ := hgives.reads
    have hreading : reading l.settings.limits channel.established (tail ++ c.unread) =
        reading l.settings.limits channel.established (tail ++ got) := by
      rw [hbytes, ← List.append_assoc]
      exact reading_append_of_tooLong hending rest
    refine looks_tearDown hl h hall ?_ ?_ (.inr ⟨n, hreading ▸ hending⟩)
    · rw [hreading, ← hchannel]
      exact hrequests
    · rw [hreading]
      dsimp only [settle, streamOf, countClose] at hfaults ⊢
      omega

end Looks

end ClientListener
end MixRelay
