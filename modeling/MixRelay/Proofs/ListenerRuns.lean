import MixRelay.Proofs.FreshDraws
import MixRelay.Proofs.ListenerAccounts
import MixRelay.Proofs.Runs

/-!
# Clients served side by side

Bytes of the clients arrive in whatever pieces, replies are written, and the round closes at any time.
Each client is served as its own bytes are to be taken, however they were cut and wherever the round
closed, and at most one of its requests is taken in a round.
-/
namespace MixRelay

/-- What happens to a listener: a client connects, bytes of one arrive, a reply is written, or the round
closes and paused clients are read on. -/
inductive ListenerEvent
  | connect (address : IpAddress)
  | arrive (token : Nat) (bytes : Bytes) (ended : Bool)
  | deliver (m : Message)
  | closeRound
  deriving DecidableEq

namespace ClientListener

/-- The round closes, and paused clients are read on. -/
def closeRound (l : ClientListener) : List Message × ClientListener :=
  { l with registry := l.registry.closeRequestRound }.resumeDeferred

/-- One event, with the messages that are handed on in it. -/
def act (l : ClientListener) : ListenerEvent → List Message × ClientListener
  | .connect address => ([], (l.accept address).2)
  | .arrive token bytes ended => l.arrive token bytes ended
  | .deliver m => ([], (l.deliver m).2)
  | .closeRound => l.closeRound

def next (l : ClientListener) (e : ListenerEvent) : ClientListener := (l.act e).2

/-- A client connects while there is an identifier left for its channel. -/
def Fit (l : ClientListener) : ListenerEvent → Prop
  | .connect _ => l.registry.channels.length < 2 ^ 32
  | _ => True

instance (l : ClientListener) : ∀ e, Decidable (l.Fit e)
  | .connect _ => inferInstanceAs (Decidable (l.registry.channels.length < 2 ^ 32))
  | .arrive .. | .deliver _ | .closeRound => .isTrue trivial

/-- The bytes of a connected client that arrive in an event. -/
def sentBy (l : ClientListener) (token : Nat) : ListenerEvent → Bytes
  | .arrive t bytes _ => if t = token ∧ (l.connection? token).isSome then bytes else []
  | _ => []

/-- The requests of a connected client that are handed on in an event. -/
def requestsBy (l : ClientListener) (token : Nat) (e : ListenerEvent) : List Message :=
  l.share token (l.act e).1

/-- The bytes that a client has sent in a run. -/
def sentAlong (l : ClientListener) (token : Nat) (events : List ListenerEvent) : Bytes :=
  outputs next (fun l => l.sentBy token) l events

/-- The requests that have been handed on for a client in a run. -/
def requestsAlong (l : ClientListener) (token : Nat) (events : List ListenerEvent) : List Message :=
  outputs next (fun l => l.requestsBy token) l events

/-- In a run the stream of a client ends, while the client is connected. -/
def EndsAlong (l : ClientListener) (token : Nat) (events : List ListenerEvent) : Prop :=
  ∃ front bytes back, events = front ++ .arrive token bytes true :: back ∧
    ((front.foldl next l).connection? token).isSome

variable {l m : ClientListener} {token t : Nat} {c d : ClientConnection} {id : ChannelId}
  {sent read more : Bytes} {given messages : List Message} {ended : Prop}

section Connect
variable {sent : Nat → Bytes} {given : Nat → List Message} {ended : Nat → Prop} {address : IpAddress}

/-- A client has connected. -/
structure Joins (l : ClientListener) (address : IpAddress) (id : ChannelId) (m : ClientListener) :
    Prop where
  settings_eq : m.settings = l.settings
  nextToken_eq : m.nextToken = l.nextToken + 1
  seenRound_eq : m.seenRound = l.seenRound
  registry_eq : m.registry = l.registry.add id
  connections_eq : m.connections = l.connections ++
    [⟨l.nextToken, address, id, .length [], false, [], false⟩]
  faults_eq : m.metrics.protocolFaults = l.metrics.protocolFaults
  fresh : id ∉ l.registry.ids

/-- A client that tries to connect is refused, or has a channel of its own. -/
theorem accept_cases (l : ClientListener) (address : IpAddress)
    (hfit : l.registry.channels.length < 2 ^ 32) :
    (l.accept address).2 = { l with metrics := { l.metrics with rejected := l.metrics.rejected + 1 } } ∨
      ∃ id, l.Joins address id (l.accept address).2 := by
  unfold accept
  split
  · exact .inl rfl
  · exact .inr ⟨_, rfl, rfl, rfl, rfl, rfl, rfl, ChannelRegistry.createFresh_not_mem hfit l.draws⟩

theorem Joins.connection?_of_ne (h : l.Joins address id m) (hne : t ≠ l.nextToken) :
    m.connection? t = l.connection? t := by
  rw [connection?, h.connections_eq, List.find?_append, ← connection?]
  simp [hne.symm]

theorem Joins.connection?_nextToken (hl : l.Distinct) (h : l.Joins address id m) :
    m.connection? l.nextToken = some ⟨l.nextToken, address, id, .length [], false, [], false⟩ := by
  rw [connection?, h.connections_eq, List.find?_append, ← connection?, hl.connection?_nextToken]
  simp

theorem Joins.names_eq (h : l.Joins address id m) : m.names = l.names ++ [(l.nextToken, id)] := by
  rw [names, h.connections_eq, List.map_append, ← names]
  rfl

theorem Joins.distinct (hk : l.Keeps sent given ended) (h : l.Joins address id m) : m.Distinct := by
  have hl := hk.distinct
  refine ⟨?_, ?_, fun name hname => ?_⟩
  · rw [h.names_eq, List.map_append]
    refine List.nodup_append.2 ⟨hl.tokens, List.nodup_singleton _, fun t ht u hu heq => ?_⟩
    obtain ⟨name, hname, rfl⟩ := List.mem_map.1 ht
    have hlater := hl.earlier name hname
    rw [heq, List.mem_singleton.1 hu] at hlater
    exact Nat.lt_irrefl _ hlater
  · rw [h.names_eq, List.map_append]
    refine List.nodup_append.2 ⟨hl.channels, List.nodup_singleton _, fun i hi j hj heq => ?_⟩
    obtain ⟨⟨token, channel⟩, hname, rfl⟩ := List.mem_map.1 hi
    have hid : channel = id := heq.trans (List.mem_singleton.1 hj)
    exact h.fresh (hid ▸ hk.registered hname)
  · rw [h.nextToken_eq]
    rw [h.names_eq] at hname
    rcases List.mem_append.1 hname with hname | hname
    · exact Nat.lt_succ_of_lt (hl.earlier name hname)
    · rw [List.mem_singleton.1 hname]
      exact Nat.lt_succ_self _

/-- The other clients have the channels that they had. -/
theorem Joins.find?_eq (hk : l.Keeps sent given ended) (h : l.Joins address id m)
    (hc : l.connection? t = some c) : m.registry.find? c.channel = l.registry.find? c.channel := by
  rw [h.registry_eq]
  refine ChannelRegistry.find?_add_of_ne _ fun heq => h.fresh ?_
  exact heq ▸ hk.registered (mem_names hc)

theorem Keeps.joins (hk : l.Keeps sent given ended) (h : l.Joins address id m) :
    m.Keeps sent given ended := by
  have hl := hk.distinct
  refine ⟨h.distinct hk, fun t => ?_, ?_⟩
  · obtain ⟨other, read, haccount⟩ := hk.accounts t
    by_cases ht : t = l.nextToken
    · -- the new client has sent nothing yet
      subst ht
      have hnew := h.connection?_nextToken hl
      have hsent := haccount.unborn (Nat.le_refl _)
      have hread : read = [] := (List.append_eq_nil_iff.1 (haccount.sent_eq.symm.trans hsent)).1
      have hreading : reading l.settings.limits false [] = ⟨[], 0, .within false []⟩ :=
        reading_of_incomplete (.inl (by decide)) false
      refine ⟨id, [], ⟨?_, ?_, fun c hc => ?_, fun c hc hend => ?_, fun hnone => ?_, fun _ => hsent⟩⟩
      · rw [hsent, unread_eq hnew]
        rfl
      · rw [haccount.given_eq, hread, h.settings_eq, hreading]
        rfl
      · obtain rfl := Option.some.inj (hnew.symm.trans hc)
        refine ⟨rfl, Channel.new id l.registry.proxyCapacity, [], ⟨hnew, ?_, rfl, .inl (by decide), ?_⟩, ?_⟩
        · rw [h.registry_eq]
          exact ChannelRegistry.find?_add_self h.fresh
        · exact fun hne => absurd rfl hne
        · rw [h.settings_eq, hreading]
          rfl
      · obtain rfl := Option.some.inj (hnew.symm.trans hc)
        cases hend
      · cases hnone.symm.trans hnew
    · refine ⟨other, read, haccount.frame h.settings_eq (by rw [h.nextToken_eq]; omega)
        (h.connection?_of_ne ht) fun c hc => h.find?_eq hk hc⟩
  · rw [h.faults_eq, hk.faults, h.nextToken_eq, h.settings_eq, Finset.sum_range_succ]
    have hnone : (reading l.settings.limits false (m.consumed l.nextToken (sent l.nextToken))).faults
        l.settings.limits = 0 := by
      obtain ⟨_, _, haccount⟩ := hk.accounts l.nextToken
      rw [haccount.unborn (Nat.le_refl _), consumed, List.take_nil,
        reading_of_incomplete (.inl (by decide))]
      rfl
    rw [hnone, Nat.add_zero]
    refine Finset.sum_congr rfl fun t ht => ?_
    rw [consumed_congr (h.connection?_of_ne (Nat.ne_of_lt (Finset.mem_range.1 ht)))]

theorem Joins.mayAsk_le (hk : l.Keeps sent given ended) (h : l.Joins address id m) (t : Nat) :
    m.mayAsk t ≤ l.mayAsk t := by
  by_cases ht : t = l.nextToken
  · have hone : l.mayAsk l.nextToken = 1 := by
      rw [mayAsk, hk.distinct.connection?_nextToken]
      exact if_pos (Nat.le_refl _)
    rw [ht, hone]
    exact m.mayAsk_le_one _
  · rw [mayAsk, h.connection?_of_ne ht, mayAsk]
    cases hc : l.connection? t with
    | none =>
      dsimp only
      rw [h.nextToken_eq]
      split <;> split <;> omega
    | some c =>
      dsimp only
      rw [h.find?_eq hk hc]

theorem Joins.prompt (hk : l.Keeps sent given ended) (h : l.Joins address id m) (hprompt : l.Prompt t) :
    m.Prompt t := by
  intro c hc
  by_cases ht : t = l.nextToken
  · subst ht
    obtain rfl := Option.some.inj ((h.connection?_nextToken hk.distinct).symm.trans hc)
    exact ⟨fun _ => rfl, fun hpaused => absurd hpaused nofun⟩
  · rw [h.connection?_of_ne ht] at hc
    obtain ⟨hunread, hslot⟩ := hprompt c hc
    refine ⟨hunread, fun hpaused => ?_⟩
    exact Nat.le_zero.1 ((h.mayAsk_le hk t).trans (Nat.le_of_eq (hslot hpaused)))

end Connect

section Serves
variable {sent : Nat → Bytes} {given : Nat → List Message} {ended : Nat → Prop} {waiting : List Nat}

/-- All accounts are kept, and every client is read as far as its request of the round allows. -/
structure Serves (l : ClientListener) (sent : Nat → Bytes) (given : Nat → List Message)
    (ended : Nat → Prop) : Prop extends l.Keeps sent given ended where
  rounds : l.seenRound = l.registry.requestRound
  prompt : ∀ t, l.Prompt t

theorem Serves.turn (h : l.Serves sent given ended)
    (ht : l.Turn c (sent c.token) (given c.token) (ended c.token) more messages m)
    (hprompt : m.Prompt c.token) :
    m.Serves (fun t => sent t ++ if t = c.token then more else [])
      (fun t => given t ++ l.share t messages) ended where
  toKeeps := h.toKeeps.turn ht
  rounds := by rw [ht.confined.seenRound_eq, ht.confined.requestRound_eq, h.rounds]
  prompt t := by
    by_cases htoken : t = c.token
    · rwa [htoken]
    · exact ht.prompt_of_ne h.distinct htoken (h.prompt t)

/-- Bytes arrive: they wait if the client is paused, and are read otherwise. -/
theorem arrive_turn (hpos : l.settings.limits.Positive) (h : l.Serves sent given ended)
    (hc : l.connection? c.token = some c) (bytes : Bytes) {last : Bool}
    (hlast : last = true → ended c.token) :
    l.Turn c (sent c.token) (given c.token) (ended c.token) bytes (l.arrive c.token bytes last).1
        (l.arrive c.token bytes last).2 ∧ (l.arrive c.token bytes last).2.Prompt c.token := by
  obtain ⟨id, read, haccount⟩ := h.accounts c.token
  have hd : Replaces c { c with unread := c.unread ++ bytes, ended := c.ended || last } (ended c.token)
      bytes := by
    refine ⟨rfl, rfl, rfl, rfl, fun hend => ?_⟩
    rcases (Bool.or_eq_true ..).mp hend with hend | hend
    · exact haccount.ends c hc hend
    · exact hlast hend
  rw [arrive, hc]
  dsimp only
  by_cases hpaused : c.paused = true
  · rw [if_pos hpaused]
    refine ⟨turn_replace h.distinct hc haccount hd, fun e he => ?_⟩
    obtain rfl := Option.some.inj ((connection?_replace hc hd.token_eq).symm.trans he)
    refine ⟨fun hnot => ?_, fun _ => ?_⟩
    · cases hpaused.symm.trans hnot
    · rw [mayAsk_replace hc hd]
      exact (h.prompt _ c hc).2 hpaused
  · rw [if_neg hpaused]
    exact turn_readFrom hpos h.distinct hc haccount hd (Bool.eq_false_of_not_eq_true hpaused)

/-- The messages of a turn are the same to clients of which some have gone before. -/
theorem share_of_sublist (hl : l.Distinct) (hnames : m.names.Sublist l.names)
    (hc : m.connection? c.token = some c)
    (hothers : ∀ id, id ≠ c.channel → requestsFrom id messages = []) (t : Nat) :
    l.share t messages = m.share t messages := by
  have hmem := hnames.subset (mem_names hc)
  cases hm : m.connection? t with
  | some e =>
    obtain ⟨d, hd, hchannel⟩ := hl.connection?_of_mem (hnames.subset (mem_names hm))
    rw [share_eq hd, share_eq hm, hchannel]
  | none =>
    rw [share, share, hm]
    cases hd : l.connection? t with
    | none => rfl
    | some d =>
      refine hothers _ fun heq => ?_
      have hsame := List.inj_on_of_nodup_map hl.channels (mem_names hd) hmem heq
      obtain rfl : t = c.token := congrArg Prod.fst hsame
      cases hc.symm.trans hm

/-- While the clients that were paused are read on, with some that still wait for it: the messages so
far and the listener then. -/
structure Resumes (l : ClientListener) (sent : Nat → Bytes) (given : Nat → List Message)
    (ended : Nat → Prop) (waiting : List Nat) (messages : List Message) (m : ClientListener) : Prop where
  keeps : m.Keeps sent (fun t => given t ++ l.share t messages) ended
  settings_eq : m.settings = l.settings
  names : m.names.Sublist l.names
  rounds : m.seenRound = m.registry.requestRound
  prompt : ∀ t, t ∉ waiting → m.Prompt t
  slot : ∀ t, (l.share t messages).length + m.mayAsk t ≤ 1

theorem share_append (l : ClientListener) (t : Nat) (messages more : List Message) :
    l.share t (messages ++ more) = l.share t messages ++ l.share t more := by
  rw [share, share, share]
  split
  · rfl
  · exact requestsFrom_append _ _ _

theorem Resumes.resumeOne (hpos : l.settings.limits.Positive) (hl : l.Distinct)
    (h : l.Resumes sent given ended (token :: waiting) messages m) :
    l.Resumes sent given ended waiting (messages ++ (m.resumeOne token).1) (m.resumeOne token).2 := by
  unfold ClientListener.resumeOne
  split
  · rename_i hnone
    rw [List.append_nil]
    refine ⟨h.keeps, h.settings_eq, h.names, h.rounds, fun t ht => ?_, h.slot⟩
    by_cases htoken : t = token
    · intro c hc
      rw [htoken, hnone] at hc
      cases hc
    · exact h.prompt t (List.not_mem_cons_of_ne_of_not_mem htoken ht)
  · rename_i c hc
    obtain rfl := token_of_connection? hc
    obtain ⟨id, read, haccount⟩ := h.keeps.accounts c.token
    have hd : Replaces c { c with paused := false } (ended c.token) [] :=
      ⟨rfl, rfl, rfl, (List.append_nil _).symm, haccount.ends c hc⟩
    obtain ⟨hturn, hprompt⟩ :=
      turn_readFrom (h.settings_eq ▸ hpos) h.keeps.distinct hc haccount hd rfl
    have hshare := share_of_sublist hl h.names hc hturn.others
    refine ⟨?_, hturn.confined.settings_eq.trans h.settings_eq, hturn.confined.names.trans h.names, ?_,
      fun t ht => ?_, fun t => ?_⟩
    · have hkeeps := h.keeps.turn hturn
      simp only [ite_self, List.append_nil, List.append_assoc, ← hshare, ← share_append] at hkeeps
      exact hkeeps
    · rw [hturn.confined.seenRound_eq, hturn.confined.requestRound_eq, h.rounds]
    · by_cases htoken : t = c.token
      · rwa [htoken]
      · exact hturn.prompt_of_ne h.keeps.distinct htoken
          (h.prompt t (List.not_mem_cons_of_ne_of_not_mem htoken ht))
    · have hslot := hturn.slot_le h.keeps.distinct t
      have hbefore := h.slot t
      rw [share_append, List.length_append, hshare]
      omega

/-- The listener once the round has closed. -/
def freed (l : ClientListener) : ClientListener :=
  { l with registry := l.registry.closeRequestRound, seenRound := l.registry.closeRequestRound.requestRound }

theorem closeRound_eq (h : l.seenRound = l.registry.requestRound) :
    l.closeRound = (l.connections.filter ClientConnection.paused).foldl
      (fun acc c => (acc.1 ++ (acc.2.resumeOne c.token).1, (acc.2.resumeOne c.token).2)) ([], l.freed) := by
  unfold closeRound resumeDeferred
  refine if_neg fun hsame => ?_
  have hcount : l.registry.requestRound + 1 = l.seenRound := hsame
  omega

theorem find?_freed (l : ClientListener) (id : ChannelId) :
    l.freed.registry.find? id = (l.registry.find? id).map Channel.clearRequest :=
  ChannelRegistry.find?_map (f := Channel.clearRequest) (fun _ => rfl) rfl id

/-- A client that stands somewhere in a frame still stands there when the slots are freed. -/
theorem Keeps.freed (h : l.Keeps sent given ended) : l.freed.Keeps sent given ended where
  distinct := ⟨h.distinct.tokens, h.distinct.channels, h.distinct.earlier⟩
  accounts t := by
    obtain ⟨id, read, haccount⟩ := h.accounts t
    refine ⟨id, read, haccount.sent_eq, haccount.given_eq, fun c hc => ?_, haccount.ends, haccount.left,
      haccount.unborn⟩
    obtain ⟨hchannel, channel, tail, hstands, hending⟩ := haccount.stands c hc
    refine ⟨hchannel, channel.clearRequest, tail, ⟨hstands.connected, ?_,
      hstands.within_frame.stage_eq, hstands.within_frame.incomplete, fun _ => rfl⟩, hending⟩
    rw [find?_freed, hstands.registered]
    rfl
  faults := h.faults

theorem resumes_freed (h : l.Serves sent given ended) : l.Resumes sent given ended
    ((l.connections.filter ClientConnection.paused).map ClientConnection.token) [] l.freed where
  keeps := by
    have hkeeps := h.toKeeps.freed
    simp only [share_nil, List.append_nil]
    exact hkeeps
  settings_eq := rfl
  names := List.Sublist.refl _
  rounds := rfl
  prompt t ht c hc := by
    have hpaused : c.paused = false := by
      by_contra hpaused
      refine ht (List.mem_map.2 ⟨c, List.mem_filter.2 ⟨List.mem_of_find?_eq_some hc, ?_⟩,
        token_of_connection? hc⟩)
      exact Bool.eq_true_of_not_eq_false hpaused
    refine ⟨(h.prompt t c hc).1, fun htrue => ?_⟩
    cases hpaused.symm.trans htrue
  slot t := by
    rw [share_nil, List.length_nil, Nat.zero_add]
    exact l.freed.mayAsk_le_one t

theorem Resumes.foldl (hpos : l.settings.limits.Positive) (hl : l.Distinct)
    {clients : List ClientConnection}
    (h : l.Resumes sent given ended (clients.map ClientConnection.token) messages m) :
    let acc := clients.foldl
      (fun acc c => (acc.1 ++ (acc.2.resumeOne c.token).1, (acc.2.resumeOne c.token).2)) (messages, m)
    l.Resumes sent given ended [] acc.1 acc.2 := by
  induction clients generalizing messages m with
  | nil => exact h
  | cons c clients ih => exact ih (h.resumeOne hpos hl)

/-- The round closes: every client that was paused is read on, and asks at most once. -/
theorem resumes_closeRound (hpos : l.settings.limits.Positive) (h : l.Serves sent given ended) :
    l.Resumes sent given ended [] l.closeRound.1 l.closeRound.2 := by
  rw [closeRound_eq h.rounds]
  exact (resumes_freed h).foldl hpos h.distinct

end Serves

section Run
variable {sent : Nat → Bytes} {given : Nat → List Message} {ended : Nat → Prop}

theorem deliver_eq (l : ClientListener) (m : Message) :
    (l.deliver m).2 = l ∨ (l.deliver m).2 =
      { l with metrics := { l.metrics with repliesWritten := l.metrics.repliesWritten + 1 } } := by
  unfold deliver
  split
  · split
    · exact .inl rfl
    · exact .inr rfl
  · exact .inl rfl

/-- The requests that a client may make in an event: a round that closes leaves it one. -/
def asks (l : ClientListener) : ListenerEvent → Nat → Nat
  | .closeRound, _ => 1
  | _, t => l.mayAsk t

/-- What an event comes to: the accounts of all clients are kept, and none asks twice in a round. -/
structure Goes (l : ClientListener) (sent : Nat → Bytes) (given : Nat → List Message) (ended : Nat → Prop)
    (e : ListenerEvent) : Prop where
  serves : (l.next e).Serves (fun t => sent t ++ l.sentBy t e) (fun t => given t ++ l.requestsBy t e) ended
  settings_eq : (l.next e).settings = l.settings
  slot : ∀ t, (l.requestsBy t e).length + (l.next e).mayAsk t ≤ l.asks e t

variable {e : ListenerEvent}

/-- An event in which no bytes arrive and nothing is handed on. -/
theorem goes_of_idle (hbytes : ∀ t, l.sentBy t e = []) (hnone : (l.act e).1 = [])
    (hserves : (l.next e).Serves sent given ended) (hsettings : (l.next e).settings = l.settings)
    (hslot : ∀ t, (l.next e).mayAsk t ≤ l.asks e t) : l.Goes sent given ended e where
  serves := by
    simp only [requestsBy, hbytes, hnone, share_nil, List.append_nil]
    exact hserves
  settings_eq := hsettings
  slot t := by
    rw [requestsBy, hnone, share_nil, List.length_nil, Nat.zero_add]
    exact hslot t

/-- An event that changes no more than counters. -/
theorem goes_of_counted (h : l.Serves sent given ended) {metrics : ListenerMetrics}
    (hnext : l.next e = { l with metrics := metrics })
    (hfaults : metrics.protocolFaults = l.metrics.protocolFaults) (hbytes : ∀ t, l.sentBy t e = [])
    (hnone : (l.act e).1 = []) (hasks : ∀ t, l.asks e t = l.mayAsk t) : l.Goes sent given ended e := by
  refine goes_of_idle hbytes hnone ?_ ?_ fun t => ?_
  · rw [hnext]
    exact ⟨h.toKeeps.of_same rfl rfl rfl rfl hfaults, h.rounds, h.prompt⟩
  · rw [hnext]
  · rw [hnext, hasks]
    exact Nat.le_refl _

theorem goes_connect (h : l.Serves sent given ended) {address : IpAddress}
    (hfit : l.Fit (.connect address)) : l.Goes sent given ended (.connect address) := by
  rcases accept_cases l address hfit with hrefused | ⟨id, hjoins⟩
  · exact goes_of_counted h hrefused rfl (fun _ => rfl) rfl fun _ => rfl
  · refine goes_of_idle (fun _ => rfl) rfl ⟨h.toKeeps.joins hjoins, ?_, fun t => ?_⟩ hjoins.settings_eq
      (hjoins.mayAsk_le h.toKeeps)
    · have hregistry : (l.next (.connect address)).registry = l.registry.add id := hjoins.registry_eq
      rw [hregistry]
      exact hjoins.seenRound_eq.trans h.rounds
    · exact hjoins.prompt h.toKeeps (h.prompt t)

theorem goes_arrive (hpos : l.settings.limits.Positive) (h : l.Serves sent given ended) {token : Nat}
    {bytes : Bytes} {last : Bool}
    (hlast : last = true → (l.connection? token).isSome → ended token) :
    l.Goes sent given ended (.arrive token bytes last) := by
  cases hc : l.connection? token with
  | none =>
    have hact : l.act (.arrive token bytes last) = ([], l) := by
      rw [act, arrive, hc]
    refine goes_of_counted h (congrArg Prod.snd hact) rfl (fun t => if_neg ?_) (congrArg Prod.fst hact)
      fun _ => rfl
    rintro ⟨rfl, hsome⟩
    rw [hc] at hsome
    cases hsome
  | some c =>
    obtain rfl := token_of_connection? hc
    obtain ⟨hturn, hprompt⟩ := arrive_turn hpos h hc bytes fun htrue => hlast htrue (hc ▸ rfl)
    have hbytes (t : Nat) :
        l.sentBy t (.arrive c.token bytes last) = if t = c.token then bytes else [] := by
      by_cases ht : t = c.token
      · rw [ht, if_pos rfl, sentBy, hc]
        exact if_pos ⟨rfl, rfl⟩
      · rw [if_neg ht]
        exact if_neg fun hboth => ht hboth.1.symm
    refine ⟨?_, hturn.confined.settings_eq, hturn.slot_le h.distinct⟩
    simp only [hbytes]
    exact h.turn hturn hprompt

theorem goes_deliver (h : l.Serves sent given ended) (message : Message) :
    l.Goes sent given ended (.deliver message) := by
  rcases deliver_eq l message with hsame | hwritten
  · exact goes_of_counted h hsame rfl (fun _ => rfl) rfl fun _ => rfl
  · exact goes_of_counted h hwritten rfl (fun _ => rfl) rfl fun _ => rfl

theorem goes_closeRound (hpos : l.settings.limits.Positive) (h : l.Serves sent given ended) :
    l.Goes sent given ended .closeRound := by
  have hresumes := resumes_closeRound hpos h
  refine ⟨⟨?_, hresumes.rounds, fun t => hresumes.prompt t List.not_mem_nil⟩, hresumes.settings_eq,
    hresumes.slot⟩
  have hbytes (t : Nat) : l.sentBy t .closeRound = [] := rfl
  simp only [hbytes, List.append_nil]
  exact hresumes.keeps

theorem EndsAlong.of_cons {events : List ListenerEvent} (h : (l.next e).EndsAlong t events) :
    l.EndsAlong t (e :: events) := by
  obtain ⟨front, bytes, back, rfl, hconnected⟩ := h
  exact ⟨e :: front, bytes, back, rfl, hconnected⟩

theorem EndsAlong.append {events : List ListenerEvent} (h : l.EndsAlong t events)
    (more : List ListenerEvent) : l.EndsAlong t (events ++ more) := by
  obtain ⟨front, bytes, back, rfl, hconnected⟩ := h
  refine ⟨front, bytes, back ++ more, ?_, hconnected⟩
  rw [List.append_assoc, List.cons_append]

theorem EndsAlong.of_append {front events : List ListenerEvent}
    (h : (front.foldl next l).EndsAlong t events) : l.EndsAlong t (front ++ events) := by
  obtain ⟨before, bytes, back, rfl, hconnected⟩ := h
  refine ⟨front ++ before, bytes, back, (List.append_assoc ..).symm, ?_⟩
  rwa [List.foldl_append]

theorem goes (hpos : l.settings.limits.Positive) (h : l.Serves sent given ended) (hfit : l.Fit e)
    {events : List ListenerEvent} (hends : ∀ t, l.EndsAlong t (e :: events) → ended t) :
    l.Goes sent given ended e := by
  cases e with
  | connect address => exact goes_connect h hfit
  | arrive token bytes last =>
    refine goes_arrive hpos h fun hlast hconnected => ?_
    subst hlast
    exact hends token ⟨[], bytes, events, rfl, hconnected⟩
  | deliver message => exact goes_deliver h message
  | closeRound => exact goes_closeRound hpos h

theorem serves_run {events : List ListenerEvent} (hpos : l.settings.limits.Positive)
    (h : l.Serves sent given ended) (hfit : Along next Fit l events)
    (hends : ∀ t, l.EndsAlong t events → ended t) :
    (events.foldl next l).Serves (fun t => sent t ++ l.sentAlong t events)
        (fun t => given t ++ l.requestsAlong t events) ended ∧
      (events.foldl next l).settings = l.settings := by
  induction events generalizing l sent given with
  | nil =>
    simp only [sentAlong, requestsAlong, outputs, List.append_nil]
    exact ⟨h, rfl⟩
  | cons e rest ih =>
    have hgoes := goes hpos h hfit.1 hends
    obtain ⟨hrest, hsettings⟩ := ih (hgoes.settings_eq ▸ hpos) hgoes.serves hfit.2
      fun t hrest => hends t hrest.of_cons
    simp only [List.append_assoc] at hrest
    exact ⟨hrest, hsettings.trans hgoes.settings_eq⟩

/-- As long as no round closes, a client has at most the request that its slot is free for. -/
theorem slot_run {events : List ListenerEvent} (hpos : l.settings.limits.Positive)
    (h : l.Serves sent given ended) (hfit : Along next Fit l events)
    (hends : ∀ t, l.EndsAlong t events → ended t)
    (hround : ListenerEvent.closeRound ∉ events) (t : Nat) :
    (l.requestsAlong t events).length ≤ l.mayAsk t := by
  induction events generalizing l sent given with
  | nil => exact Nat.zero_le _
  | cons e rest ih =>
    have hgoes := goes hpos h hfit.1 hends
    have hrest := ih (hgoes.settings_eq ▸ hpos) hgoes.serves hfit.2
      (fun t hrest => hends t hrest.of_cons)
      fun hmem => hround (List.mem_cons_of_mem _ hmem)
    have hslot := hgoes.slot t
    have hasks : l.asks e t = l.mayAsk t := by
      cases e with
      | closeRound => exact absurd List.mem_cons_self hround
      | connect | arrive | deliver => rfl
    rw [requestsAlong, outputs, List.length_append, ← requestsAlong]
    omega

/-- From one closing of the round to the next, a client has one request at most. -/
theorem round_run {events : List ListenerEvent} (hpos : l.settings.limits.Positive)
    (h : l.Serves sent given ended) (hfit : Along next Fit l (e :: events))
    (hends : ∀ t, l.EndsAlong t (e :: events) → ended t)
    (hround : ListenerEvent.closeRound ∉ events) (t : Nat) :
    (l.requestsAlong t (e :: events)).length ≤ 1 := by
  have hgoes := goes hpos h hfit.1 hends
  have hrest := slot_run (hgoes.settings_eq ▸ hpos) hgoes.serves hfit.2
    (fun t hrest => hends t hrest.of_cons) hround t
  have hslot := hgoes.slot t
  have hone : l.asks e t ≤ 1 := by
    cases e with
    | closeRound => exact Nat.le_refl 1
    | connect | arrive | deliver => exact l.mayAsk_le_one t
  rw [requestsAlong, outputs, List.length_append, ← requestsAlong]
  omega

/-- A client is served as the bytes that it has sent are to be taken. Those that wait are the last ones;
the requests given are those of the reading of the others. While it is connected, no length above the
limit has been read; it goes for such a length, or when its stream has ended. Only a client that is paused
has bytes that wait, and it is paused only behind its request of the round. -/
structure Served (l : ClientListener) (token : Nat) (id : ChannelId) (sent : Bytes)
    (given : List Message) (ended : Prop) : Prop where
  sent_eq : sent = l.consumed token sent ++ l.unread token
  given_eq : given = requestsOf id false
    (reading l.settings.limits false (l.consumed token sent)).payloads
  given_prefix : given <+: requestsOf id false (reading l.settings.limits false sent).payloads
  connected : ∀ c, l.connection? token = some c → c.channel = id ∧ ∃ established tail,
    (reading l.settings.limits false (l.consumed token sent)).ending = .within established tail
  left : l.connection? token = none → token < l.nextToken → ended ∨
    ∃ n, (reading l.settings.limits false sent).ending = .tooLong n
  all_read : (∀ c, l.connection? token = some c → c.paused = false) → l.consumed token sent = sent
  paused : ∀ c, l.connection? token = some c → c.paused = true →
    ∃ channel, l.registry.find? id = some channel ∧ channel.requestClaimed = true

theorem Serves.served (h : l.Serves sent given ended) (token : Nat) :
    ∃ id, l.Served token id (sent token) (given token) (ended token) := by
  obtain ⟨id, read, haccount⟩ := h.accounts token
  have hread := haccount.consumed_eq
  refine ⟨id, ?_, ?_, ?_, fun c hc => ?_, haccount.left, fun hall => ?_, fun c hc hpaused => ?_⟩
  · rw [hread]
    exact haccount.sent_eq
  · rw [hread]
    exact haccount.given_eq
  · rw [haccount.given_eq, haccount.sent_eq]
    exact requestsOf_isPrefix (payloads_mono _ _ _ _) id false
  · obtain ⟨hchannel, channel, tail, -, hending⟩ := haccount.stands c hc
    rw [hread]
    exact ⟨hchannel, channel.established, tail, hending⟩
  · have hunread : l.unread token = [] := by
      cases hc : l.connection? token with
      | none => exact unread_eq_nil hc
      | some c => exact (unread_eq hc).trans ((h.prompt token c hc).1 (hall c hc))
    rw [hread, haccount.sent_eq, hunread, List.append_nil]
  · obtain ⟨rfl, channel, _, hstands, -⟩ := haccount.stands c hc
    have hslot := (h.prompt token c hc).2 hpaused
    rw [mayAsk_eq hc hstands.registered] at hslot
    refine ⟨channel, hstands.registered, ?_⟩
    by_contra hfree
    rw [if_neg hfree] at hslot
    cases hslot

/-- Whatever clients connect, however their bytes are cut, and wherever rounds close between them: the
requests of a client are those of the reading of its bytes, as far as they have been read, and all of
them unless its request of the round holds it back; the faults counted are those of the readings; and
between two closings of the round no client makes more than one request. -/
theorem clients_served {settings : ListenerSettings} (hpos : settings.limits.Positive)
    (limiter : ConnectionLimiter) (registry : ChannelRegistry) (draws : Draws)
    {events : List ListenerEvent}
    (hfit : Along next Fit (start settings limiter registry draws) events) :
    let first := start settings limiter registry draws
    let l := events.foldl next first
    (∀ token, ∃ id, l.Served token id (first.sentAlong token events) (first.requestsAlong token events)
      (first.EndsAlong token events)) ∧
    l.metrics.protocolFaults = ∑ token ∈ Finset.range l.nextToken,
      (reading settings.limits false (l.consumed token (first.sentAlong token events))).faults
        settings.limits ∧
    ∀ front e round back, events = front ++ e :: round ++ back → ListenerEvent.closeRound ∉ round →
      ∀ token, ((front.foldl next first).requestsAlong token (e :: round)).length ≤ 1 := by
  intro first l
  let ended (token : Nat) : Prop := first.EndsAlong token events
  have hstart : first.Serves (fun _ => []) (fun _ => []) ended :=
    ⟨keeps_start settings limiter registry draws, rfl, fun t c hc => by
      have hnone : first.connection? t = none := rfl
      cases hnone.symm.trans hc⟩
  obtain ⟨hserves, hsettings⟩ := serves_run hpos hstart hfit fun _ h => h
  simp only [List.nil_append] at hserves
  have hlimits : l.settings = settings := hsettings
  refine ⟨hserves.served, hlimits ▸ hserves.faults, ?_⟩
  rintro front e round back rfl hround token
  obtain ⟨hsegment, -⟩ := along_append.1 hfit
  obtain ⟨hfront, hround'⟩ := along_append.1 hsegment
  obtain ⟨hbefore, hkept⟩ :=
    serves_run hpos hstart hfront fun t hends => (hends.append (e :: round)).append back
  exact round_run (hkept ▸ hpos) hbefore hround' (fun t hends => hends.of_append.append back) hround token

/-- Requests of one byte. -/
def shortSettings : ListenerSettings := ⟨⟨⟨0, 1, 1, 0⟩, 4⟩, false, 4⟩

/-- Two clients: one sends two frames, cut in the first length; the other one whose length is not due. -/
def twoClients : List ListenerEvent :=
  [.connect (.v4 127 0 0 1), .arrive 0 [0, 0] false, .connect (.v4 127 0 0 2),
    .arrive 1 [0, 0, 0, 2, 9, 9, 0] false, .arrive 0 [0, 1, 7, 0, 0, 0, 1, 8] false, .closeRound]

def shortListener : ClientListener := start shortSettings (.new 4 0) (.empty 16) (.ofList [5, 6])

theorem clients_served_twoClients :
    shortSettings.limits.Positive ∧ Along next Fit shortListener twoClients ∧
      (∃ id, (twoClients.foldl next shortListener).Served 0 id (shortListener.sentAlong 0 twoClients)
        [.establish 5 [7], .message 5 [8]] (shortListener.EndsAlong 0 twoClients)) ∧
      (twoClients.foldl next shortListener).metrics.protocolFaults = 1 := by
  have hpos : shortSettings.limits.Positive := by
    intro established
    cases established <;> decide
  have hfit : Along next Fit shortListener twoClients := by decide
  have hrequests : shortListener.requestsAlong 0 twoClients = [.establish 5 [7], .message 5 [8]] := by
    decide
  have hserved := (clients_served hpos (.new 4 0) (.empty 16) (.ofList [5, 6]) hfit).1 0
  refine ⟨hpos, hfit, ?_, by decide⟩
  rw [← hrequests]
  exact hserved

/-- A client announces nine bytes and sends none of them. -/
def announcedOnly : List ListenerEvent :=
  [.connect (.v4 127 0 0 1), .arrive 0 [0, 0, 0, 9] false]

/-- A fault is counted with the length, not with the frame: here all bytes are read, the client is not
paused, and no frame is complete. -/
theorem fault_counted_early :
    let first := start ⟨⟨⟨0, 5, 5, 0⟩, 64⟩, false, 4⟩ (.new 4 0) (.empty 16) (.ofList [5])
    let l := announcedOnly.foldl next first
    (l.connection? 0).map (fun c => (c.paused, c.unread)) = some (false, []) ∧
      first.sentAlong 0 announcedOnly = [0, 0, 0, 9] ∧
      (reading l.settings.limits false [0, 0, 0, 9]).skipped = 0 ∧
      l.metrics.protocolFaults ≠ (reading l.settings.limits false [0, 0, 0, 9]).skipped := by
  intro first l
  have hskipped : (reading l.settings.limits false [0, 0, 0, 9]).skipped = 0 := by
    rw [reading_of_incomplete (.inr (by decide))]
  refine ⟨by decide, by decide, hskipped, ?_⟩
  rw [hskipped]
  decide

end Run

end ClientListener
end MixRelay
