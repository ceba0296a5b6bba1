import MixRelay.Proofs.ListenerReads
import Mathlib.Algebra.BigOperators.Group.Finset.Basic

/-!
# Accounts of the clients of a listener

For each client an account tells which of its bytes have been read, that the requests for them have
been handed on, and where its stream stands. What is done for one client, a turn, brings its account
forward and leaves the others as they are; the faults counted are those of all accounts.
-/
namespace MixRelay

namespace ClientListener

/-- The requests of a connected client among some messages. -/
def share (l : ClientListener) (token : Nat) (messages : List Message) : List Message :=
  match l.connection? token with
  | none => []
  | some c => requestsFrom c.channel messages

/-- Of the bytes that a client has sent, those that have been read. -/
def consumed (l : ClientListener) (token : Nat) (sent : Bytes) : Bytes :=
  sent.take (sent.length - (l.unread token).length)

variable {l m : ClientListener} {token t : Nat} {c d : ClientConnection} {id : ChannelId}
  {sent read more : Bytes} {given messages : List Message} {ended : Prop}

section Account

/-- What has become of the bytes that a client has sent, whose stream may have ended: some are read and
the rest wait, and the requests for those read are given. A client that is connected stands where their
reading ends; one that has gone had come to its end, or had sent a length above the limit. -/
structure Account (l : ClientListener) (token : Nat) (id : ChannelId) (read sent : Bytes)
    (given : List Message) (ended : Prop) : Prop where
  sent_eq : sent = read ++ l.unread token
  given_eq : given = requestsOf id false (reading l.settings.limits false read).payloads
  stands : ∀ c, l.connection? token = some c → c.channel = id ∧ ∃ channel tail,
    l.Stands c channel tail ∧
      (reading l.settings.limits false read).ending = .within channel.established tail
  ends : ∀ c, l.connection? token = some c → c.ended = true → ended
  left : l.connection? token = none → token < l.nextToken → ended ∨
    ∃ n, (reading l.settings.limits false sent).ending = .tooLong n
  unborn : l.nextToken ≤ token → sent = []

theorem Account.consumed_eq (h : l.Account token id read sent given ended) :
    l.consumed token sent = read := by
  rw [consumed, h.sent_eq, List.length_append, Nat.add_sub_cancel, List.take_left]

theorem consumed_congr (h : m.connection? token = l.connection? token) (sent : Bytes) :
    m.consumed token sent = l.consumed token sent := by
  rw [consumed, unread, h, ← unread, ← consumed]

/-- What is done without touching a client or its channel. -/
theorem Account.frame (h : l.Account token id read sent given ended) (hsettings : m.settings = l.settings)
    (hnext : token < m.nextToken ↔ token < l.nextToken)
    (hconnection : m.connection? token = l.connection? token)
    (hfind : ∀ c, l.connection? token = some c →
      m.registry.find? c.channel = l.registry.find? c.channel) :
    m.Account token id read sent given ended where
  sent_eq := by rw [unread, hconnection, ← unread, h.sent_eq]
  given_eq := by rw [hsettings, h.given_eq]
  stands c hc := by
    rw [hconnection] at hc
    obtain ⟨hchannel, channel, tail, hstands, hending⟩ := h.stands c hc
    have htoken := token_of_connection? hc
    refine ⟨hchannel, channel, tail, ⟨?_, ?_, hsettings ▸ hstands.within_frame⟩, hsettings ▸ hending⟩
    · rw [htoken, hconnection, hc]
    · rw [hfind c hc, hstands.registered]
  ends c hc := h.ends c (hconnection ▸ hc)
  left hnone hearlier := hsettings ▸ h.left (hconnection ▸ hnone) (hnext.1 hearlier)
  unborn hlater := h.unborn (Nat.le_of_not_lt fun hearlier => Nat.not_lt.2 hlater (hnext.2 hearlier))

/-- More bytes arrive. -/
theorem Account.replace (h : l.Account c.token id read sent given ended) (hl : l.Distinct)
    (hc : l.connection? c.token = some c) (htoken : d.token = c.token) (hchannel : d.channel = c.channel)
    (hstage : d.stage = c.stage) (hunread : d.unread = c.unread ++ more)
    (hended : d.ended = true → ended) :
    (l.replace d).Account c.token id read (sent ++ more) given ended where
  sent_eq := by
    rw [unread_eq (connection?_replace hc htoken), hunread, h.sent_eq, unread_eq hc, List.append_assoc]
  given_eq := h.given_eq
  stands e he := by
    have hd := connection?_replace hc htoken
    obtain rfl := Option.some.inj (hd.symm.trans he)
    obtain ⟨hid, channel, tail, hstands, hending⟩ := h.stands c hc
    refine ⟨hchannel.trans hid, channel, tail, ⟨htoken ▸ hd, hchannel ▸ hstands.registered, ?_⟩, hending⟩
    exact ⟨hstage.trans hstands.within_frame.stage_eq, hstands.within_frame.incomplete,
      hstands.within_frame.free⟩
  ends e he := by
    obtain rfl := Option.some.inj ((connection?_replace hc htoken).symm.trans he)
    exact hended
  left hnone := by
    cases hnone.symm.trans (connection?_replace hc htoken)
  unborn hlater := absurd (hl.earlier _ (mem_names hc)) (Nat.not_lt.2 hlater)

/-- Some of the bytes that wait are read. -/
theorem Account.looks (h : l.Account c.token id read sent given ended) (hl : l.Distinct) {channel : Channel}
    {tail : Bytes} (hstands : l.Stands c channel tail)
    (hending : (reading l.settings.limits false read).ending = .within channel.established tail)
    (hlooks : l.Looks c channel tail messages m) :
    ∃ read', m.Account c.token id read' sent (given ++ requestsFrom c.channel messages) ended ∧
      m.metrics.protocolFaults + (reading l.settings.limits false read).faults l.settings.limits =
        l.metrics.protocolFaults + (reading l.settings.limits false read').faults l.settings.limits := by
  obtain ⟨got, hunread, hrequests, hfaults, hgoes⟩ := hlooks.progress
  have hid := (h.stands c hstands.connected).1
  have happend := reading_append hending got
  refine ⟨read ++ got, ⟨?_, ?_, fun d hd => ?_, fun d hd => ?_, fun hnone _ => ?_, fun hlater => ?_⟩, ?_⟩
  · rw [h.sent_eq, unread_eq hstands.connected, hunread, List.append_assoc]
  · rw [hlooks.confined.settings_eq, happend, Reading.behind]
    dsimp only
    rw [requestsOf_append, ← (reading_ending hending).2, h.given_eq, hrequests, hid]
  · obtain ⟨hchannel, -, channel', tail', hstands', hending'⟩ := hgoes d hd
    refine ⟨hchannel.trans hid, channel', tail', hstands', ?_⟩
    rw [hlooks.confined.settings_eq, happend]
    exact hending'
  · rw [(hgoes d hd).2.1]
    exact h.ends c hstands.connected
  · refine (hlooks.left hnone).imp (h.ends c hstands.connected) fun hlong => ?_
    rw [hlooks.confined.settings_eq, h.sent_eq, unread_eq hstands.connected, reading_append hending]
    exact hlong
  · rw [hlooks.confined.nextToken_eq] at hlater
    exact absurd (hl.earlier _ (mem_names hstands.connected)) (Nat.not_lt.2 hlater)
  · rw [happend, Reading.faults, Reading.faults, hending, Reading.behind]
    rw [Reading.faults] at hfaults
    dsimp only
    omega

end Account

section Turn

theorem share_eq (hc : l.connection? token = some c) (messages : List Message) :
    l.share token messages = requestsFrom c.channel messages := by
  rw [share, hc]

theorem share_nil (l : ClientListener) (token : Nat) : l.share token [] = [] := by
  rw [share]
  split <;> rfl

/-- What an event comes to that is about one client: more of its bytes arrive, and maybe some of those
that wait are read. -/
structure Turn (l : ClientListener) (c : ClientConnection) (sent : Bytes) (given : List Message)
    (ended : Prop) (more : Bytes) (messages : List Message) (m : ClientListener) : Prop where
  connected : l.connection? c.token = some c
  confined : l.Confined m c.token c.channel
  others : ∀ id, id ≠ c.channel → requestsFrom id messages = []
  slot : (requestsFrom c.channel messages).length + m.mayAsk c.token ≤ l.mayAsk c.token
  account : ∃ id read read', l.Account c.token id read sent given ended ∧
    m.Account c.token id read' (sent ++ more) (given ++ requestsFrom c.channel messages) ended ∧
    m.metrics.protocolFaults + (reading l.settings.limits false read).faults l.settings.limits =
      l.metrics.protocolFaults + (reading l.settings.limits false read').faults l.settings.limits

/-- A client with other bytes that wait, and paused or not. -/
structure Replaces (c d : ClientConnection) (ended : Prop) (more : Bytes) : Prop where
  token_eq : d.token = c.token
  channel_eq : d.channel = c.channel
  stage_eq : d.stage = c.stage
  unread_eq : d.unread = c.unread ++ more
  ends : d.ended = true → ended

theorem mayAsk_replace (hc : l.connection? c.token = some c) (hd : Replaces c d ended more) :
    (l.replace d).mayAsk c.token = l.mayAsk c.token := by
  rw [mayAsk, connection?_replace hc hd.token_eq, mayAsk, hc]
  dsimp only
  rw [hd.channel_eq]
  rfl

theorem turn_replace (hl : l.Distinct) (hc : l.connection? c.token = some c)
    (h : l.Account c.token id read sent given ended) (hd : Replaces c d ended more) :
    l.Turn c sent given ended more [] (l.replace d) where
  connected := hc
  confined := confined_replace hl hc hd.token_eq hd.channel_eq
  others _ _ := rfl
  slot := by
    rw [mayAsk_replace hc hd]
    exact Nat.le_of_eq (Nat.zero_add _)
  account := by
    refine ⟨id, read, read, h, ?_, rfl⟩
    rw [requestsFrom, List.filter_nil, List.append_nil]
    exact h.replace hl hc hd.token_eq hd.channel_eq hd.stage_eq hd.unread_eq hd.ends

theorem turn_readFrom (hpos : l.settings.limits.Positive) (hl : l.Distinct)
    (hc : l.connection? c.token = some c) (h : l.Account c.token id read sent given ended)
    (hd : Replaces c d ended more) (hpaused : d.paused = false) :
    l.Turn c sent given ended more ((l.replace d).readFrom c.token).1 ((l.replace d).readFrom c.token).2 ∧
      ((l.replace d).readFrom c.token).2.Prompt c.token := by
  have hconfined := confined_replace hl hc hd.token_eq hd.channel_eq
  have hreplaced := h.replace hl hc hd.token_eq hd.channel_eq hd.stage_eq hd.unread_eq hd.ends
  obtain ⟨-, channel, tail, hstands, hending⟩ := hreplaced.stands d (connection?_replace hc hd.token_eq)
  have hlooks := looks_readFrom (l := l.replace d) hpos (hconfined.distinct hl) hstands
  obtain ⟨read', haccount, hfaults⟩ :=
    (hd.token_eq.symm ▸ hreplaced).looks (hconfined.distinct hl) hstands hending hlooks
  have hslot := hlooks.slot
  have hothers := hlooks.others
  have hrest := hlooks.confined
  have hprompt := hlooks.prompt hpaused
  rw [hd.token_eq] at hslot hrest haccount hfaults hprompt
  rw [hd.token_eq, hd.channel_eq] at hothers
  rw [hd.channel_eq] at hslot hrest haccount
  exact ⟨⟨hc, hconfined.trans hrest, hothers, (mayAsk_replace hc hd) ▸ hslot,
    id, read, read', h, haccount, hfaults⟩, hprompt⟩

/-- The messages of a turn are nothing to the other clients. -/
theorem Turn.share_of_ne (hl : l.Distinct) (h : l.Turn c sent given ended more messages m)
    (hne : t ≠ c.token) : l.share t messages = [] := by
  rw [share]
  split
  · rfl
  · rename_i d hd
    exact h.others _ (hl.channel_ne h.connected hd hne)

/-- Another client has the channel that it had. -/
theorem Turn.find?_of_ne (hl : l.Distinct) (h : l.Turn c sent given ended more messages m)
    (hne : t ≠ c.token) (hd : l.connection? t = some d) :
    m.registry.find? d.channel = l.registry.find? d.channel :=
  h.confined.find?_eq _ (hl.channel_ne h.connected hd hne)

theorem Turn.mayAsk_of_ne (hl : l.Distinct) (h : l.Turn c sent given ended more messages m)
    (hne : t ≠ c.token) : m.mayAsk t = l.mayAsk t := by
  rw [mayAsk, h.confined.connection?_eq t hne, h.confined.nextToken_eq, mayAsk]
  cases hd : l.connection? t with
  | none => rfl
  | some d =>
    dsimp only
    rw [h.find?_of_ne hl hne hd]

/-- The requests of a turn are among those that a client may still make in the round. -/
theorem Turn.slot_le (hl : l.Distinct) (h : l.Turn c sent given ended more messages m) (t : Nat) :
    (l.share t messages).length + m.mayAsk t ≤ l.mayAsk t := by
  by_cases ht : t = c.token
  · rw [ht, share_eq h.connected]
    exact h.slot
  · rw [h.share_of_ne hl ht, h.mayAsk_of_ne hl ht, List.length_nil, Nat.zero_add]

theorem Turn.prompt_of_ne (hl : l.Distinct) (h : l.Turn c sent given ended more messages m)
    (hne : t ≠ c.token) (hprompt : l.Prompt t) : m.Prompt t := by
  intro d hd
  rw [h.confined.connection?_eq t hne] at hd
  rw [h.mayAsk_of_ne hl hne]
  exact hprompt d hd

end Turn

section Keeps
variable {sent : Nat → Bytes} {given : Nat → List Message} {ended : Nat → Prop}

open Finset in
/-- The clients' accounts, each with what the client has sent and the requests given for it, and the
faults counted for all of them. -/
structure Keeps (l : ClientListener) (sent : Nat → Bytes) (given : Nat → List Message)
    (ended : Nat → Prop) : Prop where
  distinct : l.Distinct
  accounts : ∀ t, ∃ id read, l.Account t id read (sent t) (given t) (ended t)
  faults : l.metrics.protocolFaults = ∑ t ∈ range l.nextToken,
    (reading l.settings.limits false (l.consumed t (sent t))).faults l.settings.limits

/-- Two sums that differ in one term only. -/
theorem sum_range_eq_of_term {f g : Nat → Nat} {n i a b : Nat} (hi : i < n)
    (hne : ∀ j, j ≠ i → f j = g j) (hterm : b + f i = a + g i) (ha : a = ∑ j ∈ Finset.range n, f j) :
    b = ∑ j ∈ Finset.range n, g j := by
  have hmem := Finset.mem_range.2 hi
  have hrest : ∑ j ∈ (Finset.range n).erase i, f j = ∑ j ∈ (Finset.range n).erase i, g j :=
    Finset.sum_congr rfl fun j hj => hne j (Finset.ne_of_mem_erase hj)
  rw [← Finset.add_sum_erase _ f hmem] at ha
  rw [← Finset.add_sum_erase _ g hmem]
  omega

theorem Keeps.turn (h : l.Keeps sent given ended)
    (ht : l.Turn c (sent c.token) (given c.token) (ended c.token) more messages m) :
    m.Keeps (fun t => sent t ++ if t = c.token then more else [])
      (fun t => given t ++ l.share t messages) ended := by
  have hl := h.distinct
  obtain ⟨id, read, read', hbefore, hafter, hfaults⟩ := ht.account
  have hother (t : Nat) (hne : t ≠ c.token) :
      (sent t ++ if t = c.token then more else []) = sent t ∧ given t ++ l.share t messages = given t := by
    rw [if_neg hne, ht.share_of_ne hl hne, List.append_nil, List.append_nil]
    exact ⟨rfl, rfl⟩
  have hself : (sent c.token ++ if c.token = c.token then more else []) = sent c.token ++ more := by
    rw [if_pos rfl]
  refine ⟨ht.confined.distinct hl, fun t => ?_, ?_⟩
  · by_cases htoken : t = c.token
    · subst htoken
      rw [hself, share_eq ht.connected]
      exact ⟨id, read', hafter⟩
    · obtain ⟨id, read, haccount⟩ := h.accounts t
      rw [(hother t htoken).1, (hother t htoken).2]
      exact ⟨id, read, haccount.frame ht.confined.settings_eq (by rw [ht.confined.nextToken_eq])
        (ht.confined.connection?_eq t htoken) fun d hd => ht.find?_of_ne hl htoken hd⟩
  · rw [ht.confined.nextToken_eq, ht.confined.settings_eq]
    refine sum_range_eq_of_term (hl.earlier _ (mem_names ht.connected)) (fun t hne => ?_) ?_ h.faults
    · rw [(hother t hne).1, consumed_congr (ht.confined.connection?_eq t hne)]
    · dsimp only
      rw [hself, hafter.consumed_eq, hbefore.consumed_eq]
      exact hfaults

/-- What is done without touching the clients and the channels. -/
theorem Keeps.of_same (h : l.Keeps sent given ended) (hsettings : m.settings = l.settings)
    (hnext : m.nextToken = l.nextToken) (hconnections : m.connections = l.connections)
    (hregistry : m.registry = l.registry)
    (hfaults : m.metrics.protocolFaults = l.metrics.protocolFaults) : m.Keeps sent given ended := by
  have hconnection (t : Nat) : m.connection? t = l.connection? t := by
    rw [connection?, hconnections, ← connection?]
  have hnames : m.names = l.names := by rw [names, hconnections, ← names]
  refine ⟨⟨hnames ▸ h.distinct.tokens, hnames ▸ h.distinct.channels,
    hnames ▸ hnext ▸ h.distinct.earlier⟩, fun t => ?_, ?_⟩
  · obtain ⟨id, read, haccount⟩ := h.accounts t
    exact ⟨id, read, haccount.frame hsettings (by rw [hnext]) (hconnection t) fun c _ => by
      rw [hregistry]⟩
  · rw [hfaults, h.faults, hnext, hsettings]
    exact Finset.sum_congr rfl fun t _ => by rw [consumed_congr (hconnection t)]

theorem keeps_start (settings : ListenerSettings) (limiter : ConnectionLimiter)
    (registry : ChannelRegistry) (draws : Draws) :
    (start settings limiter registry draws).Keeps (fun _ => []) (fun _ => []) ended where
  distinct := ⟨List.nodup_nil, List.nodup_nil, fun _ hname => absurd hname List.not_mem_nil⟩
  accounts t := by
    have hnone : (start settings limiter registry draws).connection? t = none := rfl
    refine ⟨0, [], rfl, ?_, fun c hc => ?_, fun c hc => ?_, fun _ hearlier => ?_, fun _ => rfl⟩
    · rw [reading_of_incomplete (.inl (by decide))]
      rfl
    · cases hnone.symm.trans hc
    · cases hnone.symm.trans hc
    · exact absurd hearlier (Nat.not_lt_zero t)
  faults := rfl

/-- The clients that are connected are those that are named. -/
theorem Distinct.connection?_of_mem (hl : l.Distinct) (h : (token, id) ∈ l.names) :
    ∃ c, l.connection? token = some c ∧ c.channel = id := by
  obtain ⟨c, hc, hname⟩ := List.mem_map.1 h
  have htokens := hl.tokens
  rw [names, List.map_map] at htokens
  cases hname
  exact ⟨c, find?_key htokens hc, rfl⟩

theorem Keeps.registered (h : l.Keeps sent given ended) (hname : (token, id) ∈ l.names) :
    id ∈ l.registry.ids := by
  obtain ⟨c, hc, rfl⟩ := h.distinct.connection?_of_mem hname
  obtain ⟨_, _, haccount⟩ := h.accounts token
  obtain ⟨-, channel, _, hstands, -⟩ := haccount.stands c hc
  refine ChannelRegistry.contains_iff.1 ?_
  rw [ChannelRegistry.contains, hstands.registered]
  rfl

theorem Distinct.connection?_nextToken (hl : l.Distinct) : l.connection? l.nextToken = none := by
  cases hc : l.connection? l.nextToken with
  | none => rfl
  | some c => exact absurd (hl.earlier _ (mem_names hc)) (Nat.lt_irrefl _)

end Keeps

end ClientListener
end MixRelay
