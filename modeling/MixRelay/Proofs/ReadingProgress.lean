import MixRelay.Proofs.ListenerRuns

/-!
# Rounds that close bring the readings on

A client that has sent ahead is paused behind its request of the round. When the round closes its slot is
free, so reading goes on to its next request or to the last of its bytes. As often as rounds close, as many
requests of a client are handed on, unless it has sent fewer.
-/
namespace MixRelay

theorem length_requestsOf (id : ChannelId) (established : Bool) (payloads : List Bytes) :
    (requestsOf id established payloads).length = payloads.length := by
  induction payloads generalizing established with
  | nil => rfl
  | cons payload payloads ih => rw [requestsOf, List.length_cons, ih, List.length_cons]

namespace ClientListener
variable {l m : ClientListener} {token t : Nat} {c d : ClientConnection} {id : ChannelId}
  {channel : Channel} {tail : Bytes} {messages : List Message}

theorem requestsFrom_requestOf (channel : Channel) (payload : Bytes) :
    requestsFrom channel.id [channel.requestOf payload] = [channel.requestOf payload] := by
  unfold Channel.requestOf
  split <;> simp [requestsFrom, Message.requester?]

/-- Reading from a client whose slot is free hands its next request on, or comes to the last of its bytes
and pauses nowhere. -/
theorem readFrom_moves (hpos : l.settings.limits.Positive) (h : l.Stands c channel tail)
    (hpaused : c.paused = false) (hfree : channel.requestClaimed = false) :
    requestsFrom c.channel (l.readFrom c.token).1 ≠ [] ∨
      ∀ d, (l.readFrom c.token).2.connection? c.token = some d → d.paused = false := by
  have hsince : (streamOf c channel).Since channel := .inl ⟨rfl, rfl⟩
  have hall := hsince.readAll l.settings.limits c.unread
  have hgone (s : ClientStream) (rest : Bytes) (reason : CloseReason) (d : ClientConnection)
      (hd : ((l.settle c s rest).2.tearDown (l.settle c s rest).1 reason).2.connection? c.token = some d) :
      d.paused = false := by
    cases (connection?_tearDown_self (l.settle c s rest).2 (l.settle c s rest).1 reason).symm.trans hd
  rcases ClientStream.readAll_cases hpos h.within_frame c.unread with
    ⟨s, rest, hread, hstops⟩ | ⟨s, n, rest, hread, -⟩
  · rw [hread] at hall
    by_cases hended : (c.ended && rest.isEmpty && !s.mustPause) = true
    · rw [readFrom_of_closed h hread (by rw [Option.none_or, if_pos hended])]
      exact .inr (hgone s rest .ended)
    rw [readFrom_of_open h hread hended]
    rcases hall with ⟨hchannel, -⟩ | ⟨-, -, -, payload, hrequests⟩
    · -- the slot is still free, so nothing makes the reading pause
      have hgoesOn : s.mustPause = false := by
        rw [ClientStream.mustPause, hchannel, hfree, Bool.and_false]
      have hself : (l.settle c s rest).2.connection? c.token = some (l.settle c s rest).1 :=
        connection?_replace h.connected rfl
      refine .inr fun d hd => ?_
      obtain rfl := Option.some.inj (hself.symm.trans hd)
      have hboth : s.paused = (c.paused || s.mustPause) := hstops.paused_eq
      rwa [hpaused, hgoesOn] at hboth
    · left
      rw [hrequests, ← ChannelRegistry.find?_some_id h.registered, requestsFrom_requestOf]
      exact List.cons_ne_nil _ _
  · rw [readFrom_of_closed h hread (Option.some_or ..)]
    exact .inr (hgone s rest (.tooLong n))

section Moves
variable {sent : Nat → Bytes} {given : Nat → List Message} {ended : Nat → Prop} {waiting : List Nat}

/-- A client that is read on moves, if it still may ask in the round. -/
theorem resumeOne_moves {sent : Bytes} {given : List Message} {ended : Prop} {read : Bytes}
    (hpos : m.settings.limits.Positive) (hm : m.Distinct) (hc : m.connection? c.token = some c)
    (h : m.Account c.token id read sent given ended) (hfree : m.mayAsk c.token ≠ 0) :
    requestsFrom c.channel (m.resumeOne c.token).1 ≠ [] ∨
      ∀ d, (m.resumeOne c.token).2.connection? c.token = some d → d.paused = false := by
  let d : ClientConnection := { c with paused := false }
  have hd : Replaces c d ended [] := ⟨rfl, rfl, rfl, (List.append_nil _).symm, h.ends c hc⟩
  have hafter := h.replace hm hc hd.token_eq hd.channel_eq hd.stage_eq hd.unread_eq hd.ends
  obtain ⟨-, channel, tail, hstands, -⟩ := hafter.stands d (connection?_replace hc hd.token_eq)
  have hslot : channel.requestClaimed = false := by
    have hasks : (m.replace d).mayAsk c.token = if channel.requestClaimed then 0 else 1 :=
      mayAsk_eq hstands.connected hstands.registered
    by_contra hclaimed
    rw [mayAsk_replace hc hd, if_pos (Bool.eq_true_of_not_eq_false hclaimed)] at hasks
    exact hfree hasks
  rw [resumeOne, hc]
  exact readFrom_moves (c := d) hpos hstands rfl hslot

/-- While the clients that were paused are read on: those that still wait for it have their slots free,
and each of the others has moved. -/
structure Moves (l : ClientListener) (waiting : List Nat) (messages : List Message) (m : ClientListener) :
    Prop where
  free : ∀ t ∈ waiting, (m.connection? t).isSome → m.mayAsk t ≠ 0
  moved : ∀ t, t ∉ waiting → l.share t messages ≠ [] ∨
    ∀ c, m.connection? t = some c → c.paused = false

theorem Moves.resumeOne (hpos : l.settings.limits.Positive) (hl : l.Distinct)
    (hresumes : l.Resumes sent given ended (token :: waiting) messages m) (hnew : token ∉ waiting)
    (h : l.Moves (token :: waiting) messages m) :
    l.Moves waiting (messages ++ (m.resumeOne token).1) (m.resumeOne token).2 := by
  cases hc : m.connection? token with
  | none =>
    have hsame : m.resumeOne token = ([], m) := by rw [ClientListener.resumeOne, hc]
    rw [hsame, List.append_nil]
    refine ⟨fun t ht => h.free t (List.mem_cons_of_mem _ ht), fun t ht => ?_⟩
    by_cases htoken : t = token
    · refine .inr fun d hd => ?_
      rw [htoken, hc] at hd
      cases hd
    · exact h.moved t (List.not_mem_cons_of_ne_of_not_mem htoken ht)
  | some c =>
    obtain rfl := token_of_connection? hc
    obtain ⟨id, read, haccount⟩ := hresumes.keeps.accounts c.token
    have hm := hresumes.keeps.distinct
    have hd : Replaces c { c with paused := false } (ended c.token) [] :=
      ⟨rfl, rfl, rfl, (List.append_nil _).symm, haccount.ends c hc⟩
    have hposThen := hresumes.settings_eq ▸ hpos
    have hturn := (turn_readFrom hposThen hm hc haccount hd rfl).1
    have hread : m.resumeOne c.token = (m.replace { c with paused := false }).readFrom c.token := by
      rw [ClientListener.resumeOne, hc]
    rw [← hread] at hturn
    have hshare := share_of_sublist hl hresumes.names hc hturn.others
    refine ⟨fun t ht hconnected => ?_, fun t ht => ?_⟩
    · have hne : t ≠ c.token := fun heq => hnew (heq ▸ ht)
      rw [hturn.confined.connection?_eq t hne] at hconnected
      rw [hturn.mayAsk_of_ne hm hne]
      exact h.free t (List.mem_cons_of_mem _ ht) hconnected
    · rw [share_append]
      by_cases htoken : t = c.token
      · subst htoken
        have hfree := h.free c.token List.mem_cons_self (hc ▸ rfl)
        rw [hshare, share_eq hc]
        exact (resumeOne_moves hposThen hm hc haccount hfree).imp_left fun hsome =>
          List.append_ne_nil_of_right_ne_nil _ hsome
      · rw [hturn.confined.connection?_eq t htoken]
        exact (h.moved t (List.not_mem_cons_of_ne_of_not_mem htoken ht)).imp_left fun hsome =>
          List.append_ne_nil_of_left_ne_nil hsome _

theorem moves_freed (h : l.Serves sent given ended) :
    l.Moves ((l.connections.filter ClientConnection.paused).map ClientConnection.token) [] l.freed where
  free t _ hconnected := by
    obtain ⟨c, hc⟩ := Option.isSome_iff_exists.1 hconnected
    obtain ⟨id, read, haccount⟩ := h.accounts t
    obtain ⟨-, channel, tail, hstands, -⟩ := haccount.stands c hc
    have hfound : l.freed.registry.find? c.channel = some channel.clearRequest := by
      rw [find?_freed, hstands.registered]
      rfl
    rw [mayAsk_eq hc hfound]
    exact Nat.one_ne_zero
  moved t ht := by
    refine .inr fun c hc => ?_
    by_contra hpaused
    refine ht (List.mem_map.2 ⟨c, List.mem_filter.2 ⟨List.mem_of_find?_eq_some hc, ?_⟩,
      token_of_connection? hc⟩)
    exact Bool.eq_true_of_not_eq_false hpaused

theorem Moves.foldl (hpos : l.settings.limits.Positive) (hl : l.Distinct)
    {clients : List ClientConnection} (hnodup : (clients.map ClientConnection.token).Nodup)
    (hresumes : l.Resumes sent given ended (clients.map ClientConnection.token) messages m)
    (h : l.Moves (clients.map ClientConnection.token) messages m) :
    let acc := clients.foldl
      (fun acc c => (acc.1 ++ (acc.2.resumeOne c.token).1, (acc.2.resumeOne c.token).2)) (messages, m)
    l.Moves [] acc.1 acc.2 := by
  induction clients generalizing messages m with
  | nil => exact h
  | cons c clients ih =>
    obtain ⟨hnew, hrest⟩ := List.nodup_cons.1 hnodup
    exact ih hrest (hresumes.resumeOne hpos hl) (h.resumeOne hpos hl hresumes hnew)

/-- When the round closes, each client has its next request handed on, or it is not paused then. -/
theorem moves_closeRound (hpos : l.settings.limits.Positive) (h : l.Serves sent given ended) (t : Nat) :
    l.share t l.closeRound.1 ≠ [] ∨
      ∀ c, l.closeRound.2.connection? t = some c → c.paused = false := by
  have hnodup : ((l.connections.filter ClientConnection.paused).map ClientConnection.token).Nodup := by
    have htokens := h.distinct.tokens
    rw [names, List.map_map] at htokens
    exact htokens.sublist (List.filter_sublist.map _)
  have hmoves := (moves_freed h).foldl hpos h.distinct hnodup (resumes_freed h)
  rw [closeRound_eq h.rounds]
  exact hmoves.moved t List.not_mem_nil

end Moves

/-- In a run a client has one request more handed on with each round that closes, up to those that it had
sent before the run. -/
theorem progress_run {sent : Nat → Bytes} {given : Nat → List Message} {ended : Nat → Prop}
    {events : List ListenerEvent} (hpos : l.settings.limits.Positive) (h : l.Serves sent given ended)
    (hfit : Along next Fit l events) (hends : ∀ t, l.EndsAlong t events → ended t) (t : Nat) :
    min ((given t).length + events.count .closeRound)
        (reading l.settings.limits false (sent t)).payloads.length ≤
      (given t).length + (l.requestsAlong t events).length := by
  induction events generalizing l sent given with
  | nil => exact Nat.min_le_left _ _
  | cons e rest ih =>
    have hgoes := goes hpos h hfit.1 hends
    have hrest := ih (hgoes.settings_eq ▸ hpos) hgoes.serves hfit.2 fun t hrest => hends t hrest.of_cons
    have hmono := (payloads_mono l.settings.limits false (sent t) (l.sentBy t e)).length_le
    have hgiven : (l.requestsAlong t (e :: rest)).length =
        (l.requestsBy t e).length + ((l.next e).requestsAlong t rest).length := by
      rw [requestsAlong, outputs, List.length_append, requestsAlong]
    rw [hgoes.settings_eq, List.length_append] at hrest
    by_cases hclose : e = .closeRound
    · subst hclose
      rw [List.count_cons_self]
      rcases moves_closeRound hpos h t with hmoved | hawake
      · have hone : 0 < (l.requestsBy t .closeRound).length := List.length_pos_iff.2 hmoved
        omega
      · -- nothing of the client waits, so all that it had sent has been handed on
        obtain ⟨id, hserved⟩ := hgoes.serves.served t
        have hall := congrArg List.length hserved.given_eq
        rw [hserved.all_read hawake, length_requestsOf, hgoes.settings_eq, List.length_append] at hall
        omega
    · rw [List.count_cons_of_ne hclose]
      omega

end ClientListener
end MixRelay
