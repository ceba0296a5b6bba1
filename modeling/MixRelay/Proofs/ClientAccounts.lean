import MixRelay.Proofs.ListenerBooks

/-!
# What becomes of the clients of a listener

In a run of the listener's loop the books stay right at every step. For each client its requests are handed
on while it is connected, and when it goes the relays behind are told once, after them; they are not told
when this relay is the last or stops.
-/
namespace MixRelay

/-- The queue of requests would refuse a message. -/
def LoopEvent.refuses : LoopEvent → Bool
  | .read refused | .fail _ refused => refused
  | _ => false

namespace EventLoop
variable {s : EventLoop} {token : Nat} {sent : List Message}

/-- The client that the loop serves in an event. -/
def served (s : EventLoop) : LoopEvent → Option Nat
  | .read _ => match s.stage with
    | .reading token => some token
    | _ => none
  | .fail token _ => some token
  | _ => none

/-- The relay stops, and a client that goes in the event goes untold: all clients are torn down, or the
queue refuses the release. -/
def GoesUntold (s : EventLoop) (e : LoopEvent) : Bool := e == .finish || s.stopped && e.refuses

/-- The messages that are handed on for a client in an event. -/
def handedFor (token : Nat) (s : EventLoop) (e : LoopEvent) : List Message :=
  if s.served e = some token then (s.act e).1 else []

/-- The messages that are handed on for a client in a run. -/
def handedForAlong (s : EventLoop) (token : Nat) (events : List LoopEvent) : List Message :=
  outputs next (handedFor token) s events

/-- What the loop does now, or else nothing. -/
theorem entry_ite {p : Prop} [Decidable p] {t : EventLoop} {served : Option Nat} {lost : Bool}
    (h : p → s.listener.Entry served lost [] t.listener) :
    s.listener.Entry served lost [] (if p then t else s).listener := by
  split
  · rename_i hp
    exact h hp
  · exact (ClientListener.SameBooks.refl _).entry

/-- Every step does to the books what some entry says. -/
theorem entry_act (hb : s.listener.Books) (e : LoopEvent) :
    s.listener.Entry (s.served e) (s.GoesUntold e) (s.act e).1 (s.next e).listener := by
  have hl := hb.distinct
  cases e with
  | arrive token bytes ended => exact ((ClientListener.touches_receive _ token bytes ended).sameBooks hl).entry
  | stop => exact (ClientListener.SameBooks.refl _).entry
  | beginRound => exact entry_ite fun _ => (ClientListener.SameBooks.refl _).entry
  | free id =>
    have hids : (s.listener.registry.modify id Channel.clearRequest).ids = s.listener.registry.ids :=
      ChannelRegistry.ids_modify fun _ hc => hc
    simp only [next, act, free]
    split
    · exact (ClientListener.SameBooks.refl _).entry
    · exact entry_ite fun _ => (ClientListener.sameBooks_registry hids).entry
  | countRound =>
    have hids : s.listener.registry.countRequestRound.ids = s.listener.registry.ids := rfl
    exact entry_ite fun _ => (ClientListener.sameBooks_registry hids).entry
  | connect address =>
    refine entry_ite fun hfit => ?_
    rcases ClientListener.accept_books s.listener hfit.2 address with h | ⟨id, h⟩
    · exact h.entry
    · exact .admits h rfl
  | connectInVain address =>
    refine entry_ite fun hfit => ?_
    rcases ClientListener.acceptInVain_books s.listener hfit.2 address with h | h
    · exact h.entry
    · exact .misses h rfl
  | poll token => exact entry_ite fun _ => (ClientListener.SameBooks.refl _).entry
  | deliver m => exact entry_ite fun _ => (ClientListener.sameBooks_deliver _ m).entry
  | look =>
    refine entry_ite fun _ => ?_
    rw [look]
    split
    · exact (ClientListener.SameBooks.refl _).entry
    · exact ClientListener.SameBooks.entry ⟨rfl, rfl, rfl, rfl, rfl, rfl, rfl, rfl⟩
  | goOn token => exact entry_ite fun _ => ((ClientListener.touches_unpause _ token).sameBooks hl).entry
  | read refused =>
    simp only [next, act, EventLoop.read, served]
    cases s.stage with
    | reading token => exact ClientListener.entry_readOnce hl (s.stopped && refused) token
    | ready | ended => exact (ClientListener.SameBooks.refl _).entry
  | fail token refused =>
    simp only [next, act, served]
    split
    · exact ClientListener.entry_fail s.listener (s.stopped && refused) token
    · exact (ClientListener.SameBooks.refl _).entry
  | finish => exact entry_ite fun _ => .clears (ClientListener.clears_closeAll hb) rfl rfl

theorem books_next (hb : s.listener.Books) (e : LoopEvent) : (s.next e).listener.Books :=
  hb.entry (entry_act hb e)

end EventLoop

namespace ClientListener
variable {l m : ClientListener} {token : Nat} {served : Option Nat} {lost : Bool} {sent more : List Message}

theorem guest_mem (hc : l.connection? token = some c) : c.guest ∈ l.guests :=
  List.mem_map_of_mem (List.mem_of_find?_eq_some hc)

/-- What has been handed on for a client: only requests of its channel as long as it is connected, and
nothing before it is. -/
structure Told (l : ClientListener) (token : Nat) (sent : List Message) : Prop where
  connected : ∀ g ∈ l.guests, g.token = token → ∀ d ∈ sent, d.requester? = some g.channel
  unborn : l.nextToken ≤ token → sent = []

/-- The client has been there and has gone. -/
structure Gone (l : ClientListener) (token : Nat) : Prop where
  born : token < l.nextToken
  absent : ∀ g ∈ l.guests, g.token ≠ token

theorem Books.channel_eq (hb : l.Books) {g h : Guest} (hg : g ∈ l.guests) (hh : h ∈ l.guests)
    (htoken : g.token = h.token) : g.channel = h.channel :=
  congrArg Guest.channel (List.inj_on_of_nodup_map hb.tokens_nodup hg hh htoken)

/-- Of the messages of a step, those that are handed on for a client that is not connected are none. -/
theorem Entry.nothing_of_absent (h : l.Entry served lost more m) (habsent : ∀ g ∈ l.guests, g.token ≠ token) :
    (if served = some token then more else []) = [] := by
  refine ite_eq_right_iff.2 fun hserved => ?_
  cases h with
  | same h requests =>
    refine List.eq_nil_iff_forall_not_mem.2 fun d hd => ?_
    obtain ⟨t, c, ht, hc, -⟩ := requests d hd
    obtain rfl := Option.some.inj (ht.symm.trans hserved)
    exact habsent _ (guest_mem hc) (token_of_connection? hc)
  | admits h nothing | misses h nothing | clears h untold nothing => exact nothing
  | @leaves t c serves hc h release =>
    obtain rfl := Option.some.inj (serves.symm.trans hserved)
    exact absurd (token_of_connection? hc) (habsent _ (guest_mem hc))

/-- The tokens given out only grow in number. -/
theorem Entry.nextToken_le (h : l.Entry served lost more m) : l.nextToken ≤ m.nextToken := by
  cases h with
  | same h | clears h | leaves _ _ h => exact Nat.le_of_eq h.nextToken_eq.symm
  | admits h | misses h => exact h.nextToken_eq ▸ Nat.le_succ _

/-- Who is a guest after a step was one before, or has just come. -/
theorem Entry.guest_cases (h : l.Entry served lost more m) {g : Guest} (hg : g ∈ m.guests) :
    g ∈ l.guests ∨ g.token = l.nextToken ∧ more = [] := by
  cases h with
  | same h => exact .inl (h.guests_eq ▸ hg)
  | @admits address id h nothing =>
    rcases List.mem_append.1 (h.guests_eq ▸ hg) with hg | hg
    · exact .inl hg
    · exact .inr ⟨congrArg Guest.token (List.mem_singleton.1 hg), nothing⟩
  | misses h => exact .inl (h.guests_eq ▸ hg)
  | leaves serves hc h => exact .inl (List.mem_of_mem_filter (h.guests_eq ▸ hg))
  | clears h =>
    rw [h.guests_eq] at hg
    cases hg

/-- For a client that stays only requests of its channel are handed on. -/
theorem Entry.requests (hb : l.Books) (h : l.Entry served lost more m) {g : Guest} (hg : g ∈ l.guests)
    (hstays : g ∈ m.guests) :
    ∀ d ∈ (if served = some g.token then more else []), d.requester? = some g.channel := by
  intro d hd
  split at hd
  · rename_i hserved
    cases h with
    | same h requests =>
      obtain ⟨t, c, ht, hc, hrequest⟩ := requests d hd
      obtain rfl := Option.some.inj (ht.symm.trans hserved)
      rw [hrequest]
      exact congrArg some (hb.channel_eq (guest_mem hc) hg (token_of_connection? hc))
    | admits h nothing | misses h nothing | clears h untold nothing =>
      rw [nothing] at hd
      cases hd
    | @leaves t c serves hc h release =>
      obtain rfl := Option.some.inj (serves.symm.trans hserved)
      have hgone := List.of_mem_filter (h.guests_eq ▸ hstays)
      rw [token_of_connection? hc] at hgone
      simp at hgone
  · cases hd

theorem Told.entry (ht : l.Told token sent) (hb : l.Books) (h : l.Entry served lost more m) :
    m.Told token (sent ++ if served = some token then more else []) := by
  constructor
  · rintro g hg rfl d hd
    rcases h.guest_cases hg with hbefore | ⟨htoken, hnothing⟩
    · rcases List.mem_append.1 hd with hd | hd
      · exact ht.connected g hbefore rfl d hd
      · exact h.requests hb hbefore hg d hd
    · rw [hnothing, ite_self, List.append_nil, ht.unborn (Nat.le_of_eq htoken.symm)] at hd
      cases hd
  · intro hle
    have hunborn : l.nextToken ≤ token := Nat.le_trans h.nextToken_le hle
    rw [ht.unborn hunborn, List.nil_append]
    refine h.nothing_of_absent fun g hg heq => ?_
    exact Nat.not_lt.2 hunborn (heq ▸ hb.earlier g hg)

theorem Gone.entry (hg : l.Gone token) (h : l.Entry served lost more m) :
    m.Gone token ∧ (if served = some token then more else []) = [] := by
  refine ⟨⟨Nat.lt_of_lt_of_le hg.born h.nextToken_le, fun g hmem heq => ?_⟩, h.nothing_of_absent hg.absent⟩
  rcases h.guest_cases hmem with hbefore | ⟨htoken, -⟩
  · exact hg.absent g hbefore heq
  · exact Nat.ne_of_lt hg.born (heq.symm.trans htoken)

/-- A client that goes in a step has its release handed on in it, unless nobody is told. -/
theorem Entry.goes (hb : l.Books) (h : l.Entry served lost more m) {g : Guest} (hg : g ∈ l.guests)
    (habsent : ∀ other ∈ m.guests, other.token ≠ g.token) :
    (if served = some g.token then more else []) =
      if l.settings.isLast || lost then [] else [.release g.channel] := by
  cases h with
  | same h => exact absurd rfl (habsent g (h.guests_eq.symm ▸ hg))
  | admits h => exact absurd rfl (habsent g (h.guests_eq.symm ▸ List.mem_append_left _ hg))
  | misses h => exact absurd rfl (habsent g (h.guests_eq.symm ▸ hg))
  | @leaves t c serves hc h release =>
    have htoken : c.token = g.token := by
      by_contra hother
      refine habsent g (h.guests_eq.symm ▸ List.mem_filter.2 ⟨hg, ?_⟩) rfl
      exact decide_eq_true (Ne.symm hother)
    have hchannel : c.channel = g.channel := hb.channel_eq (guest_mem hc) hg htoken
    rw [serves, if_pos (congrArg some ((token_of_connection? hc).symm.trans htoken)), release, hchannel]
  | clears h untold nothing => rw [nothing, untold, Bool.or_true, if_pos rfl, ite_self]

/-- All places in which a listener keeps its clients have the same ones: each channel leads to the token of
its client, the registry has the channels, the limiter the number of clients, of all and of each address, and
the counters have as many more clients that came than clients that went. -/
structure OneToOne (l : ClientListener) : Prop where
  tokens_nodup : (l.connections.map ClientConnection.token).Nodup
  token?_iff : ∀ id token, l.token? id = some token ↔ ∃ c ∈ l.connections, c.channel = id ∧ c.token = token
  ids_eq : l.registry.ids = l.connections.map ClientConnection.channel
  ids_nodup : l.registry.ids.Nodup
  total_eq : l.limiter.total = l.connections.length
  count_eq : ∀ ip, l.limiter.count ip = l.connections.countP fun c => c.address = ip
  hasEntry_iff : ∀ ip, l.limiter.hasEntry ip = true ↔ ∃ c ∈ l.connections, c.address = ip
  accepted_eq : l.metrics.accepted = l.metrics.disconnects + l.connections.length

theorem Books.token?_iff (hb : l.Books) (id : ChannelId) (token : Nat) :
    l.token? id = some token ↔ ∃ c ∈ l.connections, c.channel = id ∧ c.token = token := by
  have hkeys : (l.tokens.map Prod.fst).Nodup := by
    rw [hb.tokens_eq, List.map_map]
    exact hb.channels_nodup
  have hmem (t : Nat) : (id, t) ∈ l.tokens ↔ ∃ c ∈ l.connections, c.channel = id ∧ c.token = t := by
    rw [hb.tokens_eq, map_guests, List.mem_map]
    simp [ClientConnection.guest]
  rw [← hmem, token?]
  constructor
  · intro hfound
    obtain ⟨entry, hentry, rfl⟩ := Option.map_eq_some_iff.1 hfound
    have hid : entry.1 = id := by simpa using List.find?_some hentry
    exact hid ▸ List.mem_of_find?_eq_some hentry
  · intro hentry
    exact congrArg (Option.map Prod.snd) (find?_key hkeys hentry)

theorem Books.oneToOne (hb : l.Books) : l.OneToOne where
  tokens_nodup := map_guests (l := l) Guest.token ▸ hb.tokens_nodup
  token?_iff := hb.token?_iff
  ids_eq := hb.ids_eq.trans (map_guests _)
  ids_nodup := hb.ids_eq.symm ▸ hb.channels_nodup
  total_eq := by rw [hb.counts.total, map_guests, List.length_map]
  count_eq ip := by
    rw [hb.counts.count_eq, map_guests, List.count, List.countP_map]
    refine List.countP_congr fun c _ => ?_
    simp [ClientConnection.guest]
  hasEntry_iff ip := by
    rw [hb.counts.hasEntry_iff, map_guests, List.mem_map]
    rfl
  accepted_eq := by rw [hb.accepted_eq, guests, List.length_map]

/-- Nothing is left of any client. -/
structure Empty (l : ClientListener) : Prop where
  connections_eq : l.connections = []
  tokens_eq : l.tokens = []
  channels_eq : l.registry.channels = []
  total_eq : l.limiter.total = 0
  counts_eq : l.limiter.counts = []
  accepted_eq : l.metrics.accepted = l.metrics.disconnects

theorem Books.empty (hb : l.Books) (hnone : l.guests = []) : l.Empty := by
  have hcounts := hb.counts
  rw [hnone] at hcounts
  refine ⟨guests_eq_nil_iff.1 hnone, ?_, ?_, hcounts.eq_nil.1, hcounts.eq_nil.2, ?_⟩
  · rw [hb.tokens_eq, hnone, List.map_nil]
  · exact List.map_eq_nil_iff.1 (hb.ids_eq.trans (by rw [hnone, List.map_nil]))
  · rw [hb.accepted_eq, hnone]
    rfl

theorem guest_ne_of_absent (hc : l.connection? token = none) : ∀ g ∈ l.guests, g.token ≠ token := by
  intro g hg heq
  obtain ⟨c, hmem, rfl⟩ := List.mem_map.1 hg
  exact List.find?_eq_none.1 hc c hmem (decide_eq_true heq)

end ClientListener

namespace EventLoop
variable {s : EventLoop} {token : Nat} {sent : List Message} {events : List LoopEvent}

theorem books_run (hb : s.listener.Books) (events : List LoopEvent) :
    (events.foldl next s).listener.Books := by
  have hstep (s : EventLoop) (e : LoopEvent) (hb : s.listener.Books) : (next s e).listener.Books :=
    books_next hb e
  exact foldl_invariant hstep events hb

theorem settings_run (hb : s.listener.Books) (events : List LoopEvent) :
    (events.foldl next s).listener.settings = s.listener.settings := by
  induction events generalizing s with
  | nil => rfl
  | cons e rest ih => exact (ih (books_next hb e)).trans (entry_act hb e).settings_eq

theorem told_run (hb : s.listener.Books) (ht : s.listener.Told token sent) (events : List LoopEvent) :
    (events.foldl next s).listener.Told token (sent ++ s.handedForAlong token events) := by
  induction events generalizing s sent with
  | nil => exact (List.append_nil sent).symm ▸ ht
  | cons e rest ih =>
    have hrest := ih (books_next hb e) (ht.entry hb (entry_act hb e))
    rw [List.append_assoc] at hrest
    exact hrest

theorem gone_run (hb : s.listener.Books) (hg : s.listener.Gone token) (events : List LoopEvent) :
    s.handedForAlong token events = [] := by
  induction events generalizing s with
  | nil => rfl
  | cons e rest ih =>
    obtain ⟨hgone, hnothing⟩ := hg.entry (entry_act hb e)
    exact List.append_eq_nil_iff.2 ⟨hnothing, ih (books_next hb e) hgone⟩

/-- The loop ends by tearing all clients down. -/
theorem ended_of_next (e : LoopEvent) (h : (s.next e).stage = .ended) :
    s.stage = .ended ∨ e = .finish ∧ s.Idle := by
  cases e with
  | arrive | stop => exact .inl h
  | beginRound | countRound | connect | connectInVain | deliver =>
    refine .inl (Eq.trans ?_ h)
    simp only [next, act, beginRound, countRound]
    split <;> rfl
  | free id =>
    refine .inl (Eq.trans ?_ h)
    simp only [next, act, free]
    repeat' split
    all_goals rfl
  | look =>
    refine .inl (Eq.trans ?_ h)
    simp only [next, act, look]
    repeat' split
    all_goals rfl
  | poll | goOn =>
    simp only [next, act] at h
    split at h
    · cases h
    · exact .inl h
  | read refused =>
    simp only [next, act, EventLoop.read] at h
    split at h
    · dsimp only at h
      split at h <;> cases h
    · exact .inl h
  | fail token refused =>
    simp only [next, act] at h
    split at h
    · cases h
    · exact .inl h
  | finish =>
    simp only [next, act] at h
    split at h
    · rename_i hidle
      exact .inr ⟨rfl, hidle⟩
    · exact .inl h

/-- Once the loop has ended, nobody comes or goes. -/
theorem guests_next_of_ended (hb : s.listener.Books) (hs : s.stage = .ended) (e : LoopEvent) :
    (s.next e).listener.guests = s.listener.guests := by
  have hbusy : ¬ s.Idle := fun hidle => by cases hs.symm.trans hidle.1
  cases e with
  | arrive token bytes ended =>
    exact ((ClientListener.touches_receive _ token bytes ended).sameBooks hb.distinct).guests_eq
  | stop => rfl
  | beginRound | countRound =>
    simp only [next, act, beginRound, countRound]
    split <;> rfl
  | free id =>
    simp only [next, act, free]
    repeat' split
    all_goals rfl
  | connect address | connectInVain address =>
    rw [next, act, if_neg fun hfit => hbusy hfit.1]
  | poll | deliver | look | finish => rw [next, act, if_neg hbusy]
  | goOn token =>
    rw [next, act, if_neg]
    rw [hs]
    exact fun hready => nomatch hready.1
  | read refused => rw [next, act, EventLoop.read, hs]
  | fail token refused =>
    rw [next, act, if_neg]
    rw [MayFail, hs]
    exact fun hmay => hmay.elim nofun fun hready => nomatch hready.1

/-- Once the loop has ended, there are no clients. -/
theorem guests_of_ended (hb : s.listener.Books) (events : List LoopEvent)
    (h : s.stage = .ended → s.listener.guests = []) :
    (events.foldl next s).stage = .ended → (events.foldl next s).listener.guests = [] := by
  induction events generalizing s with
  | nil => exact h
  | cons e rest ih =>
    refine ih (books_next hb e) fun hended => ?_
    rcases ended_of_next e hended with hs | ⟨rfl, hidle⟩
    · rw [guests_next_of_ended hb hs, h hs]
    · rw [next, act, if_pos hidle]
      exact (ClientListener.clears_closeAll hb).guests_eq

/-- The accounts of a listener's clients, in every run of its loop. All places in which it keeps them agree
at every step. As long as a client is connected, only requests of its channel have been handed on for it.
When it goes, its release has been handed on once behind them, unless the relay is the last or stops, and
nothing follows. When the loop has ended, nothing is left. -/
theorem clients_accounted (settings : ListenerSettings) (maxTotal maxPerAddress capacity : Nat)
    (draws : Draws) (events : List LoopEvent) :
    let s₀ := start settings (.new maxTotal maxPerAddress) (.empty capacity) draws
    let s := events.foldl next s₀
    s.listener.OneToOne ∧
      (∀ token c, s.listener.connection? token = some c →
        ∀ d ∈ s₀.handedForAlong token events, d.requester? = some c.channel) ∧
      (∀ token c front e back, events = front ++ e :: back →
        (front.foldl next s₀).listener.connection? token = some c →
        ((front.foldl next s₀).next e).listener.connection? token = none →
        ∃ requests : List Message, (∀ d ∈ requests, d.requester? = some c.channel) ∧
          s₀.handedForAlong token events = requests ++
            if settings.isLast || (front.foldl next s₀).GoesUntold e then [] else [.release c.channel]) ∧
      (s.Idle → (s.next .finish).stage = .ended) ∧
      (s.stage = .ended → s.listener.Empty) := by
  intro s₀ s
  have hb₀ : s₀.listener.Books := ClientListener.books_start settings maxTotal maxPerAddress capacity draws
  have ht₀ (token : Nat) : s₀.listener.Told token [] :=
    ⟨fun _ _ _ _ hd => absurd hd List.not_mem_nil, fun _ => rfl⟩
  have hb : s.listener.Books := books_run hb₀ events
  refine ⟨hb.oneToOne, fun token c hc => ?_, fun token c front e back hevents hc hgone => ?_, fun hidle => ?_,
    fun hended => hb.empty (guests_of_ended hb₀ events (fun h => nomatch h) hended)⟩
  · exact (told_run hb₀ (ht₀ token) events).connected _ (ClientListener.guest_mem hc)
      (ClientListener.token_of_connection? hc)
  · have hbooks := books_run hb₀ front
    have htold := told_run hb₀ (ht₀ token) front
    have hentry := entry_act hbooks e
    have hguest := ClientListener.guest_mem hc
    have htoken : c.guest.token = token := ClientListener.token_of_connection? hc
    have habsent := ClientListener.guest_ne_of_absent hgone
    refine ⟨s₀.handedForAlong token front, htold.connected _ hguest htoken, ?_⟩
    have hborn : token < (front.foldl next s₀).listener.nextToken := htoken ▸ hbooks.earlier _ hguest
    have hleft : ((front.foldl next s₀).next e).listener.Gone token :=
      ⟨Nat.lt_of_lt_of_le hborn hentry.nextToken_le, habsent⟩
    have hback := gone_run (books_next hbooks e) hleft back
    have hlast := hentry.goes hbooks hguest (htoken.symm ▸ habsent)
    rw [htoken, settings_run hb₀ front] at hlast
    rw [hevents, handedForAlong, outputs_append]
    refine congrArg (s₀.handedForAlong token front ++ ·) ?_
    exact (congrArg₂ (· ++ ·) hlast hback).trans (List.append_nil _)
  · rw [next, act, if_pos hidle]

/-- A loop that no client has come to, on a relay with others behind it. -/
def vacant : EventLoop :=
  start ⟨⟨⟨0, 1, 1, 0⟩, 16⟩, false, 4⟩ (.new 4 4) (.empty 0) (.ofList [5])

/-- A client makes one request and its stream ends. It is read on in the next round. -/
def shortVisit : List LoopEvent :=
  [.connect (.v4 127 0 0 1), .arrive 0 (Frame.encodeClient [7]) true, .poll 0] ++
    .replicate 6 (.read false) ++ [.beginRound, .free 5, .countRound, .look, .goOn 0]

example : vacant.handedForAlong 0 (shortVisit ++ [.read false]) = [.establish 5 [7], .release 5] := by
  decide

/-- The last turn finds the end of the stream, and the release goes out behind the request. -/
theorem shortVisit_released :
    (∃ c, (shortVisit.foldl next vacant).listener.connection? 0 = some c ∧ c.channel = 5) ∧
      ((shortVisit.foldl next vacant).next (.read false)).listener.connection? 0 = none ∧
      ∃ requests : List Message, (∀ d ∈ requests, d.requester? = some 5) ∧
        vacant.handedForAlong 0 (shortVisit ++ [.read false]) = requests ++ [.release 5] := by
  have hc : (shortVisit.foldl next vacant).listener.connection? 0 =
      some ⟨0, .v4 127 0 0 1, 5, .length [], false, [], true⟩ := by decide
  have hgone : ((shortVisit.foldl next vacant).next (.read false)).listener.connection? 0 = none := by decide
  obtain ⟨-, -, hleaves, -⟩ := clients_accounted ⟨⟨⟨0, 1, 1, 0⟩, 16⟩, false, 4⟩ 4 4 0 (.ofList [5])
    (shortVisit ++ [.read false])
  exact ⟨⟨_, hc, rfl⟩, hgone, hleaves 0 _ shortVisit (.read false) [] rfl hc hgone⟩

end EventLoop
end MixRelay
