import MixRelay.Proofs.ClientAccounts

/-!
# Reads that wait for the next round

A client whose request of the round is taken is paused, and the loop reads it on when it sees that a round
has been counted. The mixer frees the slots before it counts, and the loop may come to a paused client at
any time in between. Still no client is left behind: a paused one has its slot taken, or a round has been
counted that the loop has not seen, or its slot has been freed in a round that is about to be counted.
-/
namespace MixRelay

/-- Reading a byte leaves a pause as it is. -/
theorem ClientStream.paused_of_read {limits : StreamLimits} {c d : ClientStream} {b : UInt8}
    (h : c.read limits b = .ok d) : d.paused = c.paused := by
  rw [read.eq_def] at h
  split at h
  · split at h
    · rw [announced] at h
      repeat' split at h
      all_goals cases h
      all_goals rfl
    · cases h
      rfl
  · cases h
  · cases h
    rw [complete]
    dsimp only
    split <;> rfl
  all_goals
    cases h
    rfl

/-- A slot that has been claimed stays claimed while the stream is read. -/
theorem ClientStream.Since.requestClaimed {channel : Channel} {c : ClientStream} (h : c.Since channel)
    (hclaimed : channel.requestClaimed = true) : c.channel.requestClaimed = true := by
  rcases h with ⟨hc, -⟩ | ⟨-, -, hc, -⟩ <;> rw [hc]
  · exact hclaimed
  · rfl

namespace ClientListener
variable {l m : ClientListener} {token : Nat} {c d : ClientConnection} {channel : Channel}

/-- The request slot of a channel is taken. -/
def SlotTaken (l : ClientListener) (id : ChannelId) : Prop :=
  ∃ channel, l.registry.find? id = some channel ∧ channel.requestClaimed = true

theorem slotTaken_congr {id : ChannelId} (h : m.registry.find? id = l.registry.find? id) :
    m.SlotTaken id ↔ l.SlotTaken id := by
  rw [SlotTaken, SlotTaken, h]

/-- A change that neither closes a round nor leaves a client behind: who is paused then was so before, and
its slot is still taken if it was, or has been paused behind a slot that is taken. -/
structure KeepsPauses (l m : ClientListener) : Prop where
  requestRound_eq : m.registry.requestRound = l.registry.requestRound
  seenRound_eq : m.seenRound = l.seenRound
  paused : ∀ token d, m.connection? token = some d → d.paused = true → m.SlotTaken d.channel ∨
    ∃ c, l.connection? token = some c ∧ c.paused = true ∧ c.channel = d.channel ∧
      (l.SlotTaken c.channel → m.SlotTaken c.channel)

theorem KeepsPauses.refl (l : ClientListener) : l.KeepsPauses l :=
  ⟨rfl, rfl, fun _ d hd hpaused => .inr ⟨d, hd, hpaused, rfl, id⟩⟩

section Changes

/-- What is done for one client is nothing to the others, so it is this client that matters. -/
theorem Confined.keepsPauses (hl : l.Distinct) (hc : l.connection? c.token = some c)
    (h : l.Confined m c.token c.channel)
    (hself : ∀ d, m.connection? c.token = some d → d.paused = true → d.channel = c.channel ∧
      (m.SlotTaken c.channel ∨ c.paused = true ∧ (l.SlotTaken c.channel → m.SlotTaken c.channel))) :
    l.KeepsPauses m := by
  refine ⟨h.requestRound_eq, h.seenRound_eq, fun token d hd hpaused => ?_⟩
  by_cases heq : token = c.token
  · subst heq
    obtain ⟨hchannel, htaken | ⟨hbefore, hkeeps⟩⟩ := hself d hd hpaused
    · exact .inl (hchannel.symm ▸ htaken)
    · exact .inr ⟨c, hc, hbefore, hchannel.symm, hkeeps⟩
  · have hsame : l.connection? token = some d := (h.connection?_eq token heq).symm.trans hd
    have hother : d.channel ≠ c.channel := hl.channel_ne hc hsame heq
    exact .inr ⟨d, hsame, hpaused, rfl, (slotTaken_congr (h.find?_eq _ hother)).2⟩

theorem keepsPauses_replace (hl : l.Distinct) (hc : l.connection? c.token = some c)
    (htoken : d.token = c.token) (hchannel : d.channel = c.channel)
    (hpaused : d.paused = true → c.paused = true) : l.KeepsPauses (l.replace d) := by
  refine (confined_replace hl hc htoken hchannel).keepsPauses hl hc fun e he hpausedThen => ?_
  obtain rfl := Option.some.inj ((connection?_replace hc htoken).symm.trans he)
  exact ⟨hchannel, .inr ⟨hpaused hpausedThen, id⟩⟩

theorem Touches.keepsPauses (h : l.Touches token m) (hl : l.Distinct) : l.KeepsPauses m := by
  cases h with
  | nobody => exact .refl l
  | client hc hguest hpaused =>
    obtain rfl := token_of_connection? hc
    exact keepsPauses_replace hl hc (congrArg Guest.token hguest) (congrArg Guest.channel hguest) hpaused

theorem paused_unpause (hd : (l.unpause token).connection? token = some d) : d.paused = false := by
  rw [unpause] at hd
  split at hd
  · rename_i hnone
    cases hnone.symm.trans hd
  · rename_i c hc
    have htoken : c.token = token := token_of_connection? hc
    have hafter := connection?_replace (d := { c with paused := false }) hc htoken
    obtain rfl := Option.some.inj (hafter.symm.trans hd)
    rfl

theorem SlotTaken.add {id : ChannelId} (h : l.SlotTaken id) (other : ChannelId) :
    ∃ channel, (l.registry.add other).find? id = some channel ∧ channel.requestClaimed = true := by
  obtain ⟨channel, hfind, hclaimed⟩ := h
  refine ⟨channel, ?_, hclaimed⟩
  rw [ChannelRegistry.find?, ChannelRegistry.add, List.find?_append, ← ChannelRegistry.find?, hfind,
    Option.some_or]

/-- A client that comes is not paused. -/
theorem keepsPauses_accept (l : ClientListener) (address : IpAddress) :
    l.KeepsPauses (l.accept address).2 := by
  rw [accept]
  cases l.limiter.connect address with
  | error e => exact ⟨rfl, rfl, (KeepsPauses.refl l).paused⟩
  | ok limiter =>
    refine ⟨rfl, rfl, fun token d hd hpaused => ?_⟩
    dsimp only [connection?] at hd
    rw [List.find?_append, Option.or_eq_some_iff] at hd
    rcases hd with hd | ⟨-, hnew⟩
    · exact .inr ⟨d, hd, hpaused, rfl, fun htaken => htaken.add _⟩
    · rw [List.mem_singleton.1 (List.mem_of_find?_eq_some hnew)] at hpaused
      cases hpaused

theorem keepsPauses_acceptInVain (hroom : l.HasRoom) (address : IpAddress) :
    l.KeepsPauses (l.acceptInVain address) := by
  rw [acceptInVain]
  cases l.limiter.connect address with
  | error e => exact ⟨rfl, rfl, (KeepsPauses.refl l).paused⟩
  | ok limiter =>
    refine ⟨rfl, rfl, fun token d hd hpaused => .inr ⟨d, hd, hpaused, rfl, fun htaken => ?_⟩⟩
    have hother : d.channel ≠ (l.registry.createFresh l.draws).1 := by
      intro heq
      obtain ⟨channel, hfind, -⟩ := htaken
      refine ChannelRegistry.createFresh_not_mem hroom l.draws (heq ▸ ?_)
      exact List.mem_map.2 ⟨channel, ChannelRegistry.mem_of_find? hfind, ChannelRegistry.find?_some_id hfind⟩
    obtain ⟨channel, hfind, hclaimed⟩ := htaken.add (l.registry.createFresh l.draws).1
    exact ⟨channel, (ChannelRegistry.find?_discard_of_ne _ hother).trans hfind, hclaimed⟩

theorem keepsPauses_deliver (l : ClientListener) (m : Message) : l.KeepsPauses (l.deliver m).2 := by
  cases m with
  | reply id payload =>
    rw [deliver]
    split
    · exact .refl l
    · exact ⟨rfl, rfl, (KeepsPauses.refl l).paused⟩
  | _ => exact .refl l

theorem keepsPauses_tearDown (hl : l.Distinct) (hc : l.connection? c.token = some c) (reason : CloseReason) :
    l.KeepsPauses (l.tearDown c reason).2 := by
  refine (confined_tearDown l c reason).keepsPauses hl hc fun d hd => ?_
  cases (connection?_tearDown_self l c reason).symm.trans hd

theorem keepsPauses_fail (hl : l.Distinct) (refused : Bool) (token : Nat) :
    l.KeepsPauses (l.fail refused token).2 := by
  rw [fail]
  split
  · exact .refl l
  · rename_i c hc
    exact keepsPauses_tearDown hl ((token_of_connection? hc).symm ▸ hc) .ended

theorem keepsPauses_settle (hl : l.Distinct) (hc : l.connection? c.token = some c)
    (hchannel : l.registry.find? c.channel = some channel) {s : ClientStream} (hsince : s.Since channel)
    (hpaused : s.paused = true → c.paused = true ∨ channel.requestClaimed = true) (rest : Bytes) :
    l.KeepsPauses (l.settle c s rest).2 := by
  have hid : s.channel.id = c.channel := hsince.id_eq.trans (ChannelRegistry.find?_some_id hchannel)
  have hfound : (l.settle c s rest).2.registry.find? c.channel = some s.channel :=
    ChannelRegistry.find?_modify hchannel hid
  refine (confined_settle hl hc hid rest).keepsPauses hl hc fun d hd hpausedThen => ?_
  obtain rfl := Option.some.inj ((connection?_settle hc s rest).symm.trans hd)
  refine ⟨rfl, ?_⟩
  rcases hpaused hpausedThen with hbefore | hclaimed
  · refine .inr ⟨hbefore, fun htaken => ⟨s.channel, hfound, ?_⟩⟩
    obtain ⟨stored, hstored, hclaimed⟩ := htaken
    obtain rfl := Option.some.inj (hstored.symm.trans hchannel)
    exact hsince.requestClaimed hclaimed
  · exact .inl ⟨s.channel, hfound, hsince.requestClaimed hclaimed⟩

/-- What a turn of reading does stays with the client that is read, and pauses it rightly. -/
theorem confined_readOnce (hl : l.Distinct) (hc : l.connection? token = some c) (refused : Bool) :
    l.Confined (l.readOnce refused token).2.2 c.token c.channel ∧
      l.KeepsPauses (l.readOnce refused token).2.2 := by
  obtain rfl := token_of_connection? hc
  cases hchannel : l.registry.find? c.channel with
  | none =>
    simp only [readOnce, hc, hchannel]
    exact ⟨⟨rfl, rfl, rfl, rfl, List.Sublist.refl _, fun _ _ => rfl, fun _ _ => rfl⟩, .refl l⟩
  | some channel =>
  have hid : channel.id = c.channel := ChannelRegistry.find?_some_id hchannel
  have hsince : (streamOf c channel).Since channel := .inl ⟨rfl, rfl⟩
  -- a client that is settled and stays, and one that is settled and goes
  have hstays {s : ClientStream} (hs : s.Since channel)
      (hpaused : s.paused = true → c.paused = true ∨ channel.requestClaimed = true) (rest : Bytes) :
      l.Confined (l.settle c s rest).2 c.token c.channel ∧ l.KeepsPauses (l.settle c s rest).2 :=
    ⟨confined_settle hl hc (hs.id_eq.trans hid) rest, keepsPauses_settle hl hc hchannel hs hpaused rest⟩
  have hgoes {s : ClientStream} (hs : s.channel.id = c.channel) (rest : Bytes) (reason : CloseReason) :
      l.Confined ((l.settle c s rest).2.dismiss refused (l.settle c s rest).1 reason).2 c.token c.channel ∧
        l.KeepsPauses ((l.settle c s rest).2.dismiss refused (l.settle c s rest).1 reason).2 := by
    have hconfined := (confined_settle hl hc hs rest).trans (confined_tearDown _ (l.settle c s rest).1 reason)
    refine ⟨hconfined, hconfined.keepsPauses hl hc fun d hd => ?_⟩
    cases (connection?_tearDown_self _ (l.settle c s rest).1 reason).symm.trans hd
  generalize hturn : l.readOnce refused c.token = turn
  cases hturn ▸ readingTurn hc hchannel refused with
  | pauses hpause =>
    rw [ClientStream.mustPause, Bool.and_eq_true] at hpause
    exact hstays hsince.pause (fun _ => .inr hpause.2) _
  | blocks => exact hstays hsince .inl _
  | ends | breaks => exact hgoes hid _ _
  | reads hpause hunread hread =>
    have hpaused := ClientStream.paused_of_read hread
    exact hstays (hsince.read hpause hread) (fun h => .inl (hpaused.symm.trans h)) _
  | @refuses b rest s hpause hunread hread =>
    exact hgoes (s := { s with requests := [] }) ((hsince.read hpause hread).id_eq.trans hid) _ _

theorem keepsPauses_readOnce (hl : l.Distinct) (refused : Bool) (token : Nat) :
    l.KeepsPauses (l.readOnce refused token).2.2 := by
  cases hc : l.connection? token with
  | none =>
    simp only [readOnce, hc]
    exact .refl l
  | some c => exact (confined_readOnce hl hc refused).2

theorem rounds_closeAll (l : ClientListener) :
    l.closeAll.registry.requestRound = l.registry.requestRound ∧ l.closeAll.seenRound = l.seenRound := by
  rw [closeAll]
  generalize l.connections = clients
  induction clients generalizing l with
  | nil => exact ⟨rfl, rfl⟩
  | cons c clients ih => exact ih (l.tearDown c .stopped).2

theorem keepsPauses_closeAll (hb : l.Books) : l.KeepsPauses l.closeAll := by
  obtain ⟨hcounted, hseen⟩ := rounds_closeAll l
  refine ⟨hcounted, hseen, fun token d hd => ?_⟩
  rw [connection?, guests_eq_nil_iff.1 (clears_closeAll hb).guests_eq] at hd
  cases hd

end Changes

section Connected
variable {other : Nat} {id : ChannelId}

/-- The client under a token is there, and has this channel. -/
def Connected (l : ClientListener) (token : Nat) (id : ChannelId) : Prop :=
  ∃ c, l.connection? token = some c ∧ c.channel = id

theorem Connected.replace (h : l.Connected token id) (hc : l.connection? other = some c)
    (htoken : d.token = other) (hchannel : d.channel = c.channel) : (l.replace d).Connected token id := by
  obtain ⟨e, he, hid⟩ := h
  by_cases heq : token = other
  · subst heq
    obtain rfl := Option.some.inj (he.symm.trans hc)
    exact ⟨d, connection?_replace hc htoken, hchannel.trans hid⟩
  · exact ⟨e, (connection?_replace_of_ne l (htoken.symm ▸ heq)).trans he, hid⟩

theorem Connected.touches (h : l.Connected token id) (hm : l.Touches other m) : m.Connected token id := by
  cases hm with
  | nobody => exact h
  | client hc hguest =>
    have htoken := (congrArg Guest.token hguest).trans (token_of_connection? hc)
    exact h.replace hc htoken (congrArg Guest.channel hguest)

/-- What is done for another client leaves this one there. -/
theorem Connected.confined (h : l.Connected token id) {gone : ChannelId} (hm : l.Confined m other gone)
    (hne : token ≠ other) : m.Connected token id := by
  obtain ⟨c, hc, hid⟩ := h
  exact ⟨c, (hm.connection?_eq token hne).trans hc, hid⟩

theorem Connected.readOnce (hl : l.Distinct) (h : l.Connected token id) (hne : token ≠ other)
    (refused : Bool) : (l.readOnce refused other).2.2.Connected token id := by
  cases hc : l.connection? other with
  | none =>
    simp only [ClientListener.readOnce, hc]
    exact h
  | some c => exact h.confined (confined_readOnce hl hc refused).1 ((token_of_connection? hc).symm ▸ hne)

theorem Connected.fail (h : l.Connected token id) (hne : token ≠ other) (refused : Bool) :
    (l.fail refused other).2.Connected token id := by
  rw [ClientListener.fail]
  split
  · exact h
  · rename_i c hc
    exact h.confined (confined_tearDown l c .ended) ((token_of_connection? hc).symm ▸ hne)

end Connected
end ClientListener

namespace EventLoop
variable {s t : EventLoop} {token : Nat} {id : ChannelId} {c : ClientConnection}

/-- A paused client of a channel will be read on: its request of the round has been made, or a round has
been counted and the loop has not seen it, or the round that frees its slot is about to be counted. -/
def Awaits (s : EventLoop) (id : ChannelId) : Prop :=
  s.listener.SlotTaken id ∨ s.listener.registry.requestRound ≠ s.listener.seenRound ∨
    ∃ left, s.closing = some left ∧ id ∉ left

/-- No paused client is left behind. While a pass goes on, those that are still to be read on are in it. -/
structure Deferred (s : EventLoop) : Prop where
  seen_le : s.listener.seenRound ≤ s.listener.registry.requestRound
  awaits : ∀ token c, s.listener.connection? token = some c → c.paused = true → token ∉ s.resuming →
    s.Awaits c.channel

section Awaiting

theorem deferred_start (settings : ListenerSettings) (limiter : ConnectionLimiter)
    (registry : ChannelRegistry) (draws : Draws) : (start settings limiter registry draws).Deferred :=
  ⟨Nat.le_refl _, fun _ _ hc => nomatch hc⟩

/-- What the loop does, as long as it does not look for a new round. -/
theorem Deferred.keeps (h : s.Deferred) (hkeeps : s.listener.KeepsPauses t.listener)
    (hclosing : t.closing = s.closing)
    (hturns : ∀ token d, t.listener.connection? token = some d → d.paused = true → token ∉ t.resuming →
      token ∉ s.resuming) : t.Deferred := by
  refine ⟨?_, fun token d hd hpaused hturn => ?_⟩
  · rw [hkeeps.seenRound_eq, hkeeps.requestRound_eq]
    exact h.seen_le
  rcases hkeeps.paused token d hd hpaused with htaken | ⟨c, hc, hbefore, hchannel, hkept⟩
  · exact .inl htaken
  have hawaits := h.awaits token c hc hbefore (hturns token d hd hpaused hturn)
  rw [hchannel] at hawaits hkept
  rw [Awaits, hkeeps.requestRound_eq, hkeeps.seenRound_eq, hclosing]
  exact hawaits.imp_left hkept

theorem deferred_beginRound (h : s.Deferred) : s.beginRound.Deferred := by
  rw [beginRound]
  split
  · rename_i hnone
    refine ⟨h.seen_le, fun token c hc hpaused hturn => ?_⟩
    rcases h.awaits token c hc hpaused hturn with htaken | hcounted | ⟨left, hleft, -⟩
    · exact .inl htaken
    · exact .inr (.inl hcounted)
    · rw [hleft] at hnone
      cases hnone
  · exact h

/-- The channel whose slot is freed has had its turn in the round that is being closed. -/
theorem deferred_free (h : s.Deferred) (id : ChannelId) : (s.free id).Deferred := by
  rw [free]
  split
  · exact h
  · rename_i left hleft
    split
    · refine ⟨h.seen_le, fun token c hc hpaused hturn => ?_⟩
      by_cases heq : c.channel = id
      · refine .inr (.inr ⟨_, rfl, fun hmem => ?_⟩)
        exact of_decide_eq_true (List.mem_filter.1 hmem).2 heq
      · rcases h.awaits token c hc hpaused hturn with htaken | hcounted | ⟨before, hbefore, hdone⟩
        · have hkept : ∀ channel : Channel, channel.id = id → channel.clearRequest.id = id := fun _ hid => hid
          have hsame := ChannelRegistry.find?_modify_of_ne (r := s.listener.registry) hkept heq
          exact .inl ((ClientListener.slotTaken_congr hsame).2 htaken)
        · exact .inr (.inl hcounted)
        · obtain rfl := Option.some.inj (hleft.symm.trans hbefore)
          exact .inr (.inr ⟨_, rfl, fun hmem => hdone (List.mem_of_mem_filter hmem)⟩)
    · exact h

/-- A round that is counted is one that the loop has not seen. -/
theorem deferred_countRound (h : s.Deferred) : s.countRound.Deferred := by
  rw [countRound]
  split
  · have hle : s.listener.seenRound ≤ s.listener.registry.requestRound := h.seen_le
    exact ⟨Nat.le_succ_of_le hle, fun _ _ _ _ _ => .inr (.inl (Nat.ne_of_gt (Nat.lt_succ_of_le hle)))⟩
  · exact h

theorem mem_pausedTokens (hc : s.listener.connection? token = some c) (hpaused : c.paused = true) :
    token ∈ s.listener.pausedTokens :=
  List.mem_map.2 ⟨c, List.mem_filter.2 ⟨List.mem_of_find?_eq_some hc, hpaused⟩,
    ClientListener.token_of_connection? hc⟩

/-- When the loop sees a new round, every paused client is to be read on in the pass. -/
theorem deferred_look (h : s.Deferred) : s.look.Deferred := by
  rw [look]
  split
  · exact h
  · exact ⟨Nat.le_refl _, fun token c hc hpaused hturn => absurd (mem_pausedTokens hc hpaused) hturn⟩

/-- The client whose turn it is to be read on is not paused any more. -/
theorem deferred_goOn (hl : s.listener.Distinct) (h : s.Deferred) (token : Nat) :
    (s.next (.goOn token)).Deferred := by
  rw [next, act]
  dsimp only
  split
  · have hkeeps := (ClientListener.touches_unpause s.listener token).keepsPauses hl
    refine h.keeps hkeeps rfl fun other d hd hpaused hturn hmem => ?_
    by_cases heq : other = token
    · subst heq
      rw [ClientListener.paused_unpause hd] at hpaused
      cases hpaused
    · exact hturn (List.mem_filter.2 ⟨hmem, decide_eq_true heq⟩)
  · exact h

/-- What the loop does now, or else nothing. -/
theorem deferred_ite {p : Prop} [Decidable p] (h : s.Deferred) (ht : p → t.Deferred) :
    (if p then t else s).Deferred := by
  split
  · rename_i hp
    exact ht hp
  · exact h

theorem deferred_next (hb : s.listener.Books) (h : s.Deferred) (e : LoopEvent) : (s.next e).Deferred := by
  have hl := hb.distinct
  have hsame (m : ClientListener) : ∀ token d, m.connection? token = some d → d.paused = true →
      token ∉ s.resuming → token ∉ s.resuming := fun _ _ _ _ hturn => hturn
  cases e with
  | arrive token bytes ended =>
    exact h.keeps ((ClientListener.touches_receive _ token bytes ended).keepsPauses hl) rfl (hsame _)
  | beginRound => exact deferred_beginRound h
  | free id => exact deferred_free h id
  | countRound => exact deferred_countRound h
  | stop => exact h.keeps (.refl _) rfl (hsame _)
  | connect address =>
    exact deferred_ite h fun _ => h.keeps (ClientListener.keepsPauses_accept _ address) rfl (hsame _)
  | connectInVain address =>
    refine deferred_ite h fun hfit => ?_
    exact h.keeps (ClientListener.keepsPauses_acceptInVain hfit.2 address) rfl (hsame _)
  | poll token => exact deferred_ite h fun _ => h.keeps (.refl _) rfl (hsame _)
  | deliver m => exact deferred_ite h fun _ => h.keeps (ClientListener.keepsPauses_deliver _ m) rfl (hsame _)
  | look => exact deferred_ite h fun _ => deferred_look h
  | goOn token => exact deferred_goOn hl h token
  | read refused =>
    simp only [next, act, EventLoop.read]
    split
    · exact h.keeps (ClientListener.keepsPauses_readOnce hl _ _) rfl (hsame _)
    · exact h
  | fail token refused =>
    simp only [next, act]
    split
    · exact h.keeps (ClientListener.keepsPauses_fail hl _ token) rfl (hsame _)
    · exact h
  | finish => exact deferred_ite h fun _ => h.keeps (ClientListener.keepsPauses_closeAll hb) rfl (hsame _)

theorem deferred_run (hb : s.listener.Books) (h : s.Deferred) (events : List LoopEvent) :
    (events.foldl next s).Deferred := by
  induction events generalizing s with
  | nil => exact h
  | cons e rest ih => exact ih (books_next hb e) (deferred_next hb h e)

end Awaiting

section Passes

/-- In a pass, the client under a token, of this channel, is still to be read on. -/
structure Pending (s : EventLoop) (token : Nat) (id : ChannelId) : Prop where
  ahead : token ∈ s.resuming
  elsewhere : s.stage ≠ .reading token
  connected : s.listener.Connected token id

theorem Pending.not_idle (h : s.Pending token id) : ¬ s.Idle := fun hidle => by
  have hahead := h.ahead
  rw [hidle.2] at hahead
  cases hahead

/-- Nothing is done to a client that is still to be read on, until its turn comes. -/
theorem pending_next (hb : s.listener.Books) (h : s.Pending token id) (e : LoopEvent) :
    e = .goOn token ∧ s.stage = .ready ∨ (s.next e).Pending token id := by
  have hbusy := h.not_idle
  obtain ⟨hahead, helsewhere, hconnected⟩ := h
  cases e with
  | arrive other bytes ended =>
    exact .inr ⟨hahead, helsewhere, hconnected.touches (ClientListener.touches_receive _ other bytes ended)⟩
  | stop => exact .inr ⟨hahead, helsewhere, hconnected⟩
  | beginRound | countRound =>
    simp only [next, act, beginRound, countRound]
    split <;> exact .inr ⟨hahead, helsewhere, hconnected⟩
  | free id =>
    simp only [next, act, free]
    repeat' split
    all_goals exact .inr ⟨hahead, helsewhere, hconnected⟩
  | connect address | connectInVain address =>
    rw [next, act, if_neg fun hfit => hbusy hfit.1]
    exact .inr ⟨hahead, helsewhere, hconnected⟩
  | poll | deliver | look | finish =>
    rw [next, act, if_neg hbusy]
    exact .inr ⟨hahead, helsewhere, hconnected⟩
  | goOn other =>
    by_cases heq : token = other
    · subst heq
      by_cases hready : s.stage = .ready
      · exact .inl ⟨rfl, hready⟩
      · rw [next, act, if_neg fun hturn => hready hturn.1]
        exact .inr ⟨hahead, helsewhere, hconnected⟩
    · rw [next, act]
      dsimp only
      split
      · refine .inr ⟨List.mem_filter.2 ⟨hahead, decide_eq_true heq⟩, ?_,
          hconnected.touches (ClientListener.touches_unpause _ other)⟩
        exact fun hreading => heq (LoopStage.reading.inj hreading).symm
      · exact .inr ⟨hahead, helsewhere, hconnected⟩
  | read refused =>
    simp only [next, act, EventLoop.read]
    split
    · rename_i other hstage
      rw [hstage] at helsewhere
      have hne : token ≠ other := fun heq => helsewhere (congrArg LoopStage.reading heq.symm)
      refine .inr ⟨hahead, ?_, hconnected.readOnce hb.distinct hne _⟩
      dsimp only
      split
      · exact helsewhere
      · exact LoopStage.ready_ne_reading token
    · exact .inr ⟨hahead, helsewhere, hconnected⟩
  | fail other refused =>
    simp only [next, act]
    split
    · rename_i hmay
      have hne : token ≠ other := by
        rintro rfl
        exact hmay.elim helsewhere fun hturn => hturn.2 hahead
      exact .inr ⟨hahead, LoopStage.ready_ne_reading token, hconnected.fail hne _⟩
    · exact .inr ⟨hahead, helsewhere, hconnected⟩

/-- Before a pass is over, the client's turn comes, and till then it is there. -/
theorem pending_run (hb : s.listener.Books) (h : s.Pending token id) (events : List LoopEvent)
    (hidle : (events.foldl next s).Idle) :
    ∃ front back, events = front ++ .goOn token :: back ∧ (front.foldl next s).Pending token id ∧
      (front.foldl next s).stage = .ready := by
  induction events generalizing s with
  | nil => exact absurd hidle h.not_idle
  | cons e rest ih =>
    rcases pending_next hb h e with ⟨rfl, hready⟩ | hpending
    · exact ⟨[], rest, rfl, h, hready⟩
    · obtain ⟨front, back, rfl, hfront⟩ := ih (books_next hb e) hpending hidle
      exact ⟨e :: front, back, rfl, hfront⟩

/-- A loop that sees a new round has every paused client ahead. -/
theorem pending_look (hidle : s.Idle) (hround : s.listener.registry.requestRound ≠ s.listener.seenRound)
    (hc : s.listener.connection? token = some c) (hpaused : c.paused = true) :
    (s.next .look).Pending token c.channel := by
  rw [next, act, if_pos hidle, look, if_neg hround]
  exact ⟨mem_pausedTokens hc hpaused, hidle.1.symm ▸ LoopStage.ready_ne_reading token, c, hc, rfl⟩

/-- The turn of a client: it is read, without a pause. -/
theorem goOn_pending (h : s.Pending token id) (hready : s.stage = .ready) :
    (s.next (.goOn token)).stage = .reading token ∧
      ∃ c, (s.next (.goOn token)).listener.connection? token = some c ∧ c.channel = id ∧ c.paused = false := by
  obtain ⟨hahead, -, hconnected⟩ := h
  rw [next, act, if_pos ⟨hready, hahead⟩]
  obtain ⟨c, hc, hid⟩ := hconnected.touches (ClientListener.touches_unpause _ token)
  exact ⟨rfl, c, hc, hid, ClientListener.paused_unpause hc⟩

end Passes

/-- No read that waits for the next round is forgotten, whatever comes in between. Whenever no pass is under
way, a paused client has its request slot taken, or a round has been counted that the loop has not seen, or
its slot has been freed in a round that is not counted yet. And when the loop sees that a round has been
counted, then before it comes to anything else it has begun to read from every client that was paused, with
the pause taken off and the client still there. -/
theorem deferred_reads_resume (settings : ListenerSettings) (maxTotal maxPerAddress capacity : Nat)
    (draws : Draws) (events : List LoopEvent) :
    let s := events.foldl next (start settings (.new maxTotal maxPerAddress) (.empty capacity) draws)
    s.Idle → ∀ token c, s.listener.connection? token = some c → c.paused = true →
      (s.listener.SlotTaken c.channel ∨ s.listener.registry.requestRound ≠ s.listener.seenRound ∨
        ∃ left, s.closing = some left ∧ c.channel ∉ left) ∧
      (s.listener.registry.requestRound ≠ s.listener.seenRound → ∀ pass,
        (pass.foldl next (s.next .look)).Idle → ∃ front back, pass = front ++ .goOn token :: back ∧
          let turn := (front.foldl next (s.next .look)).next (.goOn token)
          turn.stage = .reading token ∧
            ∃ d, turn.listener.connection? token = some d ∧ d.channel = c.channel ∧ d.paused = false) := by
  intro s hidle token c hc hpaused
  have hb₀ := ClientListener.books_start settings maxTotal maxPerAddress capacity draws
  have hb : s.listener.Books := books_run hb₀ events
  have hdeferred : s.Deferred := deferred_run hb₀ (deferred_start _ _ _ _) events
  have hturn : token ∉ s.resuming := hidle.2.symm ▸ List.not_mem_nil
  refine ⟨hdeferred.awaits token c hc hpaused hturn, fun hround pass hover => ?_⟩
  obtain ⟨front, back, hpass, hpending, hready⟩ :=
    pending_run (books_next hb .look) (pending_look hidle hround hc hpaused) pass hover
  exact ⟨front, back, hpass, goOn_pending hpending hready⟩

/-- A client sends two requests at once, and the first is read; then the round may be closed. -/
def secondWaits (closing : List LoopEvent) : EventLoop :=
  List.foldl next vacant
    ([.connect (.v4 127 0 0 1), .arrive 0 (Frame.encodeClient [7] ++ Frame.encodeClient [8]) false, .poll 0] ++
      .replicate 6 (.read false) ++ closing)

/-- Between the freeing of its slot and the counting of the round, a paused client has a free slot and no
round to be seen. -/
example :
    let s := secondWaits [.beginRound, .free 5]
    s.Idle ∧ s.listener.pausedTokens = [0] ∧
      (s.listener.registry.find? 5).map Channel.requestClaimed = some false ∧
      s.listener.registry.requestRound = s.listener.seenRound := by
  decide

/-- The second request is read once the round has been counted, in six turns, and in any pass. -/
theorem secondWaits_read_on :
    let s := secondWaits [.beginRound, .free 5, .countRound]
    s.Idle ∧ s.listener.pausedTokens = [0] ∧
      ((.goOn 0 :: .replicate 6 (.read false)).foldl next (s.next .look)).Idle ∧
      ∀ pass, (pass.foldl next (s.next .look)).Idle → ∃ front back, pass = front ++ .goOn 0 :: back := by
  have hidle : (secondWaits [.beginRound, .free 5, .countRound]).Idle := by decide
  refine ⟨hidle, by decide, by decide, fun pass hover => ?_⟩
  have hresumes := (deferred_reads_resume _ _ _ _ _ _ hidle 0
    ⟨0, .v4 127 0 0 1, 5, .length [], true, Frame.encodeClient [8], false⟩ (by decide) (by decide)).2
  obtain ⟨front, back, hpass, -⟩ := hresumes (by decide) pass hover
  exact ⟨front, back, hpass⟩

end EventLoop
end MixRelay
