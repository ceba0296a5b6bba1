import MixRelay.Proofs.EventLoop
import MixRelay.Proofs.ListenerRuns

/-!
# Undisturbed passes of the loop

Where nothing comes in between, the steps of the loop come to what the listener does at once: it reads all
that a client has sent, closes the round, and reads the paused clients on.
-/
namespace MixRelay.EventLoop

/-- Some events lead from one state to another, and the messages are handed on in them. -/
def Reaches (s : EventLoop) (sent : List Message) (t : EventLoop) : Prop :=
  ∃ events : List LoopEvent, events.foldl next s = t ∧ s.handedAlong events = sent

variable {s t u : EventLoop} {sent more : List Message} {token : Nat}

theorem Reaches.refl (s : EventLoop) : s.Reaches [] s := ⟨[], rfl, rfl⟩

theorem reaches_act (s : EventLoop) (e : LoopEvent) : s.Reaches (s.act e).1 (s.act e).2 :=
  ⟨[e], rfl, List.append_nil _⟩

theorem Reaches.trans (h : s.Reaches sent t) (h' : t.Reaches more u) : s.Reaches (sent ++ more) u := by
  obtain ⟨first, rfl, rfl⟩ := h
  obtain ⟨second, rfl, rfl⟩ := h'
  exact ⟨first ++ second, List.foldl_append, outputs_append _ _ _ _⟩

/-- Steps that hand nothing on may come first. -/
theorem Reaches.after (h' : t.Reaches more u) (h : s.Reaches [] t) : s.Reaches more u := h.trans h'

section Reading
open ClientListener

/-- A turn that is not the last has read a byte. -/
theorem unread_readOnce {l : ClientListener} (hmore : (l.readOnce false token).1 = true) :
    ((l.readOnce false token).2.2.unread token).length < (l.unread token).length := by
  cases hc : l.connection? token with
  | none => simp [readOnce, hc] at hmore
  | some c =>
    cases hchannel : l.registry.find? c.channel with
    | none => simp [readOnce, hc, hchannel] at hmore
    | some channel =>
      generalize hturn : l.readOnce false token = turn at hmore ⊢
      cases hturn ▸ readingTurn hc hchannel false with
      | @reads b rest s hpause hunread hread =>
        have hrest : (l.settle c s rest).2.unread token = rest := unread_eq (connection?_settle hc s rest)
        rw [hrest, unread_eq hc, hunread]
        exact Nat.lt_succ_self _
      | _ => cases hmore

variable {l : ClientListener} {resuming : List Nat} {closing : Option (List ChannelId)} {stopped : Bool}

theorem reaches_readFrom (l : ClientListener) (token : Nat) :
    Reaches ⟨l, .reading token, resuming, closing, stopped⟩ (l.readFrom token).1
      ⟨(l.readFrom token).2, .ready, resuming, closing, stopped⟩ := by
  generalize hn : (l.unread token).length = n
  induction n using Nat.strong_induction_on generalizing l with
  | h n ih =>
    have hturn := reaches_act ⟨l, .reading token, resuming, closing, stopped⟩ (.read false)
    simp only [act, EventLoop.read, Bool.and_false] at hturn
    rw [readFrom_eq_readOnce]
    cases hmore : (l.readOnce false token).1 with
    | false =>
      rw [hmore] at hturn
      exact hturn
    | true =>
      rw [hmore] at hturn
      exact hturn.trans (ih _ (hn ▸ unread_readOnce hmore) _ rfl)

theorem reaches_arrive (l : ClientListener) (token : Nat) (bytes : Bytes) (ended : Bool) :
    Reaches ⟨l, .ready, [], closing, stopped⟩ (l.arrive token bytes ended).1
      ⟨(l.arrive token bytes ended).2, .ready, [], closing, stopped⟩ := by
  have hreceived := reaches_act ⟨l, .ready, [], closing, stopped⟩ (.arrive token bytes ended)
  simp only [act, receive] at hreceived
  rw [arrive]
  cases hc : l.connection? token with
  | none =>
    rw [hc] at hreceived
    exact hreceived
  | some c =>
    rw [hc] at hreceived
    dsimp only at hreceived ⊢
    split
    · exact hreceived
    · have hpolled := reaches_act ⟨l.replace { c with
        unread := c.unread ++ bytes, ended := c.ended || ended }, .ready, [], closing, stopped⟩ (.poll token)
      exact ((reaches_readFrom _ token).after hpolled).after hreceived

theorem resumeOne_eq (l : ClientListener) (token : Nat) :
    l.resumeOne token = (l.unpause token).readFrom token := by
  rw [resumeOne, unpause]
  cases hc : l.connection? token with
  | none => simp [readFrom, hc]
  | some c => rfl

theorem reaches_resumeOne (l : ClientListener) (hmem : token ∈ resuming) :
    Reaches ⟨l, .ready, resuming, closing, stopped⟩ (l.resumeOne token).1
      ⟨(l.resumeOne token).2, .ready, resuming.filter fun other => other ≠ token, closing, stopped⟩ := by
  have hgone := reaches_act ⟨l, .ready, resuming, closing, stopped⟩ (.goOn token)
  rw [act, if_pos ⟨rfl, hmem⟩] at hgone
  rw [resumeOne_eq]
  exact (reaches_readFrom _ token).after hgone

/-- The clients of a list are read on one after the other. -/
theorem reaches_resumed (l : ClientListener) {paused : List ClientConnection}
    (htokens : (paused.map ClientConnection.token).Nodup) (before : List Message) :
    ∃ sent, (paused.foldl (fun (sent, l) c =>
        let (more, l) := l.resumeOne c.token
        (sent ++ more, l)) (before, l)).1 = before ++ sent ∧
      Reaches ⟨l, .ready, paused.map ClientConnection.token, closing, stopped⟩ sent
        ⟨(paused.foldl (fun (sent, l) c =>
          let (more, l) := l.resumeOne c.token
          (sent ++ more, l)) (before, l)).2, .ready, [], closing, stopped⟩ := by
  induction paused generalizing l before with
  | nil => exact ⟨[], (List.append_nil _).symm, .refl _⟩
  | cons c paused ih =>
    obtain ⟨hnew, hrest⟩ := List.nodup_cons.1 htokens
    have hone : Reaches ⟨l, .ready, (c :: paused).map ClientConnection.token, closing, stopped⟩ _ _ :=
      reaches_resumeOne l List.mem_cons_self
    have hleft : ((c :: paused).map ClientConnection.token).filter (fun other => other ≠ c.token) =
        paused.map ClientConnection.token := by
      rw [List.map_cons, List.filter_cons_of_neg (by simp), List.filter_eq_self]
      exact fun other hother => decide_eq_true fun heq => hnew (heq ▸ hother)
    rw [hleft] at hone
    obtain ⟨sent, hsent, hreached⟩ := ih (l.resumeOne c.token).2 hrest (before ++ (l.resumeOne c.token).1)
    refine ⟨(l.resumeOne c.token).1 ++ sent, ?_, hone.trans hreached⟩
    rw [List.foldl_cons, hsent, List.append_assoc]

theorem reaches_resumeDeferred (hl : l.Distinct) :
    Reaches ⟨l, .ready, [], closing, stopped⟩ l.resumeDeferred.1
      ⟨l.resumeDeferred.2, .ready, [], closing, stopped⟩ := by
  have hlooked := reaches_act ⟨l, .ready, [], closing, stopped⟩ .look
  simp only [act, look] at hlooked
  rw [if_pos ⟨rfl, rfl⟩] at hlooked
  rw [resumeDeferred]
  by_cases hround : l.registry.requestRound = l.seenRound
  · rw [if_pos hround] at hlooked ⊢
    exact hlooked
  · rw [if_neg hround] at hlooked ⊢
    have htokens : ((l.connections.filter ClientConnection.paused).map ClientConnection.token).Nodup := by
      have hall := hl.tokens
      rw [names, List.map_map] at hall
      exact hall.sublist (List.filter_sublist.map _)
    obtain ⟨sent, hsent, hreached⟩ := @reaches_resumed closing stopped
      { l with seenRound := l.registry.requestRound } _ htokens []
    rw [List.nil_append] at hsent
    dsimp only
    rw [hsent]
    exact hreached.after hlooked

end Reading

section Closing
variable {l : ClientListener} {stopped : Bool}

/-- Freed one after the other, the channels of a list are all free. -/
theorem foldl_clearRequest (r : ChannelRegistry) (ids : List ChannelId) :
    ids.foldl (fun r id => r.modify id Channel.clearRequest) r =
      { r with channels := r.channels.map fun c => if c.id ∈ ids then c.clearRequest else c } := by
  induction ids generalizing r with
  | nil => simp
  | cons id ids ih =>
    rw [List.foldl_cons, ih, ChannelRegistry.modify, List.map_map]
    congr 1
    refine List.map_congr_left fun c _ => ?_
    rw [Function.comp_apply]
    by_cases hid : c.id = id
    · rw [if_pos hid, if_pos (List.mem_cons.2 (.inl hid))]
      split <;> rfl
    · rw [if_neg hid]
      exact if_congr (List.mem_cons.trans (or_iff_right hid)).symm rfl rfl

theorem clearRequests_eq (r : ChannelRegistry) :
    r.ids.foldl (fun r id => r.modify id Channel.clearRequest) r = r.clearRequests := by
  rw [foldl_clearRequest, ChannelRegistry.clearRequests]
  congr 1
  exact List.map_congr_left fun c hc => if_pos (List.mem_map_of_mem hc)

theorem reaches_freed (l : ClientListener) {left : List ChannelId} (hleft : left.Nodup) :
    Reaches ⟨l, .ready, [], some left, stopped⟩ []
      ⟨{ l with registry := left.foldl (fun r id => r.modify id Channel.clearRequest) l.registry },
        .ready, [], some [], stopped⟩ := by
  induction left generalizing l with
  | nil => exact .refl _
  | cons id left ih =>
    obtain ⟨hnew, hrest⟩ := List.nodup_cons.1 hleft
    have hfreed := reaches_act ⟨l, .ready, [], some (id :: left), stopped⟩ (.free id)
    have hothers : (id :: left).filter (fun other => other ≠ id) = left := by
      rw [List.filter_cons_of_neg (by simp), List.filter_eq_self]
      exact fun other hother => decide_eq_true fun heq => hnew (heq ▸ hother)
    simp only [act, free] at hfreed
    rw [if_pos List.mem_cons_self, hothers] at hfreed
    exact (ih _ hrest).after hfreed

theorem reaches_closeRound (hl : l.Distinct) (hids : l.registry.ids.Nodup) :
    Reaches ⟨l, .ready, [], none, stopped⟩ l.closeRound.1 ⟨l.closeRound.2, .ready, [], none, stopped⟩ := by
  have hbegun := reaches_act ⟨l, .ready, [], none, stopped⟩ .beginRound
  have hfreed : Reaches ⟨l, .ready, [], some l.registry.ids, stopped⟩ [] _ := reaches_freed l hids
  rw [clearRequests_eq] at hfreed
  have hcounted := reaches_act
    ⟨{ l with registry := l.registry.clearRequests }, .ready, [], some [], stopped⟩ .countRound
  have hresumed : Reaches
      ⟨{ l with registry := l.registry.closeRequestRound }, .ready, [], none, stopped⟩ _ _ :=
    reaches_resumeDeferred ⟨hl.tokens, hl.channels, hl.earlier⟩
  exact ((hresumed.after hcounted).after hfreed).after hbegun

end Closing

/-- Where nothing comes in between, the loop serves its clients as the listener does: for each thing that
happens there are steps that hand on the same messages and lead to the same listener. -/
theorem reaches_event {l : ClientListener} (hl : l.Distinct) (hids : l.registry.ids.Nodup) (stopped : Bool)
    (e : ListenerEvent) (hfit : l.Fit e) :
    Reaches ⟨l, .ready, [], none, stopped⟩ (l.act e).1 ⟨(l.act e).2, .ready, [], none, stopped⟩ := by
  cases e with
  | connect address =>
    have hconnected := reaches_act ⟨l, .ready, [], none, stopped⟩ (.connect address)
    rw [act, if_pos ⟨⟨rfl, rfl⟩, hfit⟩] at hconnected
    exact hconnected
  | arrive token bytes ended => exact reaches_arrive l token bytes ended
  | deliver m =>
    have hdelivered := reaches_act ⟨l, .ready, [], none, stopped⟩ (.deliver m)
    rw [act, if_pos ⟨rfl, rfl⟩] at hdelivered
    exact hdelivered
  | closeRound => exact reaches_closeRound hl hids

end MixRelay.EventLoop
