import MixRelay.Proofs.ClientIntake
import MixRelay.Proofs.ListenerReads

/-!
# Reading from a client, one byte at a time

While a listener reads from a client, the round may close and the queue of requests may stop taking any,
between any two bytes. `readOnce` is one turn of the loop that reads. As long as nothing else happens,
turn after turn comes to `readFrom`.
-/
namespace MixRelay

namespace ClientStream
variable {limits : StreamLimits} {c d : ClientStream} {requests : List Message} {faults pauses : Nat}

/-- The stream behind what has been read before: requests, faults and pauses are added to the earlier. -/
def behind (c : ClientStream) (requests : List Message) (faults pauses : Nat) : ClientStream :=
  { c with
    requests := requests ++ c.requests
    faults := faults + c.faults
    pauses := pauses + c.pauses }

theorem pause_behind (c : ClientStream) (requests : List Message) (faults pauses : Nat) :
    (c.behind requests faults pauses).pause = c.pause.behind requests faults pauses := by
  cases hp : c.paused with
  | true => simp [pause, behind, hp]
  | false => simp [pause, behind, hp, Nat.add_assoc]

theorem requests_pause (c : ClientStream) : c.pause.requests = c.requests := by
  rw [pause]
  split <;> rfl

theorem complete_behind (c : ClientStream) (payload : Bytes) :
    (c.behind requests faults pauses).complete payload =
      (c.complete payload).behind requests faults pauses := by
  cases hfree : c.channel.requestClaimed with
  | true => simp [complete, behind, Channel.claimRequest, hfree]
  | false => simp [complete, behind, Channel.claimRequest, hfree, List.append_assoc]

/-- What has been read before makes no difference to what is read next. -/
theorem read_behind (limits : StreamLimits) (c : ClientStream) (b : UInt8) :
    (c.behind requests faults pauses).read limits b =
      (c.read limits b).map fun d => d.behind requests faults pauses := by
  obtain ⟨stage, paused, channel, own, ownFaults, ownPauses⟩ := c
  cases stage with
  | length got =>
    simp only [read, behind]
    by_cases hfour : got.length = 3
    · rw [if_pos hfour, if_pos hfour]
      simp only [announced]
      split
      · rfl
      · split
        · rfl
        · simp only [skipping, Except.map, Nat.add_assoc]
    · rw [if_neg hfour, if_neg hfour]
      rfl
  | payload missing got =>
    rcases missing with _ | _ | n
    · rfl
    · exact congrArg Except.ok (complete_behind
        ⟨.payload 1 got, paused, channel, own, ownFaults, ownPauses⟩ _)
    · rfl
  | skip missing => rfl

theorem readAll_behind (limits : StreamLimits) (c : ClientStream) (bytes : Bytes) :
    (c.behind requests faults pauses).readAll limits bytes =
      ((c.readAll limits bytes).1.behind requests faults pauses, (c.readAll limits bytes).2) := by
  induction bytes generalizing c with
  | nil =>
    rw [readAll, readAll]
    by_cases hp : c.mustPause = true
    · rw [if_pos hp, if_pos (show (c.behind requests faults pauses).mustPause = true from hp), pause_behind]
    · rw [if_neg hp, if_neg (show ¬ (c.behind requests faults pauses).mustPause = true from hp)]
  | cons b rest ih =>
    rw [readAll, readAll]
    by_cases hp : c.mustPause = true
    · rw [if_pos hp, if_pos (show (c.behind requests faults pauses).mustPause = true from hp), pause_behind]
    · rw [if_neg hp, if_neg (show ¬ (c.behind requests faults pauses).mustPause = true from hp), read_behind]
      cases c.read limits b with
      | error reason => rfl
      | ok d => exact ih d

theorem readAll_nil (limits : StreamLimits) (h : c.mustPause = false) :
    c.readAll limits [] = (c, none, []) := by
  rw [readAll, if_neg (ne_true_of_eq_false h)]

end ClientStream

/-- The second of two changes that store a channel is the one that stays. -/
theorem ChannelRegistry.modify_modify (r : ChannelRegistry) {id : ChannelId} {c : Channel} (hc : c.id = id)
    (d : Channel) : ((r.modify id fun _ => c).modify id fun _ => d) = r.modify id fun _ => d := by
  simp only [modify, List.map_map]
  congr 1
  refine List.map_congr_left fun e _ => ?_
  rw [Function.comp_apply]
  by_cases he : e.id = id
  · rw [if_pos he, if_pos hc, if_pos he]
  · rw [if_neg he, if_neg he]

namespace ClientListener

/-- Tears a client down while the relay may have stopped taking messages: its release is lost then. -/
def dismiss (l : ClientListener) (refused : Bool) (c : ClientConnection) (reason : CloseReason) :
    List Message × ClientListener :=
  let (released, l) := l.tearDown c reason
  (if refused then [] else released, l)

/-- One turn of reading from a client, and whether another follows: the client pauses, no byte is there
and the stream is over or not, or a byte is read. A refused request ends the client, for the relay stops. -/
def readOnce (l : ClientListener) (refused : Bool) (token : Nat) : Bool × List Message × ClientListener :=
  match l.connection? token with
  | none => (false, [], l)
  | some c =>
    match l.registry.find? c.channel with
    | none => (false, [], l)
    | some channel =>
      let s := streamOf c channel
      if s.mustPause then (false, [], (l.settle c s.pause c.unread).2)
      else
        match c.unread with
        | [] =>
          let (c, l) := l.settle c s []
          if c.ended then (false, l.dismiss refused c .ended) else (false, [], l)
        | b :: rest =>
          match s.read l.settings.limits b with
          | .error reason => (false, (l.settle c s rest).2.dismiss refused (l.settle c s rest).1 reason)
          | .ok s =>
            if refused && !s.requests.isEmpty then
              let s := { s with requests := [] }
              (false, (l.settle c s rest).2.dismiss refused (l.settle c s rest).1 .stopped)
            else (true, s.requests, (l.settle c s rest).2)

section Turns
variable {l : ClientListener} {token : Nat} {c d : ClientConnection} {channel : Channel}
  {s t : ClientStream} {rest more : Bytes}

theorem replace_replace (l : ClientListener) (h : d.token = c.token) :
    (l.replace c).replace d = l.replace d := by
  simp only [replace, List.map_map]
  congr 1
  refine List.map_congr_left fun e _ => ?_
  rw [Function.comp_apply, h]
  by_cases he : e.token = c.token
  · rw [if_pos he, if_pos rfl, if_pos he]
  · rw [if_neg he, if_neg he]

/-- What is settled in two steps might as well be settled in one. -/
theorem settle_settle (l : ClientListener) (c : ClientConnection) (hs : s.channel.id = c.channel) :
    (l.settle c s rest).2.settle (l.settle c s rest).1 t more =
      l.settle c (t.behind s.requests s.faults s.pauses) more := by
  have hregistry := ChannelRegistry.modify_modify l.registry hs t.channel
  have hconnections := congrArg ClientListener.connections (replace_replace l
    (c := { c with stage := s.stage, paused := s.paused, unread := rest })
    (d := { c with stage := t.stage, paused := t.paused, unread := more }) rfl)
  simp only [settle, ClientStream.behind, List.length_append, ← Nat.add_assoc, Prod.mk.injEq,
    ClientListener.mk.injEq, true_and]
  exact ⟨rfl, rfl, hconnections, rfl, rfl, rfl, hregistry, rfl⟩

/-- The client is still there, as it has been settled. -/
theorem connection?_settle (hc : l.connection? token = some c) (s : ClientStream) (rest : Bytes) :
    (l.settle c s rest).2.connection? token = some (l.settle c s rest).1 := by
  have htoken := token_of_connection? hc
  exact connection?_replace hc htoken

/-- A stream that stands where a byte has left it, with what has been read before it. -/
theorem eq_behind (s : ClientStream) : s =
    (streamOf { c with stage := s.stage, paused := s.paused, unread := rest } s.channel).behind
      s.requests s.faults s.pauses := by
  obtain ⟨stage, paused, channel, requests, faults, pauses⟩ := s
  simp [streamOf, ClientStream.behind]

theorem readFrom_of_settled (hc : l.connection? token = some c)
    (hchannel : l.registry.find? c.channel = some channel) {verdict : Option CloseReason}
    (hread : (streamOf c channel).readAll l.settings.limits c.unread = (s, verdict, rest)) :
    l.readFrom token =
      match verdict.or (if c.ended && rest.isEmpty && !s.mustPause then some .ended else none) with
      | none => (s.requests, (l.settle c s rest).2)
      | some reason =>
        (s.requests ++ ((l.settle c s rest).2.tearDown (l.settle c s rest).1 reason).1,
          ((l.settle c s rest).2.tearDown (l.settle c s rest).1 reason).2) := by
  unfold streamOf at hread
  simp only [readFrom, hc, hchannel, hread]
  rfl

/-- What a turn comes to for a client that is served, as whether another one follows, the messages handed
on and the listener then. -/
inductive ReadingTurn (l : ClientListener) (refused : Bool) (c : ClientConnection) (channel : Channel) :
    Bool × List Message × ClientListener → Prop
  | pauses (hpause : (streamOf c channel).mustPause = true) :
      ReadingTurn l refused c channel (false, [], (l.settle c (streamOf c channel).pause c.unread).2)
  | blocks (hpause : (streamOf c channel).mustPause = false) (hunread : c.unread = [])
      (hended : c.ended = false) :
      ReadingTurn l refused c channel (false, [], (l.settle c (streamOf c channel) []).2)
  | ends (hpause : (streamOf c channel).mustPause = false) (hunread : c.unread = [])
      (hended : c.ended = true) :
      ReadingTurn l refused c channel (false, (l.settle c (streamOf c channel) []).2.dismiss refused
        (l.settle c (streamOf c channel) []).1 .ended)
  | breaks {b : UInt8} {rest : Bytes} {reason : CloseReason}
      (hpause : (streamOf c channel).mustPause = false) (hunread : c.unread = b :: rest)
      (hread : (streamOf c channel).read l.settings.limits b = .error reason) :
      ReadingTurn l refused c channel (false, (l.settle c (streamOf c channel) rest).2.dismiss refused
        (l.settle c (streamOf c channel) rest).1 reason)
  | reads {b : UInt8} {rest : Bytes} {s : ClientStream} (hpause : (streamOf c channel).mustPause = false)
      (hunread : c.unread = b :: rest) (hread : (streamOf c channel).read l.settings.limits b = .ok s) :
      ReadingTurn l refused c channel (true, s.requests, (l.settle c s rest).2)
  | refuses {b : UInt8} {rest : Bytes} {s : ClientStream} (hpause : (streamOf c channel).mustPause = false)
      (hunread : c.unread = b :: rest) (hread : (streamOf c channel).read l.settings.limits b = .ok s)
      (hrefused : refused = true) :
      ReadingTurn l refused c channel (false, (l.settle c { s with requests := [] } rest).2.dismiss refused
        (l.settle c { s with requests := [] } rest).1 .stopped)

theorem readingTurn (hc : l.connection? token = some c)
    (hchannel : l.registry.find? c.channel = some channel) (refused : Bool) :
    l.ReadingTurn refused c channel (l.readOnce refused token) := by
  cases hpause : (streamOf c channel).mustPause with
  | true =>
    simp only [readOnce, hc, hchannel, hpause, if_true]
    exact .pauses hpause
  | false =>
    cases hunread : c.unread with
    | nil =>
      simp only [readOnce, hc, hchannel, hpause, hunread, Bool.false_eq_true, if_false]
      split
      · rename_i hended
        exact .ends hpause hunread hended
      · rename_i hended
        exact .blocks hpause hunread (Bool.not_eq_true _ ▸ hended)
    | cons b rest =>
      cases hread : (streamOf c channel).read l.settings.limits b with
      | error reason =>
        simp only [readOnce, hc, hchannel, hpause, hunread, hread, Bool.false_eq_true, if_false]
        exact .breaks hpause hunread hread
      | ok s =>
        simp only [readOnce, hc, hchannel, hpause, hunread, hread, Bool.false_eq_true, if_false]
        split
        · rename_i hboth
          exact .refuses hpause hunread hread (Bool.and_eq_true_iff.1 hboth).1
        · exact .reads hpause hunread hread

/-- Reading from a client is a turn, and reading on if the turn was not the last. -/
theorem readFrom_eq_readOnce (l : ClientListener) (token : Nat) :
    l.readFrom token =
      if (l.readOnce false token).1 then
        ((l.readOnce false token).2.1 ++ ((l.readOnce false token).2.2.readFrom token).1,
          ((l.readOnce false token).2.2.readFrom token).2)
      else (l.readOnce false token).2 := by
  cases hc : l.connection? token with
  | none => simp [readFrom, readOnce, hc]
  | some c =>
  cases hchannel : l.registry.find? c.channel with
  | none => simp [readFrom, readOnce, hc, hchannel]
  | some channel =>
  have hnone : (streamOf c channel).requests = [] := rfl
  generalize hturn : l.readOnce false token = turn
  cases hturn ▸ readingTurn hc hchannel false with
  | pauses hpause =>
    have hread : (streamOf c channel).readAll l.settings.limits c.unread =
        ((streamOf c channel).pause, none, c.unread) := by
      cases c.unread <;> rw [ClientStream.readAll, if_pos hpause]
    rw [readFrom_of_settled hc hchannel hread]
    simp [ClientStream.mustPause_pause, hpause, ClientStream.requests_pause, hnone]
  | blocks hpause hunread hended =>
    have hread : (streamOf c channel).readAll l.settings.limits c.unread = (streamOf c channel, none, []) :=
      hunread.symm ▸ ClientStream.readAll_nil _ hpause
    rw [readFrom_of_settled hc hchannel hread]
    simp [hended, hnone]
  | ends hpause hunread hended =>
    have hread : (streamOf c channel).readAll l.settings.limits c.unread = (streamOf c channel, none, []) :=
      hunread.symm ▸ ClientStream.readAll_nil _ hpause
    rw [readFrom_of_settled hc hchannel hread]
    simp [hended, hpause, hnone, dismiss]
  | @breaks b rest reason hpause hunread hread =>
    have hall : (streamOf c channel).readAll l.settings.limits c.unread =
        (streamOf c channel, some reason, rest) := by
      rw [hunread, ClientStream.readAll, if_neg (ne_true_of_eq_false hpause), hread]
    rw [readFrom_of_settled hc hchannel hall]
    simp [hnone, dismiss]
  | @reads b rest s hpause hunread hread =>
    have hid : s.channel.id = c.channel := by
      have hsince : (streamOf c channel).Since channel := .inl ⟨rfl, rfl⟩
      exact (hsince.read hpause hread).id_eq.trans (ChannelRegistry.find?_some_id hchannel)
    let d : ClientConnection := (l.settle c s rest).1
    have hd : (l.settle c s rest).2.connection? token = some d := connection?_settle hc s rest
    have hfound : (l.settle c s rest).2.registry.find? d.channel = some s.channel :=
      ChannelRegistry.find?_modify hchannel hid
    obtain ⟨t, verdict, more, hmore⟩ : ∃ t verdict more,
      (streamOf d s.channel).readAll l.settings.limits rest = (t, verdict, more) := ⟨_, _, _, rfl⟩
    have hall : (streamOf c channel).readAll l.settings.limits c.unread =
        (t.behind s.requests s.faults s.pauses, verdict, more) := by
      have hsame : s = (streamOf d s.channel).behind s.requests s.faults s.pauses := eq_behind s
      calc (streamOf c channel).readAll l.settings.limits c.unread
        _ = s.readAll l.settings.limits rest := by
          rw [hunread, ClientStream.readAll_cons hpause hread]
        _ = ((streamOf d s.channel).behind s.requests s.faults s.pauses).readAll l.settings.limits rest :=
          congrArg (fun s => s.readAll l.settings.limits rest) hsame
        _ = (t.behind s.requests s.faults s.pauses, verdict, more) := by
          rw [ClientStream.readAll_behind, hmore]
    have hsettled : (l.settle c s rest).2.settle d t more =
        l.settle c (t.behind s.requests s.faults s.pauses) more := settle_settle l c hid
    rw [readFrom_of_settled hc hchannel hall, readFrom_of_settled hd hfound hmore, hsettled, if_pos rfl]
    have hpaused : (t.behind s.requests s.faults s.pauses).mustPause = t.mustPause := rfl
    have hended : d.ended = c.ended := rfl
    rw [hpaused, hended]
    cases verdict.or (if c.ended && more.isEmpty && !t.mustPause then some .ended else none) with
    | none => rfl
    | some reason => simp only [ClientStream.behind, List.append_assoc]
  | refuses hpause hunread hread hrefused => cases hrefused

end Turns
end ClientListener
end MixRelay
