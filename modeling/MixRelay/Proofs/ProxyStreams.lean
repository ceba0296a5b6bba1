import MixRelay.Proofs.ReplyRounds

/-!
# The two byte streams through a channel's buffers

The destination and the last relay meet in the buffers of a channel: reply data is pushed and taken, by
hand or in rounds of replies, and request data is pushed and drained. In any run of such calls the data
taken and the data still buffered are the data accepted, in order, within the capacity, and neither
stream depends on the calls that belong to the other.
-/
namespace MixRelay

/-- A call on the buffers of channels, or the end of a reply round. -/
inductive BufferCall
  | pushReply (id : ChannelId) (data : Bytes)
  | pushRequest (id : ChannelId) (data : Bytes)
  | takeReply (id : ChannelId) (n : Nat)
  | drainRequests (id : ChannelId)
  | flush (ids : List ChannelId) (size : Nat)
  | closeReplyRound

namespace BufferCall

/-- The call has to do with request data. -/
def onRequests : BufferCall → Bool
  | .pushRequest _ _ | .drainRequests _ => true
  | _ => false

/-- Four bytes can count the data of the replies. -/
def Fits : BufferCall → Prop
  | .flush _ size => size < 2 ^ 32
  | _ => True

end BufferCall

/-- The channel behind a call. -/
def Channel.after (c : Channel) : BufferCall → Channel
  | .pushReply id data => if c.id = id then (c.pushReply data).2 else c
  | .pushRequest id data => if c.id = id then (c.pushRequest data).2 else c
  | .takeReply id n => if c.id = id then (c.takeReply n).2.2 else c
  | .drainRequests id => if c.id = id then c.drainRequests.2 else c
  | .flush ids size => if c.id ∈ ids ∧ c.replyClaimed = false then ReplyCut.served size c else c
  | .closeReplyRound => c.clearReply

/-- The sizing of replies and the channels whose buffers it shares with the destination. -/
structure DestinationSide where
  sizer : ReplySizer
  registry : ChannelRegistry

namespace DestinationSide

def call (s : DestinationSide) : BufferCall → DestinationSide
  | .pushReply id data => { s with registry := s.registry.modify id fun c => (c.pushReply data).2 }
  | .pushRequest id data => { s with registry := s.registry.modify id fun c => (c.pushRequest data).2 }
  | .takeReply id n => { s with registry := s.registry.modify id fun c => (c.takeReply n).2.2 }
  | .drainRequests id => { s with registry := s.registry.modify id fun c => c.drainRequests.2 }
  | .flush ids size =>
    let done := s.sizer.cut s.registry ids size
    ⟨{ s.sizer with metrics := done.metrics }, done.registry⟩
  | .closeReplyRound => { s with registry := s.registry.closeReplyRound }

/-- What a call on a channel brings of the bytes of that channel. -/
def onChannel (s : DestinationSide) (id other : ChannelId) (f : Channel → Bytes) : Bytes :=
  if other = id then ((s.registry.find? id).map f).getD [] else []

/-- Reply data that the channel accepts. -/
def repliesIn (id : ChannelId) (s : DestinationSide) : BufferCall → Bytes
  | .pushReply other data => s.onChannel id other fun c => data.take (c.pushReply data).1
  | _ => []

/-- Reply data taken off the channel, by hand and in the replies of a round. -/
def repliesOut (id : ChannelId) (s : DestinationSide) : BufferCall → Bytes
  | .takeReply other n => s.onChannel id other fun c => (c.takeReply n).1.take (c.takeReply n).2.1
  | .flush ids size =>
    (repliesOf id (s.sizer.cut s.registry ids size).replies).flatMap ReplyPayload.data
  | _ => []

/-- Request data that the channel accepts. -/
def requestsIn (id : ChannelId) (s : DestinationSide) : BufferCall → Bytes
  | .pushRequest other data => s.onChannel id other fun c => data.take (c.pushRequest data).1
  | _ => []

/-- Request data that the destination consumes. -/
def requestsOut (id : ChannelId) (s : DestinationSide) : BufferCall → Bytes
  | .drainRequests other => s.onChannel id other fun c => c.drainRequests.1
  | _ => []

end DestinationSide

namespace ReplyCut
variable {size : Nat} {id : ChannelId} {cut : ReplyCut} {c : Channel}

/-- A channel's reply is cut once, if the channel is named and has had none, and is its own. -/
theorem foldl_add_find? (ids : List ChannelId) (hc : cut.registry.find? id = some c) :
    (ids.foldl (add size) cut).registry.find? id =
        some (if id ∈ ids ∧ c.replyClaimed = false then served size c else c) ∧
      repliesOf id (ids.foldl (add size) cut).replies = repliesOf id cut.replies ++
        if id ∈ ids ∧ c.replyClaimed = false then [payload size c] else [] := by
  induction ids generalizing cut c with
  | nil => simp [hc]
  | cons other ids ih =>
    rw [List.foldl_cons]
    by_cases hid : other = id
    · subst hid
      cases hfree : c.replyClaimed with
      | true =>
        rw [add_of_claimed hc hfree, (ih hc).1, (ih hc).2]
        simp [hfree]
      | false =>
        have hcid : c.id = other := ChannelRegistry.find?_some_id hc
        have hserved : (cut.add size other).registry.find? other = some (served size c) := by
          rw [add_of_free hc hfree]
          exact ChannelRegistry.find?_modify hc hcid
        -- from here on the slot is claimed
        have hclaimed : (served size c).replyClaimed = true := rfl
        rw [(ih hserved).1, (ih hserved).2, hclaimed, add_of_free hc hfree, repliesOf_append,
          repliesOf_self]
        simp
    · have hfind : (cut.add size other).registry.find? id = some c := by
        rcases add_cases size cut other with heq | ⟨d, metrics, hd, -, heq⟩
        · rwa [heq]
        · rw [heq]
          have hserved : (served size d).id = other := ChannelRegistry.find?_some_id (c := d) hd
          exact (ChannelRegistry.find?_modify_of_ne (fun _ _ => hserved) (Ne.symm hid)).trans hc
      have hreplies : repliesOf id (cut.add size other).replies = repliesOf id cut.replies := by
        rcases add_cases size cut other with heq | ⟨d, metrics, -, -, heq⟩
        · rw [heq]
        · rw [heq, repliesOf_append, repliesOf_of_ne hid, List.append_nil]
      have hmem : id ∈ other :: ids ↔ id ∈ ids :=
        List.mem_cons.trans (or_iff_right (Ne.symm hid))
      rw [(ih hfind).1, (ih hfind).2, hreplies]
      simp only [hmem, and_self]

end ReplyCut

namespace Channel
variable {c d : Channel}

@[simp] theorem capacity_after (c : Channel) (e : BufferCall) :
    (c.after e).proxy.capacity = c.proxy.capacity := by
  cases e <;> simp only [after]
  case closeReplyRound => rfl
  all_goals split <;> rfl

theorem bounded_after (h : c.proxy.Bounded) (e : BufferCall) : (c.after e).proxy.Bounded := by
  have hdrop (n : Nat) : ({ c.proxy with replies := c.proxy.replies.drop n } : ProxyBuffers).Bounded :=
    ⟨h.1, Nat.le_trans (by simp) h.2⟩
  cases e with
  | closeReplyRound => exact h
  | pushReply id data =>
    rw [after]
    split
    · exact h.pushReply data
    · exact h
  | pushRequest id data =>
    rw [after]
    split
    · exact h.pushRequest data
    · exact h
  | takeReply id n =>
    rw [after]
    split
    · exact hdrop n
    · exact h
  | drainRequests id =>
    rw [after]
    split
    · exact ⟨Nat.zero_le _, h.2⟩
    · exact h
  | flush ids size =>
    rw [after]
    split
    · exact hdrop size
    · exact h

end Channel

namespace DestinationSide
variable {s : DestinationSide} {id : ChannelId} {c : Channel}

/-- A call changes a channel as if it were alone. -/
theorem find?_call (hc : s.registry.find? id = some c) (e : BufferCall) :
    (s.call e).registry.find? id = some (c.after e) := by
  have hid : c.id = id := ChannelRegistry.find?_some_id hc
  have hmodify {other : ChannelId} {f : Channel → Channel} (hf : ∀ d, (f d).id = d.id) :
      (s.registry.modify other f).find? id = some (if c.id = other then f c else c) := by
    rw [ChannelRegistry.find?_modify_eq fun d hd => (hf d).trans hd, hc]
    rfl
  cases e with
  | pushReply | pushRequest | takeReply | drainRequests => exact hmodify fun _ => rfl
  | flush ids size =>
    rw [Channel.after, hid]
    exact (ReplyCut.foldl_add_find? ids hc).1
  | closeReplyRound =>
    have hfind := ChannelRegistry.find?_map (f := Channel.clearReply) (fun _ => rfl)
      (s := s.registry.closeReplyRound) rfl id
    exact hfind.trans (hc ▸ rfl)

theorem find?_foldl_call (hc : s.registry.find? id = some c) (calls : List BufferCall) :
    (calls.foldl call s).registry.find? id = some (calls.foldl Channel.after c) := by
  induction calls generalizing s c with
  | nil => exact hc
  | cons e calls ih => exact ih (find?_call hc e)

theorem repliesOf_cut (hc : s.registry.find? id = some c) (ids : List ChannelId) (size : Nat) :
    repliesOf id (s.sizer.cut s.registry ids size).replies =
      if id ∈ ids ∧ c.replyClaimed = false then [ReplyCut.payload size c] else [] :=
  (ReplyCut.foldl_add_find? ids hc).2

theorem onChannel_of_find? (hc : s.registry.find? id = some c) (other : ChannelId)
    (f : Channel → Bytes) : s.onChannel id other f = if c.id = other then f c else [] := by
  rw [onChannel, hc, ChannelRegistry.find?_some_id hc]
  exact if_congr eq_comm rfl rfl

/-- A call takes from the front of the reply data and adds behind it. -/
theorem replies_call (hc : s.registry.find? id = some c) {e : BufferCall} (he : e.Fits) :
    repliesOut id s e ++ (c.after e).proxy.replies = c.proxy.replies ++ repliesIn id s e := by
  cases e with
  | pushReply other data =>
    simp only [repliesOut, repliesIn, onChannel_of_find? hc, Channel.after, List.nil_append]
    split
    · exact congrArg (c.proxy.replies ++ ·) (c.proxy.take_length_accepted _ data).symm
    · exact (List.append_nil _).symm
  | takeReply other n =>
    simp only [repliesOut, repliesIn, onChannel_of_find? hc, Channel.after, List.append_nil]
    split
    · have hvalid : (c.takeReply n).1.take (c.takeReply n).2.1 = c.proxy.replies.take n :=
        Bytes.take_fit n c.proxy.replies
      rw [hvalid]
      exact List.take_append_drop n c.proxy.replies
    · rfl
  | flush ids size =>
    simp only [repliesOut, repliesIn, repliesOf_cut hc, Channel.after, ChannelRegistry.find?_some_id hc,
      List.append_nil]
    split
    · rw [List.flatMap_singleton, ReplyPayload.data, ReplyCut.decode?_payload he]
      exact List.take_append_drop size c.proxy.replies
    · rfl
  | pushRequest | drainRequests =>
    simp only [repliesOut, repliesIn, Channel.after, List.nil_append, List.append_nil]
    split <;> rfl
  | closeReplyRound => exact (List.append_nil _).symm

/-- The same holds of the request data, all of which a drain takes. -/
theorem requests_call (hc : s.registry.find? id = some c) (e : BufferCall) :
    requestsOut id s e ++ (c.after e).proxy.requests = c.proxy.requests ++ requestsIn id s e := by
  cases e with
  | pushRequest other data =>
    simp only [requestsOut, requestsIn, onChannel_of_find? hc, Channel.after, List.nil_append]
    split
    · exact congrArg (c.proxy.requests ++ ·) (c.proxy.take_length_accepted _ data).symm
    · exact (List.append_nil _).symm
  | drainRequests other =>
    simp only [requestsOut, requestsIn, onChannel_of_find? hc, Channel.after, List.append_nil]
    split
    · exact List.append_nil _
    · rfl
  | pushReply | takeReply | flush =>
    simp only [requestsOut, requestsIn, Channel.after, List.nil_append, List.append_nil]
    split <;> rfl
  | closeReplyRound => exact (List.append_nil _).symm

/-- A run of calls on a registered channel: both streams are conserved. -/
theorem streams_run (hc : s.registry.find? id = some c) {calls : List BufferCall}
    (hfits : ∀ e ∈ calls, e.Fits) :
    outputs call (repliesOut id) s calls ++ (calls.foldl Channel.after c).proxy.replies =
        c.proxy.replies ++ outputs call (repliesIn id) s calls ∧
      outputs call (requestsOut id) s calls ++ (calls.foldl Channel.after c).proxy.requests =
        c.proxy.requests ++ outputs call (requestsIn id) s calls := by
  induction calls generalizing s c with
  | nil => exact ⟨(List.append_nil _).symm, (List.append_nil _).symm⟩
  | cons e calls ih =>
    obtain ⟨hreplies, hrequests⟩ := ih (find?_call hc e) fun d hd => hfits d (List.mem_cons_of_mem e hd)
    simp only [outputs, List.foldl_cons, List.append_assoc]
    rw [hreplies, hrequests]
    constructor
    · rw [← List.append_assoc, replies_call hc (hfits e List.mem_cons_self), List.append_assoc]
    · rw [← List.append_assoc, requests_call hc e, List.append_assoc]

end DestinationSide

namespace Channel

/-- The reply sides of two channels are alike. -/
structure SameReplies (c d : Channel) : Prop where
  id_eq : c.id = d.id
  claimed_eq : c.replyClaimed = d.replyClaimed
  capacity_eq : c.proxy.capacity = d.proxy.capacity
  replies_eq : c.proxy.replies = d.proxy.replies

/-- The request sides of two channels are alike. -/
structure SameRequests (c d : Channel) : Prop where
  id_eq : c.id = d.id
  capacity_eq : c.proxy.capacity = d.proxy.capacity
  requests_eq : c.proxy.requests = d.proxy.requests

variable {c d : Channel} {e : BufferCall}

theorem SameReplies.after (h : c.SameReplies d) (e : BufferCall) : (c.after e).SameReplies (d.after e) := by
  obtain ⟨hid, hclaimed, hcapacity, hreplies⟩ := h
  cases e with
  | closeReplyRound => exact ⟨hid, rfl, hcapacity, hreplies⟩
  | _ =>
    simp only [Channel.after, ← hid, ← hclaimed]
    split
    · constructor <;>
        simp [pushReply, ProxyBuffers.pushReply, ProxyBuffers.accepted, pushRequest,
          ProxyBuffers.pushRequest, takeReply, ProxyBuffers.takeReply, drainRequests,
          ProxyBuffers.drainRequests, ReplyCut.served, claimReply, *]
    · exact ⟨hid, hclaimed, hcapacity, hreplies⟩

/-- A call for the request data leaves the reply side as it is. -/
theorem SameReplies.after_left (h : c.SameReplies d) (he : e.onRequests = true) :
    (c.after e).SameReplies d := by
  obtain ⟨hid, hclaimed, hcapacity, hreplies⟩ := h
  cases e with
  | pushRequest | drainRequests =>
    rw [Channel.after]
    split <;> exact ⟨hid, hclaimed, hcapacity, hreplies⟩
  | pushReply | takeReply | flush | closeReplyRound => cases he

theorem SameRequests.after (h : c.SameRequests d) (e : BufferCall) :
    (c.after e).SameRequests (d.after e) := by
  obtain ⟨hid, hcapacity, hrequests⟩ := h
  cases e with
  | closeReplyRound => exact ⟨hid, hcapacity, hrequests⟩
  | flush ids size =>
    simp only [Channel.after]
    split <;> split <;> exact ⟨hid, hcapacity, hrequests⟩
  | _ =>
    simp only [Channel.after, ← hid]
    split
    · constructor <;>
        simp [pushReply, ProxyBuffers.pushReply, pushRequest, ProxyBuffers.pushRequest,
          ProxyBuffers.accepted, takeReply, ProxyBuffers.takeReply, drainRequests,
          ProxyBuffers.drainRequests, *]
    · exact ⟨hid, hcapacity, hrequests⟩

/-- A call for the reply data leaves the request side as it is. -/
theorem SameRequests.after_left (h : c.SameRequests d) (he : e.onRequests = false) :
    (c.after e).SameRequests d := by
  obtain ⟨hid, hcapacity, hrequests⟩ := h
  cases e with
  | closeReplyRound => exact ⟨hid, hcapacity, hrequests⟩
  | pushReply | takeReply | flush =>
    rw [Channel.after]
    split <;> exact ⟨hid, hcapacity, hrequests⟩
  | pushRequest | drainRequests => cases he

end Channel

namespace DestinationSide
variable {s t : DestinationSide} {id : ChannelId} {c d : Channel} {e : BufferCall}

/-- Both sides name a channel, and the two are alike in some way. -/
def Alike (id : ChannelId) (same : Channel → Channel → Prop) (s t : DestinationSide) : Prop :=
  ∃ c d, s.registry.find? id = some c ∧ t.registry.find? id = some d ∧ same c d

theorem repliesOut_eq (hc : s.registry.find? id = some c) (hd : t.registry.find? id = some d)
    (h : c.SameReplies d) : repliesOut id s e = repliesOut id t e := by
  cases e with
  | takeReply other n =>
    simp only [repliesOut, onChannel_of_find? hc, onChannel_of_find? hd, Channel.takeReply,
      ProxyBuffers.takeReply, h.id_eq, h.replies_eq]
  | flush ids size =>
    simp only [repliesOut, repliesOf_cut hc, repliesOf_cut hd, ReplyCut.payload, h.claimed_eq,
      h.replies_eq]
  | _ => rfl

theorem repliesIn_eq (hc : s.registry.find? id = some c) (hd : t.registry.find? id = some d)
    (h : c.SameReplies d) : repliesIn id s e = repliesIn id t e := by
  cases e with
  | pushReply other data =>
    simp only [repliesIn, onChannel_of_find? hc, onChannel_of_find? hd, Channel.pushReply,
      ProxyBuffers.pushReply, ProxyBuffers.accepted, h.id_eq, h.capacity_eq, h.replies_eq]
  | _ => rfl

theorem requestsOut_eq (hc : s.registry.find? id = some c) (hd : t.registry.find? id = some d)
    (h : c.SameRequests d) : requestsOut id s e = requestsOut id t e := by
  cases e with
  | drainRequests other =>
    simp only [requestsOut, onChannel_of_find? hc, onChannel_of_find? hd, Channel.drainRequests,
      ProxyBuffers.drainRequests, h.id_eq, h.requests_eq]
  | _ => rfl

theorem requestsIn_eq (hc : s.registry.find? id = some c) (hd : t.registry.find? id = some d)
    (h : c.SameRequests d) : requestsIn id s e = requestsIn id t e := by
  cases e with
  | pushRequest other data =>
    simp only [requestsIn, onChannel_of_find? hc, onChannel_of_find? hd, Channel.pushRequest,
      ProxyBuffers.pushRequest, ProxyBuffers.accepted, h.id_eq, h.capacity_eq, h.requests_eq]
  | _ => rfl

/-- Calls that leave one side of a channel as it is and bring nothing of it can be left out of a run. -/
theorem outputs_filter_alike {same : Channel → Channel → Prop} {p : BufferCall → Bool}
    {output : DestinationSide → BufferCall → Bytes}
    (hafter : ∀ c d e, same c d → same (c.after e) (d.after e))
    (hleft : ∀ c d e, p e = false → same c d → same (c.after e) d)
    (houtput : ∀ s t c d e, s.registry.find? id = some c → t.registry.find? id = some d → same c d →
      output s e = output t e)
    (hnone : ∀ s e, p e = false → output s e = [])
    (hc : s.registry.find? id = some c) (hrefl : same c c) (calls : List BufferCall) :
    Alike id same (calls.foldl call s) ((calls.filter p).foldl call s) ∧
      outputs call output s calls = outputs call output s (calls.filter p) := by
  refine outputs_filter ?_ ?_ ⟨c, c, hc, hc, hrefl⟩ calls
  · rintro s t e - ⟨c, d, hc, hd, h⟩
    exact ⟨⟨_, _, find?_call hc e, find?_call hd e, hafter c d e h⟩, houtput s t c d e hc hd h⟩
  · rintro s t e he ⟨c, d, hc, hd, h⟩
    exact ⟨⟨_, d, find?_call hc e, hd, hleft c d e he h⟩, hnone s e he⟩

/-- What becomes of the reply data of a channel in a run. -/
structure SameReplyStream (id : ChannelId) (s : DestinationSide) (calls others : List BufferCall) :
    Prop where
  in_eq : outputs call (repliesIn id) s calls = outputs call (repliesIn id) s others
  out_eq : outputs call (repliesOut id) s calls = outputs call (repliesOut id) s others
  held : Alike id Channel.SameReplies (calls.foldl call s) (others.foldl call s)

/-- What becomes of the request data of a channel in a run. -/
structure SameRequestStream (id : ChannelId) (s : DestinationSide) (calls others : List BufferCall) :
    Prop where
  in_eq : outputs call (requestsIn id) s calls = outputs call (requestsIn id) s others
  out_eq : outputs call (requestsOut id) s calls = outputs call (requestsOut id) s others
  held : Alike id Channel.SameRequests (calls.foldl call s) (others.foldl call s)

/-- The reply data does not depend on the calls for the request data. -/
theorem sameReplyStream (hc : s.registry.find? id = some c) (calls : List BufferCall) :
    SameReplyStream id s calls (calls.filter fun e => !e.onRequests) := by
  have hfilter (output : DestinationSide → BufferCall → Bytes)
      (houtput : ∀ s t c d e, s.registry.find? id = some c → t.registry.find? id = some d →
        c.SameReplies d → output s e = output t e)
      (hnone : ∀ s e, e.onRequests = true → output s e = []) :=
    outputs_filter_alike (p := fun e => !e.onRequests) (fun c d e h => h.after e)
      (fun c d e he h => h.after_left (by simpa using he)) houtput
      (fun s e he => hnone s e (by simpa using he)) hc ⟨rfl, rfl, rfl, rfl⟩ calls
  have hin := hfilter (repliesIn id) (fun s t c d e hc hd h => repliesIn_eq hc hd h) fun s e he => by
    cases e <;> first | rfl | cases he
  have hout := hfilter (repliesOut id) (fun s t c d e hc hd h => repliesOut_eq hc hd h) fun s e he => by
    cases e <;> first | rfl | cases he
  exact ⟨hin.2, hout.2, hin.1⟩

/-- The request data does not depend on the calls for the reply data. -/
theorem sameRequestStream (hc : s.registry.find? id = some c) (calls : List BufferCall) :
    SameRequestStream id s calls (calls.filter BufferCall.onRequests) := by
  have hfilter (output : DestinationSide → BufferCall → Bytes)
      (houtput : ∀ s t c d e, s.registry.find? id = some c → t.registry.find? id = some d →
        c.SameRequests d → output s e = output t e)
      (hnone : ∀ s e, e.onRequests = false → output s e = []) :=
    outputs_filter_alike (fun c d e h => h.after e) (fun c d e he h => h.after_left he) houtput hnone
      hc ⟨rfl, rfl, rfl⟩ calls
  have hin := hfilter (requestsIn id) (fun s t c d e hc hd h => requestsIn_eq hc hd h) fun s e he => by
    cases e <;> first | rfl | cases he
  have hout := hfilter (requestsOut id) (fun s t c d e hc hd h => requestsOut_eq hc hd h) fun s e he => by
    cases e <;> first | rfl | cases he
  exact ⟨hin.2, hout.2, hin.1⟩

end DestinationSide

/-- What a channel's buffers of a capacity answer to the next call, whichever it is. -/
structure Channel.Exact (c : Channel) (capacity : Nat) : Prop where
  bounded : c.proxy.replies.length ≤ capacity ∧ c.proxy.requests.length ≤ capacity
  pushReply_eq (data : Bytes) :
    (c.pushReply data).1 = min data.length (capacity - c.proxy.replies.length)
  pushRequest_eq (data : Bytes) :
    (c.pushRequest data).1 = min data.length (capacity - c.proxy.requests.length)
  length_chunk (n : Nat) : (c.takeReply n).1.length = n ∧ (c.takeReply n).2.1 ≤ n
  zeros_behind (n : Nat) :
    (c.takeReply n).1.drop (c.takeReply n).2.1 = List.replicate (n - (c.takeReply n).2.1) 0
  decode?_chunk (n : Nat) : n < 2 ^ 32 →
    ReplyPayload.decode? (ReplyPayload.encode (c.takeReply n).1 (c.takeReply n).2.1) =
      some ((c.takeReply n).1.take (c.takeReply n).2.1)

theorem Channel.exact_of_bounded {c : Channel} {capacity : Nat} (h : c.proxy.Bounded)
    (hcapacity : c.proxy.capacity = capacity) : c.Exact capacity := by
  subst hcapacity
  exact {
    bounded := ⟨h.2, h.1⟩
    pushReply_eq data := c.proxy.length_accepted c.proxy.replies data
    pushRequest_eq data := c.proxy.length_accepted c.proxy.requests data
    length_chunk n := ⟨Bytes.length_fit n c.proxy.replies, Nat.min_le_right _ _⟩
    zeros_behind n := Bytes.drop_fit n c.proxy.replies
    decode?_chunk n hn :=
      (ReplyCut.decode?_payload hn c).trans (congrArg some (Bytes.take_fit n c.proxy.replies).symm) }

namespace DestinationSide
variable {s : DestinationSide} {id : ChannelId} {capacity : Nat} {calls : List BufferCall}

/-- In every run of calls, from a new channel on: what was taken off a buffer and what it holds is what
it accepted, in order; the next call finds the buffers within their capacity and answers exactly; the
reply of a round is a chunk like one taken by hand; and the two buffers do not depend on each other. -/
theorem streams_conserved (h : s.registry.find? id = some (.new id capacity))
    (hfits : ∀ e ∈ calls, e.Fits) :
    ∃ c, (calls.foldl call s).registry.find? id = some c ∧
      outputs call (repliesOut id) s calls ++ c.proxy.replies = outputs call (repliesIn id) s calls ∧
      outputs call (requestsOut id) s calls ++ c.proxy.requests = outputs call (requestsIn id) s calls ∧
      c.Exact capacity ∧
      (∀ ids size, repliesOf id
          ((calls.foldl call s).sizer.cut (calls.foldl call s).registry ids size).replies =
        if id ∈ ids ∧ c.replyClaimed = false then
          [ReplyPayload.encode (c.takeReply size).1 (c.takeReply size).2.1] else []) ∧
      SameReplyStream id s calls (calls.filter fun e => !e.onRequests) ∧
      SameRequestStream id s calls (calls.filter BufferCall.onRequests) := by
  have hfind := find?_foldl_call h calls
  obtain ⟨hreplies, hrequests⟩ := streams_run h hfits
  have hbounded := @foldl_invariant _ _ Channel.after (fun c => c.proxy.Bounded)
    (fun c e hc => Channel.bounded_after hc e) (.new id capacity) calls
    (ProxyBuffers.bounded_empty capacity)
  have hcapacity := @foldl_invariant _ _ Channel.after (fun c => c.proxy.capacity = capacity)
    (fun c e hc => (c.capacity_after e).trans hc) (.new id capacity) calls rfl
  exact ⟨_, hfind, hreplies, hrequests, Channel.exact_of_bounded hbounded hcapacity,
    fun ids size => repliesOf_cut hfind ids size, sameReplyStream h calls, sameRequestStream h calls⟩

/-- A buffer of four bytes, filled beyond its capacity and emptied by a round, by hand and by a drain. -/
def fourByteCalls : List BufferCall :=
  [.pushReply 1 [0, 7, 0, 9, 3], .pushRequest 1 [5, 0], .flush [2, 1, 1] 3, .flush [1] 3,
    .closeReplyRound, .pushReply 1 [8], .drainRequests 1, .takeReply 1 1, .pushRequest 1 [6]]

/-- One channel with such buffers. -/
def fourByteChannel : DestinationSide :=
  ⟨.start ⟨250, 64, 0.5, 20000, 0.5, 16, 4, 1024⟩, (ChannelRegistry.empty 4).add 1⟩

theorem streams_conserved_fourBytes :
    fourByteChannel.registry.find? 1 = some (.new 1 4) ∧ (∀ e ∈ fourByteCalls, e.Fits) ∧
      ∃ c : Channel, c.Exact 4 ∧ c.proxy.replies = [8] ∧
        outputs call (repliesOut 1) fourByteChannel fourByteCalls ++ c.proxy.replies = [0, 7, 0, 9, 8] ∧
        outputs call (requestsOut 1) fourByteChannel fourByteCalls ++ c.proxy.requests = [5, 0, 6] := by
  have hfits : ∀ e ∈ fourByteCalls, e.Fits := by
    simp [fourByteCalls, BufferCall.Fits]
  have hnew : fourByteChannel.registry.find? 1 = some (.new 1 4) := rfl
  obtain ⟨c, hc, hreplies, hrequests, hexact, -⟩ := streams_conserved hnew hfits
  have hheld : (fourByteCalls.foldl call fourByteChannel).registry.find? 1 =
      some ⟨1, false, false, false, ⟨4, [6], [8]⟩⟩ := rfl
  cases hc.symm.trans hheld
  exact ⟨hnew, hfits, _, hexact, rfl, hreplies.trans rfl, hrequests.trans rfl⟩

end DestinationSide
end MixRelay
