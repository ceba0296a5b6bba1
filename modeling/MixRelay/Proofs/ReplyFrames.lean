import MixRelay.InboundEdge
import MixRelay.Proofs.EdgeIdentifiers
import MixRelay.Proofs.FrameLines
import MixRelay.Proofs.ReplySlots

/-!
# Replies on a stream of frames

A stream that the sender of replies has written is read frame by frame. As long as the next frame is
not all there, nothing is received; once it is, its reply is taken or passed over as a whole.
-/
namespace MixRelay

namespace Frame
variable {maxLength : Nat} {ks ks' : HeaderKeystream} {input later : Bytes}

/-- The bytes of replies in a row, each with the identifier that it goes to. -/
def encodeReplies (ks : HeaderKeystream) (replies : List (ChannelId × Bytes)) :
    Bytes × HeaderKeystream :=
  encodeAll ks (replies.map fun r => (.ofChannel .reply r.1, r.2))

theorem encodeReplies_concat (ks : HeaderKeystream) (replies : List (ChannelId × Bytes))
    (r : ChannelId × Bytes) :
    encodeReplies ks (replies ++ [r]) =
      ((encodeReplies ks replies).1 ++
          (encode (encodeReplies ks replies).2 (.ofChannel .reply r.1) r.2).1,
        (encode (encodeReplies ks replies).2 (.ofChannel .reply r.1) r.2).2) := by
  rw [encodeReplies, List.map_append]
  exact encodeAll_concat ks _ _ _

/-- The head of a reply as it is read. -/
def replyHead (r : ChannelId × Bytes) : FrameHead :=
  ⟨.reply, r.1, Bytes.fit headPayloadLength r.2, length r.2.length⟩

/-- The next frame is a reply, and some bytes follow it. -/
def Starts (maxLength : Nat) (ks : HeaderKeystream) (input : Bytes) (r : ChannelId × Bytes)
    (behind : Bytes) : Prop :=
  readHead maxLength ks input =
    ⟨.ok (replyHead r), r.2.drop headPayloadLength ++ behind, ks.advance⟩

/-- In a stream of replies of which some bytes have arrived, the first is not there yet, or it is all
there and the others follow. -/
theorem lacks_or_starts (maxLength : Nat) {replies : List (ChannelId × Bytes)}
    (h : encodeReplies ks replies = (input ++ later, ks'))
    (hword : ∀ r ∈ replies, length r.2.length < 2 ^ 32) :
    Lacks maxLength ks input ∨ ∃ r more behind, replies = r :: more ∧
      Starts maxLength ks input r behind ∧ encodeReplies ks.advance more = (behind ++ later, ks') := by
  let typed (r : ChannelId × Bytes) : TypedFrame := ⟨.reply, r.1, r.2⟩
  have hframes : TypedFrame.encodeAll ks (replies.map typed) = (input ++ later, ks') := by
    rw [TypedFrame.encodeAll, List.map_map]
    exact h
  have hwords : ∀ f ∈ replies.map typed, length f.payload.length < 2 ^ 32 := by
    intro f hf
    obtain ⟨r, hr, rfl⟩ := List.mem_map.1 hf
    exact hword r hr
  rcases TypedFrame.lacks_or_leads maxLength hframes hwords with
    hlacks | ⟨f, more, behind, hmore, hleads, hrest⟩
  · exact .inl hlacks
  · obtain ⟨r, rest, rfl, rfl, rfl⟩ := List.map_eq_cons_iff.1 hmore
    rw [TypedFrame.encodeAll, List.map_map] at hrest
    exact .inr ⟨r, rest, behind, rfl, hleads, hrest⟩

variable {r : ChannelId × Bytes} {behind : Bytes}

theorem Starts.leads (h : Starts maxLength ks input r behind) :
    TypedFrame.Leads maxLength ks input ⟨.reply, r.1, r.2⟩ behind := h

theorem Starts.lt_length (h : Starts maxLength ks input r behind) : 0 < input.length :=
  h.leads.lt_length

theorem replyHead_remaining (r : ChannelId × Bytes) (behind : Bytes) :
    (replyHead r).remaining = (r.2.drop headPayloadLength).length ∧
      (replyHead r).remaining ≤ (r.2.drop headPayloadLength ++ behind).length :=
  TypedFrame.head_remaining ⟨.reply, r.1, r.2⟩ behind

theorem Starts.next? (h : Starts maxLength ks input r behind) :
    next? maxLength ks input = some (replyHead r, padded r.2) := h.leads.next?

end Frame

namespace OutboundState
variable {maxFrameLength : Nat} {table : EdgeIdTable} {st : OutboundState} {ks : HeaderKeystream}
  {input behind : Bytes} {r : ChannelId × Bytes}

/-- Of a frame that is not all there nothing is handed on. -/
theorem receive_of_lacks (st : OutboundState) (table : EdgeIdTable)
    (h : Frame.Lacks maxFrameLength ks input) :
    ∃ e t rest ks', st.receive maxFrameLength table ks input = ⟨some e, t, [], rest, ks'⟩ := by
  cases hhead : (Frame.readHead maxFrameLength ks input).answer with
  | error e =>
    rw [receive, receiveFrame_of_error hhead]
    exact ⟨e, _, _, _, rfl⟩
  | ok head =>
    have hshort := h head hhead
    rw [receive, receiveFrame_of_ok hhead]
    rcases handle_cases st table head (Frame.readHead maxFrameLength ks input).rest with
      ⟨hrefuse, -⟩ | ⟨channel, -, -, -, htake⟩
    · rw [hrefuse, refuse, Handled.skip_of_short hshort]
      exact ⟨_, _, _, _, rfl⟩
    · rw [htake, takeReply, Handled.take_of_short hshort]
      exact ⟨_, _, _, _, rfl⟩

theorem failure_of_lacks (h : Frame.Lacks maxFrameLength ks input) :
    (st.receive maxFrameLength table ks input).failure ≠ none := by
  obtain ⟨e, t, rest, ks', hreceive⟩ := st.receive_of_lacks table h
  rw [hreceive]
  exact nofun

/-- A reply that is all there is handed on if its channel's slot is free, and then it claims it. -/
theorem receive_of_starts (st : OutboundState) (table : EdgeIdTable)
    (h : Frame.Starts maxFrameLength ks input r behind) :
    let got := st.receive maxFrameLength table ks input
    got.failure = none ∧ got.rest = behind ∧ got.keystream = ks.advance ∧
      ((got.handedOn = [] ∧ got.state.registry = st.registry ∧
          ∀ c, st.channel? table r.1 = some c → c.replyClaimed = true) ∨
        ∃ c, st.channel? table r.1 = some c ∧ c.replyClaimed = false ∧
          got.handedOn = [.reply c.id (Frame.padded r.2)] ∧
          got.state.registry = st.claimed c.id) := by
  obtain ⟨hremaining, hlong⟩ := Frame.replyHead_remaining r behind
  have hhead : (Frame.readHead maxFrameLength ks input).answer = .ok (Frame.replyHead r) :=
    congrArg ReadResult.answer h
  dsimp only
  rw [receive, receiveFrame_of_ok hhead, h]
  rcases handle_cases st table (Frame.replyHead r) (r.2.drop Frame.headPayloadLength ++ behind) with
    ⟨hrefuse, hclaimed⟩ | ⟨c, -, hc, hfree, htake⟩
  · rw [hrefuse, refuse, Handled.skip_of_long hlong, hremaining, List.drop_left]
    exact ⟨rfl, rfl, rfl, .inl ⟨rfl, rfl, fun c => hclaimed c rfl⟩⟩
  · rw [htake, takeReply, Handled.take_of_long hlong, hremaining, List.take_left, List.drop_left]
    exact ⟨rfl, rfl, rfl, .inr ⟨c, hc, hfree, rfl, rfl⟩⟩

end OutboundState

/-- Recovering from a failure is another connection, or none. -/
theorem OutboundEdge.connection_recover_ne {e : OutboundEdge} (h : e.isConnected = true) :
    (e.recover e.connection.generation).connection ≠ e.connection := by
  have hc : e.connection.isConnected = true := h
  have hrecover : (e.recover e.connection.generation).connection =
      e.connection.takeDown.install.2 := by
    simp [recover, EdgeConnection.invalidate, hc, dial]
  rw [hrecover]
  intro heq
  have hdown : e.connection.takeDown.takeDown = e.connection.takeDown := by
    have hnone := e.connection.isConnected_takeDown
    rw [EdgeConnection.isConnected, Option.isSome_eq_false_iff, Option.isNone_iff_eq_none] at hnone
    generalize e.connection.takeDown = down at hnone
    rw [EdgeConnection.takeDown, hnone]
  unfold EdgeConnection.install at heq
  rw [hdown] at heq
  dsimp only at heq
  split at heq
  · have hlive := e.connection.isConnected_takeDown
    rw [← heq] at hc
    exact absurd (hc.symm.trans hlive) nofun
  · have hgeneration := congrArg EdgeConnection.generation heq
    simp only [EdgeConnection.generation_takeDown] at hgeneration
    omega

namespace ReplyPath
variable {s : ReplyPath} {r : ChannelId × Bytes} {behind : Bytes}

/-- Without the next frame nothing is received, unless the connection is given up. -/
theorem receiveNext?_of_lacks (hc : s.edge.isConnected = true)
    (h : Frame.Lacks s.edge.maxFrameLength s.keystream s.edge.unread)
    (hkept : s.receive.edge.connection = s.edge.connection) :
    s.edge.receiveNext? s.registry = none := by
  have hfailure : s.reception.failure.isSome = true :=
    Option.isSome_iff_ne_none.2 (OutboundState.failure_of_lacks h)
  have heq := receiveNext?_eq hc
  rw [if_pos hfailure] at heq
  split at heq
  · exact heq
  · split at heq
    · exact heq
    · rw [receive_some heq] at hkept
      exact absurd hkept (OutboundEdge.connection_recover_ne (e := s.passed) hc)

/-- The next frame is received once it is all there. -/
theorem receiveNext?_of_starts (hc : s.edge.isConnected = true)
    (h : Frame.Starts s.edge.maxFrameLength s.keystream s.edge.unread r behind) :
    s.edge.receiveNext? s.registry =
      some (s.reception.handedOn, s.passed, s.reception.state.registry) := by
  have hfailure : s.reception.failure = none :=
    (OutboundState.receive_of_starts s.receiver s.edge.table h).1
  have hunread : s.edge.unread.isEmpty = false :=
    List.isEmpty_eq_false_iff.2 (List.ne_nil_of_length_pos h.lt_length)
  rw [receiveNext?_eq hc, hunread, Reception.awaitsMore, hfailure]
  rfl

end ReplyPath

namespace InboundState
variable {s : InboundSettings} {st : InboundState}

theorem skip_distinct (h : NamesDistinct st.table.pairs) {after : Nat → InboundState}
    (ha : ∀ n, NamesDistinct (after n).table.pairs) (handedOn : List Message) (head : FrameHead)
    (input : Bytes) :
    NamesDistinct (Handled.skip st after handedOn head input).state.table.pairs :=
  Handled.skip_invariant (P := fun t : InboundState => NamesDistinct t.table.pairs) h ha handedOn head input

theorem take_distinct (h : NamesDistinct st.table.pairs)
    {after : Bytes → InboundState × List Message}
    (ha : ∀ payload, NamesDistinct (after payload).1.table.pairs) (head : FrameHead) (input : Bytes) :
    NamesDistinct (Handled.take st after head input).state.table.pairs :=
  Handled.take_invariant (P := fun t : InboundState => NamesDistinct t.table.pairs) h ha head input

/-- No frame that is received gives an identifier to two channels, or two to one. -/
theorem handle_distinct (h : NamesDistinct st.table.pairs) (head : FrameHead) (input : Bytes) :
    NamesDistinct (st.handle s head input).state.table.pairs := by
  have hrefuse : NamesDistinct (st.refuse head input).state.table.pairs :=
    skip_distinct h (fun _ => by exact h) [] head input
  unfold handle
  split
  · unfold onEstablish
    split
    · exact hrefuse
    · split
      · exact take_distinct h (fun _ => EdgeIdTable.distinct_insert h head.field _) head input
      · exact hrefuse
  · unfold onMessage
    split
    · exact hrefuse
    · split
      · exact hrefuse
      · split
        · exact take_distinct h (fun _ => by exact h) head input
        · exact hrefuse
  · unfold onRelease
    dsimp only
    split
    · exact skip_distinct h (fun _ => by exact h) _ head input
    · exact skip_distinct h (fun _ => EdgeIdTable.distinct_dropEdge h _) _ head input
  · exact skip_distinct h (fun _ => by exact h) _ head input
  · exact hrefuse

theorem receive_distinct (h : NamesDistinct st.table.pairs) (ks : HeaderKeystream) (input : Bytes) :
    NamesDistinct (st.receive s ks input).state.table.pairs := by
  cases hread : (Frame.readHead s.maxFrameLength ks input).answer with
  | error e =>
    rw [receive, receiveFrame_of_error hread]
    exact h
  | ok head =>
    rw [receive, receiveFrame_of_ok hread]
    exact handle_distinct h head _

end InboundState

/-- A request that is received without failure. -/
theorem InboundEdge.receiveNext?_of_receive {e : InboundEdge} {r : ChannelRegistry} {t : InboundState}
    {handedOn : List Message} {rest : Bytes} {ks : HeaderKeystream} (hc : e.isConnected = true)
    (hu : e.unread ≠ []) (h : InboundState.receive e.settings ⟨r, e.table, e.metrics, e.draws⟩
      (e.receiver.forGeneration e.connection.generation).keystream e.unread =
        ⟨none, t, handedOn, rest, ks⟩) :
    e.receiveNext? r = some (handedOn, { e with
      receiver := ⟨ks, e.connection.generation⟩
      table := t.table
      metrics := t.metrics
      draws := t.draws
      unread := rest }, t.registry) := by
  have hempty : e.unread.isEmpty = false := List.isEmpty_eq_false_iff.2 hu
  unfold receiveNext?
  dsimp only
  rw [hc, hempty, h, EdgeCipher.generation_forGeneration]
  rfl

/-- Receiving requests leaves the replies alone. -/
theorem InboundEdge.receiveNext?_frame {e e' : InboundEdge} {r r' : ChannelRegistry}
    {handedOn : List Message} (h : e.receiveNext? r = some (handedOn, e', r')) :
    e'.sender = e.sender ∧ e'.inHand = e.inHand ∧ e'.replies = e.replies ∧
      (NamesDistinct e.table.pairs → NamesDistinct e'.table.pairs) := by
  unfold receiveNext? at h
  split at h
  · cases h
  · dsimp only at h
    split at h
    · cases h
    · cases h
      have htable (hd : NamesDistinct e.table.pairs) := @InboundState.receive_distinct e.settings
        ⟨r, e.table, e.metrics, e.draws⟩ hd
        (e.receiver.forGeneration e.connection.generation).keystream e.unread
      split
      · exact ⟨rfl, rfl, rfl, htable⟩
      · exact ⟨rfl, rfl, rfl, htable⟩

namespace OutboundEdge
variable {e e' : OutboundEdge}

theorem recover_table (e : OutboundEdge) (generation : Nat) : (e.recover generation).table = e.table := by
  unfold recover
  dsimp only
  split <;> rfl

theorem receiveNext?_table {r r' : ChannelRegistry} {handedOn : List Message}
    (h : e.receiveNext? r = some (handedOn, e', r')) : e'.table = e.table := by
  unfold receiveNext? at h
  split at h
  · cases h
  · dsimp only at h
    split at h
    · cases h
    · cases h
      split
      · exact recover_table _ _
      · rfl

/-- Sending requests leaves alone what is received, and gives no channel two names on the edge. -/
theorem sendNext?_frame {bytes : Bytes} (h : e.sendNext? = some (bytes, e')) :
    e'.unread = e.unread ∧ e'.receiver = e.receiver ∧
      (NamesDistinct e.table.pairs → NamesDistinct e'.table.pairs) := by
  unfold sendNext? at h
  split at h
  · split at h
    · cases h
      refine ⟨rfl, rfl, fun hd => ?_⟩
      dsimp only
      split
      · exact EdgeIdTable.distinct_dropLocal hd _
      · exact hd
    · cases h
  · split at h
    · cases h
    · rename_i m rest _
      cases h
      refine ⟨rfl, rfl, fun hd => ?_⟩
      cases m with
      | establish c payload => exact EdgeIdTable.distinct_allocate hd c e.draws
      | _ => exact hd

end OutboundEdge

namespace ReplyPath
variable {s : ReplyPath} {shuffle : List Message → List Message} {e : ReplyPathEvent}

/-- The mixer, the sender and the channels leave alone what is received. -/
theorem next_frame (harrive : ∀ bytes, e ≠ .arrive bytes) (hreceive : e ≠ .receive) :
    (s.next shuffle e).edge.unread = s.edge.unread ∧
      (s.next shuffle e).edge.receiver = s.edge.receiver := by
  cases e with
  | arrive bytes => exact absurd rfl (harrive bytes)
  | receive => exact absurd rfl hreceive
  | finish =>
    rw [next, OutboundEdge.finish]
    split <;> exact ⟨rfl, rfl⟩
  | take =>
    rw [next]
    split <;> exact ⟨rfl, rfl⟩
  | timeout =>
    rw [next]
    split <;> exact ⟨rfl, rfl⟩
  | send =>
    rw [next, send]
    split
    · exact ⟨rfl, rfl⟩
    · rename_i hsome
      obtain ⟨hunread, hreceiver, -⟩ := OutboundEdge.sendNext?_frame hsome
      exact ⟨hunread, hreceiver⟩
  | _ => exact ⟨rfl, rfl⟩

theorem next_distinct (h : NamesDistinct s.edge.table.pairs) (e : ReplyPathEvent) :
    NamesDistinct (s.next shuffle e).edge.table.pairs := by
  cases e with
  | arrive bytes =>
    rw [next, OutboundEdge.arrive]
    split <;> exact h
  | finish =>
    rw [next, OutboundEdge.finish]
    split <;> exact h
  | receive =>
    rw [next, receive]
    split
    · exact h
    · rename_i hsome
      dsimp only
      rwa [OutboundEdge.receiveNext?_table hsome]
  | take =>
    rw [next]
    split <;> exact h
  | timeout =>
    rw [next]
    split <;> exact h
  | send =>
    rw [next, send]
    split
    · exact h
    · rename_i hsome
      exact (OutboundEdge.sendNext?_frame hsome).2.2 h
  | _ => exact h

end ReplyPath

end MixRelay
