import MixRelay.MessageOrder
import MixRelay.Proofs.ReplyFrames
import MixRelay.Proofs.ReplyRounds

/-!
# The last relay and the one before it

The last relay sizes, mixes and writes replies, and the relay before it receives them. Each step of
either hands the replies of a channel on in their order, or leaves them where they are.
-/
namespace MixRelay

/-- The reply side of the last relay, the wire, and the reply side of the relay before. -/
structure ReplyHop where
  registry : ChannelRegistry
  sizer : ReplySizer
  sized : List Message
  mixer : ReplyMixer
  edge : InboundEdge
  wire : Bytes
  previous : ReplyPath

/-- Destinations fill buffers; the sizing, the mixer and the sender of the last relay act; some bytes
of the wire arrive; request bytes come in and a frame of them is received; the relay before acts. -/
inductive ReplyHopEvent
  | fill (id : ChannelId) (data : Bytes)
  | poll (elapsed : Bool)
  | collect (shuffle : Shuffle)
  | lapse (shuffle : Shuffle)
  | write
  | deliver (n : Nat)
  | request (bytes : Bytes)
  | hear
  | previous (shuffle : Shuffle) (event : ReplyPathEvent)

/-- What a run starts with. -/
structure ReplyHopSettings where
  sizing : SizingSettings
  inbound : InboundSettings
  draws : Draws
  proxyCapacity : Nat
  key : EdgeKey
  previousMaxFrameLength : Nat
  previousDraws : Draws
  previousProxyCapacity : Nat

/-- A channel has a name on the last relay, one on the edge, and one on the relay before. -/
structure ChannelLink where
  lastId : ChannelId
  edgeId : ChannelId
  previousId : ChannelId

namespace ReplyHop

/-- Both relays know no channel, and the edge between them is connected. -/
def start (c : ReplyHopSettings) : ReplyHop :=
  ⟨.empty c.proxyCapacity, .start c.sizing, [], .start true, (InboundEdge.start c.inbound c.key c.draws).accept,
    [], .start c.previousMaxFrameLength c.key c.previousDraws c.previousProxyCapacity⟩

def poll (s : ReplyHop) (elapsed : Bool) : ReplyHop :=
  match s.sizer.poll? s.registry elapsed with
  | none => s
  | some (round, sizer, r) =>
    { s with registry := r, sizer := sizer, sized := s.sized ++ ReplySizer.messages round }

def mix (shuffle : Shuffle) (s : ReplyHop) (rest : List Message) (e : MixerEvent) :
    ReplyHop :=
  let t := s.mixer.step shuffle.order s.registry.establishedChannels.length e
  { s with
    sized := rest
    mixer := t.mixer
    edge := { s.edge with replies := s.edge.replies ++ t.sent }
    registry := t.close s.registry }

def write (s : ReplyHop) : ReplyHop :=
  match s.edge.sendNext? with
  | none => s
  | some (bytes, e) => { s with edge := e, wire := s.wire ++ bytes }

def hear (s : ReplyHop) : ReplyHop :=
  match s.edge.receiveNext? s.registry with
  | none => s
  | some (_, e, r) => { s with edge := e, registry := r }

def next (s : ReplyHop) : ReplyHopEvent → ReplyHop
  | .fill id data => { s with registry := s.registry.modify id fun c => (c.pushReply data).2 }
  | .poll elapsed => s.poll elapsed
  | .collect shuffle =>
    match s.sized with
    | m :: rest => s.mix shuffle rest (.arrival m)
    | [] => s
  | .lapse shuffle => s.mix shuffle s.sized .timeout
  | .write => s.write
  | .deliver n => { s with
    wire := s.wire.drop n
    previous := { s.previous with edge := s.previous.edge.arrive (s.wire.take n) } }
  | .request bytes => { s with edge := s.edge.arrive bytes }
  | .hear => s.hear
  | .previous shuffle e => { s with previous := s.previous.next shuffle.order e }

/-- The data that the sizing takes from a channel's buffer. -/
def taken (id : ChannelId) (s : ReplyHop) : ReplyHopEvent → Bytes
  | .poll elapsed => s.registry.drawn (s.poll elapsed).registry id
  | _ => []

/-- The payloads that the receiver enqueues for a channel. -/
def enqueued (id : ChannelId) (s : ReplyHop) : ReplyHopEvent → List Bytes
  | .previous _ .receive =>
    match s.previous.edge.receiveNext? s.previous.registry with
    | none => []
    | some (handedOn, _, _) => repliesOf id handedOn
  | _ => []

/-- Is the channel's reply slot on the previous relay free? -/
def slotFree (s : ReplyHop) (id : ChannelId) : Bool :=
  ((s.previous.registry.find? id).map fun c => !c.replyClaimed).getD false

/-- The payloads of the replies to a channel that reach the receiver, each with whether it finds the
slot free. -/
def arrived (l : ChannelLink) (s : ReplyHop) : ReplyHopEvent → List (Bool × Bytes)
  | .previous _ .receive =>
    match Frame.next? s.previous.edge.maxFrameLength s.previous.keystream s.previous.edge.unread with
    | none => []
    | some (head, payload) =>
      if head.kind = .reply ∧ head.field = l.edgeId then [(s.slotFree l.previousId, payload)] else []
  | _ => []

end ReplyHop

namespace ChannelLink

/-- The channel is registered on both relays, and the edge knows it. -/
structure Linked (l : ChannelLink) (s : ReplyHop) : Prop where
  last : s.registry.contains l.lastId = true
  lastTable : s.edge.table.edgeId? l.lastId = some l.edgeId
  previous : s.previous.registry.contains l.previousId = true
  previousTable : s.previous.edge.table.localId? l.edgeId = some l.previousId

/-- The last relay has not made the channel, and its name on the edge is no other channel's. -/
structure Unborn (l : ChannelLink) (s : ReplyHop) : Prop where
  last : s.registry.contains l.lastId = false
  lastTable : ∀ c, s.edge.table.edgeId? c ≠ some l.edgeId
  previousTable : ∀ edge, s.previous.edge.table.localId? edge = some l.previousId → edge = l.edgeId

/-- Until the channel is registered on both relays it is new on the last one; then it stays. -/
structure Stays (l : ChannelLink) (s : ReplyHop) (e : ReplyHopEvent) : Prop where
  known : l.Linked s ∨ l.Unborn s
  kept : l.Linked s → l.Linked (s.next e)

theorem Stays.unborn_and {l : ChannelLink} {s : ReplyHop} {e : ReplyHopEvent} (h : l.Stays s e)
    {p : Prop} (hp : l.Linked s ∨ p) : l.Linked s ∨ l.Unborn s ∧ p := by
  rcases hp with hlinked | hp
  · exact .inl hlinked
  · exact h.known.imp_right fun hunborn => ⟨hunborn, hp⟩

end ChannelLink

namespace ReplyHop

/-- No connection is lost, and only what is on the wire arrives. -/
structure Keeps (s : ReplyHop) (e : ReplyHopEvent) : Prop where
  last : (s.next e).edge.connection = s.edge.connection
  previous : (s.next e).previous.edge.connection = s.previous.edge.connection
  arrivals : ∀ shuffle bytes, e ≠ .previous shuffle (.arrive bytes)
  ending : ∀ shuffle, e ≠ .previous shuffle .finish

/-- What each event of a run finds. -/
def Fit (l : ChannelLink) (s : ReplyHop) (e : ReplyHopEvent) : Prop := s.Keeps e ∧ l.Stays s e

end ReplyHop

/-- The payloads of the replies to one identifier of the edge. -/
def payloadsUnder (edge : ChannelId) (replies : List (ChannelId × Bytes)) : List Bytes :=
  replies.filterMap fun r => if r.1 = edge then some r.2 else none

@[simp] theorem payloadsUnder_append (edge : ChannelId) (first second : List (ChannelId × Bytes)) :
    payloadsUnder edge (first ++ second) = payloadsUnder edge first ++ payloadsUnder edge second := by
  simp [payloadsUnder]

theorem payloadsUnder_self (edge : ChannelId) (payload : Bytes) :
    payloadsUnder edge [(edge, payload)] = [payload] := by
  simp [payloadsUnder]

theorem payloadsUnder_of_ne {edge other : ChannelId} (h : other ≠ edge) (payload : Bytes) :
    payloadsUnder edge [(other, payload)] = [] := by
  simp [payloadsUnder, h]

namespace ReplyHop

/-- The keystream of the sender. -/
def keystream (s : ReplyHop) : HeaderKeystream :=
  (s.edge.sender.forGeneration s.edge.connection.generation).keystream

/-- What holds of the two relays all along. -/
structure Steady (s : ReplyHop) : Prop where
  isLast : s.mixer.isLast = true
  fits : s.sizer.settings.Fits
  last : NamesDistinct s.edge.table.pairs
  previous : NamesDistinct s.previous.edge.table.pairs
  accepted : s.edge.isConnected = true
  dialled : s.previous.edge.isConnected = true

/-- Replies that have been sent and not received, the oldest first, and the one in hand. -/
structure Carries (s : ReplyHop) (sent : List (ChannelId × Bytes)) (hand : Option (ChannelId × Bytes)) :
    Prop where
  inHand : s.edge.inHand = hand.map fun r => ⟨.ofChannel .reply r.1, r.2⟩
  wire : Frame.encodeReplies s.previous.keystream sent =
    (s.previous.edge.unread ++ s.wire, s.keystream)
  sound : ∀ r ∈ sent ++ hand.toList, ReplyPayload.Sound r.2
  queued : ∀ c payload, .reply c payload ∈ s.edge.replies ++ (s.mixer.batch ++ s.sized) →
    ReplyPayload.Sound payload

end ReplyHop

/-- The payloads of a channel's replies between the sizing and the receiver, the oldest first. -/
def ChannelLink.underWay (l : ChannelLink) (s : ReplyHop) (sent : List (ChannelId × Bytes))
    (hand : Option (ChannelId × Bytes)) : List Bytes :=
  payloadsUnder l.edgeId (sent ++ hand.toList) ++
    repliesOf l.lastId (s.edge.replies ++ (s.mixer.batch ++ s.sized))

namespace ReplyHop
variable {s : ReplyHop} {l : ChannelLink} {sent : List (ChannelId × Bytes)}
  {hand : Option (ChannelId × Bytes)} {e : ReplyHopEvent}

theorem Carries.mix (h : s.Carries sent hand) (hlast : s.mixer.isLast = true) (shuffle : Shuffle)
    {rest : List Message} {e : MixerEvent} (hsized : s.sized = e.messages ++ rest)
    (hr : Rounds l.lastId (repliesOf l.lastId s.mixer.batch).length s.sized) :
    (s.mix shuffle rest e).Carries sent hand ∧
      l.underWay (s.mix shuffle rest e) sent hand = l.underWay s sent hand ∧
      Rounds l.lastId (repliesOf l.lastId (s.mix shuffle rest e).mixer.batch).length
        (s.mix shuffle rest e).sized := by
  rw [hsized] at hr
  obtain ⟨hreplies, hrounds⟩ := ReplyMixer.repliesOf_step hlast shuffle.perm
    s.registry.establishedChannels.length hr
  refine ⟨⟨h.inHand, h.wire, h.sound, fun c payload hm => h.queued c payload ?_⟩, ?_, hrounds⟩
  · rw [hsized]
    rcases List.mem_append.1 hm with hm | hm
    · rcases List.mem_append.1 hm with hm | hm
      · exact List.mem_append_left _ hm
      · have hmem := ReplyMixer.mem_step hlast shuffle.perm (List.mem_append_left _ hm)
        rw [← List.append_assoc s.mixer.batch]
        exact List.mem_append_right _ (List.mem_append_left _ hmem)
    · rcases List.mem_append.1 hm with hm | hm
      · have hmem := ReplyMixer.mem_step hlast shuffle.perm (List.mem_append_right _ hm)
        rw [← List.append_assoc s.mixer.batch]
        exact List.mem_append_right _ (List.mem_append_left _ hmem)
      · exact List.mem_append_right _ (List.mem_append_right _ (List.mem_append_right _ hm))
  · simp only [ChannelLink.underWay, ReplyHop.mix, hsized, repliesOf_append, List.append_assoc,
      List.append_cancel_left_eq]
    rw [← List.append_assoc, hreplies, List.append_assoc]

/-- Where a message goes when the sender takes it up. -/
def handed? (table : EdgeIdTable) : Message → Option (ChannelId × Bytes)
  | .reply id payload => (table.edgeId? id).map fun edge => (edge, payload)
  | _ => none

theorem frame?_eq (table : EdgeIdTable) (m : Message) :
    InboundEdge.frame? table m = (handed? table m).map fun r => ⟨.ofChannel .reply r.1, r.2⟩ := by
  cases m with
  | reply id payload =>
    rw [InboundEdge.frame?, handed?, Option.map_map]
    rfl
  | _ => rfl

/-- The name of the channel on the edge is where its replies go, and no others. -/
theorem payloadsUnder_handed? (hs : s.Steady) {m : Message}
    (hl : l.Linked s ∨ l.Unborn s ∧ repliesOf l.lastId [m] = []) :
    payloadsUnder l.edgeId (handed? s.edge.table m).toList = repliesOf l.lastId [m] := by
  cases m with
  | reply c payload =>
    cases hc : s.edge.table.edgeId? c with
    | none =>
      have hne : c ≠ l.lastId ∨ repliesOf l.lastId [.reply c payload] = [] := by
        refine hl.imp (fun hl heq => ?_) fun hl => hl.2
        rw [heq, hl.lastTable] at hc
        cases hc
      have hnone : repliesOf l.lastId [.reply c payload] = [] :=
        hne.elim (fun hne => repliesOf_of_ne hne payload) fun hnone => hnone
      rw [handed?, hc, hnone]
      rfl
    | some edge =>
      rw [handed?, hc]
      by_cases hid : c = l.lastId
      · rcases hl with hl | ⟨hl, hnone⟩
        · rw [hid, hl.lastTable] at hc
          obtain rfl := Option.some.inj hc
          rw [hid, repliesOf_self]
          exact payloadsUnder_self l.edgeId payload
        · rw [hid, repliesOf_self] at hnone
          cases hnone
      · have hedge : edge ≠ l.edgeId := by
          intro heq
          rw [heq] at hc
          rcases hl with hl | ⟨hl, -⟩
          · exact hid (EdgeIdTable.eq_of_edgeId? hs.last hc hl.lastTable)
          · exact hl.lastTable c hc
        rw [repliesOf_of_ne hid]
        exact payloadsUnder_of_ne hedge payload
  | _ => rfl

theorem write_frame {frame : OutgoingFrame} (hf : s.edge.inHand = some frame)
    (hc : s.edge.isConnected = true) :
    let sent := s.edge.sender.encode s.edge.connection.generation frame
    s.write = { s with
      edge := { s.edge with
        sender := sent.2
        metrics := s.edge.metrics.countSent sent.1.length
        inHand := none }
      wire := s.wire ++ sent.1 } := by
  unfold write InboundEdge.sendNext?
  rw [hf]
  dsimp only
  rw [if_pos hc]

theorem write_take {m : Message} {rest : List Message} (hn : s.edge.inHand = none)
    (hr : s.edge.replies = m :: rest) : s.write = { s with
      edge := { s.edge with inHand := InboundEdge.frame? s.edge.table m, replies := rest } } := by
  unfold write InboundEdge.sendNext?
  rw [hn, hr]
  dsimp only
  rw [List.append_nil]

theorem write_idle (hn : s.edge.inHand = none) (hr : s.edge.replies = []) : s.write = s := by
  unfold write InboundEdge.sendNext?
  rw [hn, hr]

theorem write_rest (s : ReplyHop) : s.write.sized = s.sized ∧ s.write.mixer = s.mixer ∧
    s.write.sizer = s.sizer ∧ s.write.previous = s.previous ∧ s.write.edge.table = s.edge.table := by
  unfold write InboundEdge.sendNext?
  split
  · exact ⟨rfl, rfl, rfl, rfl, rfl⟩
  · rename_i hsome
    refine ⟨rfl, rfl, rfl, rfl, ?_⟩
    split at hsome
    · split at hsome <;> cases hsome
      rfl
    · split at hsome <;> cases hsome
      rfl

theorem hear_rest (s : ReplyHop) : s.hear.sized = s.sized ∧ s.hear.mixer = s.mixer ∧
    s.hear.sizer = s.sizer ∧ s.hear.previous = s.previous := by
  unfold hear
  split <;> exact ⟨rfl, rfl, rfl, rfl⟩

/-- The keystream after a frame is that of the bytes with the frame behind. -/
theorem keystream_write {frame : OutgoingFrame} (hf : s.edge.inHand = some frame)
    (hc : s.edge.isConnected = true) : s.write.wire = s.wire ++
        (Frame.encode s.keystream frame.header frame.payload).1 ∧
      s.write.keystream = (Frame.encode s.keystream frame.header frame.payload).2 := by
  have hgeneration : (s.edge.sender.encode s.edge.connection.generation frame).2.generation =
      s.edge.connection.generation :=
    EdgeCipher.generation_forGeneration s.edge.sender s.edge.connection.generation
  rw [write_frame hf hc]
  refine ⟨rfl, ?_⟩
  rw [keystream]
  dsimp only
  rw [EdgeCipher.forGeneration_of_eq hgeneration]
  rfl

theorem Carries.write (h : s.Carries sent hand) (hs : s.Steady)
    (hl : l.Linked s ∨ l.Unborn s ∧ l.underWay s sent hand = []) :
    ∃ sent' hand', s.write.Carries sent' hand' ∧
      l.underWay s.write sent' hand' = l.underWay s sent hand := by
  cases hand with
  | some r =>
    obtain ⟨hwire, hks⟩ := keystream_write h.inHand hs.accepted
    refine ⟨sent ++ [r], none, ⟨?_, ?_, fun f hf => h.sound f (by simpa using hf), ?_⟩, ?_⟩
    · rw [write_frame h.inHand hs.accepted]
      rfl
    · rw [Frame.encodeReplies_concat, hwire, hks]
      rw [write_frame h.inHand hs.accepted]
      dsimp only
      rw [h.wire, List.append_assoc]
    · rw [write_frame h.inHand hs.accepted]
      exact h.queued
    · rw [write_frame h.inHand hs.accepted]
      simp [ChannelLink.underWay]
  | none =>
    cases hreplies : s.edge.replies with
    | nil =>
      rw [write_idle h.inHand hreplies]
      exact ⟨sent, none, h, rfl⟩
    | cons m rest =>
      have hmessage : payloadsUnder l.edgeId (handed? s.edge.table m).toList = repliesOf l.lastId [m] := by
        refine payloadsUnder_handed? hs (hl.imp_right fun ⟨hu, hnone⟩ => ⟨hu, ?_⟩)
        rw [ChannelLink.underWay, hreplies, List.cons_append, repliesOf_cons] at hnone
        exact (List.append_eq_nil_iff.1 (List.append_eq_nil_iff.1 hnone).2).1
      rw [write_take h.inHand hreplies]
      refine ⟨sent, handed? s.edge.table m, ⟨frame?_eq _ m, h.wire, ?_, ?_⟩, ?_⟩
      · intro f hf
        rcases List.mem_append.1 hf with hf | hf
        · exact h.sound f (List.mem_append_left _ hf)
        · cases m with
          | reply c payload =>
            obtain ⟨edge, -, rfl⟩ := Option.map_eq_some_iff.1 (Option.mem_toList.1 hf)
            exact h.queued c payload (by rw [hreplies]; exact List.mem_append_left _ List.mem_cons_self)
          | _ => cases hf
      · intro c payload hm
        refine h.queued c payload ?_
        rw [hreplies]
        exact List.mem_cons_of_mem m hm
      · rw [ChannelLink.underWay, payloadsUnder_append, hmessage, ChannelLink.underWay, hreplies,
          List.cons_append, repliesOf_cons l.lastId m (rest ++ (s.mixer.batch ++ s.sized)),
          Option.toList_none, List.append_nil, List.append_assoc]

theorem Carries.deliver (h : s.Carries sent hand) (hs : s.Steady) (n : Nat) :
    (s.next (.deliver n)).Carries sent hand ∧
      l.underWay (s.next (.deliver n)) sent hand = l.underWay s sent hand := by
  have harrive : s.previous.edge.arrive (s.wire.take n) =
      { s.previous.edge with unread := s.previous.edge.unread ++ s.wire.take n } := if_pos hs.dialled
  rw [next, harrive]
  refine ⟨⟨h.inHand, ?_, h.sound, h.queued⟩, rfl⟩
  dsimp only
  rw [List.append_assoc, List.take_append_drop]
  exact h.wire

theorem Carries.request (h : s.Carries sent hand) (hs : s.Steady) (bytes : Bytes) :
    (s.next (.request bytes)).Carries sent hand ∧
      l.underWay (s.next (.request bytes)) sent hand = l.underWay s sent hand := by
  have harrive : s.edge.arrive bytes = { s.edge with unread := s.edge.unread ++ bytes } :=
    if_pos hs.accepted
  rw [next, harrive]
  exact ⟨⟨h.inHand, h.wire, h.sound, h.queued⟩, rfl⟩

theorem Carries.hear (h : s.Carries sent hand)
    (hkept : s.hear.edge.connection = s.edge.connection) :
    s.hear.Carries sent hand ∧ l.underWay s.hear sent hand = l.underWay s sent hand := by
  unfold ReplyHop.hear at hkept ⊢
  cases hgot : s.edge.receiveNext? s.registry with
  | none => exact ⟨h, rfl⟩
  | some got =>
    obtain ⟨handedOn, e, r⟩ := got
    obtain ⟨hsender, hhand, hreplies, -⟩ := InboundEdge.receiveNext?_frame hgot
    rw [hgot] at hkept
    dsimp only at hkept ⊢
    refine ⟨⟨hhand.trans h.inHand, ?_, h.sound, ?_⟩, ?_⟩
    · rw [h.wire, keystream, keystream]
      dsimp only
      rw [hsender, hkept]
    · dsimp only
      rw [hreplies]
      exact h.queued
    · rw [ChannelLink.underWay, ChannelLink.underWay]
      dsimp only
      rw [hreplies]

theorem Carries.poll (h : s.Carries sent hand) (hs : s.Steady) (elapsed : Bool)
    (hr : Rounds l.lastId (repliesOf l.lastId s.mixer.batch).length s.sized) :
    (s.poll elapsed).Carries sent hand ∧
      (∃ more, l.underWay (s.poll elapsed) sent hand = l.underWay s sent hand ++ more ∧
        more.flatMap ReplyPayload.data = s.registry.drawn (s.poll elapsed).registry l.lastId ∧
        (l.Unborn s → more = [])) ∧
      Rounds l.lastId (repliesOf l.lastId (s.poll elapsed).mixer.batch).length (s.poll elapsed).sized := by
  unfold ReplyHop.poll
  cases hpoll : s.sizer.poll? s.registry elapsed with
  | none =>
    refine ⟨h, ⟨[], (List.append_nil _).symm, ?_, fun _ => rfl⟩, hr⟩
    exact (ChannelRegistry.drawn_of_buffer_eq rfl).symm
  | some got =>
    obtain ⟨round, sizer, r⟩ := got
    obtain ⟨hrounds, hdrawn, hnone, hsound⟩ := ReplySizer.poll?_spec hs.fits hpoll l.lastId
    refine ⟨⟨h.inHand, h.wire, h.sound, ?_⟩, ⟨_, ?_, hdrawn, fun hu => hnone ?_⟩, hr.append hrounds⟩
    · intro c payload hm
      dsimp only at hm
      rw [← List.append_assoc, ← List.append_assoc] at hm
      rcases List.mem_append.1 hm with hm | hm
      · exact h.queued c payload (by rwa [← List.append_assoc])
      · exact hsound c payload hm
    · simp only [ChannelLink.underWay, repliesOf_append, List.append_assoc]
    · have hlast := hu.last
      rwa [ChannelRegistry.contains, Option.isSome_eq_false_iff, Option.isNone_iff_eq_none] at hlast

/-- A reply that is received: for the channel it is enqueued if it finds the slot free. -/
theorem repliesOf_handedOn (hs : s.Steady) (hl : l.Linked s ∨ l.Unborn s) {r : ChannelId × Bytes}
    {behind : Bytes} (hr : Frame.Starts s.previous.edge.maxFrameLength s.previous.keystream
      s.previous.edge.unread r behind) (hlinked : r.1 = l.edgeId → l.Linked s) :
    repliesOf l.previousId s.previous.reception.handedOn =
      if r.1 = l.edgeId ∧ s.slotFree l.previousId = true then [Frame.padded r.2] else [] := by
  obtain ⟨-, -, -, hcases⟩ := OutboundState.receive_of_starts s.previous.receiver
    s.previous.edge.table hr
  by_cases hedge : r.1 = l.edgeId
  · have hlink := hlinked hedge
    obtain ⟨c, hc⟩ := Option.isSome_iff_exists.1 hlink.previous
    have hchannel : s.previous.receiver.channel? s.previous.edge.table r.1 = some c := by
      rw [OutboundState.channel?, hedge, hlink.previousTable]
      exact hc
    have hfree : s.slotFree l.previousId = !c.replyClaimed := by
      rw [slotFree, hc]
      rfl
    rcases hcases with ⟨hhanded, -, hclaimed⟩ | ⟨d, hd, hdfree, hhanded, -⟩
    · rw [ReplyPath.reception, hhanded, hfree, hclaimed c hchannel, if_neg (by simp)]
      rfl
    · obtain rfl := Option.some.inj (hchannel.symm.trans hd)
      rw [ReplyPath.reception, hhanded, hfree, hdfree, ChannelRegistry.find?_some_id hc,
        repliesOf_self, if_pos ⟨hedge, rfl⟩]
  · rw [if_neg fun h => hedge h.1]
    rcases hcases with ⟨hhanded, -, -⟩ | ⟨d, hd, -, hhanded, -⟩
    · rw [ReplyPath.reception, hhanded]
      rfl
    · obtain ⟨id, hlocal, hid⟩ := Option.bind_eq_some_iff.1 hd
      have hne : d.id ≠ l.previousId := by
        intro heq
        rw [← ChannelRegistry.find?_some_id hid, heq] at hlocal
        rcases hl with hl | hl
        · exact hedge (EdgeIdTable.eq_of_localId? hs.previous hlocal hl.previousTable)
        · exact hedge (hl.previousTable r.1 hlocal)
      rw [ReplyPath.reception, hhanded, repliesOf_of_ne hne]

theorem Carries.receive (h : s.Carries sent hand) (hs : s.Steady) (shuffle : Shuffle)
    (hl : l.Linked s ∨ l.Unborn s ∧ l.underWay s sent hand = [])
    (hkept : s.previous.receive.edge.connection = s.previous.edge.connection) :
    let came := s.arrived l (.previous shuffle .receive)
    let t := s.next (.previous shuffle .receive)
    s.enqueued l.previousId (.previous shuffle .receive) = (came.filter fun a => a.1).map (·.2) ∧
      (∀ a ∈ came, (ReplyPayload.decode? a.2).isSome = true) ∧
      ∃ sent', t.Carries sent' hand ∧ (l.underWay s sent hand).flatMap ReplyPayload.data =
        (came.flatMap fun a => ReplyPayload.data a.2) ++
          (l.underWay t sent' hand).flatMap ReplyPayload.data ∧
        (l.underWay s sent hand = [] → l.underWay t sent' hand = []) := by
  intro came t
  have hword (r : ChannelId × Bytes) (hr : r ∈ sent) : Frame.length r.2.length < 2 ^ 32 := by
    obtain ⟨chunk, valid, -, -, hlength⟩ := h.sound r (List.mem_append_left _ hr)
    exact hlength
  rcases Frame.lacks_or_starts s.previous.edge.maxFrameLength h.wire hword with
    hlacks | ⟨r, more, behind, rfl, hstarts, hrest⟩
  · have hnone := ReplyPath.receiveNext?_of_lacks hs.dialled hlacks hkept
    have hcame : came = [] := by simp only [came, arrived, hlacks.next?]
    have ht : t = s := by simp only [t, next, ReplyPath.next, ReplyPath.receive, hnone]
    rw [hcame, ht, enqueued, hnone]
    exact ⟨rfl, fun a ha => absurd ha List.not_mem_nil, sent, h, rfl, fun hempty => hempty⟩
  · have hsome := ReplyPath.receiveNext?_of_starts hs.dialled hstarts
    obtain ⟨-, hbehind, hadvance, -⟩ := OutboundState.receive_of_starts s.previous.receiver
      s.previous.edge.table hstarts
    have hunder : l.underWay s (r :: more) hand =
        payloadsUnder l.edgeId [r] ++ l.underWay t more hand := by
      have ht : t.edge = s.edge ∧ t.mixer = s.mixer ∧ t.sized = s.sized := ⟨rfl, rfl, rfl⟩
      rw [ChannelLink.underWay, ChannelLink.underWay, ht.1, ht.2.1, ht.2.2, List.cons_append,
        ← List.singleton_append, payloadsUnder_append, List.append_assoc]
    have hlinked (hedge : r.1 = l.edgeId) : l.Linked s := by
      rcases hl with hl | ⟨-, hempty⟩
      · exact hl
      · rw [hunder, ← hedge, payloadsUnder_self] at hempty
        cases hempty
    have hcame : came = if r.1 = l.edgeId then [(s.slotFree l.previousId, Frame.padded r.2)] else [] := by
      simp only [came, arrived, hstarts.next?, Frame.replyHead, true_and]
    have hsound := h.sound r List.mem_cons_self
    have ht : t.Carries more hand := by
      refine ⟨h.inHand, ?_, fun f hf => h.sound f (List.mem_cons_of_mem r hf), h.queued⟩
      have hprevious : t.previous.edge = s.previous.passed := by
        simp only [t, next, ReplyPath.next, ReplyPath.receive_some hsome]
      have hks : t.previous.keystream = s.previous.keystream.advance := by
        have hgeneration : s.previous.passed.receiver.generation =
            s.previous.passed.connection.generation := rfl
        rw [ReplyPath.keystream, hprevious, EdgeCipher.forGeneration_of_eq hgeneration]
        exact hadvance
      rw [hks, hprevious, hrest, ReplyPath.passed]
      dsimp only
      rw [ReplyPath.reception, hbehind]
      rfl
    rw [hcame, enqueued, hsome, hunder, List.flatMap_append]
    dsimp only
    rw [repliesOf_handedOn hs (hl.imp_right And.left) hstarts hlinked]
    by_cases hedge : r.1 = l.edgeId
    · have hpayload : payloadsUnder l.edgeId [r] = [r.2] := hedge ▸ payloadsUnder_self r.1 r.2
      have hdata : ReplyPayload.data (Frame.padded r.2) = ReplyPayload.data r.2 := by
        rw [ReplyPayload.data, hsound.decode?_padded]
        rfl
      rw [if_pos hedge, hpayload, List.flatMap_singleton, List.flatMap_singleton, hdata]
      refine ⟨?_, fun a ha => ?_, more, ht, rfl, fun hempty => ?_⟩
      · cases hfree : s.slotFree l.previousId <;> simp [hedge]
      · rw [List.mem_singleton.1 ha, hsound.decode?_padded]
        rfl
      · cases hempty
    · have hpayload : payloadsUnder l.edgeId [r] = [] := payloadsUnder_of_ne hedge r.2
      rw [if_neg hedge, hpayload, if_neg fun h => hedge h.1]
      exact ⟨rfl, fun a ha => absurd ha List.not_mem_nil, more, ht, rfl, fun hempty => hempty⟩

theorem Steady.next (h : s.Steady) (hk : s.Keeps e) : (s.next e).Steady := by
  have haccepted : (s.next e).edge.isConnected = true := by
    rw [InboundEdge.isConnected, hk.last]
    exact h.accepted
  have hdialled : (s.next e).previous.edge.isConnected = true := by
    rw [OutboundEdge.isConnected, hk.previous]
    exact h.dialled
  cases e with
  | fill id data => exact ⟨h.isLast, h.fits, h.last, h.previous, haccepted, hdialled⟩
  | poll elapsed =>
    suffices (s.poll elapsed).sizer.settings = s.sizer.settings ∧ (s.poll elapsed).mixer = s.mixer ∧
        (s.poll elapsed).edge = s.edge ∧ (s.poll elapsed).previous = s.previous by
      obtain ⟨hsettings, hmixer, hedge, hprevious⟩ := this
      exact ⟨hmixer ▸ h.isLast, hsettings ▸ h.fits, hedge ▸ h.last, hprevious ▸ h.previous, haccepted,
        hdialled⟩
    unfold ReplyHop.poll
    split
    · exact ⟨rfl, rfl, rfl, rfl⟩
    · rename_i hpoll
      exact ⟨(ReplySizer.poll?_cases hpoll).1, rfl, rfl, rfl⟩
  | collect shuffle =>
    refine ⟨?_, ?_, ?_, ?_, haccepted, hdialled⟩
    · rw [ReplyHop.next]
      split
      · exact (s.mixer.isLast_step _).trans h.isLast
      · exact h.isLast
    · rw [ReplyHop.next]
      split <;> exact h.fits
    · rw [ReplyHop.next]
      split <;> exact h.last
    · rw [ReplyHop.next]
      split <;> exact h.previous
  | lapse shuffle =>
    exact ⟨(s.mixer.isLast_step _).trans h.isLast, h.fits, h.last, h.previous, haccepted, hdialled⟩
  | write =>
    obtain ⟨-, hmixer, hsizer, hprevious, htable⟩ := write_rest s
    exact ⟨hmixer ▸ h.isLast, hsizer ▸ h.fits, htable ▸ h.last, hprevious ▸ h.previous, haccepted,
      hdialled⟩
  | deliver n =>
    refine ⟨h.isLast, h.fits, h.last, ?_, haccepted, hdialled⟩
    rw [ReplyHop.next, OutboundEdge.arrive]
    split <;> exact h.previous
  | request bytes =>
    refine ⟨h.isLast, h.fits, ?_, h.previous, haccepted, hdialled⟩
    rw [ReplyHop.next, InboundEdge.arrive]
    split <;> exact h.last
  | hear =>
    obtain ⟨-, hmixer, hsizer, hprevious⟩ := hear_rest s
    refine ⟨hmixer ▸ h.isLast, hsizer ▸ h.fits, ?_, hprevious ▸ h.previous, haccepted, hdialled⟩
    rw [ReplyHop.next, ReplyHop.hear]
    split
    · exact h.last
    · rename_i hsome
      exact (InboundEdge.receiveNext?_frame hsome).2.2.2 h.last
  | previous shuffle e =>
    exact ⟨h.isLast, h.fits, h.last, ReplyPath.next_distinct h.previous e, haccepted, hdialled⟩

end ReplyHop
end MixRelay
