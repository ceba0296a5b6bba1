import MixRelay.Proofs.ReplyHops

/-!
# Reply streams between two relays

No reply is lost or overtaken on its way to the receiver: the data that a channel's replies bring is
what the sizing took from its buffer, up to what is still under way. But the two relays open their
reply rounds on their own, and a reply that finds its channel's slot claimed is passed over, although
a later one may be taken.
-/
namespace MixRelay

namespace ReplyHop
variable {s : ReplyHop} {l : ChannelLink} {sent : List (ChannelId × Bytes)}
  {hand : Option (ChannelId × Bytes)} {e : ReplyHopEvent}

/-- What is under way for a channel, what the sizing adds to it, and what leaves it. -/
def Passes (l : ChannelLink) (s : ReplyHop) (e : ReplyHopEvent) (sent : List (ChannelId × Bytes))
    (hand : Option (ChannelId × Bytes)) : Prop :=
  ∃ sent' hand', (s.next e).Carries sent' hand' ∧
    (l.underWay s sent hand).flatMap ReplyPayload.data ++ s.taken l.lastId e =
      ((s.arrived l e).flatMap fun a => ReplyPayload.data a.2) ++
        (l.underWay (s.next e) sent' hand').flatMap ReplyPayload.data ∧
    (l.Unborn s → l.underWay s sent hand = [] → l.underWay (s.next e) sent' hand' = [])

theorem Passes.of_same {sent' : List (ChannelId × Bytes)} {hand' : Option (ChannelId × Bytes)}
    (htaken : s.taken l.lastId e = []) (harrived : s.arrived l e = [])
    (h : (s.next e).Carries sent' hand')
    (hsame : l.underWay (s.next e) sent' hand' = l.underWay s sent hand) : Passes l s e sent hand := by
  refine ⟨sent', hand', h, ?_, fun _ hempty => hsame.trans hempty⟩
  rw [htaken, harrived, hsame, List.append_nil]
  rfl

theorem Carries.previous {event : ReplyPathEvent} (h : s.Carries sent hand) (shuffle : Shuffle)
    (hk : s.Keeps (.previous shuffle event)) (hreceive : event ≠ .receive) :
    (s.next (.previous shuffle event)).Carries sent hand := by
  obtain ⟨hunread, hreceiver⟩ := @ReplyPath.next_frame s.previous shuffle.order event
    (fun bytes heq => hk.arrivals shuffle bytes (by rw [heq])) hreceive
  refine ⟨h.inHand, ?_, h.sound, h.queued⟩
  have hconnection : (s.previous.next shuffle.order event).edge.connection =
      s.previous.edge.connection := hk.previous
  rw [next, ReplyPath.keystream]
  dsimp only
  rw [hunread, hreceiver, hconnection]
  exact h.wire

theorem Carries.passes (h : s.Carries sent hand) (hs : s.Steady) (hk : s.Keeps e)
    (hr : Rounds l.lastId (repliesOf l.lastId s.mixer.batch).length s.sized)
    (hl : l.Linked s ∨ l.Unborn s ∧ l.underWay s sent hand = []) :
    Rounds l.lastId (repliesOf l.lastId (s.next e).mixer.batch).length (s.next e).sized ∧
      Passes l s e sent hand := by
  cases e with
  | fill id data => exact ⟨hr, .of_same rfl rfl ⟨h.inHand, h.wire, h.sound, h.queued⟩ rfl⟩
  | poll elapsed =>
    obtain ⟨hc, ⟨more, hunder, hdata, hnone⟩, hrounds⟩ := h.poll hs elapsed hr
    refine ⟨hrounds, sent, hand, hc, ?_, fun hu hempty => ?_⟩
    · rw [next, hunder, List.flatMap_append, hdata]
      rfl
    · rw [next, hunder, hempty, hnone hu]
      rfl
  | collect shuffle =>
    cases hsized : s.sized with
    | nil =>
      have hnext : s.next (.collect shuffle) = s := by rw [next, hsized]
      rw [hnext]
      exact ⟨hr, .of_same rfl rfl (hnext ▸ h) (by rw [hnext])⟩
    | cons m rest =>
      have hnext : s.next (.collect shuffle) = s.mix shuffle rest (.arrival m) := by rw [next, hsized]
      obtain ⟨hc, hsame, hrounds⟩ := h.mix (e := .arrival m) hs.isLast shuffle hsized hr
      exact ⟨hnext ▸ hrounds, .of_same rfl rfl (hnext ▸ hc) (by rw [hnext, hsame])⟩
  | lapse shuffle =>
    obtain ⟨hc, hsame, hrounds⟩ := h.mix (e := .timeout) hs.isLast shuffle rfl hr
    exact ⟨hrounds, .of_same rfl rfl hc hsame⟩
  | write =>
    obtain ⟨sent', hand', hc, hsame⟩ := h.write hs hl
    obtain ⟨hsized, hmixer, -⟩ := write_rest s
    refine ⟨?_, .of_same rfl rfl hc hsame⟩
    rwa [next, hmixer, hsized]
  | deliver n =>
    obtain ⟨hc, hsame⟩ := h.deliver (l := l) hs n
    exact ⟨hr, .of_same rfl rfl hc hsame⟩
  | request bytes =>
    obtain ⟨hc, hsame⟩ := h.request (l := l) hs bytes
    exact ⟨hr, .of_same rfl rfl hc hsame⟩
  | hear =>
    obtain ⟨hc, hsame⟩ := h.hear (l := l) hk.last
    obtain ⟨hsized, hmixer, -⟩ := hear_rest s
    refine ⟨?_, .of_same rfl rfl hc hsame⟩
    rwa [next, hmixer, hsized]
  | previous shuffle event =>
    by_cases hreceive : event = .receive
    · subst hreceive
      obtain ⟨-, -, sent', hc, hflow, hempty⟩ := h.receive hs shuffle hl hk.previous
      refine ⟨hr, sent', hand, hc, ?_, fun _ => hempty⟩
      rw [hflow]
      exact List.append_nil _
    · refine ⟨hr, .of_same rfl ?_ (h.previous shuffle hk hreceive) rfl⟩
      cases event with
      | receive => exact absurd rfl hreceive
      | _ => rfl

/-- What was taken for a channel has come to the receiver, or it is under way to it. -/
structure Flows (l : ChannelLink) (s : ReplyHop) (took : Bytes) (came : List (Bool × Bytes)) : Prop where
  steady : s.Steady
  rounds : Rounds l.lastId (repliesOf l.lastId s.mixer.batch).length s.sized
  passage : ∃ sent hand, s.Carries sent hand ∧
    took = (came.flatMap fun a => ReplyPayload.data a.2) ++
      (l.underWay s sent hand).flatMap ReplyPayload.data ∧
    (l.Linked s ∨ l.underWay s sent hand = [])

theorem Flows.next {took : Bytes} {came : List (Bool × Bytes)} (h : Flows l s took came)
    (hk : s.Keeps e) (hl : l.Stays s e) :
    Flows l (s.next e) (took ++ s.taken l.lastId e) (came ++ s.arrived l e) := by
  obtain ⟨hs, hr, sent, hand, hc, htook, hlinked⟩ := h
  have hknown := hl.unborn_and hlinked
  obtain ⟨hrounds, sent', hand', hc', hflow, hempty⟩ := hc.passes hs hk hr hknown
  refine ⟨hs.next hk, hrounds, sent', hand', hc', ?_, ?_⟩
  · rw [htook, List.append_assoc, hflow, List.flatMap_append, List.append_assoc]
  · exact hknown.imp hl.kept fun ⟨hunborn, hnone⟩ => hempty hunborn hnone

/-- The receiver enqueues what finds the slot free, and all that comes can be decoded. -/
theorem Flows.enqueues {took : Bytes} {came : List (Bool × Bytes)} (h : Flows l s took came)
    (hk : s.Keeps e) (hl : l.Stays s e) :
    s.enqueued l.previousId e = ((s.arrived l e).filter fun a => a.1).map (·.2) ∧
      ∀ a ∈ s.arrived l e, (ReplyPayload.decode? a.2).isSome = true := by
  obtain ⟨hs, -, sent, hand, hc, -, hlinked⟩ := h
  have hknown := hl.unborn_and hlinked
  cases e with
  | previous shuffle event =>
    by_cases hreceive : event = .receive
    · subst hreceive
      obtain ⟨henqueued, hdecode, -⟩ := hc.receive hs shuffle hknown hk.previous
      exact ⟨henqueued, hdecode⟩
    · cases event with
      | receive => exact absurd rfl hreceive
      | _ => exact ⟨rfl, nofun⟩
  | _ => exact ⟨rfl, nofun⟩

theorem Flows.run {took : Bytes} {came : List (Bool × Bytes)} (h : Flows l s took came)
    {events : List ReplyHopEvent} (ha : Along ReplyHop.next (Fit l) s events) :
    Flows l (events.foldl ReplyHop.next s) (took ++ outputs ReplyHop.next (ReplyHop.taken l.lastId) s events)
        (came ++ outputs ReplyHop.next (ReplyHop.arrived l) s events) ∧
      outputs ReplyHop.next (ReplyHop.enqueued l.previousId) s events =
        ((outputs ReplyHop.next (ReplyHop.arrived l) s events).filter fun a => a.1).map (·.2) ∧
      ∀ a ∈ outputs ReplyHop.next (ReplyHop.arrived l) s events, (ReplyPayload.decode? a.2).isSome = true := by
  induction events generalizing s took came with
  | nil =>
    refine ⟨?_, rfl, nofun⟩
    rwa [outputs, outputs, List.append_nil, List.append_nil]
  | cons e events ih =>
    obtain ⟨⟨hk, hl⟩, hrest⟩ := ha
    obtain ⟨hflows, henqueued, hdecode⟩ := ih (h.next hk hl) hrest
    obtain ⟨hnow, hnowDecode⟩ := h.enqueues hk hl
    refine ⟨?_, ?_, fun a ha => ?_⟩
    · rw [outputs, outputs, ← List.append_assoc, ← List.append_assoc]
      exact hflows
    · rw [outputs, outputs, hnow, henqueued, List.filter_append, List.map_append]
    · rcases List.mem_append.1 ha with ha | ha
      · exact hnowDecode a ha
      · exact hdecode a ha

theorem flows_start (c : ReplyHopSettings) (hf : c.sizing.Fits) (l : ChannelLink) :
    Flows l (start c) [] [] := by
  refine ⟨⟨rfl, hf, .nil, .nil, rfl, rfl⟩, rfl, [], none, ⟨rfl, rfl, nofun, nofun⟩, rfl, .inr rfl⟩

/-- Replies reach the receiver without a gap: what they carry is the front of what the sizing took.
Those that find the slot of their channel free are enqueued, and the others are passed over; so a
stream whose replies all find it free has no gap either. -/
theorem replies_prefix_taken (c : ReplyHopSettings) (hf : c.sizing.Fits) (l : ChannelLink)
    (events : List ReplyHopEvent)
    (h : Along next (Fit l) (start c) events) :
    let took := outputs next (taken l.lastId) (start c) events
    let came := outputs next (arrived l) (start c) events
    let handed := outputs next (enqueued l.previousId) (start c) events
    (came.flatMap fun a => ReplyPayload.data a.2) <+: took ∧
      handed = (came.filter fun a => a.1).map (·.2) ∧
      (∀ payload ∈ handed, (ReplyPayload.decode? payload).isSome = true) ∧
      ((∀ a ∈ came, a.1 = true) → handed.flatMap ReplyPayload.data <+: took) := by
  intro took came handed
  obtain ⟨⟨-, -, sent, hand, -, htook, -⟩, hhanded, hdecode⟩ := (flows_start c hf l).run h
  have hcame : (came.flatMap fun a => ReplyPayload.data a.2) <+: took := ⟨_, htook.symm⟩
  have heq : handed = (came.filter fun a => a.1).map (·.2) := hhanded
  refine ⟨hcame, heq, fun payload hp => ?_, fun hfree => ?_⟩
  · rw [heq] at hp
    obtain ⟨a, ha, rfl⟩ := List.mem_map.1 hp
    exact hdecode a (List.mem_filter.1 ha).1
  · rw [heq, List.filter_eq_self.2 hfree, List.flatMap_map]
    exact hcame

/-- Replies of sixteen bytes, whatever the volumes are. -/
def tightSizing : SizingSettings := ⟨50, 1, 0.5, 2000, 0.5, 16, 4, 16⟩

theorem shrink_tight (n : Nat) : Sizing.shrink 16 16 (16 * n + 16) = 16 := by
  induction n with
  | zero =>
    unfold Sizing.shrink
    rfl
  | succ n ih =>
    unfold Sizing.shrink
    rw [if_pos ⟨by omega, by omega, by omega⟩]
    exact ih

theorem decide?_tight (volumes : List Nat) : ReplySizer.decide? tightSizing volumes = some 12 := by
  have hsize (n : Nat) : Sizing.alignToBlocks n 16 4 16 = 12 := by
    unfold Sizing.alignToBlocks
    dsimp only
    obtain ⟨k, hk⟩ : ∃ k, max ((n + 4 + 16 / 2) / 16 * 16) 16 = 16 * k + 16 :=
      ⟨(n + 12) / 16 - 1, by omega⟩
    have hmax : Nat.max ((n + 4 + 16 / 2) / 16 * 16) 16 = 16 * k + 16 := hk
    rw [hmax, shrink_tight]
  exact congrArg some (hsize _)

/-- The channel on the last relay, with some data of its destination. -/
def lastChannel (data : Bytes) : Channel := ⟨9, true, true, false, ⟨64, [], data⟩⟩

theorem poll_tight {s : ReplyHop} (hs : s.sizer.settings = tightSizing) {data : Bytes}
    (hr : s.registry.channels = [lastChannel data]) : ∃ metrics, s.poll true = { s with
      registry := ⟨[lastChannel (data.drop 12)], s.registry.proxyCapacity, s.registry.requestRound,
        s.registry.replyRound + 1⟩
      sizer := ⟨tightSizing, .collecting, metrics⟩
      sized := s.sized ++ [.reply 9 (ReplyCut.payload 12 (lastChannel data)), .batchSize 1] } := by
  obtain ⟨⟨channels, capacity, requestRound, replyRound⟩, ⟨settings, phase, metrics⟩, sized, mixer, edge,
    wire, previous⟩ := s
  subst hs
  subst hr
  obtain ⟨t, ht⟩ : ∃ t, ReplySizer.trigger? ⟨tightSizing, .collecting, metrics⟩ [data.length] true =
      some t := by
    unfold ReplySizer.trigger?
    split <;> exact ⟨_, rfl⟩
  have hvolumes : (ChannelRegistry.establishedChannels ⟨[lastChannel data], capacity, requestRound,
      replyRound⟩).map Channel.buffered = [data.length] := rfl
  refine ⟨(metrics.countReply 12 (min data.length 12)).countRound t 12, ?_⟩
  unfold poll ReplySizer.poll?
  dsimp only
  rw [hvolumes, ht, decide?_tight]
  rfl

/-- An edge with room for replies of sixteen bytes; the draws name the channel 9 and 5. -/
def tight : ReplyHopSettings :=
  ⟨tightSizing, ⟨⟨0, 1, 1, 0⟩, 64, true⟩, .ofList [9], 64, ⟨.zero, .zero⟩, 64, .ofList [5], 64⟩

def tightLink : ChannelLink := ⟨9, 5, 1⟩

/-- What the replies that have crossed change for good. -/
structure Tally where
  round : Nat
  previousRound : Nat
  sizing : SizingMetrics
  sent : LinkMetrics
  received : LinkMetrics
  sender : EdgeCipher
  receiver : EdgeCipher

/-- The channel is linked and nothing is on its way to the receiver. -/
def resting (v : Tally) (claimed : Bool) (waiting : List Message) : ReplyHop where
  registry := ⟨[lastChannel []], 64, 0, v.round⟩
  sizer := ⟨tightSizing, .collecting, v.sizing⟩
  sized := []
  mixer := .start true
  edge := ⟨tight.inbound, ⟨[false], some 0, 1, false, false⟩, ⟨[(5, 9)]⟩, v.sent, ⟨[], 10⟩,
    ⟨⟨tight.key, .requests, 1⟩, 1⟩, v.sender, [], false, none, []⟩
  wire := []
  previous := ⟨⟨64, ⟨[false], some 0, 1, false, false⟩, ⟨[(5, 1)]⟩, v.received, ⟨[], 6⟩,
    ⟨⟨tight.key, .requests, 1⟩, 1⟩, v.receiver, [], false, none, []⟩,
    ⟨[⟨1, false, false, claimed, ⟨64, [], []⟩⟩], 64, 0, v.previousRound⟩, waiting, .start false⟩

/-- Sender and receiver are at the same place of the keystream. -/
def Tally.InStep (v : Tally) : Prop :=
  (v.receiver.forGeneration 1).keystream = (v.sender.forGeneration 1).keystream

/-- A byte comes from the destination, and the sender takes up its reply. -/
def packing (b : UInt8) : List ReplyHopEvent :=
  [.fill 9 [b], .poll true, .collect .keep, .collect .keep, .write]

/-- A byte comes from the destination, and its reply crosses the edge. -/
def crossing (b : UInt8) : List ReplyHopEvent :=
  packing b ++ ([.write, .deliver 25] ++ [.previous .keep .receive])

def crossingReply (b : UInt8) : Bytes := ReplyCut.payload 12 (lastChannel [b])

/-- The reply of a byte is in the hand of the sender. -/
def holding (v : Tally) (sizing : SizingMetrics) (claimed : Bool) (waiting : List Message) (b : UInt8) :
    ReplyHop :=
  let s := resting { v with round := v.round + 1, sizing := sizing } claimed waiting
  { s with edge := { s.edge with inHand := some ⟨.ofChannel .reply 5, crossingReply b⟩ } }

theorem fit_of_linked {l : ChannelLink} {s : ReplyHop} {e : ReplyHopEvent} (hs : l.Linked s)
    (hnext : l.Linked (s.next e)) (hlast : (s.next e).edge.connection = s.edge.connection)
    (hprevious : (s.next e).previous.edge.connection = s.previous.edge.connection)
    (harrive : ∀ shuffle bytes, e ≠ .previous shuffle (.arrive bytes))
    (hfinish : ∀ shuffle, e ≠ .previous shuffle .finish) : Fit l s e :=
  ⟨⟨hlast, hprevious, harrive, hfinish⟩, .inl hs, fun _ => hnext⟩

theorem along_holding (v : Tally) (claimed : Bool) (waiting : List Message) (b : UInt8) :
    ∃ sizing, (packing b).foldl next (resting v claimed waiting) = holding v sizing claimed waiting b ∧
      Along next (Fit tightLink) (resting v claimed waiting) (packing b) ∧
      outputs next (taken 9) (resting v claimed waiting) (packing b) = [b] := by
  let s := { resting v claimed waiting with registry := ⟨[lastChannel [b]], 64, 0, v.round⟩ }
  obtain ⟨sizing, hpoll⟩ := @poll_tight s rfl [b] rfl
  have hfill : (resting v claimed waiting).next (.fill 9 [b]) = s := rfl
  have hnext : s.next (.poll true) = s.poll true := rfl
  rw [hpoll] at hnext
  refine ⟨sizing, ?_, ?_, ?_⟩
  · simp only [packing, List.foldl_cons, List.foldl_nil, hfill, hnext]
    rfl
  · have hlinked : tightLink.Linked (s.next (.poll true)) := by
      rw [hnext]
      exact ⟨rfl, rfl, rfl, rfl⟩
    refine ⟨fit_of_linked ⟨rfl, rfl, rfl, rfl⟩ ⟨rfl, rfl, rfl, rfl⟩ rfl rfl nofun nofun, ?_⟩
    rw [hfill]
    refine ⟨fit_of_linked ⟨rfl, rfl, rfl, rfl⟩ hlinked ?_ ?_ nofun nofun, ?_⟩
    · rw [hnext]
    · rw [hnext]
    · rw [hnext]
      exact ⟨fit_of_linked ⟨rfl, rfl, rfl, rfl⟩ ⟨rfl, rfl, rfl, rfl⟩ rfl rfl nofun nofun,
        fit_of_linked ⟨rfl, rfl, rfl, rfl⟩ ⟨rfl, rfl, rfl, rfl⟩ rfl rfl nofun nofun,
        fit_of_linked ⟨rfl, rfl, rfl, rfl⟩ ⟨rfl, rfl, rfl, rfl⟩ rfl rfl nofun nofun, trivial⟩
  · have htaken : s.taken 9 (.poll true) = [b] := by
      rw [taken, hpoll]
      rfl
    have houtputs : outputs next (taken 9) (resting v claimed waiting) (packing b) =
        s.taken 9 (.poll true) ++ [] := rfl
    rw [houtputs, htaken]
    rfl

/-- The bytes of a byte's reply. -/
def crossingBytes (v : Tally) (b : UInt8) : Bytes :=
  (Frame.encode (v.sender.forGeneration 1).keystream (.ofChannel .reply 5) (crossingReply b)).1

theorem length_crossingBytes (v : Tally) (b : UInt8) : (crossingBytes v b).length = 25 := by
  rw [crossingBytes, Frame.encode_eq, List.length_append, Frame.length_head]
  rfl

/-- The tally once the reply is written. -/
def written (v : Tally) (sizing : SizingMetrics) (b : UInt8) : Tally :=
  { v with
    round := v.round + 1
    sizing := sizing
    sent := v.sent.countSent (crossingBytes v b).length
    sender := (v.sender.encode 1 ⟨.ofChannel .reply 5, crossingReply b⟩).2 }

/-- The reply of a byte has arrived. -/
def arriving (v : Tally) (sizing : SizingMetrics) (claimed : Bool) (waiting : List Message) (b : UInt8) :
    ReplyHop :=
  let s := resting (written v sizing b) claimed waiting
  { s with previous := { s.previous with
      edge := { s.previous.edge with unread := crossingBytes v b } } }

theorem holding_arrives (v : Tally) (sizing : SizingMetrics) (claimed : Bool) (waiting : List Message)
    (b : UInt8) : [ReplyHopEvent.write, .deliver 25].foldl next (holding v sizing claimed waiting b) =
        arriving v sizing claimed waiting b ∧
      Along next (Fit tightLink) (holding v sizing claimed waiting b) [.write, .deliver 25] := by
  let s := { resting (written v sizing b) claimed waiting with wire := crossingBytes v b }
  have hwrite : (holding v sizing claimed waiting b).next .write = s := rfl
  have hdeliver : s.next (.deliver 25) = arriving v sizing claimed waiting b := by
    have hlength := length_crossingBytes v b
    have htake : (crossingBytes v b).take 25 = crossingBytes v b := by rw [← hlength, List.take_length]
    have hdrop : (crossingBytes v b).drop 25 = [] := by rw [← hlength, List.drop_length]
    have hnext : s.next (.deliver 25) = { s with
        wire := (crossingBytes v b).drop 25
        previous := { s.previous with edge := s.previous.edge.arrive ((crossingBytes v b).take 25) } } := rfl
    rw [hnext, htake, hdrop]
    rfl
  refine ⟨?_, fit_of_linked ⟨rfl, rfl, rfl, rfl⟩ ⟨rfl, rfl, rfl, rfl⟩ rfl rfl nofun nofun, ?_⟩
  · rw [List.foldl_cons, hwrite, List.foldl_cons, hdeliver]
    rfl
  · rw [hwrite]
    refine ⟨fit_of_linked ⟨rfl, rfl, rfl, rfl⟩ ?_ ?_ ?_ nofun nofun, trivial⟩
    · rw [hdeliver]
      exact ⟨rfl, rfl, rfl, rfl⟩
    · rw [hdeliver]
      rfl
    · rw [hdeliver]
      rfl

/-- What is enqueued when the reply of a byte is received. -/
def crossed (claimed : Bool) (b : UInt8) : List Bytes :=
  if claimed then [] else [Frame.padded (crossingReply b)]

theorem arriving_starts {v : Tally} (h : v.InStep) (sizing : SizingMetrics) (claimed : Bool)
    (waiting : List Message) (b : UInt8) :
    let s := arriving v sizing claimed waiting b
    Frame.Starts s.previous.edge.maxFrameLength s.previous.keystream s.previous.edge.unread
      (5, crossingReply b) [] := by
  intro s
  have hks : s.previous.keystream = (v.sender.forGeneration 1).keystream := h
  have hunread : s.previous.edge.unread = Frame.head (v.sender.forGeneration 1).keystream
      (.ofChannel .reply 5) (crossingReply b) ++ (crossingReply b).drop Frame.headPayloadLength := rfl
  rw [Frame.Starts, hks, hunread, List.append_nil]
  exact @Frame.readHead_head 64 _ .reply 5 (crossingReply b) (show Frame.length 16 ≤ 64 by decide)
    (show Frame.length 16 < 2 ^ 32 by decide) _

theorem arriving_received {v : Tally} (h : v.InStep) (sizing : SizingMetrics) (claimed : Bool)
    (waiting : List Message) (b : UInt8) : ∃ v', v'.InStep ∧
      (arriving v sizing claimed waiting b).next (.previous .keep .receive) =
        resting v' true (waiting ++ (crossed claimed b).map (.reply 1)) ∧
      (arriving v sizing claimed waiting b).enqueued 1 (.previous .keep .receive) = crossed claimed b := by
  let s := arriving v sizing claimed waiting b
  have hstarts := arriving_starts h sizing claimed waiting b
  have hsome := ReplyPath.receiveNext?_of_starts (s := s.previous) rfl hstarts
  obtain ⟨-, hrest, hkeystream, hcases⟩ := OutboundState.receive_of_starts s.previous.receiver
    s.previous.edge.table hstarts
  have hchannel : s.previous.receiver.channel? s.previous.edge.table 5 =
      some ⟨1, false, false, claimed, ⟨64, [], []⟩⟩ := rfl
  have hreception : s.previous.reception.handedOn = (crossed claimed b).map (.reply 1) ∧
      s.previous.reception.state.registry =
        ⟨[⟨1, false, false, true, ⟨64, [], []⟩⟩], 64, 0, v.previousRound⟩ := by
    rcases hcases with ⟨hhanded, hregistry, hclaimed⟩ | ⟨c, hc, hfree, hhanded, hregistry⟩
    · obtain rfl : claimed = true := hclaimed _ hchannel
      exact ⟨hhanded, hregistry⟩
    · obtain rfl := Option.some.inj (hchannel.symm.trans hc)
      obtain rfl : claimed = false := hfree
      exact ⟨hhanded, hregistry⟩
  refine ⟨{ written v sizing b with
    received := s.previous.reception.state.metrics
    receiver := ⟨s.previous.keystream.advance, 1⟩ }, ?_, ?_, ?_⟩
  · have hgeneration : (v.sender.encode 1 ⟨.ofChannel .reply 5, crossingReply b⟩).2.generation = 1 :=
      EdgeCipher.generation_forGeneration v.sender 1
    rw [Tally.InStep, EdgeCipher.forGeneration_of_eq rfl]
    dsimp only [written]
    rw [EdgeCipher.forGeneration_of_eq hgeneration]
    exact congrArg HeaderKeystream.advance h
  · have hnext : s.next (.previous .keep .receive) = { s with previous := s.previous.receive } := rfl
    have hpassed : s.previous.passed = { s.previous.edge with
        receiver := ⟨s.previous.keystream.advance, 1⟩
        metrics := s.previous.reception.state.metrics
        unread := [] } := by
      rw [ReplyPath.passed, ReplyPath.reception, hrest, hkeystream]
      rfl
    rw [hnext, ReplyPath.receive_some hsome, hreception.1, hreception.2, hpassed]
    rfl
  · have henqueued : s.enqueued 1 (.previous .keep .receive) =
        repliesOf 1 ((crossed claimed b).map (.reply 1)) := by
      rw [enqueued, hsome, hreception.1]
    rw [henqueued, crossed]
    cases claimed <;> rfl

theorem resting_crosses {v : Tally} (h : v.InStep) (claimed : Bool) (waiting : List Message) (b : UInt8) :
    ∃ v', v'.InStep ∧ (crossing b).foldl next (resting v claimed waiting) =
        resting v' true (waiting ++ (crossed claimed b).map (.reply 1)) ∧
      Along next (Fit tightLink) (resting v claimed waiting) (crossing b) ∧
      outputs next (taken 9) (resting v claimed waiting) (crossing b) = [b] ∧
      outputs next (enqueued 1) (resting v claimed waiting) (crossing b) = crossed claimed b := by
  obtain ⟨sizing, hpacked, hpacking, htaken⟩ := along_holding v claimed waiting b
  obtain ⟨harrived, harriving⟩ := holding_arrives v sizing claimed waiting b
  obtain ⟨v', hstep, hreceived, henqueued⟩ := arriving_received h sizing claimed waiting b
  have hfit : Fit tightLink (arriving v sizing claimed waiting b) (.previous .keep .receive) := by
    refine fit_of_linked ⟨rfl, rfl, rfl, rfl⟩ ?_ ?_ ?_ nofun nofun
    · rw [hreceived]
      exact ⟨rfl, rfl, rfl, rfl⟩
    · rw [hreceived]
      rfl
    · rw [hreceived]
      rfl
  refine ⟨v', hstep, ?_, ?_, ?_, ?_⟩
  · rw [crossing, List.foldl_append, List.foldl_append, hpacked, harrived]
    exact hreceived
  · rw [crossing, along_append, along_append, hpacked, harrived]
    exact ⟨hpacking, harriving, hfit, trivial⟩
  · have hnone (t : ReplyHop) : outputs next (taken 9) t ([.write, .deliver 25] ++
        [.previous .keep .receive]) = [] := rfl
    rw [crossing, outputs_append, htaken, hnone]
    rfl
  · have hpackingNone (t : ReplyHop) : outputs next (enqueued 1) t (packing b) = [] := rfl
    have hnone (t : ReplyHop) : outputs next (enqueued 1) t [.write, .deliver 25] = [] := rfl
    rw [crossing, outputs_append, outputs_append, hpacked, harrived, hpackingNone, hnone, outputs,
      henqueued, outputs, List.nil_append, List.nil_append, List.append_nil]

/-- The frame that establishes the channel. -/
def linkBytes : Bytes :=
  (Frame.encode (.start tight.key .requests) (.ofChannel .establish 5) [7]).1

/-- The channel is registered on the previous relay, and the last one hears of it. -/
def announcing : List ReplyHopEvent :=
  [.previous .keep (.join 1), .previous .keep (.request (.establish 1 [7])), .previous .keep .send,
    .previous .keep .send, .request linkBytes]

/-- The frame has been written, and arrived. -/
def announced : ReplyHop :=
  { resting ⟨0, 0, .zero, LinkMetrics.zero.countConnection,
      LinkMetrics.zero.countConnection.countSent linkBytes.length,
      .start tight.key .replies, .start tight.key .replies⟩ false [] with
    registry := .empty 64
    edge := { (start tight).edge with unread := linkBytes } }

theorem foldl_announcing : announcing.foldl next (start tight) = announced := by
  rfl

theorem fit_of_unborn {l : ChannelLink} {s : ReplyHop} {e : ReplyHopEvent} (hs : l.Unborn s)
    (hlast : (s.next e).edge.connection = s.edge.connection)
    (hprevious : (s.next e).previous.edge.connection = s.previous.edge.connection)
    (harrive : ∀ shuffle bytes, e ≠ .previous shuffle (.arrive bytes))
    (hfinish : ∀ shuffle, e ≠ .previous shuffle .finish) : Fit l s e := by
  refine ⟨⟨hlast, hprevious, harrive, hfinish⟩, .inr hs, fun hl => ?_⟩
  have hlast := hs.last
  rw [hl.last] at hlast
  cases hlast

theorem unborn_of_empty {s : ReplyHop} (hr : s.registry.channels = []) (ht : s.edge.table = .empty)
    (hp : ∀ p ∈ s.previous.edge.table.pairs, p.1 = 5) : tightLink.Unborn s := by
  refine ⟨?_, fun c => ?_, fun edge hedge => hp _ (EdgeIdTable.mem_of_localId? hedge)⟩
  · rw [ChannelRegistry.contains, ChannelRegistry.find?, hr]
    rfl
  · rw [ht, EdgeIdTable.edgeId?_empty]
    exact (Option.some_ne_none _).symm

theorem along_announcing : Along next (Fit tightLink) (start tight) announcing :=
  ⟨fit_of_unborn (unborn_of_empty rfl rfl nofun) rfl rfl nofun nofun,
    fit_of_unborn (unborn_of_empty rfl rfl nofun) rfl rfl nofun nofun,
    fit_of_unborn (unborn_of_empty rfl rfl nofun) rfl rfl nofun nofun,
    fit_of_unborn (unborn_of_empty rfl rfl fun _ hp => congrArg Prod.fst (List.mem_singleton.1 hp)) rfl rfl
      nofun nofun,
    fit_of_unborn (unborn_of_empty rfl rfl fun _ hp => congrArg Prod.fst (List.mem_singleton.1 hp)) rfl rfl
      nofun nofun, trivial⟩

theorem readHead_linkBytes : Frame.readHead 64 (.start tight.key .requests) linkBytes =
    ⟨.ok ⟨.establish, 5, Bytes.fit Frame.headPayloadLength [7], 16⟩, [],
      ⟨tight.key, .requests, 1⟩⟩ :=
  @Frame.readHead_head 64 (.start tight.key .requests) .establish 5 [7] (by decide) (by decide) []

/-- The last relay as it receives the frame. -/
def unlinked : InboundState := ⟨.empty 64, .empty, LinkMetrics.zero.countConnection, .ofList [9]⟩

theorem receive_linkBytes : unlinked.receive tight.inbound (.start tight.key .requests) linkBytes =
    ⟨none, ⟨⟨[lastChannel []], 64, 0, 0⟩, ⟨[(5, 9)]⟩, LinkMetrics.zero.countConnection.countReceived 20,
      ⟨[], 10⟩⟩, [.establish 9 [7]], [], ⟨tight.key, .requests, 1⟩⟩ := by
  have hread : Frame.readHead tight.inbound.maxFrameLength (.start tight.key .requests) linkBytes =
    ⟨.ok ⟨.establish, 5, Bytes.fit Frame.headPayloadLength [7], 16⟩, [],
      ⟨tight.key, .requests, 1⟩⟩ := readHead_linkBytes
  rw [InboundState.receive, receiveFrame_of_ok (congrArg ReadResult.answer hread), hread]
  rfl

theorem receiveNext?_announced : announced.edge.receiveNext? announced.registry =
    some ([.establish 9 [7]], { announced.edge with
      receiver := ⟨⟨tight.key, .requests, 1⟩, 1⟩
      table := ⟨[(5, 9)]⟩
      metrics := LinkMetrics.zero.countConnection.countReceived 20
      draws := ⟨[], 10⟩
      unread := [] }, ⟨[lastChannel []], 64, 0, 0⟩) := by
  have hne : announced.edge.unread ≠ [] := by
    refine List.ne_nil_of_length_pos ?_
    rw [announced, linkBytes, Frame.encode_eq, List.length_append, Frame.length_head]
    omega
  exact InboundEdge.receiveNext?_of_receive (e := announced.edge) (r := announced.registry) rfl hne
    receive_linkBytes

theorem announced_hear : ∃ v, v.InStep ∧ announced.next .hear = resting v false [] := by
  refine ⟨⟨0, 0, .zero, LinkMetrics.zero.countConnection.countReceived 20,
    LinkMetrics.zero.countConnection.countSent linkBytes.length, .start tight.key .replies,
    .start tight.key .replies⟩, rfl, ?_⟩
  rw [next, hear, receiveNext?_announced]
  rfl

/-- The channel becomes registered on both relays. -/
def linking : List ReplyHopEvent := announcing ++ [.hear]

theorem along_linking : ∃ v, v.InStep ∧ linking.foldl next (start tight) = resting v false [] ∧
    Along next (Fit tightLink) (start tight) linking := by
  obtain ⟨v, hstep, hheard⟩ := announced_hear
  refine ⟨v, hstep, ?_, ?_⟩
  · rw [linking, List.foldl_append, foldl_announcing, List.foldl_cons, List.foldl_nil, hheard]
  · rw [linking, along_append, foldl_announcing]
    refine ⟨along_announcing, fit_of_unborn (unborn_of_empty rfl rfl fun p hp => ?_) ?_ ?_ nofun nofun, trivial⟩
    · exact congrArg Prod.fst (List.mem_singleton.1 hp)
    · rw [hheard]
      rfl
    · rw [hheard]
      rfl

theorem tightSizing_fits : tightSizing.Fits := ⟨rfl, by decide, by decide⟩

/-- One reply crosses while its slot is free. -/
theorem crossing_prefix_taken : tightSizing.Fits ∧
    Along next (Fit tightLink) (start tight) (linking ++ crossing 1) ∧
    outputs next (enqueued 1) (start tight) (linking ++ crossing 1) = crossed false 1 ∧
    (outputs next (arrived tightLink) (start tight) (linking ++ crossing 1)).flatMap
      (fun a => ReplyPayload.data a.2) <+: [1] := by
  obtain ⟨v, hstep, hlinked, hlinking⟩ := along_linking
  obtain ⟨v', -, hcrossed, hcrossing, htaken, henqueued⟩ := resting_crosses hstep false [] 1
  have hfit : Along next (Fit tightLink) (start tight) (linking ++ crossing 1) := by
    rw [along_append, hlinked]
    exact ⟨hlinking, hcrossing⟩
  have htook : outputs next (taken 9) (start tight) (linking ++ crossing 1) = [1] := by
    rw [outputs_append, hlinked, htaken]
    rfl
  obtain ⟨hfront, -, -, -⟩ := replies_prefix_taken tight tightSizing_fits tightLink _ hfit
  refine ⟨tightSizing_fits, hfit, ?_, ?_⟩
  · rw [outputs_append, hlinked, henqueued]
    rfl
  · rw [← htook]
    exact hfront

/-- Three replies of a channel cross. The mixer of the previous relay takes the first only after the
second has come, which is passed over; then the third is enqueued. -/
def overtaking : List ReplyHopEvent :=
  linking ++ (crossing 1 ++ (crossing 2 ++ (.previous .keep .take :: crossing 3)))

theorem overtaking_leaves_gap : tightSizing.Fits ∧
    Along next (Fit tightLink) (start tight) overtaking ∧
    ¬ (outputs next (enqueued 1) (start tight) overtaking).flatMap ReplyPayload.data <+:
        outputs next (taken 9) (start tight) overtaking := by
  obtain ⟨v, hstep, hlinked, hlinking⟩ := along_linking
  obtain ⟨v₁, hstep₁, hcrossed₁, hcrossing₁, htaken₁, henqueued₁⟩ := resting_crosses hstep false [] 1
  obtain ⟨v₂, hstep₂, hcrossed₂, hcrossing₂, htaken₂, henqueued₂⟩ := resting_crosses hstep₁ true
    ([] ++ (crossed false 1).map (.reply 1)) 2
  let v₃ : Tally := { v₂ with previousRound := v₂.previousRound + 1 }
  have htake : (resting v₂ true ([] ++ (crossed false 1).map (.reply 1) ++
      (crossed true 2).map (.reply 1))).next (.previous .keep .take) = resting v₃ false [] := rfl
  obtain ⟨v₄, -, hcrossed₄, hcrossing₄, htaken₄, henqueued₄⟩ := @resting_crosses v₃ hstep₂ false [] 3
  refine ⟨tightSizing_fits, ?_, ?_⟩
  · rw [overtaking, along_append, along_append, along_append, hlinked, hcrossed₁, hcrossed₂, Along, htake]
    refine ⟨hlinking, hcrossing₁, hcrossing₂, ?_, hcrossing₄⟩
    refine fit_of_linked ⟨rfl, rfl, rfl, rfl⟩ ⟨rfl, rfl, rfl, rfl⟩ rfl rfl ?_ ?_
    · intro shuffle bytes harrive
      cases harrive
    · intro shuffle hfinish
      cases hfinish
  · have htook : outputs next (taken 9) (start tight) overtaking = [1, 2, 3] := by
      rw [overtaking, outputs_append, outputs_append, outputs_append, hlinked, hcrossed₁, hcrossed₂,
        outputs, htake, htaken₁, htaken₂, htaken₄]
      rfl
    have hhanded : outputs next (enqueued 1) (start tight) overtaking = crossed false 1 ++ crossed false 3 := by
      rw [overtaking, outputs_append, outputs_append, outputs_append, hlinked, hcrossed₁, hcrossed₂,
        outputs, htake, henqueued₁, henqueued₂, henqueued₄]
      rfl
    rw [htook, hhanded]
    decide

end ReplyHop
end MixRelay
