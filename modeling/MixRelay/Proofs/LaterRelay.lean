import MixRelay.MessageOrder
import MixRelay.Proofs.EdgeMirror

/-!
# A relay behind the first

Its receiver makes the channels and opens the rounds, and its mixer takes the requests that the
receiver hands on. The table of the edge and the registry are changed by separate steps of the
receiver, but between two frames each registered channel has one identifier on the edge, and each
identifier leads to a registered channel.
-/
namespace MixRelay

/-- What the reply side does to the channels that the request side shares with it. -/
inductive ReplySideChange
  | claim (id : ChannelId)
  | closeRound
  | buffers (id : ChannelId) (proxy : ProxyBuffers)

/-- The request side of a relay behind the first: its edge to the previous relay, its channels, the
messages that wait behind the receiver, and the mixer. -/
structure LaterRelay where
  edge : InboundEdge
  registry : ChannelRegistry
  waiting : List Message
  mixer : RequestMixer

/-- What the threads and the previous relay do: it connects, its bytes arrive or end, the connection
is dropped, a frame is received, the mixer takes the next message or gives up waiting for one, replies
are handed to the edge and sent, and the reply side changes the channels. -/
inductive LaterRelayEvent
  | accept
  | arrive (bytes : Bytes)
  | finish
  | drop
  | receive
  | take (shuffle : Shuffle)
  | timeout (shuffle : Shuffle)
  | reply (message : Message)
  | send
  | share (change : ReplySideChange)

namespace ChannelRegistry

def replySide (r : ChannelRegistry) : ReplySideChange → ChannelRegistry
  | .claim id => r.modify id fun c => c.claimReply.2
  | .closeRound => r.closeReplyRound
  | .buffers id proxy => r.modify id fun c => { c with proxy := proxy }

/-- The reply side leaves alone which channels there are, whether they are established, and whether
they have sent. -/
theorem replySide_channels (r : ChannelRegistry) (change : ReplySideChange) :
    ∃ f : Channel → Channel, (r.replySide change).channels = r.channels.map f ∧
      ∀ c, (f c).id = c.id ∧ (f c).established = c.established ∧
        (f c).requestClaimed = c.requestClaimed := by
  cases change with
  | claim id =>
    refine ⟨fun c => if c.id = id then c.claimReply.2 else c, rfl, fun c => ?_⟩
    dsimp only
    split <;> exact ⟨rfl, rfl, rfl⟩
  | closeRound => exact ⟨Channel.clearReply, rfl, fun _ => ⟨rfl, rfl, rfl⟩⟩
  | buffers id proxy =>
    refine ⟨fun c => if c.id = id then { c with proxy := proxy } else c, rfl, fun c => ?_⟩
    dsimp only
    split <;> exact ⟨rfl, rfl, rfl⟩

@[simp] theorem slots_replySide (r : ChannelRegistry) (change : ReplySideChange) :
    (r.replySide change).slots = r.slots := by
  obtain ⟨f, hf, hsame⟩ := r.replySide_channels change
  rw [slots, hf, List.map_map, slots]
  refine List.map_congr_left fun c _ => ?_
  obtain ⟨hid, -, hclaimed⟩ := hsame c
  exact Prod.ext hid hclaimed

/-- A channel that is changed as soon as it is made. -/
theorem modify_add {r : ChannelRegistry} {id : ChannelId} (h : id ∉ r.ids) (f : Channel → Channel) :
    (r.add id).modify id f =
      { r with channels := r.channels ++ [f (Channel.new id r.proxyCapacity)] } := by
  have hothers : r.channels.map (fun c => if c.id = id then f c else c) = r.channels := by
    refine (List.map_congr_left fun c hc => if_neg fun heq => h ?_).trans (List.map_id _)
    exact List.mem_map.2 ⟨c, hc, heq⟩
  have hnew : (if (Channel.new id r.proxyCapacity).id = id then f (Channel.new id r.proxyCapacity)
      else Channel.new id r.proxyCapacity) = f (Channel.new id r.proxyCapacity) := if_pos rfl
  rw [modify, add, List.map_append, hothers, List.map_singleton, hnew]

end ChannelRegistry

/-- Sending replies leaves alone what requests are received with. -/
theorem InboundEdge.sendNext?_table {e e' : InboundEdge} {bytes : Bytes}
    (h : e.sendNext? = some (bytes, e')) : e'.table = e.table ∧ e'.draws = e.draws := by
  unfold sendNext? at h
  split at h
  · split at h
    · cases h
      exact ⟨rfl, rfl⟩
    · cases h
  · split at h
    · cases h
    · cases h
      exact ⟨rfl, rfl⟩

namespace LaterRelay

def start (inbound : InboundSettings) (key : EdgeKey) (draws : Draws) (proxyCapacity : Nat)
    (settings : MixerSettings) : LaterRelay :=
  ⟨.start inbound key draws, .empty proxyCapacity, [], .start settings⟩

/-- What receiving the next frame starts from. -/
def inbound (s : LaterRelay) : InboundState := ⟨s.registry, s.edge.table, s.edge.metrics, s.edge.draws⟩

/-- Receives the next frame if there is something to receive, and tells what was handed on. -/
def receive (s : LaterRelay) : List Message × LaterRelay :=
  match s.edge.receiveNext? s.registry with
  | some (handedOn, edge, registry) =>
    (handedOn, { s with edge := edge, registry := registry, waiting := s.waiting ++ handedOn })
  | none => ([], s)

/-- The mixer meets an event, and what waits afterwards is given; tells what has left. -/
def mix (s : LaterRelay) (shuffle : Shuffle) (rest : List Message) (e : MixerEvent) :
    List Message × LaterRelay :=
  let t := s.mixer.step shuffle.order e
  (t.sent, { s with waiting := rest, mixer := t.mixer, registry := t.close s.registry })

/-- One step, with the messages that leave the mixer in it. -/
def step (s : LaterRelay) : LaterRelayEvent → List Message × LaterRelay
  | .accept => ([], { s with edge := s.edge.accept })
  | .arrive bytes => ([], { s with edge := s.edge.arrive bytes })
  | .finish => ([], { s with edge := s.edge.finish })
  | .drop => ([], { s with edge := s.edge.drop.2 })
  | .receive => ([], s.receive.2)
  | .take shuffle =>
    match s.waiting with
    | m :: rest => s.mix shuffle rest (.arrival m)
    | [] => ([], s)
  | .timeout shuffle => s.mix shuffle s.waiting .timeout
  | .reply m => ([], { s with edge := { s.edge with replies := s.edge.replies ++ [m] } })
  | .send =>
    match s.edge.sendNext? with
    | some (_, edge) => ([], { s with edge := edge })
    | none => ([], s)
  | .share change => ([], { s with registry := s.registry.replySide change })

def next (s : LaterRelay) (e : LaterRelayEvent) : LaterRelay := (s.step e).2

/-- The messages that the receiver hands on in a step. -/
def heardAt (s : LaterRelay) : LaterRelayEvent → List Message
  | .receive => s.receive.1
  | _ => []

/-- What leaves the mixer, step by step. -/
def departures : LaterRelay → List LaterRelayEvent → List (List Message) :=
  outputs next fun s e => [(s.step e).1]

/-- The ways to receive: the next frame is not all there and nothing changes but the connection, or it
is, and it is dealt with. -/
theorem receive_line_cases (s : LaterRelay) :
    ((s.edge.isConnected = true → Frame.Lacks s.edge.settings.maxFrameLength s.edge.requestKeystream
        s.edge.unread) ∧
      s.receive.1 = [] ∧ s.receive.2.inbound = s.inbound ∧ s.receive.2.waiting = s.waiting ∧
      s.receive.2.mixer = s.mixer ∧ s.receive.2.edge.settings = s.edge.settings) ∨
    ∃ f behind t handedOn, s.edge.isConnected = true ∧
      TypedFrame.Leads s.edge.settings.maxFrameLength s.edge.requestKeystream s.edge.unread f behind ∧
      InboundState.Serves s.edge.settings s.inbound f t handedOn ∧
      s.receive.1 = handedOn ∧ s.receive.2.inbound = t ∧
      s.receive.2.waiting = s.waiting ++ handedOn ∧ s.receive.2.mixer = s.mixer ∧
      s.receive.2.edge.settings = s.edge.settings := by
  cases hc : s.edge.isConnected with
  | false =>
    have hnone : s.edge.receiveNext? s.registry = none := by
      unfold InboundEdge.receiveNext?
      rw [hc]
      rfl
    rw [receive, hnone]
    exact .inl ⟨nofun, rfl, rfl, rfl, rfl, rfl⟩
  | true =>
    rcases TypedFrame.lacks_or_leads_of_input s.edge.settings.maxFrameLength s.edge.requestKeystream
        s.edge.unread with hlacks | ⟨f, behind, hleads⟩
    · rcases InboundEdge.receiveNext?_of_lacks hc s.registry hlacks with hnone | ⟨ks, hdown⟩
      · rw [receive, hnone]
        exact .inl ⟨fun _ => hlacks, rfl, rfl, rfl, rfl, rfl⟩
      · rw [receive, hdown]
        exact .inl ⟨fun _ => hlacks, rfl, rfl, List.append_nil _, rfl, rfl⟩
    · obtain ⟨t, handedOn, hreceive, hserves⟩ :=
        InboundEdge.receiveNext?_of_leads hc s.registry hleads
      rw [receive, hreceive]
      exact .inr ⟨f, behind, t, handedOn, rfl, hleads, hserves, rfl, rfl, rfl, rfl, rfl⟩

/-- Nothing changes but the connection, or one frame is dealt with. -/
theorem receive_cases (s : LaterRelay) :
    (s.receive.1 = [] ∧ s.receive.2.inbound = s.inbound ∧ s.receive.2.waiting = s.waiting ∧
      s.receive.2.mixer = s.mixer) ∨
    ∃ f t handedOn, InboundState.Serves s.edge.settings s.inbound f t handedOn ∧
      s.receive.1 = handedOn ∧ s.receive.2.inbound = t ∧
      s.receive.2.waiting = s.waiting ++ handedOn ∧ s.receive.2.mixer = s.mixer := by
  rcases s.receive_line_cases with ⟨-, hnone, hinbound, hwaiting, hmixer, -⟩ |
    ⟨f, -, t, handedOn, -, -, hserves, hhanded, hinbound, hwaiting, hmixer, -⟩
  · exact .inl ⟨hnone, hinbound, hwaiting, hmixer⟩
  · exact .inr ⟨f, t, handedOn, hserves, hhanded, hinbound, hwaiting, hmixer⟩

/-- A frame that is all there is dealt with as its handler says. -/
theorem receive_of_handle {s : LaterRelay} {f : TypedFrame} {behind : Bytes} {t : InboundState}
    {handedOn : List Message} (hc : s.edge.isConnected = true)
    (h : TypedFrame.Leads s.edge.settings.maxFrameLength s.edge.requestKeystream s.edge.unread f behind)
    (hhandle : s.inbound.handle s.edge.settings f.head
      (f.payload.drop Frame.headPayloadLength ++ behind) = ⟨none, t, handedOn, behind⟩) :
    s.receive = (handedOn, { s with
      edge := { s.edge with
        receiver := ⟨s.edge.requestKeystream.advance, s.edge.connection.generation⟩
        table := t.table
        metrics := t.metrics
        draws := t.draws
        unread := behind }
      registry := t.registry
      waiting := s.waiting ++ handedOn }) := by
  have hhead : (Frame.readHead s.edge.settings.maxFrameLength s.edge.requestKeystream
      s.edge.unread).answer = .ok f.head := congrArg ReadResult.answer h
  have hreceive : s.inbound.receive s.edge.settings s.edge.requestKeystream s.edge.unread =
      ⟨none, t, handedOn, behind, s.edge.requestKeystream.advance⟩ := by
    rw [InboundState.receive, receiveFrame_of_ok hhead, h, hhandle]
  rw [receive, InboundEdge.receiveNext?_of_receive hc (List.ne_nil_of_length_pos h.lt_length) hreceive]

/-- The other steps leave the names on the edge and the source of draws alone. -/
theorem edge_step (s : LaterRelay) {e : LaterRelayEvent} (hreceive : e ≠ .receive) :
    (s.next e).edge.table = s.edge.table ∧ (s.next e).edge.draws = s.edge.draws := by
  cases e with
  | receive => exact absurd rfl hreceive
  | arrive bytes =>
    rw [next, step, InboundEdge.arrive]
    dsimp only
    split <;> exact ⟨rfl, rfl⟩
  | finish =>
    rw [next, step, InboundEdge.finish]
    dsimp only
    split <;> exact ⟨rfl, rfl⟩
  | take shuffle =>
    rw [next, step]
    split <;> exact ⟨rfl, rfl⟩
  | send =>
    rw [next, step]
    split
    · rename_i hsend
      exact InboundEdge.sendNext?_table hsend
    · exact ⟨rfl, rfl⟩
  | _ => exact ⟨rfl, rfl⟩

/-- The other steps hand nothing on. They leave the channels alone but for their reply side, unless the
mixer closes a round. -/
theorem registry_step (s : LaterRelay) {e : LaterRelayEvent} (hreceive : e ≠ .receive) :
    (s.next e).registry = s.registry ∨ (s.next e).registry = s.registry.closeRequestRound ∨
      ∃ change, (s.next e).registry = s.registry.replySide change := by
  have hmix (shuffle : Shuffle) (rest : List Message) (event : MixerEvent) :
      (s.mix shuffle rest event).2.registry = s.registry ∨
        (s.mix shuffle rest event).2.registry = s.registry.closeRequestRound := by
    rw [mix, RequestMixerStep.close]
    dsimp only
    split
    · exact .inr rfl
    · exact .inl rfl
  cases e with
  | receive => exact absurd rfl hreceive
  | take shuffle =>
    rw [next, step]
    split
    · rename_i m rest _
      exact (hmix shuffle rest (.arrival m)).imp_right .inl
    · exact .inl rfl
  | timeout shuffle => exact (hmix shuffle s.waiting .timeout).imp_right .inl
  | send =>
    rw [next, step]
    split <;> exact .inl rfl
  | share change => exact .inr (.inr ⟨change, rfl⟩)
  | _ => exact .inl rfl

end LaterRelay

/-- Each registered channel is established and has one identifier on the edge, and the table has no
others. -/
structure Paired (table : EdgeIdTable) (registry : ChannelRegistry) : Prop where
  locals : table.pairs.map Prod.snd = registry.ids
  edges : (table.pairs.map Prod.fst).Nodup
  ids : registry.ids.Nodup
  established : ∀ c ∈ registry.channels, c.established = true

namespace Paired
variable {table : EdgeIdTable} {registry : ChannelRegistry} {edge id : ChannelId}

theorem empty (proxyCapacity : Nat) : Paired .empty (.empty proxyCapacity) where
  locals := rfl
  edges := List.nodup_nil
  ids := List.nodup_nil
  established := nofun

/-- A change of the channels that concerns neither which there are nor whether they are established. -/
theorem map (h : Paired table registry) {f : Channel → Channel} {r : ChannelRegistry}
    (hr : r.channels = registry.channels.map f)
    (hf : ∀ c, (f c).id = c.id ∧ (c.established = true → (f c).established = true)) :
    Paired table r := by
  have hids : r.ids = registry.ids := by
    rw [ChannelRegistry.ids, ChannelRegistry.ids, hr, List.map_map]
    exact List.map_congr_left fun c _ => (hf c).1
  refine ⟨h.locals.trans hids.symm, h.edges, hids ▸ h.ids, fun c hc => ?_⟩
  rw [hr] at hc
  obtain ⟨d, hd, rfl⟩ := List.mem_map.1 hc
  exact (hf d).2 (h.established d hd)

theorem modify (h : Paired table registry) {f : Channel → Channel}
    (hf : ∀ c, (f c).id = c.id ∧ (c.established = true → (f c).established = true))
    (id : ChannelId) : Paired table (registry.modify id f) := by
  refine h.map rfl fun c => ?_
  split
  · exact hf c
  · exact ⟨rfl, fun hc => hc⟩

/-- While an identifier of the edge is free, there is also one for a channel. -/
theorem length_lt (h : Paired table registry) (hfree : table.containsEdge edge = false) :
    registry.channels.length < 2 ^ 32 := by
  have hnew : edge ∉ table.pairs.map Prod.fst := by
    intro hmem
    exact absurd (hfree.symm.trans (EdgeIdTable.containsEdge_iff.2 hmem)) nofun
  have hlength := length_lt_of_nodup_cons (List.nodup_cons.2 ⟨hnew, h.edges⟩)
  have hsame := congrArg List.length h.locals
  rw [List.length_map, ChannelRegistry.ids, List.length_map] at hsame
  rwa [List.length_map, hsame] at hlength

theorem createFresh_not_mem (h : Paired table registry) (hfree : table.containsEdge edge = false)
    (draws : Draws) : (registry.createFresh draws).1 ∉ table.pairs.map Prod.snd := by
  rw [h.locals]
  exact ChannelRegistry.createFresh_not_mem (h.length_lt hfree) draws

/-- Neither of the two identifiers is taken when a new channel is recorded. -/
theorem insert_createFresh (h : Paired table registry) (hfree : table.containsEdge edge = false)
    (draws : Draws) :
    table.insert edge (registry.createFresh draws).1 =
      (true, table.add edge (registry.createFresh draws).1) := by
  have hlocal : table.containsLocal (registry.createFresh draws).1 = false := by
    rw [EdgeIdTable.containsLocal, EdgeIdTable.edgeId?_eq_none.2 (h.createFresh_not_mem hfree draws)]
    rfl
  rw [EdgeIdTable.insert, hfree, hlocal]
  rfl

/-- The new channel stands in both. -/
theorem add (h : Paired table registry) (hfree : table.containsEdge edge = false)
    (hid : id ∉ registry.ids) {c : Channel} (hc : c.id = id) (hestablished : c.established = true) :
    Paired (table.add edge id) { registry with channels := registry.channels ++ [c] } := by
  have hnew : edge ∉ table.pairs.map Prod.fst := by
    intro hmem
    exact absurd (hfree.symm.trans (EdgeIdTable.containsEdge_iff.2 hmem)) nofun
  have hids : ChannelRegistry.ids { registry with channels := registry.channels ++ [c] } =
      registry.ids ++ [id] := by
    rw [ChannelRegistry.ids, List.map_append, ← hc]
    rfl
  refine ⟨?_, ?_, ?_, fun d hd => ?_⟩
  · rw [EdgeIdTable.add, List.map_append, h.locals, hids]
    rfl
  · rw [EdgeIdTable.add, List.map_append]
    exact List.concat_eq_append ▸ h.edges.concat hnew
  · rw [hids]
    exact List.concat_eq_append ▸ h.ids.concat hid
  · rcases List.mem_append.1 hd with hd | hd
    · exact h.established d hd
    · rwa [List.mem_singleton.1 hd]

/-- The channel goes from both. -/
theorem discard (h : Paired table registry) (hknown : table.localId? edge = some id) :
    Paired (table.dropEdge edge) (registry.discard id) := by
  have hlocals : (table.pairs.map Prod.snd).Nodup := h.locals ▸ h.ids
  have hpair := EdgeIdTable.mem_of_localId? hknown
  have hsame : ∀ p ∈ table.pairs, decide (p.1 ≠ edge) = decide (p.2 ≠ id) := by
    intro p hp
    refine decide_eq_decide.2 (not_congr ⟨fun hedge => ?_, fun hid => ?_⟩)
    · exact congrArg Prod.snd (List.inj_on_of_nodup_map h.edges hp hpair hedge)
    · exact congrArg Prod.fst (List.inj_on_of_nodup_map hlocals hp hpair hid)
  have hids : (registry.discard id).ids = registry.ids.filter fun d => d ≠ id := by
    rw [ChannelRegistry.ids, ChannelRegistry.ids, ChannelRegistry.discard, List.filter_map]
    rfl
  refine ⟨?_, h.edges.sublist (List.filter_sublist.map _), hids ▸ h.ids.filter _, fun c hc => ?_⟩
  · rw [hids, ← h.locals, List.filter_map, EdgeIdTable.dropEdge]
    exact congrArg _ (List.filter_congr hsame)
  · exact h.established c (ChannelRegistry.mem_discard.1 hc).1

/-- Under each identifier of the edge there is the channel that the table names. -/
theorem channel? {st : InboundState} (h : Paired st.table st.registry)
    (hknown : st.table.localId? edge = some id) :
    ∃ c, st.channel? edge = some c ∧ c.id = id := by
  have hmem : id ∈ st.registry.ids := by
    rw [← h.locals]
    exact List.mem_map.2 ⟨_, EdgeIdTable.mem_of_localId? hknown, rfl⟩
  obtain ⟨c, hc, rfl⟩ := List.mem_map.1 hmem
  refine ⟨c, ?_, rfl⟩
  rw [InboundState.channel?, hknown]
  exact ChannelRegistry.find?_of_mem h.ids hc

theorem existsUnique_edge (h : Paired table registry) (hid : id ∈ registry.ids) :
    ∃! edge, (edge, id) ∈ table.pairs := by
  have hlocals : (table.pairs.map Prod.snd).Nodup := h.locals ▸ h.ids
  rw [← h.locals] at hid
  obtain ⟨⟨edge, id⟩, hpair, rfl⟩ := List.mem_map.1 hid
  refine ⟨edge, hpair, fun other hother => ?_⟩
  exact congrArg Prod.fst (List.inj_on_of_nodup_map hlocals hother hpair rfl)

theorem establish {st : InboundState} (h : Paired st.table st.registry)
    (hfree : st.table.containsEdge edge = false) (payload : Bytes) :
    Paired (st.establish edge payload).1.table (st.establish edge payload).1.registry := by
  have hid := ChannelRegistry.createFresh_not_mem (h.length_lt hfree) st.draws
  have hinsert := h.insert_createFresh hfree st.draws
  have hregistry := ChannelRegistry.modify_add hid fun c => c.establish.claimRequest.2
  unfold InboundState.establish
  dsimp only
  rw [hinsert]
  exact hregistry ▸ h.add hfree hid rfl rfl

theorem serves {s : InboundSettings} {st t : InboundState} {f : TypedFrame}
    {handedOn : List Message} (h : Paired st.table st.registry)
    (hserves : InboundState.Serves s st f t handedOn) : Paired t.table t.registry := by
  cases hserves with
  | refused => exact h
  | forgotten => exact h
  | established n kind unknown fit =>
    have hcounted : Paired { st with metrics := st.metrics.countReceived n }.table
        { st with metrics := st.metrics.countReceived n }.registry := h
    exact hcounted.establish unknown _
  | requested n c =>
    exact h.modify (f := fun c => c.claimRequest.2) (fun _ => ⟨rfl, fun hc => hc⟩) c.id
  | opened =>
    exact h.map (f := Channel.clearRequest) rfl fun _ => ⟨rfl, fun hc => hc⟩
  | released n d kind known => exact h.discard known

end Paired

namespace LaterRelay
variable {s : LaterRelay}

theorem paired_step (h : Paired s.edge.table s.registry) (e : LaterRelayEvent) :
    Paired (s.next e).edge.table (s.next e).registry := by
  by_cases hreceive : e = .receive
  · subst hreceive
    rcases s.receive_cases with ⟨-, hsame, -⟩ | ⟨f, t, handedOn, hserves, -, hafter, -⟩
    · exact (congrArg (fun st : InboundState => Paired st.table st.registry) hsame).mpr h
    · have hbefore : Paired s.inbound.table s.inbound.registry := h
      have hpaired := hbefore.serves hserves
      exact (congrArg (fun st : InboundState => Paired st.table st.registry) hafter).mpr hpaired
  · rw [(s.edge_step hreceive).1]
    rcases s.registry_step hreceive with hsame | hclosed | ⟨change, hshared⟩
    · rwa [hsame]
    · rw [hclosed]
      exact h.map (f := Channel.clearRequest) rfl fun _ => ⟨rfl, fun hc => hc⟩
    · rw [hshared]
      obtain ⟨f, hf, hkept⟩ := s.registry.replySide_channels change
      exact h.map hf fun c => ⟨(hkept c).1, fun hc => (hkept c).2.1.trans hc⟩

/-- Between two frames the table of the edge and the registry name the same channels, all of them
established. So a new channel is always recorded, and an identifier of the edge never leads to a
channel that is not there. -/
theorem table_matches_registry (inbound : InboundSettings) (key : EdgeKey) (draws : Draws)
    (proxyCapacity : Nat) (settings : MixerSettings) (events : List LaterRelayEvent) :
    let s := events.foldl next (start inbound key draws proxyCapacity settings)
    Paired s.edge.table s.registry ∧
      (∀ id ∈ s.registry.ids, ∃! edge, (edge, id) ∈ s.edge.table.pairs) ∧
      (∀ edge draws, s.edge.table.containsEdge edge = false →
        (s.edge.table.insert edge (s.registry.createFresh draws).1).1 = true) ∧
      ∀ edge id, s.edge.table.localId? edge = some id →
        ∃ c, s.inbound.channel? edge = some c ∧ c.id = id := by
  intro s
  have hstep (s : LaterRelay) (e : LaterRelayEvent) (h : Paired s.inbound.table s.inbound.registry) :
      Paired (s.next e).inbound.table (s.next e).inbound.registry := paired_step h e
  have hpaired : Paired s.inbound.table s.inbound.registry :=
    foldl_invariant hstep events (.empty proxyCapacity)
  refine ⟨hpaired, fun id hid => hpaired.existsUnique_edge hid, fun edge draws hfree => ?_,
    fun edge id hknown => hpaired.channel? hknown⟩
  exact congrArg Prod.fst (hpaired.insert_createFresh hfree draws)

end LaterRelay

end MixRelay
