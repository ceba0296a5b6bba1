import MixRelay.Proofs.EdgeNames

/-!
# The far relay mirrors the names of the near one

The far relay keeps a channel for each channel that is open on the edge, under the same identifier.
What it makes of the next frame follows from the messages before: it refuses a second request of a
channel in a round, and nothing else.
-/
namespace MixRelay

/-- An establish message or a message has the length that a relay expects of it. -/
def Message.Fits (framing : PayloadFraming) (m : Message) : Prop :=
  ∀ n, framing.inbound? m.kind = some n → m.payload.length = n

/-- The channels that have sent a request since the last batch size, after one more message. -/
def sentAfter (channels : List ChannelId) : Message → List ChannelId
  | .establish c _ | .message c _ => c :: channels
  | .batchSize _ => []
  | _ => channels

/-- What the far relay hands on for a message, and whether it refuses it, with its channel `far c` for
the channel `c` of the near relay. -/
def answered (isLast : Bool) (far : ChannelId → ChannelId) (sent : List ChannelId) :
    Message → List (List Message × Bool)
  | .establish c payload => [([.establish (far c) payload], false)]
  | .message c payload => if c ∈ sent then [([], true)] else [([.message (far c) payload], false)]
  | .release c => [(if isLast then [] else [.release (far c)], false)]
  | .batchSize n => [([.batchSize n], false)]
  | .reply .. => []

/-- Messages do not show what becomes of the channels of others. -/
theorem outputs_answered_congr {far far' : ChannelId → ChannelId} {messages : List Message}
    (h : ∀ m ∈ messages, ∀ c, m.channel? = some c → far' c = far c) (isLast : Bool)
    (sent : List ChannelId) :
    outputs sentAfter (answered isLast far') sent messages =
      outputs sentAfter (answered isLast far) sent messages := by
  induction messages generalizing sent with
  | nil => rfl
  | cons m messages ih =>
    have hsame : answered isLast far' sent m = answered isLast far sent m := by
      cases m with
      | batchSize n => rfl
      | reply c payload => rfl
      | _ => simp only [answered, h _ List.mem_cons_self _ rfl]
    rw [outputs, outputs, hsame, ih fun m hm => h m (List.mem_cons_of_mem _ hm)]

theorem map_snd_named (names : List (ChannelId × ChannelId)) (p : Message × TypedFrame) :
    (named names p).map Prod.snd = openAfter (names.map Prod.snd) p.1 := by
  obtain ⟨m, f⟩ := p
  cases m with
  | establish c payload => exact List.map_append
  | release c =>
    rw [openAfter, List.filter_map]
    rfl
  | _ => rfl

theorem map_snd_foldl_named (names : List (ChannelId × ChannelId))
    (framed : List (Message × TypedFrame)) :
    (framed.foldl named names).map Prod.snd =
      (framed.map Prod.fst).foldl openAfter (names.map Prod.snd) := by
  induction framed generalizing names with
  | nil => rfl
  | cons p framed ih => rw [List.foldl_cons, ih, map_snd_named, List.map_cons, List.foldl_cons]

/-- The frames of a channel come behind that of its establish message. -/
theorem channel?_established {framed : List (Message × TypedFrame)} (h : Along named Names [] framed)
    {m : Message} (hm : m ∈ framed.map Prod.fst) {c : ChannelId} (hc : m.channel? = some c) :
    c ∈ established (framed.map Prod.fst) := by
  obtain ⟨p, hp, rfl⟩ := List.mem_map.1 hm
  obtain ⟨front, rest, rfl⟩ := List.append_of_mem hp
  have hnames := along_iff.1 h front p rest rfl
  have hopen (edge : ChannelId) (hmem : (edge, c) ∈ front.foldl named []) :
      c ∈ established ((front ++ p :: rest).map Prod.fst) := by
    rw [List.map_append, established_append]
    have hc := List.mem_map_of_mem (f := Prod.snd) hmem
    rw [map_snd_foldl_named] at hc
    exact List.mem_append_left _ ((foldl_openAfter_sublist (List.Sublist.refl []) _).subset hc)
  obtain ⟨m, f⟩ := p
  cases m with
  | establish d payload =>
    cases hc
    rw [List.map_append, established_append]
    exact List.mem_append_right _ List.mem_cons_self
  | message d payload =>
    cases hc
    exact hopen _ hnames
  | release d =>
    cases hc
    exact hopen _ hnames
  | batchSize n => cases hc
  | reply d payload => exact hnames.elim

namespace ChannelRegistry
variable {r : ChannelRegistry} {id : ChannelId}

/-- The channels, and whether each has sent in the round. -/
def slots (r : ChannelRegistry) : List (ChannelId × Bool) :=
  r.channels.map fun c => (c.id, c.requestClaimed)

theorem ids_eq_slots (r : ChannelRegistry) : r.ids = r.slots.map Prod.fst := by
  rw [ids, slots, List.map_map]
  rfl

@[simp] theorem slots_add (r : ChannelRegistry) (id : ChannelId) :
    (r.add id).slots = r.slots ++ [(id, false)] := List.map_append

@[simp] theorem slots_closeRequestRound (r : ChannelRegistry) :
    r.closeRequestRound.slots = r.slots.map fun slot => (slot.1, false) := by
  simp only [slots, closeRequestRound, clearRequests, countRequestRound, List.map_map]
  rfl

@[simp] theorem slots_discard (r : ChannelRegistry) (id : ChannelId) :
    (r.discard id).slots = r.slots.filter fun slot => slot.1 ≠ id := by
  rw [slots, slots, discard, List.filter_map]
  rfl

theorem slots_modify {f : Channel → Channel} (hid : ∀ c, (f c).id = c.id)
    (hclaim : ∀ c, (f c).requestClaimed = true) (r : ChannelRegistry) (id : ChannelId) :
    (r.modify id f).slots = r.slots.map fun slot => (slot.1, slot.1 = id || slot.2) := by
  rw [slots, slots, modify, List.map_map, List.map_map]
  refine List.map_congr_left fun c _ => ?_
  by_cases hc : c.id = id <;> simp [hc, hid, hclaim]

theorem find?_of_slot {claimed : Bool} (h : (r.slots.map Prod.fst).Nodup)
    (hmem : (id, claimed) ∈ r.slots) :
    ∃ c, r.find? id = some c ∧ c.id = id ∧ c.requestClaimed = claimed := by
  rw [← ids_eq_slots] at h
  obtain ⟨c, hc, hslot⟩ := List.mem_map.1 hmem
  obtain ⟨rfl, rfl⟩ := Prod.mk.inj hslot
  exact ⟨c, find?_key h hc, rfl, rfl⟩

/-- The channel that is made has an identifier that no other one has. -/
theorem createFresh_fresh (h : r.channels.length < 2 ^ 32) (draws : Draws) :
    (r.createFresh draws).1 ∉ r.slots.map Prod.fst := by
  rw [← ids_eq_slots]
  exact createFresh_not_mem h draws

end ChannelRegistry
namespace InboundState

/-- An established channel has a free identifier and a request in the round. -/
theorem establish_fresh (st : InboundState) {edge : ChannelId}
    (hunknown : st.table.containsEdge edge = false)
    (hids : st.table.pairs.map Prod.snd = st.registry.slots.map Prod.fst)
    (hsize : st.registry.channels.length < 2 ^ 32) (payload : Bytes) :
    ∃ d, d ∉ st.registry.slots.map Prod.fst ∧
      (st.establish edge payload).1.table.pairs = st.table.pairs ++ [(edge, d)] ∧
      (st.establish edge payload).1.registry.slots = st.registry.slots ++ [(d, true)] ∧
      (st.establish edge payload).1.metrics = st.metrics ∧
      (st.establish edge payload).2 = [.establish d payload] := by
  have hfresh := ChannelRegistry.createFresh_fresh hsize st.draws
  refine ⟨(st.registry.createFresh st.draws).1, hfresh, ?_, ?_, rfl, rfl⟩
  · have hlocal : st.table.containsLocal (st.registry.createFresh st.draws).1 = false := by
      rw [← hids] at hfresh
      rw [EdgeIdTable.containsLocal, EdgeIdTable.edgeId?_eq_none.2 hfresh]
      rfl
    unfold establish EdgeIdTable.insert
    dsimp only
    rw [hunknown, hlocal]
    rfl
  · have hadd : (st.registry.createFresh st.draws).2.2 =
        st.registry.add (st.registry.createFresh st.draws).1 := rfl
    have hclaim (r : ChannelRegistry) (d : ChannelId) :
        (r.modify d fun c => c.establish.claimRequest.2).slots =
          r.slots.map fun slot => (slot.1, slot.1 = d || slot.2) :=
      ChannelRegistry.slots_modify (f := fun c => c.establish.claimRequest.2) (fun _ => rfl)
        (fun _ => rfl) r d
    unfold establish
    dsimp only
    rw [hclaim, hadd, ChannelRegistry.slots_add, List.map_append, List.map_singleton]
    congr 1
    · refine (List.map_congr_left fun slot hslot => ?_).trans (List.map_id _)
      have hne : slot.1 ≠ (st.registry.createFresh st.draws).1 := fun heq =>
        hfresh (List.mem_map.2 ⟨slot, hslot, heq⟩)
      rw [decide_eq_false hne, Bool.false_or]
      rfl
    · rw [decide_eq_true rfl, Bool.true_or]

end InboundState

/-- After some frames the far relay has a channel `far c` for each channel `c` that is open, under the
same identifier, and knows which of them have sent in the round. It has counted a fault for each frame
that it refused. -/
structure Mirrors (isLast : Bool) (framed : List (Message × TypedFrame)) (heard : List Hearing)
    (far : ChannelId → ChannelId) (st : InboundState) : Prop where
  table : st.table.pairs = (framed.foldl named []).map fun p => (p.1, far p.2)
  slots : st.registry.slots = (framed.foldl named []).map fun p =>
    (far p.2, decide (p.2 ∈ (framed.map Prod.fst).foldl sentAfter []))
  apart : ∀ front, front <+: framed.map Prod.fst → ∀ c ∈ front.foldl openAfter [],
    ∀ d ∈ front.foldl openAfter [], far c = far d → c = d
  answers : heard.map (fun h => (h.handedOn, h.refused)) =
    outputs sentAfter (answered isLast far) [] (framed.map Prod.fst)
  faults : st.metrics.protocolFaults = (heard.filter Hearing.refused).length

namespace Mirrors
variable {isLast : Bool} {framed : List (Message × TypedFrame)} {heard : List Hearing}
  {far far' : ChannelId → ChannelId} {st t : InboundState} {m : Message} {f : TypedFrame}

theorem start (isLast : Bool) (far : ChannelId → ChannelId) (r : ChannelRegistry) (metrics : LinkMetrics)
    (draws : Draws) (hr : r.slots = []) (hmetrics : metrics.protocolFaults = 0) :
    Mirrors isLast [] [] far ⟨r, .empty, metrics, draws⟩ where
  table := rfl
  slots := hr
  apart := by
    intro front hfront c hc
    rw [List.prefix_nil.1 hfront] at hc
    cases hc
  answers := rfl
  faults := hmetrics

/-- One frame more, which may have brought one channel more. -/
theorem extend (h : Mirrors isLast framed heard far st) (halong : Along named Names [] framed)
    (hfar : ∀ c ∈ established (framed.map Prod.fst), far' c = far c) {x : Hearing}
    (htable : t.table.pairs =
      (named (framed.foldl named []) (m, f)).map fun p => (p.1, far' p.2))
    (hslots : t.registry.slots = (named (framed.foldl named []) (m, f)).map fun p =>
      (far' p.2, decide (p.2 ∈ sentAfter ((framed.map Prod.fst).foldl sentAfter []) m)))
    (hapart : ∀ c ∈ openAfter ((framed.map Prod.fst).foldl openAfter []) m,
      ∀ d ∈ openAfter ((framed.map Prod.fst).foldl openAfter []) m, far' c = far' d → c = d)
    (hanswer : [(x.handedOn, x.refused)] =
      answered isLast far' ((framed.map Prod.fst).foldl sentAfter []) m)
    (hfaults : t.metrics.protocolFaults = st.metrics.protocolFaults + [x].countP Hearing.refused) :
    Mirrors isLast (framed ++ [(m, f)]) (heard ++ [x]) far' t where
  table := by
    rw [List.foldl_append]
    exact htable
  slots := by
    rw [List.foldl_append, List.map_append, List.foldl_append]
    exact hslots
  apart := by
    intro front hfront
    rw [List.map_append, List.map_singleton] at hfront
    rcases List.prefix_concat_iff.1 hfront with rfl | hfront
    · rw [List.foldl_append]
      exact hapart
    · intro c hc d hd heq
      have hknown : ∀ c ∈ front.foldl openAfter [], far' c = far c := by
        intro c hc
        obtain ⟨rest, hrest⟩ := hfront
        refine hfar c ?_
        rw [← hrest, established_append]
        exact List.mem_append_left _
          ((foldl_openAfter_sublist (List.Sublist.refl []) front).subset hc)
      rw [hknown c hc, hknown d hd] at heq
      exact h.apart front hfront c hc d hd heq
  answers := by
    have hknown (m : Message) (hm : m ∈ framed.map Prod.fst) (c : ChannelId)
        (hc : m.channel? = some c) : far' c = far c :=
      hfar c (channel?_established halong hm hc)
    rw [List.map_append, List.map_append, List.map_singleton, List.map_singleton, outputs_concat,
      h.answers, outputs_answered_congr hknown, hanswer]
  faults := by
    rw [hfaults, h.faults, List.filter_append, List.length_append, List.countP_eq_length_filter]

theorem far_injective (h : Mirrors isLast framed heard far st) {p q : ChannelId × ChannelId}
    (hp : p ∈ framed.foldl named []) (hq : q ∈ framed.foldl named []) (heq : far p.2 = far q.2) :
    p.2 = q.2 := by
  have hopen (p : ChannelId × ChannelId) (hp : p ∈ framed.foldl named []) :
      p.2 ∈ (framed.map Prod.fst).foldl openAfter [] := by
    have hmem := List.mem_map_of_mem (f := Prod.snd) hp
    rw [map_snd_foldl_named] at hmem
    exact hmem
  exact h.apart _ (List.prefix_refl _) _ (hopen p hp) _ (hopen q hq) heq

theorem edges_eq (h : Mirrors isLast framed heard far st) :
    st.table.pairs.map Prod.fst = (framed.foldl named []).map Prod.fst := by
  rw [h.table, List.map_map]
  rfl

theorem ids_eq (h : Mirrors isLast framed heard far st) :
    st.registry.slots.map Prod.fst = (framed.foldl named []).map fun p => far p.2 := by
  rw [h.slots, List.map_map]
  rfl

theorem localId? (h : Mirrors isLast framed heard far st)
    (hdistinct : NamesDistinct (framed.foldl named [])) {edge c : ChannelId}
    (hmem : (edge, c) ∈ framed.foldl named []) : st.table.localId? edge = some (far c) := by
  apply EdgeIdTable.localId?_of_mem
  · rw [h.edges_eq]
    exact hdistinct.1
  · rw [h.table]
    exact List.mem_map.2 ⟨_, hmem, rfl⟩

/-- Under the identifier of a channel there is its counterpart, which knows whether it has sent. -/
theorem channel? (h : Mirrors isLast framed heard far st)
    (hdistinct : NamesDistinct (framed.foldl named [])) {edge c : ChannelId}
    (hmem : (edge, c) ∈ framed.foldl named []) :
    ∃ channel, st.channel? edge = some channel ∧ channel.id = far c ∧
      channel.requestClaimed = decide (c ∈ (framed.map Prod.fst).foldl sentAfter []) := by
  have hids : (st.registry.slots.map Prod.fst).Nodup := by
    rw [h.ids_eq]
    refine List.Nodup.map_on ?_ hdistinct.2.of_map
    intro p hp q hq heq
    exact List.inj_on_of_nodup_map hdistinct.2 hp hq (h.far_injective hp hq heq)
  have hslot : (far c, decide (c ∈ (framed.map Prod.fst).foldl sentAfter [])) ∈ st.registry.slots := by
    rw [h.slots]
    exact List.mem_map.2 ⟨_, hmem, rfl⟩
  obtain ⟨channel, hfind, hid, hclaimed⟩ := ChannelRegistry.find?_of_slot hids hslot
  refine ⟨channel, ?_, hid, hclaimed⟩
  rw [InboundState.channel?, h.localId? hdistinct hmem]
  exact hfind

variable {s : InboundSettings} {handedOn : List Message}

/-- What was heard of the next frame. -/
def hearing (st t : InboundState) (f : TypedFrame) (handedOn : List Message) : Hearing :=
  ⟨f.head, handedOn, st.metrics.protocolFaults < t.metrics.protocolFaults⟩

theorem hearing_served (h : t.metrics.protocolFaults = st.metrics.protocolFaults) :
    hearing st t f handedOn = ⟨f.head, handedOn, false⟩ := by
  rw [hearing, h, decide_eq_false (Nat.lt_irrefl _)]

/-- An establish frame makes the one channel that its channel has from now on. -/
theorem establish (h : Mirrors s.isLast framed heard far st) (halong : Along named Names [] framed)
    {c : ChannelId} {payload : Bytes} (hnew : c ∉ established (framed.map Prod.fst))
    (hnames : Names (framed.foldl named []) (.establish c payload, f)) (hkind : f.kind = .establish)
    (hpayload : f.payload = payload) (hfit : f.payload.length = s.framing.establishLength)
    (hserves : InboundState.Serves s st f t handedOn) :
    ∃ far', Mirrors s.isLast (framed ++ [(.establish c payload, f)])
      (heard ++ [hearing st t f handedOn]) far' t := by
  have hdistinct := namesDistinct_of_along halong
  obtain ⟨hedge, hlocal⟩ := hnames
  have hunknown : st.table.containsEdge f.field = false := by
    rw [← Bool.not_eq_true, EdgeIdTable.containsEdge_iff, h.edges_eq]
    exact hedge
  cases hserves with
  | refused n reason =>
    rw [InboundState.Refuses, hkind, hunknown, f.fits_of_length hfit] at reason
    simp at reason
  | established n kind unknown fit =>
    have hids : st.table.pairs.map Prod.snd = st.registry.slots.map Prod.fst := by
      rw [h.table, h.slots, List.map_map, List.map_map]
      rfl
    have hsize : st.registry.channels.length < 2 ^ 32 := by
      have hlength : st.registry.channels.length = (framed.foldl named []).length := by
        have hslots := congrArg List.length h.slots
        rwa [ChannelRegistry.slots, List.length_map, List.length_map] at hslots
      have hless := length_lt_of_nodup_cons (List.nodup_cons.2 ⟨hlocal, hdistinct.2⟩)
      rw [List.length_map] at hless
      omega
    obtain ⟨d, hfresh, htable, hslots, hmetrics, hhanded⟩ := InboundState.establish_fresh
      { st with metrics := st.metrics.countReceived n } unknown hids hsize
      ((Frame.padded f.payload).take s.framing.establishLength)
    rw [f.padded_take hfit] at htable hslots hmetrics hhanded ⊢
    rw [hearing_served (by rw [hmetrics]; rfl), hhanded]
    have hother (e : ChannelId) (he : e ≠ c) : Function.update far c d e = far e :=
      Function.update_of_ne he d far
    have hopen (p : ChannelId × ChannelId) (hp : p ∈ framed.foldl named []) : p.2 ≠ c := by
      rintro rfl
      exact hlocal (List.mem_map_of_mem hp)
    refine ⟨Function.update far c d, h.extend halong ?_ ?_ ?_ ?_ ?_ ?_⟩
    · intro e he
      exact hother e fun heq => hnew (heq ▸ he)
    · rw [htable, h.table, named, List.map_append, List.map_singleton, Function.update_self]
      congr 1
      exact List.map_congr_left fun p hp => by rw [hother _ (hopen p hp)]
    · rw [hslots, h.slots, named, List.map_append, List.map_singleton, Function.update_self, sentAfter]
      congr 1
      · refine List.map_congr_left fun p hp => ?_
        rw [hother _ (hopen p hp)]
        simp [hopen p hp]
      · simp
    · have hold (e : ChannelId) (he : e ∈ (framed.map Prod.fst).foldl openAfter []) :
          e ≠ c ∧ far e ≠ d := by
        have hmem := map_snd_foldl_named [] framed ▸ he
        obtain ⟨p, hp, rfl⟩ := List.mem_map.1 hmem
        refine ⟨hopen p hp, fun heq => hfresh ?_⟩
        rw [h.ids_eq]
        exact List.mem_map.2 ⟨p, hp, heq⟩
      have hself : Function.update far c d c = d := Function.update_self c d far
      intro a ha b hb heq
      rcases List.mem_append.1 ha with ha | ha <;> rcases List.mem_append.1 hb with hb | hb
      · rw [hother a (hold a ha).1, hother b (hold b hb).1] at heq
        exact h.apart _ (List.prefix_refl _) a ha b hb heq
      · rw [List.mem_singleton.1 hb, hself, hother a (hold a ha).1] at heq
        exact absurd heq (hold a ha).2
      · rw [List.mem_singleton.1 ha, hself, hother b (hold b hb).1] at heq
        exact absurd heq.symm (hold b hb).2
      · exact (List.mem_singleton.1 ha).trans (List.mem_singleton.1 hb).symm
    · rw [answered, Function.update_self, hpayload]
    · rw [hmetrics]
      rfl
  | requested n e kind | opened n kind | released n e kind | forgotten n kind =>
    cases hkind.symm.trans kind

/-- The first request of a channel in a round is handed on, and further ones are refused. -/
theorem message (h : Mirrors s.isLast framed heard far st) (halong : Along named Names [] framed)
    {c : ChannelId} {payload : Bytes}
    (hnames : Names (framed.foldl named []) (.message c payload, f)) (hkind : f.kind = .message)
    (hpayload : f.payload = payload) (hfit : f.payload.length = s.framing.messageLength)
    (hserves : InboundState.Serves s st f t handedOn) :
    Mirrors s.isLast (framed ++ [(.message c payload, f)]) (heard ++ [hearing st t f handedOn]) far
      t := by
  have hdistinct := namesDistinct_of_along halong
  obtain ⟨channel, hchannel, hid, hclaimed⟩ := h.channel? hdistinct hnames
  have hsame := h.apart _ (List.prefix_refl _)
  cases hserves with
  | refused n reason =>
    have hsent : c ∈ (framed.map Prod.fst).foldl sentAfter [] := by
      rw [InboundState.Refuses, hkind] at reason
      have hslot := (reason channel hchannel).resolve_right
        (by rw [f.fits_of_length hfit]; exact Bool.false_ne_true.symm)
      exact of_decide_eq_true (hclaimed.symm.trans hslot)
    have hrefused : hearing st { st with metrics := st.metrics.countFault n } f [] =
        ⟨f.head, [], true⟩ :=
      congrArg _ (decide_eq_true (Nat.lt_succ_self _))
    rw [hrefused]
    refine h.extend halong (fun _ _ => rfl) h.table ?_ hsame ?_ rfl
    · rw [h.slots]
      refine List.map_congr_left fun p hp => ?_
      rw [sentAfter, decide_eq_decide.2 (List.mem_cons.trans (or_iff_right_of_imp _))]
      rintro rfl
      exact hsent
    · rw [answered, if_pos hsent]
  | requested n e kind known free fit =>
    obtain rfl := Option.some.inj (hchannel.symm.trans known)
    have hsent : c ∉ (framed.map Prod.fst).foldl sentAfter [] :=
      of_decide_eq_false (hclaimed.symm.trans free)
    have hclaim := ChannelRegistry.slots_modify (f := fun c => c.claimRequest.2) (fun _ => rfl)
      (fun _ => rfl) st.registry channel.id
    rw [hearing_served (by rfl)]
    refine h.extend halong (fun _ _ => rfl) h.table ?_ hsame ?_ rfl
    · dsimp only
      rw [hclaim, h.slots, hid, List.map_map]
      refine List.map_congr_left fun p hp => ?_
      have hiff : far p.2 = far c ↔ p.2 = c := by
        refine ⟨fun heq => ?_, congrArg far⟩
        exact h.far_injective hp hnames heq
      simp [sentAfter, hiff]
    · rw [answered, if_neg hsent, hid, f.padded_take hfit, hpayload]
  | established n kind | opened n kind | released n e kind | forgotten n kind =>
    cases hkind.symm.trans kind

/-- A release takes the counterpart of its channel away. -/
theorem release (h : Mirrors s.isLast framed heard far st) (halong : Along named Names [] framed)
    {c : ChannelId} (hnames : Names (framed.foldl named []) (.release c, f)) (hkind : f.kind = .release)
    (hserves : InboundState.Serves s st f t handedOn) :
    Mirrors s.isLast (framed ++ [(.release c, f)]) (heard ++ [hearing st t f handedOn]) far t := by
  have hdistinct := namesDistinct_of_along halong
  have hlocal := h.localId? hdistinct hnames
  cases hserves with
  | released n d kind known =>
    obtain rfl := Option.some.inj (hlocal.symm.trans known)
    have hkept : named (framed.foldl named []) (.release c, f) =
        (framed.foldl named []).filter fun q => q.2 ≠ c := rfl
    have hdropped : (st.table.dropEdge f.field).pairs =
        st.table.pairs.filter fun q => q.1 ≠ f.field := rfl
    rw [hearing_served (by rfl)]
    refine h.extend halong (fun _ _ => rfl) ?_ ?_ ?_ ?_ rfl
    · dsimp only
      rw [hdropped, h.table, List.filter_map, hkept]
      congr 1
      refine List.filter_congr fun p hp => decide_eq_decide.2 (not_congr ?_)
      constructor
      · intro heq
        exact congrArg Prod.snd (List.inj_on_of_nodup_map hdistinct.1 hp hnames heq)
      · intro heq
        exact congrArg Prod.fst (List.inj_on_of_nodup_map hdistinct.2 hp hnames heq)
    · dsimp only
      rw [ChannelRegistry.slots_discard, h.slots, List.filter_map, hkept]
      congr 1
      refine List.filter_congr fun p hp => decide_eq_decide.2 (not_congr ?_)
      exact ⟨h.far_injective hp hnames, congrArg far⟩
    · intro a ha b hb
      exact h.apart _ (List.prefix_refl _) a (List.mem_filter.1 ha).1 b (List.mem_filter.1 hb).1
    · rfl
  | forgotten n kind unknown => cases hlocal.symm.trans unknown
  | refused n reason =>
    rw [InboundState.Refuses, hkind] at reason
    exact reason.elim
  | established n kind | requested n e kind | opened n kind =>
    cases hkind.symm.trans kind

/-- A batch size opens the next round. -/
theorem batchSize (h : Mirrors s.isLast framed heard far st) (halong : Along named Names [] framed)
    {size : UInt32} (hnames : Names (framed.foldl named []) (.batchSize size, f))
    (hkind : f.kind = .batchSize) (hserves : InboundState.Serves s st f t handedOn) :
    Mirrors s.isLast (framed ++ [(.batchSize size, f)]) (heard ++ [hearing st t f handedOn]) far t := by
  have hsize : f.field = size := hnames
  cases hserves with
  | opened n kind =>
    rw [hearing_served (by rfl)]
    refine h.extend halong (fun _ _ => rfl) h.table ?_ (h.apart _ (List.prefix_refl _)) ?_ rfl
    · dsimp only
      rw [ChannelRegistry.slots_closeRequestRound, h.slots, List.map_map]
      rfl
    · rw [hsize]
      rfl
  | refused n reason =>
    rw [InboundState.Refuses, hkind] at reason
    exact reason.elim
  | established n kind | requested n e kind | released n e kind | forgotten n kind =>
    cases hkind.symm.trans kind

/-- Whatever the next frame of the sender is, the far relay goes on to mirror the names. -/
theorem serve (h : Mirrors s.isLast framed heard far st)
    (halong : Along named Names [] (framed ++ [(m, f)]))
    (honce : (established ((framed ++ [(m, f)]).map Prod.fst)).Nodup) (hkind : f.kind = m.kind)
    (hpayload : f.payload = m.payload) (hfit : m.Fits s.framing)
    (hserves : InboundState.Serves s st f t handedOn) :
    ∃ far', Mirrors s.isLast (framed ++ [(m, f)]) (heard ++ [hearing st t f handedOn]) far' t := by
  obtain ⟨hfront, hnames, -⟩ := along_append.1 halong
  cases m with
  | establish c payload =>
    rw [List.map_append, established_append] at honce
    have hnew : c ∉ established (framed.map Prod.fst) := fun hmem =>
      (List.nodup_append'.1 honce).2.2 hmem List.mem_cons_self
    exact h.establish hfront hnew hnames hkind hpayload (hpayload ▸ hfit _ rfl) hserves
  | message c payload =>
    exact ⟨far, h.message hfront hnames hkind hpayload (hpayload ▸ hfit _ rfl) hserves⟩
  | release c => exact ⟨far, h.release hfront hnames hkind hserves⟩
  | batchSize n => exact ⟨far, h.batchSize hfront hnames hkind hserves⟩
  | reply c payload => exact hnames.elim

end Mirrors

end MixRelay
