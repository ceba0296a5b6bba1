import MixRelay.Proofs.FirstRelayRounds
import MixRelay.Proofs.LaterRelay
import MixRelay.Proofs.ReplyRounds

/-!
# One request per channel in a round behind the first relay

Here the receiver opens the rounds. A batch size frees the slots of all channels as it is handed on, so
what waits behind it belongs to the next round, whatever still waits in front of it. The batch of the
mixer comes from one stretch of the queue without a batch size, whenever its time runs out.
-/
namespace MixRelay

/-- None of the messages is a batch size. -/
def Unmarked (messages : List Message) : Prop := ∀ n, Message.batchSize n ∉ messages

/-- Between two batch sizes no channel has two requests. -/
def OncePerRound (messages : List Message) : Prop :=
  ∀ stretch, stretch <:+: messages → Unmarked stretch → (requesters stretch).Nodup

section Rounds
variable {messages front stretch : List Message} {m : Message} {c : ChannelId}

theorem unmarked_nil : Unmarked [] := fun _ => List.not_mem_nil

theorem Unmarked.append (h : Unmarked messages) (hs : Unmarked stretch) :
    Unmarked (messages ++ stretch) := by
  intro n hn
  exact (List.mem_append.1 hn).elim (h n) (hs n)

/-- Without a batch size all channels that send have sent in the round. -/
theorem Unmarked.foldl_sentAfter (h : Unmarked stretch) (sent : List ChannelId) :
    stretch.foldl sentAfter sent = (requesters stretch).reverse ++ sent := by
  induction stretch generalizing sent with
  | nil => rfl
  | cons m stretch ih =>
    have hrest : Unmarked stretch := fun n hn => h n (List.mem_cons_of_mem m hn)
    rw [List.foldl_cons, ih hrest]
    cases m with
    | batchSize n => exact absurd List.mem_cons_self (h n)
    | establish c payload | message c payload =>
      rw [requesters_cons_some rfl, List.reverse_cons, List.append_assoc]
      rfl
    | release c | reply c payload => rw [requesters_cons_none rfl]; rfl

theorem sentAfter_of_requester? (h : m.requester? = some c) (sent : List ChannelId) :
    sentAfter sent m = c :: sent := by
  cases m <;> cases h <;> rfl

theorem oncePerRound_nil : OncePerRound [] := by
  intro stretch hs _
  rw [List.eq_nil_of_infix_nil hs]
  exact List.nodup_nil

theorem OncePerRound.of_infix (h : OncePerRound messages) (hs : stretch <:+: messages) :
    OncePerRound stretch := fun _ hinner => h _ (hinner.trans hs)

/-- A channel that has not sent in the round may send next. -/
theorem OncePerRound.concat (h : OncePerRound messages)
    (hm : ∀ c, m.requester? = some c → c ∉ messages.foldl sentAfter []) :
    OncePerRound (messages ++ [m]) := by
  intro stretch hs hunmarked
  rcases List.infix_concat_iff.1 hs with hsuffix | hinfix
  · rcases List.suffix_concat_iff.1 hsuffix with rfl | ⟨last, rfl, hlast⟩
    · exact List.nodup_nil
    · have hbefore : Unmarked last := fun n hn => hunmarked n (List.mem_append_left _ hn)
      have hnodup := h last hlast.isInfix hbefore
      cases hc : m.requester? with
      | none => rwa [requesters_append, requesters_cons_none hc, requesters_nil, List.append_nil]
      | some c =>
        rw [requesters_append, requesters_cons_some hc, requesters_nil]
        refine List.concat_eq_append ▸ hnodup.concat fun hmem => hm c hc ?_
        obtain ⟨front, rfl⟩ := hlast
        rw [List.foldl_append, hbefore.foldl_sentAfter]
        exact List.mem_append_left _ (List.mem_reverse.2 hmem)
  · exact h stretch hinfix hunmarked

end Rounds

namespace RequestMixer
variable {m : RequestMixer} {shuffle : Shuffle}

/-- A step of the mixer holds the request that arrives, or it sends what it has held. It never holds
anything behind a batch size. -/
inductive Advances (m : RequestMixer) (e : MixerEvent) (t : RequestMixerStep) : Prop
  | holds (unmarked : Unmarked e.messages) (sent : requesters t.sent = [])
      (batch : requesters t.mixer.batch = requesters m.batch ++ requesters e.messages)
  | sends (sent : (requesters t.sent).Perm (requesters m.batch ++ requesters e.messages))
      (batch : t.mixer.batch = [])

theorem advances_flushUnlessEmpty (e : MixerEvent) (he : requesters e.messages = []) (shuffle : Shuffle)
    {d : RequestMixer} (hd : d.batch = m.batch) :
    Advances m e (d.flushUnlessEmpty shuffle.order) := by
  unfold flushUnlessEmpty
  split
  · rename_i hempty
    have hnil := List.isEmpty_iff.1 hempty
    refine .sends ?_ hnil
    rw [he, ← hd, hnil]
    exact .refl _
  · refine .sends ?_ rfl
    rw [he, List.append_nil, ← hd]
    exact requesters_flush shuffle.perm d

theorem advances_collect {request : Message} (hunmarked : Unmarked [request]) (m : RequestMixer)
    (shuffle : Shuffle) :
    Advances m (.arrival request) (m.collect shuffle.order request) := by
  unfold collect
  dsimp only
  split
  · refine .sends ?_ rfl
    rw [MixerEvent.messages, ← requesters_append]
    exact requesters_flush shuffle.perm _
  · exact .holds hunmarked rfl (requesters_append _ _)

theorem advances_step (m : RequestMixer) (shuffle : Shuffle) (e : MixerEvent) :
    Advances m e (m.step shuffle.order e) := by
  cases e with
  | timeout => exact advances_flushUnlessEmpty .timeout rfl shuffle rfl
  | arrival message =>
    cases message with
    | establish c payload => exact advances_collect (by simp [Unmarked]) m shuffle
    | message c payload => exact advances_collect (by simp [Unmarked]) m shuffle
    | release c => exact .holds (by simp [Unmarked, MixerEvent.messages]) rfl (List.append_nil _).symm
    | reply c payload => exact .holds (by simp [Unmarked, MixerEvent.messages]) rfl (List.append_nil _).symm
    | batchSize n =>
      rw [step]
      split
      · exact advances_flushUnlessEmpty _ rfl shuffle rfl
      · exact advances_flushUnlessEmpty _ rfl shuffle rfl

theorem settings_flushUnlessEmpty (m : RequestMixer) (shuffle : List Message → List Message) :
    (m.flushUnlessEmpty shuffle).mixer.settings = m.settings ∧
      ((m.flushUnlessEmpty shuffle).closesRound = true → m.settings.isFirst = true) := by
  unfold flushUnlessEmpty
  split
  · exact ⟨rfl, nofun⟩
  · exact ⟨rfl, fun h => h⟩

/-- Only the first relay closes rounds. -/
theorem settings_step (m : RequestMixer) (shuffle : List Message → List Message) (e : MixerEvent) :
    (m.step shuffle e).mixer.settings = m.settings ∧
      ((m.step shuffle e).closesRound = true → m.settings.isFirst = true) := by
  have hcollect (request : Message) : (m.collect shuffle request).mixer.settings = m.settings ∧
      ((m.collect shuffle request).closesRound = true → m.settings.isFirst = true) := by
    unfold collect
    dsimp only
    split
    · exact ⟨rfl, fun h => h⟩
    · exact ⟨rfl, nofun⟩
  cases e with
  | timeout => exact m.settings_flushUnlessEmpty shuffle
  | arrival message =>
    cases message with
    | establish | message => exact hcollect _
    | release | reply => exact ⟨rfl, nofun⟩
    | batchSize n =>
      rw [step]
      split
      · exact m.settings_flushUnlessEmpty shuffle
      · exact settings_flushUnlessEmpty { m with roundSize := n.toNat } shuffle

end RequestMixer

theorem ChannelRegistry.mem_slots_claim {r : ChannelRegistry} {id : ChannelId}
    {slot : ChannelId × Bool} (h : slot ∈ r.slots.map fun old => (old.1, old.1 = id || old.2)) :
    slot = (id, true) ∨ slot.1 ≠ id ∧ slot ∈ r.slots := by
  obtain ⟨⟨d, claimed⟩, hold, rfl⟩ := List.mem_map.1 h
  by_cases hd : d = id
  · exact .inl (Prod.ext hd (by simp [hd]))
  · exact .inr ⟨hd, by simpa [hd] using hold⟩

theorem InboundState.slots_establish (st : InboundState) (edge : ChannelId) (payload : Bytes) :
    ∃ id, (st.establish edge payload).1.registry.slots =
        ((st.registry.add id).slots.map fun slot => (slot.1, slot.1 = id || slot.2)) ∧
      (st.establish edge payload).2 = [.establish id payload] :=
  ⟨_, ChannelRegistry.slots_modify (f := fun c => c.establish.claimRequest.2) (fun _ => rfl)
    (fun _ => rfl) _ _, rfl⟩

/-- What the receiver has handed on has no second request of a channel in a round, and would have none
if a channel with a free slot sent next. It has handed on an establish message for each channel that is
registered and for each that has sent. -/
structure Heard (handed : List Message) (registry : ChannelRegistry) : Prop where
  once : OncePerRound handed
  free : ∀ id, (id, false) ∈ registry.slots → id ∉ handed.foldl sentAfter []
  registered : ∀ slot ∈ registry.slots, slot.1 ∈ established handed
  known : ∀ id ∈ handed.foldl sentAfter [], id ∈ established handed

namespace Heard
variable {handed : List Message} {r r' : ChannelRegistry}

theorem start (proxyCapacity : Nat) : Heard [] (.empty proxyCapacity) where
  once := oncePerRound_nil
  free := nofun
  registered := nofun
  known := nofun

theorem of_slots (h : Heard handed r) (hslots : r'.slots ⊆ r.slots) : Heard handed r' :=
  ⟨h.once, fun id hid => h.free id (hslots hid), fun slot hslot => h.registered slot (hslots hslot),
    h.known⟩

/-- A channel that has not sent in the round sends a request. -/
theorem request (h : Heard handed r) {m : Message} {id : ChannelId}
    (hm : m.requester? = some id) (hfree : id ∉ handed.foldl sentAfter [])
    (hknown : id ∈ established (handed ++ [m]))
    (hslots : ∀ slot ∈ r'.slots, slot = (id, true) ∨ slot.1 ≠ id ∧ slot ∈ r.slots) :
    Heard (handed ++ [m]) r' := by
  have hsent : (handed ++ [m]).foldl sentAfter [] = id :: handed.foldl sentAfter [] := by
    rw [List.foldl_append]
    exact sentAfter_of_requester? hm _
  have hbefore : established handed ⊆ established (handed ++ [m]) := by
    rw [established_append]
    exact List.subset_append_left _ _
  refine ⟨h.once.concat fun c hc => ?_, fun d hd => ?_, fun slot hslot => ?_, fun d hd => ?_⟩
  · cases hm.symm.trans hc
    exact hfree
  · rw [hsent]
    rcases hslots _ hd with heq | ⟨hne, hold⟩
    · cases heq
    · exact List.not_mem_cons_of_ne_of_not_mem hne (h.free d hold)
  · rcases hslots slot hslot with rfl | ⟨-, hold⟩
    · exact hknown
    · exact hbefore (h.registered slot hold)
  · rw [hsent] at hd
    rcases List.mem_cons.1 hd with rfl | hd
    · exact hknown
    · exact hbefore (h.known d hd)

theorem release (h : Heard handed r) (id : ChannelId) :
    Heard (handed ++ [.release id]) r := by
  have hsent : (handed ++ [Message.release id]).foldl sentAfter [] = handed.foldl sentAfter [] :=
    List.foldl_append
  have hestablished : established (handed ++ [.release id]) = established handed := by
    rw [established_append]
    exact List.append_nil _
  refine ⟨h.once.concat nofun, ?_, ?_, ?_⟩
  · rw [hsent]
    exact h.free
  · rw [hestablished]
    exact h.registered
  · rw [hsent, hestablished]
    exact h.known

/-- With a batch size all slots are free. -/
theorem batchSize (h : Heard handed r) (n : UInt32) :
    Heard (handed ++ [.batchSize n]) r.closeRequestRound := by
  have hsent : (handed ++ [Message.batchSize n]).foldl sentAfter [] = [] := List.foldl_append
  have hestablished : established (handed ++ [.batchSize n]) = established handed := by
    rw [established_append]
    exact List.append_nil _
  refine ⟨h.once.concat nofun, ?_, ?_, ?_⟩
  · rw [hsent]
    exact fun _ _ => List.not_mem_nil
  · rw [hestablished, ChannelRegistry.slots_closeRequestRound]
    intro slot hslot
    obtain ⟨old, hold, rfl⟩ := List.mem_map.1 hslot
    exact h.registered old hold
  · rw [hsent]
    exact nofun

theorem serves {s : InboundSettings} {st t : InboundState} {f : TypedFrame}
    {handedOn : List Message} (h : Heard handed st.registry)
    (hserves : InboundState.Serves s st f t handedOn)
    (hfresh : (established (handed ++ handedOn)).Nodup) : Heard (handed ++ handedOn) t.registry := by
  cases hserves with
  | refused n => rwa [List.append_nil]
  | forgotten n => rwa [List.append_nil]
  | established n kind unknown fit =>
    obtain ⟨id, hslots, hhanded⟩ := InboundState.slots_establish
      { st with metrics := st.metrics.countReceived n } f.field
      ((Frame.padded f.payload).take s.framing.establishLength)
    rw [hhanded] at hfresh ⊢
    rw [established_append] at hfresh
    have hnew : id ∉ MixRelay.established handed := fun hmem =>
      (List.nodup_append'.1 hfresh).2.2 hmem List.mem_cons_self
    refine h.request rfl (fun hmem => hnew (h.known id hmem)) ?_ fun slot hslot => ?_
    · rw [established_append]
      exact List.mem_append_right _ List.mem_cons_self
    · rw [hslots] at hslot
      rcases ChannelRegistry.mem_slots_claim hslot with hself | ⟨hne, hother⟩
      · exact .inl hself
      · rw [ChannelRegistry.slots_add] at hother
        rcases List.mem_append.1 hother with hold | hmade
        · exact .inr ⟨hne, hold⟩
        · exact absurd (congrArg Prod.fst (List.mem_singleton.1 hmade)) hne
  | requested n c kind known free fit =>
    have hc : c ∈ st.registry.channels := by
      obtain ⟨d, -, hfind⟩ := Option.bind_eq_some_iff.1 known
      exact ChannelRegistry.mem_of_find? hfind
    have hslot : (c.id, false) ∈ st.registry.slots := List.mem_map.2 ⟨c, hc, by rw [free]⟩
    have hestablished (payload : Bytes) :
        MixRelay.established (handed ++ [.message c.id payload]) = MixRelay.established handed := by
      rw [established_append]
      exact List.append_nil _
    refine h.request rfl (h.free c.id hslot) ?_ fun slot hslot => ?_
    · rw [hestablished]
      exact h.registered _ hslot
    · rw [ChannelRegistry.slots_modify (f := fun c => c.claimRequest.2) (fun _ => rfl)
        (fun _ => rfl)] at hslot
      exact ChannelRegistry.mem_slots_claim hslot
  | opened n kind => exact h.batchSize f.field
  | released n d kind known =>
    have hslots : (st.registry.discard d).slots ⊆ st.registry.slots := by
      rw [ChannelRegistry.slots_discard]
      exact List.filter_sublist.subset
    dsimp only
    split
    · rw [List.append_nil]
      exact h.of_slots hslots
    · exact (h.of_slots hslots).release d

end Heard

/-- A batch size is no request. -/
theorem MixerEvent.unmarked_or (e : MixerEvent) : Unmarked e.messages ∨ requesters e.messages = [] := by
  cases e with
  | timeout => exact .inl unmarked_nil
  | arrival message =>
    cases message with
    | batchSize n => exact .inr rfl
    | _ => exact .inl (by simp [Unmarked, messages])

namespace LaterRelay
variable {handed : List Message} {s : LaterRelay}

/-- What waits is the end of what was handed on, and the batch has the requests of a stretch right in
front of it that has no batch size. -/
structure InRounds (handed : List Message) (s : LaterRelay) : Prop where
  heard : Heard handed s.registry
  later : s.mixer.settings.isFirst = false
  held : ∃ front stretch, handed = front ++ stretch ++ s.waiting ∧ Unmarked stretch ∧
    requesters s.mixer.batch = requesters stretch

theorem InRounds.mix (h : InRounds handed s) (shuffle : Shuffle) {e : MixerEvent} {rest : List Message}
    (hw : s.waiting = e.messages ++ rest) :
    InRounds handed (s.mix shuffle rest e).2 ∧ (requesters (s.mix shuffle rest e).1).Nodup := by
  obtain ⟨front, stretch, hhanded, hunmarked, hbatch⟩ := h.held
  obtain ⟨hsettings, hcloses⟩ := s.mixer.settings_step shuffle.order e
  have hregistry : (s.mix shuffle rest e).2.registry = s.registry :=
    if_neg fun hclosed => absurd (h.later.symm.trans (hcloses hclosed)) nofun
  have hlater : (s.mix shuffle rest e).2.mixer.settings.isFirst = false :=
    (congrArg MixerSettings.isFirst hsettings).trans h.later
  have hparts : handed = front ++ (stretch ++ e.messages) ++ rest := by
    rw [hhanded, hw, List.append_assoc, List.append_assoc, List.append_assoc]
  have hround : (requesters (stretch ++ e.messages)).Nodup := by
    rcases e.unmarked_or with harrived | hnone
    · exact h.heard.once _ ⟨front, rest, hparts.symm⟩ (hunmarked.append harrived)
    · rw [requesters_append, hnone, List.append_nil]
      exact h.heard.once _ ⟨front, s.waiting, hhanded.symm⟩ hunmarked
  rw [requesters_append, ← hbatch] at hround
  rcases s.mixer.advances_step shuffle e with ⟨harrived, hnone, hheld⟩ | ⟨hsent, hempty⟩
  · refine ⟨⟨hregistry ▸ h.heard, hlater, front, stretch ++ e.messages, hparts,
      hunmarked.append harrived, ?_⟩, ?_⟩
    · rw [requesters_append, ← hbatch]
      exact hheld
    · exact (congrArg List.Nodup hnone).mpr List.nodup_nil
  · refine ⟨⟨hregistry ▸ h.heard, hlater, front ++ (stretch ++ e.messages), [], ?_, unmarked_nil, ?_⟩,
      hsent.nodup_iff.2 hround⟩
    · rw [List.append_nil]
      exact hparts
    · exact congrArg requesters hempty

theorem InRounds.receive (h : InRounds handed s)
    (hfresh : (established (handed ++ s.receive.1)).Nodup) :
    InRounds (handed ++ s.receive.1) s.receive.2 := by
  rcases s.receive_cases with ⟨hnone, hsame, hwaiting, hmixer⟩ |
    ⟨f, t, handedOn, hserves, hhanded, hafter, hwaiting, hmixer⟩
  · rw [hnone, List.append_nil]
    refine ⟨?_, hmixer ▸ h.later, ?_⟩
    · exact (congrArg (fun st : InboundState => Heard handed st.registry) hsame).mpr h.heard
    · rw [hwaiting, hmixer]
      exact h.held
  · rw [hhanded] at hfresh ⊢
    refine ⟨?_, hmixer ▸ h.later, ?_⟩
    · have hbefore : Heard handed s.inbound.registry := h.heard
      have hheard := hbefore.serves hserves hfresh
      exact (congrArg (fun st : InboundState => Heard (handed ++ handedOn) st.registry) hafter).mpr hheard
    · obtain ⟨front, stretch, rfl, hunmarked, hbatch⟩ := h.held
      rw [hwaiting, hmixer]
      exact ⟨front, stretch, List.append_assoc .., hunmarked, hbatch⟩

theorem heardAt_of_ne {e : LaterRelayEvent} (h : e ≠ .receive) : s.heardAt e = [] := by
  cases e with
  | receive => exact absurd rfl h
  | _ => rfl

theorem InRounds.step (h : InRounds handed s) (e : LaterRelayEvent)
    (hfresh : (established (handed ++ s.heardAt e)).Nodup) :
    InRounds (handed ++ s.heardAt e) (s.next e) ∧ (requesters (s.step e).1).Nodup := by
  by_cases hreceive : e = .receive
  · subst hreceive
    exact ⟨h.receive hfresh, List.nodup_nil⟩
  rw [heardAt_of_ne hreceive, List.append_nil]
  cases e with
  | receive => exact absurd rfl hreceive
  | take shuffle =>
    rw [next, LaterRelay.step]
    split
    · rename_i m rest hw
      exact h.mix shuffle hw
    · exact ⟨h, List.nodup_nil⟩
  | timeout shuffle => exact h.mix shuffle rfl
  | send =>
    rw [next, LaterRelay.step]
    split <;> exact ⟨⟨h.heard, h.later, h.held⟩, List.nodup_nil⟩
  | share change =>
    have hslots : (s.registry.replySide change).slots = s.registry.slots := by simp
    exact ⟨⟨h.heard.of_slots (hslots ▸ List.Subset.refl _), h.later, h.held⟩, List.nodup_nil⟩
  | _ => exact ⟨⟨h.heard, h.later, h.held⟩, List.nodup_nil⟩

theorem InRounds.run (h : InRounds handed s) {events : List LaterRelayEvent}
    (hfresh : (established (handed ++ outputs next heardAt s events)).Nodup) :
    InRounds (handed ++ outputs next heardAt s events) (events.foldl next s) ∧
      ∀ sent ∈ departures s events, (requesters sent).Nodup := by
  induction events generalizing handed s with
  | nil =>
    rw [outputs, List.append_nil]
    exact ⟨h, fun sent hmem => absurd hmem List.not_mem_nil⟩
  | cons e events ih =>
    rw [outputs, ← List.append_assoc] at hfresh ⊢
    have hnow : (established (handed ++ s.heardAt e)).Nodup := by
      rw [established_append] at hfresh
      exact (List.nodup_append'.1 hfresh).1
    obtain ⟨hnext, hsent⟩ := h.step e hnow
    obtain ⟨hafter, hrest⟩ := ih hnext hfresh
    refine ⟨hafter, fun sent hmem => ?_⟩
    rcases List.mem_cons.1 hmem with rfl | hmem
    · exact hsent
    · exact hrest sent hmem

/-- Behind the first relay each batch that leaves has one request per channel, and so has each stretch
of the queue between two batch sizes, as long as no channel gets the identifier of an earlier one. -/
theorem one_request_per_round (inbound : InboundSettings) (key : EdgeKey) (draws : Draws)
    (proxyCapacity : Nat) (settings : MixerSettings) (hlater : settings.isFirst = false)
    (events : List LaterRelayEvent)
    (hfresh : (established
      (outputs next heardAt (start inbound key draws proxyCapacity settings) events)).Nodup) :
    let s₀ := start inbound key draws proxyCapacity settings
    (∀ sent ∈ departures s₀ events, (requesters sent).Nodup) ∧
      OncePerRound (events.foldl next s₀).waiting := by
  intro s₀
  have hstart : InRounds [] s₀ := ⟨.start proxyCapacity, hlater, [], [], rfl, unmarked_nil, rfl⟩
  obtain ⟨hafter, hsent⟩ := hstart.run hfresh
  refine ⟨hsent, ?_⟩
  obtain ⟨front, stretch, hhanded, -⟩ := hafter.held
  exact hafter.heard.once.of_infix ⟨front ++ stretch, [], by rw [List.append_nil]; exact hhanded.symm⟩

def hopInbound : InboundSettings := ⟨⟨0, 2, 2, 0⟩, 64, false⟩

def hopKey : EdgeKey := ⟨Block.ofNat 1, Block.ofNat 2⟩

/-- Rounds of two behind the first relay. -/
def hopSettings : MixerSettings := ⟨2, 50, 1, false, false⟩

def hopRelay : LaterRelay := start hopInbound hopKey (.ofList [9, 10]) 16 hopSettings

def hopKeystream : HeaderKeystream := .start hopKey .requests

def hopFirst : TypedFrame := ⟨.establish, 5, [1, 2]⟩

def hopSecond : TypedFrame := ⟨.establish, 6, [3, 4]⟩

def hopBytes : Bytes := (TypedFrame.encodeAll hopKeystream [hopFirst, hopSecond]).1

/-- Two frames arrive and are received before the mixer begins. -/
def hopEvents (bytes : Bytes) : List LaterRelayEvent :=
  [.accept, .arrive bytes, .receive, .receive, .take .keep, .take .keep]

theorem heard_hop {bytes behind : Bytes}
    (hfirst : TypedFrame.Leads 64 hopKeystream bytes hopFirst behind)
    (hsecond : TypedFrame.Leads 64 hopKeystream.advance behind hopSecond []) :
    outputs next heardAt hopRelay (hopEvents bytes) = [.establish 9 [1, 2], .establish 10 [3, 4]] := by
  let s := [LaterRelayEvent.accept, .arrive bytes].foldl next hopRelay
  have hnow := @receive_of_handle s hopFirst _ _ _ rfl hfirst rfl
  have hthen := @receive_of_handle s.receive.2 hopSecond [] _ _ (by rw [hnow]; rfl)
    (by rw [hnow]; exact hsecond) (by rw [hnow]; rfl)
  have hrun : outputs next heardAt hopRelay (hopEvents bytes) =
      s.receive.1 ++ (s.receive.2.receive.1 ++ []) := rfl
  rw [hrun, hthen, hnow]
  rfl

theorem one_request_per_round_hop :
    (established (outputs next heardAt hopRelay (hopEvents hopBytes))).Nodup ∧
      (∀ sent ∈ departures hopRelay (hopEvents hopBytes), (requesters sent).Nodup) ∧
      OncePerRound ((hopEvents hopBytes).foldl next hopRelay).waiting := by
  have hheard := heard_hop
    (TypedFrame.leads_encodeAll hopKeystream hopFirst [hopSecond] (by decide) (by decide))
    (TypedFrame.leads_encodeAll hopKeystream.advance hopSecond [] (by decide) (by decide))
  have hfresh : (established (outputs next heardAt hopRelay (hopEvents hopBytes))).Nodup := by
    rw [hopBytes, hheard]
    decide
  exact ⟨hfresh, one_request_per_round hopInbound hopKey (.ofList [9, 10]) 16 hopSettings rfl
    (hopEvents hopBytes) hfresh⟩

end LaterRelay
end MixRelay
