import MixRelay.Proofs.ReplyDelivery
import Mathlib.Data.List.Induction
import Mathlib.Data.List.Nodup

/-!
# No reply goes astray

In a whole run, with connections that fail, releases that overtake replies, and identifiers that are
never drawn twice, a reply comes out at the channel whose counterpart it was submitted for, and once.
-/
namespace MixRelay

/-- The far channel was made for the near one: its establish frame had the near one's identifier. -/
def Twins (framed : List (Message × TypedFrame)) (heard : List Hearing) (near far : ChannelId) : Prop :=
  ∃ edge, (edge, near) ∈ drawn framed ∧ (edge, far) ∈ born heard

/-- A reply that is handed on has the payload of the submitted one, with zeros behind a short one. It
was submitted for the channel that was made for the one that gets it, and for no other one; with one
establish message for each channel, no other channel was made for that one either. -/
structure Delivered (framed : List (Message × TypedFrame)) (heard : List Hearing)
    (got sent : ChannelId × Bytes) : Prop where
  payload : got.2 = sent.2 ++ List.replicate (11 - sent.2.length) 0
  twins : Twins framed heard got.1 sent.1
  near_unique : ∀ c, Twins framed heard c sent.1 → c = got.1
  far_unique : ((drawn framed).map Prod.snd).Nodup → ∀ d, Twins framed heard got.1 d → d = sent.1

/-- Identifiers are those of the establish frames that were received. -/
theorem born_edges_sublist {heard : List Hearing} {read : List TypedFrame}
    (h : List.Forall₂ Hearing.Of heard read) :
    ((born heard).map Prod.fst).Sublist
      ((read.filter fun f => f.kind = .establish).map TypedFrame.field) := by
  induction h with
  | nil => exact List.Sublist.refl _
  | @cons x f heard read hx _ ih =>
    obtain ⟨hhead, hkind⟩ := hx
    have hstart : ((born [x]).map Prod.fst).Sublist
        (([f].filter fun f => f.kind = .establish).map TypedFrame.field) := by
      unfold born
      rw [List.filterMap_cons]
      split
      · exact List.nil_sublist _
      · rename_i pair hpair
        split at hpair
        · rename_i d payload hhanded
          cases hpair
          have hestablish := hkind d payload hhanded
          rw [List.filter_cons_of_pos (by simpa using hestablish), hhead]
          exact List.Sublist.refl _
        · cases hpair
    rw [← List.singleton_append, RelayEdge.born_append, ← List.singleton_append (l := read),
      List.filter_append, List.map_append, List.map_append]
    exact hstart.append ih

/-- Each establish message that is taken up gets an identifier. -/
theorem drawn_edges_eq {framed : List (Message × TypedFrame)}
    (h : ∀ p ∈ framed, p.2.kind = p.1.kind) :
    (drawn framed).map Prod.fst =
      ((framed.map Prod.snd).filter fun f => f.kind = .establish).map TypedFrame.field := by
  induction framed with
  | nil => rfl
  | cons p framed ih =>
    obtain ⟨m, f⟩ := p
    have hkind : f.kind = m.kind := h (m, f) List.mem_cons_self
    have hrest := ih fun p hp => h p (List.mem_cons_of_mem _ hp)
    rw [List.map_cons, ← List.singleton_append, RelayEdge.drawn_append, List.map_append, hrest]
    cases m with
    | establish c payload =>
      have hestablish : f.kind = .establish := hkind
      rw [List.filter_cons_of_pos (by simpa using hestablish)]
      rfl
    | _ =>
      rw [List.filter_cons_of_neg (by simp [hkind, Message.kind])]
      rfl

namespace RelayEdge

/-- The replies that the far relay is handed in a run. -/
def repliesOf (events : List RelayEdgeEvent) : List (ChannelId × Bytes) :=
  events.filterMap RelayEdgeEvent.reply?

/-- The replies that the near relay hands on in a run. -/
def enqueuedIn (c : RelayEdgeSettings) (events : List RelayEdgeEvent) : List (ChannelId × Bytes) :=
  outputs step enqueuedAt (start c) events

theorem repliesOf_concat (events : List RelayEdgeEvent) (e : RelayEdgeEvent) :
    repliesOf (events ++ [e]) = repliesOf events ++ e.reply?.toList := by
  cases he : e.reply? <;> simp [repliesOf, he]

theorem enqueuedIn_concat (c : RelayEdgeSettings) (events : List RelayEdgeEvent) (e : RelayEdgeEvent) :
    enqueuedIn c (events ++ [e]) =
      enqueuedIn c events ++ (events.foldl step (start c)).enqueuedAt e :=
  outputs_concat _ _ _ _

variable {s : RelayEdge} {key : EdgeKey} {handed : List Message}
  {framed : List (Message × TypedFrame)} {heard : List Hearing}
  {submitted enqueued : List (ChannelId × Bytes)}

/-- What is known of both directions together. -/
structure Answers (key : EdgeKey) (handed : List Message) (framed : List (Message × TypedFrame))
    (heard : List Hearing) (submitted enqueued : List (ChannelId × Bytes)) (s : RelayEdge) : Prop where
  delivers : s.Delivers key handed framed heard
  recorded : s.Recorded (drawn framed) (born heard)
  routed : ∃ chosen, List.Forall₂ (Routes (drawn framed) (born heard)) enqueued chosen ∧
    s.Sends key (born heard) submitted chosen

theorem answers_start (c : RelayEdgeSettings) : (start c).Answers c.key [] [] [] [] [] where
  delivers := delivers_start c
  recorded := ⟨List.Subset.refl _, List.Subset.refl _⟩
  routed := ⟨[], .nil, sends_start c⟩

theorem Routes.mono {d d' b b' : List (ChannelId × ChannelId)} (hd : d ⊆ d') (hb : b ⊆ b')
    {got sent : ChannelId × Bytes} (h : Routes d b got sent) : Routes d' b' got sent := by
  obtain ⟨hpayload, edge, hdrawn, hborn⟩ := h
  exact ⟨hpayload, edge, hd hdrawn, hb hborn⟩

theorem Answers.step (h : s.Answers key handed framed heard submitted enqueued)
    (hword : ∀ m ∈ handed, m.kind ≠ .reply → Frame.length m.payload.length < 2 ^ 32)
    (hreplies : ∀ r ∈ submitted, Frame.length r.2.length < 2 ^ 32) (e : RelayEdgeEvent) :
    (s.step e).Answers key (handed ++ e.request?.toList) (framed ++ s.framedAt e)
      (heard ++ s.heardAt e) (submitted ++ e.reply?.toList) (enqueued ++ s.enqueuedAt e) := by
  obtain ⟨read, -, hunder⟩ := h.delivers.underway
  obtain ⟨chosen, hchosen, hsends⟩ := h.routed
  obtain ⟨more, hmore, hnext⟩ := hsends.step h.delivers.wired h.recorded hreplies e
  refine ⟨h.delivers.step hword e, ?_, chosen ++ more, ?_, ?_⟩
  · rw [drawn_append, born_append]
    exact h.recorded.step h.delivers.wired hunder (h.delivers.word hword) e
  · rw [drawn_append, born_append]
    have hroutes := List.rel_append hchosen hmore
    exact hroutes.imp fun _ _ hroute =>
      hroute.mono (List.subset_append_left _ _) (List.subset_append_left _ _)
  · rw [born_append]
    exact hnext.mono (List.subset_append_left _ _)

theorem answers_run (c : RelayEdgeSettings) (events : List RelayEdgeEvent)
    (hword : ∀ m ∈ requestsOf events, m.kind ≠ .reply → Frame.length m.payload.length < 2 ^ 32)
    (hreplies : ∀ r ∈ repliesOf events, Frame.length r.2.length < 2 ^ 32) :
    (events.foldl step (start c)).Answers c.key (requestsOf events) (framedIn c events)
      (heardIn c events) (repliesOf events) (enqueuedIn c events) := by
  induction events using List.reverseRecOn with
  | nil => exact answers_start c
  | append_singleton events e ih =>
    rw [requestsOf_concat] at hword ⊢
    rw [repliesOf_concat] at hreplies ⊢
    have hbefore : ∀ m ∈ requestsOf events, m.kind ≠ .reply → Frame.length m.payload.length < 2 ^ 32 :=
      fun m hm => hword m (List.mem_append_left _ hm)
    have hsubmitted : ∀ r ∈ repliesOf events, Frame.length r.2.length < 2 ^ 32 :=
      fun r hr => hreplies r (List.mem_append_left _ hr)
    rw [framedIn_concat, heardIn_concat, enqueuedIn_concat, List.foldl_append]
    exact (ih hbefore hsubmitted).step hbefore hsubmitted e

/-- No identifier stands for two channels that were made. -/
theorem Delivers.born_edges_nodup (h : s.Delivers key handed framed heard)
    (hdrawn : ((drawn framed).map Prod.fst).Nodup) : ((born heard).map Prod.fst).Nodup := by
  obtain ⟨read, hof, hunder⟩ := h.underway
  rw [drawn_edges_eq fun p hp => (h.frames p hp).1] at hdrawn
  exact hdrawn.sublist ((born_edges_sublist hof).trans ((hunder.read_sublist.filter _).map _))

/-- With identifiers that are drawn once, what leads from a reply to its channel leads nowhere else. -/
theorem Routes.delivered {got sent : ChannelId × Bytes}
    (h : Routes (drawn framed) (born heard) got sent) (hdrawn : ((drawn framed).map Prod.fst).Nodup)
    (hborn : ((born heard).map Prod.fst).Nodup) (hmade : ((born heard).map Prod.snd).Nodup) :
    Delivered framed heard got sent := by
  obtain ⟨hpayload, edge, hnear, hfar⟩ := h
  refine ⟨hpayload.trans (Frame.padded_eq sent.2), ⟨edge, hnear, hfar⟩, ?_, ?_⟩
  · rintro c ⟨other, hc, hother⟩
    have hedge := List.inj_on_of_nodup_map hmade hother hfar rfl
    obtain ⟨rfl, -⟩ := Prod.mk.inj hedge
    exact congrArg Prod.snd (List.inj_on_of_nodup_map hdrawn hc hnear rfl)
  · rintro honce d ⟨other, hother, hd⟩
    have hedge := List.inj_on_of_nodup_map honce hother hnear rfl
    obtain ⟨rfl, -⟩ := Prod.mk.inj hedge
    exact congrArg Prod.snd (List.inj_on_of_nodup_map hborn hd hfar rfl)

/-- Each reply that comes out is one of those that were submitted, in their order and each at most
once, and it comes out where it belongs. The identifiers that are drawn on the edge, and those of the
channels made on the far relay, are drawn once; the length of each frame fits its field. -/
theorem replies_delivered (c : RelayEdgeSettings) (events : List RelayEdgeEvent)
    (hrequests : ∀ m ∈ requestsOf events, m.kind ≠ .reply → Frame.length m.payload.length < 2 ^ 32)
    (hreplies : ∀ r ∈ repliesOf events, Frame.length r.2.length < 2 ^ 32)
    (hdrawn : ((drawn (framedIn c events)).map Prod.fst).Nodup)
    (hmade : ((born (heardIn c events)).map Prod.snd).Nodup) :
    ∃ chosen, chosen.Sublist (repliesOf events) ∧
      List.Forall₂ (Delivered (framedIn c events) (heardIn c events)) (enqueuedIn c events) chosen := by
  have hrun := answers_run c events hrequests hreplies
  obtain ⟨chosen, hroutes, onWay, hand, -, -, -, hsub⟩ := hrun.routed
  have hborn := hrun.delivers.born_edges_nodup hdrawn
  refine ⟨chosen, ?_, hroutes.imp fun _ _ h => h.delivered hdrawn hborn hmade⟩
  refine List.Sublist.trans ?_ hsub
  rw [List.append_assoc]
  exact List.sublist_append_left _ _

/-- One channel under the identifier five of the edge; the far relay makes the channel nine for it. -/
def pairedSettings : RelayEdgeSettings where
  maxFrameLength := 64
  inbound := ⟨⟨0, 2, 2, 0⟩, 64, true⟩
  key := ⟨Block.ofNat 1, Block.ofNat 2⟩
  nearDraws := .ofList [5]
  farDraws := .ofList [9]
  proxyCapacity := 16

def beforeHearing : List RelayEdgeEvent :=
  [.nearChannels ((ChannelRegistry.empty 16).add 7), .request (.establish 7 [1, 2]), .send, .send,
    .accept, .deliver 20]

/-- The reply is taken up for the channel nine, and comes back for the channel seven. -/
def afterHearing : List RelayEdgeEvent :=
  [.reply (.reply 9 [3]), .answer, .answer, .bring 20, .receive]

theorem replies_delivered_paired :
    ∃ chosen, chosen.Sublist [(9, [3])] ∧
      List.Forall₂ (Delivered (framedIn pairedSettings (beforeHearing ++ .hear :: afterHearing))
          (heardIn pairedSettings (beforeHearing ++ .hear :: afterHearing)))
        (enqueuedIn pairedSettings (beforeHearing ++ .hear :: afterHearing)) chosen := by
  have hdrawn : drawn (framedIn pairedSettings (beforeHearing ++ .hear :: afterHearing)) = [(5, 7)] :=
    rfl
  -- only one step can hear a frame, whatever the keystream is
  have hheard : heardIn pairedSettings (beforeHearing ++ .hear :: afterHearing) =
      heardAt (beforeHearing.foldl step (start pairedSettings)) .hear := by
    have hfront : outputs step heardAt (start pairedSettings) beforeHearing = [] := rfl
    have hback (s : RelayEdge) : outputs step heardAt s afterHearing = [] := rfl
    rw [heardIn, outputs_append, hfront, List.nil_append, outputs, hback, List.append_nil]
  have honce : ((born (heardIn pairedSettings (beforeHearing ++ .hear :: afterHearing))).map
      Prod.snd).Nodup := by
    rw [hheard, heardAt]
    cases (beforeHearing.foldl step (start pairedSettings)).far.heard?
        (beforeHearing.foldl step (start pairedSettings)).farChannels with
    | none => exact List.nodup_nil
    | some h =>
      rw [Option.toList_some, born, List.filterMap_cons]
      split
      · exact List.nodup_nil
      · exact List.nodup_singleton _
  exact replies_delivered pairedSettings (beforeHearing ++ .hear :: afterHearing) (by decide) (by decide)
    (by rw [hdrawn]; decide) honce

end RelayEdge
end MixRelay
