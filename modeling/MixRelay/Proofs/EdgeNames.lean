import MixRelay.Proofs.ChannelReleases
import MixRelay.Proofs.RequestDelivery

/-!
# The names of the channels on an edge

The sender of the near relay gives each channel that it establishes an identifier that no other channel
has at the time. Its messages and its release go out under that identifier, or not at all.
-/
namespace MixRelay

/-- The channel that a message establishes. -/
def Message.established? : Message → Option ChannelId
  | .establish c _ => some c
  | _ => none

def established (messages : List Message) : List ChannelId := messages.filterMap Message.established?

/-- The channels that are open on the edge, after one more message of the sender. -/
def openAfter (channels : List ChannelId) : Message → List ChannelId
  | .establish c _ => channels ++ [c]
  | .release c => channels.filter fun d => d ≠ c
  | _ => channels

/-- Messages and releases go out as long as their channel is open. -/
def carried (channels : List ChannelId) (m : Message) : List Message :=
  match m with
  | .message c _ | .release c => if c ∈ channels then [m] else []
  | .reply .. => []
  | _ => [m]

/-- The identifiers on the edge with their channels, after one more frame. -/
def named (names : List (ChannelId × ChannelId)) (p : Message × TypedFrame) :
    List (ChannelId × ChannelId) :=
  match p.1 with
  | .establish c _ => names ++ [(p.2.field, c)]
  | .release c => names.filter fun q => q.2 ≠ c
  | _ => names

/-- An establish frame brings a new identifier for a new channel. Another frame of a channel has the
identifier that the channel has got. -/
def Names (names : List (ChannelId × ChannelId)) (p : Message × TypedFrame) : Prop :=
  match p.1 with
  | .establish c _ => p.2.field ∉ names.map Prod.fst ∧ c ∉ names.map Prod.snd
  | .message c _ | .release c => (p.2.field, c) ∈ names
  | .batchSize n => p.2.field = n
  | .reply .. => False

/-- A channel that is new gets an identifier that is new. -/
theorem EdgeIdTable.allocate_of_new {t : EdgeIdTable} {c : ChannelId} (h : NamesDistinct t.pairs)
    (hnew : c ∉ t.pairs.map Prod.snd) (draws : Draws) :
    (t.allocate c draws).1 ∉ t.pairs.map Prod.fst ∧
      (t.allocate c draws).2.2.pairs = t.pairs ++ [((t.allocate c draws).1, c)] := by
  have hfree := allocate_free h c draws
  have hpairs : (t.allocate c draws).2.2 = (t.dropLocal c).add (t.allocate c draws).1 c := rfl
  rw [dropLocal_of_unknown hnew] at hfree hpairs
  refine ⟨fun hmem => ?_, congrArg pairs hpairs⟩
  exact absurd (hfree.symm.trans (containsEdge_iff.2 hmem)) nofun

namespace OutboundEdge
variable {table : EdgeIdTable} {m : Message}

/-- The frame of a message, if it has one, and the names after it. -/
theorem frame?_named (hdistinct : NamesDistinct table.pairs)
    (hnew : ∀ c, m.established? = some c → c ∉ table.pairs.map Prod.snd) (draws : Draws) :
    let framed := ((frame? table draws m).1.map fun out =>
      (m, (⟨m.kind, out.frame.header.field, out.frame.payload⟩ : TypedFrame))).toList
    (tableAfter table draws m).pairs = framed.foldl named table.pairs ∧
      Along named Names table.pairs framed ∧
      framed.map Prod.fst = carried (table.pairs.map Prod.snd) m ∧
      (framed.foldl named table.pairs).map Prod.snd = openAfter (table.pairs.map Prod.snd) m := by
  cases m with
  | establish c payload =>
    obtain ⟨hedge, hpairs⟩ := EdgeIdTable.allocate_of_new hdistinct (hnew c rfl) draws
    exact ⟨hpairs, ⟨⟨hedge, hnew c rfl⟩, trivial⟩, rfl, List.map_append⟩
  | message c payload =>
    cases hc : table.edgeId? c with
    | none =>
      have hclosed : carried (table.pairs.map Prod.snd) (.message c payload) = [] :=
        if_neg (EdgeIdTable.edgeId?_eq_none.1 hc)
      rw [tableAfter, frame?, hc, hclosed]
      exact ⟨rfl, trivial, rfl, rfl⟩
    | some edge =>
      have hmem := EdgeIdTable.mem_of_edgeId? hc
      have hopen : carried (table.pairs.map Prod.snd) (.message c payload) = [.message c payload] :=
        if_pos (List.mem_map.2 ⟨_, hmem, rfl⟩)
      rw [tableAfter, frame?, hc, hopen]
      exact ⟨rfl, ⟨hmem, trivial⟩, rfl, rfl⟩
  | release c =>
    cases hc : table.edgeId? c with
    | none =>
      have hunknown := EdgeIdTable.edgeId?_eq_none.1 hc
      have hclosed : carried (table.pairs.map Prod.snd) (.release c) = [] := if_neg hunknown
      have hopen : openAfter (table.pairs.map Prod.snd) (.release c) = table.pairs.map Prod.snd :=
        List.filter_eq_self.2 fun d hd => decide_eq_true fun heq => hunknown (heq ▸ hd)
      rw [tableAfter, frame?, hc, hclosed, hopen]
      exact ⟨rfl, trivial, rfl, rfl⟩
    | some edge =>
      have hmem := EdgeIdTable.mem_of_edgeId? hc
      have hcarried : carried (table.pairs.map Prod.snd) (.release c) = [.release c] :=
        if_pos (List.mem_map.2 ⟨_, hmem, rfl⟩)
      have hopen : openAfter (table.pairs.map Prod.snd) (.release c) =
          (table.pairs.filter fun q => q.2 ≠ c).map Prod.snd := List.filter_map
      rw [tableAfter, frame?, hc, hcarried, hopen]
      exact ⟨rfl, ⟨hmem, trivial⟩, rfl, rfl⟩
  | batchSize n => exact ⟨rfl, ⟨rfl, trivial⟩, rfl, rfl⟩
  | reply c payload => exact ⟨rfl, trivial, rfl, rfl⟩

end OutboundEdge

theorem NamesDistinct.next {names : List (ChannelId × ChannelId)} (h : NamesDistinct names)
    {p : Message × TypedFrame} (hp : Names names p) : NamesDistinct (named names p) := by
  obtain ⟨m, f⟩ := p
  cases m with
  | establish c payload => exact h.concat hp.1 hp.2
  | release c => exact h.filter _
  | _ => exact h

theorem namesDistinct_of_along {framed : List (Message × TypedFrame)}
    (h : Along named Names [] framed) : NamesDistinct (framed.foldl named []) :=
  h.invariant (fun _ _ hdistinct hp => hdistinct.next hp) .nil

theorem established_append (first second : List Message) :
    established (first ++ second) = established first ++ established second := List.filterMap_append

/-- Only channels that were established are open. -/
theorem foldl_openAfter_sublist {channels base : List ChannelId} (h : channels.Sublist base)
    (messages : List Message) :
    (messages.foldl openAfter channels).Sublist (base ++ established messages) := by
  induction messages generalizing channels base with
  | nil =>
    rw [established, List.filterMap_nil, List.append_nil]
    exact h
  | cons m messages ih =>
    rw [List.foldl_cons, ← List.singleton_append, established_append, ← List.append_assoc]
    apply ih
    cases m with
    | establish c payload => exact h.append_right [c]
    | release c => exact (List.filter_sublist.trans h).trans (List.sublist_append_left _ _)
    | _ => exact h.trans (List.sublist_append_left _ _)

namespace RelayEdge

/-- What the sender of the near relay has taken up, what it made of that, and what its table will say
once the frame in hand is written. -/
structure Naming (handed : List Message) (framed : List (Message × TypedFrame)) (s : RelayEdge) :
    Prop where
  table : (OutboundEdge.settle s.near.table s.near.inHand).pairs = framed.foldl named []
  names : Along named Names [] framed
  taken : ∃ taken, handed = taken ++ s.near.requests ∧
    framed.map Prod.fst = outputs openAfter carried [] taken ∧
    (framed.foldl named []).map Prod.snd = taken.foldl openAfter []

variable {s : RelayEdge} {key : EdgeKey} {handed : List Message} {framed : List (Message × TypedFrame)}

theorem naming_start (c : RelayEdgeSettings) : (start c).Naming [] [] where
  table := rfl
  names := trivial
  taken := ⟨[], rfl, rfl, rfl⟩

theorem Naming.take (h : s.Naming handed framed) (honce : (established handed).Nodup) {m : Message}
    {rest : List Message} (hh : s.near.inHand = none) (hr : s.near.requests = m :: rest) :
    Naming handed (framed ++ s.near.framed?.toList) { s with near := s.near.takenUp m rest } := by
  obtain ⟨htable, hnames, taken, rfl, hframed, hopen⟩ := h
  rw [hh] at htable
  rw [hr] at honce ⊢
  have hpairs : s.near.table.pairs = framed.foldl named [] := htable
  have hbefore : (s.near.table.pairs.map Prod.snd).Sublist (established taken) := by
    rw [hpairs, hopen]
    exact foldl_openAfter_sublist (List.Sublist.refl []) taken
  rw [established_append] at honce
  obtain ⟨-, -, hapart⟩ := List.nodup_append'.1 honce
  have hnew (c : ChannelId) (hc : m.established? = some c) :
      c ∉ s.near.table.pairs.map Prod.snd := by
    intro hmem
    refine hapart (hbefore.subset hmem) ?_
    rw [established, List.filterMap_cons_some hc]
    exact List.mem_cons_self
  obtain ⟨hafter, halong, hcarried, hopened⟩ :=
    OutboundEdge.frame?_named (hpairs ▸ namesDistinct_of_along hnames) hnew s.near.draws
  rw [framed?_of_requests hh hr]
  refine ⟨?_, ?_, taken ++ [m], ?_, ?_, ?_⟩
  · rw [List.foldl_append, ← hpairs]
    exact hafter
  · rw [along_append, ← hpairs]
    exact ⟨hnames, halong⟩
  · rw [List.append_assoc]
    rfl
  · rw [List.map_append, hcarried, hframed, outputs_concat, ← hopen, ← hpairs]
  · rw [List.foldl_append, List.foldl_append, ← hopen, ← hpairs]
    exact hopened

theorem Naming.step (h : s.Naming handed framed) (hw : s.Wired key)
    (honce : (established handed).Nodup) (e : RelayEdgeEvent) :
    (s.step e).Naming (handed ++ e.request?.toList) (framed ++ s.framedAt e) := by
  by_cases hsend : e = .send
  · subst hsend
    have hnone : RelayEdgeEvent.send.request?.toList = [] := rfl
    rw [hnone, List.append_nil, framedAt, RelayEdge.step]
    rcases send_cases hw.live with ⟨-, hr, hidle⟩ | ⟨m, rest, hh, hr, htaken⟩ | ⟨out, hh, hwritten⟩
    · rw [hidle, framed?_of_idle hr, Option.toList_none, List.append_nil]
      exact h
    · rw [htaken]
      exact h.take honce hh hr
    · obtain ⟨htable, hnames, htaken⟩ := h
      rw [hwritten, framed?_of_inHand hh, Option.toList_none, List.append_nil]
      refine ⟨?_, hnames, ?_⟩
      · rw [near_write, ← htable, hh]
        obtain ⟨frame, _ | c⟩ := out <;> rfl
      · rw [near_write]
        exact htaken
  · have hnone : s.framedAt e = [] := by
      cases e with
      | send => exact absurd rfl hsend
      | _ => rfl
    obtain ⟨htable, -, hhand, hrequests⟩ := near_step hw hsend
    obtain ⟨hpairs, hnames, taken, rfl, hframed, hopen⟩ := h
    rw [hnone, List.append_nil]
    refine ⟨?_, hnames, taken, ?_, hframed, hopen⟩
    · rw [htable, hhand]
      exact hpairs
    · rw [hrequests, List.append_assoc]

end RelayEdge

end MixRelay
