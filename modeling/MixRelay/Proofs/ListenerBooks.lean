import MixRelay.Proofs.ConnectionCounts
import MixRelay.Proofs.EventLoop
import MixRelay.Proofs.FreshDraws

/-!
# The books of the client listener

A listener keeps its clients in several places: its connections, the tokens of their channels, the registry,
and the limiter. A client enters all of them when it is admitted and leaves all of them when it is torn
down, whatever is under way and whatever ends it. `Entry` lists what a step may do to these books.
-/
namespace MixRelay

/-- What the books have of a client. -/
structure Guest where
  token : Nat
  channel : ChannelId
  address : IpAddress
  deriving DecidableEq

def ClientConnection.guest (c : ClientConnection) : Guest := ⟨c.token, c.channel, c.address⟩

/-- What a client sends does not stop the relay. -/
theorem ClientStream.ne_stopped_of_read {limits : StreamLimits} {c : ClientStream} {b : UInt8}
    {reason : CloseReason} (h : c.read limits b = .error reason) : reason ≠ .stopped := by
  rw [read.eq_def] at h
  split at h
  · split at h
    · rw [announced] at h
      repeat' split at h
      all_goals cases h
      intro hstopped
      cases hstopped
    · cases h
  all_goals cases h
  intro hstopped
  cases hstopped

namespace ClientListener
variable {l m : ClientListener} {token : Nat} {c d : ClientConnection}

/-- The clients that are connected. -/
def guests (l : ClientListener) : List Guest := l.connections.map ClientConnection.guest

theorem map_guests {α : Type} (f : Guest → α) : l.guests.map f = l.connections.map fun c => f c.guest :=
  List.map_map

/-- All places agree: every client has a token and a channel of its own, its channel leads to its token and
is registered, and the limiter has counted it. -/
structure Books (l : ClientListener) : Prop where
  tokens_nodup : (l.guests.map Guest.token).Nodup
  channels_nodup : (l.guests.map Guest.channel).Nodup
  earlier : ∀ g ∈ l.guests, g.token < l.nextToken
  tokens_eq : l.tokens = l.guests.map fun g => (g.channel, g.token)
  ids_eq : l.registry.ids = l.guests.map Guest.channel
  counts : l.limiter.Counts (l.guests.map Guest.address)
  accepted_eq : l.metrics.accepted = l.metrics.disconnects + l.guests.length

theorem Books.distinct (h : l.Books) : l.Distinct where
  tokens := by
    rw [names, List.map_map]
    exact map_guests (l := l) Guest.token ▸ h.tokens_nodup
  channels := by
    rw [names, List.map_map]
    exact map_guests (l := l) Guest.channel ▸ h.channels_nodup
  earlier name hname := by
    obtain ⟨c, hc, rfl⟩ := List.mem_map.1 hname
    exact h.earlier _ (List.mem_map_of_mem hc)

theorem books_start (settings : ListenerSettings) (maxTotal maxPerAddress capacity : Nat) (draws : Draws) :
    (start settings (.new maxTotal maxPerAddress) (.empty capacity) draws).Books where
  tokens_nodup := List.nodup_nil
  channels_nodup := List.nodup_nil
  earlier _ hg := absurd hg List.not_mem_nil
  tokens_eq := rfl
  ids_eq := rfl
  counts := ConnectionLimiter.counts_new maxTotal maxPerAddress
  accepted_eq := rfl

section Same

/-- A change that the books have nothing of. -/
structure SameBooks (l m : ClientListener) : Prop where
  settings_eq : m.settings = l.settings
  nextToken_eq : m.nextToken = l.nextToken
  guests_eq : m.guests = l.guests
  tokens_eq : m.tokens = l.tokens
  ids_eq : m.registry.ids = l.registry.ids
  limiter_eq : m.limiter = l.limiter
  accepted_eq : m.metrics.accepted = l.metrics.accepted
  disconnects_eq : m.metrics.disconnects = l.metrics.disconnects

theorem SameBooks.refl (l : ClientListener) : l.SameBooks l := ⟨rfl, rfl, rfl, rfl, rfl, rfl, rfl, rfl⟩

theorem Books.same (hb : l.Books) (h : l.SameBooks m) : m.Books where
  tokens_nodup := h.guests_eq ▸ hb.tokens_nodup
  channels_nodup := h.guests_eq ▸ hb.channels_nodup
  earlier g hg := h.nextToken_eq ▸ hb.earlier g (h.guests_eq ▸ hg)
  tokens_eq := by rw [h.tokens_eq, h.guests_eq, hb.tokens_eq]
  ids_eq := by rw [h.ids_eq, h.guests_eq, hb.ids_eq]
  counts := by
    rw [h.limiter_eq, h.guests_eq]
    exact hb.counts
  accepted_eq := by rw [h.accepted_eq, h.disconnects_eq, h.guests_eq, hb.accepted_eq]

theorem sameBooks_replace (hl : l.Distinct) (hc : l.connection? token = some c) (hguest : d.guest = c.guest) :
    l.SameBooks (l.replace d) :=
  have htoken : d.token = token := (congrArg Guest.token hguest).trans (token_of_connection? hc)
  ⟨rfl, rfl, map_replace _ hl.tokens hc htoken hguest, rfl, rfl, rfl, rfl, rfl⟩

theorem sameBooks_settle (hl : l.Distinct) (hc : l.connection? token = some c) {s : ClientStream}
    (hid : s.channel.id = c.channel) (rest : Bytes) : l.SameBooks (l.settle c s rest).2 :=
  have hreplaced := sameBooks_replace (d := (l.settle c s rest).1) hl hc rfl
  have hids : (l.registry.modify c.channel fun _ => s.channel).ids = l.registry.ids :=
    ChannelRegistry.ids_modify fun _ _ => hid
  ⟨rfl, rfl, hreplaced.guests_eq, rfl, hids, rfl, rfl, rfl⟩

/-- A client at most has got more bytes, or lost its pause. -/
inductive Touches (l : ClientListener) (token : Nat) : ClientListener → Prop
  | nobody : l.Touches token l
  | client {c d : ClientConnection} (hc : l.connection? token = some c) (hguest : d.guest = c.guest)
      (hpaused : d.paused = true → c.paused = true) : l.Touches token (l.replace d)

theorem touches_receive (l : ClientListener) (token : Nat) (bytes : Bytes) (ended : Bool) :
    l.Touches token (l.receive token bytes ended) := by
  rw [receive]
  split
  · exact .nobody
  · rename_i c hc
    exact .client hc rfl id

theorem touches_unpause (l : ClientListener) (token : Nat) : l.Touches token (l.unpause token) := by
  rw [unpause]
  split
  · exact .nobody
  · rename_i c hc
    exact .client hc rfl (absurd · Bool.false_ne_true)

theorem Touches.sameBooks (h : l.Touches token m) (hl : l.Distinct) : l.SameBooks m := by
  cases h with
  | nobody => exact .refl l
  | client hc hguest => exact sameBooks_replace hl hc hguest

theorem sameBooks_deliver (l : ClientListener) (m : Message) : l.SameBooks (l.deliver m).2 := by
  cases m with
  | reply id payload =>
    rw [deliver]
    split
    · exact .refl l
    · exact ⟨rfl, rfl, rfl, rfl, rfl, rfl, rfl, rfl⟩
  | _ => exact .refl l

/-- A change of the registry that keeps which channels there are. -/
theorem sameBooks_registry {r : ChannelRegistry} (hids : r.ids = l.registry.ids) :
    l.SameBooks { l with registry := r } := ⟨rfl, rfl, rfl, rfl, hids, rfl, rfl, rfl⟩

end Same
section Joining
variable {address : IpAddress} {limiter : ConnectionLimiter} {id : ChannelId}

/-- A client has been admitted, and has a channel of its own. -/
structure Admits (l : ClientListener) (address : IpAddress) (id : ChannelId) (m : ClientListener) : Prop where
  settings_eq : m.settings = l.settings
  nextToken_eq : m.nextToken = l.nextToken + 1
  guests_eq : m.guests = l.guests ++ [⟨l.nextToken, id, address⟩]
  tokens_eq : m.tokens = l.tokens ++ [(id, l.nextToken)]
  ids_eq : m.registry.ids = l.registry.ids ++ [id]
  fresh : id ∉ l.registry.ids
  admitted : l.limiter.connect address = .ok m.limiter
  accepted_eq : m.metrics.accepted = l.metrics.accepted + 1
  disconnects_eq : m.metrics.disconnects = l.metrics.disconnects

theorem accept_books (l : ClientListener) (hroom : l.HasRoom) (address : IpAddress) :
    l.SameBooks (l.accept address).2 ∨ ∃ id, l.Admits address id (l.accept address).2 := by
  rw [accept]
  cases hconnect : l.limiter.connect address with
  | error e => exact .inl ⟨rfl, rfl, rfl, rfl, rfl, rfl, rfl, rfl⟩
  | ok limiter =>
    refine .inr ⟨_, rfl, rfl, List.map_append, rfl, ChannelRegistry.ids_add _ _, ?_, hconnect, rfl, rfl⟩
    exact ChannelRegistry.createFresh_not_mem hroom l.draws

theorem Books.admits (hb : l.Books) (h : l.Admits address id m) : m.Books where
  tokens_nodup := by
    rw [h.guests_eq, List.map_append]
    refine List.nodup_append.2 ⟨hb.tokens_nodup, List.nodup_singleton _, fun t ht u hu heq => ?_⟩
    obtain ⟨g, hg, rfl⟩ := List.mem_map.1 ht
    exact Nat.ne_of_lt (hb.earlier g hg) (heq.trans (List.mem_singleton.1 hu))
  channels_nodup := by
    rw [h.guests_eq, List.map_append]
    refine List.nodup_append.2 ⟨hb.channels_nodup, List.nodup_singleton _, fun i hi j hj heq => ?_⟩
    have hid : i = id := heq.trans (List.mem_singleton.1 hj)
    exact h.fresh (hb.ids_eq.symm ▸ hid ▸ hi)
  earlier g hg := by
    rw [h.nextToken_eq]
    rw [h.guests_eq] at hg
    rcases List.mem_append.1 hg with hg | hg
    · exact Nat.lt_succ_of_lt (hb.earlier g hg)
    · rw [List.mem_singleton.1 hg]
      exact Nat.lt_succ_self _
  tokens_eq := by rw [h.tokens_eq, h.guests_eq, List.map_append, hb.tokens_eq]; rfl
  ids_eq := by rw [h.ids_eq, h.guests_eq, List.map_append, hb.ids_eq]; rfl
  counts := by
    rw [h.guests_eq, List.map_append]
    exact hb.counts.connect h.admitted
  accepted_eq := by
    rw [h.accepted_eq, h.disconnects_eq, h.guests_eq, List.length_append, hb.accepted_eq, Nat.add_assoc]
    rfl

/-- A client has been admitted and has gone before it was a client. -/
structure Misses (l m : ClientListener) : Prop where
  settings_eq : m.settings = l.settings
  nextToken_eq : m.nextToken = l.nextToken + 1
  guests_eq : m.guests = l.guests
  tokens_eq : m.tokens = l.tokens
  ids_eq : m.registry.ids = l.registry.ids
  limiter_eq : ∃ address limiter, l.limiter.connect address = .ok limiter ∧
    m.limiter = limiter.disconnect address
  metrics_eq : m.metrics = l.metrics

theorem acceptInVain_books (l : ClientListener) (hroom : l.HasRoom) (address : IpAddress) :
    l.SameBooks (l.acceptInVain address) ∨ l.Misses (l.acceptInVain address) := by
  rw [acceptInVain]
  cases hconnect : l.limiter.connect address with
  | error e => exact .inl ⟨rfl, rfl, rfl, rfl, rfl, rfl, rfl, rfl⟩
  | ok limiter =>
    refine .inr ⟨rfl, rfl, rfl, rfl, ?_, ⟨address, limiter, hconnect, rfl⟩, rfl⟩
    have hfresh := ChannelRegistry.createFresh_not_mem hroom l.draws
    have hids : ((l.registry.createFresh l.draws).2.2.discard (l.registry.createFresh l.draws).1).ids =
        l.registry.ids := by
      rw [ChannelRegistry.ids_discard, ChannelRegistry.createFresh, ChannelRegistry.ids_add,
        List.filter_append, List.filter_cons_of_neg (by simp), List.filter_nil, List.append_nil,
        List.filter_eq_self]
      exact fun other hother => decide_eq_true fun heq => hfresh (heq ▸ hother)
    exact hids

theorem Books.misses (hb : l.Books) (h : l.Misses m) : m.Books where
  tokens_nodup := h.guests_eq ▸ hb.tokens_nodup
  channels_nodup := h.guests_eq ▸ hb.channels_nodup
  earlier g hg := h.nextToken_eq ▸ Nat.lt_succ_of_lt (hb.earlier g (h.guests_eq ▸ hg))
  tokens_eq := by rw [h.tokens_eq, h.guests_eq, hb.tokens_eq]
  ids_eq := by rw [h.ids_eq, h.guests_eq, hb.ids_eq]
  counts := by
    obtain ⟨address, limiter, hconnect, hlimiter⟩ := h.limiter_eq
    have hcounted := (hb.counts.connect hconnect).perm (List.perm_append_singleton address _)
    have hgone := hcounted.disconnect List.mem_cons_self
    rw [List.erase_cons_head] at hgone
    rw [hlimiter, h.guests_eq]
    exact hgone
  accepted_eq := by rw [h.metrics_eq, h.guests_eq, hb.accepted_eq]

end Joining

section Leaving

/-- A client has gone from all places. -/
structure Leaves (l : ClientListener) (c : ClientConnection) (m : ClientListener) : Prop where
  settings_eq : m.settings = l.settings
  nextToken_eq : m.nextToken = l.nextToken
  guests_eq : m.guests = l.guests.filter fun g => g.token ≠ c.token
  tokens_eq : m.tokens = l.tokens.filter fun entry => entry.1 ≠ c.channel
  ids_eq : m.registry.ids = l.registry.ids.filter fun id => id ≠ c.channel
  limiter_eq : m.limiter = l.limiter.disconnect c.address
  accepted_eq : m.metrics.accepted = l.metrics.accepted
  disconnects_eq : m.metrics.disconnects = l.metrics.disconnects + 1

theorem leaves_tearDown (l : ClientListener) (c : ClientConnection) (reason : CloseReason) :
    l.Leaves c (l.tearDown c reason).2 where
  settings_eq := rfl
  nextToken_eq := rfl
  guests_eq := by
    rw [guests, guests, List.filter_map]
    rfl
  tokens_eq := rfl
  ids_eq := ChannelRegistry.ids_discard l.registry c.channel
  limiter_eq := rfl
  accepted_eq := by cases reason <;> rfl
  disconnects_eq := by cases reason <;> rfl

/-- What is settled before a client goes is nothing to the books. -/
theorem Leaves.after {n : ClientListener} (h : m.Leaves d n) (hsame : l.SameBooks m)
    (hguest : d.guest = c.guest) : l.Leaves c n := by
  have htoken : d.token = c.token := congrArg Guest.token hguest
  have hchannel : d.channel = c.channel := congrArg Guest.channel hguest
  have haddress : d.address = c.address := congrArg Guest.address hguest
  refine ⟨h.settings_eq.trans hsame.settings_eq, h.nextToken_eq.trans hsame.nextToken_eq,
    ?_, ?_, ?_, ?_, ?_, ?_⟩
  · rw [h.guests_eq, hsame.guests_eq, htoken]
  · rw [h.tokens_eq, hsame.tokens_eq, hchannel]
  · rw [h.ids_eq, hsame.ids_eq, hchannel]
  · rw [h.limiter_eq, hsame.limiter_eq, haddress]
  · rw [h.accepted_eq, hsame.accepted_eq]
  · rw [h.disconnects_eq, hsame.disconnects_eq]

theorem Books.guest_eq_iff (hb : l.Books) (hc : c ∈ l.connections) {g : Guest} (hg : g ∈ l.guests) :
    (g = c.guest ↔ g.token = c.token) ∧ (g.channel = c.channel ↔ g.token = c.token) := by
  have hmem : c.guest ∈ l.guests := List.mem_map_of_mem hc
  refine ⟨⟨fun heq => congrArg Guest.token heq, fun heq => ?_⟩, ⟨fun heq => ?_, fun heq => ?_⟩⟩
  · exact List.inj_on_of_nodup_map hb.tokens_nodup hg hmem heq
  · exact congrArg Guest.token (List.inj_on_of_nodup_map hb.channels_nodup hg hmem heq)
  · exact congrArg Guest.channel (List.inj_on_of_nodup_map hb.tokens_nodup hg hmem heq)

/-- The one client and the others. -/
theorem Leaves.guests_perm (hb : l.Books) (hc : c ∈ l.connections) (h : l.Leaves c m) :
    l.guests.Perm (c.guest :: m.guests) := by
  have herase : l.guests.erase c.guest = m.guests := by
    rw [(List.Nodup.of_map _ hb.tokens_nodup).erase_eq_filter, h.guests_eq]
    refine List.filter_congr fun g hg => ?_
    rw [Bool.eq_iff_iff, bne_iff_ne, decide_eq_true_iff]
    exact not_congr (hb.guest_eq_iff hc hg).1
  exact herase ▸ List.perm_cons_erase (List.mem_map_of_mem hc)

theorem Books.leaves (hb : l.Books) (hc : c ∈ l.connections) (h : l.Leaves c m) : m.Books := by
  have hsame : l.guests.filter (fun g => g.channel ≠ c.channel) = m.guests := by
    rw [h.guests_eq]
    refine List.filter_congr fun g hg => decide_eq_decide.2 ?_
    exact not_congr (hb.guest_eq_iff hc hg).2
  have hsub : m.guests.Sublist l.guests := h.guests_eq ▸ List.filter_sublist
  have hperm := h.guests_perm hb hc
  constructor
  · exact hb.tokens_nodup.sublist (hsub.map _)
  · exact hb.channels_nodup.sublist (hsub.map _)
  · exact fun g hg => h.nextToken_eq ▸ hb.earlier g (hsub.subset hg)
  · rw [h.tokens_eq, hb.tokens_eq, List.filter_map, ← hsame]
    rfl
  · rw [h.ids_eq, hb.ids_eq, List.filter_map, ← hsame]
    rfl
  · have hgone := (hb.counts.perm (hperm.map Guest.address)).disconnect List.mem_cons_self
    rw [List.map_cons, List.erase_cons_head] at hgone
    rw [h.limiter_eq]
    exact hgone
  · rw [h.accepted_eq, h.disconnects_eq, hb.accepted_eq, hperm.length_eq, List.length_cons]
    omega

/-- All clients have gone. -/
structure Clears (l m : ClientListener) : Prop where
  settings_eq : m.settings = l.settings
  nextToken_eq : m.nextToken = l.nextToken
  guests_eq : m.guests = []
  books : m.Books

theorem guests_eq_nil_iff : l.guests = [] ↔ l.connections = [] := List.map_eq_nil_iff

theorem clears_closeAll (hb : l.Books) : l.Clears l.closeAll := by
  rw [closeAll]
  generalize hclients : l.connections = clients
  induction clients generalizing l with
  | nil => exact ⟨rfl, rfl, guests_eq_nil_iff.2 hclients, hb⟩
  | cons c clients ih =>
    have hleaves := leaves_tearDown l c .stopped
    have hc : c ∈ l.connections := hclients ▸ List.mem_cons_self
    have hothers : (l.tearDown c .stopped).2.connections = clients := by
      have htokens := hb.tokens_nodup
      rw [map_guests, hclients, List.map_cons] at htokens
      rw [tearDown, hclients, List.filter_cons_of_neg (by simp), List.filter_eq_self]
      intro d hd
      exact decide_eq_true fun heq => (List.nodup_cons.1 htokens).1 (List.mem_map.2 ⟨d, hd, heq⟩)
    obtain ⟨hsettings, htoken, hguests, hbooks⟩ := ih (hb.leaves hc hleaves) hothers
    exact ⟨hsettings, htoken, hguests, hbooks⟩

end Leaving

section Entries

/-- What a step may do to the books, with the messages that are handed on in it for the client that is
served: `lost` tells that the relay stops and nobody is told of a client that goes. -/
inductive Entry (l : ClientListener) (served : Option Nat) (lost : Bool) (sent : List Message)
    (m : ClientListener) : Prop
  | same (h : l.SameBooks m)
      (requests : ∀ d ∈ sent, ∃ token c, served = some token ∧ l.connection? token = some c ∧
        d.requester? = some c.channel)
  | admits {address : IpAddress} {id : ChannelId} (h : l.Admits address id m) (nothing : sent = [])
  | misses (h : l.Misses m) (nothing : sent = [])
  | leaves {token : Nat} {c : ClientConnection} (serves : served = some token)
      (connected : l.connection? token = some c) (h : l.Leaves c m)
      (release : sent = if l.settings.isLast || lost then [] else [.release c.channel])
  | clears (h : l.Clears m) (untold : lost = true) (nothing : sent = [])

variable {served : Option Nat} {lost : Bool} {sent : List Message}

theorem Books.entry (hb : l.Books) (h : l.Entry served lost sent m) : m.Books := by
  cases h with
  | same h => exact hb.same h
  | admits h => exact hb.admits h
  | misses h => exact hb.misses h
  | leaves serves connected h => exact hb.leaves (List.mem_of_find?_eq_some connected) h
  | clears h => exact h.books

theorem Entry.settings_eq (h : l.Entry served lost sent m) : m.settings = l.settings := by
  cases h with
  | same h | admits h | misses h | clears h => exact h.settings_eq
  | leaves serves connected h => exact h.settings_eq

/-- A step that only notes what the books have nothing of. -/
theorem SameBooks.entry (h : l.SameBooks m) : l.Entry served lost [] m :=
  .same h fun _ hd => absurd hd List.not_mem_nil

theorem fst_dismiss (l : ClientListener) (refused : Bool) (c : ClientConnection) (reason : CloseReason) :
    (l.dismiss refused c reason).1 =
      if l.settings.isLast || (refused || reason == .stopped) then [] else [.release c.channel] := by
  simp only [dismiss, tearDown]
  cases refused <;> simp

theorem entry_fail (l : ClientListener) (refused : Bool) (token : Nat) :
    l.Entry (some token) refused (l.fail refused token).1 (l.fail refused token).2 := by
  rw [fail]
  split
  · exact (SameBooks.refl l).entry
  · rename_i c hc
    refine .leaves rfl hc (leaves_tearDown l c .ended) ?_
    rw [fst_dismiss]
    cases refused <;> rfl

/-- A client that is settled and then torn down. -/
theorem entry_dismiss (hl : l.Distinct) (hc : l.connection? token = some c) {s : ClientStream}
    (hid : s.channel.id = c.channel) (rest : Bytes) (refused : Bool) {reason : CloseReason}
    (hlost : (refused || reason == .stopped) = lost) :
    l.Entry (some token) lost ((l.settle c s rest).2.dismiss refused (l.settle c s rest).1 reason).1
      ((l.settle c s rest).2.dismiss refused (l.settle c s rest).1 reason).2 := by
  have hsame := sameBooks_settle hl hc hid rest
  refine .leaves rfl hc ((leaves_tearDown _ _ reason).after hsame rfl) ?_
  rw [fst_dismiss, hsame.settings_eq, hlost]
  rfl

theorem entry_readOnce (hl : l.Distinct) (refused : Bool) (token : Nat) :
    l.Entry (some token) refused (l.readOnce refused token).2.1 (l.readOnce refused token).2.2 := by
  cases hc : l.connection? token with
  | none =>
    simp only [readOnce, hc]
    exact (SameBooks.refl l).entry
  | some c =>
  cases hchannel : l.registry.find? c.channel with
  | none =>
    simp only [readOnce, hc, hchannel]
    exact (SameBooks.refl l).entry
  | some channel =>
  have hid : channel.id = c.channel := ChannelRegistry.find?_some_id hchannel
  have hsince : (streamOf c channel).Since channel := .inl ⟨rfl, rfl⟩
  generalize hturn : l.readOnce refused token = turn
  cases hturn ▸ readingTurn hc hchannel refused with
  | pauses hpause => exact (sameBooks_settle hl hc (hsince.pause.id_eq.trans hid) _).entry
  | blocks hpause hunread hended => exact (sameBooks_settle (s := streamOf c channel) hl hc hid _).entry
  | ends hpause hunread hended =>
    exact entry_dismiss (s := streamOf c channel) hl hc hid _ refused (Bool.or_false _)
  | @breaks b rest reason hpause hunread hread =>
    have hother : (reason == .stopped) = false :=
      beq_eq_false_iff_ne.2 (ClientStream.ne_stopped_of_read hread)
    refine entry_dismiss (s := streamOf c channel) hl hc hid _ refused ?_
    rw [hother, Bool.or_false]
  | @reads b rest s hpause hunread hread =>
    have hread := hsince.read hpause hread
    refine .same (sameBooks_settle hl hc (hread.id_eq.trans hid) rest) fun d hd => ⟨token, c, rfl, hc, ?_⟩
    rcases hread with ⟨-, hnone⟩ | ⟨-, -, -, payload, hone⟩
    · rw [hnone] at hd
      cases hd
    · rw [hone, List.mem_singleton] at hd
      rw [hd, Channel.requestOf, ← hid]
      split <;> rfl
  | @refuses b rest s hpause hunread hread hrefused =>
    refine entry_dismiss (s := { s with requests := [] }) hl hc ((hsince.read hpause hread).id_eq.trans hid)
      rest refused ?_
    rw [hrefused, Bool.true_or]

end Entries
end ClientListener
end MixRelay
