import MixRelay.RelaySettings
import MixRelay.ReplyMixing
import MixRelay.Proofs.FrameStreams
import MixRelay.Proofs.RegistryLookups
import MixRelay.Proofs.Runs
import Mathlib.Data.List.Basic

/-!
# The replies of one channel through sizing and mixing

A poll of the sizing that ends a round takes data from the front of each channel's buffer, once, and
the data of the reply is what left the buffer. The marker behind the round keeps replies of different
rounds of a channel apart, so the mixer of the last relay never shuffles two of them.
-/
namespace MixRelay

/-- The payloads of the replies to a channel, in order. -/
def repliesOf (id : ChannelId) (messages : List Message) : List Bytes :=
  messages.filterMap fun
    | .reply c payload => if c = id then some payload else none
    | _ => none

@[simp] theorem repliesOf_append (id : ChannelId) (first second : List Message) :
    repliesOf id (first ++ second) = repliesOf id first ++ repliesOf id second := by
  simp [repliesOf]

theorem repliesOf_cons (id : ChannelId) (m : Message) (rest : List Message) :
    repliesOf id (m :: rest) = repliesOf id [m] ++ repliesOf id rest := repliesOf_append id [m] rest

@[simp] theorem repliesOf_self (id : ChannelId) (payload : Bytes) :
    repliesOf id [.reply id payload] = [payload] := by
  simp [repliesOf]

theorem repliesOf_of_ne {id c : ChannelId} (h : c ≠ id) (payload : Bytes) :
    repliesOf id [.reply c payload] = [] := by
  simp [repliesOf, h]

@[simp] theorem repliesOf_batchSize (id : ChannelId) (n : UInt32) :
    repliesOf id [.batchSize n] = [] := rfl

/-- With one reply of the channel among them, messages may be shuffled. -/
theorem repliesOf_shuffle {shuffle : List Message → List Message} (hsh : ∀ l, (shuffle l).Perm l)
    {id : ChannelId} {messages : List Message} (h : (repliesOf id messages).length ≤ 1) :
    repliesOf id (shuffle messages) = repliesOf id messages := by
  have hperm : (repliesOf id (shuffle messages)).Perm (repliesOf id messages) :=
    (hsh messages).filterMap _
  match hone : repliesOf id messages, h with
  | [], _ => exact List.perm_nil.1 (hone ▸ hperm)
  | [payload], _ => exact List.perm_singleton.1 (hone ▸ hperm)

/-- The message that an event brings. -/
def MixerEvent.messages : MixerEvent → List Message
  | .arrival m => [m]
  | .timeout => []

/-- Between two markers at most one reply goes to the channel, where some have gone since the last
one; none is left open at the end. -/
def Rounds (id : ChannelId) : Nat → List Message → Prop
  | n, [] => n = 0
  | n, .batchSize _ :: rest => n ≤ 1 ∧ Rounds id 0 rest
  | n, m :: rest =>
    n + (repliesOf id [m]).length ≤ 1 ∧ Rounds id (n + (repliesOf id [m]).length) rest

namespace Rounds
variable {id : ChannelId} {n k : Nat} {m : Message} {messages more : List Message}

theorem cons_iff (h : m.kind ≠ .batchSize) : Rounds id n (m :: messages) ↔
    n + (repliesOf id [m]).length ≤ 1 ∧ Rounds id (n + (repliesOf id [m]).length) messages := by
  cases m with
  | batchSize => exact absurd rfl h
  | _ => rfl

theorem le_one (h : Rounds id n messages) : n ≤ 1 := by
  match messages, h with
  | [], h =>
    obtain rfl : n = 0 := h
    exact Nat.zero_le 1
  | m :: rest, h =>
    by_cases hk : m.kind = .batchSize
    · cases m with
      | batchSize => exact h.1
      | _ => cases hk
    · exact Nat.le_trans (Nat.le_add_right n _) ((cons_iff hk).1 h).1

theorem append (h : Rounds id n messages) (hm : Rounds id 0 more) : Rounds id n (messages ++ more) := by
  induction messages generalizing n with
  | nil =>
    obtain rfl : n = 0 := h
    exact hm
  | cons m messages ih =>
    by_cases hk : m.kind = .batchSize
    · cases m with
      | batchSize => exact ⟨h.1, ih h.2⟩
      | _ => cases hk
    · rw [List.cons_append, cons_iff hk]
      rw [cons_iff hk] at h
      exact ⟨h.1, ih h.2⟩

theorem mono (h : Rounds id n messages) (hle : k ≤ n) : Rounds id k messages := by
  induction messages generalizing n k with
  | nil =>
    obtain rfl : n = 0 := h
    exact Nat.le_zero.1 hle
  | cons m messages ih =>
    by_cases hk : m.kind = .batchSize
    · cases m with
      | batchSize => exact ⟨Nat.le_trans hle h.1, h.2⟩
      | _ => cases hk
    · rw [cons_iff hk] at h ⊢
      exact ⟨by omega, ih h.2 (by omega)⟩

/-- A round is what a marker ends. -/
theorem closed (size : UInt32) (hk : ∀ m ∈ messages, m.kind ≠ .batchSize)
    (hn : n + (repliesOf id messages).length ≤ 1) :
    Rounds id n (messages ++ [.batchSize size]) := by
  induction messages generalizing n with
  | nil => exact ⟨hn, rfl⟩
  | cons m messages ih =>
    rw [repliesOf_cons, List.length_append] at hn
    rw [List.cons_append, cons_iff (hk m List.mem_cons_self)]
    exact ⟨by omega, ih (fun d hd => hk d (List.mem_cons_of_mem m hd)) (by omega)⟩

end Rounds

namespace ReplyPayload

/-- The data that a payload carries; none if it is malformed. -/
def data (payload : Bytes) : Bytes := (decode? payload).getD []

/-- A payload as the sizing makes them: a chunk with its data in front, short enough that four bytes
can tell the length of its frame. -/
def Sound (payload : Bytes) : Prop :=
  ∃ chunk valid, payload = encode chunk valid ∧ valid ≤ chunk.length ∧
    Frame.length payload.length < 2 ^ 32

variable {chunk : Bytes} {valid : Nat}

theorem lt_of_frameLength (h : valid ≤ chunk.length)
    (hf : Frame.length (encode chunk valid).length < 2 ^ 32) : valid < 2 ^ 32 := by
  rw [length_encode, Frame.length] at hf
  omega

theorem data_encode (h : valid ≤ chunk.length)
    (hf : Frame.length (encode chunk valid).length < 2 ^ 32) :
    data (encode chunk valid) = chunk.take valid := by
  rw [data, decode?_encode h (lt_of_frameLength h hf)]
  rfl

/-- The zeros behind a short payload do not count. -/
theorem Sound.decode?_padded {payload : Bytes} (h : Sound payload) :
    decode? (Frame.padded payload) = some (data payload) := by
  obtain ⟨chunk, valid, rfl, hle, hf⟩ := h
  have hmore : Frame.padded (encode chunk valid) = encode (chunk ++
      List.replicate (Frame.headPayloadLength - (encode chunk valid).length) 0) valid := by
    rw [Frame.padded_eq, encode, encode, List.append_assoc]
  rw [hmore, decode?_encode (by rw [List.length_append]; omega) (lt_of_frameLength hle hf),
    data_encode hle hf, List.take_append_of_le_length hle]

end ReplyPayload

theorem Sizing.shrink_le {blockSize cap length : Nat} (hb : 0 < blockSize) :
    shrink blockSize cap length ≤ max cap blockSize := by
  fun_induction shrink blockSize cap length with
  | case1 length h ih => exact ih
  | case2 length h => omega

theorem Sizing.alignToBlocks_le {blockSize : Nat} (hb : 0 < blockSize) (size headerLength cap : Nat) :
    alignToBlocks size blockSize headerLength cap ≤ max cap blockSize - headerLength :=
  Nat.sub_le_sub_right (shrink_le hb) headerLength

/-- Reply settings that the rest of the relay can follow. -/
structure SizingSettings.Fits (s : SizingSettings) : Prop where
  header : s.headerLength = ReplyPayload.headerLength
  block : s.blockSize ≤ s.maxReplyLength
  frame : Frame.length s.maxReplyLength < 2 ^ 32

/-- Valid settings fit, if four bytes can tell the length of a frame. -/
theorem RelaySettings.fits_of_validate {s : RelaySettings} (h : s.validate = .ok ())
    (hframe : s.framing.maxFrameLength < 2 ^ 32) : s.forSizing.Fits := by
  have hnone : s.numberFault? = none := by
    cases hfault : s.numberFault? with
    | none => rfl
    | some e => simp [validate, hfault] at h
  have hlargest := length_le_maxFrameLength_of_validate h
  have hreply : Frame.length s.framing.maxReplyLength ≤ Frame.length s.largestPayload := by
    rw [largestPayload, Frame.length, Frame.length]
    omega
  unfold numberFault? at hnone
  split at hnone
  · cases hnone
  rename_i hblock
  split at hnone
  · cases hnone
  rename_i hroom
  iterate 3
    split at hnone
    · cases hnone
  split at hnone
  · cases hnone
  rename_i hheader
  exact ⟨not_not.1 hheader, Nat.le_of_not_lt hroom, Nat.lt_of_le_of_lt (Nat.le_trans hreply hlargest) hframe⟩

namespace ReplySizer

/-- Every reply of a round fits into a frame. -/
theorem decide?_le {s : SizingSettings} (h : s.Fits) {volumes : List Nat} {size : Nat}
    (hs : decide? s volumes = some size) : Frame.length (ReplyPayload.headerLength + size) < 2 ^ 32 := by
  obtain ⟨hheader, hblock, hframe⟩ := h
  unfold decide? Sizing.alignToBlocks? at hs
  dsimp only at hs
  split at hs
  · cases hs
  · rename_i hb
    have hsize := Sizing.alignToBlocks_le (Nat.pos_of_ne_zero hb)
      (Sizing.weightedMedian (volumes.mergeSort (· ≤ ·)) s.weight).round.toUInt64.toNat
      s.headerLength s.maxReplyLength
    rw [Option.some.inj hs, Nat.max_eq_left hblock, hheader] at hsize
    simp only [Frame.length, Frame.headerLength, ReplyPayload.headerLength] at hsize hframe ⊢
    omega

end ReplySizer

/-- The reply data that a channel holds; none if it is not registered. -/
def ChannelRegistry.buffer (r : ChannelRegistry) (id : ChannelId) : Bytes :=
  ((r.find? id).map fun c => c.proxy.replies).getD []

/-- The reply data that a channel holds before a change that takes from its front, and not behind. -/
def ChannelRegistry.drawn (before after : ChannelRegistry) (id : ChannelId) : Bytes :=
  (before.buffer id).take ((before.buffer id).length - (after.buffer id).length)

theorem ChannelRegistry.drawn_of_buffer_eq {before after : ChannelRegistry} {id : ChannelId}
    (h : after.buffer id = before.buffer id) : before.drawn after id = [] := by
  rw [drawn, h, Nat.sub_self, List.take_zero]

namespace ReplyCut
variable {size : Nat} {id : ChannelId} {r : ChannelRegistry} {cut : ReplyCut}

/-- The reply of a channel: a chunk of its data. -/
def payload (size : Nat) (c : Channel) : Bytes :=
  ReplyPayload.encode (Bytes.fit size c.proxy.replies) (min c.proxy.replies.length size)

/-- A channel with one reply less in its buffer, and none to come in the round. -/
def served (size : Nat) (c : Channel) : Channel := (c.claimReply.2.takeReply size).2.2

/-- The channel has had no reply yet and is as before, or it has had the one for its data. -/
def Serves (size : Nat) (r : ChannelRegistry) (cut : ReplyCut) (id : ChannelId) : Prop :=
  (repliesOf id cut.replies = [] ∧ cut.registry.find? id = r.find? id) ∨
    ∃ c, r.find? id = some c ∧ repliesOf id cut.replies = [payload size c] ∧
      cut.registry.find? id = some (served size c)

theorem sound_payload (h : Frame.length (ReplyPayload.headerLength + size) < 2 ^ 32) (c : Channel) :
    ReplyPayload.Sound (payload size c) := by
  refine ⟨_, _, rfl, ?_, ?_⟩
  · rw [Bytes.length_fit]
    exact Nat.min_le_right _ _
  · rwa [payload, ReplyPayload.length_encode, Bytes.length_fit]

/-- A payload carries the first bytes of the buffer, as many as fit. -/
theorem decode?_payload (h : size < 2 ^ 32) (c : Channel) :
    ReplyPayload.decode? (payload size c) = some (c.proxy.replies.take size) := by
  have hvalid : min c.proxy.replies.length size ≤ (Bytes.fit size c.proxy.replies).length := by
    rw [Bytes.length_fit]
    exact Nat.min_le_right _ _
  rw [payload, ReplyPayload.decode?_encode hvalid (Nat.lt_of_le_of_lt (Nat.min_le_right _ _) h),
    Bytes.take_fit]

/-- The data of a reply is what left the buffer. -/
theorem data_payload (h : Frame.length (ReplyPayload.headerLength + size) < 2 ^ 32) (c : Channel) :
    ReplyPayload.data (payload size c) = c.proxy.replies.take size := by
  have hsize : size < 2 ^ 32 := by
    rw [Frame.length] at h
    omega
  rw [ReplyPayload.data, decode?_payload hsize]
  rfl

/-- The reply of a channel, and what it leaves of the channel. -/
theorem add_of_free {c : Channel} (hc : cut.registry.find? id = some c) (hfree : c.replyClaimed = false) :
    cut.add size id = ⟨cut.registry.modify id fun _ => served size c,
      cut.metrics.countReply size (min c.proxy.replies.length size),
      cut.replies ++ [.reply id (payload size c)]⟩ := by
  simp only [add, hc]
  exact if_neg (by simp [hfree])

theorem add_of_claimed {c : Channel} (hc : cut.registry.find? id = some c)
    (hclaimed : c.replyClaimed = true) : cut.add size id = cut := by
  simp only [add, hc]
  exact if_pos hclaimed

theorem add_cases (size : Nat) (cut : ReplyCut) (id : ChannelId) :
    cut.add size id = cut ∨ ∃ c metrics, cut.registry.find? id = some c ∧ c.replyClaimed = false ∧
      cut.add size id = ⟨cut.registry.modify id fun _ => served size c, metrics,
        cut.replies ++ [.reply id (payload size c)]⟩ := by
  cases hc : cut.registry.find? id with
  | none =>
    refine .inl ?_
    simp only [add, hc]
  | some c =>
    cases hfree : c.replyClaimed with
    | true => exact .inl (add_of_claimed hc hfree)
    | false => exact .inr ⟨c, _, rfl, hfree, add_of_free hc hfree⟩

theorem Serves.add (h : cut.Serves size r id) (other : ChannelId) :
    (cut.add size other).Serves size r id := by
  rcases add_cases size cut other with heq | ⟨c, metrics, hc, hfree, heq⟩
  · rwa [heq]
  · have hcid : c.id = other := ChannelRegistry.find?_some_id hc
    have hserved : (served size c).id = other := hcid
    rw [heq]
    by_cases hid : other = id
    · subst hid
      rcases h with ⟨hnone, hsame⟩ | ⟨d, hd, hone, hserves⟩
      · refine .inr ⟨c, hsame ▸ hc, ?_, ChannelRegistry.find?_modify hc hserved⟩
        rw [repliesOf_append, hnone, repliesOf_self, List.nil_append]
      · rw [hserves] at hc
        rw [← Option.some.inj hc] at hfree
        cases hfree
    · have hfind : (cut.registry.modify other fun _ => served size c).find? id =
          cut.registry.find? id := ChannelRegistry.find?_modify_of_ne (fun _ _ => hserved) (Ne.symm hid)
      have hreplies : repliesOf id (cut.replies ++ [.reply other (payload size c)]) =
          repliesOf id cut.replies := by
        rw [repliesOf_append, repliesOf_of_ne hid, List.append_nil]
      rwa [Serves, hfind, hreplies]

/-- All that is cut are replies that fit into frames. -/
def Sound (cut : ReplyCut) : Prop :=
  ∀ m ∈ cut.replies, ∃ c payload, m = .reply c payload ∧ ReplyPayload.Sound payload

theorem Sound.add (hc : cut.Sound) (h : Frame.length (ReplyPayload.headerLength + size) < 2 ^ 32)
    (other : ChannelId) : (cut.add size other).Sound := by
  rcases add_cases size cut other with heq | ⟨c, metrics, -, -, heq⟩
  · rwa [heq]
  · rw [heq]
    intro m hm
    rcases List.mem_append.1 hm with hm | hm
    · exact hc m hm
    · exact ⟨other, _, List.mem_singleton.1 hm, sound_payload h c⟩

end ReplyCut

namespace ReplySizer
variable {s s' : ReplySizer} {r r' : ChannelRegistry} {round : Option SizedRound} {elapsed : Bool}

/-- The messages of a poll. -/
def messages (round : Option SizedRound) : List Message := (round.map SizedRound.messages).getD []

theorem poll?_cases (h : s.poll? r elapsed = some (round, s', r')) :
    s'.settings = s.settings ∧ ((round = none ∧ r' = r) ∨
      ∃ size volumes, decide? s.settings volumes = some size ∧
        let done := s.cut r (r.establishedChannels.map Channel.id) size
        messages round = done.replies ++ [.batchSize (UInt32.ofNat done.replies.length)] ∧
          r' = done.registry.closeReplyRound) := by
  unfold poll? at h
  dsimp only at h
  split at h
  · cases h
    exact ⟨rfl, .inl ⟨rfl, rfl⟩⟩
  · split at h
    · cases h
      exact ⟨rfl, .inl ⟨rfl, rfl⟩⟩
    · obtain ⟨size, hsize, heq⟩ := Option.map_eq_some_iff.1 h
      cases heq
      exact ⟨rfl, .inr ⟨size, _, hsize, rfl, rfl⟩⟩

theorem cut_serves (s : ReplySizer) (r : ChannelRegistry) (ids : List ChannelId) (size : Nat)
    (id : ChannelId) : (s.cut r ids size).Serves size r id :=
  @foldl_invariant _ _ (ReplyCut.add size) (fun cut => cut.Serves size r id)
    (fun _ other hc => hc.add other) _ ids (.inl ⟨rfl, rfl⟩)

theorem cut_sound (s : ReplySizer) (r : ChannelRegistry) (ids : List ChannelId) {size : Nat}
    (h : Frame.length (ReplyPayload.headerLength + size) < 2 ^ 32) : (s.cut r ids size).Sound :=
  @foldl_invariant _ _ (ReplyCut.add size) ReplyCut.Sound (fun _ other hc => hc.add h other) _ ids
    (fun _ hm => nomatch hm)

theorem buffer_closeReplyRound (r : ChannelRegistry) (id : ChannelId) :
    r.closeReplyRound.buffer id = r.buffer id := by
  have hfind : r.closeReplyRound.find? id = (r.find? id).map Channel.clearReply :=
    ChannelRegistry.find?_map (f := Channel.clearReply) (fun _ => rfl) rfl id
  rw [ChannelRegistry.buffer, hfind, Option.map_map]
  rfl

/-- A poll takes from a channel's buffer what its reply carries, and gives it one reply at most. -/
theorem poll?_spec (hf : s.settings.Fits) (h : s.poll? r elapsed = some (round, s', r'))
    (id : ChannelId) :
    Rounds id 0 (messages round) ∧
      (repliesOf id (messages round)).flatMap ReplyPayload.data = r.drawn r' id ∧
      (r.find? id = none → repliesOf id (messages round) = []) ∧
      ∀ c payload, .reply c payload ∈ messages round → ReplyPayload.Sound payload := by
  obtain ⟨-, ⟨rfl, rfl⟩ | ⟨size, volumes, hsize, hmessages, hr⟩⟩ := poll?_cases h
  · refine ⟨rfl, (ChannelRegistry.drawn_of_buffer_eq rfl).symm, fun _ => rfl, fun c payload hm => ?_⟩
    cases hm
  · have hlength := decide?_le hf hsize
    have hserves := cut_serves s r (r.establishedChannels.map Channel.id) size id
    have hsound := cut_sound s r (r.establishedChannels.map Channel.id) hlength
    generalize s.cut r (r.establishedChannels.map Channel.id) size = done at hserves hsound hmessages hr
    have hreplies : repliesOf id (messages round) = repliesOf id done.replies := by
      rw [hmessages, repliesOf_append, repliesOf_batchSize, List.append_nil]
    have hkind : ∀ m ∈ done.replies, m.kind ≠ .batchSize := by
      intro m hm
      obtain ⟨c, payload, rfl, -⟩ := hsound m hm
      exact nofun
    have hall : ∀ c payload, .reply c payload ∈ messages round → ReplyPayload.Sound payload := by
      intro c payload hm
      rw [hmessages] at hm
      rcases List.mem_append.1 hm with hm | hm
      · obtain ⟨d, p, heq, hp⟩ := hsound _ hm
        cases heq
        exact hp
      · cases List.mem_singleton.1 hm
    rw [hreplies]
    rcases hserves with ⟨hnone, hsame⟩ | ⟨c, hc, hone, hserved⟩
    · refine ⟨?_, ?_, fun _ => hnone, hall⟩
      · rw [hmessages]
        exact Rounds.closed _ hkind (by rw [hnone]; exact Nat.zero_le 1)
      · rw [hnone, hr, ChannelRegistry.drawn_of_buffer_eq]
        · rfl
        · rw [buffer_closeReplyRound, ChannelRegistry.buffer, hsame]
          rfl
    · refine ⟨?_, ?_, fun hnot => ?_, hall⟩
      · rw [hmessages]
        exact Rounds.closed _ hkind (by rw [hone]; exact Nat.le_refl 1)
      · have hbefore : r.buffer id = c.proxy.replies := by
          rw [ChannelRegistry.buffer, hc]
          rfl
        have hafter : r'.buffer id = c.proxy.replies.drop size := by
          rw [hr, buffer_closeReplyRound, ChannelRegistry.buffer, hserved]
          rfl
        rw [hone, List.flatMap_singleton, ReplyCut.data_payload hlength, ChannelRegistry.drawn,
          hbefore, hafter, List.length_drop]
        rw [List.take_eq_take_iff]
        omega
      · rw [hnot] at hc
        cases hc

end ReplySizer

namespace ReplyMixer
variable {shuffle : List Message → List Message} {m : ReplyMixer} {id : ChannelId}

/-- Behind the sizing a reply waits for the marker, however many channels are established. -/
theorem step_reply (hlast : m.isLast = true) (established : Nat) (c : ChannelId) (payload : Bytes) :
    m.step shuffle established (.arrival (.reply c payload)) =
      ⟨{ m with batch := m.batch ++ [.reply c payload] }, [], false⟩ := by
  simp [step, collect, hlast, idle]

/-- What leaves the mixer of the last relay has been in its batch or just come. -/
theorem flushUnlessEmpty_of_isLast (shuffle : List Message → List Message) (m : ReplyMixer) :
    (m.flushUnlessEmpty shuffle).mixer.batch = [] ∧
      ((m.flushUnlessEmpty shuffle).sent = shuffle m.batch ∨
        (m.batch = [] ∧ (m.flushUnlessEmpty shuffle).sent = [])) := by
  unfold flushUnlessEmpty
  split
  · rename_i hempty
    exact ⟨List.isEmpty_iff.1 hempty, .inr ⟨List.isEmpty_iff.1 hempty, rfl⟩⟩
  · exact ⟨rfl, .inl rfl⟩

theorem repliesOf_flushUnlessEmpty (hsh : ∀ l, (shuffle l).Perm l)
    (h : (repliesOf id m.batch).length ≤ 1) :
    repliesOf id (m.flushUnlessEmpty shuffle).sent = repliesOf id m.batch := by
  rcases (flushUnlessEmpty_of_isLast shuffle m).2 with hsent | ⟨hempty, hsent⟩
  · rw [hsent, repliesOf_shuffle hsh h]
  · rw [hsent, hempty]

/-- Behind the sizing a step sends on the replies of a channel one by one, as they came. -/
theorem repliesOf_step (hlast : m.isLast = true) (hsh : ∀ l, (shuffle l).Perm l) (established : Nat)
    {e : MixerEvent} {rest : List Message} (h : Rounds id (repliesOf id m.batch).length (e.messages ++ rest)) :
    let t := m.step shuffle established e
    repliesOf id t.sent ++ repliesOf id t.mixer.batch =
        repliesOf id m.batch ++ repliesOf id e.messages ∧
      Rounds id (repliesOf id t.mixer.batch).length rest := by
  intro t
  have hsent := repliesOf_flushUnlessEmpty hsh h.le_one
  have hbatch := (flushUnlessEmpty_of_isLast shuffle m).1
  cases e with
  | timeout =>
    have ht : t = m.flushUnlessEmpty shuffle := rfl
    rw [ht, hsent, hbatch]
    exact ⟨rfl, h.mono (Nat.zero_le _)⟩
  | arrival d =>
    cases d with
    | reply c payload =>
      have ht : t = ⟨{ m with batch := m.batch ++ [.reply c payload] }, [], false⟩ :=
        step_reply hlast established c payload
      obtain ⟨-, hrest⟩ := (Rounds.cons_iff (m := .reply c payload) nofun).1 h
      rw [ht, repliesOf_append, List.length_append]
      exact ⟨rfl, hrest⟩
    | batchSize n =>
      have ht : t = m.flushUnlessEmpty shuffle := if_pos hlast
      rw [ht, hsent, hbatch]
      exact ⟨rfl, h.2⟩
    | establish | message | release =>
      rw [MixerEvent.messages, List.cons_append, Rounds.cons_iff (by simp [Message.kind])] at h
      exact ⟨(List.append_nil _).symm, h.2⟩

/-- A step hands no message on that was not there. -/
theorem mem_step (hlast : m.isLast = true) (hsh : ∀ l, (shuffle l).Perm l) {established : Nat}
    {e : MixerEvent} {d : Message} (h : d ∈ (m.step shuffle established e).sent ++
      (m.step shuffle established e).mixer.batch) : d ∈ m.batch ++ e.messages := by
  have hflush (hd : d ∈ (m.flushUnlessEmpty shuffle).sent ++
      (m.flushUnlessEmpty shuffle).mixer.batch) : d ∈ m.batch := by
    obtain ⟨hbatch, hsent⟩ := flushUnlessEmpty_of_isLast shuffle m
    rw [hbatch, List.append_nil] at hd
    rcases hsent with hsent | ⟨-, hsent⟩
    · exact (hsh m.batch).mem_iff.1 (hsent ▸ hd)
    · rw [hsent] at hd
      cases hd
  cases e with
  | timeout => exact List.mem_append_left _ (hflush h)
  | arrival d =>
    cases d with
    | reply c payload => rwa [step_reply hlast, List.nil_append] at h
    | batchSize n =>
      rw [step, if_pos hlast] at h
      exact List.mem_append_left _ (hflush h)
    | establish | message | release => exact List.mem_append_left _ h

end ReplyMixer
end MixRelay
