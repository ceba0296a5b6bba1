import MixRelay.Proofs.SendingSteps

/-!
# Keystreams restart with every connection

On each connection the frames are hidden with the keystream from its first block on, one block a frame.
A frame that breaks off is the last on its connection, since a generation that has been reported never
comes back; it is then written again, from its beginning, on a later one. So a receiver that starts its
keystream anew with each connection reads every frame that is all there. Only a sender that is given no
handle of a live stream drops its frame; every other frame goes out, once and in its turn.
-/
namespace MixRelay

namespace FrameReader
variable {r : FrameReader} {maxLength : Nat} {f : TypedFrame} {behind : Bytes}

theorem readFrames_succ (maxLength n : Nat) (r : FrameReader) :
    r.readFrames maxLength (n + 1) =
      match r.readHead maxLength with
      | (.error _, _) => ([], r)
      | (.ok h, r') =>
        match r'.readPayload h with
        | (.error _, _) => ([], r)
        | (.ok payload, r') =>
          let (more, r') := r'.readFrames maxLength n
          ((h, payload) :: more, r') := by
  rfl

theorem readHead_eq {got : ReadResult FrameHead}
    (h : Frame.readHead maxLength r.keystream r.rest = got) :
    r.readHead maxLength = (got.answer, ⟨match got.answer with
      | .ok h => some h
      | .error _ => r.head, got.rest, got.keystream⟩) := by
  subst h
  rfl

theorem readPayload_eq {h : FrameHead} {answer : Except FrameError Bytes} {rest : Bytes}
    (hread : Frame.readPayload h r.rest = (answer, rest)) :
    r.readPayload h = (answer, { r with rest := rest }) := by
  have hparts : r.readPayload h = ((Frame.readPayload h r.rest).1,
      { r with rest := (Frame.readPayload h r.rest).2 }) := by rfl
  rw [hparts, hread]

/-- Without the next frame nothing is read. -/
theorem readFrames_of_lacks (h : Frame.Lacks maxLength r.keystream r.rest) (n : Nat) :
    (r.readFrames maxLength n).1 = [] := by
  cases n with
  | zero => rfl
  | succ n =>
    rw [Frame.Lacks] at h
    generalize hgot : Frame.readHead maxLength r.keystream r.rest = got at h
    rw [readFrames_succ, readHead_eq hgot]
    obtain ⟨answer, rest, ks⟩ := got
    cases answer with
    | error e => rfl
    | ok head =>
      have hnone := readPayload_eq (r := ⟨some head, rest, ks⟩) (Frame.readPayload_of_short (h head rfl))
      dsimp only
      rw [hnone]

/-- The next frame is read, and then those behind it. -/
theorem readFrames_of_leads (h : TypedFrame.Leads maxLength r.keystream r.rest f behind) (n : Nat) :
    (r.readFrames maxLength (n + 1)).1 = (f.head, Frame.padded f.payload) ::
      (readFrames maxLength n ⟨some f.head, behind, r.keystream.advance⟩).1 := by
  obtain ⟨hremaining, hlong⟩ := f.head_remaining behind
  have hpayload := Frame.readPayload_of_long hlong
  rw [hremaining, List.take_left, List.drop_left] at hpayload
  rw [readFrames_succ, readHead_eq h]
  have hsome := readPayload_eq (r := ⟨some f.head, _, r.keystream.advance⟩) hpayload
  dsimp only
  rw [hsome]
  rfl

end FrameReader

namespace WriteTry

/-- The frame is hidden with the next block of a keystream. All of it is written, or its front. -/
def Carries (ks : HeaderKeystream) (t : WriteTry) : Prop :=
  ∃ lost, (Frame.encode ks t.frame.header t.frame.payload).1 = t.bytes ++ lost ∧
    (t.complete = true ↔ lost = [])

namespace Carries
variable {maxLength : Nat} {ks : HeaderKeystream} {t : WriteTry}

/-- A complete frame is read, whatever follows it. -/
theorem leads (h : t.Carries ks) (hcomplete : t.complete = true)
    (hmax : Frame.length t.frame.payload.length ≤ maxLength)
    (hword : Frame.length t.frame.payload.length < 2 ^ 32) (behind : Bytes) :
    TypedFrame.Leads maxLength ks (t.bytes ++ behind) t.frame behind := by
  obtain ⟨lost, hbytes, hwhole⟩ := h
  rw [Frame.encode_eq, hwhole.1 hcomplete, List.append_nil] at hbytes
  rw [← hbytes, List.append_assoc]
  exact Frame.readHead_head hmax hword _

/-- A frame that broke off is not read. -/
theorem lacks (h : t.Carries ks) (hbroken : t.complete = false)
    (hword : Frame.length t.frame.payload.length < 2 ^ 32) : Frame.Lacks maxLength ks t.bytes := by
  obtain ⟨lost, hbytes, hwhole⟩ := h
  have hlost : lost ≠ [] := fun hnone => Bool.false_ne_true (hbroken.symm.trans (hwhole.2 hnone))
  have hhead : Frame.head ks t.frame.header t.frame.payload ++
      (t.frame.payload.drop Frame.headPayloadLength ++ []) = t.bytes ++ lost := by
    rw [List.append_nil]
    exact hbytes
  have hsplit : Frame.Lacks maxLength ks t.bytes ∨ ∃ behind,
      TypedFrame.Leads maxLength ks t.bytes t.frame behind ∧ [] = behind ++ lost :=
    TypedFrame.lacks_or_leads_of_head hword hhead
  rcases hsplit with hlacks | ⟨behind, -, hbehind⟩
  · exact hlacks
  · exact absurd (List.append_eq_nil_iff.1 hbehind.symm).2 hlost

end Carries

/-- What was written on the stream of a generation. -/
def on (g : Nat) (tries : List WriteTry) : List WriteTry := tries.filter fun t => t.generation = g

/-- A receiver with the keystream of the first of the frames reads all that are complete. -/
theorem readFrames_tries {maxLength : Nat} {ks : HeaderKeystream} {tries : List WriteTry}
    (hblocks : ∀ (i : Nat) (t : WriteTry), tries[i]? = some t →
      t.Carries { ks with position := ks.position + i })
    (hlast : tries.Pairwise fun t _ => t.complete = true)
    (hfit : ∀ t ∈ tries, Frame.length t.frame.payload.length ≤ maxLength ∧
      Frame.length t.frame.payload.length < 2 ^ 32) (head : Option FrameHead) (n : Nat) :
    (FrameReader.readFrames maxLength n ⟨head, tries.flatMap bytes, ks⟩).1 =
      ((tries.filter complete).take n).map fun t => (t.frame.head, Frame.padded t.frame.payload) := by
  induction tries generalizing ks head n with
  | nil =>
    have hlacks : Frame.Lacks maxLength ks [] := Frame.lacks_of_lt (Nat.zero_lt_succ 19)
    rw [List.filter_nil, List.take_nil]
    exact FrameReader.readFrames_of_lacks (r := ⟨head, [], ks⟩) hlacks n
  | cons t tries ih =>
    obtain ⟨hmax, hword⟩ := hfit t List.mem_cons_self
    obtain ⟨hfirst, hrest⟩ := List.pairwise_cons.1 hlast
    have hcarries : t.Carries ks := hblocks 0 t rfl
    rw [List.flatMap_cons]
    cases hcomplete : t.complete with
    | true =>
      have hleads := hcarries.leads hcomplete hmax hword (tries.flatMap bytes)
      have hlater (i : Nat) (u : WriteTry) (hu : tries[i]? = some u) :
          u.Carries { ks.advance with position := ks.advance.position + i } := by
        have hblock := hblocks (i + 1) u hu
        rw [Nat.add_comm i 1, ← Nat.add_assoc] at hblock
        exact hblock
      rw [List.filter_cons_of_pos hcomplete]
      cases n with
      | zero => rfl
      | succ n =>
        rw [FrameReader.readFrames_of_leads (r := ⟨head, _, ks⟩) hleads, List.take_succ_cons,
          List.map_cons, ih hlater hrest fun u hu => hfit u (List.mem_cons_of_mem t hu)]
    | false =>
      -- nothing follows a frame that broke off
      obtain rfl : tries = [] := List.eq_nil_iff_forall_not_mem.2 fun u hu =>
        Bool.false_ne_true (hcomplete.symm.trans (hfirst u hu))
      rw [List.filter_cons_of_neg (by simp [hcomplete]), List.filter_nil, List.take_nil,
        List.flatMap_nil, List.append_nil]
      exact FrameReader.readFrames_of_lacks (r := ⟨head, t.bytes, ks⟩) (hcarries.lacks hcomplete hword) n

end WriteTry

namespace EdgeConnection
variable {c : EdgeConnection} {g : Nat}

/-- The stream of a generation never comes back. -/
structure Gone (c : EdgeConnection) (g : Nat) : Prop where
  le : g ≤ c.generation
  lt : c.isConnected = true → g < c.generation

theorem Gone.call (h : c.Gone g) (d : ConnectionCall) : (c.call d).Gone g := by
  have hle := c.generation_le_call d
  refine ⟨Nat.le_trans h.le hle, fun hlive => ?_⟩
  cases hbefore : c.isConnected with
  | true => exact Nat.lt_of_lt_of_le (h.lt hbefore) hle
  | false => exact Nat.lt_of_le_of_lt h.le (generation_lt_call hbefore hlive)

/-- A generation that has been reported is gone, whoever took its stream down. -/
theorem gone_invalidate (h : g ≤ c.generation) : (c.invalidate g).2.Gone g := by
  rcases c.invalidate_cases g with ⟨hwon, -, -⟩ | ⟨hlost, hnot⟩
  · rw [hwon]
    refine ⟨?_, fun hlive => absurd ((isConnected_takeDown c).symm.trans hlive) nofun⟩
    rwa [generation_takeDown]
  · rw [hlost]
    refine ⟨h, fun hlive => Nat.lt_of_le_of_ne h fun heq => hnot ⟨heq, hlive⟩⟩

end EdgeConnection

/-- What was written, and a cipher that stands behind it on the last stream. -/
structure Written (key : EdgeKey) (direction : Direction) (tries : List WriteTry) (c : EdgeCipher) :
    Prop where
  ordered : tries.Pairwise fun a b =>
    a.generation ≤ b.generation ∧ (a.complete = false → a.generation < b.generation)
  blocks : ∀ (g i : Nat) (t : WriteTry), (WriteTry.on g tries)[i]? = some t →
    t.Carries ⟨key, direction, i⟩
  latest : ∀ t ∈ tries, t.generation ≤ c.generation
  position : c.keystream = ⟨key, direction, (WriteTry.on c.generation tries).length⟩

namespace Written
variable {key : EdgeKey} {direction : Direction} {tries : List WriteTry} {c : EdgeCipher} {g : Nat}

/-- On a new stream the keystream starts again, on the same one it goes on. -/
theorem keystream_forGeneration (h : Written key direction tries c) (hle : c.generation ≤ g) :
    (c.forGeneration g).keystream = ⟨key, direction, (WriteTry.on g tries).length⟩ := by
  unfold EdgeCipher.forGeneration
  split
  · rename_i heq
    rw [h.position, heq]
  · rename_i hne
    have hnone : WriteTry.on g tries = [] := by
      refine List.filter_eq_nil_iff.2 fun t ht hg => hne ?_
      have hlatest := h.latest t ht
      rw [of_decide_eq_true hg] at hlatest
      exact Nat.le_antisymm hle hlatest
    rw [h.position, hnone]
    rfl

/-- The next frame is written on the last stream or on a later one, and not on one where a frame has
broken off. -/
theorem concat (h : Written key direction tries c) {t : WriteTry} (hle : c.generation ≤ t.generation)
    (hlater : ∀ u ∈ tries, u.complete = false → u.generation < t.generation)
    (ht : t.Carries (c.forGeneration t.generation).keystream) :
    Written key direction (tries ++ [t])
      ⟨(c.forGeneration t.generation).keystream.advance, t.generation⟩ := by
  rw [h.keystream_forGeneration hle] at ht ⊢
  have hon (g : Nat) : WriteTry.on g (tries ++ [t]) =
      WriteTry.on g tries ++ if t.generation = g then [t] else [] := by
    rw [WriteTry.on, List.filter_append, List.filter_singleton]
    simp [WriteTry.on]
  refine ⟨?_, fun g i u hu => ?_, fun u hu => ?_, ?_⟩
  · refine List.pairwise_append.2 ⟨h.ordered, List.pairwise_singleton _ _, fun u hu v hv => ?_⟩
    rw [List.mem_singleton.1 hv]
    exact ⟨Nat.le_trans (h.latest u hu) hle, hlater u hu⟩
  · rw [hon, List.getElem?_append] at hu
    split at hu
    · exact h.blocks g i u hu
    · rename_i hge
      by_cases hg : t.generation = g
      · rw [if_pos hg, List.getElem?_singleton] at hu
        split at hu
        · cases hu
          have heq : i = (WriteTry.on g tries).length := by omega
          rw [heq, ← hg]
          exact ht
        · cases hu
      · rw [if_neg hg] at hu
        cases hu
  · rcases List.mem_append.1 hu with hu | hu
    · exact Nat.le_trans (h.latest u hu) hle
    · exact Nat.le_of_eq (congrArg WriteTry.generation (List.mem_singleton.1 hu))
  · dsimp only
    rw [hon, if_pos rfl, List.length_append]
    rfl

/-- On one stream only the last frame may have broken off. -/
theorem complete_on (h : Written key direction tries c) (g : Nat) :
    (WriteTry.on g tries).Pairwise fun t _ => t.complete = true := by
  refine (h.ordered.filter _).imp_of_mem fun {a b} ha hb hab => ?_
  have hfirst : a.generation = g := of_decide_eq_true (List.mem_filter.1 ha).2
  have hsecond : b.generation = g := of_decide_eq_true (List.mem_filter.1 hb).2
  cases hcomplete : a.complete with
  | true => rfl
  | false => exact absurd (hfirst.trans hsecond.symm) (Nat.ne_of_lt (hab.2 hcomplete))

end Written

namespace SendingSide
variable {key : EdgeKey} {direction : Direction} {handed dropped : List TypedFrame}
  {tries : List WriteTry} {s : SendingSide} {g : Nat} {f : TypedFrame}

/-- Whether the write succeeds or breaks off, the frame is hidden with the next block. -/
theorem carries_write (s : SendingSide) (g : Nat) (f : TypedFrame) (broken : Option Nat) :
    (s.write g f broken).1.Carries
      (s.cipher.forGeneration (s.write g f broken).1.generation).keystream := by
  rw [generation_write]
  cases broken with
  | none => exact ⟨[], (List.append_nil _).symm, iff_of_true rfl rfl⟩
  | some n =>
    obtain ⟨lost, hsplit, hlost⟩ := Frame.encode_torn (s.cipher.forGeneration g).keystream f.header
      f.payload n
    exact ⟨lost, hsplit, iff_of_false nofun hlost⟩

theorem handedAt_of_ne {e : SendingEvent} (h : ∀ f, e ≠ .hand f) : s.handedAt e = [] := by
  cases e with
  | hand f => exact absurd rfl (h f)
  | _ => rfl

theorem droppedAt_of_ne {e : SendingEvent} (h : ∀ fault, e ≠ .acquire fault) : s.droppedAt e = [] := by
  cases e with
  | acquire fault => exact absurd rfl (h fault)
  | _ => rfl

/-- A stage that fits the slot and what has been written. -/
def Staged (tries : List WriteTry) (s : SendingSide) : SendingStage → Prop
  | .writing g => s.cipher.generation ≤ g ∧ g ≤ s.connection.generation ∧
      ∀ t ∈ tries, t.complete = false → t.generation < g
  | .failed g => g = s.cipher.generation
  | .ended => s.connection.isClosed = true
  | .ready | .dialling => True

theorem staged_of_free {stage : SendingStage} (h : stage = .ready ∨ stage = .dialling) :
    Staged tries s stage := by
  rcases h with rfl | rfl <;> trivial

/-- The frames that were handed over have left the sender's hand once each and in their order, written or
dropped, but for the one that is still in hand. -/
def Settles (handed written dropped : List TypedFrame) (inHand : Option TypedFrame) : Prop :=
  ∃ settled : List (TypedFrame × Bool), handed = settled.map Prod.fst ++ inHand.toList ∧
    written = (settled.filter fun p => p.2).map Prod.fst ∧
    dropped = (settled.filter fun p => !p.2).map Prod.fst

namespace Settles
variable {written : List TypedFrame} {inHand : Option TypedFrame}

theorem hand (h : Settles handed written dropped none) (f : TypedFrame) :
    Settles (handed ++ [f]) written dropped (some f) := by
  obtain ⟨settled, rfl, hwritten, hdropped⟩ := h
  exact ⟨settled, by rw [Option.toList_none, List.append_nil]; rfl, hwritten, hdropped⟩

theorem write (h : Settles handed written dropped (some f)) :
    Settles handed (written ++ [f]) dropped none := by
  obtain ⟨settled, rfl, rfl, rfl⟩ := h
  exact ⟨settled ++ [(f, true)], by simp, by simp, by simp⟩

theorem drop (h : Settles handed written dropped (some f)) :
    Settles handed written (dropped ++ [f]) none := by
  obtain ⟨settled, rfl, rfl, rfl⟩ := h
  exact ⟨settled ++ [(f, false)], by simp, by simp, by simp⟩

/-- All frames are written if and only if none is dropped. -/
theorem whole_iff (h : Settles handed written dropped inHand) :
    handed = written ++ inHand.toList ↔ dropped = [] := by
  obtain ⟨settled, rfl, rfl, rfl⟩ := h
  rw [List.append_left_inj, List.map_eq_nil_iff, List.filter_eq_nil_iff]
  constructor
  · intro hsame p hp
    have hlength := congrArg List.length hsame
    rw [List.length_map, List.length_map] at hlength
    simpa using List.length_filter_eq_length_iff.1 hlength.symm p hp
  · intro hall
    rw [List.filter_eq_self.2 fun p hp => by simpa using hall p hp]

end Settles

/-- What holds of a sender at all times. The streams of the frames that broke off are gone once they have
been reported. -/
structure Sends (key : EdgeKey) (direction : Direction) (handed : List TypedFrame)
    (tries : List WriteTry) (dropped : List TypedFrame) (s : SendingSide) : Prop where
  written : Written key direction tries s.cipher
  once : Settles handed ((tries.filter WriteTry.complete).map WriteTry.frame) dropped s.inHand
  behind : s.cipher.generation ≤ s.connection.generation
  gone : ∀ t ∈ tries, t.complete = false →
    s.stage = .failed t.generation ∨ s.connection.Gone t.generation
  staged : Staged tries s s.stage

theorem sends_start (dials : Bool) (key : EdgeKey) (direction : Direction) :
    Sends key direction [] [] [] (start dials key direction) where
  written := ⟨.nil, nofun, nofun, rfl⟩
  once := ⟨[], rfl, rfl, rfl⟩
  behind := Nat.le_refl 0
  gone := nofun
  staged := staged_of_free (by cases dials <;> simp [start])

namespace Sends

/-- Steps in which nothing is handed over or written. -/
theorem quiet (h : Sends key direction handed tries dropped s) {s' : SendingSide}
    (hcipher : s'.cipher = s.cipher) (hhand : s'.inHand = s.inHand)
    (hbehind : s.connection.generation ≤ s'.connection.generation)
    (hgone : ∀ t ∈ tries, t.complete = false →
      s'.stage = .failed t.generation ∨ s'.connection.Gone t.generation)
    (hstaged : Staged tries s' s'.stage) : Sends key direction handed tries dropped s' where
  written := hcipher ▸ h.written
  once := hhand ▸ h.once
  behind := hcipher ▸ Nat.le_trans h.behind hbehind
  gone := hgone
  staged := hstaged

/-- While no failure is to be reported, all streams on which a frame broke off are gone. -/
theorem gone_of_stage (h : Sends key direction handed tries dropped s) (hstage : ∀ g, s.stage ≠ .failed g)
    {t : WriteTry} (ht : t ∈ tries) (hbroken : t.complete = false) : s.connection.Gone t.generation :=
  (h.gone t ht hbroken).resolve_left (hstage _)

theorem hand (h : Sends key direction handed tries dropped s) (hfree : s.free = true) (f : TypedFrame) :
    Sends key direction (handed ++ [f]) tries dropped { s with inHand := some f } := by
  obtain ⟨hready, hnone⟩ := Bool.and_eq_true_iff.1 hfree
  have honce := h.once
  rw [of_decide_eq_true hnone] at honce
  exact ⟨h.written, honce.hand f, h.behind, h.gone, staged_of_free (.inl (of_decide_eq_true hready))⟩

theorem acquire (h : Sends key direction handed tries dropped s) (fault : Option TransferError) :
    Sends key direction handed tries (dropped ++ s.droppedAt (.acquire fault)) (s.acquire fault) := by
  rcases s.acquire_cases fault with ⟨hsame, hnone⟩ | ⟨hready, hasks⟩
  · rw [hsame, hnone, List.append_nil]
    exact h
  have hgone : ∀ t ∈ tries, t.complete = false → s.connection.Gone t.generation :=
    fun t ht hbroken => h.gone_of_stage (by simp [hready]) ht hbroken
  rcases hasks with ⟨hafter, hlive, hnone⟩ | ⟨hafter, hclosed, hnone⟩ | ⟨f, hf, hafter, hdropped⟩
  · rw [hafter, hnone, List.append_nil]
    exact h.quiet rfl rfl (Nat.le_refl _) (fun t ht hbroken => .inr (hgone t ht hbroken))
      ⟨h.behind, Nat.le_refl _, fun t ht hbroken => (hgone t ht hbroken).lt hlive⟩
  · rw [hafter, hnone, List.append_nil]
    exact h.quiet rfl rfl (Nat.le_refl _) (fun t ht hbroken => .inr (hgone t ht hbroken)) hclosed
  · have honce := h.once
    rw [hf] at honce
    rw [hafter, hdropped]
    exact ⟨h.written, honce.drop, h.behind, h.gone, staged_of_free (.inl hready)⟩

theorem report (h : Sends key direction handed tries dropped s) :
    Sends key direction handed tries dropped s.report := by
  unfold SendingSide.report
  split
  · rename_i g hfailed
    have hlast : g = s.cipher.generation := by
      have hstaged := h.staged
      rwa [hfailed] at hstaged
    have hle : g ≤ s.connection.generation := hlast ▸ h.behind
    refine h.quiet rfl rfl (s.connection.generation_le_call (.invalidate g))
      (fun t ht hbroken => .inr ?_) (staged_of_free ?_)
    · rcases h.gone t ht hbroken with hsame | hgone
      · rw [hfailed] at hsame
        cases hsame
        exact EdgeConnection.gone_invalidate hle
      · exact hgone.call (.invalidate g)
    · dsimp only
      split
      · exact .inr rfl
      · exact .inl rfl
  · exact h

/-- Others use the slot. -/
theorem call (h : Sends key direction handed tries dropped s) (d : ConnectionCall) :
    Sends key direction handed tries dropped { s with connection := s.connection.call d } := by
  have hle := s.connection.generation_le_call d
  refine h.quiet rfl rfl hle
    (fun t ht hbroken => (h.gone t ht hbroken).imp_right fun hgone => hgone.call d) ?_
  have hstaged := h.staged
  dsimp only
  cases hstage : s.stage with
  | writing g =>
    rw [hstage] at hstaged
    exact ⟨hstaged.1, Nat.le_trans hstaged.2.1 hle, hstaged.2.2⟩
  | failed g =>
    rw [hstage] at hstaged
    exact hstaged
  | ended =>
    rw [hstage] at hstaged
    exact (s.connection.isClosed_call d).2 (.inl hstaged)
  | ready | dialling => trivial

/-- The sender puts in the stream that it has dialled. -/
theorem dial (h : Sends key direction handed tries dropped s) (hstage : s.stage = .dialling) :
    Sends key direction handed tries dropped
      { s with connection := s.connection.install.2, stage := .ready } := by
  refine (h.call .install).quiet rfl rfl (Nat.le_refl _) (fun t ht hbroken => .inr ?_)
    (staged_of_free (.inl rfl))
  exact (h.gone_of_stage (by simp [hstage]) ht hbroken).call .install

theorem giveUp (h : Sends key direction handed tries dropped s) (hstage : s.stage = .dialling)
    (hclosed : s.connection.isClosed = true) :
    Sends key direction handed tries dropped { s with stage := .ended } :=
  h.quiet rfl rfl (Nat.le_refl _)
    (fun _ ht hbroken => .inr (h.gone_of_stage (by simp [hstage]) ht hbroken)) hclosed

theorem tryWrite (h : Sends key direction handed tries dropped s) (broken : Option Nat) :
    Sends key direction handed (tries ++ (s.tryWrite broken).1) dropped (s.tryWrite broken).2 := by
  unfold SendingSide.tryWrite
  split
  · rename_i g f hwriting hf
    have hstaged := h.staged
    rw [hwriting] at hstaged
    obtain ⟨hle, hbehind, hlater⟩ := hstaged
    have hwritten := h.written.concat (by rwa [generation_write]) (by rwa [generation_write])
      (s.carries_write g f broken)
    rw [generation_write, ← s.cipher_write g f broken] at hwritten
    refine ⟨hwritten, ?_, ?_, fun t ht hbroken => ?_, ?_⟩
    · have honce := h.once
      rw [List.filter_append, List.map_append]
      cases broken with
      | none =>
        rw [hf] at honce
        exact honce.write
      | some n =>
        have hwhole : [(s.write g f (some n)).1].filter WriteTry.complete = [] := rfl
        rw [hwhole, List.map_nil, List.append_nil]
        exact honce
    · rw [cipher_write, connection_write]
      exact hbehind
    · rcases List.mem_append.1 ht with ht | ht
      · rw [connection_write]
        exact .inr (h.gone_of_stage (by simp [hwriting]) ht hbroken)
      · rw [List.mem_singleton.1 ht] at hbroken ⊢
        cases broken with
        | none => cases hbroken
        | some n => exact .inl rfl
    · cases broken with
      | none => exact staged_of_free (.inl rfl)
      | some n => exact congrArg EdgeCipher.generation (s.cipher_write g f (some n)).symm
  · rw [List.append_nil]
    exact h

/-- The steps in which the sender is handed nothing and asks for no stream. -/
theorem step_of_ne (h : Sends key direction handed tries dropped s) {e : SendingEvent}
    (hhand : ∀ f, e ≠ .hand f) (hacquire : ∀ fault, e ≠ .acquire fault) :
    Sends key direction handed (tries ++ s.triesAt e) dropped (s.next e) := by
  rw [triesAt, next]
  cases e with
  | hand f => exact absurd rfl (hhand f)
  | acquire fault => exact absurd rfl (hacquire fault)
  | write => exact h.tryWrite none
  | breakOff n => exact h.tryWrite (some n)
  | report =>
    rw [SendingSide.step, List.append_nil]
    exact h.report
  | dial =>
    rw [SendingSide.step]
    split
    · rename_i hstage
      rw [List.append_nil]
      exact h.dial hstage
    · rw [List.append_nil]
      exact h
  | giveUp =>
    rw [SendingSide.step]
    split
    · rename_i hstage
      rw [List.append_nil]
      dsimp only
      split
      · rename_i hclosed
        exact h.giveUp hstage hclosed
      · exact h
    · rw [List.append_nil]
      exact h
  | others d =>
    rw [SendingSide.step, List.append_nil]
    exact h.call d

theorem step (h : Sends key direction handed tries dropped s) (e : SendingEvent) :
    Sends key direction (handed ++ s.handedAt e) (tries ++ s.triesAt e) (dropped ++ s.droppedAt e)
      (s.next e) := by
  by_cases hacquire : ∀ fault, e ≠ .acquire fault
  · by_cases hhand : ∀ f, e ≠ .hand f
    · rw [handedAt_of_ne hhand, droppedAt_of_ne hacquire, List.append_nil, List.append_nil]
      exact h.step_of_ne hhand hacquire
    · obtain ⟨f, rfl⟩ := not_forall_not.1 hhand
      rw [droppedAt_of_ne hacquire, handedAt, triesAt, next, SendingSide.step, List.append_nil,
        List.append_nil]
      dsimp only
      split
      · rename_i hfree
        exact h.hand hfree f
      · rw [List.append_nil]
        exact h
  · obtain ⟨fault, rfl⟩ := not_forall_not.1 hacquire
    have hnone : s.handedAt (.acquire fault) = [] := rfl
    rw [hnone, triesAt, next, SendingSide.step, List.append_nil, List.append_nil]
    exact h.acquire fault

theorem run (h : Sends key direction handed tries dropped s) (events : List SendingEvent) :
    Sends key direction (handed ++ outputs next handedAt s events)
      (tries ++ outputs next triesAt s events) (dropped ++ outputs next droppedAt s events)
      (events.foldl next s) := by
  induction events generalizing handed tries dropped s with
  | nil =>
    rw [outputs, outputs, outputs, List.append_nil, List.append_nil, List.append_nil]
    exact h
  | cons e events ih =>
    rw [outputs, outputs, outputs, ← List.append_assoc, ← List.append_assoc, ← List.append_assoc]
    exact ih (h.step e)

theorem isClosed_of_ended (h : Sends key direction handed tries dropped s) (hended : s.stage = .ended) :
    s.connection.isClosed = true := by
  have hstaged := h.staged
  rwa [hended] at hstaged

end Sends

/-- The sender reports the failure, and dials if that is its part. -/
theorem recovers (hfailed : s.stage = .failed g) (hopen : s.connection.isClosed = false) :
    ∃ c, [SendingEvent.report, .dial].foldl next s = { s with connection := c, stage := .ready } ∧
      c.isClosed = false := by
  have hdown : (s.connection.call (.invalidate g)).isClosed = false :=
    EdgeConnection.isOpen_call hopen (by simp) (by simp)
  have hreport : s.next .report = { s with
      connection := s.connection.call (.invalidate g)
      stage := if (s.connection.invalidate g).1 && s.dials then .dialling else .ready } := by
    rw [next, step, report, hfailed]
    rfl
  rw [List.foldl_cons, List.foldl_cons, List.foldl_nil, hreport]
  cases hdials : (s.connection.invalidate g).1 && s.dials with
  | true => exact ⟨_, rfl, EdgeConnection.isOpen_call (d := .install) hdown (by simp) (by simp)⟩
  | false => exact ⟨s.connection.call (.invalidate g), rfl, hdown⟩

/-- Whatever the sender is about to do, once its stream has failed it comes to wait for another. -/
theorem ready_of_breakOff (hf : s.inHand = some f) (hopen : s.connection.isClosed = false)
    (hgoes : s.stage ≠ .ended) :
    ∃ t : SendingSide, [SendingEvent.breakOff 0, .report, .dial].foldl next s = t ∧
      t.stage = .ready ∧ t.inHand = some f ∧ t.connection.isClosed = false := by
  rw [List.foldl_cons, next, step, tryWrite]
  cases hstage : s.stage with
  | ready =>
    refine ⟨s, ?_, hstage, hf, hopen⟩
    simp [next, step, report, hstage]
  | writing g =>
    rw [hf]
    obtain ⟨c, hafter, hstill⟩ := recovers (s := (s.write g f (some 0)).2) rfl hopen
    exact ⟨_, hafter, rfl, hf, hstill⟩
  | failed g =>
    obtain ⟨c, hafter, hstill⟩ := recovers hstage hopen
    exact ⟨_, hafter, rfl, hf, hstill⟩
  | dialling =>
    refine ⟨{ s with connection := s.connection.call .install, stage := .ready }, ?_, rfl, hf,
      EdgeConnection.isOpen_call hopen (by simp) (by simp)⟩
    simp [next, step, report, hstage, EdgeConnection.call]
  | ended => exact absurd hstage hgoes

/-- A frame that breaks off is not complete. -/
theorem complete_triesAt_breakOff (s : SendingSide) (n : Nat) :
    (s.triesAt (.breakOff n)).filter WriteTry.complete = [] := by
  rw [triesAt, step, tryWrite]
  split <;> rfl

theorem triesAt_dial (s : SendingSide) : s.triesAt .dial = [] := by
  rw [triesAt, step]
  split <;> rfl

/-- The stream fails if there is one, the sender recovers, the next stream comes, and the sender writes. -/
def afresh : List SendingEvent :=
  [.breakOff 0, .report, .dial, .others .install, .acquire none, .write]

/-- As long as the slot is open the frame in hand goes out with the next stream. -/
theorem goes_afresh (hf : s.inHand = some f) (hopen : s.connection.isClosed = false)
    (hgoes : s.stage ≠ .ended) :
    ((outputs next triesAt s afresh).filter WriteTry.complete).map WriteTry.frame = [f] ∧
      (afresh.foldl next s).inHand = none := by
  obtain ⟨t, hback, hready, hinHand, hstill⟩ := ready_of_breakOff hf hopen hgoes
  have hafresh : afresh = [.breakOff 0, .report, .dial, .others .install] ++ [.acquire none, .write] := rfl
  have hafter : [SendingEvent.breakOff 0, .report, .dial, .others .install].foldl next s =
      t.next (.others .install) := congrArg (next · (.others .install)) hback
  have hbefore : (outputs next triesAt s [.breakOff 0, .report, .dial, .others .install]).filter
      WriteTry.complete = [] := by
    simp only [outputs, List.append_nil, List.filter_append, complete_triesAt_breakOff, triesAt_dial]
    rfl
  have hlive := (EdgeConnection.install_of_open (Bool.or_eq_false_iff.1 hstill).1).1
  have hopened : (t.connection.call .install).isClosed = false :=
    EdgeConnection.isOpen_call hstill (by simp) (by simp)
  obtain ⟨htries, hwrite⟩ :=
    tries_of_connected (s := t.next (.others .install)) hopened hlive hinHand hready
  rw [hafresh]
  constructor
  · rw [outputs_append, List.filter_append, hbefore, hafter, htries]
    rfl
  · rw [List.foldl_append, hafter, hwrite]

/-- What is written on the streams of a sender, after it has been handed some frames. -/
structure Restarts (key : EdgeKey) (direction : Direction) (handed : List TypedFrame)
    (tries : List WriteTry) (dropped : List TypedFrame) (s : SendingSide) : Prop where
  /-- The `i`-th frame on a stream is hidden with block `i` of the keystream. It is complete unless some
  of its bytes are lost. -/
  blocks : ∀ (g i : Nat) (t : WriteTry), (WriteTry.on g tries)[i]? = some t →
    t.Carries ⟨key, direction, i⟩
  /-- Streams are written on one after another, and nothing follows a frame that broke off. -/
  ordered : tries.Pairwise fun a b =>
    a.generation ≤ b.generation ∧ (a.complete = false → a.generation < b.generation)
  /-- The frames that were handed over are written completely or dropped, once each and in their order, but
  for the one in hand. -/
  once : Settles handed ((tries.filter WriteTry.complete).map WriteTry.frame) dropped s.inHand
  /-- So all of them are written if and only if the sender never lacks the handle of a live stream. -/
  whole : handed = (tries.filter WriteTry.complete).map WriteTry.frame ++ s.inHand.toList ↔ dropped = []
  /-- The sender ends only if the slot is closed or the relay stops. -/
  ended : s.stage = .ended → s.connection.isClosed = true
  goes : ∀ f, s.inHand = some f → s.connection.isClosed = false →
    ((outputs next triesAt s afresh).filter WriteTry.complete).map WriteTry.frame = [f] ∧
      (afresh.foldl next s).inHand = none
  /-- Whatever a receiver has read before, on a new connection it reads the complete frames. -/
  reads : ∀ (g : Nat) (receiver : EdgeCipher) (generation maxLength n : Nat),
    receiver.keystream.key = key → receiver.keystream.direction = direction →
    receiver.generation ≠ generation →
    (∀ t ∈ WriteTry.on g tries, Frame.length t.frame.payload.length ≤ maxLength ∧
      Frame.length t.frame.payload.length < 2 ^ 32) →
    (FrameReader.readFrames maxLength n ⟨none, (WriteTry.on g tries).flatMap WriteTry.bytes,
      (receiver.forGeneration generation).keystream⟩).1 =
    (((WriteTry.on g tries).filter WriteTry.complete).take n).map fun t =>
      (t.frame.head, Frame.padded t.frame.payload)

/-- However connections are lost, replaced and put in again, and wherever writes break off, the keystream
of a sender starts again with every connection, and every frame goes out once that is not dropped for want
of a stream's handle. -/
theorem keystreams_restart (dials : Bool) (key : EdgeKey) (direction : Direction)
    (events : List SendingEvent) :
    let s₀ := start dials key direction
    Restarts key direction (outputs next handedAt s₀ events) (outputs next triesAt s₀ events)
      (outputs next droppedAt s₀ events) (events.foldl next s₀) := by
  intro s₀
  have hsends := (sends_start dials key direction).run events
  rw [List.nil_append, List.nil_append, List.nil_append] at hsends
  generalize outputs next triesAt (start dials key direction) events = tries at hsends
  refine ⟨hsends.written.blocks, hsends.written.ordered, hsends.once, hsends.once.whole_iff,
    hsends.isClosed_of_ended, fun f hf hopen => ?_, ?_⟩
  · refine goes_afresh hf hopen fun hended => ?_
    exact absurd (hopen.symm.trans (hsends.isClosed_of_ended hended)) nofun
  · intro g receiver generation maxLength n hkey hdirection hnew hfit
    have hks : (receiver.forGeneration generation).keystream = ⟨key, direction, 0⟩ := by
      rw [EdgeCipher.forGeneration, if_neg hnew, HeaderKeystream.reset, hkey, hdirection]
    rw [hks]
    refine WriteTry.readFrames_tries (fun i t ht => ?_) (hsends.written.complete_on g) hfit none n
    rw [Nat.zero_add]
    exact hsends.written.blocks g i t ht

/-- The first of two replies is never written, though its stream is live and the slot stays open: the system
had no descriptor left when the sender asked for the stream. -/
theorem reply_lost_for_want_of_handle :
    let events : List SendingEvent := [.others .install, .hand ⟨.reply, 5, [7]⟩,
      .acquire (some (.system 24 "Too many open files")), .hand ⟨.reply, 5, [8]⟩, .acquire none, .write]
    let s₀ := start false ⟨Block.ofNat 1, Block.ofNat 2⟩ .replies
    let s := events.foldl next s₀
    outputs next handedAt s₀ events = [⟨.reply, 5, [7]⟩, ⟨.reply, 5, [8]⟩] ∧
      ((outputs next triesAt s₀ events).filter WriteTry.complete).map WriteTry.frame =
        [⟨.reply, 5, [8]⟩] ∧
      s.inHand = none ∧ s.connection.isClosed = false ∧ s.connection.isConnected = true := by
  decide +kernel

/-- The second frame breaks off on the first connection and is complete on the second. -/
example :
    (outputs next triesAt (start false ⟨Block.ofNat 1, Block.ofNat 2⟩ .replies)
      [.others .install, .hand ⟨.reply, 5, [1]⟩, .acquire none, .write, .hand ⟨.reply, 6, [2]⟩,
        .acquire none, .breakOff 7, .report, .acquire none, .others .install, .acquire none, .write]).map
      (fun t => (t.generation, t.frame.field, t.complete)) =
    [(1, 5, true), (1, 6, false), (2, 6, true)] := by decide +kernel

end SendingSide
end MixRelay
