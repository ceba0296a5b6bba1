import MixRelay.Proofs.FragmentedFrames

/-!
# Lines of frames

A line carries what its sender has written, frame behind frame. Some bytes of it have arrived: as long
as the next frame is not all there, nothing is received of it; once it is, the others follow behind it.
A line that broke may end within a frame, and that frame is never received.
-/
namespace MixRelay

namespace Frame
variable {maxLength : Nat} {ks : HeaderKeystream} {input : Bytes}

/-- The next frame cannot be read, at least not to its end. -/
def Lacks (maxLength : Nat) (ks : HeaderKeystream) (input : Bytes) : Prop :=
  ∀ h, (readHead maxLength ks input).answer = .ok h →
    (readHead maxLength ks input).rest.length < h.remaining

/-- The next frame, if all of it is there. -/
def next? (maxLength : Nat) (ks : HeaderKeystream) (input : Bytes) : Option (FrameHead × Bytes) :=
  match (readHead maxLength ks input).answer with
  | .error _ => none
  | .ok h =>
    match (readPayload h (readHead maxLength ks input).rest).1 with
    | .error _ => none
    | .ok payload => some (h, payload)

theorem lacks_of_error {e : FrameError} (h : (readHead maxLength ks input).answer = .error e) :
    Lacks maxLength ks input := by
  intro head hhead
  rw [h] at hhead
  cases hhead

theorem lacks_of_lt (h : input.length < 20) : Lacks maxLength ks input := by
  by_cases hfour : input.length < 4
  · exact lacks_of_error (congrArg ReadResult.answer (if_pos hfour))
  · have hshort : (input.drop 4).length < 16 := by
      rw [List.length_drop]
      omega
    unfold Lacks readHead
    rw [if_neg hfour]
    dsimp only
    rw [if_pos hshort]
    split
    · exact nofun
    · split <;> exact nofun

theorem lacks_of_tooLong {h : FrameHeader} {payload : Bytes} (hword : length payload.length < 2 ^ 32)
    (hmax : maxLength < length payload.length) (rest : Bytes) :
    Lacks maxLength ks (head ks h payload ++ rest) := by
  have htake : (head ks h payload ++ rest).take 4 = Bytes.ofWord (length payload.length) := rfl
  have hlong : ¬ (head ks h payload ++ rest).length < 4 := by
    rw [List.length_append, length_head]
    omega
  refine @lacks_of_error _ _ _ (.tooLong (length payload.length) maxLength) ?_
  rw [readHead, if_neg hlong]
  simp only [htake, Bytes.toNat_ofWord_of_lt hword, if_neg (Nat.not_lt.2 (le_length _)), if_pos hmax]

theorem Lacks.next? (h : Lacks maxLength ks input) : next? maxLength ks input = none := by
  unfold Frame.next?
  split
  · rfl
  · rename_i head hhead
    rw [readPayload_of_short (h head hhead)]

/-- Of a frame that breaks off some bytes are lost. -/
theorem encode_torn (ks : HeaderKeystream) (h : FrameHeader) (payload : Bytes) (n : Nat) :
    ∃ lost, (encode ks h payload).1 = (encode ks h payload).1.dropLast.take n ++ lost ∧ lost ≠ [] := by
  have hlong : 0 < (encode ks h payload).1.length := by
    rw [encode_eq, List.length_append, length_head]
    omega
  generalize (encode ks h payload).1 = frame at hlong
  have hprefix : frame.dropLast.take n <+: frame :=
    (List.take_prefix _ _).trans (List.dropLast_prefix _)
  refine ⟨frame.drop (frame.dropLast.take n).length, (List.prefix_iff_eq_append.1 hprefix).symm, ?_⟩
  refine List.ne_nil_of_length_pos ?_
  rw [List.length_drop, List.length_take, List.length_dropLast]
  omega

/-- A head that is read holds eleven payload bytes, and has moved the keystream on by a block. -/
theorem readHead_ok {h : FrameHead} (hread : (readHead maxLength ks input).answer = .ok h) :
    (readHead maxLength ks input).keystream = ks.advance ∧ h.inBlock.length = headPayloadLength ∧
      16 ≤ h.length := by
  unfold readHead at hread ⊢
  split at hread
  · cases hread
  rename_i hfour
  rw [if_neg hfour]
  dsimp only at hread ⊢
  split at hread
  · cases hread
  rename_i hlong
  rw [if_neg hlong]
  split at hread
  · cases hread
  rename_i hmax
  rw [if_neg hmax]
  split at hread
  · cases hread
  rename_i hblock
  rw [if_neg hblock]
  dsimp only at hread
  unfold headOfBlock at hread
  dsimp only at hread
  split at hread
  · cases hread
  · cases hread
    refine ⟨rfl, ?_, Nat.le_of_not_lt hlong⟩
    rw [List.length_drop, Vector.length_toList]
    rfl

end Frame

namespace TypedFrame
variable {maxLength : Nat} {ks ks' : HeaderKeystream} {f : TypedFrame}
  {frames : List TypedFrame} {input later bytes behind : Bytes}

/-- The frame as its sender has it in hand. -/
def outgoing (f : TypedFrame) : OutgoingFrame := ⟨f.header, f.payload⟩

/-- The next frame is all there, and some bytes follow it. -/
def Leads (maxLength : Nat) (ks : HeaderKeystream) (input : Bytes) (f : TypedFrame) (behind : Bytes) :
    Prop :=
  Frame.readHead maxLength ks input =
    ⟨.ok f.head, f.payload.drop Frame.headPayloadLength ++ behind, ks.advance⟩

/-- A frame whose front has arrived is not there yet, or it is all there. -/
theorem lacks_or_leads_of_head (hword : Frame.length f.payload.length < 2 ^ 32)
    (h : Frame.head ks f.header f.payload ++ (f.payload.drop Frame.headPayloadLength ++ bytes) =
      input ++ later) :
    Frame.Lacks maxLength ks input ∨
      ∃ behind, Leads maxLength ks input f behind ∧ bytes = behind ++ later := by
  by_cases htwenty : input.length < 20
  · exact .inl (Frame.lacks_of_lt htwenty)
  obtain ⟨rest, rfl⟩ : ∃ rest, input = Frame.head ks f.header f.payload ++ rest := by
    obtain ⟨rest, hrest⟩ := List.prefix_of_prefix_length_le ⟨_, h⟩ (List.prefix_append input later)
      (by rw [Frame.length_head]; exact Nat.le_of_not_lt htwenty)
    exact ⟨rest, hrest.symm⟩
  rw [List.append_assoc, List.append_cancel_left_eq] at h
  by_cases hmax : maxLength < Frame.length f.payload.length
  · exact .inl (Frame.lacks_of_tooLong hword hmax rest)
  have hread : Frame.readHead maxLength ks (Frame.head ks f.header f.payload ++ rest) =
      ⟨.ok f.head, rest, ks.advance⟩ := Frame.readHead_head (Nat.le_of_not_lt hmax) hword rest
  by_cases hshort : rest.length < f.head.remaining
  · refine .inl fun other hother => ?_
    rw [hread] at hother ⊢
    cases hother
    exact hshort
  · have hremaining : f.head.remaining = (f.payload.drop Frame.headPayloadLength).length :=
      Frame.remaining_eq f.payload
    obtain ⟨behind, rfl⟩ : ∃ behind, rest = f.payload.drop Frame.headPayloadLength ++ behind := by
      obtain ⟨behind, hb⟩ := List.prefix_of_prefix_length_le ⟨_, h⟩ (List.prefix_append rest later)
        (hremaining ▸ Nat.le_of_not_lt hshort)
      exact ⟨behind, hb.symm⟩
    rw [List.append_assoc, List.append_cancel_left_eq] at h
    exact .inr ⟨behind, hread, h⟩

/-- In a row of frames of which some bytes have arrived, the first is not there yet, or it is all there
and the others follow. -/
theorem lacks_or_leads (maxLength : Nat) (h : encodeAll ks frames = (input ++ later, ks'))
    (hword : ∀ f ∈ frames, Frame.length f.payload.length < 2 ^ 32) :
    Frame.Lacks maxLength ks input ∨ ∃ f more behind, frames = f :: more ∧
      Leads maxLength ks input f behind ∧ encodeAll ks.advance more = (behind ++ later, ks') := by
  match frames, h with
  | [], h =>
    have hnil : input = [] := (List.append_eq_nil_iff.1 (congrArg Prod.fst h).symm).1
    refine .inl (Frame.lacks_of_lt ?_)
    simp [hnil]
  | f :: more, h =>
    rw [encodeAll_cons] at h
    obtain ⟨hbytes, hks⟩ := Prod.mk.inj h
    rcases lacks_or_leads_of_head (hword f List.mem_cons_self) hbytes with hlacks | ⟨behind, hleads, hmore⟩
    · exact .inl hlacks
    · exact .inr ⟨f, more, behind, rfl, hleads, Prod.ext hmore hks⟩

/-- A head and the bytes that it asks for are those of a frame. -/
theorem head_of_read {h : FrameHead} (hinBlock : h.inBlock.length = Frame.headPayloadLength)
    (hmin : 16 ≤ h.length) {tail : Bytes} (htail : tail.length = h.remaining) :
    (⟨h.kind, h.field, h.inBlock ++ tail⟩ : TypedFrame).head = h := by
  have hfit : Bytes.fit Frame.headPayloadLength (h.inBlock ++ tail) = h.inBlock := by
    rw [Bytes.fit_of_le (by rw [List.length_append]; omega), ← hinBlock, List.take_left]
  have hlength : Frame.length (h.inBlock ++ tail).length = h.length := by
    rw [List.length_append, hinBlock, htail, FrameHead.remaining, Frame.length, Frame.headerLength,
      Frame.headPayloadLength]
    omega
  unfold head
  dsimp only
  rw [hfit, hlength]

/-- Whatever has arrived, the next frame is not all there, or some frame is with what follows it. -/
theorem lacks_or_leads_of_input (maxLength : Nat) (ks : HeaderKeystream) (input : Bytes) :
    Frame.Lacks maxLength ks input ∨ ∃ f behind, Leads maxLength ks input f behind := by
  cases hread : (Frame.readHead maxLength ks input).answer with
  | error e => exact .inl (Frame.lacks_of_error hread)
  | ok h =>
    obtain ⟨hks, hinBlock, hmin⟩ := Frame.readHead_ok hread
    generalize hrest : (Frame.readHead maxLength ks input).rest = rest
    by_cases hshort : rest.length < h.remaining
    · refine .inl fun other hother => ?_
      cases hread.symm.trans hother
      rwa [hrest]
    · refine .inr ⟨⟨h.kind, h.field, h.inBlock ++ rest.take h.remaining⟩, rest.drop h.remaining, ?_⟩
      have htail : (h.inBlock ++ rest.take h.remaining).drop Frame.headPayloadLength =
          rest.take h.remaining := by
        rw [← hinBlock, List.drop_left]
      have hhead := head_of_read hinBlock hmin (List.length_take_of_le (Nat.le_of_not_lt hshort))
      rw [Leads, hhead, htail, List.take_append_drop, ← hread, ← hks, ← hrest]

theorem Leads.lt_length (h : Leads maxLength ks input f behind) : 0 < input.length := by
  refine Nat.lt_of_not_le fun hle => ?_
  have hshort : input.length < 4 := Nat.lt_of_le_of_lt hle (by decide)
  rw [Leads, Frame.readHead, if_pos hshort] at h
  cases h

theorem head_remaining (f : TypedFrame) (behind : Bytes) :
    f.head.remaining = (f.payload.drop Frame.headPayloadLength).length ∧
      f.head.remaining ≤ (f.payload.drop Frame.headPayloadLength ++ behind).length := by
  have hremaining : f.head.remaining = (f.payload.drop Frame.headPayloadLength).length :=
    Frame.remaining_eq f.payload
  refine ⟨hremaining, ?_⟩
  rw [List.length_append]
  omega

theorem Leads.next? (h : Leads maxLength ks input f behind) :
    Frame.next? maxLength ks input = some (f.head, Frame.padded f.payload) := by
  obtain ⟨hremaining, hlong⟩ := f.head_remaining behind
  unfold Frame.next?
  rw [Leads] at h
  rw [h]
  dsimp only
  rw [Frame.readPayload_of_long hlong, hremaining, List.take_left]
  rfl

/-- The first of the frames in a row, and the others behind it. -/
theorem leads_encodeAll (ks : HeaderKeystream) (f : TypedFrame) (more : List TypedFrame)
    (hmax : Frame.length f.payload.length ≤ maxLength) (hword : Frame.length f.payload.length < 2 ^ 32) :
    Leads maxLength ks (encodeAll ks (f :: more)).1 f (encodeAll ks.advance more).1 := by
  rw [encodeAll_cons]
  exact Frame.readHead_head hmax hword _

theorem encodeAll_concat (ks : HeaderKeystream) (frames : List TypedFrame) (f : TypedFrame) :
    encodeAll ks (frames ++ [f]) =
      ((encodeAll ks frames).1 ++ (Frame.encode (encodeAll ks frames).2 f.header f.payload).1,
        (Frame.encode (encodeAll ks frames).2 f.header f.payload).2) := by
  rw [encodeAll, List.map_append]
  exact Frame.encodeAll_concat ks _ _ _

/-- A line that is being written: it carries these frames, and the writer's keystream is behind them. -/
def Runs (ks : HeaderKeystream) (frames : List TypedFrame) (bytes : Bytes) (ks' : HeaderKeystream) :
    Prop :=
  encodeAll ks frames = (bytes, ks')

/-- What comes of a line are these frames, if anything. The line may have broken before they are all
there, or within the frame behind them. -/
def Comes (ks : HeaderKeystream) (frames : List TypedFrame) (bytes : Bytes) : Prop :=
  ∃ (cut : Option TypedFrame) (lost : Bytes),
    (encodeAll ks (frames ++ cut.toList)).1 = bytes ++ lost ∧
      ∀ f ∈ cut, lost ≠ [] ∧ Frame.length f.payload.length < 2 ^ 32

theorem Runs.nil (ks : HeaderKeystream) : Runs ks [] [] ks := rfl

theorem Runs.comes (h : Runs ks frames bytes ks') : Comes ks frames bytes := by
  refine ⟨none, [], ?_, nofun⟩
  rw [Option.toList_none, List.append_nil, List.append_nil, h]

theorem Runs.concat (h : Runs ks frames bytes ks') (f : TypedFrame) :
    Runs ks (frames ++ [f]) (bytes ++ (Frame.encode ks' f.header f.payload).1) ks'.advance := by
  rw [Runs, encodeAll_concat, h]
  rfl

/-- A frame that breaks off on its way never comes. -/
theorem Runs.torn (h : Runs ks frames bytes ks') (hword : Frame.length f.payload.length < 2 ^ 32)
    (n : Nat) :
    Comes ks frames (bytes ++ (Frame.encode ks' f.header f.payload).1.dropLast.take n) := by
  obtain ⟨lost, hsplit, hlost⟩ := Frame.encode_torn ks' f.header f.payload n
  refine ⟨some f, lost, ?_, fun g hg => ?_⟩
  · rw [Option.toList_some, encodeAll_concat, h, List.append_assoc, ← hsplit]
  · cases hg
    exact ⟨hlost, hword⟩

/-- What has arrived of a line comes whatever becomes of the rest. -/
theorem Comes.front (h : Comes ks frames (bytes ++ later)) : Comes ks frames bytes := by
  obtain ⟨cut, lost, hbytes, hcut⟩ := h
  refine ⟨cut, later ++ lost, ?_, fun f hf => ?_⟩
  · rw [hbytes, List.append_assoc]
  · exact ⟨List.append_ne_nil_of_right_ne_nil later (hcut f hf).1, (hcut f hf).2⟩

/-- The next frame of a line is not there yet, or it is all there and what comes behind it comes. -/
theorem Comes.lacks_or_leads (maxLength : Nat) (h : Comes ks frames (input ++ later))
    (hword : ∀ f ∈ frames, Frame.length f.payload.length < 2 ^ 32) :
    Frame.Lacks maxLength ks input ∨ ∃ f more behind, frames = f :: more ∧
      Leads maxLength ks input f behind ∧ Comes ks.advance more (behind ++ later) := by
  obtain ⟨cut, lost, hbytes, hcut⟩ := h
  have hall : encodeAll ks (frames ++ cut.toList) =
      (input ++ (later ++ lost), (encodeAll ks (frames ++ cut.toList)).2) :=
    Prod.ext (hbytes.trans (List.append_assoc ..)) rfl
  have hwords : ∀ f ∈ frames ++ cut.toList, Frame.length f.payload.length < 2 ^ 32 := by
    intro f hf
    rcases List.mem_append.1 hf with hf | hf
    · exact hword f hf
    · exact (hcut f (Option.mem_toList.1 hf)).2
  rcases TypedFrame.lacks_or_leads maxLength hall hwords with
    hlacks | ⟨f, more, behind, hmore, hleads, hrest⟩
  · exact .inl hlacks
  cases frames with
  | nil =>
    -- the frame that broke off would be all there
    cases cut with
    | none => cases hmore
    | some g =>
      obtain ⟨rfl, rfl⟩ := List.cons.inj hmore
      have hnil := (congrArg Prod.fst hrest).symm
      rw [← List.append_assoc] at hnil
      exact absurd (List.append_eq_nil_iff.1 hnil).2 (hcut g rfl).1
  | cons g frames =>
    obtain ⟨rfl, rfl⟩ := List.cons.inj hmore
    have hlater := (congrArg Prod.fst hrest).trans (List.append_assoc behind later lost).symm
    exact .inr ⟨g, frames, behind, rfl, hleads, cut, lost, hlater, hcut⟩

end TypedFrame
end MixRelay
