import MixRelay.Proofs.CipherPermutation
import MixRelay.Proofs.FrameStreams
import Mathlib.Data.List.Induction
import Mathlib.Tactic.Ring

/-!
# No block of keystream comes twice

The counters of the two directions start half the counter space apart and wrap around at its end. So for
the first `2 ^ 64` blocks after a reset, no position of one direction has the counter block of another
position or of the other direction. And as the cipher is injective, no two headers of a connection are
hidden with the same block of keystream.
-/
namespace MixRelay

namespace Bytes

theorem foldl_toNat (bs : Bytes) (n : Nat) :
    bs.foldl (fun n b => 256 * n + b.toNat) n = n * 256 ^ bs.length + toNat bs := by
  induction bs generalizing n with
  | nil => simp [toNat]
  | cons b bs ih =>
    rw [toNat, List.foldl_cons, List.foldl_cons, ih, ih, List.length_cons, Nat.pow_succ]
    ring

theorem toNat_cons (b : UInt8) (bs : Bytes) : toNat (b :: bs) = b.toNat * 256 ^ bs.length + toNat bs := by
  rw [toNat, List.foldl_cons, foldl_toNat]
  simp

theorem toNat_lt (bs : Bytes) : toNat bs < 256 ^ bs.length := by
  induction bs with
  | nil => decide
  | cons b bs ih =>
    have hb : (b.toNat + 1) * 256 ^ bs.length ≤ 256 * 256 ^ bs.length :=
      Nat.mul_le_mul_right _ b.toNat_lt
    rw [Nat.add_mul, Nat.one_mul] at hb
    rw [toNat_cons, List.length_cons, Nat.pow_succ, Nat.mul_comm (256 ^ bs.length)]
    omega

/-- The digits of a number to the base 256, as many as there are places. -/
theorem toNat_ofFn_digits (places n : Nat) :
    toNat (List.ofFn fun i : Fin places => UInt8.ofNat (n / 256 ^ (places - 1 - i.val))) =
      n % 256 ^ places := by
  induction places with
  | zero => simp [toNat, Nat.mod_one]
  | succ places ih =>
    have hrest (i : Fin places) : places - i.succ.val = places - 1 - i.val := by
      rw [Fin.val_succ]
      omega
    have hfirst : (UInt8.ofNat (n / 256 ^ places)).toNat = n / 256 ^ places % 256 := UInt8.toNat_ofNat'
    rw [List.ofFn_succ, toNat_cons, List.length_ofFn, Nat.mod_pow_succ]
    simp only [hrest, ih, Fin.val_zero, Nat.add_sub_cancel, Nat.sub_zero, hfirst]
    rw [Nat.add_comm, Nat.mul_comm]

theorem zipWith_xor_zeros (bs : Bytes) :
    List.zipWith (· ^^^ ·) bs (List.replicate bs.length 0) = bs := by
  induction bs with
  | nil => rfl
  | cons b bs ih => simp [List.replicate_succ, ih]

end Bytes

namespace Block

theorem toNat_ofNat (n : Nat) : (ofNat n).toNat = n % 2 ^ 128 := by
  have hlist : (ofNat n).toList = List.ofFn fun i : Fin 16 => UInt8.ofNat (n / 256 ^ (16 - 1 - i.val)) := by
    rw [ofNat, Vector.toList_ofFn]
  rw [toNat, hlist, Bytes.toNat_ofFn_digits]

theorem toNat_flip_byte (b : UInt8) : (b ^^^ 0x80).toNat = (b.toNat + 128) % 256 := by
  have hall : ∀ n : Fin 256, (UInt8.ofNat n.val ^^^ 0x80).toNat = (n.val + 128) % 256 := by
    decide +kernel
  have hb := hall ⟨b.toNat, b.toNat_lt⟩
  rwa [UInt8.ofNat_toNat] at hb

/-- Flipping the highest bit moves a number on by half of all numbers. -/
theorem toNat_flip (b : Block) : (b.xor (ofNat (2 ^ 127))).toNat = (b.toNat + 2 ^ 127) % 2 ^ 128 := by
  obtain ⟨first, rest, hlist⟩ : ∃ first rest, b.toList = first :: rest :=
    List.exists_cons_of_length_pos (by simp)
  have hrest : rest.length = 15 := by
    have hlength := congrArg List.length hlist
    simpa using hlength.symm
  have hmask : (ofNat (2 ^ 127)).toList = 0x80 :: List.replicate 15 0 := by decide +kernel
  have hflipped : (b.xor (ofNat (2 ^ 127))).toList = (first ^^^ 0x80) :: rest := by
    rw [xor, Vector.toList_zipWith, hlist, hmask, List.zipWith_cons_cons, ← hrest,
      Bytes.zipWith_xor_zeros]
  have hfirst := first.toNat_lt
  have hlt := Bytes.toNat_lt rest
  rw [toNat, toNat, hflipped, hlist, Bytes.toNat_cons, Bytes.toNat_cons, toNat_flip_byte]
  rw [hrest] at hlt ⊢
  omega

end Block

/-- How far behind the initial block of an edge a direction starts. -/
def Direction.offset : Direction → Nat
  | .requests => 0
  | .replies => 2 ^ 127

namespace EdgeKey
variable {k : EdgeKey} {d e : Direction} {i j : Nat}

theorem toNat_counterBlock (k : EdgeKey) (d : Direction) (i : Nat) :
    (k.counterBlock d i).toNat = (k.iv.toNat + d.offset + i) % 2 ^ 128 := by
  rw [counterBlock, Block.toNat_ofNat]
  cases d with
  | requests => rfl
  | replies =>
    rw [counterStart, Block.toNat_flip, Nat.mod_add_mod]
    rfl

/-- Below `2 ^ 64` positions the counters of a direction do not come round, nor do they reach those of the
other direction. -/
theorem counterBlock_inj (hi : i < 2 ^ 64) (hj : j < 2 ^ 64) :
    k.counterBlock d i = k.counterBlock e j ↔ i = j ∧ d = e := by
  constructor
  · intro h
    have hnumbers := congrArg Block.toNat h
    rw [toNat_counterBlock, toNat_counterBlock] at hnumbers
    cases d <;> cases e <;> simp only [Direction.offset] at hnumbers <;> simp <;> omega
  · rintro ⟨rfl, rfl⟩
    rfl

theorem keystreamBlock_inj (hi : i < 2 ^ 64) (hj : j < 2 ^ 64) :
    k.keystreamBlock d i = k.keystreamBlock e j ↔ i = j ∧ d = e := by
  rw [← counterBlock_inj (k := k) hi hj]
  exact (AES.encrypt_injective k.key).eq_iff

end EdgeKey

/-- What is asked of the cipher of a direction: to hide or show a block, or to start again for the next
connection. -/
inductive CipherCall
  | apply (data : Bytes)
  | reset
  deriving DecidableEq

/-- The call hides or shows a block. -/
def CipherCall.isBlock : CipherCall → Bool
  | .apply data => data.length = 16
  | .reset => false

/-- What a block has been hidden with. -/
def pad (clear hidden : Bytes) : Bytes := List.zipWith (· ^^^ ·) clear hidden

/-- The header block of a frame as it is written. -/
def Frame.hiddenBlock (frame : Bytes) : Bytes := (frame.drop 4).take 16

namespace HeaderKeystream
variable {ks : HeaderKeystream} {data : Bytes}

/-- The keystream after a call. -/
def call (ks : HeaderKeystream) : CipherCall → HeaderKeystream
  | .apply data =>
    match ks.apply data with
    | .ok (_, after) => after
    | .error _ => ks
  | .reset => ks.reset

/-- The blocks since the last reset. -/
def blocksSinceReset (calls : List CipherCall) : Nat :=
  (calls.reverse.takeWhile fun c => c ≠ .reset).countP CipherCall.isBlock

theorem pad_mask (ks : HeaderKeystream) (b : Block) :
    pad b.toList (ks.mask b).toList = (ks.key.keystreamBlock ks.direction ks.position).toList := by
  have hcancel (a k : Block) : Block.xor a (Block.xor a k) = k := by
    apply Vector.ext
    intro i hi
    rw [Block.getElem_xor, Block.getElem_xor, AES.xor_cancel_left]
  rw [pad, ← Vector.toList_zipWith]
  exact congrArg Vector.toList (hcancel b _)

theorem apply_of_block (ks : HeaderKeystream) (h : data.length = 16) :
    ∃ hidden, ks.apply data = .ok (hidden, ks.advance) ∧
      pad data hidden = (ks.key.keystreamBlock ks.direction ks.position).toList := by
  refine ⟨_, if_pos h, ?_⟩
  have hpad := ks.pad_mask (Block.ofList data)
  rwa [Block.toList_ofList h] at hpad

theorem pad_encode (ks : HeaderKeystream) (header : FrameHeader) (payload : Bytes) :
    pad (Frame.headerBlock header payload).toList
        (Frame.hiddenBlock (Frame.encode ks header payload).1) =
      (ks.key.keystreamBlock ks.direction ks.position).toList := by
  have hblock : Frame.hiddenBlock (Frame.encode ks header payload).1 =
      (ks.mask (Frame.headerBlock header payload)).toList := by
    have hlength : (ks.mask (Frame.headerBlock header payload)).toList.length = 16 := by simp
    rw [Frame.hiddenBlock, Frame.encode_eq, Frame.head, List.append_assoc]
    dsimp only
    rw [List.drop_left' (Bytes.length_ofWord _), List.take_left' hlength]
  rw [hblock, pad_mask]

theorem blocksSinceReset_reset (calls : List CipherCall) : blocksSinceReset (calls ++ [.reset]) = 0 := by
  simp [blocksSinceReset]

theorem blocksSinceReset_apply (calls : List CipherCall) (data : Bytes) :
    blocksSinceReset (calls ++ [.apply data]) =
      blocksSinceReset calls + if data.length = 16 then 1 else 0 := by
  simp [blocksSinceReset, CipherCall.isBlock, List.countP_cons]

/-- A keystream stands as many blocks behind its start as it has been applied to since the last reset. -/
theorem foldl_call (key : EdgeKey) (direction : Direction) (calls : List CipherCall) :
    calls.foldl call (start key direction) = ⟨key, direction, blocksSinceReset calls⟩ := by
  induction calls using List.reverseRecOn with
  | nil => rfl
  | append_singleton calls c ih =>
    rw [List.foldl_append, ih, List.foldl_cons, List.foldl_nil]
    cases c with
    | reset => rw [call, reset, blocksSinceReset_reset]
    | apply data =>
      rw [call, apply, blocksSinceReset_apply]
      by_cases h : data.length = 16
      · rw [if_pos h, if_pos h]
        rfl
      · rw [if_neg h, if_neg h]
        rfl

/-- No two blocks of a connection are hidden alike. Whatever has been asked of two ciphers of one edge key
since they were made, and as long as fewer than `2 ^ 64` blocks follow the last reset: the next block of
the one has the counter block of the next block of the other, and is hidden with the same block of
keystream, only if both have come as far in the same direction. The same holds of the header blocks of the
frames that they would write. -/
theorem keystream_not_reused (key : EdgeKey) (d e : Direction) (calls others : List CipherCall)
    (hcalls : blocksSinceReset calls < 2 ^ 64) (hothers : blocksSinceReset others < 2 ^ 64) :
    let i := blocksSinceReset calls
    let j := blocksSinceReset others
    let ks := calls.foldl call (start key d)
    let other := others.foldl call (start key e)
    (key.counterBlock d i = key.counterBlock e j ↔ i = j ∧ d = e) ∧
    (∀ data more, data.length = 16 → more.length = 16 → ∃ hidden masked,
      ks.apply data = .ok (hidden, ⟨key, d, i + 1⟩) ∧ other.apply more = .ok (masked, ⟨key, e, j + 1⟩) ∧
      pad data hidden = (AES.encrypt key.key (key.counterBlock d i)).toList ∧
      (pad data hidden = pad more masked ↔ i = j ∧ d = e)) ∧
    ∀ header payload next more,
      (pad (Frame.headerBlock header payload).toList
          (Frame.hiddenBlock (Frame.encode ks header payload).1) =
        pad (Frame.headerBlock next more).toList (Frame.hiddenBlock (Frame.encode other next more).1) ↔
      i = j ∧ d = e) := by
  intro i j ks other
  have hks : ks = ⟨key, d, i⟩ := foldl_call key d calls
  have hother : other = ⟨key, e, j⟩ := foldl_call key e others
  have hpads : (key.keystreamBlock d i).toList = (key.keystreamBlock e j).toList ↔ i = j ∧ d = e := by
    rw [Vector.toList_inj]
    exact EdgeKey.keystreamBlock_inj hcalls hothers
  refine ⟨EdgeKey.counterBlock_inj hcalls hothers, fun data more hdata hmore => ?_,
    fun header payload next more => ?_⟩
  · obtain ⟨hidden, happly, hpad⟩ := ks.apply_of_block hdata
    obtain ⟨masked, happly', hpad'⟩ := other.apply_of_block hmore
    rw [hks] at happly hpad
    rw [hother] at happly' hpad'
    refine ⟨hidden, masked, hks ▸ happly, hother ▸ happly', hpad, ?_⟩
    rw [hpad, hpad']
    exact hpads
  · rw [pad_encode, pad_encode, hks, hother]
    exact hpads

/-- A key whose counter comes round with the second block. -/
def lastCounter : EdgeKey := ⟨Block.zero, Vector.replicate 16 0xff⟩

/-- The second request block and the first reply block of a connection, the reply cipher having been reset:
the one counter has come round to zero, the other starts in the middle. -/
theorem keystream_not_reused_comesRound :
    blocksSinceReset [.apply (List.replicate 16 7)] < 2 ^ 64 ∧
    blocksSinceReset [.apply (List.replicate 16 7), .reset, .apply [7]] < 2 ^ 64 ∧
    lastCounter.counterBlock .requests 1 = Block.zero ∧
    lastCounter.counterBlock .requests 1 ≠ lastCounter.counterBlock .replies 0 := by
  have hone : blocksSinceReset [.apply (List.replicate 16 7)] = 1 := by decide
  have hnone : blocksSinceReset [.apply (List.replicate 16 7), .reset, .apply [7]] = 0 := by decide
  have hdistinct := (keystream_not_reused lastCounter .requests .replies
    [.apply (List.replicate 16 7)] [.apply (List.replicate 16 7), .reset, .apply [7]]
    (hone ▸ by decide) (hnone ▸ by decide)).1
  rw [hone, hnone] at hdistinct
  refine ⟨hone ▸ by decide, hnone ▸ by decide, by decide +kernel, fun hsame => ?_⟩
  exact absurd (hdistinct.1 hsame).1 (by decide)

end HeaderKeystream
end MixRelay
