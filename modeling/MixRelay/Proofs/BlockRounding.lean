import MixRelay.ReplySizing
import Mathlib.Algebra.Order.Group.Nat

/-! # Rounding reply sizes to whole blocks

A reply is cut so that with its header it fills whole blocks: as many as come nearest to the size that
was asked for, but no more than the cap has room for, and one at least. A size that is rounded once is not
changed by rounding it again, and a larger one does not come out smaller. -/
namespace MixRelay.Sizing

/-- The blocks of a reply with its header. -/
def blockCount (size blockSize headerLength cap : Nat) : Nat :=
  max 1 (min ((size + headerLength + blockSize / 2) / blockSize) (cap / blockSize))

section Shrinking
variable {blockSize cap : Nat}

theorem shrink_of_le_cap {length : Nat} (h : length ≤ cap) : shrink blockSize cap length = length := by
  rw [shrink, if_neg]
  rintro ⟨hcap, -⟩
  exact absurd h (Nat.not_le.2 hcap)

theorem shrink_one_block : shrink blockSize cap blockSize = blockSize := by
  rw [shrink, if_neg]
  rintro ⟨-, hblock, -⟩
  exact lt_irrefl _ hblock

/-- From whole blocks as many are left as the cap has room for, and one at least. -/
theorem shrink_blocks (hb : 0 < blockSize) (count : Nat) :
    shrink blockSize cap ((count + 1) * blockSize) = max 1 (min (count + 1) (cap / blockSize)) * blockSize := by
  induction count with
  | zero =>
    rw [Nat.zero_add, Nat.max_eq_left (Nat.min_le_left 1 _), Nat.one_mul]
    exact shrink_one_block
  | succ count ih =>
    by_cases hcap : (count + 1 + 1) * blockSize ≤ cap
    · have hroom : count + 1 + 1 ≤ cap / blockSize := (Nat.le_div_iff_mul_le hb).2 hcap
      rw [shrink_of_le_cap hcap, Nat.min_eq_left hroom, Nat.max_eq_right (Nat.le_add_left 1 _)]
    · have hroom : cap / blockSize ≤ count + 1 :=
        Nat.le_of_lt_succ ((Nat.div_lt_iff_lt_mul hb).2 (Nat.not_le.1 hcap))
      have hmore : blockSize < (count + 1 + 1) * blockSize := by
        rw [Nat.succ_mul]
        exact Nat.lt_add_of_pos_left (Nat.mul_pos (Nat.succ_pos count) hb)
      rw [shrink, if_pos ⟨Nat.not_le.1 hcap, hmore, hb⟩, Nat.succ_mul, Nat.add_sub_cancel, ih,
        Nat.min_eq_right hroom, Nat.min_eq_right (Nat.le_succ_of_le hroom)]

/-- The loop that takes a block off a length while it is above the cap and has more than one, with the length
that it ends with. -/
inductive Shrinks (blockSize cap : Nat) : Nat → Nat → Prop
  | done {length : Nat} (fits : ¬ (cap < length ∧ blockSize < length)) :
    Shrinks blockSize cap length length
  | again {length last : Nat} (above : cap < length ∧ blockSize < length)
    (more : Shrinks blockSize cap (length - blockSize) last) : Shrinks blockSize cap length last

/-- With blocks of some bytes the loop ends. -/
theorem shrinks_iff (hb : 0 < blockSize) {length last : Nat} :
    Shrinks blockSize cap length last ↔ last = shrink blockSize cap length := by
  constructor
  · intro h
    induction h with
    | done fits => rw [shrink, if_neg fun h => fits ⟨h.1, h.2.1⟩]
    | again above more ih => rw [shrink, if_pos ⟨above.1, above.2, hb⟩, ih]
  · rintro rfl
    induction length using Nat.strong_induction_on with
    | h length ih =>
      rw [shrink]
      split
      · rename_i h
        exact .again ⟨h.1, h.2.1⟩ (ih (length - blockSize) (by omega))
      · rename_i h
        exact .done fun hs => h ⟨hs.1, hs.2, hb⟩

end Shrinking

section Alignment
variable {blockSize : Nat} (size headerLength cap : Nat)

theorem alignToBlocks_eq (hb : 0 < blockSize) :
    alignToBlocks size blockSize headerLength cap =
      blockCount size blockSize headerLength cap * blockSize - headerLength := by
  rw [alignToBlocks, blockCount]
  cases hcount : (size + headerLength + blockSize / 2) / blockSize with
  | zero =>
    have hone : Nat.max (0 * blockSize) blockSize = blockSize := by
      rw [Nat.zero_mul]
      exact Nat.max_eq_right (Nat.zero_le _)
    rw [hone, shrink_one_block, Nat.zero_min, Nat.max_eq_left (Nat.zero_le 1), Nat.one_mul]
  | succ count =>
    have hmore : Nat.max ((count + 1) * blockSize) blockSize = (count + 1) * blockSize :=
      Nat.max_eq_left (Nat.le_mul_of_pos_left _ (Nat.succ_pos count))
    rw [hmore, shrink_blocks hb]

theorem le_blocks : blockSize ≤ blockCount size blockSize headerLength cap * blockSize :=
  Nat.le_mul_of_pos_left _ (Nat.le_max_left 1 _)

/-- With a header of at most a block the header and the data are whole blocks. -/
theorem header_add_alignToBlocks (hb : 0 < blockSize) (hheader : headerLength ≤ blockSize) :
    headerLength + alignToBlocks size blockSize headerLength cap =
      blockCount size blockSize headerLength cap * blockSize := by
  rw [alignToBlocks_eq size headerLength cap hb]
  exact Nat.add_sub_cancel' (Nat.le_trans hheader (le_blocks size headerLength cap))

/-- A cap of at least a block is kept. -/
theorem blocks_le_cap (hb : 0 < blockSize) (hcap : blockSize ≤ cap) :
    blockCount size blockSize headerLength cap * blockSize ≤ cap := by
  have hroom : 1 ≤ cap / blockSize := (Nat.one_le_div_iff hb).2 hcap
  exact (Nat.le_div_iff_mul_le hb).1 (Nat.max_le.2 ⟨hroom, Nat.min_le_right _ _⟩)

/-- A cap of less than a block leaves one. -/
theorem blocks_le_max (hb : 0 < blockSize) :
    blockCount size blockSize headerLength cap * blockSize ≤ max blockSize cap := by
  rcases Nat.le_total blockSize cap with hcap | hcap
  · exact le_max_of_le_right (blocks_le_cap size headerLength cap hb hcap)
  · have hroom : cap / blockSize ≤ 1 := Nat.div_le_of_le_mul (by rwa [Nat.mul_one])
    have hone : blockCount size blockSize headerLength cap = 1 := by
      unfold blockCount
      omega
    rw [hone, Nat.one_mul]
    exact le_max_left blockSize cap

/-- Rounding moves a length by half a block at most. -/
theorem rounded_within (hb : 0 < blockSize) (length : Nat) :
    let rounded := (length + blockSize / 2) / blockSize * blockSize
    rounded ≤ length + blockSize / 2 ∧ length ≤ rounded + blockSize / 2 := by
  have hbelow : (length + blockSize / 2) / blockSize * blockSize ≤ length + blockSize / 2 :=
    Nat.div_mul_le_self _ _
  have habove : length + blockSize / 2 < (length + blockSize / 2) / blockSize * blockSize + blockSize :=
    Nat.lt_div_mul_add hb
  dsimp only
  omega

theorem blockCount_mono {size other : Nat} (h : size ≤ other) :
    blockCount size blockSize headerLength cap ≤ blockCount other blockSize headerLength cap := by
  have hdiv : (size + headerLength + blockSize / 2) / blockSize ≤
      (other + headerLength + blockSize / 2) / blockSize := Nat.div_le_div_right (by omega)
  unfold blockCount
  omega

theorem alignToBlocks_mono (hb : 0 < blockSize) {size other : Nat} (h : size ≤ other) :
    alignToBlocks size blockSize headerLength cap ≤ alignToBlocks other blockSize headerLength cap := by
  rw [alignToBlocks_eq size headerLength cap hb, alignToBlocks_eq other headerLength cap hb]
  exact Nat.sub_le_sub_right (Nat.mul_le_mul_right blockSize (blockCount_mono headerLength cap h)) _

/-- Whole blocks are as many after rounding. -/
theorem blockCount_of_blocks (hb : 0 < blockSize) {data : Nat}
    (h : data + headerLength = blockCount size blockSize headerLength cap * blockSize) :
    blockCount data blockSize headerLength cap = blockCount size blockSize headerLength cap := by
  have hhalf : blockSize / 2 / blockSize = 0 := Nat.div_eq_of_lt (Nat.div_lt_self hb (by decide))
  have hcount : (data + headerLength + blockSize / 2) / blockSize =
      blockCount size blockSize headerLength cap := by
    rw [h, Nat.add_comm, Nat.add_mul_div_right _ _ hb, hhalf, Nat.zero_add]
  rw [blockCount, hcount]
  unfold blockCount
  omega

/-- Rounding again changes nothing. -/
theorem alignToBlocks_idem (hb : 0 < blockSize) :
    alignToBlocks (alignToBlocks size blockSize headerLength cap) blockSize headerLength cap =
      alignToBlocks size blockSize headerLength cap := by
  have heq := alignToBlocks_eq size headerLength cap hb
  by_cases hheader : headerLength ≤ blockCount size blockSize headerLength cap * blockSize
  · have hblocks : alignToBlocks size blockSize headerLength cap + headerLength =
        blockCount size blockSize headerLength cap * blockSize := by
      rw [heq, Nat.sub_add_cancel hheader]
    rw [alignToBlocks_eq _ headerLength cap hb, blockCount_of_blocks size headerLength cap hb hblocks, heq]
  · -- the header alone is longer than the blocks, then so it is for no data
    have hzero : alignToBlocks size blockSize headerLength cap = 0 := by
      rw [heq, Nat.sub_eq_zero_of_le (Nat.le_of_not_le hheader)]
    rw [hzero]
    exact Nat.le_zero.1 (hzero.le.trans' (alignToBlocks_mono headerLength cap hb (Nat.zero_le size)))

/-- Unless it is less than a block, or more than one and above the cap, the length next to a size in whole
blocks is kept. -/
theorem blockCount_eq_rounded (hb : 0 < blockSize)
    (hleast : blockSize ≤ (size + headerLength + blockSize / 2) / blockSize * blockSize)
    (hcap : (size + headerLength + blockSize / 2) / blockSize * blockSize ≤ max cap blockSize) :
    blockCount size blockSize headerLength cap = (size + headerLength + blockSize / 2) / blockSize := by
  unfold blockCount
  generalize (size + headerLength + blockSize / 2) / blockSize = count at hleast hcap ⊢
  have hone : 1 ≤ count := Nat.pos_of_mul_pos_right (Nat.lt_of_lt_of_le hb hleast)
  rcases le_max_iff.1 hcap with hroom | hblock
  · have hroom : count ≤ cap / blockSize := (Nat.le_div_iff_mul_le hb).2 hroom
    omega
  · have hsingle : count ≤ 1 := Nat.le_of_mul_le_mul_right (by rwa [Nat.one_mul]) hb
    omega

/-- The loop ends, and with the header the data of a reply fill as many blocks as the closed form says; if the
header fills them there are no data. Rounding is idempotent and monotone. Where there are data, they fill with
the header one block or more, within the cap or one block, and differ by half a block at most from what was
asked for, unless that comes to less than a block or the cap takes blocks off. -/
theorem alignToBlocks_nearest (size headerLength cap : Nat) {blockSize : Nat} (hb : 1 ≤ blockSize) :
    let rounded := (size + headerLength + blockSize / 2) / blockSize * blockSize
    let data := alignToBlocks size blockSize headerLength cap
    alignToBlocks? size blockSize headerLength cap = some data ∧
    (∃ last, Shrinks blockSize cap (max rounded blockSize) last ∧ data = last - headerLength) ∧
    data = blockSize * max 1 (min ((size + headerLength + blockSize / 2) / blockSize) (cap / blockSize)) -
      headerLength ∧
    alignToBlocks data blockSize headerLength cap = data ∧
    (∀ other, size ≤ other → data ≤ alignToBlocks other blockSize headerLength cap) ∧
    (data ≠ 0 →
      blockSize ∣ data + headerLength ∧ 0 < data + headerLength ∧ data + headerLength ≤ max blockSize cap ∧
      (rounded < blockSize ∨ (cap < rounded ∧ blockSize < rounded) ∨
        (data + headerLength ≤ size + headerLength + blockSize / 2 ∧
          size + headerLength ≤ data + headerLength + blockSize / 2))) := by
  intro rounded data
  have heq := alignToBlocks_eq size headerLength cap hb
  refine ⟨if_neg (Nat.ne_of_gt hb), ⟨_, (shrinks_iff hb).2 rfl, rfl⟩, ?_,
    alignToBlocks_idem size headerLength cap hb, fun other => alignToBlocks_mono headerLength cap hb,
    fun hdata => ?_⟩
  · rw [Nat.mul_comm]
    exact heq
  · have hblocks : data + headerLength = blockCount size blockSize headerLength cap * blockSize := by
      have hheader : headerLength ≤ blockCount size blockSize headerLength cap * blockSize :=
        Nat.le_of_not_le fun hle => hdata (heq.trans (Nat.sub_eq_zero_of_le hle))
      exact (congrArg (· + headerLength) heq).trans (Nat.sub_add_cancel hheader)
    refine ⟨hblocks ▸ Nat.dvd_mul_left _ _, by omega, ?_, ?_⟩
    · exact hblocks ▸ blocks_le_max size headerLength cap hb
    · by_cases hleast : rounded < blockSize
      · exact .inl hleast
      by_cases hcap : cap < rounded ∧ blockSize < rounded
      · exact .inr (.inl hcap)
      have hcount := blockCount_eq_rounded size headerLength cap hb (Nat.le_of_not_lt hleast) (by omega)
      rw [hblocks, hcount]
      exact .inr (.inr (rounded_within hb (size + headerLength)))

/-- Blocks of an odd size, a header of more than one of them, and a cap that takes one off. -/
theorem alignToBlocks_nearest_longHeader :
    1 ≤ 7 ∧ alignToBlocks? 9 7 10 20 = some 4 ∧ alignToBlocks 4 7 10 20 = 4 ∧ 7 ∣ 4 + 10 ∧
      4 + 10 ≤ max 7 20 := by
  obtain ⟨hsome, -, hclosed, hagain, -, hdata⟩ := alignToBlocks_nearest 9 10 20 (show 1 ≤ 7 by decide)
  have hfour : alignToBlocks 9 7 10 20 = 4 := hclosed
  rw [hfour] at hsome hagain hdata
  obtain ⟨hblocks, -, hcap, -⟩ := hdata (by decide)
  exact ⟨by decide, hsome, hagain, hblocks, hcap⟩

end Alignment
end MixRelay.Sizing
