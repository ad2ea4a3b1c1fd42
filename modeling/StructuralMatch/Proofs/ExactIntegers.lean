import Mathlib.Algebra.Group.Nat.Defs
import StructuralMatch.Number.Binary64

/-!
# `Proofs.ExactIntegers` — which integers are numbers of their own

A double precision number has 53 significant bits. An integer below `2 ^ 53` is therefore a number, and no
other integer of 64 bits is rounded to that number; from `2 ^ 53` on, integers begin to share theirs.

The bit patterns are in the order of the numbers that they stand for. So it is enough to say where the
pattern of a natural lies: its exponent field gives away the width of the natural, and below `2 ^ 53` its
fraction gives away the rest.
-/

namespace StructuralMatch

namespace Binary64

/-! ## The pattern of a natural -/

/-- The significand that a natural is rounded to, before it carries. -/
def significand (n : Nat) : Nat :=
  if n.log2 ≤ 52 then n * 2 ^ (52 - n.log2) else roundShift n (n.log2 - 52)

/-- Zero apart, the pattern is made of the width and the significand. -/
theorem patternOfNat_eq {n : Nat} (hn : n ≠ 0) :
    patternOfNat n = (n.log2 + 1022) * 2 ^ 52 + significand n := by
  simp only [patternOfNat, hn, ↓reduceIte]
  rfl

/-- Rounding takes one of the two naturals next to the quotient. -/
theorem roundShift_bounds (n shift : Nat) :
    n / 2 ^ shift ≤ roundShift n shift ∧ roundShift n shift ≤ n / 2 ^ shift + 1 := by
  simp only [roundShift, Nat.pow_eq]
  split
  · omega
  · split
    · omega
    · split <;> omega

/-- The bits that stand before the point once the surplus is shifted out are 53. -/
theorem quotient_bounds {n : Nat} (hn : n ≠ 0) (hw : 52 ≤ n.log2) :
    2 ^ 52 ≤ n / 2 ^ (n.log2 - 52) ∧ n / 2 ^ (n.log2 - 52) < 2 ^ 53 := by
  have hpos : 0 < 2 ^ (n.log2 - 52) := Nat.two_pow_pos _
  constructor
  · rw [Nat.le_div_iff_mul_le hpos, ← Nat.pow_add, Nat.add_sub_cancel' hw]
    exact Nat.log2_self_le hn
  · rw [Nat.div_lt_iff_lt_mul hpos, ← Nat.pow_add, show 53 + (n.log2 - 52) = n.log2 + 1 by omega]
    exact Nat.lt_log2_self

/-- A narrow natural is its significand, shifted to 53 bits. -/
theorem significand_bounds_of_le {n : Nat} (hn : n ≠ 0) (hw : n.log2 ≤ 52) :
    2 ^ 52 ≤ n * 2 ^ (52 - n.log2) ∧ n * 2 ^ (52 - n.log2) < 2 ^ 53 := by
  have hlow : 2 ^ n.log2 * 2 ^ (52 - n.log2) ≤ n * 2 ^ (52 - n.log2) :=
    Nat.mul_le_mul_right _ (Nat.log2_self_le hn)
  have hhigh : n * 2 ^ (52 - n.log2) < 2 ^ (n.log2 + 1) * 2 ^ (52 - n.log2) :=
    Nat.mul_lt_mul_of_pos_right Nat.lt_log2_self (Nat.two_pow_pos _)
  rw [← Nat.pow_add, Nat.add_sub_cancel' hw] at hlow
  rw [← Nat.pow_add, show n.log2 + 1 + (52 - n.log2) = 53 by omega] at hhigh
  exact ⟨hlow, hhigh⟩

/-- A significand has 53 bits, or has just carried into the next. -/
theorem significand_bounds {n : Nat} (hn : n ≠ 0) :
    2 ^ 52 ≤ significand n ∧ significand n ≤ 2 ^ 53 := by
  unfold significand
  by_cases hw : n.log2 ≤ 52
  · obtain ⟨hlow, hhigh⟩ := significand_bounds_of_le hn hw
    simp only [hw, ↓reduceIte]
    omega
  · obtain ⟨hlow, hhigh⟩ := quotient_bounds hn (by omega)
    obtain ⟨hdown, hup⟩ := roundShift_bounds n (n.log2 - 52)
    simp only [hw, ↓reduceIte]
    omega

/-- Zero apart, a natural has a normal number. -/
theorem le_patternOfNat {n : Nat} (hn : n ≠ 0) : 1023 * 2 ^ 52 ≤ patternOfNat n := by
  obtain ⟨hlow, -⟩ := significand_bounds hn
  rw [patternOfNat_eq hn]
  omega

theorem patternOfNat_eq_zero_iff {n : Nat} : patternOfNat n = 0 ↔ n = 0 := by
  constructor
  · intro hzero
    refine Decidable.byContradiction fun hn => ?_
    have hlow := le_patternOfNat hn
    omega
  · rintro rfl
    rfl

/-- The pattern of the size of an integer of 64 bits leaves the sign bit alone, and is finite. -/
theorem patternOfNat_lt {n : Nat} (h : n ≤ 2 ^ 63) : patternOfNat n < 1088 * 2 ^ 52 := by
  by_cases hn : n = 0
  · simp [hn, patternOfNat]
  · obtain ⟨-, hhigh⟩ := significand_bounds hn
    have hwidth : n.log2 < 64 := (Nat.log2_lt hn).mpr (by omega)
    rw [patternOfNat_eq hn]
    omega

/-- The significand of a narrow natural does not carry. -/
theorem patternOfNat_of_log2_le {n : Nat} (hn : n ≠ 0) (hw : n.log2 ≤ 52) :
    patternOfNat n = (n.log2 + 1022) * 2 ^ 52 + n * 2 ^ (52 - n.log2) := by
  rw [patternOfNat_eq hn, significand, if_pos hw]

/-- The exponent field tells whether a natural is narrow: one that is wide has a larger field, and
    rounding a narrow one does not carry into it. -/
theorem patternOfNat_lt_iff {n : Nat} (hn : n ≠ 0) : patternOfNat n < 1076 * 2 ^ 52 ↔ n.log2 ≤ 52 := by
  by_cases hw : n.log2 ≤ 52
  · obtain ⟨-, hhigh⟩ := significand_bounds_of_le hn hw
    rw [patternOfNat_of_log2_le hn hw]
    omega
  · obtain ⟨hlow, -⟩ := significand_bounds hn
    rw [patternOfNat_eq hn]
    omega

/-- **Exactness.** A natural below `2 ^ 53` can be read off its pattern, which no larger one has. -/
theorem eq_of_patternOfNat_eq {m n : Nat} (hm : m < 2 ^ 53)
    (h : patternOfNat m = patternOfNat n) : m = n := by
  by_cases hm0 : m = 0
  · subst hm0
    exact (patternOfNat_eq_zero_iff.mp (h.symm.trans (patternOfNat_eq_zero_iff.mpr rfl))).symm
  · have hn0 : n ≠ 0 := by
      rintro rfl
      exact hm0 (patternOfNat_eq_zero_iff.mp (h.trans (patternOfNat_eq_zero_iff.mpr rfl)))
    have hmw : m.log2 ≤ 52 := Nat.le_of_lt_succ ((Nat.log2_lt hm0).mpr hm)
    have hnw : n.log2 ≤ 52 := (patternOfNat_lt_iff hn0).mp (h ▸ (patternOfNat_lt_iff hm0).mpr hmw)
    obtain ⟨hmlow, hmhigh⟩ := significand_bounds_of_le hm0 hmw
    obtain ⟨hnlow, hnhigh⟩ := significand_bounds_of_le hn0 hnw
    rw [patternOfNat_of_log2_le hm0 hmw, patternOfNat_of_log2_le hn0 hnw] at h
    -- both significands have 53 bits, so the quotient by `2 ^ 52` gives the width
    have hwidth : m.log2 = n.log2 := by omega
    rw [hwidth] at h
    exact Nat.eq_of_mul_eq_mul_right (Nat.two_pow_pos _) (Nat.add_left_cancel h)

/-! ## The number of an integer -/

/-- The bits of the number nearest to an integer of 64 bits: the sign, and the pattern of the size. -/
theorem toNat_bits_ofInt {n : Int} (h : n.natAbs ≤ 2 ^ 63) :
    (ofInt n).bits.toNat = (if n < 0 then 2 ^ 63 else 0) + patternOfNat n.natAbs := by
  have hlt := patternOfNat_lt h
  simp only [ofInt, Nat.pow_eq, UInt64.toNat_ofNat']
  apply Nat.mod_eq_of_lt
  split <;> omega

/-- The number nearest to an integer of 64 bits is a number, and so it is equal to itself. -/
theorem sameNumber_ofInt_self {n : Int} (h : n.natAbs ≤ 2 ^ 63) :
    (ofInt n).sameNumber (ofInt n) = true := by
  have hexponent : (ofInt n).biasedExponent ≠ 2047 := by
    have hlt := patternOfNat_lt h
    simp only [biasedExponent, Nat.pow_eq, toNat_bits_ofInt h]
    split <;> omega
  simp [sameNumber, isNaN, hexponent]

/-- Only zero is rounded to zero. -/
theorem eq_zero_of_isZero_ofInt {n : Int} (h : n.natAbs ≤ 2 ^ 63) (hzero : (ofInt n).isZero = true) :
    n = 0 := by
  refine Decidable.byContradiction fun hn => ?_
  have hlow := le_patternOfNat (n := n.natAbs) (by omega)
  have hhigh := patternOfNat_lt h
  simp only [isZero, biasedExponent, Nat.pow_eq, toNat_bits_ofInt h, Bool.and_eq_true,
    decide_eq_true_eq] at hzero
  split at hzero <;> omega

/-- Integers of 64 bits with the same bits have the same sign, and sizes with the same pattern. -/
theorem sign_and_pattern_of_ofInt_eq {m n : Int} (hm : m.natAbs ≤ 2 ^ 63) (hn : n.natAbs ≤ 2 ^ 63)
    (h : ofInt m = ofInt n) :
    (m < 0 ↔ n < 0) ∧ patternOfNat m.natAbs = patternOfNat n.natAbs := by
  have hbits := congrArg (fun x : Binary64 => x.bits.toNat) h
  have hmlt := patternOfNat_lt hm
  have hnlt := patternOfNat_lt hn
  simp only [toNat_bits_ofInt hm, toNat_bits_ofInt hn] at hbits
  split at hbits <;> split at hbits <;> constructor <;> omega

/-- Two integers of 64 bits that are rounded to one number. -/
structure Shared (m n : Int) : Prop where
  left : m.natAbs ≤ 2 ^ 63
  right : n.natAbs ≤ 2 ^ 63
  same : (ofInt m).sameNumber (ofInt n) = true

/-- **An integer below `2 ^ 53` shares its number with no other integer of 64 bits.** -/
theorem Shared.eq {m n : Int} (h : Shared m n) (hm : m.natAbs < 2 ^ 53) : m = n := by
  have hsame := h.same
  simp only [sameNumber, Bool.and_eq_true, Bool.or_eq_true, decide_eq_true_eq] at hsame
  obtain ⟨-, hequal | ⟨hmzero, hnzero⟩⟩ := hsame
  · obtain ⟨hsign, hpattern⟩ := sign_and_pattern_of_ofInt_eq h.left h.right hequal
    have hsize := eq_of_patternOfNat_eq hm hpattern
    omega
  · rw [eq_zero_of_isZero_ofInt h.left hmzero, eq_zero_of_isZero_ofInt h.right hnzero]

end Binary64

end StructuralMatch
