import Multicall.Batch.Envelope
import Mathlib.Algebra.GroupWithZero.Nat
/-!
Rounding to the nearest double does not cross a power of two from above: what is not below the power
is not below it after rounding. So an integer that the signed word cannot hold still ends up at the end of
that word, on its own side, when its double is cut off.
-/
namespace Multicall

namespace Binary64

theorem leastLeading_eq : leastLeading = 2 ^ 52 := by decide

theorem div_le_roundQuotient (num den : Nat) : num / den ≤ roundQuotient num den := by
  rw [roundQuotient]
  split
  · exact Nat.le_refl _
  · split
    · exact Nat.le_succ _
    · exact Nat.le_add_right _ _

theorem le_log2_of_full {q : Nat} (full : leastLeading ≤ q) : q ≠ 0 ∧ 52 ≤ Nat.log2 q := by
  rw [leastLeading_eq] at full
  have positive : q ≠ 0 := Nat.ne_of_gt (Nat.lt_of_lt_of_le (Nat.two_pow_pos 52) full)
  exact ⟨positive, (Nat.le_log2 positive).mpr full⟩

/-- Where a quotient has all bits of a significand, cutting it down to them leaves the first one set. -/
theorem leastLeading_le_div_pow {q : Nat} (full : leastLeading ≤ q) :
    leastLeading ≤ q / 2 ^ (Nat.log2 q - 52) := by
  obtain ⟨positive, bits⟩ := le_log2_of_full full
  rw [leastLeading_eq, Nat.le_div_iff_mul_le (Nat.two_pow_pos _), ← Nat.pow_add,
    Nat.add_sub_cancel' bits]
  exact Nat.log2_self_le positive

/-- A rounded significand at its exponent, where rounding up can carry into the next power of two. -/
def rounded (negative : Bool) (m p : Nat) : Option Binary64 :=
  if m = 2 * leastLeading then
    if p + 1 ≤ maxExponent then some ⟨negative, leastLeading, p + 1⟩ else none
  else if p ≤ maxExponent then some ⟨negative, m, p⟩ else none

/-- The carry changes how a number is written, not which one it is. -/
theorem rounded_eq_some {negative : Bool} {m p : Nat} {x : Binary64}
    (came : rounded negative m p = some x) : x.negative = negative ∧ x.scaled = m * 2 ^ p := by
  rw [rounded] at came
  split at came
  · next carries =>
      obtain ⟨-, own⟩ := Option.ite_none_right_eq_some.mp came
      cases own
      refine ⟨rfl, ?_⟩
      show leastLeading * 2 ^ (p + 1) = m * 2 ^ p
      rw [carries, Nat.pow_succ, Nat.mul_comm 2 leastLeading, Nat.mul_assoc, Nat.mul_comm (2 ^ p) 2]
  · obtain ⟨-, own⟩ := Option.ite_none_right_eq_some.mp came
    cases own
    exact ⟨rfl, rfl⟩

theorem exists_rounded (negative : Bool) (m : Nat) {p : Nat} (room : p < maxExponent) :
    ∃ x, rounded negative m p = some x := by
  rw [rounded]
  split
  · exact ⟨_, if_pos room⟩
  · exact ⟨_, if_pos (Nat.le_of_lt room)⟩

/-- The number nearest to a quotient in any unit. With the unit of doubles put in, it would be counted
out wherever the definition is opened. -/
def ofRatioIn (unit : Nat) (negative : Bool) (num den : Nat) : Option Binary64 :=
  let n := num * unit
  let p := Nat.log2 (n / den) - 52
  let m := roundQuotient n (den * Nat.pow 2 p)
  let (m, p) := if m = 2 * leastLeading then (leastLeading, p + 1) else (m, p)
  if p ≤ maxExponent then some ⟨negative, m, p⟩ else none

theorem ofRatio_eq_in : ofRatio = ofRatioIn one := rfl

theorem ofRatioIn_eq_rounded (unit : Nat) (negative : Bool) (num den : Nat) :
    ofRatioIn unit negative num den = rounded negative (roundQuotient (num * unit)
      (den * 2 ^ (Nat.log2 (num * unit / den) - 52))) (Nat.log2 (num * unit / den) - 52) := by
  unfold ofRatioIn rounded
  generalize num * unit = n
  dsimp only
  generalize Nat.log2 (n / den) - 52 = p
  by_cases carries : roundQuotient n (den * 2 ^ p) = 2 * leastLeading
  · have same : roundQuotient n (den * Nat.pow 2 p) = 2 * leastLeading := carries
    rw [if_pos same, if_pos carries]
  · have same : roundQuotient n (den * Nat.pow 2 p) ≠ 2 * leastLeading := carries
    rw [if_neg same, if_neg carries]
    rfl

/-- A quotient of all bits at least keeps the power of two that its first bit stands for. -/
theorem pow_log2_le_scaled {negative : Bool} {num den : Nat} {x : Binary64}
    (full : leastLeading ≤ num * one / den) (came : ofRatio negative num den = some x) :
    x.negative = negative ∧ 2 ^ Nat.log2 (num * one / den) ≤ x.scaled := by
  rw [ofRatio_eq_in] at came
  generalize one = unit at full came ⊢
  rw [ofRatioIn_eq_rounded] at came
  obtain ⟨sign, value⟩ := rounded_eq_some came
  obtain ⟨-, bits⟩ := le_log2_of_full full
  refine ⟨sign, ?_⟩
  calc
    2 ^ Nat.log2 (num * unit / den)
      = 2 ^ 52 * 2 ^ (Nat.log2 (num * unit / den) - 52) := by
        rw [← Nat.pow_add, Nat.add_sub_cancel' bits]
    _ ≤ num * unit / den / 2 ^ (Nat.log2 (num * unit / den) - 52) *
          2 ^ (Nat.log2 (num * unit / den) - 52) :=
        Nat.mul_le_mul_right _ (leastLeading_eq ▸ leastLeading_le_div_pow full)
    _ ≤ x.scaled := by
        rw [value, Nat.div_div_eq_div_mul]
        exact Nat.mul_le_mul_right _ (div_le_roundQuotient _ _)

theorem exists_ofRatio (negative : Bool) {num den : Nat}
    (room : Nat.log2 (num * one / den) - 52 < maxExponent) :
    ∃ x, ofRatio negative num den = some x := by
  rw [ofRatio_eq_in, ofRatioIn_eq_rounded]
  exact exists_rounded negative _ room

theorem one_eq : one = 2 ^ unitBits := by
  -- the exponent is kept from being counted out
  unfold one
  generalize unitBits = bits
  rfl

theorem log2_mul_one {n : Nat} (positive : n ≠ 0) : Nat.log2 (n * one) = Nat.log2 n + unitBits := by
  rw [one_eq]
  induction unitBits with
  | zero => rw [Nat.pow_zero, Nat.mul_one, Nat.add_zero]
  | succ bits ih =>
      have more : n * 2 ^ (bits + 1) = 2 * (n * 2 ^ bits) := by
        rw [Nat.pow_succ, ← Nat.mul_assoc, Nat.mul_comm]
      have some : n * 2 ^ bits ≠ 0 := Nat.mul_ne_zero positive (Nat.ne_of_gt (Nat.two_pow_pos bits))
      rw [more, Nat.log2_two_mul some, ih, Nat.add_assoc]

/-- Rounded or not, a whole number is not cut off below a power of two that it reaches. -/
theorem pow_le_of_ofRatio {negative : Bool} {n k : Nat} {x : Binary64} (reaches : 2 ^ k ≤ n)
    (came : ofRatio negative n 1 = some x) : x.negative = negative ∧ 2 ^ k ≤ x.scaled / one := by
  have bits : unitBits = 1074 := rfl
  have positive : n ≠ 0 := Nat.ne_of_gt (Nat.lt_of_lt_of_le (Nat.two_pow_pos k) reaches)
  have nonzero : n * one ≠ 0 :=
    Nat.mul_ne_zero positive (one_eq ▸ Nat.ne_of_gt (Nat.two_pow_pos unitBits))
  have low : k ≤ Nat.log2 n := (Nat.le_log2 positive).mpr reaches
  have size := log2_mul_one positive
  have full : leastLeading ≤ n * one / 1 := by
    rw [Nat.div_one, leastLeading_eq, ← Nat.le_log2 nonzero]
    omega
  obtain ⟨sign, kept⟩ := pow_log2_le_scaled full came
  rw [Nat.div_one] at kept
  refine ⟨sign, (Nat.le_div_iff_mul_le (one_eq ▸ Nat.two_pow_pos unitBits)).mpr ?_⟩
  calc
    2 ^ k * one = 2 ^ (k + unitBits) := by rw [one_eq, Nat.pow_add]
    _ ≤ 2 ^ Nat.log2 (n * one) := Nat.pow_le_pow_right Nat.two_pos (by omega)
    _ ≤ x.scaled := kept

/-- The double of a whole number beyond the signed word is beyond it on the same side. -/
theorem clamp_trunc_of_beyond {negative : Bool} {n : Nat} {x : Binary64} (beyond : 2 ^ 63 ≤ n)
    (came : ofRatio negative n 1 = some x) :
    Integer64.clamp x.trunc = Integer64.clamp (if negative then -(n : Int) else n) := by
  obtain ⟨sign, kept⟩ := pow_le_of_ofRatio beyond came
  rw [trunc, sign]
  generalize x.scaled / one = m at kept ⊢
  simp only [Integer64.clamp, Integer64.least, Integer64.greatest]
  cases negative with
  | false =>
      simp only [Bool.false_eq_true, if_false]
      omega
  | true =>
      simp only [if_true]
      omega

/-- What only the word without a sign holds has a double, and both saturate alike. -/
theorem exists_ofInt_of_unfit {n : Int} (unfit : ¬ Integer64.fits n = true)
    (low : Integer64.least ≤ n) (high : n ≤ Integer64.greatestUnsigned) :
    ∃ x, ofInt n = some x ∧ Integer64.clamp x.trunc = Integer64.clamp n := by
  rw [Integer64.fits_iff, not_and] at unfit
  have beyond : Integer64.greatest < n := Int.not_le.mp (unfit low)
  have bits : unitBits = 1074 := rfl
  have most : maxExponent = 2045 := rfl
  obtain ⟨m, rfl⟩ := Int.eq_ofNat_of_zero_le (a := n) (Int.le_trans (by decide) (Int.le_of_lt beyond))
  have reaches : 2 ^ 63 ≤ m := Int.ofNat_le.mp beyond
  have positive : m ≠ 0 := Nat.ne_of_gt (Nat.lt_of_lt_of_le (Nat.two_pow_pos 63) reaches)
  have room : Nat.log2 m < 64 :=
    (Nat.log2_lt positive).mpr (Nat.lt_of_le_of_lt (Int.ofNat_le.mp high) (by decide))
  have upright : decide ((m : Int) < 0) = false :=
    decide_eq_false (Int.not_lt.mpr (Int.natCast_nonneg m))
  rw [ofInt, upright, Int.natAbs_natCast]
  obtain ⟨x, came⟩ : ∃ x, ofRatio false m 1 = some x :=
    exists_ofRatio false (by rw [Nat.div_one, log2_mul_one positive]; omega)
  exact ⟨x, came, clamp_trunc_of_beyond reaches came⟩

end Binary64

namespace Envelope

/-- A number that is written as an integer comes out as the nearest version that fits, also where it
is rounded to a double on the way. -/
theorem versionOfNumber_int {n : Int} (low : Integer64.least ≤ n)
    (high : n ≤ Integer64.greatestUnsigned) :
    versionOfNumber (.int n) = some (Integer64.clamp n) := by
  rw [versionOfNumber]
  by_cases fits : Integer64.fits n = true
  · rw [if_pos fits, Integer64.clamp_of_fits fits]
  · -- beyond the signed word the double may be off, but not by so much that it would fit
    obtain ⟨x, came, same⟩ := Binary64.exists_ofInt_of_unfit fits low high
    rw [if_neg fits, came, Option.map_some, truncated, same]

end Envelope
end Multicall
