import ExprHeap.Config.Environment
import Mathlib.Algebra.Order.Field.Rat
import Mathlib.Algebra.Order.Group.Unbundled.Int
import Mathlib.Algebra.Order.Field.Power
import Mathlib.Tactic.FieldSimp
import Mathlib.Tactic.Linarith
import Mathlib.Tactic.NormNum
import Mathlib.Tactic.Positivity
import Mathlib.Tactic.Ring

/-!
# The numbers that singles denote

A finite single denotes a rational number.  Without its sign bit a pattern is a *magnitude*, and
the magnitudes are ordered as the numbers that they denote (`Format.strictMono_valueOf`): counting
one further either raises the significand by one, or starts the next power of two.

From that the test for growth ratios gets its meaning: the patterns that it admits are those of
the finite numbers from one up (`Single.isGrowthRatio_iff`).
-/

namespace ExprHeap.Ieee

/-- The number that a datum denotes, if it is one. -/
def Datum.value? : Datum → Option Rat
  | .finite negative mantissa exponent =>
    some ((if negative then -1 else 1) * mantissa * 2 ^ exponent)
  | .infinite _ => none
  | .notANumber => none

/-- The number that a single denotes, if it is one. -/
def Single.value? (x : Single) : Option Rat := x.datum.value?

namespace Format

variable (format : Format)

/-- How many powers of two above the least the unit of a magnitude is. -/
def binade (magnitude : Nat) : Nat := magnitude / format.leading - 1

/-- The number that a magnitude denotes: so many units. -/
def valueOf (magnitude : Nat) : Rat :=
  ((magnitude - format.binade magnitude * format.leading : Nat) : Rat) *
    2 ^ (format.leastExponent + format.binade magnitude)

variable {format}

theorem leading_pos (format : Format) : 0 < format.leading := by
  rw [leading, Nat.one_shiftLeft]
  exact Nat.two_pow_pos _

/-- A magnitude made of a binade and a significand denotes that many units.  The significand may
be the first of the next binade. -/
theorem valueOf_eq {binade significand : Nat} (hlow : binade = 0 ∨ format.leading ≤ significand)
    (hhigh : significand ≤ 2 * format.leading) :
    format.valueOf (binade * format.leading + significand) =
      significand * 2 ^ (format.leastExponent + binade) := by
  have hpos := format.leading_pos
  rcases hhigh.lt_or_eq with hlt | rfl
  · have hbinade : format.binade (binade * format.leading + significand) = binade := by
      unfold Format.binade
      rw [mul_comm, Nat.mul_add_div hpos]
      rcases hlow with rfl | hle
      · have : significand / format.leading < 2 := Nat.div_lt_of_lt_mul (by omega)
        omega
      · have : significand / format.leading = 1 := Nat.div_eq_of_lt_le (by omega) (by omega)
        omega
    rw [valueOf, hbinade, Nat.add_sub_cancel_left]
  · have hbinade : format.binade (binade * format.leading + 2 * format.leading) = binade + 1 := by
      unfold Format.binade
      rw [← add_mul, Nat.mul_div_cancel _ hpos]
      rfl
    -- with twice the least significand the number is the first of the next binade
    have hunits : binade * format.leading + 2 * format.leading - (binade + 1) * format.leading =
        format.leading := by
      rw [← add_mul, ← Nat.sub_mul]
      have : binade + 2 - (binade + 1) = 1 := by omega
      rw [this, one_mul]
    rw [valueOf, hbinade, hunits, Nat.cast_succ, ← add_assoc, zpow_add_one₀ (by norm_num)]
    push_cast
    ring

/-- Every magnitude is made so. -/
theorem exists_significand (format : Format) (magnitude : Nat) : ∃ significand,
    magnitude = format.binade magnitude * format.leading + significand ∧
      (format.binade magnitude = 0 ∨ format.leading ≤ significand) ∧
      significand < 2 * format.leading := by
  have hpos := format.leading_pos
  have hsplit := Nat.div_add_mod magnitude format.leading
  have hrest := Nat.mod_lt magnitude hpos
  unfold binade
  rcases Nat.eq_zero_or_pos (magnitude / format.leading) with hzero | hpositive
  · refine ⟨magnitude, ?_, ?_, ?_⟩
    · rw [hzero]
      omega
    · omega
    · rw [hzero] at hsplit
      omega
  · -- from the second binade on the leading bit is left out
    obtain ⟨binade, hbinade⟩ := Nat.exists_eq_succ_of_ne_zero hpositive.ne'
    refine ⟨format.leading + magnitude % format.leading, ?_, ?_, ?_⟩
    · rw [hbinade] at hsplit ⊢
      rw [Nat.succ_sub_one, ← add_assoc, ← Nat.succ_mul, mul_comm]
      exact hsplit.symm
    · omega
    · omega

/-- **Magnitudes are ordered as the numbers that they denote.** -/
theorem strictMono_valueOf : StrictMono format.valueOf := by
  refine strictMono_nat_of_lt_succ fun magnitude => ?_
  obtain ⟨significand, hsplit, hlow, hhigh⟩ := format.exists_significand magnitude
  have hunit : (0 : Rat) < 2 ^ (format.leastExponent + format.binade magnitude) := by positivity
  rw [hsplit, add_assoc, valueOf_eq hlow hhigh.le,
    valueOf_eq (hlow.imp_right Nat.le_succ_of_le) hhigh]
  exact mul_lt_mul_of_pos_right (by exact_mod_cast Nat.lt_succ_self significand) hunit

theorem valueOf_nonneg (format : Format) (magnitude : Nat) : 0 ≤ format.valueOf magnitude := by
  unfold valueOf
  positivity

/-! ### Patterns -/

variable {bits : Nat}

/-- **A pattern below infinity denotes the number of its magnitude, with its sign.** -/
theorem decode_of_lt (hfinite : format.magnitude bits < format.infinity) :
    ∃ mantissa exponent,
      format.decode bits = .finite (format.isNegative bits) mantissa exponent ∧
        (mantissa : Rat) * 2 ^ exponent = format.valueOf (format.magnitude bits) := by
  have hsplit := Nat.div_add_mod (format.magnitude bits) format.leading
  unfold decode
  dsimp only
  rw [if_neg hfinite.not_gt, if_neg hfinite.ne]
  split
  · rename_i hzero
    have hfraction : format.magnitude bits % format.leading = format.magnitude bits := by
      rw [hzero] at hsplit
      omega
    refine ⟨_, _, rfl, ?_⟩
    simp only [valueOf, binade, hzero, hfraction, Nat.zero_sub, zero_mul, Nat.sub_zero,
      Nat.cast_zero, add_zero]
  · rename_i hnormal
    obtain ⟨binade, hbinade⟩ := Nat.exists_eq_succ_of_ne_zero hnormal
    -- in a normal number the fraction comes on top of the leading bit
    have hmantissa : format.magnitude bits - binade * format.leading =
        format.leading + format.magnitude bits % format.leading := by
      rw [hbinade, Nat.mul_succ, mul_comm] at hsplit
      omega
    refine ⟨_, _, rfl, ?_⟩
    simp only [valueOf, Format.binade, hbinade, Nat.succ_sub_one, hmantissa]

theorem decode_infinity (hinfinite : format.magnitude bits = format.infinity) :
    format.decode bits = .infinite (format.isNegative bits) := by
  unfold decode
  dsimp only
  rw [if_neg hinfinite.not_gt, if_pos hinfinite]

theorem decode_of_gt (hnone : format.infinity < format.magnitude bits) :
    format.decode bits = .notANumber :=
  if_pos hnone

theorem value?_decode (format : Format) (bits : Nat) : (format.decode bits).value? =
    if format.magnitude bits < format.infinity then
      some ((if format.isNegative bits then -1 else 1) * format.valueOf (format.magnitude bits))
    else none := by
  rcases lt_trichotomy (format.magnitude bits) format.infinity with hfinite | hinfinite | hnone
  · obtain ⟨mantissa, exponent, hdecode, hvalue⟩ := decode_of_lt hfinite
    rw [if_pos hfinite, hdecode, ← hvalue, ← mul_assoc]
    rfl
  · rw [if_neg hinfinite.not_lt, decode_infinity hinfinite]
    rfl
  · rw [if_neg hnone.not_gt, decode_of_gt hnone]
    rfl

end Format

/-! ### Growth ratios -/

/-- The magnitude of one. -/
theorem valueOf_one : single.valueOf 0x3F800000 = 1 := by
  have hone : (0x3F800000 : Nat) = 126 * single.leading + single.leading := by decide
  have hleading : single.leading = 2 ^ 23 := by decide
  rw [hone, Format.valueOf_eq (.inr le_rfl) (by omega), hleading]
  norm_num [single]

/-- **The growth ratios are the finite numbers from one up.** -/
theorem Single.isGrowthRatio_iff (x : Single) :
    x.isGrowthRatio = true ↔ ∃ ratio, x.value? = some ratio ∧ 1 ≤ ratio := by
  have hmagnitude : single.magnitude x.bits.toNat = x.bits.toNat % 0x80000000 := rfl
  have hinfinity : single.infinity = 0x7F800000 := rfl
  have hnegative : single.isNegative x.bits.toNat = true ↔ 0x80000000 ≤ x.bits.toNat := by
    rw [Format.isNegative, decide_eq_true_iff]
    rfl
  have hone (magnitude : Nat) : 1 ≤ single.valueOf magnitude ↔ 0x3F800000 ≤ magnitude := by
    rw [← valueOf_one, Format.strictMono_valueOf.le_iff_le]
  have hratio : x.isGrowthRatio = true ↔
      0x3F800000 ≤ x.bits.toNat ∧ x.bits.toNat < 0x7F800000 := by
    simp [isGrowthRatio, hinfinity]
  rw [hratio, value?, datum, Format.value?_decode, hinfinity]
  constructor
  · rintro ⟨hlow, hhigh⟩
    have hsame : single.magnitude x.bits.toNat = x.bits.toNat := by omega
    have hpositive : ¬ single.isNegative x.bits.toNat = true := by
      rw [hnegative]
      omega
    rw [if_pos (by omega), if_neg hpositive, one_mul, hsame]
    exact ⟨_, rfl, (hone _).mpr hlow⟩
  · rintro ⟨ratio, hvalue, hle⟩
    split at hvalue
    · obtain rfl := Option.some.inj hvalue
      by_cases hsign : single.isNegative x.bits.toNat = true
      · -- with a sign the number is not positive
        rw [if_pos hsign] at hle
        linarith [single.valueOf_nonneg (single.magnitude x.bits.toNat)]
      · rw [if_neg hsign, one_mul, hone] at hle
        rw [hnegative] at hsign
        omega
    · cases hvalue

end ExprHeap.Ieee
