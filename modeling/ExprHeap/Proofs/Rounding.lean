import ExprHeap.Proofs.Singles
import Mathlib.Algebra.Order.Floor.Semifield
import Mathlib.Data.Rat.Floor

/-!
# Rounding to the nearest number of a format

A positive quotient is rounded by counting it in units, a power of two chosen so that the count has
as many bits as the format holds, and by taking the nearest count.  Here the rounding is told from
outside, by two facts about the number that comes out (`Format.Rounds`): how far it can be from the
exact one, and that it does not cross a number that the format holds exactly, of which the counts
of at most as many bits are enough here.

Neither depends on where the exponents end, so the largest numbers are left to the end:
`Single.Reads` says of a single that it has this value or, past the end, is infinite.  Cut down to a
count of at most 64 bits the two are the same (`Single.Reads.toCount_eq`).
-/

namespace ExprHeap.Ieee

/-! ### Powers of two and nearest integers -/

theorem powerOfTwo_pos (exponent : Int) :
    0 < (powerOfTwo exponent).1 ∧ 0 < (powerOfTwo exponent).2 := by
  simp only [powerOfTwo, Nat.one_shiftLeft]
  exact ⟨Nat.two_pow_pos _, Nat.two_pow_pos _⟩

theorem powerOfTwo_div (exponent : Int) :
    ((powerOfTwo exponent).1 : Rat) / (powerOfTwo exponent).2 = 2 ^ exponent := by
  simp only [powerOfTwo, Nat.one_shiftLeft]
  push_cast
  rw [← zpow_natCast, ← zpow_natCast, ← zpow_sub₀ (by norm_num)]
  congr 1
  omega

section NearestEven

variable {numerator denominator : Nat}

theorem nearestEven_spec (numerator : Nat) (hpos : 0 < denominator) :
    2 * (nearestEven numerator denominator * denominator) ≤ 2 * numerator + denominator ∧
      2 * numerator ≤ 2 * (nearestEven numerator denominator * denominator) + denominator := by
  have hsplit := Nat.div_add_mod numerator denominator
  have hrest := Nat.mod_lt numerator hpos
  unfold nearestEven
  dsimp only
  split
  · rename_i hup
    rw [Bool.or_eq_true, decide_eq_true_iff, Bool.and_eq_true, beq_iff_eq] at hup
    rw [add_mul, one_mul, mul_comm (numerator / denominator)]
    omega
  · rename_i hdown
    rw [Bool.or_eq_true, decide_eq_true_iff, not_or] at hdown
    rw [mul_comm (numerator / denominator)]
    omega

/-- An integer below the quotient is not above the nearest one. -/
theorem le_nearestEven (hpos : 0 < denominator) {count : Nat}
    (hle : count * denominator ≤ numerator) : count ≤ nearestEven numerator denominator := by
  have hspec := (nearestEven_spec numerator hpos).2
  by_contra hlt
  have hgap : (nearestEven numerator denominator + 1) * denominator ≤ count * denominator :=
    Nat.mul_le_mul_right _ (by omega)
  rw [add_mul, one_mul] at hgap
  omega

/-- An integer above the quotient is not below the nearest one. -/
theorem nearestEven_le (hpos : 0 < denominator) {count : Nat}
    (hle : numerator ≤ count * denominator) : nearestEven numerator denominator ≤ count := by
  have hspec := (nearestEven_spec numerator hpos).1
  by_contra hlt
  have hgap : (count + 1) * denominator ≤ nearestEven numerator denominator * denominator :=
    Nat.mul_le_mul_right _ (by omega)
  rw [add_mul, one_mul] at hgap
  omega

end NearestEven

namespace Format

variable {format : Format} {numerator denominator : Nat}

/-! ### The unit -/

/-- Counts of units are compared with the quotient in exact integers. -/
theorem count_le_iff (exponent : Int) (hdenominator : 0 < denominator) (count : Nat) :
    count * (denominator * (powerOfTwo exponent).1) ≤ numerator * (powerOfTwo exponent).2 ↔
      (count : Rat) * 2 ^ exponent ≤ numerator / denominator := by
  have hdenominator' : (0 : Rat) < denominator := by exact_mod_cast hdenominator
  have hdown : (0 : Rat) < (powerOfTwo exponent).2 := by
    exact_mod_cast (powerOfTwo_pos exponent).2
  rw [← powerOfTwo_div, mul_div_assoc', div_le_div_iff₀ hdown hdenominator',
    ← Nat.cast_le (α := Rat)]
  push_cast
  rw [mul_comm (denominator : Rat), mul_assoc]

theorem le_count_iff (exponent : Int) (hdenominator : 0 < denominator) (count : Nat) :
    numerator * (powerOfTwo exponent).2 ≤ count * (denominator * (powerOfTwo exponent).1) ↔
      (numerator / denominator : Rat) ≤ count * 2 ^ exponent := by
  have hdenominator' : (0 : Rat) < denominator := by exact_mod_cast hdenominator
  have hdown : (0 : Rat) < (powerOfTwo exponent).2 := by
    exact_mod_cast (powerOfTwo_pos exponent).2
  rw [← powerOfTwo_div, mul_div_assoc', div_le_div_iff₀ hdenominator' hdown,
    ← Nat.cast_le (α := Rat)]
  push_cast
  rw [mul_comm (denominator : Rat), mul_assoc]

theorem log2_bounds {n : Nat} (hpos : 0 < n) :
    (2 : Rat) ^ (Nat.log2 n : Int) ≤ n ∧ (n : Rat) < 2 ^ (Nat.log2 n + 1 : Int) := by
  constructor
  · rw [zpow_natCast]
    exact_mod_cast Nat.log2_self_le hpos.ne'
  · exact_mod_cast Nat.lt_log2_self (n := n)

theorem cast_leading : (format.leading : Rat) = 2 ^ (format.precision - 1 : Nat) := by
  rw [leading, Nat.one_shiftLeft]
  push_cast
  rfl

/-- What the bits of the two integers say about their quotient. -/
theorem estimate_spec (format : Format) (hnumerator : 0 < numerator)
    (hdenominator : 0 < denominator) :
    let estimate : Int :=
      Nat.log2 numerator - Nat.log2 denominator - (format.precision - 1 : Nat)
    format.leading * 2 ^ (estimate - 1) ≤ (numerator / denominator : Rat) ∧
      (numerator / denominator : Rat) < 2 * format.leading * 2 ^ estimate := by
  intro estimate
  -- the logarithms are cut down, so the estimate is off by a factor of two at most
  obtain ⟨hnumeratorLow, hnumeratorHigh⟩ := log2_bounds hnumerator
  obtain ⟨hdenominatorLow, hdenominatorHigh⟩ := log2_bounds hdenominator
  have hpos : (0 : Rat) < denominator := by exact_mod_cast hdenominator
  have htwo : (2 : Rat) ≠ 0 := by norm_num
  rw [cast_leading, ← zpow_natCast]
  constructor
  · rw [le_div_iff₀ hpos, ← zpow_add₀ htwo]
    calc (2 : Rat) ^ (((format.precision - 1 : Nat) : Int) + (estimate - 1)) * denominator
        ≤ 2 ^ (((format.precision - 1 : Nat) : Int) + (estimate - 1)) *
            2 ^ (Nat.log2 denominator + 1 : Int) :=
          mul_le_mul_of_nonneg_left hdenominatorHigh.le (by positivity)
      _ = 2 ^ (Nat.log2 numerator : Int) := by
          rw [← zpow_add₀ htwo]
          congr 1
          omega
      _ ≤ numerator := hnumeratorLow
  · rw [div_lt_iff₀ hpos]
    calc (numerator : Rat) < 2 ^ (Nat.log2 numerator + 1 : Int) := hnumeratorHigh
      _ = 2 * 2 ^ ((format.precision - 1 : Nat) : Int) * 2 ^ estimate *
            2 ^ (Nat.log2 denominator : Int) := by
          rw [mul_assoc, mul_assoc, ← zpow_add₀ htwo, ← zpow_add₀ htwo, ← zpow_one_add₀ htwo]
          congr 1
          omega
      _ ≤ 2 * 2 ^ ((format.precision - 1 : Nat) : Int) * 2 ^ estimate * denominator :=
          mul_le_mul_of_nonneg_left hdenominatorLow (by positivity)

/-- The quotient, counted in its unit, has as many bits as the format holds, or fewer if there is no
smaller unit. -/
theorem unitExponent_spec (format : Format) (hnumerator : 0 < numerator)
    (hdenominator : 0 < denominator) :
    let unit := (2 : Rat) ^ format.unitExponent numerator denominator
    format.leastExponent ≤ format.unitExponent numerator denominator ∧
      (numerator / denominator : Rat) < 2 * format.leading * unit ∧
      (format.unitExponent numerator denominator = format.leastExponent ∨
        format.leading * unit ≤ (numerator / denominator : Rat)) := by
  intro unit
  obtain ⟨hlow, hhigh⟩ := format.estimate_spec hnumerator hdenominator
  let estimate : Int := Nat.log2 numerator - Nat.log2 denominator - (format.precision - 1 : Nat)
  have htest : numerator * (powerOfTwo estimate).2 <
      denominator * (powerOfTwo estimate).1 * format.leading ↔
        (numerator / denominator : Rat) < format.leading * 2 ^ estimate := by
    rw [mul_comm _ format.leading, ← not_le, count_le_iff estimate hdenominator, not_le]
  -- before the least unit is looked at
  obtain ⟨exponent, hexponent, hfits, hfull⟩ : ∃ exponent : Int,
      format.unitExponent numerator denominator = max exponent format.leastExponent ∧
      (numerator / denominator : Rat) < 2 * format.leading * 2 ^ exponent ∧
      format.leading * 2 ^ exponent ≤ (numerator / denominator : Rat) := by
    by_cases hsmall : (numerator / denominator : Rat) < format.leading * 2 ^ estimate
    · refine ⟨estimate - 1, ?_, ?_, hlow⟩
      · exact congrArg (max · format.leastExponent) (if_pos (htest.mpr hsmall))
      · rw [zpow_sub_one₀ (by norm_num)]
        linarith
    · refine ⟨estimate, ?_, hhigh, not_lt.mp hsmall⟩
      exact congrArg (max · format.leastExponent) (if_neg (htest.not.mpr hsmall))
  have hunit : unit = 2 ^ max exponent format.leastExponent := congrArg ((2 : Rat) ^ ·) hexponent
  rw [hexponent, hunit]
  refine ⟨le_max_right _ _, hfits.trans_le ?_, ?_⟩
  · exact mul_le_mul_of_nonneg_left (zpow_le_zpow_right₀ (by norm_num) (le_max_left _ _))
      (by positivity)
  · rcases le_total format.leastExponent exponent with hle | hle
    · rw [max_eq_left hle]
      exact .inr hfull
    · exact .inl (max_eq_right hle)

/-! ### The nearest number -/

/-- How many units are nearest to a quotient. -/
def units (format : Format) (numerator denominator : Nat) : Nat :=
  nearestEven (numerator * (powerOfTwo (format.unitExponent numerator denominator)).2)
    (denominator * (powerOfTwo (format.unitExponent numerator denominator)).1)

/-- The number that a quotient is rounded to, wherever the exponents end. -/
def nearest (format : Format) (numerator denominator : Nat) : Rat :=
  format.units numerator denominator * 2 ^ format.unitExponent numerator denominator

/-- The magnitude that a quotient is rounded to, were there room for it. -/
def nearestMagnitude (format : Format) (numerator denominator : Nat) : Nat :=
  (format.unitExponent numerator denominator - format.leastExponent).toNat * format.leading +
    format.units numerator denominator

theorem round_eq_min (format : Format) (numerator denominator : Nat) :
    format.round numerator denominator =
      min (format.nearestMagnitude numerator denominator) format.infinity := rfl

section Positive

variable (hnumerator : 0 < numerator) (hdenominator : 0 < denominator)

include hdenominator

theorem le_units {count : Nat} (hle : (count : Rat) *
    2 ^ format.unitExponent numerator denominator ≤ numerator / denominator) :
    count ≤ format.units numerator denominator :=
  le_nearestEven (Nat.mul_pos hdenominator (powerOfTwo_pos _).1)
    ((count_le_iff _ hdenominator count).mpr hle)

theorem units_le {count : Nat} (hle : (numerator / denominator : Rat) ≤
    count * 2 ^ format.unitExponent numerator denominator) :
    format.units numerator denominator ≤ count :=
  nearestEven_le (Nat.mul_pos hdenominator (powerOfTwo_pos _).1)
    ((le_count_iff _ hdenominator count).mpr hle)

/-- The nearest number is at most half a unit away. -/
theorem abs_nearest_sub_le : |format.nearest numerator denominator - numerator / denominator| ≤
    2 ^ format.unitExponent numerator denominator / 2 := by
  let exponent := format.unitExponent numerator denominator
  obtain ⟨hup, hdown⟩ := powerOfTwo_pos exponent
  obtain ⟨hlow, hhigh⟩ := nearestEven_spec (numerator * (powerOfTwo exponent).2)
    (Nat.mul_pos hdenominator hup)
  have hdenominator' : (0 : Rat) < denominator := by exact_mod_cast hdenominator
  have hdown' : (0 : Rat) < (powerOfTwo exponent).2 := by exact_mod_cast hdown
  have hunits : (nearestEven (numerator * (powerOfTwo exponent).2)
      (denominator * (powerOfTwo exponent).1) : Rat) = format.units numerator denominator := rfl
  have hpower : (2 : Rat) ^ exponent * (powerOfTwo exponent).2 = (powerOfTwo exponent).1 := by
    rw [← powerOfTwo_div, div_mul_cancel₀ _ hdown'.ne']
  rw [← Nat.cast_le (α := Rat)] at hlow hhigh
  push_cast at hlow hhigh
  rw [hunits, ← hpower] at hlow hhigh
  -- both bounds, scaled by the denominators
  have hscale : (0 : Rat) < denominator * (powerOfTwo exponent).2 := mul_pos hdenominator' hdown'
  have hquotient : (numerator : Rat) / denominator * (denominator * (powerOfTwo exponent).2) =
      numerator * (powerOfTwo exponent).2 := by
    rw [← mul_assoc, div_mul_cancel₀ _ hdenominator'.ne']
  rw [abs_le]
  constructor
  · refine le_of_mul_le_mul_right ?_ hscale
    rw [sub_mul, hquotient, nearest]
    linarith
  · refine le_of_mul_le_mul_right ?_ hscale
    rw [sub_mul, hquotient, nearest]
    linarith

include hnumerator

theorem units_bounds (format : Format) : format.units numerator denominator ≤ 2 * format.leading ∧
    (format.unitExponent numerator denominator = format.leastExponent ∨
      format.leading ≤ format.units numerator denominator) := by
  obtain ⟨-, hhigh, hlow⟩ := format.unitExponent_spec hnumerator hdenominator
  refine ⟨units_le hdenominator ?_, hlow.imp_right (le_units hdenominator)⟩
  push_cast
  exact hhigh.le

theorem valueOf_nearestMagnitude :
    format.valueOf (format.nearestMagnitude numerator denominator) =
      format.nearest numerator denominator := by
  obtain ⟨hleast, -⟩ := format.unitExponent_spec hnumerator hdenominator
  obtain ⟨hhigh, hlow⟩ := format.units_bounds hnumerator hdenominator
  rw [nearestMagnitude, valueOf_eq (hlow.imp_left fun h => by rw [h, sub_self]; rfl) hhigh, nearest,
    Int.toNat_of_nonneg (by omega), add_sub_cancel]

end Positive

/-! ### What rounding does to a number -/

/-- One number is the other, rounded: it is off by half a unit at most, and it stays on the same
side of every count that the format holds exactly. -/
structure Rounds (format : Format) (exact rounded : Rat) : Prop where
  error : |rounded - exact| * (2 * format.leading) ≤ exact
  lower : ∀ count : Nat, count ≤ 2 * format.leading → (count : Rat) ≤ exact → count ≤ rounded
  upper : ∀ count : Nat, count ≤ 2 * format.leading → exact ≤ count → rounded ≤ count

/-- With a unit that is no fraction of one, a count is so many units. -/
theorem exists_count {exponent : Int} (hexponent : exponent ≤ 0) (count : Nat) :
    ((count * 2 ^ (-exponent).toNat : Nat) : Rat) * 2 ^ exponent = count := by
  push_cast
  rw [mul_assoc, ← zpow_natCast, ← zpow_add₀ (by norm_num), Int.toNat_of_nonneg (by omega),
    neg_add_cancel, zpow_zero, mul_one]

/-- **The nearest number to one that is not below the least full significand.** -/
theorem rounds_nearest (hnumerator : 0 < numerator) (hdenominator : 0 < denominator)
    (hnormal : format.leading * 2 ^ format.leastExponent ≤ (numerator / denominator : Rat)) :
    format.Rounds (numerator / denominator) (format.nearest numerator denominator) := by
  let exponent := format.unitExponent numerator denominator
  obtain ⟨-, -, hfull⟩ := format.unitExponent_spec hnumerator hdenominator
  replace hfull : format.leading * 2 ^ exponent ≤ (numerator / denominator : Rat) := by
    rcases hfull with heq | hfull
    · rwa [show exponent = format.leastExponent from heq]
    · exact hfull
  have hleading : format.leading ≤ format.units numerator denominator :=
    le_units hdenominator hfull
  have hunit : (0 : Rat) < 2 ^ exponent := by positivity
  have hlarge : 0 < exponent → (2 : Rat) ≤ 2 ^ exponent := fun hpos => by
    have hone := zpow_le_zpow_right₀ (a := (2 : Rat)) (by norm_num) (Int.add_one_le_iff.mpr hpos)
    simpa using hone
  refine ⟨?_, fun count hcount hle => ?_, fun count hcount hle => ?_⟩
  · calc |format.nearest numerator denominator - numerator / denominator| * (2 * format.leading)
        ≤ 2 ^ exponent / 2 * (2 * format.leading) :=
          mul_le_mul_of_nonneg_right (abs_nearest_sub_le hdenominator) (by positivity)
      _ = format.leading * 2 ^ exponent := by ring
      _ ≤ numerator / denominator := hfull
  · rcases le_or_gt exponent 0 with hsmall | hpos
    · rw [← exists_count hsmall count] at hle ⊢
      exact mul_le_mul_of_nonneg_right (by exact_mod_cast le_units hdenominator hle) hunit.le
    · -- what is left is below the first number with such a unit
      calc (count : Rat) ≤ format.leading * 2 := by rw [mul_comm]; exact_mod_cast hcount
        _ ≤ format.leading * 2 ^ exponent :=
          mul_le_mul_of_nonneg_left (hlarge hpos) (by positivity)
        _ ≤ format.nearest numerator denominator :=
          mul_le_mul_of_nonneg_right (by exact_mod_cast hleading) hunit.le
  · rcases le_or_gt exponent 0 with hsmall | hpos
    · rw [← exists_count hsmall count] at hle ⊢
      exact mul_le_mul_of_nonneg_right (by exact_mod_cast units_le hdenominator hle) hunit.le
    · -- only the first number with such a unit is no larger
      have hbound : (count : Rat) ≤ format.leading * 2 ^ exponent := by
        calc (count : Rat) ≤ format.leading * 2 := by rw [mul_comm]; exact_mod_cast hcount
          _ ≤ format.leading * 2 ^ exponent :=
            mul_le_mul_of_nonneg_left (hlarge hpos) (by positivity)
      have hunits : format.units numerator denominator ≤ format.leading :=
        units_le hdenominator (hle.trans hbound)
      calc format.nearest numerator denominator
          ≤ format.leading * 2 ^ exponent :=
            mul_le_mul_of_nonneg_right (by exact_mod_cast hunits) hunit.le
        _ ≤ count := hfull.trans hle

theorem rounds_self {exact : Rat} (hnonneg : 0 ≤ exact) : format.Rounds exact exact where
  error := by simpa using hnonneg
  lower _ _ hle := hle
  upper _ _ hle := hle

end Format

/-! ### Singles -/

/-- What infinity would be if the exponents went on. -/
theorem valueOf_infinity : single.valueOf single.infinity = 2 ^ 128 := by
  have hinfinity : single.infinity = 254 * single.leading + single.leading := by decide
  have hleading : single.leading = 2 ^ 23 := by decide
  rw [hinfinity, Format.valueOf_eq (.inr le_rfl) (by omega), hleading]
  norm_num [single]

namespace Single

/-- The single has this value, or it is infinite and the value past the largest single. -/
def Reads (x : Single) (value : Rat) : Prop :=
  (∃ mantissa exponent, x.datum = .finite false mantissa exponent ∧
      (mantissa : Rat) * 2 ^ exponent = value) ∨
    (x.datum = .infinite false ∧ 2 ^ 128 ≤ value)

variable {x y : Single} {value ratio : Rat}

/-- The magnitude of a number is the pattern that reads it. -/
theorem reads_ofMagnitude (magnitude : Nat) :
    (ofMagnitude false (min magnitude single.infinity)).Reads (single.valueOf magnitude) := by
  have hbelow : min magnitude single.infinity < single.signBit :=
    (min_le_right _ _).trans_lt (by decide)
  have hbits : (ofMagnitude false (min magnitude single.infinity)).bits.toNat =
      min magnitude single.infinity := UInt32.toNat_ofNat_of_lt' (hbelow.trans (by decide))
  have hsame : single.magnitude (min magnitude single.infinity) = min magnitude single.infinity :=
    Nat.mod_eq_of_lt hbelow
  have hpositive : single.isNegative (min magnitude single.infinity) = false :=
    decide_eq_false hbelow.not_ge
  unfold Reads datum
  rw [hbits]
  -- past the largest number every magnitude is written as infinity
  rcases lt_or_ge magnitude single.infinity with hfinite | hinfinite
  · rw [min_eq_left hfinite.le] at hsame hpositive ⊢
    obtain ⟨mantissa, exponent, hdecode, hvalue⟩ :=
      Format.decode_of_lt (hsame.trans_lt hfinite)
    rw [hpositive] at hdecode
    rw [hsame] at hvalue
    exact .inl ⟨mantissa, exponent, hdecode, hvalue⟩
  · rw [min_eq_right hinfinite] at hsame hpositive ⊢
    rw [Format.decode_infinity hsame, hpositive, ← valueOf_infinity]
    exact .inr ⟨rfl, Format.strictMono_valueOf.monotone hinfinite⟩

/-- **Cutting a single down to a count** leaves the integer part of what it reads. -/
theorem Reads.toCount_eq (hreads : x.Reads value) {bound : Nat} (hbound : bound ≤ 2 ^ 128) :
    x.toCount bound = min ⌊value⌋₊ (bound - 1) := by
  unfold toCount
  rcases hreads with ⟨mantissa, exponent, hdatum, rfl⟩ | ⟨hdatum, hlarge⟩
  · rw [hdatum, ← powerOfTwo_div, ← mul_div_assoc, ← Nat.cast_mul, Nat.floor_div_eq_div]
  · rw [hdatum]
    have hfloor : 2 ^ 128 ≤ ⌊value⌋₊ := Nat.le_floor (by exact_mod_cast hlarge)
    exact (min_eq_right (show bound - 1 ≤ ⌊value⌋₊ by omega)).symm

/-- A number that is nothing or at least one is rounded as it should be. -/
theorem exists_rounds_ofScaled {mantissa : Nat} {exponent : Int}
    (hvalue : (mantissa : Rat) * 2 ^ exponent = value) (hnormal : value = 0 ∨ 1 ≤ value) :
    ∃ rounded, single.Rounds value rounded ∧ (ofScaled false mantissa exponent).Reads rounded := by
  subst hvalue
  unfold ofScaled
  split
  · rename_i hzero
    refine ⟨0, ?_, ?_⟩
    · rw [hzero, Nat.cast_zero, zero_mul]
      exact Format.rounds_self le_rfl
    · have hreads := reads_ofMagnitude 0
      rwa [Format.valueOf, Nat.zero_sub, Nat.cast_zero, zero_mul] at hreads
  · rename_i hnonzero
    obtain ⟨hup, hdown⟩ := powerOfTwo_pos exponent
    have hnumerator : 0 < mantissa * (powerOfTwo exponent).1 :=
      Nat.mul_pos (Nat.pos_of_ne_zero hnonzero) hup
    have hquotient : ((mantissa * (powerOfTwo exponent).1 : Nat) : Rat) / (powerOfTwo exponent).2 =
        mantissa * 2 ^ exponent := by
      rw [← powerOfTwo_div, ← mul_div_assoc, Nat.cast_mul]
    have hone : (1 : Rat) ≤ mantissa * 2 ^ exponent := by
      refine hnormal.resolve_left (mul_ne_zero ?_ (by positivity))
      exact_mod_cast hnonzero
    -- a value of one and more lies above the subnormal numbers, which are rounded more coarsely
    have hleast : (single.leading : Rat) * 2 ^ single.leastExponent ≤ 1 := by
      have hleading : single.leading = 2 ^ 23 := by decide
      rw [hleading]
      norm_num [single]
    refine ⟨single.nearest (mantissa * (powerOfTwo exponent).1) (powerOfTwo exponent).2, ?_, ?_⟩
    · rw [← hquotient]
      exact Format.rounds_nearest hnumerator hdown (by rw [hquotient]; exact hleast.trans hone)
    · dsimp only
      rw [Format.round_eq_min, ← Format.valueOf_nearestMagnitude hnumerator hdown]
      exact reads_ofMagnitude _

theorem exists_rounds_ofCount (count : Nat) :
    ∃ rounded, single.Rounds count rounded ∧ (ofCount count).Reads rounded := by
  refine exists_rounds_ofScaled (by simp) ?_
  rcases Nat.eq_zero_or_pos count with rfl | hpos
  · exact .inl Nat.cast_zero
  · exact .inr (by exact_mod_cast hpos)

/-- **A product with a growth ratio is the exact one, rounded.** -/
theorem Reads.exists_rounds_mul (hreads : x.Reads value) (hnormal : value = 0 ∨ 1 ≤ value)
    (hratio : y.value? = some ratio) (hone : 1 ≤ ratio) :
    ∃ rounded, single.Rounds (value * ratio) rounded ∧ (x.mul y).Reads rounded := by
  obtain ⟨mantissa, exponent, hdatum, hscaled⟩ : ∃ mantissa exponent,
      y.datum = .finite false mantissa exponent ∧ (mantissa : Rat) * 2 ^ exponent = ratio := by
    unfold value? at hratio
    rcases hy : y.datum with ⟨_ | _, mantissa, exponent⟩ | _ | _
    all_goals rw [hy] at hratio
    · exact ⟨mantissa, exponent, rfl, by simpa [Datum.value?] using hratio⟩
    · -- with a sign the number is not positive
      obtain rfl := Option.some.inj hratio
      have : (0 : Rat) ≤ mantissa * 2 ^ exponent := by positivity
      simp only [if_true, neg_mul, one_mul] at hone
      linarith
    · cases hratio
    · cases hratio
  have hproduct : value * ratio = 0 ∨ 1 ≤ value * ratio :=
    hnormal.imp (fun hzero => by rw [hzero, zero_mul])
      fun hle => one_le_mul_of_one_le_of_one_le hle hone
  unfold mul
  rcases hreads with ⟨mantissa', exponent', hx, hvalue⟩ | ⟨hx, hlarge⟩
  · rw [hx, hdatum]
    refine exists_rounds_ofScaled ?_ hproduct
    rw [← hvalue, ← hscaled, zpow_add₀ (by norm_num)]
    push_cast
    ring
  · have hmantissa : mantissa ≠ 0 := by
      rintro rfl
      rw [Nat.cast_zero, zero_mul] at hscaled
      linarith
    have hbound : (0 : Rat) ≤ 2 ^ 128 := by positivity
    -- infinity stands for any value past the numbers, and a factor of one and more leaves it there
    have hpast : 2 ^ 128 ≤ value * ratio :=
      hlarge.trans (le_mul_of_one_le_right (hbound.trans hlarge) hone)
    refine ⟨value * ratio, Format.rounds_self (hbound.trans hpast), ?_⟩
    rw [hx, hdatum]
    dsimp only
    rw [if_neg hmantissa]
    exact .inr ⟨by decide, hpast⟩

end Single

end ExprHeap.Ieee
