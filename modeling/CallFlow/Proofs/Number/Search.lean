import Mathlib.Tactic.Ring
import CallFlow.Proofs.Number.Rounding

/-!
# The digits that are found read back

A fraction is written with the first point of a grid that reads back as it. A
point that is taken from a grid does (`Shortest.holdsPoint_of_onGrid`), and of
the last grid, that of seventeen digits, one is taken: the grid is finer than
the ratios that read back reach, so of its two points around the fraction one
is among them. So the digits that the search ends with read back as the fraction
(`Shortest.readsBack_digits`).
-/

namespace CallFlow

theorem roundedQuotient_eq_or (num den : Nat) :
    roundedQuotient num den = num / den ∨ roundedQuotient num den = num / den + 1 := by
  unfold roundedQuotient
  dsimp only
  split_ifs <;> simp

/-! ## The first digit -/

theorem lt_pow_length_decimalDigits (n : Nat) : n < 10 ^ (decimalDigits n).length :=
  (Nat.length_toDigits_le_iff (by decide) Nat.length_toDigits_pos).mp (Nat.le_refl _)

/-- A positive number is not below the power of ten that has as many digits. -/
theorem pow_length_decimalDigits_le {n : Nat} (hn : 0 < n) :
    10 ^ ((decimalDigits n).length - 1) ≤ n := by
  by_contra hlt
  have hone : (decimalDigits n).length - 1 ≠ 0 := by
    intro hzero
    rw [hzero] at hlt
    omega
  have hfewer := (Nat.length_toDigits_le_iff (b := 10) (by decide) (by omega)).mpr
    (Nat.lt_of_not_le hlt)
  rw [← decimalDigits] at hfewer
  omega

/-- **The power of ten of a ratio's first digit is not above the ratio.** -/
theorem zpow_leadingPower_le {num den : Nat} (hnum : 0 < num) (hden : 0 < den) :
    (10 : ℚ) ^ leadingPower num den ≤ num / den := by
  have hden' : (0 : ℚ) < den := by exact_mod_cast hden
  rw [le_div_iff₀ hden']
  unfold leadingPower
  split
  next hle =>
    have hpow := pow_length_decimalDigits_le (Nat.div_pos hle hden)
    have hpos : 0 < (decimalDigits (num / den)).length := Nat.length_toDigits_pos
    rw [← Nat.cast_pred hpos, zpow_natCast]
    exact_mod_cast (Nat.mul_le_mul_right den hpow).trans (Nat.div_mul_le_self num den)
  next =>
    dsimp only
    have hpow := (Nat.div_lt_iff_lt_mul hnum).mp (lt_pow_length_decimalDigits (den / num))
    have hpos : 0 < (decimalDigits (den / num)).length := Nat.length_toDigits_pos
    generalize (decimalDigits (den / num)).length = places at *
    split
    next heq =>
      obtain ⟨k, rfl⟩ := Nat.exists_eq_succ_of_ne_zero hpos.ne'
      rw [heq, Nat.pow_eq, Nat.succ_sub_one, show 1 - ((k.succ : Nat) : Int) = -(k : Int) by omega,
        zpow_neg, zpow_natCast]
      push_cast
      field_simp
      exact le_refl _
    next =>
      rw [zpow_neg, zpow_natCast, inv_mul_le_iff₀ (by positivity)]
      exact_mod_cast hpow.le

/-! ## Points of a grid -/

namespace Shortest

/-- The number a fraction stands for. -/
def value (m : Nat) (q : Int) : ℚ := m * 2 ^ q

/-- The distance of the points of a grid, as a ratio. -/
def gridUnit (power : Int) : Nat × Nat :=
  if 0 ≤ power then (Nat.pow 10 power.toNat, 1) else (1, Nat.pow 10 (-power).toNat)

/-- The distance of the points is a power of ten. -/
theorem gridUnit_spec (power : Int) :
    0 < (gridUnit power).2 ∧ ((gridUnit power).1 : ℚ) / (gridUnit power).2 = 10 ^ power := by
  unfold gridUnit
  split
  next hpos =>
    obtain ⟨n, rfl⟩ := Int.eq_ofNat_of_zero_le hpos
    refine ⟨Nat.one_pos, ?_⟩
    simp
  next hneg =>
    obtain ⟨n, rfl⟩ : ∃ n : Nat, power = -n := ⟨(-power).toNat, by omega⟩
    refine ⟨Nat.pow_pos (by decide), ?_⟩
    simp [zpow_neg]

/-- The last point of a grid up to the fraction. -/
def gridPoint (i : Interval) (power : Int) : Nat :=
  i.value * (gridUnit power).2 / (i.den * (gridUnit power).1)

/-- Whether a point of a grid lies in the interval. -/
def Interval.holdsPoint (i : Interval) (power : Int) (point : Nat) : Bool :=
  i.holds (point * (gridUnit power).1) (gridUnit power).2

/-- **Which point is taken from a grid**: that one or the next. -/
theorem onGrid_eq (i : Interval) (power : Int) :
    onGrid i power
      = if i.holdsPoint power (gridPoint i power) && i.holdsPoint power (gridPoint i power + 1) then
          some (roundedQuotient (i.value * (gridUnit power).2) (i.den * (gridUnit power).1))
        else if i.holdsPoint power (gridPoint i power) then some (gridPoint i power)
        else if i.holdsPoint power (gridPoint i power + 1) then some (gridPoint i power + 1)
        else none := rfl

/-- A point that is taken from a grid lies in the interval. -/
theorem holdsPoint_of_onGrid {i : Interval} {power : Int} {point : Nat}
    (h : onGrid i power = some point) : i.holdsPoint power point = true := by
  rw [onGrid_eq] at h
  split_ifs at h with hboth hlower hupper
  · obtain rfl := Option.some.inj h
    rw [Bool.and_eq_true] at hboth
    rcases roundedQuotient_eq_or (i.value * (gridUnit power).2) (i.den * (gridUnit power).1)
      with heq | heq
    · rw [heq]
      exact hboth.1
    · rw [heq]
      exact hboth.2
  · obtain rfl := Option.some.inj h
    exact hlower
  · obtain rfl := Option.some.inj h
    exact hupper

theorem isSome_onGrid_of_holdsPoint {i : Interval} {power : Int}
    (h : i.holdsPoint power (gridPoint i power) = true
      ∨ i.holdsPoint power (gridPoint i power + 1) = true) :
    (onGrid i power).isSome = true := by
  rw [onGrid_eq]
  rcases h with h | h <;> split_ifs <;> simp_all

section Grid

variable {m : Nat} {q : Int}

theorem value_eq (m : Nat) (q : Int) : value m q = 4 * m * 2 ^ (q - 2) := by
  rw [value, zpow_sub₀ (by norm_num)]
  ring

theorem interval_den_pos (m : Nat) (q : Int) : 0 < (interval m q).den :=
  (Shape.ratio_spec 1 (q - 2)).1

theorem value_interval (m : Nat) (q : Int) :
    ((interval m q).value : ℚ) / (interval m q).den = value m q := by
  have hunit := (Shape.ratio_spec 1 (q - 2)).2
  rw [Nat.cast_one, one_mul] at hunit
  rw [value_eq, ← hunit, interval]
  push_cast
  ring

/-- The upper end of an interval is where what reads back ends. -/
theorem upperEnd_interval (m : Nat) (q : Int) :
    (((interval m q).value + (interval m q).above : Nat) : ℚ) / (interval m q).den
      = upperEnd m q := by
  have hunit := (Shape.ratio_spec 1 (q - 2)).2
  rw [Nat.cast_one, one_mul] at hunit
  rw [upperEnd, ← hunit, interval]
  push_cast
  ring

/-- **The fraction lies between two points of a grid that are next to each
other.** -/
theorem gridPoint_spec (m : Nat) (q power : Int) :
    (gridPoint (interval m q) power : ℚ) * 10 ^ power ≤ value m q
      ∧ value m q < (gridPoint (interval m q) power + 1) * 10 ^ power := by
  obtain ⟨hpos, hunit⟩ := gridUnit_spec power
  have hscale : 0 < (gridUnit power).1 := by
    unfold gridUnit
    split
    · exact Nat.pow_pos (by decide)
    · exact Nat.one_pos
  have hden : 0 < (interval m q).den * (gridUnit power).1 :=
    Nat.mul_pos (interval_den_pos m q) hscale
  have hvalue : value m q = ((interval m q).value * (gridUnit power).2 : Nat)
      / ((interval m q).den * (gridUnit power).1 : Nat) * 10 ^ power := by
    have h1 : ((interval m q).den : ℚ) ≠ 0 := by exact_mod_cast (interval_den_pos m q).ne'
    have h2 : ((gridUnit power).1 : ℚ) ≠ 0 := by exact_mod_cast hscale.ne'
    have h3 : ((gridUnit power).2 : ℚ) ≠ 0 := by exact_mod_cast hpos.ne'
    rw [← value_interval, ← hunit]
    push_cast
    field_simp
  have hten : (0 : ℚ) < 10 ^ power := zpow_pos (by norm_num) power
  rw [hvalue, gridPoint]
  have hden' : (0 : ℚ) < ((interval m q).den * (gridUnit power).1 : Nat) := by exact_mod_cast hden
  refine ⟨mul_le_mul_of_nonneg_right ?_ hten.le, mul_lt_mul_of_pos_right ?_ hten⟩
  · rw [le_div_iff₀ hden']
    exact_mod_cast Nat.div_mul_le_self _ _
  · rw [div_lt_iff₀ hden']
    exact_mod_cast Nat.lt_mul_of_div_lt (Nat.lt_succ_self _) hden

variable (hm : 0 < m)

include hm

/-- The lower end of an interval is where what reads back begins. -/
theorem lowerEnd_interval :
    (((interval m q).value - (interval m q).below : Nat) : ℚ) / (interval m q).den
      = lowerEnd m q := by
  have hunit := (Shape.ratio_spec 1 (q - 2)).2
  have hreach := reach_le m q
  rw [Nat.cast_one, one_mul] at hunit
  rw [lowerEnd, ← hunit, interval]
  dsimp only
  rw [← reach, ← Nat.sub_mul]
  push_cast [(by omega : reach m q ≤ 4 * m)]
  ring

/-- **A ratio is held by the interval of a fraction exactly if it reads back as
it.** -/
theorem holds_interval {num den : Nat} (hden : 0 < den) :
    (interval m q).holds num den = true ↔ ReadsBack m q (num / den) := by
  have hden' : (0 : ℚ) < den := by exact_mod_cast hden
  have hpos : (0 : ℚ) < (interval m q).den := by exact_mod_cast interval_den_pos m q
  rw [Interval.holds, ReadsBack, ← lowerEnd_interval hm, ← upperEnd_interval,
    div_le_div_iff₀ hpos hden', div_le_div_iff₀ hden' hpos, div_lt_div_iff₀ hpos hden',
    div_lt_div_iff₀ hden' hpos]
  have hclosed : (interval m q).closed = decide (m % 2 = 0) := rfl
  rw [hclosed]
  by_cases heven : m % 2 = 0
  · rw [if_pos heven, decide_eq_true heven, if_pos rfl, Bool.and_eq_true, decide_eq_true_eq,
      decide_eq_true_eq]
    norm_cast
  · rw [if_neg heven, decide_eq_false heven, if_neg Bool.false_ne_true, Bool.and_eq_true,
      decide_eq_true_eq, decide_eq_true_eq]
    norm_cast

omit hm in
theorem value_between : lowerEnd m q < value m q ∧ value m q < upperEnd m q := by
  have hunit := two_zpow_pos (q - 2)
  have hreach : (1 : ℚ) ≤ reach m q := by
    unfold reach
    split <;> norm_num
  rw [value_eq, lowerEnd, upperEnd]
  constructor <;> nlinarith

theorem holdsPoint_interval {power : Int} {point : Nat} :
    (interval m q).holdsPoint power point = true ↔ ReadsBack m q (point * 10 ^ power) := by
  obtain ⟨hpos, hunit⟩ := gridUnit_spec power
  rw [Interval.holdsPoint, holds_interval hm hpos, Nat.cast_mul, mul_div_assoc, hunit]

/-- **From a grid that is finer than what reads back reaches a point is taken.** -/
theorem isSome_onGrid {power : Int} (hfine : (10 : ℚ) ^ power < upperEnd m q - lowerEnd m q) :
    (onGrid (interval m q) power).isSome = true := by
  obtain ⟨hbegin, hend⟩ := value_between (m := m) (q := q)
  obtain ⟨hlow, hhigh⟩ := gridPoint_spec m q power
  refine isSome_onGrid_of_holdsPoint ?_
  rw [holdsPoint_interval hm, holdsPoint_interval hm]
  -- if the lower point is not between the ends, the upper is
  by_cases hbelow : lowerEnd m q < gridPoint (interval m q) power * 10 ^ power
  · exact .inl (readsBack_of_lt hbelow (by linarith))
  · refine .inr (readsBack_of_lt ?_ ?_) <;> push_cast <;> linarith

/-! ## The search -/

omit hm in
/-- The search ends with a point that is taken from a grid, if one is taken from
the last grid it would look at. -/
theorem onGrid_search {i : Interval} {leading : Int} (fuel count : Nat)
    (h : (onGrid i (leading - (count + fuel : Nat))).isSome = true) :
    onGrid i (search i leading fuel count).power = some (search i leading fuel count).digits := by
  induction fuel generalizing count with
  | zero =>
    obtain ⟨point, hpoint⟩ := Option.isSome_iff_exists.mp h
    rw [Nat.add_zero] at hpoint
    rw [search, hpoint]
    rfl
  | succ fuel ih =>
    rw [search]
    split
    next digits hdigits => exact hdigits
    next =>
      refine ih (count + 1) ?_
      rwa [Nat.add_right_comm, Nat.add_assoc]

/-- **Seventeen digits suffice**: their grid is finer than what reads back reaches. -/
theorem zpow_leading_lt (hnormal : Shape.Normal m q) :
    (10 : ℚ) ^ (leadingPower (interval m q).value (interval m q).den - (16 : Nat))
      < upperEnd m q - lowerEnd m q := by
  have hunit := two_zpow_pos (q - 2)
  have hvalue : 0 < (interval m q).value := by
    have hden : (0 : ℚ) < (interval m q).den := by exact_mod_cast interval_den_pos m q
    have hpos : (0 : ℚ) < (interval m q).value / (interval m q).den := by
      rw [value_interval, value_eq]
      have : (0 : ℚ) < m := by exact_mod_cast hm
      positivity
    have := (div_pos_iff_of_pos_right hden).mp hpos
    exact_mod_cast this
  have hleading := zpow_leadingPower_le hvalue (interval_den_pos m q)
  rw [value_interval, value_eq] at hleading
  rw [zpow_sub₀ (by norm_num), zpow_natCast, div_lt_iff₀ (by norm_num), upperEnd, lowerEnd]
  refine lt_of_le_of_lt hleading ?_
  have hlt : (m : ℚ) < 2 ^ 53 := by exact_mod_cast hnormal.lt
  unfold reach
  rw [Nat.pow_eq, Shape.fractionBits]
  split
  next hpower =>
    have hm : (m : ℚ) = 2 ^ 52 := by exact_mod_cast hpower.1
    rw [hm]
    push_cast
    nlinarith
  next =>
    push_cast
    nlinarith

/-- **The digits a fraction is written with read back as it.** -/
theorem readsBack_digits (hnormal : Shape.Normal m q) :
    ReadsBack m q ((digits m q).digits * 10 ^ (digits m q).power) :=
  (holdsPoint_interval hm).mp (holdsPoint_of_onGrid
    (onGrid_search 16 0 (by
      rw [Nat.zero_add]
      exact isSome_onGrid hm (zpow_leading_lt hm hnormal))))

end Grid

end Shortest

end CallFlow
