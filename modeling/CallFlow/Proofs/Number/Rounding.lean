import Mathlib.Tactic.Linarith
import Mathlib.Tactic.FieldSimp
import Mathlib.Tactic.Positivity
import CallFlow.Number.Shortest
import CallFlow.Proofs.Number.Shape

/-!
# The ratios that read back as a fraction

The ratios that read back as a fraction reach half-way to its neighbours, with
the ends where its last digit is even (`Shortest.ReadsBack`). Neighbours share
no ratio: where the one ends the other begins, and of two neighbours the last
digit of only one is even. So a ratio reads back as one fraction at most
(`Shortest.eq_of_readsBack`).

Below a power of two the neighbour is only half as far away as above it. That
is the case to look at when two fractions are counted in different powers: the
larger of them then has the smallest digits there are, or reaches down no
further than to the largest fraction below.
-/

namespace CallFlow

theorem two_zpow_pos (q : Int) : (0 : ℚ) < 2 ^ q := zpow_pos (by norm_num) q

/-- The ratio of a shape is its number. -/
theorem Shape.ratio_spec (m : Nat) (q : Int) :
    0 < (ratio m q).2 ∧ ((ratio m q).1 : ℚ) / (ratio m q).2 = m * 2 ^ q := by
  unfold ratio
  split
  next hneg =>
    obtain ⟨n, rfl⟩ : ∃ n : Nat, q = -n := ⟨(-q).toNat, by omega⟩
    refine ⟨Nat.pow_pos (by decide), ?_⟩
    simp [zpow_neg, div_eq_mul_inv]
  next hpos =>
    obtain ⟨n, rfl⟩ := Int.eq_ofNat_of_zero_le (by omega : 0 ≤ q)
    refine ⟨Nat.one_pos, ?_⟩
    simp

namespace Shortest

/-- How far the ratios that read back as a fraction reach down, in quarters of
the unit it is counted in. -/
def reach (m : Nat) (q : Int) : Nat :=
  if m = Nat.pow 2 Shape.fractionBits ∧ Shape.smallestPower < q then 1 else 2

/-- The lower end of the ratios that read back as a fraction. -/
def lowerEnd (m : Nat) (q : Int) : ℚ := (4 * m - reach m q) * 2 ^ (q - 2)

/-- The upper end of the ratios that read back as a fraction. -/
def upperEnd (m : Nat) (q : Int) : ℚ := (4 * m + 2) * 2 ^ (q - 2)

/-- **Whether a ratio reads back as a fraction**: it lies between the two ends,
or at one of them, if the last digit of the fraction is even. -/
def ReadsBack (m : Nat) (q : Int) (r : ℚ) : Prop :=
  if m % 2 = 0 then lowerEnd m q ≤ r ∧ r ≤ upperEnd m q else lowerEnd m q < r ∧ r < upperEnd m q

section ReadsBack

variable {m m' : Nat} {q q' : Int} {r : ℚ}

theorem ReadsBack.le (h : ReadsBack m q r) : lowerEnd m q ≤ r ∧ r ≤ upperEnd m q := by
  unfold ReadsBack at h
  split at h
  · exact h
  · exact ⟨h.1.le, h.2.le⟩

theorem ReadsBack.lt (h : ReadsBack m q r) (hodd : m % 2 ≠ 0) :
    lowerEnd m q < r ∧ r < upperEnd m q := by
  rwa [ReadsBack, if_neg hodd] at h

theorem readsBack_of_lt (hlower : lowerEnd m q < r) (hupper : r < upperEnd m q) :
    ReadsBack m q r := by
  unfold ReadsBack
  split
  · exact ⟨hlower.le, hupper.le⟩
  · exact ⟨hlower, hupper⟩

theorem reach_le (m : Nat) (q : Int) : reach m q ≤ 2 := by
  unfold reach
  split <;> decide

theorem le_of_full (hfull : 2 ^ 52 ≤ m) (hq : Shape.smallestPower < q) :
    2 ^ 54 + reach m q ≤ 4 * m + 1 := by
  unfold reach
  rw [Nat.pow_eq, Shape.fractionBits]
  split <;> omega

/-- In one power, a smaller fraction ends where a larger one begins, or before
it. -/
theorem le_of_lt_of_normal (h : Shape.Normal m q) (hlt : m < m') :
    4 * m + 2 + reach m' q ≤ 4 * m' := by
  unfold reach
  rw [Nat.pow_eq, Shape.fractionBits]
  split
  next hpower =>
    have := h.le_of_ne (by omega)
    omega
  next => omega

/-- **Of two fractions the smaller ends where the larger begins**, or before it,
and before it if the last digits of both are even. -/
theorem upperEnd_le_lowerEnd (h : Shape.Normal m q) (h' : Shape.Normal m' q')
    (hlt : q < q' ∨ q = q' ∧ m < m') :
    upperEnd m q ≤ lowerEnd m' q'
      ∧ (m % 2 = 0 → m' % 2 = 0 → upperEnd m q < lowerEnd m' q') := by
  have hunit := two_zpow_pos (q - 2)
  have hsmallest := h.smallest_le
  rcases hlt with hlt | ⟨rfl, hlt⟩
  · -- the larger has all its digits, and is counted in a unit at least twice as large
    have hunit' : 2 * (2 : ℚ) ^ (q - 2) ≤ 2 ^ (q' - 2) := by
      rw [← zpow_one_add₀ (by norm_num)]
      exact zpow_le_zpow_right₀ (by norm_num) (by omega)
    have hfull : (2 ^ 54 + reach m' q' : ℚ) ≤ 4 * m' + 1 := by
      exact_mod_cast le_of_full (h'.le_of_ne (by omega)) (by omega)
    have hbegins : (2 ^ 54 - 1) * (2 * (2 : ℚ) ^ (q - 2)) ≤ lowerEnd m' q' :=
      mul_le_mul (by linarith) hunit' (by positivity) (by linarith)
    refine ⟨?_, fun heven _ => ?_⟩
    · have hm : (m + 1 : ℚ) ≤ 2 ^ 53 := by exact_mod_cast h.lt
      refine le_trans ?_ hbegins
      rw [upperEnd]
      nlinarith
    · have hm : (m + 2 : ℚ) ≤ 2 ^ 53 := by exact_mod_cast (by have := h.lt; omega : m + 2 ≤ 2 ^ 53)
      refine lt_of_lt_of_le ?_ hbegins
      rw [upperEnd]
      nlinarith
  · have hm : (4 * m + 2 + reach m' q : ℚ) ≤ 4 * m' := by exact_mod_cast le_of_lt_of_normal h hlt
    refine ⟨mul_le_mul_of_nonneg_right (by linarith) hunit.le, fun heven heven' =>
      mul_lt_mul_of_pos_right ?_ hunit⟩
    -- between two even digits there is another
    have hm' : (4 * (m + 1) + 2 + reach m' q : ℚ) ≤ 4 * m' := by
      exact_mod_cast le_of_lt_of_normal (m := m + 1) ⟨by have := h'.lt; omega, hsmallest,
        fun hne => (h.le_of_ne hne).trans (Nat.le_succ m)⟩ (by omega)
    linarith

/-- **A ratio reads back as one fraction at most.** -/
theorem eq_of_readsBack (h : Shape.Normal m q) (h' : Shape.Normal m' q') (hr : ReadsBack m q r)
    (hr' : ReadsBack m' q' r) : m = m' ∧ q = q' := by
  -- the smaller of two would end before the larger begins
  have hapart : ∀ {m m' : Nat} {q q' : Int}, Shape.Normal m q → Shape.Normal m' q' →
      ReadsBack m q r → ReadsBack m' q' r → ¬ (q < q' ∨ q = q' ∧ m < m') := by
    intro m m' q q' h h' hr hr' hlt
    obtain ⟨hle, hstrict⟩ := upperEnd_le_lowerEnd h h' hlt
    by_cases heven : m % 2 = 0
    · by_cases heven' : m' % 2 = 0
      · have := hstrict heven heven'
        linarith [hr.le.2, hr'.le.1]
      · linarith [hr.le.2, (hr'.lt heven').1]
    · linarith [(hr.lt heven).2, hr'.le.1]
  have hlt := hapart h h' hr hr'
  have hgt := hapart h' h hr' hr
  omega

end ReadsBack

end Shortest

end CallFlow
