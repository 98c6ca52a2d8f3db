import Mathlib.Algebra.Order.Ring.Nat
import Mathlib.Data.Nat.Log
import StageFusion.Fusion.Stats

/-! When an average is within its format.

A quotient rounds to nothing above a whole number that it does not exceed (`roundDiv_le`), and the
largest finite magnitude is a whole number of steps everywhere in the format. So rounding stays within
the format (`roundUnits_le_maxUnits`), and the mean of values within it exists (`exists_mean`).

A quotient that is a whole number of steps is not rounded (`roundUnits_mul`), so the mean of ones is one
(`mean?_eq_one`). The average of a run is the mean of its reductions (`Averaged`). -/

namespace StageFusion

namespace Binary64

theorem roundDiv_le {num den k : Nat} (h : num ≤ k * den) : roundDiv num den ≤ k := by
  rcases Nat.eq_zero_or_pos den with rfl | hden
  · obtain rfl : num = 0 := Nat.le_zero.mp h
    simp [roundDiv]
  have hq : num / den ≤ k := Nat.div_le_of_le_mul (by rwa [mul_comm])
  -- only a remainder rounds up, and with a remainder the quotient is below the bound
  have hup : num % den ≠ 0 → num / den + 1 ≤ k := by
    intro hrest
    rw [Nat.succ_le_iff, Nat.div_lt_iff_lt_mul hden]
    refine lt_of_le_of_ne h ?_
    rintro rfl
    exact hrest (Nat.mul_mod_left k den)
  simp only [roundDiv]
  split_ifs with hbelow habove heven
  · exact hq
  · exact hup (by omega)
  · exact hq
  · exact hup (by omega)

theorem log2_le_of_le_maxUnits {n : Nat} (h : n ≤ maxUnits) : n.log2 ≤ 2097 := by
  have hmax : maxUnits.log2 = 2097 := by decide +kernel
  rw [← hmax, Nat.log2_eq_log_two, Nat.log2_eq_log_two]
  exact Nat.log_mono_right h

/-- The largest finite magnitude is a whole number of steps of every smaller one. -/
theorem exists_mul_step {n : Nat} (h : n ≤ maxUnits) :
    ∃ k, k * Nat.pow 2 (stepExponent n) = maxUnits := by
  have hlog := log2_le_of_le_maxUnits h
  have hstep : stepExponent n ≤ 2045 := by
    simp only [stepExponent, precision]
    omega
  obtain ⟨more, hmore⟩ := Nat.exists_eq_add_of_le hstep
  refine ⟨(Nat.pow 2 precision - 1) * Nat.pow 2 more, ?_⟩
  rw [maxUnits, hmore, mul_assoc]
  simp only [Nat.pow_eq, pow_add]
  rw [mul_comm (2 ^ more)]

theorem roundUnits_le_maxUnits {num den : Nat} (h : num ≤ maxUnits * den) :
    roundUnits num den ≤ maxUnits := by
  have hquotient : num / den ≤ maxUnits := Nat.div_le_of_le_mul (by rwa [mul_comm])
  obtain ⟨k, hk⟩ := exists_mul_step hquotient
  rw [roundUnits]
  -- in steps, the quotient is not above a whole number of them
  generalize Nat.pow 2 (stepExponent (num / den)) = step at hk ⊢
  have hsteps : num ≤ k * (den * step) := by
    calc num ≤ maxUnits * den := h
      _ = k * (den * step) := by rw [← hk, mul_assoc, mul_comm step]
  calc roundDiv num (den * step) * step
      ≤ k * step := Nat.mul_le_mul_right step (roundDiv_le hsteps)
    _ = maxUnits := hk

/-- A whole number is not rounded. -/
theorem roundDiv_mul {den : Nat} (hden : 0 < den) (k : Nat) : roundDiv (k * den) den = k := by
  simp only [roundDiv, Nat.mul_mod_left, Nat.mul_div_cancel k hden, Nat.mul_zero, if_pos hden]

/-- A whole number of steps is not rounded. -/
theorem roundUnits_mul {n k den : Nat} (hden : 0 < den) (h : k * Nat.pow 2 (stepExponent n) = n) :
    roundUnits (n * den) den = n := by
  rw [roundUnits, Nat.mul_div_cancel n hden]
  have hstep : 0 < Nat.pow 2 (stepExponent n) := Nat.two_pow_pos _
  generalize Nat.pow 2 (stepExponent n) = step at h hstep
  calc roundDiv (n * den) (den * step) * step
      = roundDiv (k * (den * step)) (den * step) * step := by rw [← h, mul_assoc, mul_comm step]
    _ = k * step := by rw [roundDiv_mul (Nat.mul_pos hden hstep)]
    _ = n := h

theorem ofRatio?_self {n : Nat} (hn : 0 < n) : ofRatio? n n = some one := by
  have hunits : roundUnits (unitsPerOne * n) n = unitsPerOne := by
    have hsteps : Nat.pow 2 52 * Nat.pow 2 (stepExponent unitsPerOne) = unitsPerOne := by
      decide +kernel
    exact roundUnits_mul hn hsteps
  have hrange : unitsPerOne ≤ maxUnits := by decide +kernel
  have hsign : decide ((n : Int) < 0) = false := decide_eq_false (by omega)
  rw [ofRatio?, ofUnits?, Int.natAbs_natCast, mul_comm, hunits, if_pos hrange, hsign, one]

theorem exists_ofRatio {num : Int} {den : Nat}
    (h : num.natAbs * unitsPerOne ≤ maxUnits * den) : ∃ x, ofRatio? num den = some x := by
  rw [ofRatio?, ofUnits?, if_pos (roundUnits_le_maxUnits h)]
  exact ⟨_, rfl⟩

end Binary64

namespace Stats

theorem natAbs_total_le {values : List Int} {n : Nat} (h : ∀ v ∈ values, v.natAbs ≤ n) :
    (total values).natAbs ≤ values.length * n := by
  induction values with
  | nil => simp [total]
  | cons v values ih =>
    obtain ⟨hv, hvalues⟩ := List.forall_mem_cons.mp h
    calc (total (v :: values)).natAbs
        ≤ v.natAbs + (total values).natAbs := Int.natAbs_add_le v (total values)
      _ ≤ n + values.length * n := Nat.add_le_add hv (ih hvalues)
      _ = (v :: values).length * n := by rw [List.length_cons, Nat.succ_mul, Nat.add_comm]

/-- The mean of values within the format is within it. -/
theorem exists_mean {values : List Int} {n : Nat} (h : ∀ v ∈ values, v.natAbs ≤ n)
    (hn : n * Binary64.unitsPerOne ≤ Binary64.maxUnits) :
    ∃ mean, mean? values = some mean := by
  apply Binary64.exists_ofRatio
  calc (total values).natAbs * Binary64.unitsPerOne
      ≤ values.length * n * Binary64.unitsPerOne := Nat.mul_le_mul_right _ (natAbs_total_le h)
    _ = values.length * (n * Binary64.unitsPerOne) := mul_assoc _ _ _
    _ ≤ values.length * Binary64.maxUnits := Nat.mul_le_mul_left _ hn
    _ = Binary64.maxUnits * values.length := mul_comm _ _

theorem total_eq_length {values : List Int} (h : ∀ v ∈ values, v = 1) :
    total values = values.length := by
  induction values with
  | nil => rfl
  | cons v values ih =>
    obtain ⟨rfl, hvalues⟩ := List.forall_mem_cons.mp h
    calc total (1 :: values)
        = 1 + total values := rfl
      _ = ((1 :: values).length : Int) := by
        rw [ih hvalues, List.length_cons]
        omega

/-- The mean of ones is one. -/
theorem mean?_eq_one {values : List Int} (h : ∀ v ∈ values, v = 1) (hne : values ≠ []) :
    mean? values = some .one := by
  rw [mean?, total_eq_length h]
  exact Binary64.ofRatio?_self (List.length_pos_iff.mpr hne)

/-! ## The average of a run -/

/-- The average is that of the reductions so far, and zero before the first. -/
structure Averaged (s : Stats) : Prop where
  eq_zero : s.reductions = [] → s.averageReduction = .zero
  mean_eq : s.reductions ≠ [] → mean? s.reductions = some s.averageReduction

theorem Averaged.empty : Averaged {} :=
  ⟨fun _ => rfl, fun h => absurd rfl h⟩

theorem Averaged.addSkip {s : Stats} (h : s.Averaged) : s.addSkip.Averaged :=
  ⟨h.eq_zero, h.mean_eq⟩

theorem Averaged.of_recorded {s t : Stats} {up down bound : Multiplicity} (hs : s.Averaged)
    (h : s.Recorded up down bound (t, none)) : t.Averaged := by
  cases h with
  | counted => exact ⟨hs.eq_zero, hs.mean_eq⟩
  | averaged finite within => exact ⟨fun h => absurd h (by simp), fun _ => within⟩

end Stats

end StageFusion
