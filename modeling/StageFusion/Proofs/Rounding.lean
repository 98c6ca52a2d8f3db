import Mathlib.Algebra.Order.Field.Basic
import Mathlib.Algebra.Order.Field.Rat
import Mathlib.Data.Rat.Cast.Order
import Mathlib.Tactic.FieldSimp
import Mathlib.Tactic.Linarith
import Mathlib.Tactic.Positivity
import Mathlib.Tactic.Ring
import StageFusion.Proofs.Averages

/-! Rounding is to the nearest number, a tie going to the even significand.

A magnitude is written as a significand of 53 bits and an exponent (`Binary64.Writes`), in one way only
(`Writes.significand_unique`). `Binary64.Nearest` says which of the magnitudes, however large, a number
rounds to: none is nearer, and of two that are equally near it is the one with the even significand. There
is at most one (`Nearest.unique`), and `roundUnits` computes it (`nearest_roundUnits`): on the grid of steps
that it rounds to no multiple is nearer, and every magnitude off the grid is below the binade of the number.

So the number that `ofRatio?` gives is the quotient correctly rounded (`ofRatio?_eq_some_iff`), and it gives
none just if the quotient rounds beyond the largest finite number (`ofRatio?_eq_none_iff`). -/

namespace StageFusion.Binary64

/-! ## Magnitudes and their significands -/

/-- A number of units is a significand times a power of two. The significand has no more bits than the
format has, and no fewer either unless the power is the smallest one. -/
structure Writes (units significand exponent : Nat) : Prop where
  units_eq : units = significand * 2 ^ exponent
  lt : significand < 2 ^ precision
  normal : exponent = 0 ∨ 2 ^ (precision - 1) ≤ significand

/-- A number of units has a significand, whether or not the largest finite magnitude is below it. -/
def Held (units : Nat) : Prop :=
  ∃ significand exponent, Writes units significand exponent

/-- A number of units has an even significand. -/
def HeldEvenly (units : Nat) : Prop :=
  ∃ significand exponent, Writes units significand exponent ∧ Even significand

theorem two_pow_precision : 2 ^ precision = 2 * 2 ^ (precision - 1) := by
  decide

namespace Writes

variable {m n s t e k : Nat}

/-- A magnitude with a smaller exponent is below the normal significands of the larger one. -/
theorem lt_of_exponent_lt (h : Writes m s k) (hk : k < e) : m < 2 ^ (precision - 1) * 2 ^ e := by
  obtain ⟨more, rfl⟩ := Nat.exists_eq_add_of_lt hk
  rw [h.units_eq]
  calc s * 2 ^ k
      < 2 ^ precision * 2 ^ k := Nat.mul_lt_mul_of_pos_right h.lt (Nat.two_pow_pos k)
    _ = 2 ^ (precision - 1) * 2 ^ (k + 1) := by rw [two_pow_precision, pow_succ]; ring
    _ ≤ 2 ^ (precision - 1) * 2 ^ (k + more + 1) :=
      Nat.mul_le_mul_left _ (Nat.pow_le_pow_right (by decide) (by omega))

/-- A magnitude with a larger exponent is a whole number of steps of the smaller one. -/
theorem exists_mul_of_le (h : Writes m s k) (hk : e ≤ k) : ∃ j, m = j * 2 ^ e := by
  obtain ⟨more, rfl⟩ := Nat.exists_eq_add_of_le hk
  refine ⟨s * 2 ^ more, ?_⟩
  rw [h.units_eq, pow_add]
  ring

theorem exponent_le (h : Writes n s e) (h' : Writes n t k) : e ≤ k := by
  by_contra hlt
  have hbelow := h'.lt_of_exponent_lt (not_le.mp hlt)
  have hnormal : 2 ^ (precision - 1) ≤ s := h.normal.resolve_left (by omega)
  have hge : 2 ^ (precision - 1) * 2 ^ e ≤ n := by
    rw [h.units_eq]
    exact Nat.mul_le_mul_right _ hnormal
  omega

theorem significand_unique (h : Writes n s e) (h' : Writes n t k) : s = t := by
  obtain rfl : e = k := le_antisymm (h.exponent_le h') (h'.exponent_le h)
  have hmul : s * 2 ^ e = t * 2 ^ e := by rw [← h.units_eq, ← h'.units_eq]
  exact Nat.eq_of_mul_eq_mul_right (Nat.two_pow_pos e) hmul

/-- Behind an even significand stands the next one, and no magnitude is between the two. -/
theorem succ_of_even (h : Writes n s e) (heven : Even s) :
    Writes ((s + 1) * 2 ^ e) (s + 1) e ∧
      ∀ m, Held m → n < m → (s + 1) * 2 ^ e ≤ m := by
  have hlt : s + 1 < 2 ^ precision := by
    have hbound : Even (2 ^ precision) := ⟨2 ^ (precision - 1), by decide⟩
    obtain ⟨a, ha⟩ := heven
    obtain ⟨b, hb⟩ := hbound
    have := h.lt
    omega
  refine ⟨⟨rfl, hlt, h.normal.imp_right fun hnormal => by omega⟩, ?_⟩
  rintro m ⟨t, k, hm⟩ hnm
  rcases Nat.lt_or_ge k e with hk | hk
  · have hbelow := hm.lt_of_exponent_lt hk
    have hnormal : 2 ^ (precision - 1) ≤ s := h.normal.resolve_left (by omega)
    have hge : 2 ^ (precision - 1) * 2 ^ e ≤ n := by
      rw [h.units_eq]
      exact Nat.mul_le_mul_right _ hnormal
    omega
  · obtain ⟨j, rfl⟩ := hm.exists_mul_of_le hk
    rw [h.units_eq] at hnm
    exact Nat.mul_le_mul_right _ (Nat.lt_of_mul_lt_mul_right hnm)

end Writes

/-- A whole number of steps is a magnitude, if it takes no more bits than the significand has, and no fewer
where the step is not the smallest one. -/
theorem writes_mul {r e : Nat} (hle : r ≤ 2 ^ precision) (hnormal : e = 0 ∨ 2 ^ (precision - 1) ≤ r) :
    ∃ significand exponent, Writes (r * 2 ^ e) significand exponent ∧ (Even r → Even significand) := by
  rcases hle.lt_or_eq with hlt | rfl
  · exact ⟨r, e, ⟨rfl, hlt, hnormal⟩, id⟩
  · -- one bit too many: the step doubles
    refine ⟨2 ^ (precision - 1), e + 1, ⟨?_, by decide, .inr le_rfl⟩, fun _ => by decide⟩
    rw [two_pow_precision, pow_succ]
    ring

/-! ## The nearest magnitude -/

/-- The magnitude that a number of units rounds to: none is nearer, and of two that are equally near it is
the one with the even significand. -/
structure Nearest (x : ℚ) (units : Nat) : Prop where
  held : Held units
  nearest : ∀ m, Held m → |x - units| ≤ |x - m|
  even : ∀ m, Held m → m ≠ units → |x - m| = |x - units| → HeldEvenly units

namespace Nearest

variable {x : ℚ} {m n : Nat}

/-- Two nearest magnitudes would be neighbours with even significands. -/
theorem not_lt (hn : Nearest x n) (hm : Nearest x m) : ¬ n < m := by
  intro hlt
  have htie : |x - m| = |x - n| := le_antisymm (hm.nearest n hn.held) (hn.nearest m hm.held)
  obtain ⟨s, e, hwrites, hs⟩ := hn.even m hm.held hlt.ne' htie
  obtain ⟨t, k, hwrites', ht⟩ := hm.even n hn.held hlt.ne htie.symm
  obtain ⟨hnext, hgap⟩ := hwrites.succ_of_even hs
  -- the number is in the middle, so that the next magnitude, were it smaller, would be nearer
  have hltQ : (n : ℚ) < m := by exact_mod_cast hlt
  have hmiddle : x - n = m - x := by
    rcases abs_eq_abs.mp htie with h | h
    · linarith
    · linarith
  have hle : m ≤ (s + 1) * 2 ^ e := by
    by_contra hgt
    have hnextGt : n < (s + 1) * 2 ^ e := by
      rw [hwrites.units_eq]
      exact Nat.mul_lt_mul_of_pos_right (Nat.lt_succ_self s) (Nat.two_pow_pos e)
    have hbetween : |x - ((s + 1) * 2 ^ e : Nat)| < |x - n| := by
      have hleft : (n : ℚ) < ((s + 1) * 2 ^ e : Nat) := by exact_mod_cast hnextGt
      have hright : (((s + 1) * 2 ^ e : Nat) : ℚ) < m := by exact_mod_cast not_le.mp hgt
      rw [abs_of_pos (show 0 < x - n by linarith)]
      exact abs_lt.mpr ⟨by linarith, by linarith⟩
    exact absurd (hn.nearest _ ⟨_, _, hnext⟩) (not_le.mpr hbetween)
  obtain rfl : m = (s + 1) * 2 ^ e := le_antisymm hle (hgap m hm.held hlt)
  obtain rfl := hnext.significand_unique hwrites'
  exact absurd hs (by simpa [Nat.even_add_one] using ht)

theorem unique (hn : Nearest x n) (hm : Nearest x m) : n = m :=
  le_antisymm (Nat.not_lt.mp (hm.not_lt hn)) (Nat.not_lt.mp (hn.not_lt hm))

end Nearest

/-! ## Rounding on a grid -/

section

variable {num den : Nat}

theorem le_roundDiv {k : Nat} (hden : 0 < den) (h : k * den ≤ num) : k ≤ roundDiv num den := by
  have hq : k ≤ num / den := (Nat.le_div_iff_mul_le hden).mpr h
  simp only [roundDiv]
  split_ifs <;> omega

/-- A quotient is rounded by at most half of its denominator, and by half of it to an even number. -/
theorem two_mul_error_le (num den : Nat) (hden : 0 < den) :
    2 * ((num : Int) - roundDiv num den * den).natAbs ≤ den ∧
      (2 * ((num : Int) - roundDiv num den * den).natAbs = den → Even (roundDiv num den)) := by
  have hdown : (num : Int) - (num / den : Nat) * den = (num % den : Nat) := by
    have := Nat.div_add_mod' num den
    omega
  have hup : (num : Int) - (num / den + 1 : Nat) * den = (num % den : Nat) - den := by
    rw [Nat.cast_succ, add_mul, one_mul, ← hdown]
    omega
  have hrest : num % den < den := Nat.mod_lt num hden
  simp only [roundDiv]
  split_ifs with hbelow habove heven
  · rw [hdown]
    exact ⟨by omega, by omega⟩
  · rw [hup]
    exact ⟨by omega, by omega⟩
  · rw [hdown]
    exact ⟨by omega, fun _ => Nat.even_iff.mpr heven⟩
  · rw [hup]
    exact ⟨by omega, fun _ => Nat.even_iff.mpr (by omega)⟩

/-- In steps of a grid: a number is rounded by at most half a step, and by half a step to an even multiple. -/
theorem abs_sub_roundDiv_le {x : ℚ} {step : Nat} (hden : 0 < den) (hstep : 0 < step)
    (hx : x = (num : ℚ) / den) :
    2 * |x - (roundDiv num (den * step) * step : Nat)| ≤ step ∧
      (2 * |x - (roundDiv num (den * step) * step : Nat)| = step →
        Even (roundDiv num (den * step))) := by
  obtain ⟨hle, heven⟩ := two_mul_error_le num (den * step) (Nat.mul_pos hden hstep)
  generalize roundDiv num (den * step) = r at *
  have hdenQ : (0 : ℚ) < den := by exact_mod_cast hden
  have herror : |x - (r * step : Nat)| * den = ((num : Int) - r * (den * step : Nat)).natAbs := by
    calc |x - (r * step : Nat)| * den
        = |(x - (r * step : Nat)) * den| := by rw [abs_mul, abs_of_pos hdenQ]
      _ = |(((num : Int) - r * (den * step : Nat) : Int) : ℚ)| := by
        congr 1
        rw [hx]
        push_cast
        field_simp
      _ = ((num : Int) - r * (den * step : Nat)).natAbs := by rw [Nat.cast_natAbs, Int.cast_abs]
  constructor
  · refine le_of_mul_le_mul_right ?_ hdenQ
    rw [mul_assoc, herror]
    calc (2 : ℚ) * ((num : Int) - r * (den * step : Nat)).natAbs
        ≤ (den * step : Nat) := by exact_mod_cast hle
      _ = step * den := by push_cast; ring
  · intro hhalf
    apply heven
    have hmul : 2 * (|x - (r * step : Nat)| * den) = (den * step : Nat) := by
      rw [← mul_assoc, hhalf]
      push_cast
      ring
    rw [herror] at hmul
    exact_mod_cast hmul

/-- Where a number is in the middle between a multiple of the step and another one, the error is half a step;
otherwise the other one is farther away. -/
theorem abs_sub_le_of_ne {x : ℚ} {r j step : Nat} (hle : 2 * |x - (r * step : Nat)| ≤ step)
    (hne : j ≠ r) :
    |x - (r * step : Nat)| ≤ |x - (j * step : Nat)| ∧
      (|x - (j * step : Nat)| = |x - (r * step : Nat)| → 2 * |x - (r * step : Nat)| = step) := by
  have hgap : (step : ℚ) ≤ |((r * step : Nat) : ℚ) - (j * step : Nat)| := by
    have hone : (1 : ℚ) ≤ |(r : ℚ) - j| := by
      have : (1 : Int) ≤ |(r : Int) - j| := Int.one_le_abs (by omega)
      exact_mod_cast this
    calc (step : ℚ) = 1 * step := (one_mul _).symm
      _ ≤ |(r : ℚ) - j| * step := mul_le_mul_of_nonneg_right hone (Nat.cast_nonneg step)
      _ = |((r * step : Nat) : ℚ) - (j * step : Nat)| := by
        rw [Nat.cast_mul, Nat.cast_mul, ← sub_mul, abs_mul, Nat.abs_cast]
  have htriangle := abs_sub_le ((r * step : Nat) : ℚ) x (j * step : Nat)
  rw [abs_sub_comm ((r * step : Nat) : ℚ) x] at htriangle
  exact ⟨by linarith, fun h => by linarith⟩

theorem abs_sub_le_multiple {x : ℚ} {r step : Nat} (hle : 2 * |x - (r * step : Nat)| ≤ step)
    (j : Nat) : |x - (r * step : Nat)| ≤ |x - (j * step : Nat)| := by
  by_cases hj : j = r
  · rw [hj]
  · exact (abs_sub_le_of_ne hle hj).1

/-- What lies below a multiple of the step that does not exceed the number is farther away. -/
theorem abs_sub_lt_of_lt {x : ℚ} {r j m step : Nat} (hle : 2 * |x - (r * step : Nat)| ≤ step)
    (hj : ((j * step : Nat) : ℚ) ≤ x) (hm : m < j * step) : |x - (r * step : Nat)| < |x - m| := by
  have hmQ : (m : ℚ) < (j * step : Nat) := by exact_mod_cast hm
  calc |x - (r * step : Nat)|
      ≤ |x - (j * step : Nat)| := abs_sub_le_multiple hle j
    _ = x - (j * step : Nat) := abs_of_nonneg (sub_nonneg.mpr hj)
    _ < x - m := by linarith
    _ = |x - m| := (abs_of_pos (by linarith)).symm

end

/-! ## The number that a quotient rounds to -/

section

variable {num den : Nat}

theorem div_lt_two_pow (num den : Nat) :
    num / den < 2 ^ precision * 2 ^ stepExponent (num / den) := by
  rw [← pow_add]
  refine Nat.lt_log2_self.trans_le (Nat.pow_le_pow_right (by decide) ?_)
  simp only [stepExponent, precision]
  omega

theorem two_pow_le_div (h : 0 < stepExponent (num / den)) :
    2 ^ (precision - 1) * 2 ^ stepExponent (num / den) ≤ num / den := by
  rw [← pow_add]
  have hne : num / den ≠ 0 := by
    intro hzero
    rw [hzero] at h
    exact absurd h (by decide)
  refine le_trans (Nat.pow_le_pow_right (by decide) ?_) (Nat.log2_self_le hne)
  simp only [stepExponent, precision] at h ⊢
  omega

/-- **Rounding gives the nearest magnitude.** -/
theorem nearest_roundUnits (num : Nat) (hden : 0 < den) :
    Nearest ((num : ℚ) / den) (roundUnits num den) := by
  have hhigh : num ≤ 2 ^ precision * 2 ^ stepExponent (num / den) * den :=
    ((Nat.div_lt_iff_lt_mul hden).mp (div_lt_two_pow num den)).le
  have hlow : 0 < stepExponent (num / den) →
      2 ^ (precision - 1) * 2 ^ stepExponent (num / den) * den ≤ num :=
    fun h => (Nat.le_div_iff_mul_le hden).mp (two_pow_le_div h)
  rw [roundUnits, Nat.pow_eq]
  generalize stepExponent (num / den) = e at hhigh hlow ⊢
  have hstep : 0 < 2 ^ e := Nat.two_pow_pos e
  obtain ⟨herror, heven⟩ := abs_sub_roundDiv_le hden hstep (rfl : (num : ℚ) / den = num / den)
  have hmost : roundDiv num (den * 2 ^ e) ≤ 2 ^ precision :=
    roundDiv_le (by rwa [mul_comm den, ← mul_assoc])
  have hleast : e = 0 ∨ 2 ^ (precision - 1) ≤ roundDiv num (den * 2 ^ e) := by
    refine e.eq_zero_or_pos.imp_right fun he => le_roundDiv (Nat.mul_pos hden hstep) ?_
    rw [mul_comm den, ← mul_assoc]
    exact hlow he
  obtain ⟨s, k, hwrites, hs⟩ := writes_mul hmost hleast
  generalize roundDiv num (den * 2 ^ e) = r at *
  -- off the grid there is only what lies below the binade, and this begins with a multiple of the step
  have hoff : ∀ {m t k}, Writes m t k → k < e →
      |(num : ℚ) / den - (r * 2 ^ e : Nat)| < |(num : ℚ) / den - m| := by
    intro m t k hm hk
    refine abs_sub_lt_of_lt herror ?_ (hm.lt_of_exponent_lt hk)
    rw [le_div_iff₀ (by exact_mod_cast hden)]
    exact_mod_cast hlow (by omega)
  refine ⟨⟨s, k, hwrites⟩, ?_, ?_⟩
  · rintro m ⟨t, k, hm⟩
    rcases Nat.lt_or_ge k e with hk | hk
    · exact (hoff hm hk).le
    · obtain ⟨j, rfl⟩ := hm.exists_mul_of_le hk
      exact abs_sub_le_multiple herror j
  · rintro m ⟨t, k', hm⟩ hne htie
    rcases Nat.lt_or_ge k' e with hk | hk
    · exact absurd htie (hoff hm hk).ne'
    · obtain ⟨j, rfl⟩ := hm.exists_mul_of_le hk
      have hj : j ≠ r := fun hj => hne (by rw [hj])
      exact ⟨s, k, hwrites, hs (heven ((abs_sub_le_of_ne herror hj).2 htie))⟩

end

/-- A number of the format is a rational number correctly rounded: its magnitude is the nearest one, and is
within the format. A zero has the sign of the rational number. -/
def Rounds (q : ℚ) (x : Binary64) : Prop :=
  ∃ units, x = finite (decide (q < 0)) units ∧ units ≤ maxUnits ∧
    Nearest (|q| * unitsPerOne) units

/-- A rational number rounds beyond the largest finite number. -/
def Overflows (q : ℚ) : Prop :=
  ∃ units, maxUnits < units ∧ Nearest (|q| * unitsPerOne) units

theorem Rounds.unique {q : ℚ} {x y : Binary64} (hx : Rounds q x) (hy : Rounds q y) : x = y := by
  obtain ⟨m, rfl, -, hm⟩ := hx
  obtain ⟨n, rfl, -, hn⟩ := hy
  rw [hm.unique hn]

theorem Rounds.not_overflows {q : ℚ} {x : Binary64} (hx : Rounds q x) : ¬ Overflows q := by
  rintro ⟨n, hmax, hn⟩
  obtain ⟨m, -, hle, hm⟩ := hx
  rw [hm.unique hn] at hle
  exact absurd hle (not_le.mpr hmax)

section

variable {num : Int} {den : Nat}

theorem nearest_ofRatio (num : Int) (hden : 0 < den) :
    Nearest (|(num : ℚ) / den| * unitsPerOne) (roundUnits (num.natAbs * unitsPerOne) den) := by
  have hunits : |(num : ℚ) / den| * unitsPerOne = ((num.natAbs * unitsPerOne : Nat) : ℚ) / den := by
    rw [abs_div, Nat.abs_cast, Nat.cast_mul, Nat.cast_natAbs, Int.cast_abs]
    ring
  rw [hunits]
  exact nearest_roundUnits _ hden

theorem ofRatio?_cases (num : Int) (hden : 0 < den) :
    (∃ x, ofRatio? num den = some x ∧ Rounds ((num : ℚ) / den) x) ∨
      (ofRatio? num den = none ∧ Overflows ((num : ℚ) / den)) := by
  have hnearest := nearest_ofRatio num hden
  have hsign : decide ((num : ℚ) / den < 0) = decide (num < 0) := by
    have hdenQ : (0 : ℚ) < den := by exact_mod_cast hden
    rw [decide_eq_decide, div_lt_iff₀ hdenQ, zero_mul, Int.cast_lt_zero]
  rw [ofRatio?, ofUnits?]
  by_cases h : roundUnits (num.natAbs * unitsPerOne) den ≤ maxUnits
  · rw [if_pos h]
    exact .inl ⟨_, rfl, _, by rw [hsign], h, hnearest⟩
  · rw [if_neg h]
    exact .inr ⟨rfl, _, not_le.mp h, hnearest⟩

/-- **The quotient of two integers is correctly rounded.** -/
theorem ofRatio?_eq_some_iff (hden : 0 < den) {x : Binary64} :
    ofRatio? num den = some x ↔ Rounds ((num : ℚ) / den) x := by
  rcases ofRatio?_cases num hden with ⟨y, hy, hrounds⟩ | ⟨hnone, hover⟩
  · rw [hy, Option.some_inj]
    exact ⟨fun h => h ▸ hrounds, hrounds.unique⟩
  · rw [hnone]
    exact ⟨nofun, fun h => absurd hover h.not_overflows⟩

/-- It has no value just if it rounds beyond the largest finite number. -/
theorem ofRatio?_eq_none_iff (hden : 0 < den) :
    ofRatio? num den = none ↔ Overflows ((num : ℚ) / den) := by
  rcases ofRatio?_cases num hden with ⟨y, hy, hrounds⟩ | ⟨hnone, hover⟩
  · rw [hy]
    exact ⟨nofun, fun h => absurd h hrounds.not_overflows⟩
  · exact iff_of_true hnone hover

end

end StageFusion.Binary64
