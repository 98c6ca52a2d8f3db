import Mathlib.Algebra.BigOperators.Ring.List
import Mathlib.Algebra.Order.BigOperators.Group.List
import Mathlib.Data.ENat.Basic
import StageFusion.Multiplicity

/-! Multiplicities are the extended natural numbers.

`toENat` is an embedding that keeps zero, one, sums, products and the order; the convention that zero
times `unbounded` is zero is the one of the extended naturals. The laws of an ordered commutative
semiring are read off there, so that products of bounds can be treated by the library
(`product_eq_prod`). -/

namespace StageFusion.Multiplicity

def toENat : Multiplicity → ℕ∞
  | exact n => n
  | unbounded => ⊤

@[simp]
theorem toENat_exact (n : Nat) : (exact n).toENat = n := rfl

@[simp]
theorem toENat_unbounded : unbounded.toENat = ⊤ := rfl

theorem toENat_injective : Function.Injective toENat := by
  intro a b h
  cases a <;> cases b <;> simp_all [toENat]

@[simp]
theorem toENat_zero : toENat 0 = 0 := rfl

@[simp]
theorem toENat_one : toENat 1 = 1 := rfl

@[simp]
theorem toENat_add (a b : Multiplicity) : (a + b).toENat = a.toENat + b.toENat := by
  cases a <;> cases b <;> simp

@[simp]
theorem toENat_mul (a b : Multiplicity) : (a * b).toENat = a.toENat * b.toENat := by
  cases a with
  | exact m =>
    cases b with
    | exact n => simp
    | unbounded =>
      by_cases h : m = 0
      · simp [h]
      · simp [h, ENat.mul_top]
  | unbounded =>
    cases b with
    | exact n =>
      by_cases h : n = 0
      · simp [h]
      · simp [h, ENat.top_mul]
    | unbounded => simp

@[simp]
theorem toENat_le {a b : Multiplicity} : a.toENat ≤ b.toENat ↔ a ≤ b := by
  cases a <;> cases b <;> simp

instance : CommSemiring Multiplicity where
  add_assoc a b c := toENat_injective (by simp [add_assoc])
  zero_add a := toENat_injective (by simp)
  add_zero a := toENat_injective (by simp)
  add_comm a b := toENat_injective (by simp [add_comm])
  left_distrib a b c := toENat_injective (by simp [mul_add])
  right_distrib a b c := toENat_injective (by simp [add_mul])
  zero_mul a := toENat_injective (by simp)
  mul_zero a := toENat_injective (by simp)
  mul_assoc a b c := toENat_injective (by simp [mul_assoc])
  one_mul a := toENat_injective (by simp)
  mul_one a := toENat_injective (by simp)
  mul_comm a b := toENat_injective (by simp [mul_comm])
  nsmul := nsmulRec
  npow := npowRec

instance : LinearOrder Multiplicity where
  le_refl a := toENat_le.mp le_rfl
  le_trans a b c hab hbc := toENat_le.mp ((toENat_le.mpr hab).trans (toENat_le.mpr hbc))
  lt_iff_le_not_ge a b := by
    show a ≤ b ∧ a ≠ b ↔ _
    rw [← toENat_le, ← toENat_le, ← lt_iff_le_not_ge, lt_iff_le_and_ne, Ne, Ne,
      toENat_injective.eq_iff]
  le_antisymm a b hab hba :=
    toENat_injective ((toENat_le.mpr hab).antisymm (toENat_le.mpr hba))
  le_total a b := by
    rw [← toENat_le, ← toENat_le]
    exact le_total _ _
  toDecidableLE := inferInstance
  toDecidableLT := inferInstance
  toDecidableEq := inferInstance

instance : MulLeftMono Multiplicity where
  elim a b c h := by
    show a * b ≤ a * c
    rw [← toENat_le, toENat_mul, toENat_mul]
    exact mul_le_mul_right (toENat_le.mpr h) _

instance : NoZeroDivisors Multiplicity where
  eq_zero_or_eq_zero_of_mul_eq_zero := by
    intro a b h
    have h' : a.toENat * b.toENat = 0 := by rw [← toENat_mul, h, toENat_zero]
    rcases mul_eq_zero.mp h' with ha | hb
    · exact .inl (toENat_injective ha)
    · exact .inr (toENat_injective hb)

instance : Nontrivial Multiplicity :=
  ⟨0, 1, by decide⟩

theorem zero_le (m : Multiplicity) : 0 ≤ m := by
  rw [← toENat_le, toENat_zero]
  exact bot_le

theorem eq_unbounded_of_le {m : Multiplicity} (h : unbounded ≤ m) : m = unbounded :=
  (le_unbounded m).antisymm h

theorem unbounded_mul {m : Multiplicity} (h : m ≠ 0) : unbounded * m = unbounded := by
  cases m with
  | unbounded => rfl
  | exact n =>
    have hn : n ≠ 0 := fun hn => h (by rw [hn]; rfl)
    simp [hn]

theorem isFinite_mul_iff {a b : Multiplicity} (ha : a ≠ 0) (hb : b ≠ 0) :
    (a * b).isFinite = true ↔ a.isFinite = true ∧ b.isFinite = true := by
  cases a with
  | unbounded => simp [unbounded_mul hb, isFinite]
  | exact m =>
    cases b with
    | unbounded => simp [mul_comm _ unbounded, unbounded_mul ha, isFinite]
    | exact n => simp [isFinite]

theorem mul_eq_one_iff {a b : Multiplicity} : a * b = 1 ↔ a = 1 ∧ b = 1 := by
  constructor
  · intro h
    have hne : a * b ≠ 0 := by
      rw [h]
      exact one_ne_zero
    obtain ⟨ha, hb⟩ := mul_ne_zero_iff.mp hne
    -- only numbers have a finite product, and one has no other factors than itself
    obtain ⟨hfiniteA, hfiniteB⟩ := (isFinite_mul_iff ha hb).mp (by rw [h]; rfl)
    cases a with
    | unbounded => cases hfiniteA
    | exact m =>
      cases b with
      | unbounded => cases hfiniteB
      | exact n =>
        have hmn : m * n = 1 := by
          rw [exact_mul_exact] at h
          exact exact.inj h
        rw [Nat.eq_one_of_mul_eq_one_right hmn, Nat.eq_one_of_mul_eq_one_left hmn]
        exact ⟨rfl, rfl⟩
  · rintro ⟨rfl, rfl⟩
    exact one_mul 1

theorem mul_eq_zero_or_unbounded {m : Multiplicity} (h : m = 0 ∨ m = unbounded)
    (k : Multiplicity) : k * m = 0 ∨ k * m = unbounded := by
  rcases h with rfl | rfl
  · exact .inl (mul_zero k)
  · by_cases hk : k = 0
    · exact .inl (by rw [hk, zero_mul])
    · exact .inr (by rw [mul_comm, unbounded_mul hk])

/-- A product is `unbounded` if a factor is and none is zero. -/
theorem prod_eq_unbounded {bounds : List Multiplicity} (h : unbounded ∈ bounds)
    (hzero : 0 ∉ bounds) : bounds.prod = unbounded := by
  obtain ⟨before, after, rfl⟩ := List.append_of_mem h
  have hrest : (before ++ after).prod ≠ 0 := by
    intro h
    have hmem := List.prod_eq_zero_iff.mp h
    apply hzero
    rcases List.mem_append.mp hmem with h | h <;> simp [h]
  calc (before ++ unbounded :: after).prod
      = unbounded * (before ++ after).prod := by simp [mul_left_comm]
    _ = unbounded := unbounded_mul hrest

theorem product_eq_prod (bounds : List Multiplicity) : product bounds = bounds.prod :=
  List.prod_eq_foldl.symm

end StageFusion.Multiplicity
