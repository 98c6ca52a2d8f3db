import Mathlib.Algebra.Order.Monoid.Unbundled.Basic
import StageFusion.Proofs.Multiplicities

/-! Bounds as an ordered commutative semiring, and the value of a product.

Zero times `unbounded` is zero, so the laws do not follow from those of the numbers by adding a top
element that absorbs everything; they hold because this is the convention of the extended naturals.
`Laws` lists them for four bounds. For the product of a list, `ProductLaws` gives its value in each
case: a zero anywhere decides it, wherever it stands relative to an `unbounded`. -/

namespace StageFusion.Multiplicity

instance : AddLeftMono Multiplicity where
  elim a b c h := by
    show a + b ≤ a + c
    rw [← toENat_le, toENat_add, toENat_add]
    exact add_le_add_right (toENat_le.mpr h) _

/-! ## The value of a product -/

def number? : Multiplicity → Option Nat
  | exact n => some n
  | unbounded => none

theorem product_of_zero_mem {bounds : List Multiplicity} (h : exact 0 ∈ bounds) :
    product bounds = exact 0 := by
  rw [product_eq_prod]
  exact List.prod_eq_zero h

theorem product_of_unbounded_mem {bounds : List Multiplicity} (hzero : exact 0 ∉ bounds)
    (h : unbounded ∈ bounds) : product bounds = unbounded := by
  rw [product_eq_prod]
  exact prod_eq_unbounded h hzero

theorem product_of_numbers {bounds : List Multiplicity} (h : unbounded ∉ bounds) :
    product bounds = exact (bounds.filterMap number?).prod := by
  rw [product_eq_prod]
  induction bounds with
  | nil => rfl
  | cons b bounds ih =>
    rw [List.mem_cons, not_or] at h
    cases b with
    | unbounded => exact absurd rfl h.1
    | exact n =>
      have hnumber : number? (exact n) = some n := rfl
      calc (exact n :: bounds).prod
          = exact n * exact (bounds.filterMap number?).prod := by rw [List.prod_cons, ih h.2]
        _ = exact ((exact n :: bounds).filterMap number?).prod := by
            rw [exact_mul_exact, List.filterMap_cons_some hnumber, List.prod_cons]

/-! ## The laws -/

/-- The laws of an ordered commutative semiring with a top element, at four bounds. -/
structure Laws (a b c d : Multiplicity) : Prop where
  add_comm : a + b = b + a
  add_assoc : a + b + c = a + (b + c)
  zero_add : exact 0 + a = a
  mul_comm : a * b = b * a
  mul_assoc : a * b * c = a * (b * c)
  one_mul : exact 1 * a = a
  mul_add : a * (b + c) = a * b + a * c
  zero_mul : exact 0 * a = exact 0
  le_refl : a ≤ a
  le_trans : a ≤ b → b ≤ c → a ≤ c
  le_antisymm : a ≤ b → b ≤ a → a = b
  le_total : a ≤ b ∨ b ≤ a
  le_top : a ≤ unbounded
  lt_iff : a < b ↔ ¬ b ≤ a
  max_le_iff : max a b ≤ c ↔ a ≤ c ∧ b ≤ c
  le_min_iff : c ≤ min a b ↔ c ≤ a ∧ c ≤ b
  add_mono : a ≤ b → c ≤ d → a + c ≤ b + d
  mul_mono : a ≤ b → c ≤ d → a * c ≤ b * d
  max_mono : a ≤ b → c ≤ d → max a c ≤ max b d
  min_mono : a ≤ b → c ≤ d → min a c ≤ min b d

/-- The laws of the product of a list: its value in each case, that the order of the factors does
not matter, and that it takes concatenation to multiplication. -/
structure ProductLaws (xs ys : List Multiplicity) : Prop where
  value : product xs =
    if exact 0 ∈ xs then exact 0
    else if unbounded ∈ xs then unbounded
    else exact (xs.filterMap number?).prod
  perm : xs.Perm ys → product xs = product ys
  append : product (xs ++ ys) = product xs * product ys

theorem productLaws (xs ys : List Multiplicity) : ProductLaws xs ys where
  value := by
    split
    case isTrue hzero => exact product_of_zero_mem hzero
    case isFalse hzero =>
      split
      case isTrue h => exact product_of_unbounded_mem hzero h
      case isFalse h => exact product_of_numbers h
  perm h := by
    rw [product_eq_prod, product_eq_prod]
    exact h.prod_eq
  append := by
    rw [product_eq_prod, product_eq_prod, product_eq_prod]
    exact List.prod_append

/-- **Bounds are an ordered commutative semiring with `unbounded` on top.** Zero annihilates, also
against `unbounded`; sums, products, maxima and minima are monotone in both arguments; and the
product of a list is zero if a factor is, else `unbounded` if a factor is, else the product of the
numbers. -/
theorem ordered_semiring (a b c d : Multiplicity) (xs ys : List Multiplicity) :
    Laws a b c d ∧ ProductLaws xs ys where
  left := {
    add_comm := add_comm a b
    add_assoc := add_assoc a b c
    zero_add := zero_add a
    mul_comm := mul_comm a b
    mul_assoc := mul_assoc a b c
    one_mul := one_mul a
    mul_add := mul_add a b c
    zero_mul := zero_mul a
    le_refl := le_refl a
    le_trans := le_trans
    le_antisymm := le_antisymm
    le_total := le_total a b
    le_top := le_unbounded a
    lt_iff := not_le.symm
    max_le_iff := max_le_iff
    le_min_iff := le_min_iff
    add_mono := add_le_add
    mul_mono := mul_le_mul'
    max_mono := max_le_max
    min_mono := min_le_min }
  right := productLaws xs ys

/-- A zero decides a product on either side of an `unbounded`, and without the zero the `unbounded`
does. -/
theorem ordered_semiring_two_three :
    (exact 2 ≤ exact 3 ∧ exact 3 ≤ unbounded ∧ exact 2 * exact 3 ≤ exact 3 * unbounded) ∧
      product [exact 2, unbounded, exact 0] = exact 0 ∧
      product [exact 0, unbounded, exact 2] = exact 0 ∧
      product ([exact 2, unbounded] ++ [exact 3]) = unbounded := by
  have hle : exact 2 ≤ exact 3 := by decide
  have htop : exact 3 ≤ unbounded := by decide
  obtain ⟨laws, products⟩ :=
    ordered_semiring (exact 2) (exact 3) (exact 3) unbounded
      [exact 2, unbounded, exact 0] [exact 0, unbounded, exact 2]
  have hperm : [exact 2, unbounded, exact 0].Perm [exact 0, unbounded, exact 2] := by decide
  have hfirst : product [exact 2, unbounded, exact 0] = exact 0 := products.value
  refine ⟨⟨hle, htop, laws.mul_mono hle htop⟩, hfirst, ?_, ?_⟩
  · rw [← products.perm hperm, hfirst]
  · exact (ordered_semiring 0 0 0 0 [exact 2, unbounded] [exact 3]).2.append

end StageFusion.Multiplicity
