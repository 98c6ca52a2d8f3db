/-! Multiplicities: how often an effect may run for one logical input.

A multiplicity is a natural number or `unbounded`, the top element. Addition and multiplication
extend those of the naturals, `unbounded` absorbing every other operand with one exception: zero
times anything is zero, since an effect whose input never arrives never runs. `product` folds the
multiplication over a list. -/

namespace StageFusion

/-- A bound on a number of runs. -/
inductive Multiplicity where
  | exact (count : Nat)
  | unbounded
  deriving DecidableEq, Repr, Inhabited

namespace Multiplicity

instance : Zero Multiplicity := ⟨exact 0⟩

instance : One Multiplicity := ⟨exact 1⟩

/-- The bound of two independent branches together. -/
protected def add : Multiplicity → Multiplicity → Multiplicity
  | exact m, exact n => exact (m + n)
  | _, _ => unbounded

instance : Add Multiplicity := ⟨Multiplicity.add⟩

/-- The bound of one branch run for each run of the other. -/
protected def mul : Multiplicity → Multiplicity → Multiplicity
  | exact m, exact n => exact (m * n)
  | exact 0, unbounded => exact 0
  | unbounded, exact 0 => exact 0
  | _, _ => unbounded

instance : Mul Multiplicity := ⟨Multiplicity.mul⟩

/-- The order of bounds, with `unbounded` at the top. -/
protected def ble : Multiplicity → Multiplicity → Bool
  | _, unbounded => true
  | unbounded, exact _ => false
  | exact m, exact n => m ≤ n

instance : LE Multiplicity := ⟨fun a b => Multiplicity.ble a b = true⟩

instance : DecidableLE Multiplicity := fun a b =>
  inferInstanceAs (Decidable (Multiplicity.ble a b = true))

instance : LT Multiplicity := ⟨fun a b => a ≤ b ∧ a ≠ b⟩

instance : DecidableLT Multiplicity := fun a b =>
  inferInstanceAs (Decidable (a ≤ b ∧ a ≠ b))

instance : Max Multiplicity := ⟨fun a b => if a ≤ b then b else a⟩

instance : Min Multiplicity := ⟨fun a b => if a ≤ b then a else b⟩

def isFinite : Multiplicity → Bool
  | exact _ => true
  | unbounded => false

/-- The product of a list of bounds; one for the empty list. -/
def product (bounds : List Multiplicity) : Multiplicity :=
  bounds.foldl (· * ·) 1

/-- The text of a bound: a numeral, or the infinity sign. -/
def text : Multiplicity → String
  | exact n => toString n
  | unbounded => "∞"

/-! ## Laws of the operations on numbers and on the top element -/

@[simp]
theorem exact_add_exact (m n : Nat) : exact m + exact n = exact (m + n) := rfl

@[simp]
theorem add_unbounded (a : Multiplicity) : a + unbounded = unbounded := by
  cases a <;> rfl

@[simp]
theorem unbounded_add (a : Multiplicity) : unbounded + a = unbounded := by
  cases a <;> rfl

@[simp]
theorem exact_mul_exact (m n : Nat) : exact m * exact n = exact (m * n) := by
  cases m <;> rfl

@[simp]
theorem exact_mul_unbounded (n : Nat) :
    exact n * unbounded = if n = 0 then exact 0 else unbounded := by
  cases n <;> rfl

@[simp]
theorem unbounded_mul_exact (n : Nat) :
    unbounded * exact n = if n = 0 then exact 0 else unbounded := by
  cases n <;> rfl

@[simp]
theorem unbounded_mul_unbounded : unbounded * unbounded = unbounded := rfl

@[simp]
theorem exact_le_exact {m n : Nat} : exact m ≤ exact n ↔ m ≤ n := by
  show Multiplicity.ble _ _ = true ↔ _
  simp [Multiplicity.ble]

@[simp]
theorem le_unbounded (a : Multiplicity) : a ≤ unbounded := by
  cases a <;> rfl

@[simp]
theorem not_unbounded_le_exact (n : Nat) : ¬ unbounded ≤ exact n := by
  show ¬ Multiplicity.ble _ _ = true
  simp [Multiplicity.ble]

end Multiplicity

end StageFusion
