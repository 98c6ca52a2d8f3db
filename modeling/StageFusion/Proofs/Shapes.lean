import StageFusion.Proofs.Multiplicities
import StageFusion.Shape

/-! The algebra of composed shapes.

The bound of two shapes in sequence is the bound of the first times the factor of the second
(`bound_andThen`). The factor is the bound but for a conditional shape, where it is `unbounded`.

A second shape acts on the first by its factor alone: `andThen` multiplies the counts of the first
shape by it (`andThen_eq_scale`). So composition is associative as soon as the factor of the shape in
the middle is multiplied likewise (`andThen_assoc`), which fails only for a choice between two equal
counts: such a choice has no factor, and the constant that it is composed to has one. -/

namespace StageFusion

open Multiplicity (exact)

namespace Multiplicity

@[simp]
theorem max_exact (m n : Nat) : max (exact m) (exact n) = exact (max m n) := by
  rw [max_def]
  by_cases h : m ≤ n
  · simp [h]
  · simp [h, Nat.le_of_not_le h]

end Multiplicity

namespace Shape

@[simp]
theorem bound_ofBound (m : Multiplicity) : (ofBound m).bound = m := by
  cases m <;> rfl

theorem bound_ofChoice (m n : Multiplicity) : (ofChoice m n).bound = max m n := by
  cases m with
  | unbounded => cases n <;> simp [ofChoice, bound]
  | exact t =>
    cases n with
    | unbounded => simp [ofChoice, bound]
    | exact f =>
      by_cases h : t = f
      · simp [ofChoice, bound, h]
      · simp [ofChoice, bound, h]

/-- The bound of two shapes in sequence, with the factor of the second. -/
theorem bound_andThen (a b : Shape) : (a.andThen b).bound = a.bound * b.factor := by
  -- an upstream side without bound keeps none, unless the factor is zero
  have hunbounded : ∀ c : Shape, c.bound = .unbounded →
      (if b.factor = 0 then constant 0 else c).bound = .unbounded * b.factor := by
    intro c hc
    by_cases h : b.factor = 0
    · rw [if_pos h, h]
      rfl
    · rw [if_neg h, hc, Multiplicity.unbounded_mul h]
  cases a with
  | constant k => exact bound_ofBound _
  | conditional t f =>
    calc (ofChoice (exact t * b.factor) (exact f * b.factor)).bound
        = max (exact t * b.factor) (exact f * b.factor) := bound_ofChoice _ _
      _ = max (exact t) (exact f) * b.factor := (mul_left_mono.map_max).symm
      _ = exact (max t f) * b.factor := by rw [Multiplicity.max_exact]
  | dataDependent => exact hunbounded _ rfl
  | unbounded => exact hunbounded _ rfl

/-- Things with shapes that are joined as their shapes are: in a sequence the first gives its bound, every
other one its factor. -/
theorem bound_foldl {α : Type} (shape : α → Shape) {join : α → α → α}
    (hjoin : ∀ a b, shape (join a b) = (shape a).andThen (shape b)) (first : α) (rest : List α) :
    (shape (rest.foldl join first)).bound =
      (shape first).bound * (rest.map fun a => (shape a).factor).prod := by
  induction rest generalizing first with
  | nil => simp
  | cons a rest ih =>
    rw [List.foldl_cons, List.map_cons, List.prod_cons]
    calc (shape (rest.foldl join (join first a))).bound
        = (shape (join first a)).bound * (rest.map fun a => (shape a).factor).prod := ih _
      _ = (shape first).bound * (shape a).factor * (rest.map fun a => (shape a).factor).prod := by
        rw [hjoin, bound_andThen]
      _ = (shape first).bound * ((shape a).factor * (rest.map fun a => (shape a).factor).prod) :=
        mul_assoc _ _ _

theorem bound_le_factor (a : Shape) : a.bound ≤ a.factor := by
  cases a <;> simp [bound, factor]

/-- Whether the count is one of two, by a condition. -/
def isConditional : Shape → Bool
  | conditional .. => true
  | _ => false

theorem factor_eq_bound {a : Shape} (h : a.isConditional = false) : a.factor = a.bound := by
  cases a with
  | conditional => simp [isConditional] at h
  | _ => rfl

theorem factor_eq_one_iff {a : Shape} : a.factor = 1 ↔ a = constant 1 := by
  constructor
  · intro h
    cases a with
    | constant k =>
      obtain rfl : k = 1 := Multiplicity.exact.inj h
      rfl
    | _ => cases h
  · rintro rfl
    rfl

theorem factor_of_isConditional {a : Shape} (h : a.isConditional = true) :
    a.factor = .unbounded := by
  cases a with
  | conditional => rfl
  | _ => simp [isConditional] at h

theorem exists_bound_of_isConditional {a : Shape} (h : a.isConditional = true) :
    ∃ n, a.bound = exact n := by
  cases a with
  | conditional t f => exact ⟨max t f, rfl⟩
  | _ => simp [isConditional] at h

/-- A choice is left only where there was one upstream. -/
theorem isConditional_andThen {a b : Shape} (h : a.isConditional = false) :
    (a.andThen b).isConditional = false := by
  cases a with
  | constant k =>
    rw [andThen]
    cases exact k * b.factor <;> rfl
  | conditional => simp [isConditional] at h
  | dataDependent => by_cases hb : b.factor = 0 <;> simp [andThen, hb, isConditional]
  | unbounded => by_cases hb : b.factor = 0 <;> simp [andThen, hb, isConditional]

/-! ## Composition as multiplication of counts -/

/-- The shape of a usage with all of its counts multiplied by `n`. -/
def scale (a : Shape) (n : Multiplicity) : Shape :=
  match a with
  | constant k => ofBound (exact k * n)
  | conditional t f => ofChoice (exact t * n) (exact f * n)
  | a => if n = 0 then constant 0 else a

theorem andThen_eq_scale (a b : Shape) : a.andThen b = a.scale b.factor := by
  cases a <;> rfl

theorem scale_conditional (t f : Nat) (n : Multiplicity) :
    (conditional t f).scale n = ofChoice (exact t * n) (exact f * n) := rfl

@[simp]
theorem scale_constant_zero (n : Multiplicity) : (constant 0).scale n = constant 0 :=
  congrArg ofBound (zero_mul n)

@[simp]
theorem scale_dataDependent {n : Multiplicity} (h : n ≠ 0) :
    dataDependent.scale n = dataDependent :=
  if_neg h

@[simp]
theorem scale_unbounded {n : Multiplicity} (h : n ≠ 0) : unbounded.scale n = unbounded :=
  if_neg h

@[simp]
theorem factor_ofBound (m : Multiplicity) : (ofBound m).factor = m := by
  cases m <;> rfl

theorem ofChoice_self (m : Multiplicity) : ofChoice m m = ofBound m := by
  cases m <;> simp [ofChoice, ofBound]

theorem scale_zero (a : Shape) : a.scale 0 = constant 0 := by
  cases a with
  | constant k => rw [scale, mul_zero]; rfl
  | conditional t f => rw [scale, mul_zero, mul_zero]; rfl
  | dataDependent => rfl
  | unbounded => rfl

theorem scale_ofBound (m n : Multiplicity) : (ofBound m).scale n = ofBound (m * n) := by
  cases m with
  | exact k => rfl
  | unbounded =>
    by_cases hn : n = 0
    · rw [hn, scale_zero, mul_zero]
      rfl
    · rw [Multiplicity.unbounded_mul hn]
      exact scale_unbounded hn

theorem scale_ofChoice_exact (t f : Nat) (n : Multiplicity) :
    (ofChoice (exact t) (exact f)).scale n = ofChoice (exact t * n) (exact f * n) := by
  by_cases h : t = f
  · rw [h, ofChoice_self, ofChoice_self, scale_ofBound]
  · simp [ofChoice, h, scale]

/-- Counts that have been multiplied by `unbounded` are zero or not known any more. -/
theorem scale_scale_unbounded (a : Shape) {n : Multiplicity} (hn : n ≠ 0) :
    (a.scale .unbounded).scale n = a.scale .unbounded := by
  cases a with
  | constant k => rw [scale, scale_ofBound, mul_assoc, Multiplicity.unbounded_mul hn]
  | conditional t f =>
    rw [scale_conditional]
    by_cases ht : t = 0 <;> by_cases hf : f = 0 <;> simp [ofChoice, ht, hf, hn]
  | dataDependent => simp [hn]
  | unbounded => simp [hn]

theorem scale_scale (a : Shape) (m n : Multiplicity) : (a.scale m).scale n = a.scale (m * n) := by
  by_cases hn : n = 0
  · rw [hn, mul_zero, scale_zero, scale_zero]
  by_cases hm : m = 0
  · rw [hm, zero_mul, scale_zero, scale_constant_zero]
  cases m with
  | unbounded => rw [Multiplicity.unbounded_mul hn, scale_scale_unbounded a hn]
  | exact k =>
    cases a with
    | constant j => rw [scale, scale_ofBound, scale, mul_assoc]
    | conditional t f =>
      rw [scale_conditional, scale_conditional, Multiplicity.exact_mul_exact,
        Multiplicity.exact_mul_exact, scale_ofChoice_exact, ← Multiplicity.exact_mul_exact,
        ← Multiplicity.exact_mul_exact, mul_assoc, mul_assoc]
    | dataDependent => simp [hm, hn]
    | unbounded => simp [hm, hn]

/-- A choice, if there is one, is between two different counts. -/
def Reduced : Shape → Prop
  | conditional t f => t ≠ f
  | _ => True

instance : DecidablePred Reduced := fun a =>
  match a with
  | conditional t f => inferInstanceAs (Decidable (t ≠ f))
  | constant _ | dataDependent | unbounded => isTrue trivial

theorem reduced_scale (a : Shape) (n : Multiplicity) : (a.scale n).Reduced := by
  cases a with
  | constant k =>
    rw [scale]
    cases exact k * n <;> trivial
  | conditional t f =>
    rw [scale]
    cases exact t * n <;> cases exact f * n <;> simp only [ofChoice]
    · split
      · trivial
      · assumption
    all_goals trivial
  | dataDependent => by_cases hn : n = 0 <;> simp [scale, hn, Reduced]
  | unbounded => by_cases hn : n = 0 <;> simp [scale, hn, Reduced]

/-- Composed shapes are reduced, whatever they are composed of. -/
theorem reduced_andThen (a b : Shape) : (a.andThen b).Reduced := by
  rw [andThen_eq_scale]
  exact reduced_scale a b.factor

theorem factor_scale {a : Shape} (h : a.Reduced) (n : Multiplicity) :
    (a.scale n).factor = a.factor * n := by
  by_cases hn : n = 0
  · rw [hn, scale_zero, mul_zero]
    rfl
  cases a with
  | constant k => exact factor_ofBound _
  | conditional t f =>
    -- two different counts stay different, or become zero and unbounded
    rw [show (conditional t f).factor = .unbounded from rfl, Multiplicity.unbounded_mul hn]
    cases n with
    | exact k =>
      have hk : k ≠ 0 := fun hk => hn (by rw [hk]; rfl)
      have hne : t * k ≠ f * k := fun heq => h (Nat.eq_of_mul_eq_mul_right (by omega) heq)
      simp [scale, ofChoice, hne, factor]
    | unbounded =>
      by_cases ht : t = 0 <;> by_cases hf : f = 0 <;> simp [scale, ofChoice, ht, hf, factor]
      exact h (ht.trans hf.symm)
  | dataDependent => simp [hn, factor, Multiplicity.unbounded_mul hn]
  | unbounded => simp [hn, factor, Multiplicity.unbounded_mul hn]

theorem factor_andThen {b : Shape} (h : b.Reduced) (c : Shape) :
    (b.andThen c).factor = b.factor * c.factor := by
  rw [andThen_eq_scale, factor_scale h]

/-- Composition is associative around every reduced shape. -/
theorem andThen_assoc {b : Shape} (h : b.Reduced) (a c : Shape) :
    (a.andThen b).andThen c = a.andThen (b.andThen c) := by
  calc (a.andThen b).andThen c
      = (a.scale b.factor).scale c.factor := by rw [andThen_eq_scale, andThen_eq_scale]
    _ = a.scale (b.factor * c.factor) := scale_scale a _ _
    _ = a.scale (b.andThen c).factor := by rw [factor_andThen h]
    _ = a.andThen (b.andThen c) := (andThen_eq_scale _ _).symm

/-- Around a choice between equal counts it is not. -/
example : ((constant 1).andThen (conditional 2 2)).andThen (constant 1) = unbounded ∧
    (constant 1).andThen ((conditional 2 2).andThen (constant 1)) = constant 2 := by
  decide

end Shape

end StageFusion
