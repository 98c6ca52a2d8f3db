import StageFusion.Fusion.Verdict
import StageFusion.Proofs.Shapes

/-! Which names a registry knows, and what fused names stand for.

A fused name is known just if both of its parts are (`isSome_resolve_fusedName`), and only known
names are allowed to be fused (`isSome_resolve_of_allowed`).

The record of a fused name goes on from the record of its first part with the components of its
second part one by one (`exists_resolve_fusedName`). Its category is the join of both categories, and
it has a choice only if the first part has one (`Operator.Joined`). If the shapes of the registry are
reduced, it is the record of the two parts fused (`resolve_fusedName`). -/

namespace StageFusion

theorem forall_mem_of_mapM {α β : Type} {f : α → Option β} {P : β → Prop}
    (hf : ∀ a b, f a = some b → P b) {xs : List α} {ys : List β} (h : xs.mapM f = some ys) :
    ∀ b ∈ ys, P b := by
  induction xs generalizing ys with
  | nil =>
    cases h
    simp
  | cons a xs ih =>
    simp only [List.mapM_cons, Option.bind_eq_bind, Option.bind_eq_some_iff] at h
    obtain ⟨b, hb, rest, hrest, heq⟩ := h
    cases heq
    exact List.forall_mem_cons.mpr ⟨hf a b hb, ih hrest⟩

theorem mapM_congr {m : Type → Type} [Monad m] [LawfulMonad m] {α β : Type} {f g : α → m β}
    {xs : List α} (h : ∀ a ∈ xs, f a = g a) : xs.mapM f = xs.mapM g := by
  induction xs with
  | nil => rfl
  | cons a xs ih =>
    obtain ⟨ha, hxs⟩ := List.forall_mem_cons.mp h
    rw [List.mapM_cons, List.mapM_cons, ha, ih hxs]

namespace Operator

/-! ## Records of several operators -/

theorem andThen_assoc {b : Operator} (h : b.shape.Reduced) (a c : Operator) :
    (a.andThen b).andThen c = a.andThen (b.andThen c) := by
  simp only [andThen, mk.injEq]
  exact ⟨fusedName_assoc _ _ _, Category.join_assoc _ _ _, Shape.andThen_assoc h _ _⟩

/-- A sequence that starts with a reduced record can be fused on its own first. -/
theorem foldl_andThen {first : Operator} (h : first.shape.Reduced) (a : Operator)
    (rest : List Operator) :
    rest.foldl andThen (a.andThen first) = a.andThen (rest.foldl andThen first) := by
  induction rest generalizing first with
  | nil => rfl
  | cons m rest ih =>
    rw [List.foldl_cons, List.foldl_cons, andThen_assoc h, ih (Shape.reduced_andThen _ _)]

/-- The categories of a sequence can be joined in any grouping. -/
theorem category_foldl_andThen (a first : Operator) (rest : List Operator) :
    (rest.foldl andThen (a.andThen first)).category =
      a.category.join (rest.foldl andThen first).category := by
  induction rest generalizing a first with
  | nil => rfl
  | cons m rest ih =>
    rw [List.foldl_cons, List.foldl_cons, ih, ih]
    exact Category.join_assoc _ _ _

theorem isConditional_foldl_andThen {a : Operator} (h : a.shape.isConditional = false)
    (rest : List Operator) : (rest.foldl andThen a).shape.isConditional = false := by
  induction rest generalizing a with
  | nil => exact h
  | cons m rest ih => exact ih (Shape.isConditional_andThen h)

theorem bound_foldl_andThen (a : Operator) (rest : List Operator) :
    (rest.foldl andThen a).bound = a.bound * (rest.map (·.shape.factor)).prod :=
  Shape.bound_foldl shape (fun _ _ => rfl) a rest

theorem factor_foldl_andThen {a : Operator} (h : a.shape.Reduced) (rest : List Operator) :
    (rest.foldl andThen a).shape.factor = a.shape.factor * (rest.map (·.shape.factor)).prod := by
  induction rest generalizing a with
  | nil => simp
  | cons m rest ih =>
    calc ((m :: rest).foldl andThen a).shape.factor
        = (a.andThen m).shape.factor * (rest.map (·.shape.factor)).prod :=
          ih (Shape.reduced_andThen _ _)
      _ = a.shape.factor * m.shape.factor * (rest.map (·.shape.factor)).prod := by
        rw [andThen, Shape.factor_andThen h]
      _ = a.shape.factor * ((m :: rest).map (·.shape.factor)).prod := by
        rw [List.map_cons, List.prod_cons, mul_assoc]

/-- What the record of a fused name has of the records of its parts, however these are grouped. -/
structure Joined (a b whole : Operator) : Prop where
  category : whole.category = a.category.join b.category
  isConditional : a.shape.isConditional = false → whole.shape.isConditional = false

end Operator

namespace Registry

/-! ## Known names -/

theorem isSome_mapM_get? (r : Registry) (names : List String) :
    (names.mapM r.get?).isSome ↔ ∀ name ∈ names, (r.get? name).isSome := by
  induction names with
  | nil => simp
  | cons name names ih =>
    rw [List.mapM_cons, List.forall_mem_cons, ← ih]
    cases r.get? name with
    | none => simp
    | some m => cases names.mapM r.get? <;> simp

/-- A name is known just if all of its components have a record. -/
theorem isSome_resolve_iff (r : Registry) (name : String) :
    (r.resolve name).isSome ↔ ∀ c ∈ components name, (r.get? c).isSome := by
  obtain ⟨c, cs, hc⟩ := List.exists_cons_of_ne_nil (components_ne_nil name)
  rw [resolve, hc, List.mapM_cons, List.forall_mem_cons, ← isSome_mapM_get?]
  cases r.get? c with
  | none => simp
  | some m => cases cs.mapM r.get? <;> simp [Operator.fuseAll?]

/-- A fused name is known just if both of its parts are. -/
theorem isSome_resolve_fusedName (r : Registry) (up down : String) :
    (r.resolve (fusedName up down)).isSome ↔
      (r.resolve up).isSome ∧ (r.resolve down).isSome := by
  simp only [isSome_resolve_iff, components_fusedName, List.mem_append, or_imp, forall_and]

def Allows (r : Registry) (up down : String) : Prop :=
  ∃ rule bound, r.verdict up down = .ok (.allowed rule bound)

/-- Only known names are allowed to be fused. -/
theorem isSome_resolve_of_allowed {r : Registry} {up down : String} {rule : Rule}
    {bound : Multiplicity} (h : r.verdict up down = .ok (.allowed rule bound)) :
    (r.resolve up).isSome ∧ (r.resolve down).isSome := by
  rw [verdict] at h
  cases hup : r.resolve up with
  | none => cases hdown : r.resolve down <;> rw [hup, hdown] at h <;> cases h
  | some a =>
    cases hdown : r.resolve down with
    | none =>
      rw [hup, hdown] at h
      cases h
    | some b => exact ⟨rfl, rfl⟩

/-! ## Records of fused names -/

theorem resolve_eq_some_iff {r : Registry} {name : String} {m : Operator} :
    r.resolve name = some m ↔ ∃ first rest, (components name).mapM r.get? = some (first :: rest) ∧
      rest.foldl Operator.andThen first = m := by
  rw [resolve, Option.bind_eq_bind, Option.bind_eq_some_iff]
  constructor
  · rintro ⟨ms, hms, hm⟩
    cases ms with
    | nil => simp [Operator.fuseAll?] at hm
    | cons first rest => exact ⟨first, rest, hms, Option.some.inj hm⟩
  · rintro ⟨first, rest, hms, hm⟩
    exact ⟨first :: rest, hms, congrArg some hm⟩

/-- The record of a fused name goes on from that of its first part. -/
theorem exists_resolve_fusedName {r : Registry} {up down : String} {a b : Operator}
    (hup : r.resolve up = some a) (hdown : r.resolve down = some b) :
    ∃ (first : Operator) (rest : List Operator), (∀ m ∈ first :: rest, m ∈ r.operators) ∧
      rest.foldl Operator.andThen first = b ∧
      r.resolve (fusedName up down) = some (rest.foldl Operator.andThen (a.andThen first)) := by
  obtain ⟨firstUp, restUp, hmapUp, rfl⟩ := resolve_eq_some_iff.mp hup
  obtain ⟨first, rest, hmap, hb⟩ := resolve_eq_some_iff.mp hdown
  have hmem : ∀ m ∈ first :: rest, m ∈ r.operators :=
    forall_mem_of_mapM (fun _ _ => List.mem_of_find?_eq_some) hmap
  refine ⟨first, rest, hmem, hb, ?_⟩
  refine resolve_eq_some_iff.mpr ⟨firstUp, restUp ++ first :: rest, ?_, ?_⟩
  · simp [components_fusedName, List.mapM_append, hmapUp, hmap]
  · rw [List.foldl_append, List.foldl_cons]

/-- The record of a fused name in relation to the records of its parts, in every registry. -/
theorem exists_joined {r : Registry} {up down : String} {a b : Operator}
    (hup : r.resolve up = some a) (hdown : r.resolve down = some b) :
    ∃ whole, r.resolve (fusedName up down) = some whole ∧ a.Joined b whole := by
  obtain ⟨first, rest, _, rfl, hwhole⟩ := exists_resolve_fusedName hup hdown
  exact ⟨_, hwhole, Operator.category_foldl_andThen a first rest,
    fun h => Operator.isConditional_foldl_andThen (Shape.isConditional_andThen h) rest⟩

theorem joined_of_resolve {r : Registry} {up down : String} {whole : Operator}
    (h : r.resolve (fusedName up down) = some whole) :
    ∃ a b, r.resolve up = some a ∧ r.resolve down = some b ∧ a.Joined b whole := by
  obtain ⟨hup, hdown⟩ := (r.isSome_resolve_fusedName up down).mp (by rw [h]; rfl)
  obtain ⟨a, ha⟩ := Option.isSome_iff_exists.mp hup
  obtain ⟨b, hb⟩ := Option.isSome_iff_exists.mp hdown
  obtain ⟨whole', hwhole, hjoined⟩ := exists_joined ha hb
  obtain rfl : whole = whole' := Option.some.inj (h.symm.trans hwhole)
  exact ⟨a, b, ha, hb, hjoined⟩

/-- No record of the registry has a choice between two equal counts. -/
def Reduced (r : Registry) : Prop :=
  ∀ m ∈ r.operators, m.shape.Reduced

instance (r : Registry) : Decidable r.Reduced :=
  inferInstanceAs (Decidable (∀ m ∈ r.operators, m.shape.Reduced))

theorem resolve_fusedName {r : Registry} (hr : r.Reduced) {up down : String} {a b : Operator}
    (hup : r.resolve up = some a) (hdown : r.resolve down = some b) :
    r.resolve (fusedName up down) = some (a.andThen b) := by
  obtain ⟨first, rest, hmem, rfl, hm⟩ := exists_resolve_fusedName hup hdown
  rw [hm, Operator.foldl_andThen (hr first (hmem first List.mem_cons_self))]

end Registry

end StageFusion
