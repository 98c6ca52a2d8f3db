import StageFusion.Proofs.Resolution
import StageFusion.Registry.Builtin

/-! How the record of a fused name depends on the grouping of its parts.

A name is resolved from left to right: the record of its first component is scaled by the factor of
every further one (`Operator.shape_foldl_andThen`). Fusing the record of a second part instead scales
the first part by the factor of a shape that has been folded on its own. The two factors differ just
if the second part begins with a choice between two equal counts and goes on behind it. Such a choice
has no factor, but as soon as it has been composed it is a constant and has one.
`Operator.DependsOnGrouping` is the condition under which this is seen in the whole
(`Operator.shape_foldl_andThen_eq_iff`).

A `Grouping` is a tree of fusions over operators. Its record is the one of its operators in their
order, unless one of them, other than the first and the last, has a choice between equal counts
(`Grouping.fuseAll?_operators`). -/

namespace StageFusion

open Multiplicity (exact)

namespace Shape

theorem exists_eq_conditional_of_not_reduced {a : Shape} (h : ¬ a.Reduced) :
    ∃ k, a = conditional k k := by
  cases a with
  | conditional t f =>
    have heq : t = f := by simpa [Reduced] using h
    exact ⟨f, by rw [heq]⟩
  | _ => exact absurd trivial h

/-- A choice between equal counts, once it has been scaled, is a constant. -/
theorem factor_scale_conditional_self (k : Nat) (n : Multiplicity) :
    ((conditional k k).scale n).factor = exact k * n := by
  rw [scale_conditional, ofChoice_self, factor_ofBound]

/-- Counts that are multiplied by a number can be told from those multiplied by `unbounded`, unless all
of them are zero, or there are none and the number is not zero. -/
theorem scale_exact_eq_scale_unbounded_iff (a : Shape) (n : Nat) :
    a.scale (exact n) = a.scale .unbounded ↔
      a.bound = 0 ∨ (a.bound.isFinite = false ∧ n ≠ 0) := by
  have hzero : ∀ k, exact k = 0 ↔ k = 0 := fun k => ⟨Multiplicity.exact.inj, fun h => by rw [h]; rfl⟩
  cases a with
  | constant k =>
    by_cases hk : k = 0 <;>
      simp [scale, ofBound, bound, Multiplicity.isFinite, hk, hzero]
  | conditional t f =>
    simp only [scale_conditional, bound, Multiplicity.isFinite, hzero]
    by_cases ht : t = 0 <;> by_cases hf : f = 0 <;> simp [ofChoice, ht, hf] <;>
      split_ifs <;> simp
  | dataDependent =>
    by_cases hn : n = 0 <;> simp [scale, bound, Multiplicity.isFinite, hzero, hn]
  | unbounded =>
    by_cases hn : n = 0 <;> simp [scale, bound, Multiplicity.isFinite, hzero, hn]

/-- The factor of a choice and that of its constant, with the factor `n` behind them, are told apart by
what they scale if nothing is zero and, but for the count zero, nothing is unbounded. -/
theorem scale_unbounded_mul_eq_iff (a : Shape) (k : Nat) (n : Multiplicity) :
    a.scale (.unbounded * n) = a.scale (exact k * n) ↔
      ¬ (a.bound ≠ 0 ∧ n ≠ 0 ∧ (k = 0 ∨ (a.bound.isFinite = true ∧ n.isFinite = true))) := by
  by_cases hn : n = 0
  · simp [hn]
  rw [Multiplicity.unbounded_mul hn]
  cases n with
  | exact j =>
    have hj : j ≠ 0 := fun hj => hn (by rw [hj]; rfl)
    rw [Multiplicity.exact_mul_exact, eq_comm, scale_exact_eq_scale_unbounded_iff]
    cases a.bound.isFinite <;> simp [hn, hj, Multiplicity.isFinite, or_iff_not_imp_left]
  | unbounded =>
    by_cases hk : k = 0
    · rw [Multiplicity.exact_mul_unbounded, if_pos hk, eq_comm, scale_exact_eq_scale_unbounded_iff]
      simp [hk]
    · rw [Multiplicity.exact_mul_unbounded, if_neg hk]
      simp [hk, Multiplicity.isFinite]

end Shape

namespace Operator

theorem name_foldl_andThen (a first : Operator) (rest : List Operator) :
    (rest.foldl andThen (a.andThen first)).name =
      fusedName a.name (rest.foldl andThen first).name := by
  induction rest generalizing a first with
  | nil => rfl
  | cons m rest ih =>
    rw [List.foldl_cons, List.foldl_cons, ih, ih]
    exact fusedName_assoc _ _ _

theorem shape_foldl_andThen (a first : Operator) (rest : List Operator) :
    (rest.foldl andThen (a.andThen first)).shape =
      a.shape.scale (first.shape.factor * (rest.map (·.shape.factor)).prod) := by
  induction rest generalizing a first with
  | nil => exact (Shape.andThen_eq_scale _ _).trans (by simp)
  | cons m rest ih =>
    calc ((m :: rest).foldl andThen (a.andThen first)).shape
        = (a.shape.andThen first.shape).scale (m.shape.factor * (rest.map (·.shape.factor)).prod) :=
          ih (a.andThen first) m
      _ = a.shape.scale (first.shape.factor * ((m :: rest).map (·.shape.factor)).prod) := by
        rw [Shape.andThen_eq_scale, Shape.scale_scale, List.map_cons, List.prod_cons]

/-- Behind `a`, it makes a difference whether a sequence of operators is fused on its own first: it
begins with a choice between two equal counts and goes on. Neither side hides the difference by a zero,
and none by being unbounded, unless the count itself is zero. -/
structure DependsOnGrouping (a first : Operator) (rest : List Operator) : Prop where
  goesOn : rest ≠ []
  upBound : a.bound ≠ 0
  restFactor : (rest.map (·.shape.factor)).prod ≠ 0
  choice : ∃ k, first.shape = .conditional k k ∧ (k = 0 ∨
    (a.bound.isFinite = true ∧ (rest.map fun m : Operator => m.shape.factor).prod.isFinite = true))

theorem shape_foldl_andThen_eq_iff (a first : Operator) (rest : List Operator) :
    (rest.foldl andThen (a.andThen first)).shape = (a.andThen (rest.foldl andThen first)).shape ↔
      ¬ a.DependsOnGrouping first rest := by
  cases rest with
  | nil => exact ⟨fun _ h => h.goesOn rfl, fun _ => rfl⟩
  | cons m rest =>
    by_cases hfirst : first.shape.Reduced
    · rw [foldl_andThen hfirst]
      refine ⟨fun _ h => ?_, fun _ => rfl⟩
      obtain ⟨k, hk, _⟩ := h.choice
      rw [hk] at hfirst
      exact hfirst rfl
    · obtain ⟨k, hk⟩ := Shape.exists_eq_conditional_of_not_reduced hfirst
      -- on its own, the sequence has been folded to a constant
      have hfactor : ((m :: rest).foldl andThen first).shape.factor =
          exact k * ((m :: rest).map (·.shape.factor)).prod := by
        rw [List.foldl_cons, shape_foldl_andThen, hk, Shape.factor_scale_conditional_self,
          List.map_cons, List.prod_cons]
      have hown : (a.andThen ((m :: rest).foldl andThen first)).shape =
          a.shape.scale (exact k * ((m :: rest).map (·.shape.factor)).prod) := by
        rw [← hfactor]
        exact Shape.andThen_eq_scale _ _
      rw [hown, shape_foldl_andThen, hk, show (Shape.conditional k k).factor = .unbounded from rfl,
        Shape.scale_unbounded_mul_eq_iff]
      constructor
      · rintro hnot ⟨_, hup, hrest, j, hj, hchoice⟩
        obtain rfl : k = j := by
          rw [hk] at hj
          cases hj
          rfl
        exact hnot ⟨hup, hrest, hchoice⟩
      · rintro hnot ⟨hup, hrest, hchoice⟩
        exact hnot ⟨List.cons_ne_nil _ _, hup, hrest, k, hk, hchoice⟩

end Operator

/-! ## Groupings of a sequence -/

/-- A sequence of operators under a grouping of fusions. -/
inductive Grouping where
  | single (m : Operator)
  | fused (up down : Grouping)

namespace Grouping

def operators : Grouping → List Operator
  | single m => [m]
  | fused up down => up.operators ++ down.operators

/-- The record of the stage that a grouping is fused into. -/
def record : Grouping → Operator
  | single m => m
  | fused up down => up.record.andThen down.record

theorem exists_operators_eq_cons (g : Grouping) : ∃ first rest, g.operators = first :: rest := by
  induction g with
  | single m => exact ⟨m, [], rfl⟩
  | fused up down ihUp _ =>
    obtain ⟨first, rest, hup⟩ := ihUp
    exact ⟨first, rest ++ down.operators, by rw [operators, hup, List.cons_append]⟩

/-- A choice between equal counts does no harm at either end. -/
theorem fuseAll?_operators {g : Grouping}
    (h : ∀ m ∈ g.operators.tail.dropLast, m.shape.Reduced) :
    Operator.fuseAll? g.operators = some g.record := by
  induction g with
  | single m => rfl
  | fused up down ihUp ihDown =>
    obtain ⟨first, front, hup⟩ := up.exists_operators_eq_cons
    obtain ⟨second, back, hdown⟩ := down.exists_operators_eq_cons
    have hinner : (fused up down).operators.tail.dropLast = front ++ (second :: back).dropLast := by
      rw [operators, hup, hdown, List.cons_append, List.tail_cons,
        List.dropLast_append_of_ne_nil (List.cons_ne_nil _ _)]
    rw [hinner, List.forall_mem_append] at h
    obtain ⟨hfront, hback⟩ := h
    rw [hup, List.tail_cons] at ihUp
    have hupRecord := ihUp fun m hm => hfront m (List.dropLast_subset front hm)
    rw [hdown, List.tail_cons] at ihDown
    cases back with
    | nil =>
      have hdownRecord := Option.some.inj (ihDown (List.forall_mem_nil _))
      rw [operators, hup, hdown, record, ← Option.some.inj hupRecord, ← hdownRecord]
      simp [Operator.fuseAll?]
    | cons m back =>
      rw [List.dropLast_cons_of_ne_nil (List.cons_ne_nil _ _), List.forall_mem_cons] at hback
      obtain ⟨hsecond, hmore⟩ := hback
      have hdownRecord := Option.some.inj (ihDown hmore)
      rw [operators, hup, hdown, record, ← Option.some.inj hupRecord, ← hdownRecord,
        ← Operator.foldl_andThen hsecond]
      simp [Operator.fuseAll?]

end Grouping

/-! ## Names -/

/-- **Resolution against concatenation.** A fused name is unknown just if one of its parts is. Its record
has the name and the category of the records of both parts fused, and their shape as well, unless the
shape depends on the grouping. However the operators of a name are grouped, they are fused to the
record of that name, if none of them between the first and the last has a choice between equal
counts. -/
theorem resolve_concatenation (r : Registry) :
    (∀ up down : String,
      (r.resolve (fusedName up down) = none ↔ r.resolve up = none ∨ r.resolve down = none) ∧
      ∀ a b, r.resolve up = some a → r.resolve down = some b →
        ∃ whole first rest, r.resolve (fusedName up down) = some whole ∧
          (components down).mapM r.get? = some (first :: rest) ∧
          whole.name = (a.andThen b).name ∧ whole.category = (a.andThen b).category ∧
          (whole.shape = (a.andThen b).shape ↔ ¬ a.DependsOnGrouping first rest)) ∧
    ∀ (name : String) (g : Grouping), (components name).mapM r.get? = some g.operators →
      (∀ m ∈ g.operators.tail.dropLast, m.shape.Reduced) → r.resolve name = some g.record := by
  refine ⟨fun up down => ⟨?_, fun a b ha hb => ?_⟩, fun name g hname hg => ?_⟩
  · have hknown := r.isSome_resolve_fusedName up down
    simp only [Option.isSome_iff_ne_none] at hknown
    rw [← not_iff_not, not_or]
    exact hknown
  · obtain ⟨first, rest, hrest, rfl⟩ := Registry.resolve_eq_some_iff.mp hb
    obtain ⟨firstUp, restUp, hup, hfold⟩ := Registry.resolve_eq_some_iff.mp ha
    refine ⟨rest.foldl Operator.andThen (a.andThen first), first, rest, ?_, hrest, ?_, ?_, ?_⟩
    · refine Registry.resolve_eq_some_iff.mpr ⟨firstUp, restUp ++ first :: rest, ?_, ?_⟩
      · simp [components_fusedName, List.mapM_append, hup, hrest]
      · rw [List.foldl_append, List.foldl_cons, hfold]
    · exact Operator.name_foldl_andThen a first rest
    · exact Operator.category_foldl_andThen a first rest
    · exact Operator.shape_foldl_andThen_eq_iff a first rest
  · rw [Registry.resolve, hname]
    exact Grouping.fuseAll?_operators hg

/-- The builtin operators and one that runs twice, whatever its condition says. -/
def Registry.withDouble : Registry :=
  Registry.builtin.put ⟨"double", .stateful, .conditional 2 2⟩ (by decide)

/-- At the front the choice does no harm, whether or not the operators behind it are fused first. -/
theorem double_map_scan_concatenation :
    (∃ whole, Registry.withDouble.resolve (fusedName "double" "map+scan") = some whole ∧
      whole.name = "double+map+scan" ∧ whole.category = .stateful ∧ whole.shape = .constant 2) ∧
    Registry.withDouble.resolve "double+map+scan" =
      some (Grouping.fused (.single ⟨"double", .stateful, .conditional 2 2⟩)
        (.fused (.single ⟨"map", .stateless, .constant 1⟩)
          (.single ⟨"scan", .stateful, .constant 1⟩))).record := by
  obtain ⟨hconcatenation, hgrouping⟩ := resolve_concatenation Registry.withDouble
  constructor
  · obtain ⟨whole, first, rest, hwhole, hrest, hname, hcategory, hshape⟩ :=
      (hconcatenation "double" "map+scan").2 ⟨"double", .stateful, .conditional 2 2⟩
        ⟨"map+scan", .stateful, .constant 1⟩ (by decide +kernel) (by decide +kernel)
    refine ⟨whole, hwhole, hname, hcategory, hshape.mpr ?_⟩
    rintro ⟨_, _, _, k, hk, _⟩
    -- the second part begins with a constant count
    have hmap : (components "map+scan").mapM Registry.withDouble.get? =
        some [⟨"map", .stateless, .constant 1⟩, ⟨"scan", .stateful, .constant 1⟩] := by
      decide +kernel
    rw [hmap] at hrest
    cases hrest
    cases hk
  · exact hgrouping "double+map+scan" _ (by decide +kernel) (by decide +kernel)

/-- In the middle it is lost, unless it is fused with what follows it first. -/
theorem map_double_scan_depends_on_grouping : ∃ a b,
    Registry.withDouble.resolve "map" = some a ∧
    Registry.withDouble.resolve "double+scan" = some b ∧
    Registry.withDouble.resolve (fusedName "map" "double+scan") ≠ some (a.andThen b) :=
  ⟨⟨"map", .stateless, .constant 1⟩, ⟨"double+scan", .stateful, .constant 2⟩, by decide +kernel,
    by decide +kernel, by decide +kernel⟩

end StageFusion
