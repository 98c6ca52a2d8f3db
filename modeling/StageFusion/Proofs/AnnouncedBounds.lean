import StageFusion.Proofs.Agreement
import StageFusion.Proofs.Interruptions

/-! Announced bounds.

The bound of one usage after another is computed in several places. The composed shape has the bound of
the first times the factor of the second (`Shape.bound_andThen`), and so has the decision about two stages
(`Stage.fusedBound`); both are what the fused stage declares. A verdict announces the product of both
bounds instead (`Operator.bound_of_verdict`), or no bound at all for a name without a record, and
`Registry.raisesBound` multiplies declared bounds with `unbounded` in the place of such a name.

These differ in two cases. A conditional shape downstream has a bound but no factor, so the product may be
below the bound of the fused record (`Operator.bound_of_verdict_ne_iff`). Zero times `unbounded` is zero, so
nothing is raised by an unknown upstream side before one that never runs, although no bound is announced
(`Registry.raisesBound_iff_of_verdict`). -/

namespace StageFusion

open Multiplicity (exact)
open Service

/-! ## Fused stages -/

namespace Stage

/-- A sequence of stages, composed from the left, multiplies the bound of the first by the factors of the
others. -/
theorem bound_foldl_andThen (first : Stage) (rest : List Stage) :
    (rest.foldl andThen first).bound = first.bound * (rest.map (·.shape.factor)).prod :=
  Shape.bound_foldl shape (fun _ _ => rfl) first rest

end Stage

/-- **The declared bound is the bound of the composition.** The shape of two stages in sequence can be made
through checks only, and its bound is the declared one. A decision to fuse, which is made of just the pairs
that the registry allows, shows this bound and a stage that declares it. The bound of a sequence of shapes or
stages, composed from the left, is the bound of the first times the factors of the others in any order. -/
theorem composed_bounds :
    (∀ a b : Shape, a.buildAndThen b = .ok (a.andThen b) ∧
      (a.andThen b).bound = Shape.boundAfter a.bound b) ∧
    (∀ (r : Registry) (a b : Stage) (nameA nameB : String),
      (r.Allows nameA nameB ↔
        ∃ bound fused, (r.fuseStages a b nameA nameB).outcome = .ok (.fused bound fused)) ∧
      ∀ bound fused, (r.fuseStages a b nameA nameB).outcome = .ok (.fused bound fused) →
        bound = a.fusedBound b ∧ fused.bound = a.fusedBound b) ∧
    (∀ (first : Shape) (rest : List Shape) (factors : List Multiplicity),
      factors.Perm (rest.map Shape.factor) →
        ∃ whole, rest.foldlM Shape.buildAndThen first = .ok whole ∧
          whole.bound = first.bound * Multiplicity.product factors) ∧
    (∀ (first : Stage) (rest : List Stage) (factors : List Multiplicity),
      factors.Perm (rest.map (·.shape.factor)) →
        (rest.foldl Stage.andThen first).bound = first.bound * Multiplicity.product factors) := by
  refine ⟨fun a b => ⟨Shape.buildAndThen_eq a b, Shape.bound_andThen a b⟩, ?_, ?_, ?_⟩
  · intro r a b nameA nameB
    simp only [Registry.outcome_fuseStages_eq_fused_iff]
    constructor
    · exact ⟨fun h => ⟨_, _, h, rfl, rfl⟩, fun ⟨_, _, h, _⟩ => h⟩
    · rintro bound fused ⟨-, rfl, rfl⟩
      exact ⟨rfl, Stage.bound_andThenAs a b _⟩
  · intro first rest factors hperm
    refine ⟨_, Shape.foldlM_buildAndThen first rest, ?_⟩
    rw [Multiplicity.product_eq_prod, hperm.prod_eq]
    exact Shape.bound_foldl id (fun _ _ => rfl) first rest
  · intro first rest factors hperm
    rw [Stage.bound_foldl_andThen, Multiplicity.product_eq_prod, hperm.prod_eq]

/-- Before a stage with a choice the bound of the composition is lost, and in a sequence as well. -/
theorem map_throttleTime_composed :
    (∃ fused, (Registry.builtin.fuseStages (stageFor .builtin "map") (stageFor .builtin "throttleTime")
      "map" "throttleTime").outcome = .ok (.fused .unbounded fused) ∧ fused.bound = .unbounded) ∧
    ([stageFor .builtin "throttleTime", stageFor .builtin "scan"].foldl Stage.andThen
      (stageFor .builtin "map")).bound = .unbounded := by
  obtain ⟨-, hfused, -, hsequence⟩ := composed_bounds
  obtain ⟨hallows, hbounds⟩ := hfused .builtin (stageFor .builtin "map")
    (stageFor .builtin "throttleTime") "map" "throttleTime"
  obtain ⟨bound, fused, hdecision⟩ := hallows.mp ⟨.statelessIdentity, 1, by decide +kernel⟩
  obtain ⟨rfl, hbound⟩ := hbounds bound fused hdecision
  have hunbounded : (stageFor .builtin "map").fusedBound (stageFor .builtin "throttleTime") =
      .unbounded := by
    decide +kernel
  rw [hunbounded] at hdecision hbound
  refine ⟨⟨fused, hdecision, hbound⟩, ?_⟩
  rw [hsequence _ _ [1, .unbounded] (by decide +kernel)]
  decide +kernel

/-! ## Verdicts on two records -/

/-- What is lost when a number takes the place of `unbounded` in a product. -/
theorem Multiplicity.mul_exact_ne_mul_unbounded_iff (m : Multiplicity) (n : Nat) :
    m * exact n ≠ m * unbounded ↔ m ≠ 0 ∧ (m.isFinite = true ∨ exact n = 0) := by
  by_cases hm : m = 0
  · simp [hm]
  · rw [mul_comm m unbounded, unbounded_mul hm]
    cases m with
    | exact k => simp [isFinite, hm]
    | unbounded =>
      by_cases hn : exact n = 0
      · simp [hn, hm]
      · simp [unbounded_mul hn, hn, isFinite]

namespace Operator

variable {up down : Operator} {v : Verdict}

theorem bound_of_verdict (h : up.verdict down = .ok v) : v.bound = up.bound * down.bound := by
  rw [verdict] at h
  cases hj : up.judge down with
  | noRule =>
    rw [hj] at h
    obtain ⟨_, _, h⟩ := bind_eq_ok_iff.mp h
    obtain ⟨_, _, h⟩ := bind_eq_ok_iff.mp h
    cases h
    rfl
  | _ =>
    rw [hj] at h
    cases h
    rfl

theorem bound_andThen (up down : Operator) : (up.andThen down).bound = up.bound * down.shape.factor :=
  Shape.bound_andThen up.shape down.shape

/-- A fused record is never announced with too high a bound. -/
theorem bound_of_verdict_le (h : up.verdict down = .ok v) : v.bound ≤ (up.andThen down).bound := by
  rw [bound_of_verdict h, bound_andThen]
  exact mul_le_mul_right (Shape.bound_le_factor down.shape) _

theorem bound_of_verdict_eq (h : up.verdict down = .ok v) (hdown : down.shape.isConditional = false) :
    v.bound = (up.andThen down).bound := by
  rw [bound_of_verdict h, bound_andThen, Shape.factor_eq_bound hdown, bound, bound]

theorem bound_of_verdict_ne_iff (h : up.verdict down = .ok v) :
    v.bound ≠ (up.andThen down).bound ↔
      down.shape.isConditional = true ∧ up.bound ≠ 0 ∧ (up.bound.isFinite = true ∨ down.bound = 0) := by
  cases hdown : down.shape.isConditional with
  | false => simp [bound_of_verdict_eq h hdown]
  | true =>
    obtain ⟨n, hn⟩ := Shape.exists_bound_of_isConditional hdown
    rw [bound_of_verdict h, bound_andThen, Shape.factor_of_isConditional hdown, bound.eq_1 down, hn,
      Multiplicity.mul_exact_ne_mul_unbounded_iff]
    simp

/-- Stages with the shapes of two records are fused to the announced bound, if the downstream shape is not
conditional. -/
theorem exists_fused_of_verdict (h : up.verdict down = .ok v) (hallowed : v.isAllowed = true)
    (hdown : down.shape.isConditional = false) {r : Registry} {a b : Stage} {nameA nameB : String}
    (ha : a.shape = up.shape) (hb : b.shape = down.shape) (hup : r.resolve nameA = some up)
    (hname : r.resolve nameB = some down) :
    ∃ stage, (r.fuseStages a b nameA nameB).outcome = .ok (.fused v.bound stage) ∧
      stage.bound = v.bound := by
  have hv : r.verdict nameA nameB = .ok v := by
    rw [Registry.verdict, hup, hname]
    exact h
  have hbound : v.bound = a.fusedBound b := by
    rw [bound_of_verdict_eq h hdown, bound_andThen, bound, Stage.fusedBound, Stage.bound, ha, hb]
    rfl
  have hallows : r.Allows nameA nameB := by
    cases v with
    | allowed rule announced => exact ⟨rule, announced, hv⟩
    | refused => cases hallowed
  exact ⟨_, Registry.outcome_fuseStages_eq_fused_iff.mpr ⟨hallows, hbound, rfl⟩,
    (Stage.bound_andThenAs a b _).trans hbound.symm⟩

end Operator

/-- **What a verdict announces.** The verdict on two records is reached unless its reason would hold a
numeral that is too long. Its bound is at most that of the fused record, and below it just before a
conditional shape, where the upstream bound is a number other than zero, or `unbounded` before a choice
between zero and zero. Between stages of the same shapes, an allowed fusion without a conditional shape
downstream is made with the announced bound. -/
theorem announced_bounds (up down : Operator) :
    ((∃ v, up.verdict down = .ok v) ↔ ¬ up.Unspeakable down) ∧
    ∀ v, up.verdict down = .ok v →
      v.bound ≤ (up.andThen down).bound ∧
      (v.bound ≠ (up.andThen down).bound ↔ down.shape.isConditional = true ∧ up.bound ≠ 0 ∧
        (up.bound.isFinite = true ∨ down.bound = 0)) ∧
      (v.isAllowed = true → down.shape.isConditional = false →
        ∀ (r : Registry) (a b : Stage) (nameA nameB : String),
          a.shape = up.shape → b.shape = down.shape →
          r.resolve nameA = some up → r.resolve nameB = some down →
          ∃ stage, (r.fuseStages a b nameA nameB).outcome = .ok (.fused v.bound stage) ∧
            stage.bound = v.bound) := by
  refine ⟨(up.failsIff_verdict down).exists_ok_iff, fun v h => ?_⟩
  refine ⟨Operator.bound_of_verdict_le h, Operator.bound_of_verdict_ne_iff h, ?_⟩
  intro hallowed hdown r a b nameA nameB ha hb hup hname
  exact Operator.exists_fused_of_verdict h hallowed hdown ha hb hup hname

/-- Before a stage with a choice less is announced than the fused record declares, and before a stage that
runs once just as much. -/
theorem map_throttleTime_announced :
    (∃ v, (⟨"map", .stateless, .constant 1⟩ : Operator).verdict
        ⟨"throttleTime", .stateful, .conditional 1 0⟩ = .ok v ∧
      v.bound ≠ ((⟨"map", .stateless, .constant 1⟩ : Operator).andThen
        ⟨"throttleTime", .stateful, .conditional 1 0⟩).bound) ∧
    ∃ stage, (Registry.builtin.fuseStages (stageFor .builtin "map") (stageFor .builtin "scan")
      "map" "scan").outcome = .ok (.fused 1 stage) ∧ stage.bound = 1 := by
  constructor
  · obtain ⟨-, hbounds⟩ := announced_bounds ⟨"map", .stateless, .constant 1⟩
      ⟨"throttleTime", .stateful, .conditional 1 0⟩
    obtain ⟨-, hne, -⟩ := hbounds (.allowed .statelessIdentity 1) (by decide +kernel)
    exact ⟨_, by decide +kernel, hne.mpr (by decide +kernel)⟩
  · obtain ⟨-, hbounds⟩ := announced_bounds ⟨"map", .stateless, .constant 1⟩
      ⟨"scan", .stateful, .constant 1⟩
    obtain ⟨-, -, hfused⟩ := hbounds (.allowed .statelessIdentity 1) (by decide +kernel)
    exact hfused rfl rfl .builtin _ _ _ _ (by decide +kernel) (by decide +kernel)
      (by decide +kernel) (by decide +kernel)

/-- The refusal of a composite whose count has too long a numeral announces nothing. -/
theorem burst_merge_unannounced : ∃ up down,
    Registry.withBurst.resolve "burst+burst" = some up ∧
    Registry.withBurst.resolve "merge" = some down ∧ up.verdict down = .error .numeralWritten :=
  ⟨⟨"burst+burst", .stateful, .constant (10 ^ 4400)⟩, ⟨"merge", .stateful, .unbounded⟩,
    by decide +kernel, by decide +kernel, fault?_eq_some_iff.mp (by decide +kernel)⟩

/-! ## Verdicts on two names -/

namespace Registry

variable {r : Registry} {up down : String} {v : Verdict}

theorem boundOf_of_unknown (h : r.resolve up = none) : r.boundOf up = .unbounded := by
  rw [boundOf, h]
  rfl

/-- Without one of the records nothing is announced. -/
theorem bound_of_verdict_of_unknown (h : r.resolve up = none ∨ r.resolve down = none)
    (hv : r.verdict up down = .ok v) : v.bound = .unbounded := by
  rw [verdict] at hv
  cases hup : r.resolve up with
  | none =>
    rw [hup] at hv
    cases hdown : r.resolve down <;> rw [hdown] at hv <;> cases hv <;> rfl
  | some a =>
    have hdown : r.resolve down = none := by simpa [hup] using h
    rw [hup, hdown] at hv
    cases hv
    rfl

theorem bound_of_verdict_of_known {a b : Operator} (hup : r.resolve up = some a)
    (hdown : r.resolve down = some b) (hv : r.verdict up down = .ok v) :
    v.bound = r.boundOf up * r.boundOf down := by
  rw [verdict, hup, hdown] at hv
  rw [boundOf_of_resolve hup, boundOf_of_resolve hdown]
  exact Operator.bound_of_verdict hv

theorem raisesBound_iff : r.raisesBound up down = true ↔
    r.boundOf down < r.boundOf up * r.boundOf down := by
  rw [raisesBound, Bool.not_eq_true', decide_eq_false_iff_not, not_le]

theorem raisesBound_iff_of_verdict (hv : r.verdict up down = .ok v) :
    r.raisesBound up down = true ↔
      r.boundOf down < v.bound ∧ ¬ (r.resolve up = none ∧ r.boundOf down = 0) := by
  rw [raisesBound_iff]
  cases hup : r.resolve up with
  | none =>
    rw [bound_of_verdict_of_unknown (.inl hup) hv, boundOf_of_unknown hup]
    by_cases hzero : r.boundOf down = 0
    · simp [hzero]
    · simp [Multiplicity.unbounded_mul hzero, hzero]
  | some a =>
    simp only [reduceCtorEq, false_and, not_false_eq_true, and_true]
    cases hdown : r.resolve down with
    | none =>
      -- nothing is above a downstream side without bound
      rw [boundOf_of_unknown hdown]
      have hnot (m : Multiplicity) : ¬ .unbounded < m := not_lt.mpr (Multiplicity.le_unbounded m)
      exact iff_of_false (hnot _) (hnot _)
    | some b => rw [bound_of_verdict_of_known hup hdown hv]

/-- Names without over-long counts have a verdict. -/
theorem exists_verdict (h : ∀ a b, r.resolve up = some a → r.resolve down = some b →
    ∀ k ∈ a.shape.counts ++ b.shape.counts, k < numeralBound) : ∃ v, r.verdict up down = .ok v := by
  refine (r.failsIff_verdict up down).exists_ok_iff.mpr ?_
  rintro ⟨a, b, ha, hb, -, k, hk, hlong⟩
  exact absurd (h a b ha hb k hk) (not_lt.mpr hlong)

end Registry

/-- **The two bounds of a check agree, but for one case.** Whenever two names have a verdict, as they have
unless a count is too long to be written, the bound is said to be raised just if the announced bound is
above that of the downstream name. The one exception is an unknown upstream name before a bound of zero,
where `unbounded` is announced and nothing is said to be raised. The check of the two names shows both. -/
theorem raisesBound_agrees (r : Registry) (up down : String) :
    (∀ v, r.verdict up down = .ok v →
      (r.raisesBound up down = true ↔
        r.boundOf down < v.bound ∧ ¬ (r.resolve up = none ∧ r.boundOf down = 0)) ∧
      (r.resolve up = none → v.bound = .unbounded) ∧
      (up ≠ "" → down ≠ "" → ∃ reply,
        (answer r (checkRequest (.str up) (.str down))).outcome = .ok reply ∧
        reply.field? "fused_bound" = some v.bound.toValue ∧
        reply.field? "would_increase" = some (.bool (r.raisesBound up down)))) ∧
    ((∀ a b, r.resolve up = some a → r.resolve down = some b →
      ∀ k ∈ a.shape.counts ++ b.shape.counts, k < numeralBound) → ∃ v, r.verdict up down = .ok v) := by
  refine ⟨fun v hv => ⟨Registry.raisesBound_iff_of_verdict hv, ?_, ?_⟩, Registry.exists_verdict⟩
  · exact fun hup => Registry.bound_of_verdict_of_unknown (.inl hup) hv
  · intro hup hdown
    exact ⟨_, outcome_answer_checkRequest hup hdown hv, rfl, rfl⟩

/-- A stage without bound raises the bound of one that runs once. -/
theorem flatMap_map_raises : ∃ v, Registry.builtin.verdict "flatMap" "map" = .ok v ∧
    Registry.builtin.boundOf "map" < v.bound ∧ Registry.builtin.raisesBound "flatMap" "map" = true := by
  obtain ⟨hagrees, hreturns⟩ := raisesBound_agrees .builtin "flatMap" "map"
  have hup : Registry.builtin.resolve "flatMap" = some ⟨"flatMap", .stateless, .unbounded⟩ := by
    decide +kernel
  have hdown : Registry.builtin.resolve "map" = some ⟨"map", .stateless, .constant 1⟩ := by
    decide +kernel
  obtain ⟨v, hv⟩ := hreturns (by
    intro a b ha hb
    cases hup.symm.trans ha
    cases hdown.symm.trans hb
    decide +kernel)
  have hraises : Registry.builtin.raisesBound "flatMap" "map" = true := by decide +kernel
  obtain ⟨hiff, -⟩ := hagrees v hv
  exact ⟨v, hv, (hiff.mp hraises).1, hraises⟩

/-- An unknown name is announced without bound before an operator that never runs, and raises nothing. -/
theorem nope_never_disagrees : ∃ v,
    (Registry.empty.put ⟨"never", .stateless, .constant 0⟩ (by decide)).verdict "nope" "never" = .ok v ∧
    (Registry.empty.put ⟨"never", .stateless, .constant 0⟩ (by decide)).boundOf "never" < v.bound ∧
    (Registry.empty.put ⟨"never", .stateless, .constant 0⟩ (by decide)).raisesBound "nope" "never" =
      false :=
  ⟨.ofMissing ["'nope'"], by decide +kernel, by decide +kernel, by decide +kernel⟩

end StageFusion
