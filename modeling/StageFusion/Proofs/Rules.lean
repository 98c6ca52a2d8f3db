import StageFusion.Proofs.Sweeps

/-! When a registry allows a fusion.

Of the rules three allow a fusion, and `Operator.Fusible` has one constructor for each of them. What
they ask for excludes the rules that refuse, so that the order in which the rules are tried does not
matter (`allows_judge_iff`). A registry allows the fusion of two names just if it knows both and their
records are fusible (`Registry.allows_iff`). -/

namespace StageFusion

namespace Operator

inductive Fusible (up down : Operator) : Prop
  /-- The first operator is stateless and runs exactly once. -/
  | identity (category : up.category = .stateless) (shape : up.shape = .constant 1)
  /-- The first operator has a constant count and the second one is stateless. -/
  | intoStateless (shape : up.shape.isConstant = true) (category : down.category = .stateless)
  /-- Both operators are stateful and have finite bounds. -/
  | stateful (upCategory : up.category = .stateful) (downCategory : down.category = .stateful)
    (upFinite : up.bound.isFinite = true) (downFinite : down.bound.isFinite = true)

theorem isFinite_of_isConstant {m : Operator} (h : m.shape.isConstant = true) :
    m.bound.isFinite = true := by
  rw [bound]
  cases hs : m.shape with
  | constant k => rfl
  | _ => simp [hs, Shape.isConstant] at h

theorem isConditional_of_isConstant {m : Operator} (h : m.shape.isConstant = true) :
    m.shape.isConditional = false := by
  cases hs : m.shape with
  | constant k => rfl
  | _ => simp [hs, Shape.isConstant] at h

/-- Nothing is fused behind an operator without a finite bound. -/
theorem Fusible.isFinite_up {up down : Operator} (h : up.Fusible down) :
    up.bound.isFinite = true := by
  cases h with
  | identity category shape => exact isFinite_of_isConstant (by rw [shape]; rfl)
  | intoStateless shape category => exact isFinite_of_isConstant shape
  | stateful _ _ upFinite _ => exact upFinite

theorem Fusible.ne_unbounded {up down : Operator} (h : up.Fusible down) : up.shape ≠ .unbounded := by
  intro hs
  have hfinite := h.isFinite_up
  simp [bound, hs, Shape.bound, Multiplicity.isFinite] at hfinite

theorem Fusible.isConstant_up {up down : Operator} (h : up.Fusible down)
    (hup : up.category ≠ .stateful) : up.shape.isConstant = true := by
  cases h with
  | identity _ shape =>
    rw [shape]
    rfl
  | intoStateless shape _ => exact shape
  | stateful upCategory => exact absurd upCategory hup

theorem Fusible.stateless_down {up down : Operator} (h : up.Fusible down)
    (hup : up.category = .effectful) : down.category = .stateless := by
  cases h with
  | identity category => simp [hup] at category
  | intoStateless _ category => exact category
  | stateful upCategory => simp [hup] at upCategory

theorem Fusible.once_up {up down : Operator} (h : up.Fusible down) (hup : up.category = .stateless)
    (hdown : down.category ≠ .stateless) : up.shape = .constant 1 := by
  cases h with
  | identity _ shape => exact shape
  | intoStateless _ category => exact absurd category hdown
  | stateful upCategory => simp [hup] at upCategory

theorem allows_judge_iff (up down : Operator) :
    (up.judge down).allows = true ↔ up.Fusible down := by
  constructor
  · intro h
    rw [judge] at h
    split_ifs at h with hunbounded hidentity hconstant hstateful
    · cases h
    · exact .identity hidentity.1 hidentity.2
    · exact .intoStateless hconstant.1 hconstant.2
    · exact .stateful hstateful.1 hstateful.2.1 hstateful.2.2.1 hstateful.2.2.2
    · cases h
  · intro h
    rw [judge, if_neg h.ne_unbounded]
    split_ifs with hidentity hconstant hstateful
    · rfl
    · rfl
    · rfl
    · -- none of the three conditions holds, so no rule allows
      cases h with
      | identity category shape => exact absurd ⟨category, shape⟩ hidentity
      | intoStateless shape category => exact absurd ⟨shape, category⟩ hconstant
      | stateful hup hdown hfiniteUp hfiniteDown =>
        exact absurd ⟨hup, hdown, hfiniteUp, hfiniteDown⟩ hstateful

theorem exists_allowed_iff (up down : Operator) :
    (∃ rule bound, up.verdict down = .ok (.allowed rule bound)) ↔ up.Fusible down := by
  rw [← allows_judge_iff, verdict]
  cases hj : up.judge down with
  | missingMetadata =>
    rw [judge] at hj
    split_ifs at hj
  | unboundedUpstream => simp [Rule.allows]
  | noRule =>
    -- writing the reason may fail, but it never makes a fusion
    simp only [Rule.allows, Bool.false_eq_true, iff_false]
    rintro ⟨rule, bound, h⟩
    obtain ⟨_, _, h⟩ := bind_eq_ok_iff.mp h
    obtain ⟨_, _, h⟩ := bind_eq_ok_iff.mp h
    cases h
  | statelessIdentity => exact ⟨fun _ => rfl, fun _ => ⟨_, _, rfl⟩⟩
  | constantIntoStateless => exact ⟨fun _ => rfl, fun _ => ⟨_, _, rfl⟩⟩
  | statefulFinite => exact ⟨fun _ => rfl, fun _ => ⟨_, _, rfl⟩⟩

end Operator

namespace Registry

/-- A fusion is allowed just between known names with fusible records. -/
theorem allows_iff {r : Registry} {up down : String} :
    r.Allows up down ↔
      ∃ a b, r.resolve up = some a ∧ r.resolve down = some b ∧ a.Fusible b := by
  constructor
  · rintro ⟨rule, bound, h⟩
    obtain ⟨hup, hdown⟩ := isSome_resolve_of_allowed h
    obtain ⟨a, ha⟩ := Option.isSome_iff_exists.mp hup
    obtain ⟨b, hb⟩ := Option.isSome_iff_exists.mp hdown
    rw [verdict, ha, hb] at h
    exact ⟨a, b, ha, hb, (Operator.exists_allowed_iff a b).mp ⟨rule, bound, h⟩⟩
  · rintro ⟨a, b, ha, hb, h⟩
    rw [Allows, verdict, ha, hb]
    exact (Operator.exists_allowed_iff a b).mpr h

end Registry

end StageFusion
