import StageFusion.Plan.Function
import StageFusion.Proofs.Simulation

/-! Composition of stages is associative.

Three stages are composed in two ways. Their names, categories and usages agree as soon as the factor of
the shape in the middle is multiplied by composition, which only a choice between two equal counts
forbids (`Shape.factor_andThen`). Their states are nested differently: `Stage.Regrouped` relates the
states that hold the same three parts, and `Stage.Alike` the runs that did the same and leave such
states. One run of the two groupings is alike from regrouped states (`Stage.run_andThen_alike`), so that
from fresh states all runs are (`Stage.drive_andThen_alike`). -/

namespace StageFusion

namespace Shape

theorem reduced_iff {a : Shape} : a.Reduced ↔ ∀ k, a ≠ conditional k k := by
  constructor
  · rintro h k rfl
    exact h rfl
  · intro h
    cases a with
    | conditional t f =>
      intro heq
      exact h f (by rw [heq])
    | _ => trivial

/-- A choice between equal counts has no factor, and as soon as it has been composed it has one. -/
theorem reduced_iff_factor_andThen {b : Shape} :
    b.Reduced ↔ ∀ c, (b.andThen c).factor = b.factor * c.factor := by
  refine ⟨factor_andThen, fun h => reduced_iff.mpr ?_⟩
  rintro k rfl
  have hone : ((conditional k k).andThen (constant 1)).factor = .exact (k * 1) := by
    rw [andThen_eq_scale, scale_conditional, ofChoice_self, factor_ofBound]
    exact Multiplicity.exact_mul_exact k 1
  have hunbounded := h (constant 1)
  rw [hone] at hunbounded
  cases hunbounded

end Shape

namespace Stage

variable {a b c : Stage}

/-! ## Usages -/

theorem shape_andThen (a b : Stage) : (a.andThen b).shape = a.shape.andThen b.shape := rfl

theorem count_andThen (a b : Stage) (v : Value) :
    (a.andThen b).usage.count v = (a.usage.count v).map (· * b.shape.factor) := by
  show (a.usage.count v >>= fun m => pure (m * b.shape.factor)) = _
  cases a.usage.count v <;> rfl

theorem count_andThen_assoc (hb : b.shape.Reduced) (v : Value) :
    ((a.andThen b).andThen c).usage.count v = (a.andThen (b.andThen c)).usage.count v := by
  rw [count_andThen, count_andThen, count_andThen, shape_andThen, Shape.factor_andThen hb]
  cases a.usage.count v with
  | error e => rfl
  | ok m => exact congrArg Except.ok (mul_assoc m b.shape.factor c.shape.factor)

/-! ## States and runs -/

/-- A state of three stages, of which the first two are composed first, and one of the same stages, of
which the last two are: both are fresh, or they hold the same three parts. -/
inductive Regrouped : Value → Value → Prop
  | fresh : Regrouped .null .null
  | parts (stateA stateB stateC : Value) :
    Regrouped (.pair (.pair stateA stateB) stateC) (.pair stateA (.pair stateB stateC))

/-- Both states are taken apart into the same three. -/
theorem Regrouped.exists_parts {left right : Value} (h : Regrouped left right) :
    ∃ stateA stateB stateC stateAB stateBC,
      partStates left = .ok (stateAB, stateC) ∧ partStates stateAB = .ok (stateA, stateB) ∧
      partStates right = .ok (stateA, stateBC) ∧ partStates stateBC = .ok (stateB, stateC) := by
  cases h with
  | fresh => exact ⟨.null, .null, .null, .null, .null, rfl, rfl, rfl, rfl⟩
  | parts stateA stateB stateC =>
    exact ⟨stateA, stateB, stateC, .pair stateA stateB, .pair stateB stateC, rfl, rfl, rfl, rfl⟩

/-- Two runs did the same: the same effects, and the same output with regrouped states or the same
fault. -/
inductive Alike : Run → Run → Prop
  | returned {effects : List Value} {left right output : Value} (states : Regrouped left right) :
    Alike ⟨effects, .ok (left, output)⟩ ⟨effects, .ok (right, output)⟩
  | failed {effects : List Value} {e : Fault} : Alike ⟨effects, .error e⟩ ⟨effects, .error e⟩

/-- Runs that begin with one computation and go on alike are alike. -/
theorem Alike.bind {α : Type} (x : Logged Value α) {f g : α → Run} (h : ∀ r, Alike (f r) (g r)) :
    Alike (x >>= f) (x >>= g) := by
  obtain ⟨log, outcome⟩ := x
  cases outcome with
  | error e => exact .failed
  | ok r =>
    rw [Logged.mk_ok_bind, Logged.mk_ok_bind]
    have hgo := h r
    generalize f r = left at hgo ⊢
    generalize g r = right at hgo ⊢
    cases hgo with
    | returned states => exact .returned states
    | failed => exact .failed

theorem run_andThen {v state stateA stateB : Value} (h : partStates state = .ok (stateA, stateB)) :
    (a.andThen b).run v state = a.run v stateA >>= fun ranA =>
      b.run ranA.2 stateB >>= fun ranB => pure (.pair ranA.1 ranB.1, ranB.2) :=
  @run_andThenAs a b (a.andThen b).name v state stateA stateB h

theorem run_andThen_alike {left right : Value} (v : Value) (h : Regrouped left right) :
    Alike (((a.andThen b).andThen c).run v left) ((a.andThen (b.andThen c)).run v right) := by
  obtain ⟨stateA, stateB, stateC, stateAB, stateBC, hleft, hAB, hright, hBC⟩ := h.exists_parts
  have hrunLeft : ((a.andThen b).andThen c).run v left =
      a.run v stateA >>= fun ranA => b.run ranA.2 stateB >>= fun ranB =>
        c.run ranB.2 stateC >>= fun ranC =>
          pure (.pair (.pair ranA.1 ranB.1) ranC.1, ranC.2) := by
    rw [run_andThen hleft, run_andThen hAB]
    simp only [bind_assoc, pure_bind]
  have hrunRight : (a.andThen (b.andThen c)).run v right =
      a.run v stateA >>= fun ranA => b.run ranA.2 stateB >>= fun ranB =>
        c.run ranB.2 stateC >>= fun ranC =>
          pure (.pair ranA.1 (.pair ranB.1 ranC.1), ranC.2) := by
    rw [run_andThen hright]
    simp only [run_andThen hBC, bind_assoc, pure_bind]
  rw [hrunLeft, hrunRight]
  -- the three stages run one after another in both, and only the new states are nested differently
  refine Alike.bind _ fun ranA => Alike.bind _ fun ranB => Alike.bind _ fun ranC => ?_
  exact .returned (.parts ranA.1 ranB.1 ranC.1)

/-! ## Driven stages -/

/-- Two steps with the same usage, effects and output that leave regrouped states. -/
structure AlikeSteps (left right : Step) : Prop where
  usage : left.usage = right.usage
  effects : left.effects = right.effects
  output : left.output = right.output
  states : Regrouped left.state right.state

theorem step_andThen_alike {left right : Value} (hb : b.shape.Reduced) (v : Value)
    (h : Regrouped left right) :
    AlikeSteps (((a.andThen b).andThen c).step v left) ((a.andThen (b.andThen c)).step v right) := by
  have hrun := run_andThen_alike (a := a) (b := b) (c := c) v h
  have hcount := count_andThen_assoc (a := a) (c := c) hb v
  unfold step
  generalize ((a.andThen b).andThen c).run v left = ranLeft at hrun ⊢
  generalize (a.andThen (b.andThen c)).run v right = ranRight at hrun ⊢
  cases hrun with
  | returned states => exact ⟨hcount, rfl, rfl, states⟩
  | failed => exact ⟨hcount, rfl, rfl, h⟩

theorem drive_andThen_alike (hb : b.shape.Reduced) (inputs : List Value) :
    ∀ {left right : Value}, Regrouped left right →
    List.Forall₂ AlikeSteps (((a.andThen b).andThen c).drive left inputs)
      ((a.andThen (b.andThen c)).drive right inputs) := by
  induction inputs with
  | nil =>
    intro left right h
    exact .nil
  | cons v inputs ih =>
    intro left right h
    have hstep := step_andThen_alike (a := a) (c := c) hb v h
    exact .cons hstep (ih hstep.states)

/-- **Composition is associative.** Around a stage whose shape is no choice between two equal counts,
both ways to compose three stages give the same name, category, shape, bound and usage, and their runs
are alike from regrouped states, of which the fresh ones are an instance. What carries the usages is
that composition multiplies the factor of such a shape. -/
theorem andThen_associative (a b c : Stage) (hb : ∀ k, b.shape ≠ .conditional k k) :
    ((a.andThen b).andThen c).name = (a.andThen (b.andThen c)).name ∧
    ((a.andThen b).andThen c).category = (a.andThen (b.andThen c)).category ∧
    ((a.andThen b).andThen c).shape = (a.andThen (b.andThen c)).shape ∧
    ((a.andThen b).andThen c).bound = (a.andThen (b.andThen c)).bound ∧
    (∀ v, ((a.andThen b).andThen c).usage.count v = (a.andThen (b.andThen c)).usage.count v) ∧
    (∀ v left right, Regrouped left right →
      Alike (((a.andThen b).andThen c).run v left) ((a.andThen (b.andThen c)).run v right)) ∧
    (b.shape.andThen c.shape).factor = b.shape.factor * c.shape.factor := by
  have hreduced : b.shape.Reduced := Shape.reduced_iff.mpr hb
  have hshape : ((a.andThen b).andThen c).shape = (a.andThen (b.andThen c)).shape :=
    Shape.andThen_assoc hreduced a.shape c.shape
  refine ⟨?_, ?_, hshape, ?_, ?_, ?_, ?_⟩
  · show a.name ++ "+" ++ b.name ++ "+" ++ c.name = a.name ++ "+" ++ (b.name ++ "+" ++ c.name)
    simp only [String.append_assoc]
  · exact Category.join_assoc a.category b.category c.category
  · rw [bound, bound, hshape]
  · exact fun v => count_andThen_assoc hreduced v
  · exact fun v left right h => run_andThen_alike v h
  · exact Shape.factor_andThen hreduced c.shape

/-- A rate limiter: one run for every value but null, and none for null. -/
def limiter : Stage :=
  stateful (fun v last => return (v, last)) (.conditional (fun v => .ok v.isTruthy) 1 0) "throttleTime"

/-- A running sum before a rate limiter and an effect: whichever two are composed first, the effect
sees the sum before this one. -/
theorem scan_limiter_tap_associative :
    let sum := scan (.int 0) fun acc v => return Reduction.sum.apply acc v
    let seen := tap Logged.tell
    (∀ k, limiter.shape ≠ .conditional k k) ∧
    ((sum.andThen limiter).andThen seen).name = "scan+throttleTime+tap" ∧
    (sum.andThen (limiter.andThen seen)).name = "scan+throttleTime+tap" ∧
    ((sum.andThen limiter).andThen seen).run (.int 3) (.pair (.pair (.int 4) (.int 9)) .null) =
      ⟨[.int 9], .ok (.pair (.pair (.int 7) (.int 7)) .null, .int 9)⟩ ∧
    Alike (((sum.andThen limiter).andThen seen).run (.int 3)
        (.pair (.pair (.int 4) (.int 9)) .null))
      ((sum.andThen (limiter.andThen seen)).run (.int 3)
        (.pair (.int 4) (.pair (.int 9) .null))) := by
  intro sum seen
  have hlimiter : ∀ k, limiter.shape ≠ .conditional k k := by
    intro k h
    cases h
  obtain ⟨hname, -, -, -, -, hrun, -⟩ := andThen_associative sum limiter seen hlimiter
  have hleft : ((sum.andThen limiter).andThen seen).name = "scan+throttleTime+tap" := by decide
  exact ⟨hlimiter, hleft, hname.symm.trans hleft, rfl,
    hrun (.int 3) _ _ (.parts (.int 4) (.int 9) .null)⟩

end Stage

end StageFusion
