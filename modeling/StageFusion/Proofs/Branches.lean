import Mathlib.Data.List.Forall2
import StageFusion.Plan.Stage
import StageFusion.Stage.Drive

/-! Branches run apart.

`Stage.beside` and `Stage.fanOut` split an input and run two stages on the parts, each on its own part of
the state; `Stage.Branches` is what they have in common. A step of such a stage is told from the steps
that its branches would make alone (`Stage.Branches.step`): it is both of them together if both return,
and otherwise the first fault with the effects up to it. So a run in which no step fails is the run of
each branch alone, put side by side (`Stage.Branches.drive_eq`, `Stage.Branches.drive_returns_iff`). -/

namespace StageFusion

theorem Value.parts_eq_ok_iff {v x y : Value} :
    v.parts = .ok (x, y) ↔ v.elements? = some [x, y] := by
  unfold parts
  split <;> simp_all

namespace Step

/-- The usages of two branches as one. -/
def joinUsage (op : Multiplicity → Multiplicity → Multiplicity) (stepA stepB : Step) :
    Except Fault Multiplicity := do
  return op (← stepA.usage) (← stepB.usage)

/-- The steps of two branches as one: the effects of the first before those of the second, and the
outputs and the states as pairs. -/
def both (op : Multiplicity → Multiplicity → Multiplicity) (stepA stepB : Step) : Step where
  usage := joinUsage op stepA stepB
  effects := stepA.effects ++ stepB.effects
  output := do return .pair (← stepA.output) (← stepB.output)
  state := .pair stepA.state stepB.state

def Returns (step : Step) : Prop :=
  ∃ output, step.output = .ok output

theorem returns_both_iff {op : Multiplicity → Multiplicity → Multiplicity} {stepA stepB : Step} :
    (both op stepA stepB).Returns ↔ stepA.Returns ∧ stepB.Returns := by
  unfold Returns both
  cases stepA.output <;> cases stepB.output <;> simp [Bind.bind, Except.bind, Pure.pure, Except.pure]

theorem returns_zipWith_both {op : Multiplicity → Multiplicity → Multiplicity}
    {stepsA stepsB : List Step} (hA : ∀ step ∈ stepsA, step.Returns)
    (hB : ∀ step ∈ stepsB, step.Returns) :
    ∀ step ∈ List.zipWith (both op) stepsA stepsB, step.Returns := by
  intro step hstep
  rw [← List.map_uncurry_zip_eq_zipWith] at hstep
  obtain ⟨⟨stepA, stepB⟩, hmem, rfl⟩ := List.mem_map.mp hstep
  obtain ⟨hmemA, hmemB⟩ := List.of_mem_zip hmem
  exact returns_both_iff.mpr ⟨hA stepA hmemA, hB stepB hmemB⟩

/-- What a step of two branches came to, from what their steps would be alone: both returned, and so did
the whole, or the first of their faults is its fault, after the effects up to it. A fault leaves the state
of the whole as it was. -/
inductive OfBranches (op : Multiplicity → Multiplicity → Multiplicity) (state : Value)
    (stepA stepB : Step) : Step → Prop
  | returned (first : stepA.Returns) (second : stepB.Returns) :
    OfBranches op state stepA stepB (both op stepA stepB)
  | firstFailed {e : Fault} (first : stepA.output = .error e) :
    OfBranches op state stepA stepB ⟨joinUsage op stepA stepB, stepA.effects, .error e, state⟩
  | secondFailed {e : Fault} (first : stepA.Returns) (second : stepB.output = .error e) :
    OfBranches op state stepA stepB
      ⟨joinUsage op stepA stepB, stepA.effects ++ stepB.effects, .error e, state⟩

end Step

namespace Stage

/-- One run after another; a fault of the first ends both. -/
def bothRuns (ranA ranB : Run) : Run := do
  let (stateA, outputA) ← ranA
  let (stateB, outputB) ← ranB
  return (.pair stateA stateB, .pair outputA outputB)

theorem bothRuns_of_first_error {ranA ranB : Run} {e : Fault} (hA : ranA.outcome = .error e) :
    bothRuns ranA ranB = ⟨ranA.log, .error e⟩ :=
  Logged.ext (Logged.log_bind_of_error hA _) (Logged.outcome_bind_of_error hA _)

theorem bothRuns_of_second_error {ranA ranB : Run} {resultA : Value × Value} {e : Fault}
    (hA : ranA.outcome = .ok resultA) (hB : ranB.outcome = .error e) :
    bothRuns ranA ranB = ⟨ranA.log ++ ranB.log, .error e⟩ := by
  refine Logged.ext ?_ ?_
  · rw [bothRuns, Logged.log_bind_of_ok hA, Logged.log_bind_of_error hB]
  · rw [bothRuns, Logged.outcome_bind_of_ok hA, Logged.outcome_bind_of_error hB]

theorem bothRuns_of_ok {ranA ranB : Run} {resultA resultB : Value × Value}
    (hA : ranA.outcome = .ok resultA) (hB : ranB.outcome = .ok resultB) :
    bothRuns ranA ranB = ⟨ranA.log ++ ranB.log,
      .ok (.pair resultA.1 resultB.1, .pair resultA.2 resultB.2)⟩ := by
  refine Logged.ext ?_ ?_
  · rw [bothRuns, Logged.log_bind_of_ok hA, Logged.log_bind_of_ok hB, Logged.log_pure,
      List.append_nil]
  · rw [bothRuns, Logged.outcome_bind_of_ok hA, Logged.outcome_bind_of_ok hB, Logged.outcome_pure]

/-- A stage with two branches: it splits its input, runs the branches on the parts, each on its own state,
and joins their usages. -/
structure Branches (a b whole : Stage) (split : Value → Except Fault (Value × Value))
    (op : Multiplicity → Multiplicity → Multiplicity) : Prop where
  run (v state : Value) : whole.run v state = do
    let (x, y) ← split v
    let (stateA, stateB) ← partStates state
    bothRuns (a.run x stateA) (b.run y stateB)
  count (v : Value) : whole.usage.count v = do
    let (x, y) ← split v
    return op (← a.usage.count x) (← b.usage.count y)

theorem branches_beside (a b : Stage) : Branches a b (a.beside b) Value.parts max :=
  ⟨fun _ _ => rfl, fun _ => rfl⟩

theorem branches_fanOut (a b : Stage) :
    Branches a b (a.fanOut b) (fun v => .ok (v, v)) (· + ·) where
  run v state := by
    show _ = (pure (v, v) : Logged Value (Value × Value)) >>= _
    rw [Logged.pure_bind_eq]
    rfl
  count _ := rfl

namespace Branches

variable {a b whole : Stage} {split : Value → Except Fault (Value × Value)}
  {op : Multiplicity → Multiplicity → Multiplicity}

/-! ## One step -/

theorem run_of_split_error (h : Branches a b whole split op) {v : Value} {e : Fault}
    (hsplit : split v = .error e) (state : Value) : whole.run v state = ⟨[], .error e⟩ := by
  rw [h.run, hsplit]
  rfl

theorem run_of_split (h : Branches a b whole split op) {v x y state stateA stateB : Value}
    (hsplit : split v = .ok (x, y)) (hstates : partStates state = .ok (stateA, stateB)) :
    whole.run v state = bothRuns (a.run x stateA) (b.run y stateB) := by
  rw [h.run, hsplit, hstates]
  exact (Logged.pure_bind_eq (x, y) _).trans (Logged.pure_bind_eq (stateA, stateB) _)

theorem count_of_split (h : Branches a b whole split op) {v x y : Value}
    (hsplit : split v = .ok (x, y)) (stateA stateB : Value) :
    whole.usage.count v = Step.joinUsage op (a.step x stateA) (b.step y stateB) := by
  rw [h.count, hsplit, Step.joinUsage, usage_step, usage_step]
  rfl

theorem step (h : Branches a b whole split op) {v x y state stateA stateB : Value}
    (hsplit : split v = .ok (x, y)) (hstates : partStates state = .ok (stateA, stateB)) :
    Step.OfBranches op state (a.step x stateA) (b.step y stateB) (whole.step v state) := by
  have hcount := h.count_of_split hsplit stateA stateB
  have hrun := h.run_of_split hsplit hstates
  cases hA : (a.run x stateA).outcome with
  | error e =>
    rw [bothRuns_of_first_error hA] at hrun
    rw [step_of_error (congrArg Logged.outcome hrun), hrun, hcount, step_of_error hA]
    exact .firstFailed rfl
  | ok resultA =>
    cases hB : (b.run y stateB).outcome with
    | error e =>
      rw [bothRuns_of_second_error hA hB] at hrun
      rw [step_of_error (congrArg Logged.outcome hrun), hrun, hcount, step_of_ok hA,
        step_of_error hB]
      exact .secondFailed ⟨resultA.2, rfl⟩ rfl
    | ok resultB =>
      rw [bothRuns_of_ok hA hB] at hrun
      rw [step_of_ok (congrArg Logged.outcome hrun), hrun, hcount, step_of_ok hA, step_of_ok hB]
      exact .returned ⟨resultA.2, rfl⟩ ⟨resultB.2, rfl⟩

/-- A step that returns has split its input, and both branches have returned. -/
theorem exists_of_returns (h : Branches a b whole split op) {v state stateA stateB : Value}
    (hstates : partStates state = .ok (stateA, stateB)) (hreturns : (whole.step v state).Returns) :
    ∃ p, split v = .ok p ∧ (a.step p.1 stateA).Returns ∧ (b.step p.2 stateB).Returns ∧
      whole.step v state = Step.both op (a.step p.1 stateA) (b.step p.2 stateB) := by
  cases hsplit : split v with
  | error e =>
    have hrun := congrArg Logged.outcome (h.run_of_split_error hsplit state)
    rw [step_of_error hrun] at hreturns
    obtain ⟨output, houtput⟩ := hreturns
    cases houtput
  | ok p =>
    have hstep := h.step hsplit hstates
    refine ⟨p, rfl, ?_⟩
    generalize whole.step v state = step at hstep hreturns ⊢
    cases hstep with
    | returned first second => exact ⟨first, second, rfl⟩
    | _ =>
      obtain ⟨output, houtput⟩ := hreturns
      cases houtput

theorem step_of_returns (h : Branches a b whole split op) {v x y state stateA stateB : Value}
    (hsplit : split v = .ok (x, y)) (hstates : partStates state = .ok (stateA, stateB))
    (hA : (a.step x stateA).Returns) (hB : (b.step y stateB).Returns) :
    whole.step v state = Step.both op (a.step x stateA) (b.step y stateB) := by
  have hstep := h.step hsplit hstates
  generalize whole.step v state = step at hstep ⊢
  cases hstep with
  | returned => rfl
  | firstFailed first =>
    obtain ⟨output, houtput⟩ := hA
    rw [first] at houtput
    cases houtput
  | secondFailed _ second =>
    obtain ⟨output, houtput⟩ := hB
    rw [second] at houtput
    cases houtput

/-! ## Runs -/

/-- Driven from the states that its own is taken apart into, the branches alone make the steps that the
whole makes of them. -/
theorem drive_eq (h : Branches a b whole split op) {inputs : List Value}
    {pairs : List (Value × Value)} (hsplit : List.Forall₂ (fun v p => split v = .ok p) inputs pairs) :
    ∀ {state stateA stateB : Value}, partStates state = .ok (stateA, stateB) →
    (∀ step ∈ a.drive stateA (pairs.map Prod.fst), step.Returns) →
    (∀ step ∈ b.drive stateB (pairs.map Prod.snd), step.Returns) →
    whole.drive state inputs = List.zipWith (Step.both op)
      (a.drive stateA (pairs.map Prod.fst)) (b.drive stateB (pairs.map Prod.snd)) := by
  induction hsplit with
  | nil =>
    intro state stateA stateB _ _ _
    rfl
  | @cons v p inputs pairs hv _ ih =>
    intro state stateA stateB hstates hA hB
    rw [List.map_cons, drive_cons, List.forall_mem_cons] at hA hB
    have hstep := h.step_of_returns hv hstates hA.1 hB.1
    rw [List.map_cons, List.map_cons, drive_cons, drive_cons, drive_cons, List.zipWith_cons_cons,
      hstep]
    -- the new state is the pair of the new states, which are where the branches go on from
    exact congrArg _ (ih rfl hA.2 hB.2)

theorem exists_of_drive_returns (h : Branches a b whole split op) (inputs : List Value) :
    ∀ {state stateA stateB : Value}, partStates state = .ok (stateA, stateB) →
    (∀ step ∈ whole.drive state inputs, step.Returns) →
    ∃ pairs, List.Forall₂ (fun v p => split v = .ok p) inputs pairs ∧
      (∀ step ∈ a.drive stateA (pairs.map Prod.fst), step.Returns) ∧
      ∀ step ∈ b.drive stateB (pairs.map Prod.snd), step.Returns := by
  induction inputs with
  | nil =>
    intro state stateA stateB _ _
    exact ⟨[], .nil, List.forall_mem_nil _, List.forall_mem_nil _⟩
  | cons v inputs ih =>
    intro state stateA stateB hstates hreturns
    rw [drive_cons, List.forall_mem_cons] at hreturns
    obtain ⟨hhead, htail⟩ := hreturns
    obtain ⟨p, hv, hA, hB, hstep⟩ := h.exists_of_returns hstates hhead
    rw [hstep] at htail
    obtain ⟨pairs, hpairs, hrestA, hrestB⟩ := ih rfl htail
    exact ⟨p :: pairs, .cons hv hpairs, List.forall_mem_cons.mpr ⟨hA, hrestA⟩,
      List.forall_mem_cons.mpr ⟨hB, hrestB⟩⟩

theorem drive_returns_iff (h : Branches a b whole split op) {inputs : List Value}
    {state stateA stateB : Value} (hstates : partStates state = .ok (stateA, stateB)) :
    (∀ step ∈ whole.drive state inputs, step.Returns) ↔
      ∃ pairs, List.Forall₂ (fun v p => split v = .ok p) inputs pairs ∧
        (∀ step ∈ a.drive stateA (pairs.map Prod.fst), step.Returns) ∧
        ∀ step ∈ b.drive stateB (pairs.map Prod.snd), step.Returns := by
  refine ⟨h.exists_of_drive_returns inputs hstates, ?_⟩
  rintro ⟨pairs, hsplit, hA, hB⟩
  rw [h.drive_eq hsplit hstates hA hB]
  exact Step.returns_zipWith_both hA hB

/-- A run from a state with two parts goes on from such states, also past faults. -/
theorem exists_partStates_drive (h : Branches a b whole split op) (inputs : List Value) :
    ∀ {state stateA stateB : Value}, partStates state = .ok (stateA, stateB) →
    ∀ step ∈ whole.drive state inputs, ∃ parts, partStates step.state = .ok parts := by
  induction inputs with
  | nil =>
    intro state stateA stateB _
    exact List.forall_mem_nil _
  | cons v inputs ih =>
    intro state stateA stateB hstates
    have hnext : ∃ parts, partStates (whole.step v state).state = .ok parts := by
      cases hsplit : split v with
      | error e =>
        rw [step_of_error (congrArg Logged.outcome (h.run_of_split_error hsplit state))]
        exact ⟨_, hstates⟩
      | ok p =>
        have hstep := h.step hsplit hstates
        generalize whole.step v state = step at hstep ⊢
        cases hstep with
        | returned => exact ⟨_, rfl⟩
        | _ => exact ⟨_, hstates⟩
    obtain ⟨parts, hparts⟩ := hnext
    rw [drive_cons, List.forall_mem_cons]
    exact ⟨⟨parts, hparts⟩, ih hparts⟩

end Branches

/-! ## Side by side and fanned out -/

def Unpacks (v : Value) (p : Value × Value) : Prop :=
  v.elements? = some [p.1, p.2]

/-- Two stages as branches of a whole run apart, `splits` being how inputs are split between them. -/
structure RunsApart (a b whole : Stage) (splits : Value → Value × Value → Prop)
    (op : Multiplicity → Multiplicity → Multiplicity) : Prop where
  /-- No step of a run fails just if all inputs are split and no step of the branches alone fails. -/
  returns_iff (inputs : List Value) : (∀ step ∈ whole.drive .null inputs, step.Returns) ↔
    ∃ pairs, List.Forall₂ splits inputs pairs ∧
      (∀ step ∈ a.drive .null (pairs.map Prod.fst), step.Returns) ∧
      ∀ step ∈ b.drive .null (pairs.map Prod.snd), step.Returns
  /-- Then the run is made of theirs, step by step. -/
  drive (inputs : List Value) (pairs : List (Value × Value))
    (hsplits : List.Forall₂ splits inputs pairs)
    (hA : ∀ step ∈ a.drive .null (pairs.map Prod.fst), step.Returns)
    (hB : ∀ step ∈ b.drive .null (pairs.map Prod.snd), step.Returns) :
    whole.drive .null inputs = List.zipWith (Step.both op)
      (a.drive .null (pairs.map Prod.fst)) (b.drive .null (pairs.map Prod.snd))
  /-- Every step comes from those of the branches, also one that fails. -/
  step (v : Value) (p : Value × Value) (state stateA stateB : Value) (hsplits : splits v p)
    (hstates : partStates state = .ok (stateA, stateB)) :
    Step.OfBranches op state (a.step p.1 stateA) (b.step p.2 stateB) (whole.step v state)
  /-- The states of a run are those that have two parts. -/
  parts (inputs : List Value) (step : Step) (hstep : step ∈ whole.drive .null inputs) :
    ∃ parts, partStates step.state = .ok parts
  /-- An input that is not split fails before anything is done. -/
  unsplit (v : Value) (hunsplit : ¬ ∃ p, splits v p) :
    ∃ e, ∀ state, whole.run v state = ⟨[], .error e⟩ ∧ (whole.step v state).state = state

theorem Branches.runsApart {a b whole : Stage} {split : Value → Except Fault (Value × Value)}
    {op : Multiplicity → Multiplicity → Multiplicity} (h : Branches a b whole split op)
    {splits : Value → Value × Value → Prop} (hsplits : ∀ v p, splits v p ↔ split v = .ok p) :
    RunsApart a b whole splits op := by
  obtain rfl : splits = fun v p => split v = .ok p := by
    funext v p
    exact propext (hsplits v p)
  refine ⟨fun inputs => h.drive_returns_iff rfl, fun inputs pairs hpairs => h.drive_eq hpairs rfl,
    fun v p state stateA stateB => h.step, fun inputs => h.exists_partStates_drive inputs rfl, ?_⟩
  intro v hunsplit
  cases hv : split v with
  | ok p => exact absurd ⟨p, hv⟩ hunsplit
  | error e =>
    refine ⟨e, fun state => ?_⟩
    have hrun := h.run_of_split_error hv state
    exact ⟨hrun, by rw [step_of_error (congrArg Logged.outcome hrun)]⟩

/-- **Branches run apart.** Side by side, two stages run on the two parts that an input unpacks into,
and fanned out both run on the input itself. Either way a run without a fault is made of the runs of the
stages alone, its outputs and states being pairs of theirs and its effects those of the first stage before
those of the second. A step that fails has the first of their faults and the effects up to it, and leaves
the state; an input that does not unpack does nothing. -/
theorem branches_run_apart (a b : Stage) :
    RunsApart a b (a.beside b) Unpacks max ∧
    RunsApart a b (a.fanOut b) (fun v p => p = (v, v)) (· + ·) ∧
    ∀ inputs, (∀ step ∈ (a.fanOut b).drive .null inputs, step.Returns) →
      (a.fanOut b).drive .null inputs =
        List.zipWith (Step.both (· + ·)) (a.drive .null inputs) (b.drive .null inputs) := by
  have hbeside : RunsApart a b (a.beside b) Unpacks max :=
    (branches_beside a b).runsApart fun v p => Value.parts_eq_ok_iff.symm
  have hfanOut : RunsApart a b (a.fanOut b) (fun v p => p = (v, v)) (· + ·) :=
    (branches_fanOut a b).runsApart fun v p => by simp [eq_comm]
  refine ⟨hbeside, hfanOut, fun inputs hreturns => ?_⟩
  obtain ⟨pairs, hpairs, hA, hB⟩ := (hfanOut.returns_iff inputs).mp hreturns
  have hdrive := hfanOut.drive inputs pairs hpairs hA hB
  have hpairsEq : inputs.map (fun v => (v, v)) = pairs := by
    rw [← List.forall₂_eq_eq_eq, List.forall₂_map_left_iff]
    exact hpairs.imp fun _ _ h => h.symm
  rw [hdrive, ← hpairsEq, List.map_map, List.map_map, Function.comp_def, Function.comp_def,
    List.map_id']

/-- Beside a stage that takes no value above five, a running sum goes back to what it was when that stage
fails. -/
example :
    let sum := scan (.int 0) fun acc v => return Reduction.sum.apply acc v
    let guarded := map (Mapping.failIf (.above 5) "too large").run
    (sum.beside guarded).drive .null
        [.pair (.int 1) (.int 4), .pair (.int 1) (.int 9), .pair (.int 1) (.int 2)] =
      [⟨.ok (.exact 1), [], .ok (.pair (.int 1) (.int 4)), .pair (.int 1) .null⟩,
        ⟨.ok (.exact 1), [], .error (.raised "too large"), .pair (.int 1) .null⟩,
        ⟨.ok (.exact 1), [], .ok (.pair (.int 2) (.int 2)), .pair (.int 2) .null⟩] :=
  rfl

end Stage

end StageFusion
