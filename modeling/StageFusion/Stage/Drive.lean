import StageFusion.Stage

/-! Driving stages and chains of stages over inputs.

`Stage.drive` runs one stage over a list of inputs and keeps for every input what was computed,
performed and returned; a failing step leaves the state as it was. `feed` passes one value through
a chain, a stage's output being the next stage's input, and `feedAll` a list of values: when a
stage fails, the stages before it keep their new states, and it and the stages after it their old
ones. -/

namespace StageFusion

/-- What a stage did with one input. -/
structure Step where
  /-- The usage computed for the input. -/
  usage : Except Fault Multiplicity
  effects : List Value
  output : Except Fault Value
  /-- The state after the step. -/
  state : Value

namespace Stage

def step (s : Stage) (v state : Value) : Step :=
  let r := s.run v state
  match r.outcome with
  | .ok (state', output) => ⟨s.usage.count v, r.log, .ok output, state'⟩
  | .error e => ⟨s.usage.count v, r.log, .error e, state⟩

theorem step_of_ok {s : Stage} {v state state' output : Value}
    (h : (s.run v state).outcome = .ok (state', output)) :
    s.step v state = ⟨s.usage.count v, (s.run v state).log, .ok output, state'⟩ := by
  simp only [step, h]

theorem step_of_error {s : Stage} {v state : Value} {e : Fault}
    (h : (s.run v state).outcome = .error e) :
    s.step v state = ⟨s.usage.count v, (s.run v state).log, .error e, state⟩ := by
  simp only [step, h]

@[simp]
theorem usage_step (s : Stage) (v state : Value) : (s.step v state).usage = s.usage.count v := by
  cases h : (s.run v state).outcome with
  | ok result => rw [step_of_ok h]
  | error e => rw [step_of_error h]

/-- The steps of a stage on a list of inputs from a state. -/
def drive (s : Stage) (state : Value) : List Value → List Step
  | [] => []
  | v :: rest =>
    let step := s.step v state
    step :: s.drive step.state rest

@[simp]
theorem drive_nil (s : Stage) (state : Value) : s.drive state [] = [] := rfl

theorem drive_cons (s : Stage) (state v : Value) (rest : List Value) :
    s.drive state (v :: rest) = s.step v state :: s.drive (s.step v state).state rest := rfl

end Stage

/-- What a chain of stages did with one input. -/
structure Passage where
  effects : List Value
  output : Except Fault Value
  /-- The states of the stages after the passage. -/
  states : List Value

/-- Passes a value through a chain of stages with their states. -/
def feed : List (Stage × Value) → Value → Passage
  | [], v => ⟨[], .ok v, []⟩
  | (s, state) :: rest, v =>
    let r := s.run v state
    match r.outcome with
    | .error e => ⟨r.log, .error e, state :: rest.map Prod.snd⟩
    | .ok (state', output) =>
      let p := feed rest output
      ⟨r.log ++ p.effects, p.output, state' :: p.states⟩

/-- Passes a list of values through a chain of stages, one after another. -/
def feedAll (stages : List Stage) (states : List Value) : List Value → List Passage
  | [] => []
  | v :: rest =>
    let p := feed (stages.zip states) v
    p :: feedAll stages p.states rest

/-- Drives a chain of stages from fresh states. -/
def driveChain (stages : List Stage) (inputs : List Value) : List Passage :=
  feedAll stages (stages.map fun _ => .null) inputs

end StageFusion
