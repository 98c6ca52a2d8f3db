import StageFusion.Category
import StageFusion.Logged
import StageFusion.Usage

/-! Stages of a pipeline.

A `Stage` turns an input and its state into a new state and an output; on the way it may perform
effects, each recorded as the value it was performed on, and it may fail. It carries the usage of
its effect, its category, and its name. -/

namespace StageFusion

/-- What a run of a stage does: its effects in order, then the new state and the output. -/
abbrev Run := Logged Value (Value × Value)

/-- One stage of a pipeline. -/
structure Stage where
  /-- Runs the stage on an input and a state. -/
  run : Value → Value → Run
  usage : Usage
  category : Category
  name : String
  /-- The smallest limit put on the usage, if there is one. -/
  ceiling : Option Multiplicity := none

namespace Stage

def shape (s : Stage) : Shape :=
  s.usage.shape

def bound (s : Stage) : Multiplicity :=
  s.shape.bound

def display (s : Stage) : Except Fault String := do
  return "StreamStage(" ++ Text.quote s.name ++ ", " ++ s.category.name ++ ", "
    ++ (← s.shape.text) ++ ")"

/-- A stage that applies a function to its input and leaves the state alone. -/
def stateless (f : Value → Logged Value Value) (usage : Usage) (name : String) : Stage where
  run v state := do return (state, ← f v)
  usage
  category := .stateless
  name

/-- A stage of a step from input and state to new state and output. -/
def stateful (step : Value → Value → Run) (usage : Usage) (name : String) : Stage where
  run := step
  usage
  category := .stateful
  name

end Stage

end StageFusion
