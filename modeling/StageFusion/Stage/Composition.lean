import StageFusion.Stage

/-! Composition of stages.

`andThen` feeds the output of one stage to the next, `beside` runs two stages on the parts of a
paired input, and `fanOut` runs both on the same input. The state of a composed stage is the pair
of the states of its parts, null standing for two fresh ones; when a part fails the whole step
fails, and no part of the new state is seen. The usage of `andThen` takes the *declared* shape of
the second stage, since the output of the first is not known when the usage is computed. -/

namespace StageFusion

/-- The two parts of a value that has exactly two. -/
def Value.parts (v : Value) : Except Fault (Value × Value) :=
  match v.elements? with
  | some [a, b] => .ok (a, b)
  | some [] => .error (.tooFewParts 0)
  | some [_] => .error (.tooFewParts 1)
  | some _ => .error .tooManyParts
  | none => .error (.notPair v.sort)

namespace Stage

/-- The states of the two parts of a composed stage. -/
def partStates (state : Value) : Except Fault (Value × Value) :=
  match state with
  | .null => .ok (.null, .null)
  | state => state.parts

/-- One stage after another. -/
def andThen (a b : Stage) : Stage where
  run v state := do
    let (stateA, stateB) ← partStates state
    let (stateA, middle) ← a.run v stateA
    let (stateB, output) ← b.run middle stateB
    return (.pair stateA stateB, output)
  usage := ⟨fun v => do return (← a.usage.count v) * b.shape.factor, a.shape.andThen b.shape⟩
  category := a.category.join b.category
  name := a.name ++ "+" ++ b.name

/-- Two stages side by side, on the two parts of a paired input. -/
def beside (a b : Stage) : Stage where
  run v state := do
    let (x, y) ← v.parts
    let (stateA, stateB) ← partStates state
    let (stateA, outputA) ← a.run x stateA
    let (stateB, outputB) ← b.run y stateB
    return (.pair stateA stateB, .pair outputA outputB)
  usage := ⟨fun v => do
      let (x, y) ← v.parts
      return max (← a.usage.count x) (← b.usage.count y),
    Shape.beside max a.shape b.shape⟩
  category := a.category.join b.category
  name := a.name ++ "|" ++ b.name

def fanOut (a b : Stage) : Stage where
  run v state := do
    let (stateA, stateB) ← partStates state
    let (stateA, outputA) ← a.run v stateA
    let (stateB, outputB) ← b.run v stateB
    return (.pair stateA stateB, .pair outputA outputB)
  usage := ⟨fun v => do return (← a.usage.count v) + (← b.usage.count v),
    Shape.beside (· + ·) a.shape b.shape⟩
  category := a.category.join b.category
  name := a.name ++ "&" ++ b.name

end Stage

end StageFusion
