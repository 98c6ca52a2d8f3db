import StageFusion.Stage

/-! Reference operators. Each runs its effect once for every input, as the builtin registry has it for
its name, but for `flatMap`, which has no bound there either, and `take`, whose declared usage is its
limit. -/

namespace StageFusion.Stage

def map (f : Value → Logged Value Value) : Stage :=
  stateless f .once "map"

/-- Keeps the values that satisfy a condition; null comes out in place of the others. -/
def filter (condition : Value → Logged Value Bool) : Stage :=
  stateless (fun v => do return if ← condition v then v else .null) .once "filter"

/-- Folds the values into an accumulator, which is state and output alike. A null state starts
from `initial`. -/
def scan (initial : Value) (reduce : Value → Value → Logged Value Value) : Stage :=
  stateful
    (fun v state => do
      let acc ← reduce (match state with | .null => initial | acc => acc) v
      return (acc, acc))
    .once "scan"

/-- Whether a number of values taken has reached a limit. A null state counts as zero, a truth
value as zero or one. -/
def reached (limit : Nat) : Value → Except Fault Bool
  | .null => .ok (limit ≤ 0)
  | .bool b => .ok (limit ≤ b.toNat)
  | .int i => .ok ((limit : Int) ≤ i)
  | .float x => .ok (x.atLeastInt limit)
  | v => .error (.notOrdered v.sort)

/-- The number of values taken after one more. -/
def oneMore : Value → Value
  | .null => .int 1
  | .bool b => .int (b.toNat + 1)
  | .int i => .int (i + 1)
  | .float x => .float x.succ
  | v => v

/-- Passes values until `limit` have been taken, then null. The state counts the values taken, and
the declared usage is `limit` for every input. -/
def take (limit : Nat) : Stage :=
  stateful
    (fun v state => do
      if ← reached limit state then
        return (match state with | .null => .int 0 | taken => taken, .null)
      else return (oneMore state, v))
    (.constant limit) "take"

/-- Expands every value into a list of values, without a bound on its length. -/
def flatMap (f : Value → Logged Value Value) : Stage :=
  stateless
    (fun v => do
      let expanded ← f v
      match expanded.elements? with
      | some items => return .list items
      | none => throw (.notIterable expanded.sort))
    .unbounded "flatMap"

/-- Performs an effect once for every value and passes the value on. -/
def tap (effect : Value → Logged Value Unit) : Stage where
  run v state := do
    effect v
    return (state, v)
  usage := .once
  category := .effectful
  name := "tap"

/-- The number of values to take that a value stands for. -/
def takeLimit (v : Value) : Except Fault Nat :=
  match v with
  | .int i => if 0 ≤ i then .ok i.toNat else do throw (.takeCount (← (Value.int i).display))
  | v => do throw (.takeCount (← v.display))

end StageFusion.Stage
