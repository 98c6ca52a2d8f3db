import StageFusion.Stage

/-! Limits on the usage of stages.

`Stage.checkedUsage` computes the usage for an input and fails if it is above a ceiling.
`Stage.limit` puts such a check before every run: when it fails, nothing has been run. Limits nest,
and `ceiling` is the smallest one. -/

namespace StageFusion

/-- The fault of a usage above a ceiling; a bound with too long a numeral has no wording. -/
def Fault.ofExcess (operator : String) (computed ceiling : Multiplicity) : Fault :=
  match computed.write, ceiling.write with
  | .ok _, .ok _ => .usageExceeded operator computed ceiling
  | .error e, _ => e
  | _, .error e => e

namespace Stage

/-- The usage for an input, if it is at most a ceiling. -/
def checkedUsage (s : Stage) (ceiling : Multiplicity) (v : Value) : Except Fault Multiplicity := do
  let computed ← s.usage.count v
  if computed ≤ ceiling then return computed
  else throw (Fault.ofExcess s.name computed ceiling)

/-- A stage that checks its usage against a ceiling before every run. -/
def limit (s : Stage) (ceiling : Multiplicity) : Stage :=
  { s with
    run := fun v state => do
      let _ ← s.checkedUsage ceiling v
      s.run v state
    ceiling := some (match s.ceiling with
      | none => ceiling
      | some inner => min inner ceiling) }

end Stage

end StageFusion
