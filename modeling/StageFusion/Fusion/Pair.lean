import StageFusion.Fusion.Stats
import StageFusion.Fusion.Verdict
import StageFusion.Logged
import StageFusion.Stage.Composition

/-! Fusion of two neighbouring stages.

`fuse` asks the registry for a verdict on the names of two stages and, if they may be fused,
composes them under both names. What happens is written as an `Event`. -/

namespace StageFusion

/-- What a run of the optimizer has to tell. -/
inductive Event where
  /-- A link's name is not in the registry. -/
  | unknownOperator (name : String)
  /-- Two neighbours have been fused. -/
  | fused (up down : String) (rule : Rule) (bound : Multiplicity)
  /-- Two neighbours have been left apart. -/
  | skipped (up down : String) (rule : Rule) (reason : String)
  /-- A chain has been brought to its fixed point. -/
  | finished (stats : Stats)
  deriving DecidableEq, Repr

/-- The outcome of an attempt to fuse two stages, with the declared bound of the two in sequence. -/
inductive Decision where
  | fused (bound : Multiplicity) (stage : Stage)
  | refused (bound : Multiplicity) (reason : String)

namespace Decision

/-- The stage that two stages have been fused into. -/
def stage? : Decision → Option Stage
  | fused _ stage => some stage
  | refused .. => none

def bound : Decision → Multiplicity
  | fused bound _ => bound
  | refused bound _ => bound

/-- Why the stages have been left apart. -/
def reason? : Decision → Option String
  | fused .. => none
  | refused _ reason => some reason

end Decision

/-- The declared bound of two stages in sequence, whether or not they may be fused. -/
def Stage.fusedBound (a b : Stage) : Multiplicity :=
  Shape.boundAfter a.bound b.shape

/-- Two stages as one stage under a new name. -/
def Stage.andThenAs (a b : Stage) (name : String) : Stage :=
  { a.andThen b with name := name }

/-- Tries to merge two stages, known to the registry by the given names, into one. -/
def Registry.fuseStages (r : Registry) (a b : Stage) (nameA nameB : String) :
    Logged Event Decision := do
  let bound := a.fusedBound b
  match ← r.verdict nameA nameB with
  | .refused rule _ reason =>
    Logged.tell (.skipped nameA nameB rule reason)
    return .refused bound reason
  | .allowed rule _ =>
    Logged.tell (.fused nameA nameB rule bound)
    return .fused bound (a.andThenAs b (fusedName nameA nameB))

end StageFusion
