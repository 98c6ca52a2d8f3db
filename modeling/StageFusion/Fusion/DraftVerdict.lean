import StageFusion.Fusion.Verdict
import StageFusion.Registry.Draft

/-! Verdicts on operator records that no registry has checked.

The rules apply as to checked records. A part that is missing is a fault as soon as a rule or a
reason needs it: the shapes always, a category only in the reason of a pair that no rule allows. A
value that is no category equals none. -/

namespace StageFusion

namespace Draft

/-- What the rules need of a draft: the name as shown, the category if it is one, the value in its
place if not, and the shape. -/
structure Side where
  shownName : Except Fault String
  category : Part Category
  shape : Shape

def side (d : Draft) : Except Fault Side :=
  match d with
  | other v => .error (.noField v.sort "shape")
  | record _ _ (.other v) => .error (.noField v.sort "bound")
  | record name category (.given shape) => .ok ⟨name.display, category, shape⟩

namespace Side

/-- A record by which the rules decide as by this side. A value that is no category stands with the
effectful one, which no rule asks for. -/
def asOperator (s : Side) : Operator where
  name := ""
  category := match s.category with
    | .given c => c
    | .other _ => .effectful
  shape := s.shape

/-- The side as the reason of a refused pair shows it. -/
def describe (s : Side) : Except Fault String :=
  match s.category with
  | .given c => do Operator.describe c (← s.shownName) s.shape
  | .other v => .error (.noField v.sort "value")

def verdict (up down : Side) : Except Fault Verdict :=
  let bound := up.shape.bound * down.shape.bound
  match up.asOperator.judge down.asOperator with
  | .unboundedUpstream => do
    return .refused .unboundedUpstream bound
      ("upstream " ++ (← up.shownName) ++ " has unbounded fan-out")
  | .noRule => do
    return .refused .noRule bound
      ("no fusion rule admits " ++ (← up.describe) ++ " -> " ++ (← down.describe))
  | rule => .ok (.allowed rule bound)

end Side

end Draft

/-- The verdict on two drafts of which some may be missing, with the names they go by. -/
def Verdict.ofDrafts (up down : Option Draft) (upName downName : Option String) :
    Except Fault Verdict :=
  match up, down with
  | some up, some down => do
    let upSide ← up.side
    let downSide ← down.side
    upSide.verdict downSide
  | some _, none => .ok (ofMissing [missingName downName])
  | none, some _ => .ok (ofMissing [missingName upName])
  | none, none => .ok (ofMissing [missingName upName, missingName downName])

end StageFusion
