import StageFusion.Registry

/-! Whether two neighbouring operators may be fused.

The verdict is decided from the records of the two operators alone. Of the rules the first that
applies decides:

1. a side without a record: refused;
2. upstream unbounded: refused;
3. upstream stateless and exactly once: allowed;
4. upstream constant and downstream stateless: allowed;
5. both stateful with finite bounds: allowed;
6. no other pair is allowed.

A verdict announces the product of the two bounds, and a refusal says why. -/

namespace StageFusion

/-- The rule that decided about a pair of operators. -/
inductive Rule where
  | missingMetadata
  | unboundedUpstream
  | statelessIdentity
  | constantIntoStateless
  | statefulFinite
  | noRule
  deriving DecidableEq, Repr

namespace Rule

def name : Rule → String
  | missingMetadata => "missing-metadata"
  | unboundedUpstream => "unbounded-upstream"
  | statelessIdentity => "stateless-identity"
  | constantIntoStateless => "constant-into-stateless"
  | statefulFinite => "stateful-finite"
  | noRule => "no-rule"

def allows : Rule → Bool
  | statelessIdentity | constantIntoStateless | statefulFinite => true
  | missingMetadata | unboundedUpstream | noRule => false

end Rule

/-- The decision about a pair of operators, with the announced bound of the fused stage. -/
inductive Verdict where
  | allowed (rule : Rule) (bound : Multiplicity)
  | refused (rule : Rule) (bound : Multiplicity) (reason : String)
  deriving DecidableEq, Repr

namespace Verdict

def isAllowed : Verdict → Bool
  | allowed .. => true
  | refused .. => false

def rule : Verdict → Rule
  | allowed rule _ => rule
  | refused rule _ _ => rule

def bound : Verdict → Multiplicity
  | allowed _ bound => bound
  | refused _ bound _ => bound

def reason? : Verdict → Option String
  | allowed .. => none
  | refused _ _ reason => some reason

end Verdict

namespace Operator

/-- The rule that decides about two known operators. -/
def judge (up down : Operator) : Rule :=
  if up.shape = .unbounded then .unboundedUpstream
  else if up.category = .stateless ∧ up.shape = .constant 1 then .statelessIdentity
  else if up.shape.isConstant ∧ down.category = .stateless then .constantIntoStateless
  else if up.category = .stateful ∧ down.category = .stateful
      ∧ up.bound.isFinite ∧ down.bound.isFinite then .statefulFinite
  else .noRule

/-- A side of a refused pair as its reason shows it. -/
def describe (category : Category) (shownName : String) (shape : Shape) : Except Fault String := do
  return category.name ++ " " ++ shownName ++ " [" ++ (← shape.text) ++ "]"

def verdict (up down : Operator) : Except Fault Verdict :=
  let bound := up.bound * down.bound
  match up.judge down with
  | .unboundedUpstream =>
    .ok (.refused .unboundedUpstream bound
      ("upstream " ++ Text.quote up.name ++ " has unbounded fan-out"))
  | .noRule => do
    let upShown ← describe up.category (Text.quote up.name) up.shape
    let downShown ← describe down.category (Text.quote down.name) down.shape
    return .refused .noRule bound ("no fusion rule admits " ++ upShown ++ " -> " ++ downShown)
  | rule => .ok (.allowed rule bound)

end Operator

namespace Verdict

/-- The name by which a reason calls an operator without a record. -/
def missingName (name : Option String) : String :=
  Text.quote (match name with
    | some name => if name = "" then "?" else name
    | none => "?")

/-- The verdict on a pair of which some side has no record; `missing` holds the names of those
sides, as shown. -/
def ofMissing (missing : List String) : Verdict :=
  refused .missingMetadata .unbounded
    ("missing operator metadata for " ++ ", ".intercalate missing)

/-- The verdict on two operators of which some may be unknown, with the names they go by. -/
def ofOperators (up down : Option Operator) (upName downName : Option String) :
    Except Fault Verdict :=
  match up, down with
  | some up, some down => up.verdict down
  | some _, none => .ok (ofMissing [missingName downName])
  | none, some _ => .ok (ofMissing [missingName upName])
  | none, none => .ok (ofMissing [missingName upName, missingName downName])

end Verdict

namespace Registry

/-- The verdict on two operators given by plain or fused names. -/
def verdict (r : Registry) (up down : String) : Except Fault Verdict :=
  Verdict.ofOperators (r.resolve up) (r.resolve down) (some up) (some down)

/-- The declared bound of a name, an unknown one being unbounded. -/
def boundOf (r : Registry) (name : String) : Multiplicity :=
  ((r.resolve name).map (·.bound)).getD .unbounded

/-- Whether the product of two bounds is above the bound of the downstream side alone. -/
def raisesBound (r : Registry) (up down : String) : Bool :=
  !decide (r.boundOf up * r.boundOf down ≤ r.boundOf down)

end Registry

end StageFusion
