import StageFusion.Fusion.Chain
import StageFusion.Plan.Function
import StageFusion.Stage.Composition
import StageFusion.Stage.Limit
import StageFusion.Stage.Reference

/-! Usages, stages and links, described as data.

A plan holds counts, categories and shapes as they were handed in, and building it checks them: the
parts of a composed stage first, the left before the right, and then the whole. -/

namespace StageFusion

/-- A usage described as data. -/
inductive UsagePlan where
  | plain (v : Value)
  | constant (k : Value)
  | once
  | never
  | unbounded
  | conditional (c : Condition) (whenTrue whenFalse : Value)
  | dependent (f : Mapping)
  | undeclared (f : Mapping)
  | ofShape (shape : Value)
  | declared (f : Mapping) (shape : Value)
  | multiplicity (v : Value)
  deriving Repr, Inhabited

def Mapping.multiplicityOf (f : Mapping) (v : Value) : Except Fault Multiplicity := do
  Multiplicity.ofValue (← f.apply v)

def UsagePlan.build : UsagePlan → Except Fault Usage
  | plain v => Usage.ofValue v
  | constant k => do return .constant (← k.toCount)
  | once => .ok .once
  | never => .ok .never
  | unbounded => .ok .unbounded
  | conditional c t f => do return .conditional c.holds (← t.toCount) (← f.toCount)
  | dependent f => .ok (.dependent f.apply)
  | undeclared f => .ok (.undeclared f.multiplicityOf)
  | ofShape shape => do return .ofShape (← Shape.ofValue shape)
  | declared f shape => do return ⟨f.multiplicityOf, ← Shape.ofValue shape⟩
  | multiplicity v => do return .ofMultiplicity (← Multiplicity.ofValue v)

/-- The usage that an optional plan describes, once for every input if there is none. -/
def UsagePlan.buildOrOnce : Option UsagePlan → Except Fault Usage
  | some plan => plan.build
  | none => .ok .once

/-- A stage described as data. -/
inductive StagePlan where
  | map (f : Mapping)
  | filter (c : Condition)
  | scan (initial : Value) (r : Reduction)
  | take (count : Value)
  | flatMap (f : Mapping)
  | tap (f : Mapping)
  | stateless (f : Mapping) (usage : Option UsagePlan) (name : String)
  | stateful (t : Transition) (usage : Option UsagePlan) (name : String)
  | custom (t : Transition) (usage : UsagePlan) (category : Value) (name : String)
  | andThen (a b : StagePlan)
  | beside (a b : StagePlan)
  | fanOut (a b : StagePlan)
  | limit (inner : StagePlan) (ceiling : Value)
  deriving Repr, Inhabited

/-- A function on values as a computation without effects. -/
def Mapping.run (f : Mapping) (v : Value) : Logged Value Value :=
  Logged.ofExcept (f.apply v)

def Transition.run (t : Transition) (v state : Value) : Run :=
  Logged.ofExcept (t.apply v state)

def StagePlan.build : StagePlan → Except Fault Stage
  | map f => .ok (Stage.map f.run)
  | filter c => .ok (Stage.filter fun v => Logged.ofExcept (c.holds v))
  | scan initial r => .ok (Stage.scan initial fun acc v => return r.apply acc v)
  | take count => do return Stage.take (← Stage.takeLimit count)
  | flatMap f => .ok (Stage.flatMap f.run)
  | tap f => .ok (Stage.tap fun v => do Logged.tell (← f.run v))
  | stateless f usage name => do
    return Stage.stateless f.run (← UsagePlan.buildOrOnce usage) name
  | stateful t usage name => do
    return Stage.stateful t.run (← UsagePlan.buildOrOnce usage) name
  | custom t usage category name => do
    let usage ← usage.build
    let category ← Category.ofValue category
    return ⟨t.run, usage, category, name, none⟩
  | andThen a b => do return (← a.build).andThen (← b.build)
  | beside a b => do return (← a.build).beside (← b.build)
  | fanOut a b => do return (← a.build).fanOut (← b.build)
  | limit inner ceiling => do return (← inner.build).limit (← Multiplicity.ofValue ceiling)

/-- A link described as data; without a name it goes by the name of its stage. -/
structure LinkPlan where
  stage : StagePlan
  name : Option String
  deriving Repr

def LinkPlan.build (plan : LinkPlan) : Except Fault Link := do
  let stage ← plan.stage.build
  return ⟨stage, plan.name.getD stage.name⟩

end StageFusion
