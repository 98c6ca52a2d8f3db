import StageFusion.Multiplicity.Reading

/-! Functions on stream values, described as data.

A pipeline that is stored or sent names its conditions, mappings, reductions and transitions; each
such description has one meaning, given here by `Condition.holds`, `Mapping.apply`,
`Reduction.apply` and `Transition.apply`. A truth value is not an integer for any of them. -/

namespace StageFusion

inductive Condition where
  | always (answer : Bool)
  | isNull
  | even
  | nonnegative
  | nonempty
  | above (limit : Int)
  | equals (v : Value)
  | fails (message : String)
  deriving Repr, Inhabited

def Condition.holds (c : Condition) (v : Value) : Except Fault Bool :=
  match c, v with
  | always answer, _ => .ok answer
  | isNull, .null => .ok true
  | even, .int i => .ok (i % 2 == 0)
  | nonnegative, .int i => .ok (0 ≤ i)
  | nonempty, v => .ok (match v.length? with
    | some n => 0 < n
    | none => false)
  | above limit, .int i => .ok (limit < i)
  | equals w, v => .ok (v.sameAs w)
  | fails message, _ => .error (.raised message)
  | isNull, _ | even, _ | nonnegative, _ | above _, _ => .ok false

/-- A function from values to values. -/
inductive Mapping where
  | identity
  | null
  | wrap
  | duplicate
  | negate
  | length
  | range
  | constant (v : Value)
  | add (k : Int)
  | multiply (k : Int)
  | multiplicity (v : Value)
  | andThen (first second : Mapping)
  | ifThenElse (c : Condition) (yes no : Mapping)
  | failIf (c : Condition) (message : String)
  deriving Repr, Inhabited

/-- The integers from zero up to one less than a limit; an integer above a thousand and a value
that is no integer give none. -/
def Value.range : Value → List Value
  | .int i => if i ≤ 1000 then (List.range i.toNat).map fun n => .int (n : Nat) else []
  | _ => []

def Mapping.apply (m : Mapping) (v : Value) : Except Fault Value :=
  match m with
  | identity => .ok v
  | null => .ok .null
  | wrap => .ok (.list [v])
  | duplicate => .ok (.list [v, v])
  | negate => .ok (match v with | .int i => .int (-i) | _ => .null)
  | length => .ok (match v.length? with | some n => .int n | none => .null)
  | range => .ok (.list v.range)
  | constant w => .ok w
  | add k => .ok (match v with | .int i => .int (i + k) | _ => .null)
  | multiply k => .ok (match v with | .int i => .int (i * k) | _ => .null)
  | multiplicity w => .multiplicity <$> Multiplicity.ofValue w
  | andThen first second => do second.apply (← first.apply v)
  | ifThenElse c yes no => do if ← c.holds v then yes.apply v else no.apply v
  | failIf c message => do if ← c.holds v then throw (.raised message) else return v

/-- A function from an accumulator and a value to an accumulator. -/
inductive Reduction where
  | sum
  | maximum
  | count
  | last
  | append
  deriving DecidableEq, Repr, Inhabited

def Reduction.apply (r : Reduction) (acc v : Value) : Value :=
  match r, acc, v with
  | sum, .int a, .int b => .int (a + b)
  | sum, acc, _ => acc
  | maximum, .int a, .int b => .int (max a b)
  | maximum, acc, _ => acc
  | count, .int a, _ => .int (a + 1)
  | count, _, _ => .int 1
  | last, _, v => v
  | append, .list items, v => .list (items ++ [v])
  | append, _, v => .list [v]

/-- A function from an input and a state to a new state and an output. -/
inductive Transition where
  | counter
  | sum
  | dedupe
  | delay
  | failIf (c : Condition) (message : String)
  deriving Repr, Inhabited

def Value.intOrZero (v : Value) : Int :=
  v.toInt?.getD 0

def Transition.apply (t : Transition) (v state : Value) : Except Fault (Value × Value) :=
  match t with
  | counter => .ok (.int (state.intOrZero + 1), v)
  | sum =>
    let total := Value.int (state.intOrZero + v.intOrZero)
    .ok (total, total)
  | dedupe => .ok (v, if v.sameAs state then .null else v)
  | delay => .ok (v, state)
  | failIf c message => do
    if ← c.holds v then throw (.raised message)
    else return (.int (state.intOrZero + 1), v)

end StageFusion
