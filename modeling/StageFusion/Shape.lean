import StageFusion.Multiplicity.Reading

/-! Usage shapes: what is declared about a usage before any input is seen.

A shape is one count for every input, one of two counts by a condition, dependent on the input, or
without bound. `Shape.bound` is the least multiplicity known to cover every input, `Shape.factor`
the number of runs that a downstream stage adds for each run upstream, and `Shape.andThen` the
shape of two stages one after the other. Main statement: what `andThen` makes passes the checks of a
shape from outside (`Shape.buildAndThen_eq`). -/

namespace StageFusion

/-- The declared form of a usage. -/
inductive Shape where
  | constant (count : Nat)
  | conditional (whenTrue whenFalse : Nat)
  | dataDependent
  | unbounded
  deriving DecidableEq, Repr, Inhabited

/-- A usage shape without its counts. -/
inductive ShapeKind where
  | constant
  | conditional
  | dataDependent
  | unbounded
  deriving DecidableEq, Repr

namespace ShapeKind

def name : ShapeKind → String
  | constant => "constant"
  | conditional => "conditional"
  | dataDependent => "data_dependent"
  | unbounded => "unbounded"

def all : List ShapeKind :=
  [constant, conditional, dataDependent, unbounded]

def arity : ShapeKind → Nat
  | constant => 1
  | conditional => 2
  | dataDependent | unbounded => 0

def ofValue (v : Value) : Except Fault ShapeKind :=
  match v.toStr?.bind fun s => all.find? (·.name == s) with
  | some kind => .ok kind
  | none => do throw (.shapeKind (← v.display))

end ShapeKind

namespace Shape

def kind : Shape → ShapeKind
  | constant _ => .constant
  | conditional .. => .conditional
  | dataDependent => .dataDependent
  | unbounded => .unbounded

def counts : Shape → List Nat
  | constant k => [k]
  | conditional t f => [t, f]
  | dataDependent | unbounded => []

/-- Whether the count is the same for every input. -/
def isConstant : Shape → Bool
  | constant _ => true
  | _ => false

/-- An upper bound of the usage over all inputs. -/
def bound : Shape → Multiplicity
  | constant k => .exact k
  | conditional t f => .exact (max t f)
  | dataDependent | unbounded => .unbounded

/-- The runs that a downstream stage adds for each run upstream. Only a constant shape gives a
number: every other one depends on a value that is not known when usages are composed. -/
def factor : Shape → Multiplicity
  | constant k => .exact k
  | _ => .unbounded

def ofBound : Multiplicity → Shape
  | .exact k => constant k
  | .unbounded => unbounded

/-- The shape of a choice between two bounds, which is one of them if they agree. -/
def ofChoice : Multiplicity → Multiplicity → Shape
  | .exact t, .exact f => if t = f then constant t else conditional t f
  | .unbounded, .unbounded => unbounded
  | _, _ => dataDependent

/-- The shape of one stage followed by another. -/
def andThen (a b : Shape) : Shape :=
  match a with
  | constant k => ofBound (.exact k * b.factor)
  | conditional t f => ofChoice (.exact t * b.factor) (.exact f * b.factor)
  | a => if b.factor = 0 then constant 0 else a

/-- The shape of two stages side by side, whose constant counts are combined by `f`. -/
def beside (f : Nat → Nat → Nat) : Shape → Shape → Shape
  | unbounded, _ => unbounded
  | _, unbounded => unbounded
  | constant m, constant n => constant (f m n)
  | _, _ => dataDependent

/-- The bound of a stage of a shape after stages of a bound. -/
def boundAfter (upstream : Multiplicity) (downstream : Shape) : Multiplicity :=
  upstream * downstream.factor

/-! ## Texts and checked construction -/

/-- The text of a shape: the name of its kind, and its counts if it has any. -/
def text (s : Shape) : Except Fault String :=
  match s.counts with
  | [] => .ok s.kind.name
  | counts => do
    let numerals ← counts.mapM fun k => writeNumeral (k : Nat)
    return s.kind.name ++ "(" ++ ", ".intercalate numerals ++ ")"

/-- The shape of a kind with given counts. The number of counts is checked before the counts. -/
def ofParts (kind : ShapeKind) (counts : List Value) : Except Fault Shape :=
  match kind, counts with
  | .constant, [k] => do return constant (← k.toCount)
  | .conditional, [t, f] => do return conditional (← t.toCount) (← f.toCount)
  | .dataDependent, [] => .ok dataDependent
  | .unbounded, [] => .ok unbounded
  | kind, counts => .error (.shapeArity kind.name kind.arity counts.length)

/-- The shape of a kind with counts that are checked. -/
def build (kind : ShapeKind) (counts : List Nat) : Except Fault Shape :=
  ofParts kind (counts.map fun k : Nat => .int k)

def buildOfBound : Multiplicity → Except Fault Shape
  | .exact k => build .constant [k]
  | .unbounded => build .unbounded []

def buildOfChoice : Multiplicity → Multiplicity → Except Fault Shape
  | .exact t, .exact f => if t = f then build .constant [t] else build .conditional [t, f]
  | .unbounded, .unbounded => build .unbounded []
  | _, _ => build .dataDependent []

/-- The shape of one stage followed by another. Every shape made on the way is checked; this is
`andThen` (`buildAndThen_eq`). -/
def buildAndThen (a b : Shape) : Except Fault Shape :=
  match a with
  | constant k => buildOfBound (.exact k * b.factor)
  | conditional t f => buildOfChoice (.exact t * b.factor) (.exact f * b.factor)
  | a => if b.factor = 0 then build .constant [0] else .ok a

/-- The shape that a description holds: a `kind`, and `values` that are no counts if missing. -/
def ofValue (v : Value) : Except Fault Shape := do
  let kind ← ShapeKind.ofValue (v.field "kind")
  let values := (v.field? "values").getD (.list [])
  match values.elements? with
  | some counts => ofParts kind counts
  | none => throw (.notIterable values.sort)

/-! ## Composed shapes pass their check -/

/-- Every shape is made of its kind and its counts. -/
@[simp]
theorem build_counts (s : Shape) : build s.kind s.counts = .ok s := by
  cases s with
  | constant k =>
    simp only [build, kind, counts, ofParts, List.map_cons, List.map_nil, Value.toCount_natCast]
    rfl
  | conditional t f =>
    simp only [build, kind, counts, ofParts, List.map_cons, List.map_nil, Value.toCount_natCast]
    rfl
  | dataDependent => rfl
  | unbounded => rfl

theorem buildOfBound_eq (m : Multiplicity) : buildOfBound m = .ok (ofBound m) := by
  cases m with
  | exact k => exact build_counts (constant k)
  | unbounded => exact build_counts unbounded

theorem buildOfChoice_eq (m n : Multiplicity) : buildOfChoice m n = .ok (ofChoice m n) := by
  cases m with
  | exact t =>
    cases n with
    | exact f =>
      rw [buildOfChoice, ofChoice]
      split
      · exact build_counts (constant t)
      · exact build_counts (conditional t f)
    | unbounded => exact build_counts dataDependent
  | unbounded =>
    cases n with
    | exact f => exact build_counts dataDependent
    | unbounded => exact build_counts unbounded

theorem buildAndThen_eq (a b : Shape) : a.buildAndThen b = .ok (a.andThen b) := by
  have hopen : ∀ c : Shape, (if b.factor = 0 then build .constant [0] else .ok c) =
      .ok (if b.factor = 0 then constant 0 else c) := by
    intro c
    split
    · exact build_counts (constant 0)
    · rfl
  cases a with
  | constant k => exact buildOfBound_eq _
  | conditional t f => exact buildOfChoice_eq _ _
  | dataDependent => exact hopen _
  | unbounded => exact hopen _

theorem foldlM_buildAndThen (a : Shape) (rest : List Shape) :
    rest.foldlM buildAndThen a = .ok (rest.foldl andThen a) := by
  induction rest generalizing a with
  | nil => rfl
  | cons b rest ih =>
    rw [List.foldlM_cons, buildAndThen_eq]
    exact ih (a.andThen b)

end Shape

end StageFusion
