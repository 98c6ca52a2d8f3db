import StageFusion.Shape

/-! Usages: how often a stage's effect runs for an input.

A `Usage` is a pure function from inputs to multiplicities, which may fail, together with its
declared shape. The constructors declare the shape that belongs to what they compute; a function
without declaration gets `Shape.dataDependent`. -/

namespace StageFusion

/-- The multiplicity of a stage's effect for each input, and the declared shape. -/
structure Usage where
  count : Value → Except Fault Multiplicity
  shape : Shape

namespace Usage

def bound (u : Usage) : Multiplicity :=
  u.shape.bound

def constant (k : Nat) : Usage :=
  ⟨fun _ => .ok (.exact k), .constant k⟩

def once : Usage :=
  constant 1

def never : Usage :=
  constant 0

def unbounded : Usage :=
  ⟨fun _ => .ok .unbounded, .unbounded⟩

/-- One of two numbers of runs, by a condition on the input. -/
def conditional (condition : Value → Except Fault Bool) (whenTrue whenFalse : Nat) : Usage :=
  ⟨fun v => do return if ← condition v then .exact whenTrue else .exact whenFalse,
    .conditional whenTrue whenFalse⟩

/-- The multiplicity that a computed value stands for: a value that is no count stands for
`unbounded` rather than for a guess. -/
def ofComputed : Value → Multiplicity
  | .multiplicity m => m
  | .int i => if 0 ≤ i then .exact i.toNat else .unbounded
  | _ => .unbounded

/-- A number of runs computed from the input. -/
def dependent (f : Value → Except Fault Value) : Usage :=
  ⟨fun v => ofComputed <$> f v, .dataDependent⟩

/-- A function without a declared shape. -/
def undeclared (f : Value → Except Fault Multiplicity) : Usage :=
  ⟨f, .dataDependent⟩

/-- The upper bound of a shape, for every input. -/
def ofShape (s : Shape) : Usage :=
  ⟨fun _ => .ok s.bound, s⟩

def ofMultiplicity : Multiplicity → Usage
  | .exact k => constant k
  | .unbounded => unbounded

/-- The usage that a value stands for: an integer, or a multiplicity. -/
def ofValue : Value → Except Fault Usage
  | .int i => do return constant (← (Value.int i).toCount)
  | .multiplicity m => .ok (ofMultiplicity m)
  | v => .error (.usage v.sort)

end Usage

end StageFusion
