import StageFusion.Value.Display

/-! Categories of stages, from the least to the most restrictive. `join` is the least upper bound in
this order (`rank_join`). -/

namespace StageFusion

/-- What a stage may do besides returning an output. -/
inductive Category where
  /-- The output depends on the input alone. -/
  | stateless
  /-- The stage keeps state between inputs. -/
  | stateful
  /-- The stage has effects that can be observed. -/
  | effectful
  deriving DecidableEq, Repr, Inhabited

namespace Category

/-- The place of a category in the order of restriction. -/
def rank : Category → Nat
  | stateless => 0
  | stateful => 1
  | effectful => 2

/-- The more restrictive of two categories. -/
def join (a b : Category) : Category :=
  if b.rank ≤ a.rank then a else b

def name : Category → String
  | stateless => "stateless"
  | stateful => "stateful"
  | effectful => "effectful"

def all : List Category :=
  [stateless, stateful, effectful]

def ofName? (name : String) : Option Category :=
  all.find? (·.name == name)

def ofValue (v : Value) : Except Fault Category :=
  match v.toStr?.bind ofName? with
  | some c => .ok c
  | none => do throw (.category (← v.display))

theorem rank_join (a b : Category) : (a.join b).rank = max a.rank b.rank := by
  cases a <;> cases b <;> rfl

theorem join_comm (a b : Category) : a.join b = b.join a := by
  cases a <;> cases b <;> rfl

theorem join_assoc (a b c : Category) : (a.join b).join c = a.join (b.join c) := by
  cases a <;> cases b <;> cases c <;> rfl

theorem ofName?_name (c : Category) : ofName? c.name = some c := by
  cases c <;> decide

end Category

end StageFusion
