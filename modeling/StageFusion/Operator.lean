import StageFusion.Category
import StageFusion.Shape
import StageFusion.Text.Cut

/-! Operator records: what is known about a stage by its operator's name.

`Operator.andThen` is the record of two operators fused into one stage, named by both names with a
plus sign between them. `components` cuts such a name at its plus signs. -/

namespace StageFusion

/-- The name, category and declared usage shape of an operator. -/
structure Operator where
  name : String
  category : Category
  shape : Shape
  deriving DecidableEq, Repr

/-- The character between the names of fused operators. -/
def fusedSeparator : Char := '+'

def fusedName (up down : String) : String :=
  up ++ fusedSeparator.toString ++ down

/-- The names of the operators that a plain or fused name is made of. -/
def components (name : String) : List String :=
  (Text.cutAt fusedSeparator name.toList).map String.ofList

/-- A name that a registry accepts: not empty, and without the separator. -/
def IsOperatorName (name : String) : Prop :=
  name ≠ "" ∧ fusedSeparator ∉ name.toList

instance (name : String) : Decidable (IsOperatorName name) :=
  inferInstanceAs (Decidable (_ ∧ _))

namespace Operator

def bound (m : Operator) : Multiplicity :=
  m.shape.bound

/-- The record of a stage fused from two operators. -/
def andThen (up down : Operator) : Operator where
  name := fusedName up.name down.name
  category := up.category.join down.category
  shape := up.shape.andThen down.shape

/-- The record of a stage fused from a sequence of operators, from left to right. -/
def fuseAll? : List Operator → Option Operator
  | [] => none
  | first :: rest => some (rest.foldl andThen first)

def report (m : Operator) : Except Fault Value := do
  return .dict [("name", .str m.name), ("category", .str m.category.name),
    ("shape", .str (← m.shape.text)), ("bound", m.bound.toValue)]

end Operator

/-! ## Lemmas on names -/

theorem components_of_isOperatorName {name : String} (h : IsOperatorName name) :
    components name = [name] := by
  simp [components, Text.cutAt_of_not_mem h.2]

theorem components_fusedName (up down : String) :
    components (fusedName up down) = components up ++ components down := by
  simp [components, fusedName, Text.cutAt_append_cons]

theorem fusedName_assoc (a b c : String) :
    fusedName (fusedName a b) c = fusedName a (fusedName b c) := by
  simp only [fusedName, String.append_assoc]

theorem fusedName_ne_empty (up down : String) : fusedName up down ≠ "" := by
  intro h
  have hchars : fusedSeparator ∈ (fusedName up down).toList := by simp [fusedName]
  simp [h] at hchars

theorem components_ne_nil (name : String) : components name ≠ [] := by
  simp [components, Text.cutAt_ne_nil]

end StageFusion
