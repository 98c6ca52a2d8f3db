import StageFusion.Value

/-! The requests that bodies hold.

A body is a dictionary, and its fields have to be of the right sorts. A `Reading` is what was read,
or all that does not fit, each a `Misfit` with its place and the value found there. Fields that are
not asked for are passed over. -/

namespace StageFusion.Service

/-! ## Misfits -/

/-- Why a value does not fit. -/
inductive Misfit.Cause where
  | missing
  | notObject
  | notArray
  | notText
  | notInteger
  | notFinite
  | notWhole
  | tooLarge
  deriving DecidableEq, Repr

def Misfit.Cause.name : Misfit.Cause → String
  | missing => "missing"
  | notObject => "model_attributes_type"
  | notArray => "list_type"
  | notText => "string_type"
  | notInteger => "int_type"
  | notFinite => "finite_number"
  | notWhole => "int_from_float"
  | tooLarge => "int_parsing_size"

def Misfit.Cause.message : Misfit.Cause → String
  | missing => "Field required"
  | notObject => "Input should be a valid dictionary or object to extract fields from"
  | notArray => "Input should be a valid list"
  | notText => "Input should be a valid string"
  | notInteger => "Input should be a valid integer"
  | notFinite => "Input should be a finite number"
  | notWhole => "Input should be a valid integer, got a number with a fractional part"
  | tooLarge => "Unable to parse input string as an integer, exceeded maximum size"

/-- A value of a body that does not fit: where it is, by keys and indices, why it does not fit, and
what it is. A missing field is reported with the value that lacks it. -/
structure Misfit where
  place : List Value
  cause : Misfit.Cause
  found : Value

mutual

/-- A value as an answer shows it: entries whose key starts with `_sa` are left out. -/
def shown : Value → Value
  | .list items => .list (shownAll items)
  | .dict entries => .dict (shownEntries entries)
  | v => v

def shownAll : List Value → List Value
  | [] => []
  | v :: rest => shown v :: shownAll rest

def shownEntries : List (String × Value) → List (String × Value)
  | [] => []
  | (key, v) :: rest =>
    if "_sa".toList.isPrefixOf key.toList then shownEntries rest
    else (key, shown v) :: shownEntries rest

end

def Misfit.report (m : Misfit) : Value :=
  .dict [("type", .str m.cause.name), ("loc", .list m.place), ("msg", .str m.cause.message),
    ("input", shown m.found)]

/-! ## Readings -/

/-- A part of a request, or everything in a body that keeps it from being read. -/
abbrev Reading (α : Type) := Except (List Misfit) α

namespace Reading

variable {α β : Type}

/-- The reading that fails at one place. -/
def misfit (place : List Value) (cause : Misfit.Cause) (found : Value) : Reading α :=
  .error [⟨place, cause, found⟩]

/-- Two readings of one body; the misfits of both count. -/
def both (x : Reading α) (y : Reading β) : Reading (α × β) :=
  match x, y with
  | .ok a, .ok b => .ok (a, b)
  | .ok _, .error misfits => .error misfits
  | .error misfits, .ok _ => .error misfits
  | .error misfits, .error others => .error (misfits ++ others)

/-- The readings of the elements of an array, from the element at `index` on; the misfits of all
count. -/
def all (read : List Value → Value → Reading α) (place : List Value) :
    Nat → List Value → Reading (List α)
  | _, [] => .ok []
  | index, v :: rest =>
    (fun (a, as) => a :: as) <$>
      both (read (place ++ [.int index]) v) (all read place (index + 1) rest)

theorem both_eq_ok_iff {x : Reading α} {y : Reading β} {a : α} {b : β} :
    both x y = .ok (a, b) ↔ x = .ok a ∧ y = .ok b := by
  cases x <;> cases y <;> simp [both]

end Reading

def readText (place : List Value) : Value → Reading Value
  | .str s => .ok (.str s)
  | v => .misfit place .notText v

/-- The integer that a value stands for. A truth value is zero or one, and a floating-point number
without fraction is an integer if it is within the range of 64 bits. -/
def wholeNumber : Value → Except Misfit.Cause Int
  | .int i => .ok i
  | .bool b => .ok b.toNat
  | .float (.finite negative units) =>
    match (Binary64.finite negative units).toInt? with
    | some i => if i.natAbs < Nat.pow 2 63 then .ok i else .error .tooLarge
    | none => .error .notWhole
  | .float _ => .error .notFinite
  | _ => .error .notInteger

/-- Reads a bound, an integer or a text. A value that is neither is a misfit in both ways. -/
def readBound (place : List Value) : Value → Reading Value
  | .str s => .ok (.str s)
  | v =>
    match wholeNumber v with
    | .ok i => .ok (.int i)
    | .error cause =>
      .error [⟨place ++ [.str "int"], cause, v⟩, ⟨place ++ [.str "str"], .notText, v⟩]

def bodyPlace : List Value := [.str "body"]

def requiredField (read : List Value → Value → Reading Value) (body : Value) (key : String) :
    Reading Value :=
  let place := bodyPlace ++ [.str key]
  match body.field? key with
  | some v => read place v
  | none => .misfit place .missing body

/-- Reads the elements of an array in a field; without the field there are none. -/
def arrayField (read : List Value → Value → Reading Value) (body : Value) (key : String) :
    Reading Value :=
  let place := bodyPlace ++ [.str key]
  match body.field? key with
  | none => .ok (.list [])
  | some (.list items) => .list <$> .all read place 0 items
  | some v => .misfit place .notArray v

/-! ## Requests -/

def readCheck (body : Value) : Reading Value :=
  (fun (up, down) =>
    .dict [("action", .str "check"), ("upstream", up), ("downstream", down)]) <$>
    .both (requiredField readText body "upstream") (requiredField readText body "downstream")

def readOptimize (body : Value) : Reading Value :=
  (fun names => .dict [("action", .str "optimize"), ("operators", names)]) <$>
    arrayField readText body "operators"

def readProduct (body : Value) : Reading Value :=
  (fun bounds => .dict [("action", .str "bound"), ("bounds", bounds)]) <$>
    arrayField readBound body "bounds"

/-- Reads a body with a reader of its fields. Null counts as no body. -/
def readBody (read : Value → Reading Value) : Value → Reading Value
  | .dict entries => read (.dict entries)
  | .null => .misfit bodyPlace .missing .null
  | v => .misfit bodyPlace .notObject v

end StageFusion.Service
