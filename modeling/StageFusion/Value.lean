import StageFusion.Binary64
import StageFusion.Multiplicity

/-! The values that flow through a pipeline.

A `Value` is what stages take, return and keep as state: the values of the JSON data model, with
integers of any size apart from floating-point numbers, and besides them the pair, which composed
stages use for their state and output, and the multiplicity. The module holds the type, the names
of its sorts, `agrees` (equality that reads across the number types) and the ways to look inside. -/

namespace StageFusion

/-- A value of a stream. -/
inductive Value where
  | null
  | bool (b : Bool)
  | int (i : Int)
  | float (x : Binary64)
  | str (s : String)
  | list (items : List Value)
  | dict (entries : List (String × Value))
  | pair (first second : Value)
  | multiplicity (m : Multiplicity)
  deriving Repr, Inhabited

namespace Value

/-- The name of the sort of a value, as messages give it. -/
def sort : Value → String
  | null => "NoneType"
  | bool _ => "bool"
  | int _ => "int"
  | float _ => "float"
  | str _ => "str"
  | list _ => "list"
  | dict _ => "dict"
  | pair .. => "tuple"
  | multiplicity (.exact _) => "Exact"
  | multiplicity .unbounded => "Unbounded"

/-- Whether two scalar values are equal. A truth value counts as zero or one, and numbers are
compared by what they denote, whatever their sort. -/
def scalarAgrees : Value → Value → Bool
  | null, null => true
  | bool a, bool b => a == b
  | bool a, int j => (a.toNat : Int) == j
  | bool a, float y => y.equalsInt a.toNat
  | int i, bool b => i == (b.toNat : Int)
  | int i, int j => i == j
  | int i, float y => y.equalsInt i
  | float x, bool b => x.equalsInt b.toNat
  | float x, int j => x.equalsInt j
  | float x, float y => x.equals y
  | str s, str t => s == t
  | multiplicity m, multiplicity n => m == n
  | _, _ => false

mutual

/-- Equality of values: sequences by position, dictionaries by key, numbers by what they denote. -/
def agrees : Value → Value → Bool
  | list xs, list ys => agreesAll xs ys
  | dict xs, dict ys => xs.length == ys.length && agreesEntries xs ys
  | pair a b, pair c d => agrees a c && agrees b d
  | a, b => scalarAgrees a b

/-- Equality of sequences by position. -/
def agreesAll : List Value → List Value → Bool
  | [], [] => true
  | x :: xs, y :: ys => agrees x y && agreesAll xs ys
  | _, _ => false

/-- Every entry of the first dictionary has an equal one in the second. -/
def agreesEntries : List (String × Value) → List (String × Value) → Bool
  | [], _ => true
  | (key, x) :: rest, ys =>
    (match ys.lookup key with
      | some y => agrees x y
      | none => false) && agreesEntries rest ys

end

/-- Equality of values of one sort. -/
def sameAs (v w : Value) : Bool :=
  v.sort == w.sort && v.agrees w

/-- Whether a value counts as present in a request: not null, false, zero or empty. -/
def isTruthy : Value → Bool
  | null => false
  | bool b => b
  | int i => i != 0
  | float x => !x.isZero
  | str s => s != ""
  | list items => !items.isEmpty
  | dict entries => !entries.isEmpty
  | pair .. => true
  | multiplicity _ => true

/-- The number of elements of a sequence or of characters of a text. A dictionary has none. -/
def length? : Value → Option Nat
  | str s => some s.length
  | list items => some items.length
  | pair .. => some 2
  | _ => none

/-- The values that iteration over a value gives: elements, characters, or keys. -/
def elements? : Value → Option (List Value)
  | str s => some (s.toList.map fun c => str c.toString)
  | list items => some items
  | dict entries => some (entries.map fun e => str e.1)
  | pair a b => some [a, b]
  | _ => none

/-- The value of a key, if the value is a dictionary with it. -/
def field? : Value → String → Option Value
  | dict entries, key => entries.lookup key
  | _, _ => none

/-- The value of a key, null standing for a missing one. -/
def field (v : Value) (key : String) : Value :=
  (v.field? key).getD null

def toInt? : Value → Option Int
  | int i => some i
  | _ => none

def toStr? : Value → Option String
  | str s => some s
  | _ => none

end Value

end StageFusion
