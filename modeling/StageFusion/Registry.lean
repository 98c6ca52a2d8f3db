import StageFusion.Operator

/-! Operator registries.

A `Registry` is an ordered table of operator records with distinct, valid names. `put` adds a record
at the end or in the place of the record with the same name, so that an override keeps its
position. `resolve` looks up a plain or fused name: the record of a fused name is the fusion of the
records of its components, and a name with an unknown component is unknown. -/

namespace StageFusion

/-- An ordered table of operator records. -/
structure Registry where
  operators : List Operator
  names_nodup : (operators.map (·.name)).Nodup
  names_valid : ∀ m ∈ operators, IsOperatorName m.name

namespace Registry

def empty : Registry := ⟨[], by simp, by simp⟩

def names (r : Registry) : List String :=
  r.operators.map (·.name)

def size (r : Registry) : Nat :=
  r.operators.length

def get? (r : Registry) (name : String) : Option Operator :=
  r.operators.find? (·.name == name)

def contains (r : Registry) (name : String) : Bool :=
  r.names.contains name

def byCategory (r : Registry) (c : Category) : List Operator :=
  r.operators.filter (·.category == c)

/-- The record of a plain or fused name. A plain name is its own only component. -/
def resolve (r : Registry) (name : String) : Option Operator := do
  Operator.fuseAll? (← (components name).mapM r.get?)

/-- The record of two operators, given by name, fused into one stage. -/
def fuse (r : Registry) (up down : String) : Except Fault Operator :=
  match r.resolve up, r.resolve down with
  | some a, some b => .ok (a.andThen b)
  | _, _ => .error (.noField "NoneType" "name")

/-- The records with one put in the place of its namesake. -/
def override (operators : List Operator) (m : Operator) : List Operator :=
  operators.map fun other => if other.name = m.name then m else other

theorem map_name_override (operators : List Operator) (m : Operator) :
    (override operators m).map (·.name) = operators.map (·.name) := by
  simp only [override, List.map_map]
  apply List.map_congr_left
  intro other _
  simp only [Function.comp]
  split
  · next h => exact h.symm
  · rfl

/-- Adds a record at the end, or in the place of the record with the same name. -/
def put (r : Registry) (m : Operator) (valid : IsOperatorName m.name) : Registry :=
  if h : m.name ∈ r.names then
    { operators := override r.operators m
      names_nodup := by rw [map_name_override]; exact r.names_nodup
      names_valid := by
        intro x hx
        simp only [override, List.mem_map] at hx
        obtain ⟨other, hother, rfl⟩ := hx
        split
        · exact valid
        · exact r.names_valid other hother }
  else
    { operators := r.operators ++ [m]
      names_nodup := by
        rw [List.map_append, List.nodup_append]
        refine ⟨r.names_nodup, by simp, ?_⟩
        intro a ha b hb hab
        simp only [List.map_cons, List.map_nil, List.mem_singleton] at hb
        subst hb hab
        exact h ha
      names_valid := by
        intro x hx
        rcases List.mem_append.1 hx with hx | hx
        · exact r.names_valid x hx
        · rw [List.mem_singleton.1 hx]; exact valid }

theorem operators_put_of_notMem {r : Registry} {m : Operator} (valid : IsOperatorName m.name)
    (h : m.name ∉ r.names) : (r.put m valid).operators = r.operators ++ [m] := by
  rw [put, dif_neg h]

/-- A new name stands at the end, and a known one stays where it is. -/
theorem names_put (r : Registry) {m : Operator} (valid : IsOperatorName m.name) :
    (r.put m valid).names = if m.name ∈ r.names then r.names else r.names ++ [m.name] := by
  by_cases h : m.name ∈ r.names
  · rw [if_pos h, put, dif_pos h]
    exact map_name_override r.operators m
  · rw [if_neg h, names, operators_put_of_notMem valid h, List.map_append]
    rfl

/-- An override is looked up where its namesake was. -/
theorem find?_override (operators : List Operator) (m : Operator) (name : String) :
    (override operators m).find? (·.name == name) =
      (operators.find? (·.name == name)).map fun other =>
        if other.name = m.name then m else other := by
  rw [override, List.find?_map]
  congr 2
  funext other
  simp only [Function.comp]
  split
  · next h => rw [h]
  · rfl

theorem name_of_get? {r : Registry} {name : String} {m : Operator} (h : r.get? name = some m) :
    m.name = name := by
  simpa using List.find?_some h

theorem get?_eq_none_iff {r : Registry} {name : String} : r.get? name = none ↔ name ∉ r.names := by
  simp [get?, names]

theorem contains_iff_mem {r : Registry} {name : String} : r.contains name = true ↔ name ∈ r.names :=
  List.contains_iff_mem

theorem contains_iff {r : Registry} {name : String} :
    r.contains name = true ↔ (r.get? name).isSome := by
  rw [contains_iff_mem, Option.isSome_iff_ne_none, Ne, get?_eq_none_iff, Decidable.not_not]

/-- A record that has been put in is found by its name, and every other name as before. -/
theorem get?_put (r : Registry) {m : Operator} (valid : IsOperatorName m.name) (name : String) :
    (r.put m valid).get? name = if m.name = name then some m else r.get? name := by
  by_cases hmem : m.name ∈ r.names
  · have hput : (r.put m valid).get? name =
        (r.get? name).map fun other => if other.name = m.name then m else other := by
      rw [put, dif_pos hmem]
      exact find?_override r.operators m name
    rw [hput]
    cases hfound : r.get? name with
    | none =>
      have hne : m.name ≠ name := fun h => get?_eq_none_iff.1 hfound (h ▸ hmem)
      rw [if_neg hne, Option.map_none]
    | some other =>
      rw [Option.map_some, name_of_get? hfound]
      by_cases h : m.name = name
      · rw [if_pos h, if_pos h.symm]
      · rw [if_neg h, if_neg (Ne.symm h)]
  · have hput : (r.put m valid).get? name =
        (r.get? name).or (if m.name = name then some m else none) := by
      rw [put, dif_neg hmem]
      simp only [get?, List.find?_append, List.find?_singleton, beq_iff_eq]
    rw [hput]
    by_cases h : m.name = name
    · rw [if_pos h, if_pos h, get?_eq_none_iff.2 (h ▸ hmem), Option.none_or]
    · rw [if_neg h, if_neg h, Option.or_none]

def display (r : Registry) : String :=
  "OperatorRegistry(" ++ toString r.size ++ " operators)"

end Registry

end StageFusion
