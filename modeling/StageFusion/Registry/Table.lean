import StageFusion.Registry.Draft

/-! Registries as plain dictionaries.

A `Registry.Table` is a dictionary from names to records in the order of insertion, of which nothing is
known. `ofDrafts` fills an empty one with drafts that must not repeat a name. `extend` assigns drafts to
their names in a copy of a table, and fills a new table with what the copy holds in the end, so that
every record is checked once more.

A registry is such a table whose soundness is part of its type (`Registry.sound_table`), and it needs
neither keys nor a second check. `Registry.table_put` says that it puts a record where the table
assigns it. -/

namespace StageFusion

namespace Draft

def ofOperator (m : Operator) : Draft :=
  .record (.str m.name) (.given m.category) (.given m.shape)

end Draft

namespace Registry

/-- A dictionary from names to operator records, in the order of insertion. -/
abbrev Table := List (String × Operator)

namespace Table

def keys (t : Table) : List String :=
  t.map Prod.fst

/-- Every record stands under its own name, the names are valid, and no two are equal. -/
structure Sound (t : Table) : Prop where
  key_eq : ∀ entry ∈ t, entry.1 = entry.2.name
  valid : ∀ entry ∈ t, IsOperatorName entry.1
  nodup : t.keys.Nodup

/-- Assigns a record to its name: in the place of what the name had, or at the end. -/
def assign (t : Table) (m : Operator) : Table :=
  if m.name ∈ t.keys then
    t.map fun entry => if entry.1 = m.name then (entry.1, m) else entry
  else t ++ [(m.name, m)]

/-- Assigns the record of a draft, unless its name is taken. -/
def accept (t : Table) (d : Draft) : Except Fault Table := do
  let ⟨m, _⟩ ← d.check
  if m.name ∈ t.keys then throw (.recordDuplicate m.name)
  else return t.assign m

/-- Assigns the record of a draft, whatever has its name. -/
def place (t : Table) (d : Draft) : Except Fault Table := do
  let ⟨m, _⟩ ← d.check
  return t.assign m

/-- The table of a list of drafts, in order, whose names are distinct. -/
def ofDrafts (drafts : List Draft) : Except Fault Table :=
  drafts.foldlM accept []

/-- A copy of a table with a list of drafts assigned to their names, in order. -/
def merge (t : Table) (drafts : List Draft) : Except Fault Table :=
  drafts.foldlM place t

/-- The table of the records that a table holds once a list of drafts has been merged into it. -/
def extend (t : Table) (drafts : List Draft) : Except Fault Table := do
  ofDrafts ((← t.merge drafts).map fun entry => Draft.ofOperator entry.2)

end Table

def table (r : Registry) : Table :=
  r.operators.map fun m => (m.name, m)

theorem keys_table (r : Registry) : r.table.keys = r.names := by
  simp [table, Table.keys, names]

theorem sound_table (r : Registry) : r.table.Sound where
  key_eq := by simp [table]
  valid := by simpa [table] using r.names_valid
  nodup := by rw [keys_table]; exact r.names_nodup

theorem table_put (r : Registry) {m : Operator} (valid : IsOperatorName m.name) :
    (r.put m valid).table = r.table.assign m := by
  unfold Table.assign
  rw [keys_table]
  by_cases h : m.name ∈ r.names
  · rw [if_pos h, put, dif_pos h]
    unfold table override
    rw [List.map_map, List.map_map]
    apply List.map_congr_left
    intro other _
    by_cases hname : other.name = m.name
    · simp [hname]
    · simp [hname]
  · rw [if_neg h, table, operators_put_of_notMem valid h, List.map_append]
    rfl

end Registry

end StageFusion
