import StageFusion.Registry

/-! Registries from drafts.

A `Draft` is an operator record as it was handed in: its parts may be of the wrong sort, or it may
be no record at all. `Draft.check` is the record that a sound draft describes. A new registry
refuses a repeated name, while an extension puts the later record in the place of the earlier. -/

namespace StageFusion

/-- A part of a draft: of the sort that is wanted, or any other value. -/
inductive Part (α : Type) where
  | given (a : α)
  | other (v : Value)
  deriving Repr

/-- An operator record that has not been checked. -/
inductive Draft where
  | record (name : Value) (category : Part Category) (shape : Part Shape)
  | other (v : Value)
  deriving Repr

namespace Draft

/-- The operator name that a value is. -/
def checkName (v : Value) : Except Fault { name : String // IsOperatorName name } :=
  match v with
  | .str name =>
    if h : IsOperatorName name then .ok ⟨name, h⟩ else .error (.recordName (Text.quote name))
  | v => do throw (.recordName (← v.display))

/-- The record that a draft describes. Name, category and shape are checked in this order. -/
def check (d : Draft) : Except Fault { m : Operator // IsOperatorName m.name } :=
  match d with
  | other v => .error (.recordType v.sort)
  | record name category shape => do
    let ⟨name, valid⟩ ← checkName name
    match category, shape with
    | .other v, _ => throw (.recordCategory name (← v.display))
    | .given _, .other v => throw (.recordShape name (← v.display))
    | .given c, .given s => return ⟨⟨name, c, s⟩, valid⟩

end Draft

namespace Registry

/-- The registry of a list of drafts, in order, whose names are distinct. -/
def ofDrafts (drafts : List Draft) : Except Fault Registry :=
  drafts.foldlM
    (fun r d => do
      let ⟨m, valid⟩ ← d.check
      if r.contains m.name then throw (.recordDuplicate m.name)
      else return r.put m valid)
    empty

/-- A registry with the records of a list of drafts put into it, in order. -/
def extend (r : Registry) (drafts : List Draft) : Except Fault Registry :=
  drafts.foldlM
    (fun r d => do
      let ⟨m, valid⟩ ← d.check
      return r.put m valid)
    r

theorem extend_cons_eq_ok_iff {r extended : Registry} {d : Draft} {drafts : List Draft} :
    r.extend (d :: drafts) = .ok extended ↔
      ∃ m, d.check = .ok m ∧ (r.put m.1 m.2).extend drafts = .ok extended := by
  simp only [extend, List.foldlM_cons]
  cases d.check with
  | error e => simp [Bind.bind, Except.bind]
  | ok m => simp [Bind.bind, Except.bind, Pure.pure, Except.pure]

/-- An extension leaves the record of every name that it does not give. -/
theorem get?_extend {r extended : Registry} {drafts : List Draft} {name : String}
    (h : r.extend drafts = .ok extended)
    (hnames : ∀ d ∈ drafts, ∀ m, d.check = .ok m → m.1.name ≠ name) :
    extended.get? name = r.get? name := by
  induction drafts generalizing r with
  | nil =>
    obtain rfl : r = extended := by simpa [extend, Pure.pure, Except.pure] using h
    rfl
  | cons d drafts ih =>
    obtain ⟨m, hm, hrest⟩ := extend_cons_eq_ok_iff.1 h
    rw [ih hrest fun d' hd' => hnames d' (List.mem_cons_of_mem _ hd'), get?_put,
      if_neg (hnames d List.mem_cons_self m hm)]

end Registry

end StageFusion
