import StageFusion.Proofs.Interruptions
import StageFusion.Registry.Table

/-! What drafts describe, and how they are refused.

A value can be shown unless it holds an integer with too long a numeral (`Value.failsIff_display`).
`Draft.Describes` is the record that a sound draft gives, and a draft that gives none is malformed. The
check of a draft returns just the record it describes (`Draft.check_eq_ok_iff`), and fails just on
malformed drafts (`Draft.malformed_iff`). It complains about the metadata (`Draft.complains_iff`), except
for a draft whose unusable part cannot be shown in the complaint (`Draft.unspeakable_iff`). -/

namespace StageFusion

/-! ## Texts of values -/

namespace Value

mutual

/-- The integers that a value holds. -/
def integers : Value → List Int
  | int i => [i]
  | multiplicity (.exact n) => [(n : Int)]
  | list items => integersOfAll items
  | dict entries => integersOfEntries entries
  | pair a b => a.integers ++ b.integers
  | _ => []

def integersOfAll : List Value → List Int
  | [] => []
  | v :: rest => v.integers ++ integersOfAll rest

def integersOfEntries : List (String × Value) → List Int
  | [] => []
  | (_, v) :: rest => v.integers ++ integersOfEntries rest

end

end Value

/-- One of some integers has too long a numeral. -/
def HoldsOverlong (integers : List Int) : Prop :=
  ∃ i ∈ integers, numeralBound ≤ i.natAbs

theorem holdsOverlong_append {is js : List Int} :
    HoldsOverlong (is ++ js) ↔ HoldsOverlong is ∨ HoldsOverlong js := by
  simp only [HoldsOverlong, List.mem_append, or_and_right, exists_or]

namespace Value

mutual

/-- A value cannot be written just when it holds an integer with too long a numeral. -/
theorem failsIff_display (v : Value) :
    FailsIff v.display .numeralWritten (HoldsOverlong v.integers) := by
  match v with
  | null => exact (FailsIff.ok _ _).congr (by simp [integers, HoldsOverlong])
  | bool b => exact (FailsIff.ok _ _).congr (by simp [integers, HoldsOverlong])
  | float x => exact (FailsIff.ok _ _).congr (by simp [integers, HoldsOverlong])
  | str s => exact (FailsIff.ok _ _).congr (by simp [integers, HoldsOverlong])
  | int i =>
    rw [display, integers]
    exact (failsIff_writeNumeral_int i).congr (by simp [HoldsOverlong])
  | multiplicity .unbounded =>
    exact (FailsIff.ok _ _).congr (by simp [integers, HoldsOverlong])
  | multiplicity (.exact n) =>
    rw [display, displayMultiplicity, integers]
    exact ((failsIff_writeNumeral n).bind fun _ => FailsIff.ok _ _).congr
      (by simp [HoldsOverlong])
  | list items =>
    rw [display, integers]
    exact ((failsIff_displayAll items).bind fun _ => FailsIff.ok _ _).congr (by simp)
  | dict entries =>
    rw [display, integers]
    exact ((failsIff_displayEntries entries).bind fun _ => FailsIff.ok _ _).congr (by simp)
  | pair a b =>
    rw [display, integers, holdsOverlong_append]
    exact (a.failsIff_display.bind fun _ =>
      b.failsIff_display.bind fun _ => FailsIff.ok _ _).congr (by simp)

theorem failsIff_displayAll (items : List Value) :
    FailsIff (displayAll items) .numeralWritten (HoldsOverlong (integersOfAll items)) := by
  match items with
  | [] => exact (FailsIff.ok _ _).congr (by simp [integersOfAll, HoldsOverlong])
  | v :: rest =>
    rw [displayAll, integersOfAll, holdsOverlong_append]
    exact (v.failsIff_display.bind fun _ =>
      (failsIff_displayAll rest).bind fun _ => FailsIff.ok _ _).congr (by simp)

theorem failsIff_displayEntries (entries : List (String × Value)) :
    FailsIff (displayEntries entries) .numeralWritten
      (HoldsOverlong (integersOfEntries entries)) := by
  match entries with
  | [] => exact (FailsIff.ok _ _).congr (by simp [integersOfEntries, HoldsOverlong])
  | (key, v) :: rest =>
    rw [displayEntries, integersOfEntries, holdsOverlong_append]
    exact (v.failsIff_display.bind fun _ =>
      (failsIff_displayEntries rest).bind fun _ => FailsIff.ok _ _).congr (by simp)

end

end Value

/-! ## What a draft describes -/

section
variable {α : Type} {v : Value} {complaint : String → Fault}

/-- A complaint that shows a value is raised, or the value cannot be shown. -/
theorem complaint_eq_error_iff {e : Fault} :
    (v.display >>= fun shown => (throw (complaint shown) : Except Fault α)) = .error e ↔
      HoldsOverlong v.integers ∧ e = .numeralWritten ∨
        ∃ shown, v.display = .ok shown ∧ complaint shown = e := by
  refine bind_eq_error_iff.trans (or_congr (v.failsIff_display e) (exists_congr fun shown => ?_))
  show _ ∧ Except.error (complaint shown) = .error e ↔ _
  rw [Except.error.injEq]

theorem complaint_ne_ok {a : α} :
    (v.display >>= fun shown => (throw (complaint shown) : Except Fault α)) ≠ .ok a := by
  intro h
  obtain ⟨shown, _, h⟩ := bind_eq_ok_iff.mp h
  cases h

end

namespace Draft

/-- The draft gives this record, under a valid name. -/
def Describes (d : Draft) (m : Operator) : Prop :=
  d = ofOperator m ∧ IsOperatorName m.name

/-- The draft gives no record: it is none, or has no name, category or shape that can be used. -/
def Malformed (d : Draft) : Prop :=
  ∀ m, ¬ d.Describes m

/-- The draft gives a record under a name that an earlier one has given. -/
def Repeats (d : Draft) (earlier : List Draft) : Prop :=
  ∃ m, d.Describes m ∧ ∃ d' ∈ earlier, ∃ m', d'.Describes m' ∧ m'.name = m.name

/-- The first part of a draft that cannot be used, which a complaint about the draft has to show. -/
inductive Unusable : Draft → Value → Prop
  | name {v : Value} {category : Part Category} {shape : Part Shape}
    (invalid : ∀ name, v = .str name → ¬ IsOperatorName name) :
    Unusable (.record v category shape) v
  | category {name : String} {v : Value} {shape : Part Shape} (valid : IsOperatorName name) :
    Unusable (.record (.str name) (.other v) shape) v
  | shape {name : String} {c : Category} {v : Value} (valid : IsOperatorName name) :
    Unusable (.record (.str name) (.given c) (.other v)) v

/-- The complaint about a draft cannot be put in words: the part to be shown holds an integer with too
long a numeral. -/
def Unspeakable (d : Draft) : Prop :=
  ∃ v, d.Unusable v ∧ HoldsOverlong v.integers

theorem Describes.valid {d : Draft} {m : Operator} (h : d.Describes m) : IsOperatorName m.name :=
  h.2

theorem describes_ofOperator {m : Operator} (valid : IsOperatorName m.name) :
    (ofOperator m).Describes m :=
  ⟨rfl, valid⟩

theorem Describes.unique {d : Draft} {m m' : Operator} (h : d.Describes m) (h' : d.Describes m') :
    m = m' := by
  have heq : ofOperator m = ofOperator m' := h.1.symm.trans h'.1
  injection heq with hname hcategory hshape
  injection hname with hname
  injection hcategory with hcategory
  injection hshape with hshape
  cases m
  cases m'
  simp_all

theorem checkName_eq_ok_iff {v : Value} {name : { name : String // IsOperatorName name }} :
    checkName v = .ok name ↔ v = .str name.1 := by
  cases v with
  | str text =>
    by_cases h : IsOperatorName text
    · rw [checkName, dif_pos h, Except.ok.injEq, Subtype.ext_iff, Value.str.injEq]
    · rw [checkName, dif_neg h]
      constructor
      · intro hok
        cases hok
      · intro htext
        injection htext with htext
        exact absurd (htext ▸ name.2) h
  | _ =>
    constructor
    · intro hok
      unfold checkName at hok
      exact absurd hok complaint_ne_ok
    · intro htext
      cases htext

/-- The check of a draft returns the record that it describes. -/
theorem check_eq_ok_iff {d : Draft} {m : { m : Operator // IsOperatorName m.name }} :
    d.check = .ok m ↔ d.Describes m.1 := by
  constructor
  · intro h
    refine ⟨?_, m.2⟩
    cases d with
    | other v => cases h
    | record name category shape =>
      obtain ⟨name', hname, h⟩ := bind_eq_ok_iff.mp h
      rw [checkName_eq_ok_iff.mp hname]
      cases category with
      | other v => exact absurd h complaint_ne_ok
      | given c =>
        cases shape with
        | other v => exact absurd h complaint_ne_ok
        | given s =>
          rw [← Except.ok.inj h]
          rfl
  · rintro ⟨rfl, valid⟩
    have hname : checkName (.str m.1.name) = .ok ⟨m.1.name, valid⟩ := checkName_eq_ok_iff.mpr rfl
    refine bind_eq_ok_iff.mpr ⟨_, hname, ?_⟩
    rfl

theorem malformed_iff {d : Draft} : d.Malformed ↔ ∃ e, d.check = .error e := by
  unfold Malformed
  constructor
  · intro h
    cases hcheck : d.check with
    | error e => exact ⟨e, rfl⟩
    | ok m => exact absurd (check_eq_ok_iff.mp hcheck) (h m.1)
  · rintro ⟨e, he⟩ m hm
    rw [check_eq_ok_iff (m := ⟨m, hm.2⟩) |>.mpr hm] at he
    cases he

theorem not_malformed_iff {d : Draft} : ¬ d.Malformed ↔ ∃ m, d.Describes m := by
  simp [Malformed]

/-! ## Complaints -/

/-- A malformed draft is no record, or has an unusable part. -/
theorem exists_unusable {d : Draft} (h : d.Malformed) : (∃ v, d = .other v) ∨ ∃ v, d.Unusable v := by
  cases d with
  | other v => exact .inl ⟨v, rfl⟩
  | record name category shape =>
    right
    by_cases hname : ∃ text, name = .str text ∧ IsOperatorName text
    · obtain ⟨text, rfl, valid⟩ := hname
      cases category with
      | other v => exact ⟨v, .category valid⟩
      | given c =>
        cases shape with
        | other v => exact ⟨v, .shape valid⟩
        | given s => exact absurd ⟨rfl, valid⟩ (h ⟨text, c, s⟩)
    · exact ⟨name, .name fun text htext valid => hname ⟨text, htext, valid⟩⟩

/-- The check of a draft with an unusable part complains about the metadata, showing that part. -/
theorem check_of_unusable {d : Draft} {v : Value} (h : d.Unusable v) : ∃ complaint : String → Fault,
    (∀ shown, (complaint shown).label = "MetadataError") ∧
      d.check = v.display >>= fun shown => throw (complaint shown) := by
  cases h with
  | name invalid =>
    refine ⟨.recordName, fun _ => rfl, ?_⟩
    cases v with
    | str text =>
      rw [check, checkName, dif_neg (invalid text rfl)]
      rfl
    | _ =>
      simp only [check, checkName]
      exact bind_assoc _ _ _
  | @category name v shape valid =>
    have hname : checkName (.str name) = .ok ⟨name, valid⟩ := checkName_eq_ok_iff.mpr rfl
    refine ⟨.recordCategory name, fun _ => rfl, ?_⟩
    rw [check, hname]
    rfl
  | @shape name c v valid =>
    have hname : checkName (.str name) = .ok ⟨name, valid⟩ := checkName_eq_ok_iff.mpr rfl
    refine ⟨.recordShape name, fun _ => rfl, ?_⟩
    rw [check, hname]
    rfl

/-- A check fails with a complaint about the metadata, or because the complaint cannot be put in words. -/
theorem label_or_unspeakable {d : Draft} {e : Fault} (h : d.check = .error e) :
    e.label = "MetadataError" ∨ e = .numeralWritten ∧ d.Unspeakable := by
  rcases exists_unusable (malformed_iff.mpr ⟨e, h⟩) with ⟨v, rfl⟩ | ⟨v, hv⟩
  · rw [← Except.error.inj h]
    exact .inl rfl
  · obtain ⟨complaint, hlabel, hcheck⟩ := check_of_unusable hv
    rw [hcheck] at h
    rcases complaint_eq_error_iff.mp h with ⟨hlong, he⟩ | ⟨shown, -, rfl⟩
    · exact .inr ⟨he, v, hv, hlong⟩
    · exact .inl (hlabel shown)

/-- The check of a draft ends without a complaint just when the complaint cannot be put in words. -/
theorem unspeakable_iff {d : Draft} : d.check = .error .numeralWritten ↔ d.Unspeakable := by
  constructor
  · intro h
    rcases label_or_unspeakable h with hlabel | ⟨-, hd⟩
    · exact absurd hlabel (by decide)
    · exact hd
  · rintro ⟨v, hv, hlong⟩
    obtain ⟨complaint, -, hcheck⟩ := check_of_unusable hv
    rw [hcheck]
    exact complaint_eq_error_iff.mpr (.inl ⟨hlong, rfl⟩)

/-- The check of a draft complains about the metadata just when the draft is malformed and the complaint
can be put in words. -/
theorem complains_iff {d : Draft} :
    (∃ e, d.check = .error e ∧ e.label = "MetadataError") ↔ d.Malformed ∧ ¬ d.Unspeakable := by
  constructor
  · rintro ⟨e, he, hlabel⟩
    refine ⟨malformed_iff.mpr ⟨e, he⟩, fun hd => ?_⟩
    rw [unspeakable_iff.mpr hd] at he
    rw [← Except.error.inj he] at hlabel
    exact absurd hlabel (by decide)
  · rintro ⟨hmalformed, hd⟩
    obtain ⟨e, he⟩ := malformed_iff.mp hmalformed
    exact ⟨e, he, (label_or_unspeakable he).resolve_right fun h => hd h.2⟩

end Draft

end StageFusion
