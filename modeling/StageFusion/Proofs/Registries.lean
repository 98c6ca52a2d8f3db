import Mathlib.Data.List.Forall2
import Mathlib.Data.List.Nodup
import StageFusion.Proofs.Drafts

/-! Registries over their histories.

`ofDrafts` builds the registry whose records a list of drafts describes, in order
(`ofDrafts_eq_ok_iff`); it fails just when a draft is malformed or repeats an earlier name
(`ofDrafts_fails_iff`). `extend` accepts repeated names: what it returns is told by `Extends`, the last
record given for each name and the new names behind the old ones (`extend_eq_ok_iff`), and it fails
just when a draft is malformed (`extend_fails_iff`). Both stop at the first draft that cannot be used, and
both complain about the metadata there (`ofDrafts_complains_iff`, `extend_complains_iff`), unless the
complaint would have to show an integer with too long a numeral (`ofDrafts_unspeakable_iff`,
`extend_unspeakable_iff`).

A history is a sequence of calls, each extending one of the registries made so far. `registry_histories`
says that no call changes what was there, that everything in a history is the table of the dictionary
that the same calls fill (`Table.extend`, which checks all records again), and that each registry is
rebuilt by its own records. -/

namespace StageFusion

/-! ## Folds that may fail -/

/-- A fold fails where the first step fails that is reached. -/
theorem foldlM_eq_error_iff {ε σ α : Type} {f : σ → α → Except ε σ} {xs : List α} {s : σ} {e : ε} :
    xs.foldlM f s = .error e ↔ ∃ before x after reached, xs = before ++ x :: after ∧
      before.foldlM f s = .ok reached ∧ f reached x = .error e := by
  induction xs generalizing s with
  | nil => simp [Pure.pure, Except.pure]
  | cons x xs ih =>
    rw [List.foldlM_cons]
    refine bind_eq_error_iff.trans ?_
    constructor
    · rintro (h | ⟨next, hnext, h⟩)
      · exact ⟨[], x, xs, s, rfl, rfl, h⟩
      · obtain ⟨before, y, after, reached, rfl, hbefore, hy⟩ := ih.mp h
        refine ⟨x :: before, y, after, reached, rfl, ?_, hy⟩
        rw [List.foldlM_cons, hnext]
        exact hbefore
    · rintro ⟨before, y, after, reached, hxs, hbefore, hy⟩
      cases before with
      | nil =>
        obtain ⟨rfl, rfl⟩ := List.cons.inj hxs
        obtain rfl := Except.ok.inj hbefore
        exact .inl hy
      | cons z before =>
        obtain ⟨rfl, rfl⟩ := List.cons.inj hxs
        rw [List.foldlM_cons] at hbefore
        obtain ⟨next, hnext, hbefore⟩ := bind_eq_ok_iff.mp hbefore
        exact .inr ⟨next, hnext, ih.mpr ⟨before, y, after, reached, rfl, hbefore, hy⟩⟩

/-- A fold over images of the states goes through the images of the states of the fold. -/
theorem foldlM_map_state {ε σ τ α : Type} {f : σ → α → Except ε σ} {g : τ → α → Except ε τ}
    {image : σ → τ} (hstep : ∀ s x, g (image s) x = (f s x).map image) (xs : List α) (s : σ) :
    xs.foldlM g (image s) = (xs.foldlM f s).map image := by
  induction xs generalizing s with
  | nil => rfl
  | cons x xs ih =>
    rw [List.foldlM_cons, List.foldlM_cons, hstep]
    cases f s x with
    | error e => rfl
    | ok next => exact ih next

/-- What stands on the right of a relation between lists has something on the left. -/
theorem exists_left_of_forall₂ {α β : Type} {R : α → β → Prop} {xs : List α} {ys : List β}
    (h : List.Forall₂ R xs ys) {y : β} (hy : y ∈ ys) : ∃ x ∈ xs, R x y := by
  induction h with
  | nil => cases hy
  | cons hhead _ ih =>
    rcases List.mem_cons.mp hy with rfl | hy
    · exact ⟨_, List.mem_cons_self, hhead⟩
    · obtain ⟨x, hx, hR⟩ := ih hy
      exact ⟨x, List.mem_cons_of_mem _ hx, hR⟩

namespace Registry

variable {r s : Registry} {d : Draft} {drafts : List Draft} {e : Fault}

/-! ## Lookups -/

theorem eq_of_operators (h : r.operators = s.operators) : r = s := by
  cases r
  cases s
  cases h
  rfl

theorem get?_of_mem {m : Operator} (h : m ∈ r.operators) : r.get? m.name = some m := by
  cases hfound : r.get? m.name with
  | none => exact absurd (List.mem_map_of_mem h) (get?_eq_none_iff.mp hfound)
  | some other =>
    have hother : other ∈ r.operators := List.mem_of_find?_eq_some hfound
    rw [List.inj_on_of_nodup_map r.names_nodup hother h (name_of_get? hfound)]

/-- A registry is known by its names, in order, and by what it has under each name. -/
theorem eq_of_get? (hnames : r.names = s.names) (hget : ∀ name, r.get? name = s.get? name) :
    r = s := by
  have hrecords (r : Registry) : r.names.filterMap r.get? = r.operators := by
    rw [names, List.filterMap_map]
    calc r.operators.filterMap (r.get? ∘ fun m => m.name)
        = r.operators.filterMap some := List.filterMap_congr fun m hm => get?_of_mem hm
      _ = r.operators := List.filterMap_some
  apply eq_of_operators
  rw [← hrecords r, ← hrecords s, hnames, funext hget]

/-! ## Construction -/

/-- Adds the record of a draft, unless its name is taken. -/
def accept (r : Registry) (d : Draft) : Except Fault Registry := do
  let ⟨m, valid⟩ ← d.check
  if r.contains m.name then throw (.recordDuplicate m.name)
  else return r.put m valid

theorem ofDrafts_eq_foldlM (drafts : List Draft) : ofDrafts drafts = drafts.foldlM accept empty :=
  rfl

theorem notMem_names_of_append {m : Operator} {later : List Operator}
    (h : s.operators = r.operators ++ m :: later) : m.name ∉ r.names := by
  intro hm
  have hnodup := s.names_nodup
  rw [h, List.map_append, List.map_cons, List.nodup_append] at hnodup
  exact hnodup.2.2 _ hm _ List.mem_cons_self rfl

theorem accept_of_error (h : d.check = .error e) : r.accept d = .error e := by
  unfold accept
  rw [h]
  rfl

theorem accept_of_describes {m : Operator} (hm : d.Describes m) :
    r.accept d =
      if m.name ∈ r.names then .error (.recordDuplicate m.name) else .ok (r.put m hm.valid) := by
  have hcheck : d.check = .ok ⟨m, hm.valid⟩ := Draft.check_eq_ok_iff.mpr hm
  unfold accept
  rw [hcheck]
  show (if r.contains m.name = true then _ else _) = _
  simp only [contains_iff_mem]
  rfl

theorem accept_eq_ok_iff :
    r.accept d = .ok s ↔ ∃ m, d.Describes m ∧ s.operators = r.operators ++ [m] := by
  constructor
  · intro h
    cases hcheck : d.check with
    | error e =>
      rw [accept_of_error hcheck] at h
      cases h
    | ok m =>
      have hm := Draft.check_eq_ok_iff.mp hcheck
      rw [accept_of_describes hm] at h
      split at h
      · cases h
      · next hnew =>
        obtain rfl := Except.ok.inj h
        exact ⟨m, hm, operators_put_of_notMem hm.valid hnew⟩
  · rintro ⟨m, hm, hs⟩
    have hnew : m.name ∉ r.names := notMem_names_of_append hs
    have hput : r.put m hm.valid = s :=
      eq_of_operators ((operators_put_of_notMem hm.valid hnew).trans hs.symm)
    rw [accept_of_describes hm, if_neg hnew, hput]

theorem accept_eq_error_iff :
    r.accept d = .error e ↔ d.check = .error e ∨
      ∃ m, d.Describes m ∧ m.name ∈ r.names ∧ e = .recordDuplicate m.name := by
  constructor
  · intro h
    cases hcheck : d.check with
    | error e' =>
      rw [accept_of_error hcheck] at h
      rw [Except.error.inj h]
      exact .inl rfl
    | ok m =>
      have hm := Draft.check_eq_ok_iff.mp hcheck
      rw [accept_of_describes hm] at h
      split at h
      · next hmem => exact .inr ⟨m, hm, hmem, (Except.error.inj h).symm⟩
      · cases h
  · rintro (hcheck | ⟨m, hm, hmem, rfl⟩)
    · exact accept_of_error hcheck
    · rw [accept_of_describes hm, if_pos hmem]

theorem foldlM_accept_eq_ok_iff :
    drafts.foldlM accept r = .ok s ↔
      ∃ given, List.Forall₂ Draft.Describes drafts given ∧ s.operators = r.operators ++ given := by
  induction drafts generalizing r with
  | nil =>
    constructor
    · intro h
      obtain rfl := Except.ok.inj h
      exact ⟨[], .nil, (List.append_nil _).symm⟩
    · rintro ⟨given, hgiven, hs⟩
      rw [List.forall₂_nil_left_iff.mp hgiven, List.append_nil] at hs
      rw [eq_of_operators hs]
      rfl
  | cons d drafts ih =>
    rw [List.foldlM_cons]
    refine bind_eq_ok_iff.trans ?_
    constructor
    · rintro ⟨next, hnext, h⟩
      obtain ⟨m, hm, hoperators⟩ := accept_eq_ok_iff.mp hnext
      obtain ⟨given, hgiven, hs⟩ := ih.mp h
      refine ⟨m :: given, .cons hm hgiven, ?_⟩
      rw [hs, hoperators, List.append_assoc, List.singleton_append]
    · rintro ⟨given, hgiven, hs⟩
      obtain ⟨m, later, hm, hlater, rfl⟩ := List.forall₂_cons_left_iff.mp hgiven
      have hput := operators_put_of_notMem hm.valid (notMem_names_of_append hs)
      refine ⟨r.put m hm.valid, accept_eq_ok_iff.mpr ⟨m, hm, hput⟩, ih.mpr ⟨later, hlater, ?_⟩⟩
      rw [hput, hs, List.append_assoc, List.singleton_append]

/-- Drafts build the registry whose records they describe, in order. -/
theorem ofDrafts_eq_ok_iff :
    ofDrafts drafts = .ok r ↔ List.Forall₂ Draft.Describes drafts r.operators := by
  rw [ofDrafts_eq_foldlM, foldlM_accept_eq_ok_iff]
  constructor
  · rintro ⟨given, hgiven, hr⟩
    rw [hr]
    exact hgiven
  · intro h
    exact ⟨r.operators, h, rfl⟩

/-- The records of a registry build it again. -/
theorem ofDrafts_operators (r : Registry) :
    ofDrafts (r.operators.map Draft.ofOperator) = .ok r := by
  rw [ofDrafts_eq_ok_iff, List.forall₂_map_left_iff, List.forall₂_same]
  intro m hm
  exact Draft.describes_ofOperator (r.names_valid m hm)

/-- The construction fails at the first draft that cannot be used after those before it. -/
theorem ofDrafts_eq_error_iff :
    ofDrafts drafts = .error e ↔ ∃ earlier d later built, drafts = earlier ++ d :: later ∧
      ofDrafts earlier = .ok built ∧ (d.check = .error e ∨
        ∃ m, d.Describes m ∧ m.name ∈ built.names ∧ e = .recordDuplicate m.name) := by
  rw [ofDrafts_eq_foldlM, foldlM_eq_error_iff]
  simp only [accept_eq_error_iff]
  rfl

/-- The drafts that came before built the names that a draft can repeat. -/
theorem repeats_iff {earlier : List Draft} {built : Registry} (h : ofDrafts earlier = .ok built) :
    d.Repeats earlier ↔ ∃ m, d.Describes m ∧ m.name ∈ built.names := by
  have hgiven := ofDrafts_eq_ok_iff.mp h
  refine exists_congr fun m => and_congr_right fun _ => ?_
  constructor
  · rintro ⟨d', hd', m', hm', hname⟩
    obtain ⟨m'', hmem, hm''⟩ := exists_left_of_forall₂ hgiven.flip hd'
    rw [← hname, ← Draft.Describes.unique hm'' hm']
    exact List.mem_map_of_mem hmem
  · intro hmem
    obtain ⟨m', hm', hname⟩ := List.mem_map.mp hmem
    obtain ⟨d', hd', hdescribes⟩ := exists_left_of_forall₂ hgiven hm'
    exact ⟨d', hd', m', hdescribes, hname⟩

/-- The construction fails just when some draft is malformed or repeats an earlier name. -/
theorem ofDrafts_fails_iff :
    (∃ e, ofDrafts drafts = .error e) ↔ ∃ earlier d later, drafts = earlier ++ d :: later ∧
      (d.Malformed ∨ d.Repeats earlier) := by
  constructor
  · rintro ⟨e, he⟩
    obtain ⟨earlier, d, later, built, rfl, hbuilt, h⟩ := ofDrafts_eq_error_iff.mp he
    refine ⟨earlier, d, later, rfl, ?_⟩
    rcases h with hcheck | ⟨m, hm, hmem, _⟩
    · exact .inl (Draft.malformed_iff.mpr ⟨e, hcheck⟩)
    · exact .inr ((repeats_iff hbuilt).mpr ⟨m, hm, hmem⟩)
  · rintro ⟨earlier, d, later, rfl, h⟩
    cases hall : ofDrafts (earlier ++ d :: later) with
    | error e => exact ⟨e, rfl⟩
    | ok r =>
      -- the draft was accepted by what the earlier ones built, which neither fault allows
      exfalso
      rw [ofDrafts_eq_foldlM, List.foldlM_append] at hall
      obtain ⟨built, hbuilt, hall⟩ := bind_eq_ok_iff.mp hall
      rw [List.foldlM_cons] at hall
      obtain ⟨next, hnext, _⟩ := bind_eq_ok_iff.mp hall
      obtain ⟨m, hm, hoperators⟩ := accept_eq_ok_iff.mp hnext
      rcases h with hmalformed | hrepeats
      · exact hmalformed m hm
      · obtain ⟨m', hm', hmem⟩ := (repeats_iff hbuilt).mp hrepeats
        rw [hm'.unique hm] at hmem
        exact notMem_names_of_append hoperators hmem

/-- The construction complains about the metadata just when the first draft that cannot be used repeats a
name or is malformed in a way that can be put in words. -/
theorem ofDrafts_complains_iff :
    (∃ e, ofDrafts drafts = .error e ∧ e.label = "MetadataError") ↔
      ∃ earlier d later, drafts = earlier ++ d :: later ∧ (∃ built, ofDrafts earlier = .ok built) ∧
        (d.Malformed ∧ ¬ d.Unspeakable ∨ d.Repeats earlier) := by
  constructor
  · rintro ⟨e, he, hlabel⟩
    obtain ⟨earlier, d, later, built, hdrafts, hbuilt, hd⟩ := ofDrafts_eq_error_iff.mp he
    refine ⟨earlier, d, later, hdrafts, ⟨built, hbuilt⟩, ?_⟩
    rcases hd with hcheck | ⟨m, hm, hmem, _⟩
    · exact .inl (Draft.complains_iff.mp ⟨e, hcheck, hlabel⟩)
    · exact .inr ((repeats_iff hbuilt).mpr ⟨m, hm, hmem⟩)
  · rintro ⟨earlier, d, later, hdrafts, ⟨built, hbuilt⟩, hd | hd⟩
    · obtain ⟨e, hcheck, hlabel⟩ := Draft.complains_iff.mpr hd
      exact ⟨e, ofDrafts_eq_error_iff.mpr
        ⟨earlier, d, later, built, hdrafts, hbuilt, .inl hcheck⟩, hlabel⟩
    · obtain ⟨m, hm, hmem⟩ := (repeats_iff hbuilt).mp hd
      exact ⟨.recordDuplicate m.name, ofDrafts_eq_error_iff.mpr
        ⟨earlier, d, later, built, hdrafts, hbuilt, .inr ⟨m, hm, hmem, rfl⟩⟩, rfl⟩

/-- The construction ends with another fault just when the complaint about the first draft that cannot be
used cannot be put in words. -/
theorem ofDrafts_unspeakable_iff :
    ofDrafts drafts = .error .numeralWritten ↔
      ∃ earlier d later, drafts = earlier ++ d :: later ∧ (∃ built, ofDrafts earlier = .ok built) ∧
        d.Unspeakable := by
  rw [ofDrafts_eq_error_iff]
  constructor
  · rintro ⟨earlier, d, later, built, hdrafts, hbuilt, hcheck | ⟨m, _, _, he⟩⟩
    · exact ⟨earlier, d, later, hdrafts, ⟨built, hbuilt⟩, Draft.unspeakable_iff.mp hcheck⟩
    · cases he
  · rintro ⟨earlier, d, later, hdrafts, ⟨built, hbuilt⟩, hd⟩
    exact ⟨earlier, d, later, built, hdrafts, hbuilt, .inl (Draft.unspeakable_iff.mpr hd)⟩

theorem fault_of_ofDrafts (h : ofDrafts drafts = .error e) :
    e.label = "MetadataError" ∨ e = .numeralWritten := by
  obtain ⟨earlier, d, later, built, _, _, hcheck | ⟨m, _, _, rfl⟩⟩ := ofDrafts_eq_error_iff.mp h
  · exact (Draft.label_or_unspeakable hcheck).imp_right And.left
  · exact .inl rfl

/-! ## Extension -/

/-- Puts the record of a draft in, whatever has its name. -/
def place (r : Registry) (d : Draft) : Except Fault Registry := do
  let ⟨m, valid⟩ ← d.check
  return r.put m valid

theorem extend_eq_foldlM (r : Registry) (drafts : List Draft) :
    r.extend drafts = drafts.foldlM place r :=
  rfl

theorem place_eq_error_iff : r.place d = .error e ↔ d.check = .error e := by
  unfold place
  cases d.check with
  | error e' => simp [Bind.bind, Except.bind]
  | ok m => simp [Bind.bind, Except.bind, Pure.pure, Except.pure]

/-- An extension goes through just when every draft gives a record. -/
theorem exists_extend_iff : (∃ s, r.extend drafts = .ok s) ↔ ∀ d ∈ drafts, ¬ d.Malformed := by
  induction drafts generalizing r with
  | nil => exact iff_of_true ⟨r, rfl⟩ (by simp)
  | cons d drafts ih =>
    simp only [extend_cons_eq_ok_iff, List.forall_mem_cons]
    constructor
    · rintro ⟨s, m, hcheck, hs⟩
      have hm := Draft.check_eq_ok_iff.mp hcheck
      exact ⟨fun hmalformed => hmalformed m.1 hm, ih.mp ⟨s, hs⟩⟩
    · rintro ⟨hd, hdrafts⟩
      obtain ⟨m, hm⟩ := Draft.not_malformed_iff.mp hd
      obtain ⟨s, hs⟩ := (ih (r := r.put m hm.valid)).mpr hdrafts
      exact ⟨s, ⟨m, hm.valid⟩, Draft.check_eq_ok_iff.mpr hm, hs⟩

/-- An extension fails with the complaint about the first malformed draft. -/
theorem extend_eq_error_iff :
    r.extend drafts = .error e ↔ ∃ earlier d later, drafts = earlier ++ d :: later ∧
      (∀ d' ∈ earlier, ¬ d'.Malformed) ∧ d.check = .error e := by
  rw [extend_eq_foldlM, foldlM_eq_error_iff]
  simp only [place_eq_error_iff, ← exists_extend_iff (r := r)]
  constructor
  · rintro ⟨earlier, d, later, reached, hdrafts, hearlier, hd⟩
    exact ⟨earlier, d, later, hdrafts, ⟨reached, hearlier⟩, hd⟩
  · rintro ⟨earlier, d, later, hdrafts, ⟨reached, hearlier⟩, hd⟩
    exact ⟨earlier, d, later, reached, hdrafts, hearlier, hd⟩

/-- An extension fails just when some draft is malformed. -/
theorem extend_fails_iff : (∃ e, r.extend drafts = .error e) ↔ ∃ d ∈ drafts, d.Malformed := by
  have hok : (∃ s, r.extend drafts = .ok s) ↔ ∀ d ∈ drafts, ¬ d.Malformed := exists_extend_iff
  cases h : r.extend drafts with
  | error e =>
    refine iff_of_true ⟨e, rfl⟩ ?_
    by_contra hnone
    push Not at hnone
    obtain ⟨s, hs⟩ := hok.mpr hnone
    rw [hs] at h
    cases h
  | ok s =>
    refine iff_of_false (by simp) ?_
    rintro ⟨d, hd, hmalformed⟩
    exact hok.mp ⟨s, h⟩ d hd hmalformed

/-- An extension complains about the metadata just when the complaint about the first malformed draft can
be put in words. -/
theorem extend_complains_iff :
    (∃ e, r.extend drafts = .error e ∧ e.label = "MetadataError") ↔
      ∃ earlier d later, drafts = earlier ++ d :: later ∧ (∀ d' ∈ earlier, ¬ d'.Malformed) ∧
        d.Malformed ∧ ¬ d.Unspeakable := by
  constructor
  · rintro ⟨e, he, hlabel⟩
    obtain ⟨earlier, d, later, hdrafts, hearlier, hcheck⟩ := extend_eq_error_iff.mp he
    exact ⟨earlier, d, later, hdrafts, hearlier, Draft.complains_iff.mp ⟨e, hcheck, hlabel⟩⟩
  · rintro ⟨earlier, d, later, hdrafts, hearlier, hd⟩
    obtain ⟨e, hcheck, hlabel⟩ := Draft.complains_iff.mpr hd
    exact ⟨e, extend_eq_error_iff.mpr ⟨earlier, d, later, hdrafts, hearlier, hcheck⟩, hlabel⟩

/-- An extension ends with another fault just when the complaint about the first malformed draft cannot be
put in words. -/
theorem extend_unspeakable_iff :
    r.extend drafts = .error .numeralWritten ↔
      ∃ earlier d later, drafts = earlier ++ d :: later ∧ (∀ d' ∈ earlier, ¬ d'.Malformed) ∧
        d.Unspeakable := by
  simp only [extend_eq_error_iff, Draft.unspeakable_iff]

theorem fault_of_extend (h : r.extend drafts = .error e) :
    e.label = "MetadataError" ∨ e = .numeralWritten := by
  obtain ⟨earlier, d, later, _, _, hcheck⟩ := extend_eq_error_iff.mp h
  exact (Draft.label_or_unspeakable hcheck).imp_right And.left

theorem extend_append (r : Registry) (xs ys : List Draft) :
    r.extend (xs ++ ys) = r.extend xs >>= fun s => s.extend ys := by
  rw [extend_eq_foldlM, List.foldlM_append]
  rfl

/-- What a registry holds once records have been given to another: under each name the last record that
was given for it, or else what the other has, and the new names behind the old ones, in the order in
which they first appear. -/
structure Extends (r s : Registry) (given : List Operator) : Prop where
  names_eq : s.names = r.names ++ ((given.map (·.name)).filter (· ∉ r.names)).eraseDups
  get?_eq : ∀ name, s.get? name = (given.reverse.find? (·.name == name)).or (r.get? name)

theorem Extends.nil (r : Registry) : r.Extends r [] where
  names_eq := by simp
  get?_eq := by simp

theorem Extends.unique {s' : Registry} {given : List Operator} (h : r.Extends s given)
    (h' : r.Extends s' given) : s = s' :=
  eq_of_get? (h.names_eq.trans h'.names_eq.symm) fun name =>
    (h.get?_eq name).trans (h'.get?_eq name).symm

/-- A record that is put in first keeps its position, and gives way to a later one of its name. -/
theorem Extends.cons {m : Operator} {given : List Operator} (valid : IsOperatorName m.name)
    (h : (r.put m valid).Extends s given) : r.Extends s (m :: given) where
  names_eq := by
    rw [h.names_eq, names_put, List.map_cons]
    by_cases hmem : m.name ∈ r.names
    · rw [if_pos hmem, List.filter_cons_of_neg (by simpa using hmem)]
    · rw [if_neg hmem, List.filter_cons_of_pos (by simpa using hmem), List.eraseDups_cons,
        List.filter_filter, List.append_assoc, List.singleton_append]
      congr 3
      apply List.filter_congr
      intro name _
      by_cases hname : name = m.name
      · simp [hname]
      · simp [hname]
  get?_eq name := by
    rw [h.get?_eq, get?_put, List.reverse_cons, List.find?_append, List.find?_singleton,
      Option.or_assoc]
    congr 1
    by_cases hname : m.name = name
    · simp [hname]
    · simp [hname]

theorem exists_extends_of_extend (h : r.extend drafts = .ok s) :
    ∃ given, List.Forall₂ Draft.Describes drafts given ∧ r.Extends s given := by
  induction drafts generalizing r with
  | nil =>
    obtain rfl := Except.ok.inj h
    exact ⟨[], .nil, .nil r⟩
  | cons d drafts ih =>
    obtain ⟨m, hcheck, h⟩ := extend_cons_eq_ok_iff.mp h
    obtain ⟨given, hgiven, hs⟩ := ih h
    exact ⟨m.1 :: given, .cons (Draft.check_eq_ok_iff.mp hcheck) hgiven, hs.cons m.2⟩

/-- An extension returns the registry that holds what the drafts describe beside what was there. -/
theorem extend_eq_ok_iff :
    r.extend drafts = .ok s ↔
      ∃ given, List.Forall₂ Draft.Describes drafts given ∧ r.Extends s given := by
  constructor
  · exact exists_extends_of_extend
  · rintro ⟨given, hgiven, hs⟩
    have hsound : ∀ d ∈ drafts, ¬ d.Malformed := by
      intro d hd hmalformed
      obtain ⟨m, _, hm⟩ := exists_left_of_forall₂ hgiven.flip hd
      exact hmalformed m hm
    obtain ⟨s', hs'⟩ := (exists_extend_iff (r := r)).mpr hsound
    obtain ⟨given', hgiven', hextends⟩ := exists_extends_of_extend hs'
    have hunique : Relator.RightUnique Draft.Describes := fun _ _ _ => Draft.Describes.unique
    obtain rfl := hunique.forall₂ hgiven hgiven'
    rw [hs', hs.unique hextends]

/-- A name that is given again keeps its place. -/
example :
    ((empty.extend ((["map", "tap", "map", "log"] : List String).map fun name =>
      Draft.ofOperator ⟨name, .stateless, .unbounded⟩)).map names).toOption =
        some ["map", "tap", "log"] := by
  decide

/-! ## Dictionaries -/

theorem table_accept (r : Registry) (d : Draft) : r.table.accept d = (r.accept d).map table := by
  unfold Table.accept
  cases hcheck : d.check with
  | error e =>
    rw [accept_of_error hcheck]
    rfl
  | ok m =>
    rw [accept_of_describes (Draft.check_eq_ok_iff.mp hcheck), keys_table]
    show (if m.1.name ∈ r.names then _ else _) = _
    by_cases hmem : m.1.name ∈ r.names
    · rw [if_pos hmem, if_pos hmem]
      rfl
    · rw [if_neg hmem, if_neg hmem, Except.map, table_put]
      rfl

theorem table_place (r : Registry) (d : Draft) : r.table.place d = (r.place d).map table := by
  unfold Table.place place
  cases d.check with
  | error e => rfl
  | ok m =>
    show Except.ok (r.table.assign m.1) = .ok (r.put m.1 m.2).table
    rw [table_put]

/-- Filling a dictionary yields the table of the registry that the drafts build, or the same fault. -/
theorem table_ofDrafts (drafts : List Draft) :
    Table.ofDrafts drafts = (ofDrafts drafts).map table :=
  foldlM_map_state table_accept drafts empty

/-- Assigning drafts in a copy of the dictionary and checking all of it again yields the table of the
extension, or the same fault: the second check finds nothing. -/
theorem table_extend (r : Registry) (drafts : List Draft) :
    r.table.extend drafts = (r.extend drafts).map table := by
  have hmerge : r.table.merge drafts = (r.extend drafts).map table :=
    foldlM_map_state table_place drafts r
  unfold Table.extend
  rw [hmerge]
  cases r.extend drafts with
  | error e => rfl
  | ok s =>
    show Table.ofDrafts (s.table.map fun entry => Draft.ofOperator entry.2) = .ok s.table
    rw [table, List.map_map, table_ofDrafts]
    exact congrArg (Except.map table) (ofDrafts_operators s)

end Registry

/-! ## Histories -/

/-- A call that extends one of the registries made so far. -/
structure ExtendCall where
  index : Nat
  drafts : List Draft

section
variable {σ τ : Type}

/-- What has been made after a call: the extension behind the rest, or only the rest if it failed. -/
def ExtendCall.after (extend : σ → List Draft → Except Fault σ) (made : List σ) (c : ExtendCall) :
    List σ :=
  match made[c.index]? with
  | some s =>
    match extend s c.drafts with
    | .ok extended => made ++ [extended]
    | .error _ => made
  | none => made

/-- What has been made after a sequence of calls. -/
def afterCalls (extend : σ → List Draft → Except Fault σ) (made : List σ)
    (calls : List ExtendCall) : List σ :=
  calls.foldl (ExtendCall.after extend) made

theorem ExtendCall.prefix_after (extend : σ → List Draft → Except Fault σ) (made : List σ)
    (c : ExtendCall) : made <+: c.after extend made := by
  unfold ExtendCall.after
  split
  · split
    · exact List.prefix_append _ _
    · exact List.prefix_rfl
  · exact List.prefix_rfl

/-- Everything that was made before a sequence of calls stands unchanged after it. -/
theorem prefix_afterCalls (extend : σ → List Draft → Except Fault σ) (made : List σ)
    (calls : List ExtendCall) : made <+: afterCalls extend made calls := by
  induction calls generalizing made with
  | nil => exact List.prefix_rfl
  | cons c calls ih => exact (c.prefix_after extend made).trans (ih (c.after extend made))

variable {extend : σ → List Draft → Except Fault σ} {extend' : τ → List Draft → Except Fault τ}
  {image : σ → τ}

theorem ExtendCall.after_map
    (hextend : ∀ s drafts, extend' (image s) drafts = (extend s drafts).map image)
    (made : List σ) (c : ExtendCall) :
    c.after extend' (made.map image) = (c.after extend made).map image := by
  unfold ExtendCall.after
  rw [List.getElem?_map]
  cases made[c.index]? with
  | none => rfl
  | some s =>
    simp only [Option.map_some, hextend]
    cases extend s c.drafts with
    | error e => rfl
    | ok extended =>
      show made.map image ++ [image extended] = (made ++ [extended]).map image
      rw [List.map_append, List.map_singleton]

theorem afterCalls_map
    (hextend : ∀ s drafts, extend' (image s) drafts = (extend s drafts).map image)
    (made : List σ) (calls : List ExtendCall) :
    afterCalls extend' (made.map image) calls = (afterCalls extend made calls).map image := by
  induction calls generalizing made with
  | nil => rfl
  | cons c calls ih =>
    unfold afterCalls at ih ⊢
    rw [List.foldl_cons, List.foldl_cons, ExtendCall.after_map hextend, ih]

end

namespace Registry

/-- What holds of building a registry from a list of drafts. -/
structure ConstructionLaws (drafts : List Draft) : Prop where
  ok_iff : ∀ r, ofDrafts drafts = .ok r ↔ List.Forall₂ Draft.Describes drafts r.operators
  fails_iff : (∃ e, ofDrafts drafts = .error e) ↔ ∃ earlier d later, drafts = earlier ++ d :: later ∧
    (d.Malformed ∨ d.Repeats earlier)
  complains_iff : (∃ e, ofDrafts drafts = .error e ∧ e.label = "MetadataError") ↔
    ∃ earlier d later, drafts = earlier ++ d :: later ∧ (∃ built, ofDrafts earlier = .ok built) ∧
      (d.Malformed ∧ ¬ d.Unspeakable ∨ d.Repeats earlier)
  unspeakable_iff : ofDrafts drafts = .error .numeralWritten ↔
    ∃ earlier d later, drafts = earlier ++ d :: later ∧ (∃ built, ofDrafts earlier = .ok built) ∧
      d.Unspeakable
  fault : ∀ e, ofDrafts drafts = .error e → e.label = "MetadataError" ∨ e = .numeralWritten
  table_eq : Table.ofDrafts drafts = (ofDrafts drafts).map table

/-- What holds of extending a registry by lists of drafts. -/
structure ExtensionLaws (r : Registry) : Prop where
  ok_iff : ∀ drafts s, r.extend drafts = .ok s ↔
    ∃ given, List.Forall₂ Draft.Describes drafts given ∧ r.Extends s given
  fails_iff : ∀ drafts, (∃ e, r.extend drafts = .error e) ↔ ∃ d ∈ drafts, d.Malformed
  complains_iff : ∀ drafts, (∃ e, r.extend drafts = .error e ∧ e.label = "MetadataError") ↔
    ∃ earlier d later, drafts = earlier ++ d :: later ∧ (∀ d' ∈ earlier, ¬ d'.Malformed) ∧
      d.Malformed ∧ ¬ d.Unspeakable
  unspeakable_iff : ∀ drafts, r.extend drafts = .error .numeralWritten ↔
    ∃ earlier d later, drafts = earlier ++ d :: later ∧ (∀ d' ∈ earlier, ¬ d'.Malformed) ∧
      d.Unspeakable
  fault : ∀ drafts e, r.extend drafts = .error e → e.label = "MetadataError" ∨ e = .numeralWritten
  append : ∀ xs ys, r.extend (xs ++ ys) = r.extend xs >>= fun s => s.extend ys
  table_eq : ∀ drafts, r.table.extend drafts = (r.extend drafts).map table

theorem constructionLaws (drafts : List Draft) : ConstructionLaws drafts where
  ok_iff _ := ofDrafts_eq_ok_iff
  fails_iff := ofDrafts_fails_iff
  complains_iff := ofDrafts_complains_iff
  unspeakable_iff := ofDrafts_unspeakable_iff
  fault _ := fault_of_ofDrafts
  table_eq := table_ofDrafts drafts

theorem extensionLaws (r : Registry) : r.ExtensionLaws where
  ok_iff _ _ := extend_eq_ok_iff
  fails_iff _ := extend_fails_iff
  complains_iff _ := extend_complains_iff
  unspeakable_iff _ := extend_unspeakable_iff
  fault _ _ := fault_of_extend
  append := r.extend_append
  table_eq := r.table_extend

/-- **Registries obey their laws over every history.** Whatever registries there are at first, a sequence
of extensions leaves them and all that it makes unchanged. The registries after it are the tables of plain
dictionaries that are extended by the same calls; each is sound, is built again by its own records, in the
same order, and obeys the laws of extension. Construction obeys its laws on every list of drafts. -/
theorem registry_histories (made : List Registry) (calls : List ExtendCall) :
    made <+: afterCalls extend made calls ∧
    afterCalls Table.extend (made.map table) calls = (afterCalls extend made calls).map table ∧
    (∀ r ∈ afterCalls extend made calls,
      r.table.Sound ∧ ofDrafts (r.operators.map Draft.ofOperator) = .ok r ∧ r.ExtensionLaws) ∧
    ∀ drafts, ConstructionLaws drafts := by
  refine ⟨prefix_afterCalls extend made calls, afterCalls_map table_extend made calls, ?_,
    constructionLaws⟩
  intro r _
  exact ⟨r.sound_table, ofDrafts_operators r, r.extensionLaws⟩

/-- A record whose name is the least number of 4301 digits. -/
def numberedDraft : Draft :=
  .record (.int numeralBound) (.given .stateless) (.given (.constant 1))

/-- A number is no name, but a complaint would have to show it, so neither the construction nor an
extension complains about the metadata. -/
theorem numbered_draft_not_complained :
    numberedDraft.Malformed ∧ ofDrafts [numberedDraft] = .error .numeralWritten ∧
    builtin.extend [numberedDraft] = .error .numeralWritten ∧
    Fault.numeralWritten.label = "ValueError" := by
  have hunspeakable : numberedDraft.Unspeakable :=
    ⟨_, .name nofun, numeralBound, List.mem_singleton_self _, (Int.natAbs_natCast numeralBound).ge⟩
  refine ⟨Draft.malformed_iff.mpr ⟨_, Draft.unspeakable_iff.mpr hunspeakable⟩, ?_, ?_, rfl⟩
  · exact ofDrafts_unspeakable_iff.mpr ⟨[], _, [], rfl, ⟨empty, rfl⟩, hunspeakable⟩
  · exact extend_unspeakable_iff.mpr ⟨[], _, [], rfl, nofun, hunspeakable⟩

end Registry

end StageFusion
