import Mathlib.Order.Bounds.Basic
import StageFusion.Proofs.Multiplicities
import StageFusion.Stage.Drive
import StageFusion.Stage.Limit
import StageFusion.Stage.Reference

/-! Limits under limits.

`Stage.limitAll` puts a list of limits on a stage, the first one innermost. Every limit computes the usage
of the stage anew, the outermost one first, so an input gets through just if its usage is below all
ceilings (`Stage.passes_iff`); otherwise the outermost ceiling below the usage refuses it
(`Stage.run_limitAll_of_outermost`). The recorded ceiling is computed apart from these checks, and is the
least of all (`Stage.isLeast_ceiling`). -/

namespace StageFusion

/-! ## Faults of an excess -/

/-- The numeral of the bound, if it is a number, is not too long. -/
def Multiplicity.Writable : Multiplicity → Prop
  | exact n => n < numeralBound
  | unbounded => True

instance : DecidablePred Multiplicity.Writable := fun m =>
  match m with
  | .exact n => inferInstanceAs (Decidable (n < numeralBound))
  | .unbounded => isTrue trivial

theorem Multiplicity.write_of_writable {m : Multiplicity} (h : m.Writable) :
    ∃ text, m.write = .ok text := by
  cases m with
  | exact n => exact ⟨_, write_of_lt h⟩
  | unbounded => exact ⟨_, rfl⟩

theorem Multiplicity.write_of_not_writable {m : Multiplicity} (h : ¬ m.Writable) :
    m.write = .error .numeralWritten := by
  cases m with
  | exact n =>
    show writeNumeral n = _
    unfold writeNumeral
    rw [Int.natAbs_natCast]
    exact if_neg h
  | unbounded => exact absurd trivial h

/-- An excess is worded with both bounds, and is a fault of its own only if both can be written. -/
theorem Fault.ofExcess_eq (operator : String) (computed ceiling : Multiplicity) :
    ofExcess operator computed ceiling =
      if computed.Writable ∧ ceiling.Writable then .usageExceeded operator computed ceiling
      else .numeralWritten := by
  unfold ofExcess
  by_cases hcomputed : computed.Writable
  · obtain ⟨text, htext⟩ := Multiplicity.write_of_writable hcomputed
    by_cases hceiling : ceiling.Writable
    · obtain ⟨text', htext'⟩ := Multiplicity.write_of_writable hceiling
      simp [hcomputed, hceiling, htext, htext']
    · simp [hcomputed, hceiling, htext, Multiplicity.write_of_not_writable hceiling]
  · simp [hcomputed, Multiplicity.write_of_not_writable hcomputed]

theorem Usage.ofComputed_natCast (n : Nat) : ofComputed (.int n) = .exact n := by
  simp [ofComputed]

namespace Stage

/-! ## One limit -/

section

variable {s : Stage} {v state : Value} {u c : Multiplicity} {e : Fault}

theorem run_limit_of_error (h : s.usage.count v = .error e) :
    (s.limit c).run v state = ⟨[], .error e⟩ := by
  show ((s.checkedUsage c v : Logged Value Multiplicity) >>= fun _ => s.run v state) = _
  have hcheck : s.checkedUsage c v = .error e := by
    unfold checkedUsage
    rw [h]
    rfl
  rw [hcheck]
  rfl

theorem run_limit_of_le (h : s.usage.count v = .ok u) (hle : u ≤ c) :
    (s.limit c).run v state = s.run v state := by
  show ((s.checkedUsage c v : Logged Value Multiplicity) >>= fun _ => s.run v state) = _
  have hcheck : s.checkedUsage c v = .ok u := by
    unfold checkedUsage
    rw [h]
    exact if_pos hle
  rw [hcheck]
  exact Logged.pure_bind_eq u fun _ => s.run v state

theorem run_limit_of_not_le (h : s.usage.count v = .ok u) (hle : ¬ u ≤ c) :
    (s.limit c).run v state = ⟨[], .error (Fault.ofExcess s.name u c)⟩ := by
  show ((s.checkedUsage c v : Logged Value Multiplicity) >>= fun _ => s.run v state) = _
  have hcheck : s.checkedUsage c v = .error (Fault.ofExcess s.name u c) := by
    unfold checkedUsage
    rw [h]
    exact if_neg hle
  rw [hcheck]
  rfl

end

/-! ## Limits one around the other -/

/-- A stage under a list of limits, the first one innermost. -/
def limitAll (s : Stage) (ceilings : List Multiplicity) : Stage :=
  ceilings.foldl limit s

@[simp]
theorem limitAll_nil (s : Stage) : s.limitAll [] = s := rfl

@[simp]
theorem limitAll_cons (s : Stage) (c : Multiplicity) (ceilings : List Multiplicity) :
    s.limitAll (c :: ceilings) = (s.limit c).limitAll ceilings := rfl

theorem limitAll_append (s : Stage) (inner outer : List Multiplicity) :
    s.limitAll (inner ++ outer) = (s.limitAll inner).limitAll outer :=
  List.foldl_append

theorem limitAll_keeps (s : Stage) (ceilings : List Multiplicity) :
    (s.limitAll ceilings).usage = s.usage ∧ (s.limitAll ceilings).category = s.category ∧
      (s.limitAll ceilings).name = s.name := by
  induction ceilings generalizing s with
  | nil => exact ⟨rfl, rfl, rfl⟩
  | cons c ceilings ih => exact ih (s.limit c)

theorem ceiling_limitAll (s : Stage) (ceilings : List Multiplicity) :
    (s.limitAll ceilings).ceiling = (s.ceiling.toList ++ ceilings).min? := by
  induction ceilings generalizing s with
  | nil => cases h : s.ceiling <;> simp [h]
  | cons c ceilings ih =>
    rw [limitAll_cons, ih]
    -- the first two ceilings become one, as they do in the fold
    unfold limit
    cases s.ceiling with
    | none => rfl
    | some inner => rfl

theorem isLeast_ceiling (s : Stage) {ceilings : List Multiplicity} (hne : ceilings ≠ []) :
    ∃ m, (s.limitAll ceilings).ceiling = some m ∧
      IsLeast {c | c ∈ s.ceiling ∨ c ∈ ceilings} m := by
  obtain ⟨m, hm⟩ := Option.isSome_iff_exists.mp
    (List.isSome_min?_of_ne_nil (List.append_ne_nil_of_right_ne_nil s.ceiling.toList hne))
  refine ⟨m, (s.ceiling_limitAll ceilings).trans hm, ?_⟩
  have hleast := List.min?_eq_some_iff.mp hm
  simpa [IsLeast, lowerBounds] using hleast

/-! ## What gets through -/

/-- The outermost of the ceilings that a usage is above. -/
def OutermostBelow (u : Multiplicity) (ceilings : List Multiplicity) (c : Multiplicity) : Prop :=
  ∃ inner outer, ceilings = inner ++ c :: outer ∧ ¬ u ≤ c ∧ ∀ c' ∈ outer, u ≤ c'

theorem exists_outermostBelow {u : Multiplicity} {ceilings : List Multiplicity}
    (h : ¬ ∀ c ∈ ceilings, u ≤ c) : ∃ c, OutermostBelow u ceilings c := by
  induction ceilings with
  | nil => exact absurd (List.forall_mem_nil _) h
  | cons c ceilings ih =>
    by_cases hrest : ∀ c' ∈ ceilings, u ≤ c'
    · have hc : ¬ u ≤ c := fun hc => h (List.forall_mem_cons.mpr ⟨hc, hrest⟩)
      exact ⟨c, [], ceilings, rfl, hc, hrest⟩
    · obtain ⟨c', inner, outer, rfl, hc', houter⟩ := ih hrest
      exact ⟨c', c :: inner, outer, rfl, hc', houter⟩

/-- It is the first such ceiling from the outside, so there is only one. -/
theorem outermostBelow_iff {u c : Multiplicity} {ceilings : List Multiplicity} :
    OutermostBelow u ceilings c ↔ ceilings.reverse.find? (fun c => ¬ u ≤ c) = some c := by
  rw [List.find?_eq_some_iff_append]
  constructor
  · rintro ⟨inner, outer, rfl, hc, houter⟩
    exact ⟨by simpa using hc, outer.reverse, inner.reverse, by simp, by simpa using houter⟩
  · rintro ⟨hc, outer, inner, hsplit, houter⟩
    refine ⟨inner.reverse, outer.reverse, ?_, by simpa using hc, by simpa using houter⟩
    rw [← ceilings.reverse_reverse, hsplit]
    simp

section

variable {s : Stage} {v state : Value} {u c : Multiplicity} {ceilings : List Multiplicity} {e : Fault}

theorem run_limitAll_of_error (hne : ceilings ≠ []) (h : s.usage.count v = .error e) :
    (s.limitAll ceilings).run v state = ⟨[], .error e⟩ := by
  obtain ⟨inner, c, rfl⟩ := (List.eq_nil_or_concat' ceilings).resolve_left hne
  rw [limitAll_append]
  exact run_limit_of_error ((congrArg (Usage.count · v) (s.limitAll_keeps inner).1).trans h)

theorem run_limitAll_of_le (h : s.usage.count v = .ok u) (hle : ∀ c ∈ ceilings, u ≤ c) :
    (s.limitAll ceilings).run v state = s.run v state := by
  induction ceilings generalizing s with
  | nil => rfl
  | cons c ceilings ih =>
    obtain ⟨hc, hrest⟩ := List.forall_mem_cons.mp hle
    exact (ih (s := s.limit c) h hrest).trans (run_limit_of_le h hc)

/-- The limits inside the outermost ceiling that is too low are not reached. -/
theorem run_limitAll_of_outermost (h : s.usage.count v = .ok u) (hc : OutermostBelow u ceilings c) :
    (s.limitAll ceilings).run v state = ⟨[], .error (Fault.ofExcess s.name u c)⟩ := by
  obtain ⟨inner, outer, rfl, hnot, houter⟩ := hc
  obtain ⟨husage, -, hname⟩ := s.limitAll_keeps inner
  have hinner : (s.limitAll inner).usage.count v = .ok u := by rw [husage, h]
  calc (s.limitAll (inner ++ c :: outer)).run v state
      = (((s.limitAll inner).limit c).limitAll outer).run v state := by
        rw [limitAll_append, limitAll_cons]
    _ = ((s.limitAll inner).limit c).run v state := run_limitAll_of_le hinner houter
    _ = ⟨[], .error (Fault.ofExcess s.name u c)⟩ := by
        rw [run_limit_of_not_le hinner hnot, hname]

/-- The limits let an input through: whatever the stage would run, it runs. -/
def Passes (s : Stage) (ceilings : List Multiplicity) (v : Value) : Prop :=
  ∀ run state, ({ s with run }.limitAll ceilings).run v state = run v state

theorem passes_iff (hne : ceilings ≠ []) :
    s.Passes ceilings v ↔ ∃ u, s.usage.count v = .ok u ∧ ∀ c ∈ ceilings, u ≤ c := by
  constructor
  · intro h
    -- a stage that does nothing but return tells a refusal from a run
    let returning : Stage := { s with run := fun _ state => pure (state, v) }
    have hreturns : (returning.limitAll ceilings).run v .null = pure (.null, v) := h _ .null
    cases hcount : s.usage.count v with
    | error e =>
      have hrefused : (returning.limitAll ceilings).run v .null = ⟨[], .error e⟩ :=
        run_limitAll_of_error hne hcount
      cases hrefused.symm.trans hreturns
    | ok u =>
      refine ⟨u, rfl, not_not.mp fun hnot => ?_⟩
      obtain ⟨c, hc⟩ := exists_outermostBelow hnot
      have hrefused : (returning.limitAll ceilings).run v .null = _ :=
        run_limitAll_of_outermost hcount hc
      cases hrefused.symm.trans hreturns
  · rintro ⟨u, hcount, hle⟩ run state
    exact run_limitAll_of_le hcount hle

theorem passes_perm {other : List Multiplicity} (hne : ceilings ≠ []) (h : ceilings.Perm other) :
    s.Passes ceilings v ↔ s.Passes other v := by
  rw [passes_iff hne, passes_iff fun hnil => hne (List.perm_nil.mp (hnil ▸ h))]
  simp only [h.mem_iff]

/-- The least ceiling alone lets the same inputs through. -/
theorem passes_least {m : Multiplicity} (h : IsLeast {c | c ∈ ceilings} m) :
    s.Passes ceilings v ↔ s.Passes [m] v := by
  rw [passes_iff (List.ne_nil_of_mem h.1), passes_iff (List.cons_ne_nil m [])]
  have hle : ∀ u, (∀ c ∈ ceilings, u ≤ c) ↔ ∀ c ∈ [m], u ≤ c := by
    intro u
    rw [List.forall_mem_singleton]
    exact ⟨fun hall => hall m h.1, fun hu c hc => hu.trans (h.2 hc)⟩
  simp only [hle]

/-- The limits refuse an input of usage `u` with a fault: whatever the stage would run, nothing comes of
it but the fault, and the state is left for the next call, which ends in the same way. -/
def RefusesWith (s : Stage) (ceilings : List Multiplicity) (v : Value) (u : Multiplicity)
    (fault : Fault) : Prop :=
  ∀ run state, ({ s with run }.limitAll ceilings).run v state = ⟨[], .error fault⟩ ∧
    ∀ n, ({ s with run }.limitAll ceilings).drive state (List.replicate n v) =
      List.replicate n ⟨.ok u, [], .error fault, state⟩

theorem drive_replicate_of_error {fault : Fault} (h : s.usage.count v = .ok u)
    (hrun : s.run v state = ⟨[], .error fault⟩) (n : Nat) :
    s.drive state (List.replicate n v) = List.replicate n ⟨.ok u, [], .error fault, state⟩ := by
  have hstep : s.step v state = ⟨.ok u, [], .error fault, state⟩ := by
    unfold step
    rw [hrun, h]
  induction n with
  | zero => rfl
  | succ n ih =>
    rw [List.replicate_succ, List.replicate_succ, drive]
    simp only [hstep, ih]

theorem refusesWith_of_outermost (h : s.usage.count v = .ok u) (hc : OutermostBelow u ceilings c) :
    s.RefusesWith ceilings v u (Fault.ofExcess s.name u c) := by
  intro run state
  have hrun : ({ s with run }.limitAll ceilings).run v state =
      ⟨[], .error (Fault.ofExcess s.name u c)⟩ :=
    run_limitAll_of_outermost (s := { s with run }) h hc
  have hcount : ({ s with run }.limitAll ceilings).usage.count v = .ok u := by
    rw [(limitAll_keeps { s with run } ceilings).1, h]
  exact ⟨hrun, drive_replicate_of_error hcount hrun⟩

end

/-- **Nested limits act as one limit.** They leave usage, category and name alone and record the least of
all ceilings, and that alone lets the same inputs through. A usage that fails is all that is seen of an
input. A usage below all ceilings runs the stage; any other is refused by the outermost ceiling that it is
above, whose fault names the usage and this ceiling, provided that both can be written. The order of the
ceilings changes neither what is recorded nor what gets through. -/
theorem limits_act_as_one (s : Stage) {ceilings : List Multiplicity} (hne : ceilings ≠ []) :
    (s.limitAll ceilings).usage = s.usage ∧ (s.limitAll ceilings).category = s.category ∧
    (s.limitAll ceilings).name = s.name ∧
    (∃ m, (s.limitAll ceilings).ceiling = some m ∧
      IsLeast {c | c ∈ s.ceiling ∨ c ∈ ceilings} m) ∧
    (∀ v e, s.usage.count v = .error e →
      ∀ state, (s.limitAll ceilings).run v state = ⟨[], .error e⟩) ∧
    (∀ v u, s.usage.count v = .ok u →
      ((∀ c ∈ ceilings, u ≤ c) →
        ∀ state, (s.limitAll ceilings).run v state = s.run v state) ∧
      ((¬ ∀ c ∈ ceilings, u ≤ c) → ∃ c, OutermostBelow u ceilings c ∧
        s.RefusesWith ceilings v u (if u.Writable ∧ c.Writable then .usageExceeded s.name u c
          else .numeralWritten))) ∧
    (∀ other, ceilings.Perm other → (s.limitAll ceilings).ceiling = (s.limitAll other).ceiling ∧
      ∀ v, s.Passes ceilings v ↔ s.Passes other v) ∧
    ∀ m, IsLeast {c | c ∈ ceilings} m → ∀ v, s.Passes ceilings v ↔ s.Passes [m] v := by
  obtain ⟨husage, hcategory, hname⟩ := s.limitAll_keeps ceilings
  refine ⟨husage, hcategory, hname, s.isLeast_ceiling hne, ?_, ?_, ?_, ?_⟩
  · exact fun v e h state => run_limitAll_of_error hne h
  · intro v u h
    refine ⟨fun hle state => run_limitAll_of_le h hle, fun hnot => ?_⟩
    obtain ⟨c, hc⟩ := exists_outermostBelow hnot
    refine ⟨c, hc, ?_⟩
    rw [← Fault.ofExcess_eq]
    exact refusesWith_of_outermost h hc
  · intro other hperm
    refine ⟨?_, fun v => passes_perm hne hperm⟩
    obtain ⟨m, hm, hleast⟩ := s.isLeast_ceiling hne
    have hother : other ≠ [] := fun hnil => hne (List.perm_nil.mp (hnil ▸ hperm))
    obtain ⟨m', hm', hleast'⟩ := s.isLeast_ceiling hother
    simp only [← hperm.mem_iff] at hleast'
    rw [hm, hm', hleast.unique hleast']
  · exact fun m hleast v => passes_least hleast

/-- Three values are taken, under limits of two, five, one and four: the limit of four lets the usage
through, and that of one refuses it. -/
theorem take_under_four_limits :
    let ceilings : List Multiplicity := [.exact 2, .exact 5, .exact 1, .exact 4]
    ceilings ≠ [] ∧ ((take 3).limitAll ceilings).ceiling = some (.exact 1) ∧
    (take 3).RefusesWith ceilings .null (.exact 3)
      (.usageExceeded "take" (.exact 3) (.exact 1)) ∧
    ((take 3).limitAll [.exact 5, .exact 4]).run (.int 7) .null = ⟨[], .ok (.int 1, .int 7)⟩ := by
  intro ceilings
  have hne : ceilings ≠ [] := List.cons_ne_nil _ _
  obtain ⟨-, -, -, -, -, hrun, -, -⟩ := limits_act_as_one (take 3) hne
  obtain ⟨-, hrefused⟩ := hrun .null (.exact 3) rfl
  obtain ⟨c, hc, hrefused⟩ := hrefused (by decide)
  obtain rfl : .exact 1 = c := Option.some.inj
    ((show ceilings.reverse.find? (fun c => ¬ Multiplicity.exact 3 ≤ c) = some (.exact 1) by
      decide).symm.trans (outermostBelow_iff.mp hc))
  rw [if_pos (by decide +kernel)] at hrefused
  obtain ⟨-, -, -, -, -, hrun, -, -⟩ :=
    limits_act_as_one (take 3) (List.cons_ne_nil (Multiplicity.exact 5) [.exact 4])
  exact ⟨hne, rfl, hrefused, ((hrun (.int 7) (.exact 3) rfl).1 (by decide) .null).trans rfl⟩

/-- A stage whose usage for every input has a numeral that is too long. -/
def flood : Stage :=
  stateless pure (.dependent fun _ => .ok (.int numeralBound)) "map"

/-- Under a limit of one it is refused, but the fault is not the one of an exceeded limit: there is no
wording for it. -/
theorem flood_refused_unworded :
    flood.usage.count .null = .ok (.exact numeralBound) ∧
    ¬ Multiplicity.exact numeralBound ≤ .exact 1 ∧
    (flood.limitAll [.exact 1]).run .null .null = ⟨[], .error .numeralWritten⟩ ∧
    Fault.numeralWritten.label = "ValueError" ∧
    ∀ operator computed ceiling, Fault.numeralWritten ≠ .usageExceeded operator computed ceiling := by
  have hcount : flood.usage.count .null = .ok (.exact numeralBound) :=
    congrArg Except.ok (Usage.ofComputed_natCast numeralBound)
  have habove : ¬ Multiplicity.exact numeralBound ≤ .exact 1 := by
    rw [Multiplicity.exact_le_exact, not_le]
    decide +kernel
  have hlong : ¬ (Multiplicity.exact numeralBound).Writable := Nat.lt_irrefl numeralBound
  refine ⟨hcount, habove, ?_, rfl, fun _ _ _ h => by cases h⟩
  rw [limitAll_cons, limitAll_nil, run_limit_of_not_le hcount habove, Fault.ofExcess_eq,
    if_neg fun h => hlong h.1]

end Stage

end StageFusion
