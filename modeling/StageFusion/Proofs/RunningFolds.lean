import StageFusion.Plan.Function
import StageFusion.Stage.Drive
import StageFusion.Stage.Reference

/-! Scans as running folds.

The state of a scan is its accumulator, and a null state means that the scan has not started. So an
accumulator that becomes null on the way makes the next step start from the initial value again
(`resuming`). The outputs are the left folds of the inputs so far just if no step can tell the two
apart (`RestartsUnseen`), which is so for every reduction of the plans
(`Reduction.restartsUnseen`). -/

namespace StageFusion

/-- A reducer that takes the initial value in the place of a null accumulator. -/
def resuming (initial : Value) (f : Value → Value → Value) (acc v : Value) : Value :=
  f (match acc with | .null => initial | acc => acc) v

theorem resuming_null (initial v : Value) (f : Value → Value → Value) :
    resuming initial f .null v = f initial v := rfl

theorem resuming_of_ne_null {initial acc v : Value} {f : Value → Value → Value} (h : acc ≠ .null) :
    resuming initial f acc v = f acc v := by
  cases acc with
  | null => exact absurd rfl h
  | _ => rfl

/-- Each output is the left fold of the inputs so far, and the state after it is the output. -/
structure FoldsAlong (f : Value → Value → Value) (start : Value) (inputs : List Value)
    (steps : List Step) : Prop where
  length_eq : steps.length = inputs.length
  output_eq : ∀ i (h : i < steps.length),
    steps[i].output = .ok ((inputs.take (i + 1)).foldl f start)
  state_eq : ∀ i (h : i < steps.length), steps[i].output = .ok steps[i].state

/-- Wherever a fold becomes null before its end, the next step gives the same from null as from the
start. -/
def RestartsUnseen (f : Value → Value → Value) (start : Value) (inputs : List Value) : Prop :=
  ∀ before v, before ++ [v] <+: inputs → before ≠ [] → before.foldl f start = .null →
    f .null v = f start v

variable {f : Value → Value → Value} {start v : Value} {inputs rest : List Value} {s : Step}
  {steps : List Step}

theorem foldsAlong_nil : FoldsAlong f start [] [] :=
  ⟨rfl, fun _ h => absurd h (Nat.not_lt_zero _), fun _ h => absurd h (Nat.not_lt_zero _)⟩

theorem foldsAlong_cons : FoldsAlong f start (v :: rest) (s :: steps) ↔
    (s.output = .ok s.state ∧ s.state = f start v) ∧ FoldsAlong f (f start v) rest steps := by
  constructor
  · rintro ⟨hlength, houtput, hstate⟩
    have hfirst : s.output = .ok (f start v) := houtput 0 (Nat.zero_lt_succ _)
    have hstateFirst : s.output = .ok s.state := hstate 0 (Nat.zero_lt_succ _)
    refine ⟨⟨hstateFirst, Except.ok.inj (hstateFirst.symm.trans hfirst)⟩,
      Nat.succ.inj hlength, ?_, ?_⟩
    · exact fun i h => houtput (i + 1) (Nat.succ_lt_succ h)
    · exact fun i h => hstate (i + 1) (Nat.succ_lt_succ h)
  · rintro ⟨⟨hstateFirst, hfirst⟩, hlength, houtput, hstate⟩
    refine ⟨congrArg Nat.succ hlength, ?_, ?_⟩
    · rintro (_ | i) h
      · exact hstateFirst.trans (congrArg Except.ok hfirst)
      · exact houtput i (Nat.lt_of_succ_lt_succ h)
    · rintro (_ | i) h
      · exact hstateFirst
      · exact hstate i (Nat.lt_of_succ_lt_succ h)

/-! ## Restarts -/

variable {initial acc : Value}

/-- Once a fold has started, restarting makes no difference just where null is met and the next step
cannot tell. -/
theorem foldsAlong_iff_of_started (h : FoldsAlong (resuming initial f) acc inputs steps) :
    FoldsAlong f acc inputs steps ↔ ∀ before v, before ++ [v] <+: inputs →
      before.foldl f acc = .null → f .null v = f initial v := by
  induction inputs generalizing acc steps with
  | nil =>
    obtain rfl : steps = [] := List.length_eq_zero_iff.mp h.length_eq
    exact iff_of_true foldsAlong_nil fun before v hread => absurd hread (by simp)
  | cons first rest ih =>
    obtain ⟨s, steps, rfl⟩ := List.exists_cons_of_length_eq_add_one h.length_eq
    obtain ⟨⟨hstate, hresumed⟩, htail⟩ := foldsAlong_cons.mp h
    rw [foldsAlong_cons]
    constructor
    · rintro ⟨⟨_, hplain⟩, hrest⟩ before v hread hnull
      have hsame : resuming initial f acc first = f acc first := hresumed.symm.trans hplain
      cases before with
      | nil =>
        obtain ⟨rfl, _⟩ := List.cons_prefix_cons.mp hread
        obtain rfl : acc = .null := hnull
        exact hsame.symm
      | cons x before =>
        obtain ⟨rfl, hreadRest⟩ := List.cons_prefix_cons.mp hread
        rw [hsame] at htail
        exact (ih htail).mp hrest before v hreadRest hnull
    · intro hunseen
      have hsame : resuming initial f acc first = f acc first := by
        by_cases hacc : acc = .null
        · subst hacc
          exact (hunseen [] first (List.cons_prefix_cons.mpr ⟨rfl, List.nil_prefix⟩) rfl).symm
        · exact resuming_of_ne_null hacc
      rw [hsame] at hresumed htail
      refine ⟨⟨hstate, hresumed⟩, (ih htail).mpr fun before v hread => ?_⟩
      exact hunseen (first :: before) v (List.cons_prefix_cons.mpr ⟨rfl, hread⟩)

/-- A fold that has not started takes its first step from the initial value in any case. -/
theorem foldsAlong_iff (h : FoldsAlong (resuming initial f) .null inputs steps) :
    FoldsAlong f initial inputs steps ↔ RestartsUnseen f initial inputs := by
  cases inputs with
  | nil =>
    obtain rfl : steps = [] := List.length_eq_zero_iff.mp h.length_eq
    exact iff_of_true foldsAlong_nil fun before v hread => absurd hread (by simp)
  | cons first rest =>
    obtain ⟨s, steps, rfl⟩ := List.exists_cons_of_length_eq_add_one h.length_eq
    obtain ⟨hfirst, htail⟩ := foldsAlong_cons.mp h
    rw [resuming_null] at hfirst htail
    rw [foldsAlong_cons, and_iff_right hfirst, foldsAlong_iff_of_started htail]
    constructor
    · intro hunseen before v hread hne
      cases before with
      | nil => exact absurd rfl hne
      | cons x before =>
        obtain ⟨rfl, hreadRest⟩ := List.cons_prefix_cons.mp hread
        exact hunseen before v hreadRest
    · intro hunseen before v hread
      exact hunseen (first :: before) v (List.cons_prefix_cons.mpr ⟨rfl, hread⟩)
        (List.cons_ne_nil _ _)

namespace Stage

variable {initial state : Value} {reduce : Value → Value → Logged Value Value}

/-- One step of a scan: the reduced accumulator is output and state alike. -/
theorem step_scan (hf : ∀ acc v, (reduce acc v).outcome = .ok (f acc v))
    (initial v state : Value) :
    ((scan initial reduce).step v state).output = .ok (resuming initial f state v) ∧
      ((scan initial reduce).step v state).state = resuming initial f state v := by
  have hrun : ((scan initial reduce).run v state).outcome =
      .ok (resuming initial f state v, resuming initial f state v) := by
    show (reduce _ v >>= fun acc => pure (acc, acc)).outcome = _
    rw [Logged.outcome_bind_of_ok (hf _ v)]
    rfl
  rw [step_of_ok hrun]
  exact ⟨rfl, rfl⟩

/-- A scan folds with the reducer that restarts, whatever it returns. -/
theorem foldsAlong_resuming (hf : ∀ acc v, (reduce acc v).outcome = .ok (f acc v))
    (state : Value) (inputs : List Value) :
    FoldsAlong (resuming initial f) state inputs ((scan initial reduce).drive state inputs) := by
  induction inputs generalizing state with
  | nil => exact foldsAlong_nil
  | cons v rest ih =>
    obtain ⟨houtput, hstate⟩ := step_scan hf initial v state
    rw [drive_cons, foldsAlong_cons]
    rw [hstate]
    exact ⟨⟨houtput, rfl⟩, ih _⟩

/-- **A scan is a running fold that restarts at null.** Driven from a fresh state, it gives for each
input the fold of the inputs so far, where a null accumulator is replaced by the initial value before
it is reduced, and its state is its output. These are the left folds of the inputs from the initial
value just if wherever such a fold is null before the last input, the next step gives the same from
null as from the initial value. -/
theorem scan_folds {f : Value → Value → Value} {reduce : Value → Value → Logged Value Value}
    (hf : ∀ acc v, (reduce acc v).outcome = .ok (f acc v)) (initial : Value) (inputs : List Value) :
    FoldsAlong (resuming initial f) .null inputs ((scan initial reduce).drive .null inputs) ∧
    (FoldsAlong f initial inputs ((scan initial reduce).drive .null inputs) ↔
      RestartsUnseen f initial inputs) :=
  ⟨foldsAlong_resuming hf .null inputs, foldsAlong_iff (foldsAlong_resuming hf .null inputs)⟩

/-- The sum of integers, but null at a zero. -/
def sumUntilZero (acc v : Value) : Value :=
  match acc, v with
  | _, .int 0 => .null
  | .int a, .int b => .int (a + b)
  | acc, _ => acc

/-- A null at the last input does not show. -/
theorem sumUntilZero_folds :
    (∀ acc v, (pure (sumUntilZero acc v) : Logged Value Value).outcome = .ok (sumUntilZero acc v)) ∧
    FoldsAlong sumUntilZero (.int 5) [.int 1, .int 0]
      ((scan (.int 5) fun acc v => pure (sumUntilZero acc v)).drive .null [.int 1, .int 0]) := by
  have hf : ∀ acc v, (pure (sumUntilZero acc v) : Logged Value Value).outcome =
      .ok (sumUntilZero acc v) := fun _ _ => rfl
  refine ⟨hf, (scan_folds hf (.int 5) [.int 1, .int 0]).2.mpr ?_⟩
  intro before v hread hne hnull
  -- only the first input stands before another one, and its fold is not null
  cases before with
  | nil => exact absurd rfl hne
  | cons first before =>
    obtain ⟨rfl, hread⟩ := List.cons_prefix_cons.mp hread
    cases before with
    | nil => cases hnull
    | cons second before =>
      obtain ⟨-, hend⟩ := List.cons_prefix_cons.mp hread
      exact absurd hend (by simp)

/-- After a null the scan goes on from the initial value, the fold from null. -/
theorem sumUntilZero_restarts :
    ¬ FoldsAlong sumUntilZero (.int 5) [.int 1, .int 0, .int 2]
      ((scan (.int 5) fun acc v => pure (sumUntilZero acc v)).drive .null
        [.int 1, .int 0, .int 2]) := by
  intro h
  have hthird : Except.ok (.int 7) = (Except.ok .null : Except Fault Value) :=
    h.output_eq 2 (by decide)
  cases hthird

end Stage

/-! ## The reductions of plans -/

theorem foldl_ne_null (h : ∀ acc v, f acc v ≠ .null) {before : List Value} (hne : before ≠ []) :
    before.foldl f start ≠ .null := by
  rw [← List.dropLast_concat_getLast hne, List.foldl_append]
  exact h _ _

theorem eq_null_of_foldl (h : ∀ acc v, f acc v = .null → acc = .null) {before : List Value} :
    before.foldl f start = .null → start = .null := by
  induction before generalizing start with
  | nil => exact id
  | cons v before ih => exact fun hnull => h start v (ih hnull)

/-- A sum or maximum is null only if the accumulator was. -/
theorem Reduction.eq_null_of_apply {r : Reduction} (hr : r = sum ∨ r = maximum) {acc v : Value}
    (h : r.apply acc v = .null) : acc = .null := by
  rcases hr with rfl | rfl
  all_goals
    cases acc with
    | null => rfl
    | int a => cases v <;> cases h
    | _ => cases h

/-- The accumulator after null is null only if it was before, or it is never null, or it is the last
value: no reduction of the plans can tell that a scan restarts. -/
theorem Reduction.restartsUnseen (r : Reduction) (start : Value) (inputs : List Value) :
    RestartsUnseen r.apply start inputs := by
  intro before v _ hne hnull
  have hkept (h : ∀ acc v, r.apply acc v = .null → acc = .null) :
      r.apply .null v = r.apply start v := by
    rw [eq_null_of_foldl h hnull]
  have hnever (h : ∀ acc v, r.apply acc v ≠ .null) : r.apply .null v = r.apply start v :=
    absurd hnull (foldl_ne_null h hne)
  cases r with
  | sum => exact hkept fun _ _ => eq_null_of_apply (.inl rfl)
  | maximum => exact hkept fun _ _ => eq_null_of_apply (.inr rfl)
  | count =>
    refine hnever fun acc v => ?_
    cases acc <;> simp [Reduction.apply]
  | last => rfl
  | append =>
    refine hnever fun acc v => ?_
    cases acc <;> simp [Reduction.apply]

/-- The scans of plans are running folds. -/
theorem Reduction.foldsAlong_scan (r : Reduction) (initial : Value) (inputs : List Value) :
    FoldsAlong r.apply initial inputs
      ((Stage.scan initial fun acc v => pure (r.apply acc v)).drive .null inputs) :=
  (foldsAlong_iff (Stage.foldsAlong_resuming (fun _ _ => rfl) .null inputs)).mpr
    (r.restartsUnseen initial inputs)

end StageFusion
