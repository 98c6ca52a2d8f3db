import Mathlib.Data.List.Chain
import StageFusion.Proofs.Resolution
import StageFusion.Proofs.Sweeps
import StageFusion.Service.Answer

/-! The fixed point of the sweeps.

A sweep that does not shorten its chain has refused every neighbouring pair (`Swept.refused`). Over
a chain of refused pairs every sweep makes the same attempts, but for their steps and iteration
(`exists_sweptChain`). So the last sweep of a run is what a second run makes of its result. -/

namespace StageFusion

def Registry.Refuses (r : Registry) (up down : String) : Prop :=
  ∃ rule bound reason, r.verdict up down = .ok (.refused rule bound reason)

/-- The registry refuses every neighbouring pair of a chain. -/
def Registry.RefusesAll (r : Registry) (chain : List Link) : Prop :=
  chain.IsChain fun a b => r.Refuses a.name b.name

section

variable {r : Registry} {iteration : Nat} {segment : Link} {start position : Nat}
  {chain rest out : List Link} {p q : Progress}

/-! ## Sweeps that fuse nothing -/

theorem Swept.length_le (h : Swept r iteration segment start position rest p q out) :
    out.length ≤ rest.length + 1 := by
  induction h with
  | last => simp
  | joined allowed count tail ih =>
    rw [List.length_cons]
    omega
  | parted refused tail ih =>
    rw [List.length_cons, List.length_cons]
    omega

theorem Swept.refused (h : Swept r iteration segment start position rest p q out)
    (hlength : rest.length + 1 ≤ out.length) :
    out = segment :: rest ∧ r.RefusesAll (segment :: rest) := by
  induction h with
  | last segment => exact ⟨rfl, .singleton segment⟩
  | joined allowed count tail ih =>
    -- a fusion leaves too few links
    have hle := tail.length_le
    rw [List.length_cons] at hlength
    omega
  | parted refused tail ih =>
    rw [List.length_cons, List.length_cons] at hlength
    obtain ⟨rfl, hrest⟩ := ih (by omega)
    exact ⟨rfl, .cons_cons ⟨_, _, _, refused⟩ hrest⟩

theorem SweptChain.refused (h : SweptChain r iteration chain p q out)
    (hlength : chain.length ≤ out.length) : out = chain ∧ r.RefusesAll chain := by
  cases h with
  | empty => exact ⟨rfl, .nil⟩
  | cons swept => exact swept.refused hlength

/-! ## Attempts of such a sweep -/

/-- Attempts as a sweep makes them from a step of the run on. -/
def Attempt.placed (iteration : Nat) : Nat → List Attempt → List Attempt
  | _, [] => []
  | step, a :: rest => { a with step, iteration } :: placed iteration (step + 1) rest

namespace Attempt

@[simp]
theorem length_placed (iteration step : Nat) (attempts : List Attempt) :
    (placed iteration step attempts).length = attempts.length := by
  induction attempts generalizing step with
  | nil => rfl
  | cons a rest ih => simp [placed, ih]

theorem iteration_of_mem_placed {iteration step : Nat} {attempts : List Attempt} {a : Attempt}
    (h : a ∈ placed iteration step attempts) : a.iteration = iteration := by
  induction attempts generalizing step with
  | nil => simp [placed] at h
  | cons first rest ih =>
    rcases List.mem_cons.mp h with rfl | h
    · rfl
    · exact ih h

/-- Only the last placement counts. -/
theorem placed_placed (iteration iteration' step step' : Nat) (attempts : List Attempt) :
    placed iteration step (placed iteration' step' attempts) = placed iteration step attempts := by
  induction attempts generalizing step step' with
  | nil => rfl
  | cons a rest ih => simp [placed, ih]

end Attempt

/-- A record has been extended by attempts that fused nothing. -/
structure Progress.Idle (iteration : Nat) (attempts : List Attempt) (p q : Progress) : Prop where
  trace_eq : q.trace = p.trace ++ Attempt.placed iteration p.trace.length attempts
  fused_eq : q.stats.fused = p.stats.fused

theorem Progress.Idle.nil (iteration : Nat) (p : Progress) : Idle iteration [] p p :=
  ⟨by rw [Attempt.placed, List.append_nil], rfl⟩

/-- Every sweep over a chain of refused pairs leaves it as it is and makes the same attempts. -/
theorem Registry.RefusesAll.exists_swept :
    ∀ {segment : Link} (start position : Nat), r.RefusesAll (segment :: rest) →
    ∃ attempts : List Attempt, attempts.length = rest.length ∧ ∀ iteration p, ∃ q,
      Swept r iteration segment start position rest p q (segment :: rest) ∧
      Progress.Idle iteration attempts p q := by
  induction rest with
  | nil =>
    intro segment start position h
    exact ⟨[], rfl, fun iteration p => ⟨p, .last _ _ _ _, .nil iteration p⟩⟩
  | cons next rest ih =>
    intro segment start position h
    obtain ⟨⟨rule, bound, reason, hrefused⟩, hrest⟩ := List.isChain_cons_cons.mp h
    obtain ⟨attempts, hlength, hsweep⟩ := ih position (position + 1) hrest
    refine ⟨⟨0, 0, start, segment.name, next.name, false, segment.joinBound next, some reason⟩ ::
      attempts, by simp [hlength], fun iteration p => ?_⟩
    obtain ⟨q, hswept, hidle⟩ := hsweep iteration
      (p.note iteration start segment.name next.name
        (.refused (segment.joinBound next) reason)).countSkip
    refine ⟨q, .parted hrefused hswept, ?_, hidle.fused_eq⟩
    rw [hidle.trace_eq]
    simp [Progress.countSkip, Progress.note, Attempt.placed, Decision.stage?, Decision.bound,
      Decision.reason?]

theorem Registry.RefusesAll.exists_sweptChain (h : r.RefusesAll chain) :
    ∃ attempts : List Attempt, attempts.length + 1 = max 1 chain.length ∧ ∀ iteration p, ∃ q,
      SweptChain r iteration chain p q chain ∧ Progress.Idle iteration attempts p q := by
  cases chain with
  | nil =>
    exact ⟨[], rfl, fun iteration p => ⟨p, .empty p, .nil iteration p⟩⟩
  | cons first rest =>
    obtain ⟨attempts, hlength, hsweep⟩ := exists_swept 0 1 h
    refine ⟨attempts, by simp [hlength], fun iteration p => ?_⟩
    obtain ⟨q, hswept, hidle⟩ := hsweep iteration p
    exact ⟨q, .cons hswept, hidle⟩

theorem SweptChain.unique {out' : List Link} {q' : Progress}
    (h : SweptChain r iteration chain p q out)
    (h' : SweptChain r iteration chain p q' out') : q = q' ∧ out = out' := by
  have heq := (outcome_sweep_eq_ok_iff.mpr h).symm.trans (outcome_sweep_eq_ok_iff.mpr h')
  cases heq
  exact ⟨rfl, rfl⟩

/-! ## The last sweep of a run -/

/-- A counted fusion advances two counters and leaves the trace. -/
theorem Progress.exists_eq_of_countFusion {up down bound : Multiplicity}
    (h : p.countFusion up down bound = .ok q) : ∃ average reductions,
      q = ⟨⟨p.stats.attempts + 1, p.stats.fused + 1, p.stats.skipped, average, reductions⟩,
        p.trace⟩ := by
  obtain ⟨hrecorded, htrace⟩ := recorded_of_countFusion h
  obtain ⟨stats, trace⟩ := q
  obtain rfl : trace = p.trace := htrace
  cases hrecorded with
  | counted => exact ⟨_, _, rfl⟩
  | averaged => exact ⟨_, _, rfl⟩

theorem Progress.trace_of_countFusion {p q : Progress} {up down fused : Multiplicity}
    (h : p.countFusion up down fused = .ok q) : q.trace = p.trace :=
  (recorded_of_countFusion h).2

theorem Progress.iteration_le_note {p : Progress} {iteration : Nat}
    (hp : ∀ a ∈ p.trace, a.iteration ≤ iteration) (position : Nat) (up down : String)
    (d : Decision) : ∀ a ∈ (p.note iteration position up down d).trace, a.iteration ≤ iteration := by
  intro a ha
  rcases List.mem_append.mp ha with ha | ha
  · exact hp a ha
  · rw [List.mem_singleton.mp ha]

theorem Swept.iteration_le (h : Swept r iteration segment start position rest p q out) :
    (∀ a ∈ p.trace, a.iteration ≤ iteration) → ∀ a ∈ q.trace, a.iteration ≤ iteration := by
  induction h with
  | last => exact id
  | joined allowed count tail ih =>
    intro hp
    apply ih
    rw [Progress.trace_of_countFusion count]
    exact Progress.iteration_le_note hp _ _ _ _
  | parted refused tail ih =>
    intro hp
    apply ih
    exact Progress.iteration_le_note hp _ _ _ _

theorem SweptChain.iteration_le (h : SweptChain r iteration chain p q out)
    (hp : ∀ a ∈ p.trace, a.iteration ≤ iteration) : ∀ a ∈ q.trace, a.iteration ≤ iteration := by
  cases h with
  | empty => exact hp
  | cons swept => exact swept.iteration_le hp

/-- Every run ends with a sweep that neither shortens its chain to two or more links nor is followed
by another; the attempts before it are of earlier iterations. -/
theorem Settled.exists_last (h : Settled r iteration chain p q out) :
    (∀ a ∈ p.trace, a.iteration < iteration) →
    ∃ last before mid, SweptChain r last before mid q out ∧
      (before.length ≤ out.length ∨ out.length = 1) ∧ ∀ a ∈ mid.trace, a.iteration < last := by
  induction h with
  | @stop iteration chain out p q swept still =>
    intro hp
    exact ⟨iteration, chain, p, swept, by omega, hp⟩
  | again swept moved tail ih =>
    intro hp
    apply ih
    intro a ha
    have hle := swept.iteration_le (fun b hb => (hp b hb).le) a ha
    omega

/-- The links at which a run stops are refused pair by pair. -/
theorem SweptChain.refusesAll_of_stop (h : SweptChain r iteration chain p q out)
    (hstop : chain.length ≤ out.length ∨ out.length = 1) : r.RefusesAll out := by
  rcases hstop with hlength | hone
  · obtain ⟨rfl, hrefused⟩ := h.refused hlength
    exact hrefused
  · obtain ⟨l, rfl⟩ := List.length_eq_one_iff.mp hone
    exact .singleton l

theorem refusesAll_of_optimize {links : List Link} {result : OptimizedChain}
    (h : (r.optimize links).outcome = .ok result) : r.RefusesAll result.links := by
  obtain ⟨_, _, _, hlast, hstop, _⟩ :=
    (outcome_optimize_eq_ok_iff.mp h).1.exists_last (by simp)
  exact hlast.refusesAll_of_stop hstop

/-- A chain of refused pairs comes out of a run as it is. -/
theorem Registry.RefusesAll.exists_optimize (h : r.RefusesAll chain) :
    ∃ result, (r.optimize chain).outcome = .ok result ∧ result.links = chain := by
  obtain ⟨_, _, hsweep⟩ := h.exists_sweptChain
  obtain ⟨q, hswept, _⟩ := hsweep 0 {}
  exact ⟨⟨chain, q.trace, q.stats, r.unknownNames chain⟩,
    outcome_optimize_eq_ok_iff.mpr ⟨.stop hswept (by simp), rfl⟩, rfl⟩

/-- The attempts of a trace that belong to its last sweep. -/
def lastSweep (trace : List Attempt) : List Attempt :=
  trace.filter fun a => trace.getLast?.map (·.iteration) = some a.iteration

theorem lastSweep_append_placed {before attempts : List Attempt} {iteration step : Nat}
    (hbefore : ∀ a ∈ before, a.iteration < iteration) (hne : attempts ≠ []) :
    lastSweep (before ++ Attempt.placed iteration step attempts) =
      Attempt.placed iteration step attempts := by
  have hplaced : Attempt.placed iteration step attempts ≠ [] := by
    rw [← List.length_pos_iff, Attempt.length_placed]
    exact List.length_pos_iff.mpr hne
  have hlast : (before ++ Attempt.placed iteration step attempts).getLast?.map (·.iteration) =
      some iteration := by
    rw [List.getLast?_append_of_ne_nil _ hplaced, List.getLast?_eq_getLast_of_ne_nil hplaced,
      Option.map_some, Attempt.iteration_of_mem_placed (List.getLast_mem hplaced)]
  rw [lastSweep, hlast, List.filter_append, List.filter_eq_nil_iff.mpr, List.filter_eq_self.mpr,
    List.nil_append]
  · intro a ha
    simp [Attempt.iteration_of_mem_placed ha]
  · intro a ha
    have hlt := hbefore a ha
    simp only [Option.some.injEq, decide_eq_true_eq]
    omega

/-! ## Unknown names -/

/-- Only known names are fused, into known names. -/
theorem Swept.unknown_names (h : Swept r iteration segment start position rest p q out) :
    (out.map (·.name)).filter (fun n => (r.resolve n).isNone) =
      ((segment :: rest).map (·.name)).filter fun n => (r.resolve n).isNone := by
  induction h with
  | last => rfl
  | @joined segment next start position rest out p counted q rule announced allowed count tail ih =>
    obtain ⟨hsegment, hnext⟩ := Registry.isSome_resolve_of_allowed allowed
    have hjoined : (r.resolve (segment.join next).name).isSome :=
      (r.isSome_resolve_fusedName _ _).mpr ⟨hsegment, hnext⟩
    rw [ih]
    simp only [List.map_cons, List.filter_cons, Option.isNone_iff_eq_none,
      Option.isSome_iff_ne_none.mp hjoined, Option.isSome_iff_ne_none.mp hsegment,
      Option.isSome_iff_ne_none.mp hnext, if_false]
  | @parted segment next start position rest out p q rule announced reason refused tail ih =>
    simp only [List.map_cons, List.filter_cons] at ih ⊢
    rw [ih]

theorem SweptChain.unknownNames_eq (h : SweptChain r iteration chain p q out) :
    r.unknownNames out = r.unknownNames chain := by
  cases h with
  | empty => rfl
  | cons swept => rw [Registry.unknownNames, swept.unknown_names, Registry.unknownNames]

theorem Settled.unknownNames_eq (h : Settled r iteration chain p q out) :
    r.unknownNames out = r.unknownNames chain := by
  induction h with
  | stop swept still => exact swept.unknownNames_eq
  | again swept moved tail ih => rw [ih, swept.unknownNames_eq]

end

/-! ## Two runs -/

/-- **A run reaches a fixed point.** Every neighbouring pair of its result is refused, and a second
run leaves the result as it is, with the same bound and warnings and no fusion. It makes the
attempts of the last sweep of the first run, numbered from the start. -/
theorem optimize_idempotent {r : Registry} {links : List Link} {result : OptimizedChain}
    (h : (r.optimize links).outcome = .ok result) :
    result.names.IsChain r.Refuses ∧
    ∃ again, (r.optimize result.links).outcome = .ok again ∧
      again.links = result.links ∧ again.bound = result.bound ∧
      again.diagnostics = result.diagnostics ∧ again.stats.fused = 0 ∧
      (2 ≤ result.links.length →
        again.trace = Attempt.placed 0 0 (lastSweep result.trace)) := by
  obtain ⟨hsettled, hunknown⟩ := outcome_optimize_eq_ok_iff.mp h
  obtain ⟨last, before, mid, hlast, hstop, hearlier⟩ := hsettled.exists_last (by simp)
  have hrefused : r.RefusesAll result.links := hlast.refusesAll_of_stop hstop
  obtain ⟨attempts, hlength, hsweep⟩ := hrefused.exists_sweptChain
  obtain ⟨q, hswept, hidle⟩ := hsweep 0 {}
  refine ⟨(List.isChain_map _).mpr hrefused,
    ⟨result.links, q.trace, q.stats, r.unknownNames result.links⟩, ?_, rfl, rfl, ?_,
    hidle.fused_eq, ?_⟩
  · exact outcome_optimize_eq_ok_iff.mpr ⟨.stop hswept (by simp), rfl⟩
  · simp only [OptimizedChain.diagnostics, hunknown, hsettled.unknownNames_eq]
  · intro htwo
    -- the last sweep went over the result itself, so it made the attempts that the second run makes
    obtain ⟨rfl, -⟩ := hlast.refused (by omega)
    obtain ⟨q', hswept', hidle'⟩ := hsweep last mid
    obtain ⟨hq, -⟩ := hlast.unique hswept'
    have hne : attempts ≠ [] := by
      rintro rfl
      simp only [List.length_nil] at hlength
      omega
    have hresult : result.trace = q'.trace := by rw [← hq]
    rw [hresult, hidle'.trace_eq, lastSweep_append_placed hearlier hne, Attempt.placed_placed]
    exact hidle.trace_eq

/-- The second sweep over this chain still fuses; a second run only repeats the third sweep. -/
theorem throttleTime_map_scan_tap_settles : ∃ result again,
    (Registry.builtin.optimize
      (Service.placeholders .builtin ["throttleTime", "map", "scan", "tap"])).outcome = .ok result ∧
    result.names = ["throttleTime+map+scan", "tap"] ∧
    (Registry.builtin.optimize result.links).outcome = .ok again ∧
    again.links = result.links ∧
    again.trace.map (fun a => (a.step, a.iteration, a.upstream, a.downstream)) =
      [(0, 0, "throttleTime+map+scan", "tap")] := by
  obtain ⟨result, h, hseen⟩ := exists_ok_of_toOption_map
    (f := fun c : OptimizedChain => (c.names, Attempt.placed 0 0 (lastSweep c.trace) |>.map
      fun a => (a.step, a.iteration, a.upstream, a.downstream)))
    (x := (Registry.builtin.optimize
      (Service.placeholders .builtin ["throttleTime", "map", "scan", "tap"])).outcome)
    (b := (["throttleTime+map+scan", "tap"], [(0, 0, "throttleTime+map+scan", "tap")]))
    (by decide +kernel)
  obtain ⟨hnames, htrace⟩ := Prod.mk.injEq .. ▸ hseen
  obtain ⟨-, again, hagain, hlinks, -, -, -, hlast⟩ := optimize_idempotent h
  have htwo : 2 ≤ result.links.length := by
    have hlength := congrArg List.length hnames
    simp only [OptimizedChain.names, List.length_map] at hlength
    rw [hlength]
    decide
  refine ⟨result, again, h, hnames, hagain, hlinks, ?_⟩
  rw [hlast htwo]
  exact htrace

end StageFusion
