import StageFusion.Fusion.Chain
import StageFusion.Proofs.Resolution

/-! Successful runs of the optimizer, as derivations.

`Swept` is the graph of a sweep over the rest of a chain, one constructor for each thing that a
sweep can do: end, fuse the next link into the segment, or seal the segment. `Settled` is the graph
of the repeated sweeps. What holds of every run is proved by induction on these derivations, and
`outcome_optimize_eq_ok_iff` says that a run of the optimizer is exactly such a derivation.

A property of links that every allowed fusion keeps is handed down from the links of a chain to those
that a run leaves (`forall_mem_optimize`). -/

namespace StageFusion

theorem bind_eq_ok_iff {ε α β : Type} {x : Except ε α} {f : α → Except ε β} {b : β} :
    x.bind f = .ok b ↔ ∃ a, x = .ok a ∧ f a = .ok b := by
  cases x <;> simp [Except.bind]

theorem map_eq_ok_iff {ε α β : Type} {x : Except ε α} {f : α → β} {b : β} :
    x.map f = .ok b ↔ ∃ a, x = .ok a ∧ f a = b := by
  cases x <;> simp [Except.map]

theorem exists_ok_of_toOption_map {ε α β : Type} {x : Except ε α} {f : α → β} {b : β}
    (h : x.toOption.map f = some b) : ∃ a, x = .ok a ∧ f a = b := by
  cases x with
  | error e => simp [Except.toOption] at h
  | ok a => exact ⟨a, rfl, by simpa [Except.toOption] using h⟩

theorem Stage.bound_andThenAs (a b : Stage) (name : String) :
    (a.andThenAs b name).bound = a.fusedBound b :=
  Shape.bound_andThen a.shape b.shape

namespace Link

/-- Two neighbouring links as one, under both names. -/
def join (a b : Link) : Link :=
  ⟨a.stage.andThenAs b.stage (fusedName a.name b.name), fusedName a.name b.name⟩

def joinBound (a b : Link) : Multiplicity :=
  a.stage.fusedBound b.stage

theorem bound_join (a b : Link) : (a.join b).stage.bound = a.joinBound b :=
  Stage.bound_andThenAs a.stage b.stage _

/-- The decision about two neighbouring links that a verdict on their names leads to. -/
def decision (a b : Link) : Verdict → Decision
  | .allowed .. => .fused (a.joinBound b) (a.join b).stage
  | .refused _ _ reason => .refused (a.joinBound b) reason

end Link

theorem Registry.outcome_fuseStages (r : Registry) (a b : Link) :
    (r.fuseStages a.stage b.stage a.name b.name).outcome =
      (r.verdict a.name b.name).map (a.decision b) := by
  simp only [Registry.fuseStages, Logged.outcome_bind, Logged.outcome_liftM]
  cases r.verdict a.name b.name with
  | error e => rfl
  | ok v => cases v <;> rfl

/-- A decision fuses two stages just if the registry allows it, and then to their composition. -/
theorem Registry.outcome_fuseStages_eq_fused_iff {r : Registry} {a b fused : Stage}
    {nameA nameB : String} {bound : Multiplicity} :
    (r.fuseStages a b nameA nameB).outcome = .ok (.fused bound fused) ↔
      r.Allows nameA nameB ∧ bound = a.fusedBound b ∧
        fused = a.andThenAs b (fusedName nameA nameB) := by
  rw [r.outcome_fuseStages ⟨a, nameA⟩ ⟨b, nameB⟩]
  constructor
  · intro h
    obtain ⟨v, hv, hdecision⟩ := map_eq_ok_iff.mp h
    cases v with
    | allowed rule announced =>
      cases hdecision
      exact ⟨⟨rule, announced, hv⟩, rfl, rfl⟩
    | refused => cases hdecision
  · rintro ⟨⟨rule, announced, hv⟩, rfl, rfl⟩
    rw [hv]
    rfl

/-- `Swept r iteration segment start position rest p q out`: with `segment` accumulated from the
link at `start` and `rest` still to come, a sweep takes the record `p` to `q` and leaves `out`. -/
inductive Swept (r : Registry) (iteration : Nat) :
    Link → Nat → Nat → List Link → Progress → Progress → List Link → Prop
  | last (segment : Link) (start position : Nat) (p : Progress) :
    Swept r iteration segment start position [] p p [segment]
  | joined {segment next : Link} {start position : Nat} {rest out : List Link}
    {p counted q : Progress} {rule : Rule} {announced : Multiplicity}
    (allowed : r.verdict segment.name next.name = .ok (.allowed rule announced))
    (count : (p.note iteration start segment.name next.name
        (.fused (segment.joinBound next) (segment.join next).stage)).countFusion
      segment.stage.bound next.stage.bound (segment.joinBound next) = .ok counted)
    (tail : Swept r iteration (segment.join next) start (position + 1) rest counted q out) :
    Swept r iteration segment start position (next :: rest) p q out
  | parted {segment next : Link} {start position : Nat} {rest out : List Link} {p q : Progress}
    {rule : Rule} {announced : Multiplicity} {reason : String}
    (refused : r.verdict segment.name next.name = .ok (.refused rule announced reason))
    (tail : Swept r iteration next position (position + 1) rest
      (p.note iteration start segment.name next.name
        (.refused (segment.joinBound next) reason)).countSkip q out) :
    Swept r iteration segment start position (next :: rest) p q (segment :: out)

/-- A whole chain is swept: its first link is the first segment. -/
inductive SweptChain (r : Registry) (iteration : Nat) :
    List Link → Progress → Progress → List Link → Prop
  | empty (p : Progress) : SweptChain r iteration [] p p []
  | cons {first : Link} {rest out : List Link} {p q : Progress}
    (swept : Swept r iteration first 0 1 rest p q out) :
    SweptChain r iteration (first :: rest) p q out

/-- `Settled r iteration chain p q out`: sweeps from the given iteration on take the record `p` to
`q` and the chain to `out`, where they stop. -/
inductive Settled (r : Registry) : Nat → List Link → Progress → Progress → List Link → Prop
  | stop {iteration : Nat} {chain out : List Link} {p q : Progress}
    (swept : SweptChain r iteration chain p q out)
    (still : ¬(out.length < chain.length ∧ out.length ≠ 1)) :
    Settled r iteration chain p q out
  | again {iteration : Nat} {chain shorter out : List Link} {p mid q : Progress}
    (swept : SweptChain r iteration chain p mid shorter)
    (moved : shorter.length < chain.length ∧ shorter.length ≠ 1)
    (tail : Settled r (iteration + 1) shorter mid q out) :
    Settled r iteration chain p q out

/-! ## Runs and derivations -/

section

variable {r : Registry} {iteration : Nat} {segment next : Link} {start position : Nat}
  {rest : List Link} {p : Progress}

/-- An attempt without verdict ends a sweep. -/
theorem Registry.outcome_sweepFrom_of_error {e : Fault}
    (h : r.verdict segment.name next.name = .error e) :
    (r.sweepFrom iteration segment start position (next :: rest) p).outcome = .error e := by
  rw [sweepFrom, Logged.outcome_bind, outcome_fuseStages, h]
  rfl

/-- A sweep goes on with the joined link, if the fusion can be counted. -/
theorem Registry.outcome_sweepFrom_of_allowed {rule : Rule} {announced : Multiplicity}
    (h : r.verdict segment.name next.name = .ok (.allowed rule announced)) :
    (r.sweepFrom iteration segment start position (next :: rest) p).outcome =
      ((p.note iteration start segment.name next.name
          (.fused (segment.joinBound next) (segment.join next).stage)).countFusion
        segment.stage.bound next.stage.bound (segment.joinBound next)).bind fun counted =>
          (r.sweepFrom iteration (segment.join next) start (position + 1) rest counted).outcome := by
  rw [sweepFrom, Logged.outcome_bind, outcome_fuseStages, h]
  simp only [Except.map, Except.bind, Link.decision, Logged.outcome_bind, Logged.outcome_liftM]
  rfl

/-- A sweep seals the segment and goes on with the next link; the segment stands before what the rest of
the sweep leaves. -/
theorem Registry.outcome_sweepFrom_of_refused {rule : Rule} {announced : Multiplicity}
    {reason : String} (h : r.verdict segment.name next.name = .ok (.refused rule announced reason)) :
    (r.sweepFrom iteration segment start position (next :: rest) p).outcome =
      (r.sweepFrom iteration next position (position + 1) rest
        (p.note iteration start segment.name next.name
          (.refused (segment.joinBound next) reason)).countSkip).outcome.map
        fun left => (left.1, segment :: left.2) := by
  rw [sweepFrom, Logged.outcome_bind, outcome_fuseStages, h]
  simp only [Except.map, Except.bind, Link.decision, Logged.outcome_bind]
  rfl

end

theorem swept_of_sweepFrom {r : Registry} {iteration : Nat} {rest out : List Link} {q : Progress} :
    ∀ {segment : Link} {start position : Nat} {p : Progress},
    (r.sweepFrom iteration segment start position rest p).outcome = .ok (q, out) →
    Swept r iteration segment start position rest p q out := by
  induction rest generalizing out with
  | nil =>
    intro segment start position p h
    obtain ⟨rfl, rfl⟩ : p = q ∧ [segment] = out := by simpa [Registry.sweepFrom] using h
    exact .last segment start position p
  | cons next rest ih =>
    intro segment start position p h
    cases hv : r.verdict segment.name next.name with
    | error e =>
      rw [Registry.outcome_sweepFrom_of_error hv] at h
      cases h
    | ok v =>
      cases v with
      | allowed rule announced =>
        rw [Registry.outcome_sweepFrom_of_allowed hv, bind_eq_ok_iff] at h
        obtain ⟨counted, hc, h⟩ := h
        exact .joined hv hc (ih h)
      | refused rule announced reason =>
        rw [Registry.outcome_sweepFrom_of_refused hv, map_eq_ok_iff] at h
        obtain ⟨⟨q', out'⟩, ht, heq⟩ := h
        cases heq
        exact .parted hv (ih ht)

theorem sweepFrom_of_swept {r : Registry} {iteration : Nat} {segment : Link} {start position : Nat}
    {rest out : List Link} {p q : Progress}
    (h : Swept r iteration segment start position rest p q out) :
    (r.sweepFrom iteration segment start position rest p).outcome = .ok (q, out) := by
  induction h with
  | last => rfl
  | joined allowed count tail ih =>
    rw [Registry.outcome_sweepFrom_of_allowed allowed, bind_eq_ok_iff]
    exact ⟨_, count, ih⟩
  | parted refused tail ih =>
    rw [Registry.outcome_sweepFrom_of_refused refused, map_eq_ok_iff]
    exact ⟨_, ih, rfl⟩

theorem outcome_sweep_eq_ok_iff {r : Registry} {iteration : Nat} {chain out : List Link}
    {p q : Progress} :
    (r.sweep iteration chain p).outcome = .ok (q, out) ↔ SweptChain r iteration chain p q out := by
  cases chain with
  | nil =>
    constructor
    · intro h
      obtain ⟨rfl, rfl⟩ : p = q ∧ [] = out := by simpa [Registry.sweep] using h
      exact .empty p
    · rintro ⟨⟩
      rfl
  | cons first rest =>
    constructor
    · intro h
      exact .cons (swept_of_sweepFrom h)
    · rintro (_ | swept)
      exact sweepFrom_of_swept swept

section

variable {r : Registry} {iteration : Nat} {chain shorter : List Link} {p mid : Progress}

theorem Registry.settle_of_error {e : Fault} (hs : (r.sweep iteration chain p).outcome = .error e) :
    r.settle iteration chain p = ⟨(r.sweep iteration chain p).log, .error e⟩ := by
  rw [settle]
  split
  · next e' he =>
    rw [hs] at he
    cases he
    rfl
  · next he =>
    rw [hs] at he
    cases he

theorem Registry.settle_of_moved (hs : (r.sweep iteration chain p).outcome = .ok (mid, shorter))
    (moved : shorter.length < chain.length ∧ shorter.length ≠ 1) :
    r.settle iteration chain p =
      ⟨(r.sweep iteration chain p).log ++ (r.settle (iteration + 1) shorter mid).log,
        (r.settle (iteration + 1) shorter mid).outcome⟩ := by
  rw [settle]
  split
  · next he =>
    rw [hs] at he
    cases he
  · next mid' shorter' he =>
    rw [hs] at he
    cases he
    rw [dif_pos moved]

theorem Registry.settle_of_still (hs : (r.sweep iteration chain p).outcome = .ok (mid, shorter))
    (still : ¬(shorter.length < chain.length ∧ shorter.length ≠ 1)) :
    r.settle iteration chain p = r.sweep iteration chain p := by
  rw [settle]
  split
  · next he =>
    rw [hs] at he
    cases he
  · next mid' shorter' he =>
    rw [hs] at he
    cases he
    rw [dif_neg still]

end

theorem outcome_settle_eq_ok_iff {r : Registry} {iteration : Nat} {chain out : List Link}
    {p q : Progress} :
    (r.settle iteration chain p).outcome = .ok (q, out) ↔ Settled r iteration chain p q out := by
  constructor
  · intro h
    fun_induction Registry.settle r iteration chain p with
    | case1 iteration chain p swept e he => simp at h
    | case2 iteration chain p swept mid shorter hs moved settled ih =>
      exact .again (outcome_sweep_eq_ok_iff.mp hs) moved (ih h)
    | case3 iteration chain p swept mid shorter hs still =>
      rw [show swept.outcome = .ok (mid, shorter) from hs] at h
      cases h
      exact .stop (outcome_sweep_eq_ok_iff.mp hs) still
  · intro h
    induction h with
    | stop swept still =>
      have hs := outcome_sweep_eq_ok_iff.mpr swept
      rw [Registry.settle_of_still hs still, hs]
    | again swept moved tail ih =>
      rw [Registry.settle_of_moved (outcome_sweep_eq_ok_iff.mpr swept) moved, ih]

theorem Registry.outcome_optimize (r : Registry) (links : List Link) :
    (r.optimize links).outcome = (r.settle 0 links {}).outcome.map fun settled =>
      ⟨settled.2, settled.1.trace, settled.1.stats, r.unknownNames links⟩ := by
  simp only [Registry.optimize, Logged.outcome_bind, Logged.outcome_tellAll]
  cases (r.settle 0 links {}).outcome with
  | error e => rfl
  | ok settled =>
    by_cases h : 1 < links.length
    · simp only [Except.bind, if_pos h]
      rfl
    · simp only [Except.bind, if_neg h]
      rfl

/-- **A run returns exactly when its chain settles.** Its links, trace and statistics are those that
the sweeps leave. -/
theorem outcome_optimize_eq_ok_iff {r : Registry} {links : List Link} {result : OptimizedChain} :
    (r.optimize links).outcome = .ok result ↔
      Settled r 0 links {} ⟨result.stats, result.trace⟩ result.links ∧
        result.unknown = r.unknownNames links := by
  rw [Registry.outcome_optimize, map_eq_ok_iff]
  constructor
  · rintro ⟨settled, hs, rfl⟩
    exact ⟨outcome_settle_eq_ok_iff.mp hs, rfl⟩
  · rintro ⟨hs, hu⟩
    refine ⟨_, outcome_settle_eq_ok_iff.mpr hs, ?_⟩
    rw [← hu]

/-! ## What links inherit -/

section

variable {r : Registry} {P : Link → Prop} {iteration : Nat} {links chain out : List Link}
  {p q : Progress}

theorem Swept.forall_mem (hjoin : ∀ a b, r.Allows a.name b.name → P a → P b → P (a.join b))
    {segment : Link} {start position : Nat} {rest : List Link}
    (h : Swept r iteration segment start position rest p q out) :
    (∀ l ∈ segment :: rest, P l) → ∀ l ∈ out, P l := by
  induction h with
  | last => exact id
  | joined allowed count tail ih =>
    intro hchain
    obtain ⟨hsegment, hnext, hrest⟩ := by simpa only [List.forall_mem_cons] using hchain
    exact ih (List.forall_mem_cons.mpr ⟨hjoin _ _ ⟨_, _, allowed⟩ hsegment hnext, hrest⟩)
  | parted refused tail ih =>
    intro hchain
    obtain ⟨hsegment, hrest⟩ := List.forall_mem_cons.mp hchain
    exact List.forall_mem_cons.mpr ⟨hsegment, ih hrest⟩

theorem SweptChain.forall_mem (hjoin : ∀ a b, r.Allows a.name b.name → P a → P b → P (a.join b))
    (h : SweptChain r iteration chain p q out) (hchain : ∀ l ∈ chain, P l) : ∀ l ∈ out, P l := by
  cases h with
  | empty => exact hchain
  | cons swept => exact swept.forall_mem hjoin hchain

theorem Settled.forall_mem (hjoin : ∀ a b, r.Allows a.name b.name → P a → P b → P (a.join b))
    (h : Settled r iteration chain p q out) : (∀ l ∈ chain, P l) → ∀ l ∈ out, P l := by
  induction h with
  | stop swept still => exact swept.forall_mem hjoin
  | again swept moved tail ih => exact fun hchain => ih (swept.forall_mem hjoin hchain)

theorem forall_mem_optimize {result : OptimizedChain}
    (hjoin : ∀ a b, r.Allows a.name b.name → P a → P b → P (a.join b))
    (h : (r.optimize links).outcome = .ok result) (hlinks : ∀ l ∈ links, P l) :
    ∀ l ∈ result.links, P l :=
  (outcome_optimize_eq_ok_iff.mp h).1.forall_mem hjoin hlinks

end

/-! ## What the statistics keep -/

/-- A counted fusion has been recorded, and is not in the trace yet. -/
theorem Progress.recorded_of_countFusion {p q : Progress} {up down bound : Multiplicity}
    (h : p.countFusion up down bound = .ok q) :
    p.stats.Recorded up down bound (q.stats, none) ∧ q.trace = p.trace := by
  have hrecorded := p.stats.recorded_addFusion up down bound
  rw [countFusion] at h
  generalize p.stats.addFusion up down bound = recorded at hrecorded h
  obtain ⟨stats, _ | e⟩ := recorded
  · cases h
    exact ⟨hrecorded, rfl⟩
  · cases h

section

variable {r : Registry} {P : Stats → Prop} {iteration : Nat} {links chain out : List Link}
  {p q : Progress}

theorem Swept.keeps_stats (hskip : ∀ s, P s → P s.addSkip)
    (hfusion : ∀ s up down bound t, s.Recorded up down bound (t, none) → P s → P t)
    {segment : Link} {start position : Nat} {rest : List Link}
    (h : Swept r iteration segment start position rest p q out) : P p.stats → P q.stats := by
  induction h with
  | last => exact id
  | joined allowed count tail ih =>
    exact fun hp => ih (hfusion _ _ _ _ _ (Progress.recorded_of_countFusion count).1 hp)
  | parted refused tail ih => exact fun hp => ih (hskip _ hp)

theorem SweptChain.keeps_stats (hskip : ∀ s, P s → P s.addSkip)
    (hfusion : ∀ s up down bound t, s.Recorded up down bound (t, none) → P s → P t)
    (h : SweptChain r iteration chain p q out) : P p.stats → P q.stats := by
  cases h with
  | empty => exact id
  | cons swept => exact swept.keeps_stats hskip hfusion

theorem Settled.keeps_stats (hskip : ∀ s, P s → P s.addSkip)
    (hfusion : ∀ s up down bound t, s.Recorded up down bound (t, none) → P s → P t)
    (h : Settled r iteration chain p q out) : P p.stats → P q.stats := by
  induction h with
  | stop swept still => exact swept.keeps_stats hskip hfusion
  | again swept moved tail ih => exact fun hp => ih (swept.keeps_stats hskip hfusion hp)

/-- What holds of empty statistics and is kept by every recording holds at the end of a run. -/
theorem stats_of_optimize {result : OptimizedChain} (hskip : ∀ s, P s → P s.addSkip)
    (hfusion : ∀ s up down bound t, s.Recorded up down bound (t, none) → P s → P t)
    (h : (r.optimize links).outcome = .ok result) (hempty : P {}) : P result.stats :=
  (outcome_optimize_eq_ok_iff.mp h).1.keeps_stats hskip hfusion hempty

end

end StageFusion
