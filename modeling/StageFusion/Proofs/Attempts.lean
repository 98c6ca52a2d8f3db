import StageFusion.Proofs.FixedPoint
import StageFusion.Proofs.Magnitudes

/-! The attempts that a run makes.

`RunTries r a b 0 links {}` says that a run over `links` comes to try to fuse the link `a` with the link
`b`. The entries of the trace are the reports of these attempts (`exists_tries_of_mem_trace`,
`exists_reports_of_tries`), and the reductions in the statistics are those of the attempts that fused
(`mem_reductions_iff`). What joining keeps holds of the two links of every attempt, if it holds of all
links (`RunTries.forall_mem`). -/

namespace StageFusion

/-- A sweep that has accumulated `segment` and has `rest` to come tries to fuse `a` with `b`. -/
inductive SweepTries (r : Registry) (a b : Link) : Link → List Link → Prop
  | here (rest : List Link) : SweepTries r a b a (b :: rest)
  | joined {segment next : Link} {rest : List Link} (allowed : r.Allows segment.name next.name)
    (tail : SweepTries r a b (segment.join next) rest) : SweepTries r a b segment (next :: rest)
  | parted {segment next : Link} {rest : List Link} (refused : r.Refuses segment.name next.name)
    (tail : SweepTries r a b next rest) : SweepTries r a b segment (next :: rest)

/-- A sweep over a chain tries to fuse `a` with `b`. -/
inductive ChainTries (r : Registry) (a b : Link) : List Link → Prop
  | cons {first : Link} {rest : List Link} (tries : SweepTries r a b first rest) :
    ChainTries r a b (first :: rest)

/-- Sweeps over a chain, from an iteration on and with a record so far, try to fuse `a` with `b`. -/
inductive RunTries (r : Registry) (a b : Link) : Nat → List Link → Progress → Prop
  | here {iteration : Nat} {chain : List Link} {p : Progress} (tries : ChainTries r a b chain) :
    RunTries r a b iteration chain p
  | later {iteration : Nat} {chain shorter : List Link} {p mid : Progress}
    (swept : SweptChain r iteration chain p mid shorter)
    (moved : shorter.length < chain.length ∧ shorter.length ≠ 1)
    (tail : RunTries r a b (iteration + 1) shorter mid) : RunTries r a b iteration chain p

/-- An attempt of a trace is the report of the attempt at two links. -/
structure Attempt.Reports (r : Registry) (a b : Link) (t : Attempt) : Prop where
  upstream_eq : t.upstream = a.name
  downstream_eq : t.downstream = b.name
  bound_eq : t.bound = a.joinBound b
  decided : ∃ v, r.verdict a.name b.name = .ok v ∧ t.fused = v.isAllowed ∧ t.reason = v.reason?

theorem Registry.Allows.not_refuses {r : Registry} {up down : String} (h : r.Allows up down) :
    ¬ r.Refuses up down := by
  rintro ⟨rule, bound, reason, hrefused⟩
  obtain ⟨rule', bound', hallowed⟩ := h
  rw [hrefused] at hallowed
  cases hallowed

section

variable {r : Registry} {a b segment next : Link} {iteration start position : Nat}
  {chain rest out : List Link} {p q : Progress}

/-! ## The attempts of a sweep -/

theorem sweepTries_iff_of_allowed (h : r.Allows segment.name next.name) :
    SweepTries r a b segment (next :: rest) ↔
      (a = segment ∧ b = next) ∨ SweepTries r a b (segment.join next) rest := by
  constructor
  · intro htries
    cases htries with
    | here => exact .inl ⟨rfl, rfl⟩
    | joined _ tail => exact .inr tail
    | parted refused _ => exact absurd refused h.not_refuses
  · rintro (⟨rfl, rfl⟩ | tail)
    · exact .here rest
    · exact .joined h tail

theorem sweepTries_iff_of_refused (h : r.Refuses segment.name next.name) :
    SweepTries r a b segment (next :: rest) ↔
      (a = segment ∧ b = next) ∨ SweepTries r a b next rest := by
  constructor
  · intro htries
    cases htries with
    | here => exact .inl ⟨rfl, rfl⟩
    | joined allowed _ => exact absurd h allowed.not_refuses
    | parted _ tail => exact .inr tail
  · rintro (⟨rfl, rfl⟩ | tail)
    · exact .here rest
    · exact .parted h tail

/-- The two links of an attempt have what all links of the chain have and joining keeps. -/
theorem SweepTries.forall_mem {P : Link → Prop}
    (hjoin : ∀ a b, r.Allows a.name b.name → P a → P b → P (a.join b))
    (h : SweepTries r a b segment rest) : (∀ l ∈ segment :: rest, P l) → P a ∧ P b := by
  induction h with
  | here rest =>
    intro hchain
    obtain ⟨ha, hb, -⟩ := by simpa only [List.forall_mem_cons] using hchain
    exact ⟨ha, hb⟩
  | joined allowed tail ih =>
    intro hchain
    obtain ⟨hsegment, hnext, hrest⟩ := by simpa only [List.forall_mem_cons] using hchain
    exact ih (List.forall_mem_cons.mpr ⟨hjoin _ _ allowed hsegment hnext, hrest⟩)
  | parted refused tail ih =>
    intro hchain
    exact ih (List.forall_mem_cons.mp hchain).2

theorem RunTries.forall_mem {P : Link → Prop}
    (hjoin : ∀ a b, r.Allows a.name b.name → P a → P b → P (a.join b))
    (h : RunTries r a b iteration chain p) : (∀ l ∈ chain, P l) → P a ∧ P b := by
  induction h with
  | here tries =>
    cases tries with
    | cons tries => exact tries.forall_mem hjoin
  | later swept moved tail ih => exact fun hchain => ih (swept.forall_mem hjoin hchain)

/-! ## The attempts of a run -/

theorem runTries_iff_of_still (swept : SweptChain r iteration chain p q out)
    (still : ¬(out.length < chain.length ∧ out.length ≠ 1)) :
    RunTries r a b iteration chain p ↔ ChainTries r a b chain := by
  constructor
  · intro htries
    cases htries with
    | here tries => exact tries
    | later swept' moved _ =>
      obtain ⟨-, rfl⟩ := swept.unique swept'
      exact absurd moved still
  · exact .here

theorem runTries_iff_of_moved (swept : SweptChain r iteration chain p q out)
    (moved : out.length < chain.length ∧ out.length ≠ 1) :
    RunTries r a b iteration chain p ↔
      ChainTries r a b chain ∨ RunTries r a b (iteration + 1) out q := by
  constructor
  · intro htries
    cases htries with
    | here tries => exact .inl tries
    | later swept' _ tail =>
      obtain ⟨rfl, rfl⟩ := swept.unique swept'
      exact .inr tail
  · rintro (tries | tail)
    · exact .here tries
    · exact .later swept moved tail

/-! ## The trace -/

/-- What a sweep notes about two links is a report of the attempt. -/
theorem Attempt.reports_noted {v : Verdict} (hv : r.verdict segment.name next.name = .ok v)
    (step : Nat) : Attempt.Reports r segment next ⟨step, iteration, start, segment.name, next.name,
      (segment.decision next v).stage?.isSome, (segment.decision next v).bound,
      (segment.decision next v).reason?⟩ := by
  refine ⟨rfl, rfl, ?_, v, hv, ?_, ?_⟩
  · cases v <;> rfl
  · cases v <;> rfl
  · cases v <;> rfl

theorem Progress.mem_trace_note {t : Attempt} {v : Verdict}
    (hv : r.verdict segment.name next.name = .ok v)
    (h : t ∈ (p.note iteration start segment.name next.name (segment.decision next v)).trace) :
    t ∈ p.trace ∨ t.Reports r segment next := by
  rcases List.mem_append.mp h with h | h
  · exact .inl h
  · rw [List.mem_singleton.mp h]
    exact .inr (Attempt.reports_noted hv _)

theorem Swept.exists_tries {t : Attempt}
    (h : Swept r iteration segment start position rest p q out) :
    t ∈ q.trace → t ∈ p.trace ∨ ∃ a b, SweepTries r a b segment rest ∧ t.Reports r a b := by
  induction h with
  | last => exact .inl
  | @joined segment next start position rest out p counted q rule announced allowed count tail ih =>
    intro ht
    rcases ih ht with ht | ⟨a, b, htries, hreports⟩
    · rw [Progress.trace_of_countFusion count] at ht
      exact (Progress.mem_trace_note allowed ht).imp_right fun hreports =>
        ⟨segment, next, .here rest, hreports⟩
    · exact .inr ⟨a, b, .joined ⟨_, _, allowed⟩ htries, hreports⟩
  | @parted segment next start position rest out p q rule announced reason refused tail ih =>
    intro ht
    rcases ih ht with ht | ⟨a, b, htries, hreports⟩
    · exact (Progress.mem_trace_note refused ht).imp_right fun hreports =>
        ⟨segment, next, .here rest, hreports⟩
    · exact .inr ⟨a, b, .parted ⟨_, _, _, refused⟩ htries, hreports⟩

theorem SweptChain.exists_tries {t : Attempt} (h : SweptChain r iteration chain p q out)
    (ht : t ∈ q.trace) :
    t ∈ p.trace ∨ ∃ a b, RunTries r a b iteration chain p ∧ t.Reports r a b := by
  cases h with
  | empty => exact .inl ht
  | cons swept =>
    exact (swept.exists_tries ht).imp_right fun ⟨a, b, htries, hreports⟩ =>
      ⟨a, b, .here (.cons htries), hreports⟩

theorem Settled.exists_tries {t : Attempt} (h : Settled r iteration chain p q out) :
    t ∈ q.trace → t ∈ p.trace ∨ ∃ a b, RunTries r a b iteration chain p ∧ t.Reports r a b := by
  induction h with
  | stop swept still => exact swept.exists_tries
  | again swept moved tail ih =>
    intro ht
    rcases ih ht with ht | ⟨a, b, htries, hreports⟩
    · exact swept.exists_tries ht
    · exact .inr ⟨a, b, .later swept moved htries, hreports⟩

/-- **Every entry of a trace reports an attempt of the run.** -/
theorem exists_tries_of_mem_trace {links : List Link} {result : OptimizedChain} {t : Attempt}
    (h : (r.optimize links).outcome = .ok result) (ht : t ∈ result.trace) :
    ∃ a b, RunTries r a b 0 links {} ∧ t.Reports r a b :=
  ((outcome_optimize_eq_ok_iff.mp h).1.exists_tries ht).resolve_left (List.not_mem_nil)

/-- A sweep only adds to the trace. -/
theorem Swept.trace_subset (h : Swept r iteration segment start position rest p q out) :
    p.trace ⊆ q.trace := by
  induction h with
  | last => exact List.Subset.refl _
  | joined allowed count tail ih =>
    rw [Progress.trace_of_countFusion count] at ih
    exact List.Subset.trans (List.subset_append_left _ _) ih
  | parted refused tail ih => exact List.Subset.trans (List.subset_append_left _ _) ih

theorem SweptChain.trace_subset (h : SweptChain r iteration chain p q out) :
    p.trace ⊆ q.trace := by
  cases h with
  | empty => exact List.Subset.refl _
  | cons swept => exact swept.trace_subset

theorem Settled.trace_subset (h : Settled r iteration chain p q out) : p.trace ⊆ q.trace := by
  induction h with
  | stop swept still => exact swept.trace_subset
  | again swept moved tail ih => exact List.Subset.trans swept.trace_subset ih

theorem Progress.exists_reports_note {v : Verdict} (hv : r.verdict segment.name next.name = .ok v) :
    ∃ t ∈ (p.note iteration start segment.name next.name (segment.decision next v)).trace,
      t.Reports r segment next :=
  ⟨_, List.mem_append_right _ (List.mem_singleton_self _), Attempt.reports_noted hv _⟩

theorem Swept.exists_reports (h : Swept r iteration segment start position rest p q out) :
    SweepTries r a b segment rest → ∃ t ∈ q.trace, t.Reports r a b := by
  induction h with
  | last => nofun
  | @joined segment next start position rest out p counted q rule announced allowed count tail ih =>
    intro htries
    rcases (sweepTries_iff_of_allowed ⟨_, _, allowed⟩).mp htries with ⟨rfl, rfl⟩ | htries
    · obtain ⟨t, ht, hreports⟩ := Progress.exists_reports_note (p := p) allowed
      refine ⟨t, tail.trace_subset ?_, hreports⟩
      rw [Progress.trace_of_countFusion count]
      exact ht
    · exact ih htries
  | @parted segment next start position rest out p q rule announced reason refused tail ih =>
    intro htries
    rcases (sweepTries_iff_of_refused ⟨_, _, _, refused⟩).mp htries with ⟨rfl, rfl⟩ | htries
    · obtain ⟨t, ht, hreports⟩ := Progress.exists_reports_note (p := p) refused
      exact ⟨t, tail.trace_subset ht, hreports⟩
    · exact ih htries

theorem SweptChain.exists_reports (h : SweptChain r iteration chain p q out)
    (htries : ChainTries r a b chain) : ∃ t ∈ q.trace, t.Reports r a b := by
  cases htries with
  | cons tries =>
    cases h with
    | cons swept => exact swept.exists_reports tries

theorem Settled.exists_reports (h : Settled r iteration chain p q out) :
    RunTries r a b iteration chain p → ∃ t ∈ q.trace, t.Reports r a b := by
  induction h with
  | stop swept still =>
    exact fun htries => swept.exists_reports ((runTries_iff_of_still swept still).mp htries)
  | again swept moved tail ih =>
    intro htries
    rcases (runTries_iff_of_moved swept moved).mp htries with htries | htries
    · obtain ⟨t, ht, hreports⟩ := swept.exists_reports htries
      exact ⟨t, tail.trace_subset ht, hreports⟩
    · exact ih htries

/-- **Every attempt of the run has its report in the trace.** -/
theorem exists_reports_of_tries {links : List Link} {result : OptimizedChain}
    (h : (r.optimize links).outcome = .ok result) (htries : RunTries r a b 0 links {}) :
    ∃ t ∈ result.trace, t.Reports r a b :=
  (outcome_optimize_eq_ok_iff.mp h).1.exists_reports htries

/-! ## Reductions -/

/-- An attempt at two links fuses them, and reduces the bound by a number. -/
structure Registry.Reduces (r : Registry) (reduction : Int) (a b : Link) : Prop where
  allowed : r.Allows a.name b.name
  finite : Stats.reduction? a.stage.bound b.stage.bound (a.joinBound b) = some reduction

theorem Swept.mem_reductions_iff {v : Int}
    (h : Swept r iteration segment start position rest p q out) :
    v ∈ q.stats.reductions ↔
      v ∈ p.stats.reductions ∨ ∃ a b, SweepTries r a b segment rest ∧ r.Reduces v a b := by
  induction h with
  | last =>
    refine ⟨.inl, fun h => h.resolve_right ?_⟩
    rintro ⟨a, b, htries, -⟩
    cases htries
  | @joined segment next start position rest out p counted q rule announced allowed count tail ih =>
    have hallows : r.Allows segment.name next.name := ⟨_, _, allowed⟩
    rw [ih, Progress.mem_reductions_iff_of_countFusion count, or_assoc]
    refine or_congr_right ?_
    simp only [sweepTries_iff_of_allowed hallows, or_and_right, exists_or, and_assoc,
      exists_and_left, exists_eq_left]
    exact or_congr_left ⟨fun hfinite => ⟨hallows, hfinite⟩, fun hreduces => hreduces.finite⟩
  | @parted segment next start position rest out p q rule announced reason refused tail ih =>
    have hrefuses : r.Refuses segment.name next.name := ⟨_, _, _, refused⟩
    rw [ih]
    refine or_congr_right ?_
    simp only [sweepTries_iff_of_refused hrefuses, or_and_right, exists_or, and_assoc,
      exists_and_left, exists_eq_left]
    exact (or_iff_right fun hreduces => hreduces.allowed.not_refuses hrefuses).symm

theorem SweptChain.mem_reductions_iff {v : Int} (h : SweptChain r iteration chain p q out) :
    v ∈ q.stats.reductions ↔
      v ∈ p.stats.reductions ∨ ∃ a b, ChainTries r a b chain ∧ r.Reduces v a b := by
  cases h with
  | empty =>
    refine ⟨.inl, fun h => h.resolve_right ?_⟩
    rintro ⟨a, b, htries, -⟩
    cases htries
  | cons swept =>
    rw [swept.mem_reductions_iff]
    refine or_congr_right (exists₂_congr fun a b => and_congr_left fun _ => ?_)
    exact ⟨.cons, fun ⟨tries⟩ => tries⟩

theorem Settled.mem_reductions_iff {v : Int} (h : Settled r iteration chain p q out) :
    v ∈ q.stats.reductions ↔
      v ∈ p.stats.reductions ∨ ∃ a b, RunTries r a b iteration chain p ∧ r.Reduces v a b := by
  induction h with
  | stop swept still =>
    simp only [swept.mem_reductions_iff, runTries_iff_of_still swept still]
  | again swept moved tail ih =>
    simp only [ih, swept.mem_reductions_iff, runTries_iff_of_moved swept moved, or_and_right,
      exists_or, or_assoc]

/-- **The reductions in the statistics are those of the attempts that fused.** -/
theorem mem_reductions_iff {links : List Link} {result : OptimizedChain} {v : Int}
    (h : (r.optimize links).outcome = .ok result) :
    v ∈ result.stats.reductions ↔ ∃ a b, RunTries r a b 0 links {} ∧ r.Reduces v a b :=
  (outcome_optimize_eq_ok_iff.mp h).1.mem_reductions_iff.trans
    (or_iff_right List.not_mem_nil)

end

end StageFusion
