import StageFusion.Proofs.Averages
import StageFusion.Proofs.Magnitudes
import StageFusion.Service.Answer

/-! How a run can break off.

An attempt to fuse two links ends a run in two ways only (`Registry.Breaks`): the reason of a refusal
would hold a numeral that is too long, or the average reduction after a fusion would be out of range.
`Interrupted` is a run that reaches such an attempt, and `outcome_optimize_eq_error_iff` says that these
are the runs that fail.

Both need large numbers (`Interrupted.needs`): declared bounds of names whose product has itself too long
a numeral, or declared bounds of stages whose product is out of the range of the average. With a registry
of bounds up to one, every chain of names has a run that returns (`Registry.Modest.exists_optimize`). -/

namespace StageFusion

open Service (placeholders stageFor)

theorem bind_eq_error_iff {ε α β : Type} {x : Except ε α} {f : α → Except ε β} {e : ε} :
    x.bind f = .error e ↔ x = .error e ∨ ∃ a, x = .ok a ∧ f a = .error e := by
  cases x <;> simp [Except.bind]

theorem map_eq_error_iff {ε α β : Type} {x : Except ε α} {f : α → β} {e : ε} :
    x.map f = .error e ↔ x = .error e := by
  cases x <;> simp [Except.map]

/-- A computation fails just under a condition, and always with the same fault. -/
def FailsIff {α : Type} (x : Except Fault α) (fault : Fault) (P : Prop) : Prop :=
  ∀ e, x = .error e ↔ P ∧ e = fault

namespace FailsIff

variable {α β : Type} {x : Except Fault α} {f : α → Except Fault β} {fault : Fault} {P Q : Prop}

theorem ok (a : α) (fault : Fault) : FailsIff (.ok a) fault False :=
  fun e => by simp

theorem congr (h : FailsIff x fault P) (hPQ : P ↔ Q) : FailsIff x fault Q :=
  fun e => by rw [h e, hPQ]

theorem exists_ok_iff (h : FailsIff x fault P) : (∃ a, x = .ok a) ↔ ¬ P := by
  cases hx : x with
  | ok a =>
    refine iff_of_true ⟨a, rfl⟩ fun hP => ?_
    rw [(h fault).mpr ⟨hP, rfl⟩] at hx
    cases hx
  | error e => simp [((h e).mp hx).1]

theorem bind (hx : FailsIff x fault P) (hf : ∀ a, FailsIff (f a) fault Q) :
    FailsIff (x >>= f) fault (P ∨ Q) := by
  intro e
  refine bind_eq_error_iff.trans ?_
  constructor
  · rintro (h | ⟨a, _, h⟩)
    · exact ⟨.inl ((hx e).mp h).1, ((hx e).mp h).2⟩
    · exact ⟨.inr ((hf a e).mp h).1, ((hf a e).mp h).2⟩
  · rintro ⟨hPQ, rfl⟩
    cases h : x with
    | error e' =>
      obtain rfl := ((hx e').mp h).2
      exact .inl rfl
    | ok a =>
      rcases hPQ with hP | hQ
      · rw [(hx e).mpr ⟨hP, rfl⟩] at h
        cases h
      · exact .inr ⟨a, rfl, (hf a e).mpr ⟨hQ, rfl⟩⟩

end FailsIff

/-! ## Texts of refusals -/

theorem failsIff_writeNumeral_int (i : Int) :
    FailsIff (writeNumeral i) .numeralWritten (numeralBound ≤ i.natAbs) := by
  intro e
  unfold writeNumeral
  by_cases h : i.natAbs < numeralBound
  · simp [h]
  · simp [h, eq_comm, Nat.not_lt.mp h]

theorem failsIff_writeNumeral (k : Nat) :
    FailsIff (writeNumeral k) .numeralWritten (numeralBound ≤ k) :=
  (failsIff_writeNumeral_int k).congr (by rw [Int.natAbs_natCast])

theorem failsIff_mapM_writeNumeral (ks : List Nat) :
    FailsIff (ks.mapM fun k => writeNumeral (k : Nat)) .numeralWritten
      (∃ k ∈ ks, numeralBound ≤ k) := by
  induction ks with
  | nil => exact (FailsIff.ok _ _).congr (by simp)
  | cons k ks ih =>
    rw [List.mapM_cons]
    have hrest := fun numeral => ih.bind fun numerals => FailsIff.ok (numeral :: numerals) _
    exact ((failsIff_writeNumeral k).bind hrest).congr (by simp)

theorem Shape.failsIff_text (s : Shape) :
    FailsIff s.text .numeralWritten (∃ k ∈ s.counts, numeralBound ≤ k) := by
  rw [text]
  split
  · next h => exact (FailsIff.ok _ _).congr (by simp [h])
  · exact ((failsIff_mapM_writeNumeral s.counts).bind fun _ => FailsIff.ok _ _).congr (by simp)

namespace Operator

/-- The refusal of two records cannot be put in words: no rule lets them be fused, and one of them has
a count with too long a numeral. -/
def Unspeakable (up down : Operator) : Prop :=
  up.judge down = .noRule ∧ ∃ k ∈ up.shape.counts ++ down.shape.counts, numeralBound ≤ k

theorem failsIff_describe (c : Category) (name : String) (s : Shape) :
    FailsIff (describe c name s) .numeralWritten (∃ k ∈ s.counts, numeralBound ≤ k) :=
  (s.failsIff_text.bind fun _ => FailsIff.ok _ _).congr (by simp)

theorem failsIff_verdict (up down : Operator) :
    FailsIff (up.verdict down) .numeralWritten (up.Unspeakable down) := by
  rw [verdict, Unspeakable]
  cases hj : up.judge down with
  | noRule =>
    refine ((failsIff_describe _ _ up.shape).bind fun _ =>
      (failsIff_describe _ _ down.shape).bind fun _ => FailsIff.ok _ _).congr ?_
    simp [or_and_right, exists_or]
  | _ => exact (FailsIff.ok _ _).congr (by simp)

end Operator

theorem Registry.failsIff_verdict (r : Registry) (up down : String) :
    FailsIff (r.verdict up down) .numeralWritten
      (∃ a b, r.resolve up = some a ∧ r.resolve down = some b ∧ a.Unspeakable b) := by
  rw [verdict]
  cases r.resolve up with
  | none => cases r.resolve down <;> exact (FailsIff.ok _ _).congr (by simp)
  | some a =>
    cases r.resolve down with
    | none => exact (FailsIff.ok _ _).congr (by simp)
    | some b => exact (a.failsIff_verdict b).congr (by simp)

theorem Progress.failsIff_countFusion (p : Progress) (up down fused : Multiplicity) :
    FailsIff (p.countFusion up down fused) .averageRange
      (∃ reduction, Stats.reduction? up down fused = some reduction ∧
        Stats.mean? (p.stats.reductions ++ [reduction]) = none) := by
  have hrecorded := p.stats.recorded_addFusion up down fused
  rw [countFusion]
  generalize p.stats.addFusion up down fused = recorded at hrecorded ⊢
  cases hrecorded with
  | counted infinite => exact (FailsIff.ok _ _).congr (by simp [infinite])
  | averaged finite within => exact (FailsIff.ok _ _).congr (by simp [finite, within])
  | beyond finite range =>
    intro e
    simp [finite, range, eq_comm]

/-! ## Attempts that break off -/

/-- An attempt to fuse two links ends a run with a fault: the reason of a refusal cannot be written, or
the average after a fusion is out of range. -/
inductive Registry.Breaks (r : Registry) (p : Progress) (a b : Link) : Fault → Prop
  | reason {up down : Operator} (up_known : r.resolve a.name = some up)
    (down_known : r.resolve b.name = some down) (unspeakable : up.Unspeakable down) :
    Breaks r p a b .numeralWritten
  | average {reduction : Int} (allowed : r.Allows a.name b.name)
    (finite : Stats.reduction? a.stage.bound b.stage.bound (a.joinBound b) = some reduction)
    (range : Stats.mean? (p.stats.reductions ++ [reduction]) = none) : Breaks r p a b .averageRange

/-- A sweep over the rest of a chain goes through a part of it, and the attempt at the next link ends
it. -/
inductive BrokenSweep (r : Registry) (iteration : Nat) (segment : Link) (start position : Nat)
    (rest : List Link) (p : Progress) (e : Fault) : Prop
  | intro {before after sealedLinks : List Link} {last next : Link} {q : Progress}
    (rest_eq : rest = before ++ next :: after)
    (swept : Swept r iteration segment start position before p q (sealedLinks ++ [last]))
    (breaks : r.Breaks q last next e)

/-- A run breaks off with a fault: after sweeps that went through, one does not. -/
inductive Interrupted (r : Registry) : Nat → List Link → Progress → Fault → Prop
  | here {iteration : Nat} {first : Link} {rest : List Link} {p : Progress} {e : Fault}
    (broken : BrokenSweep r iteration first 0 1 rest p e) :
    Interrupted r iteration (first :: rest) p e
  | later {iteration : Nat} {chain shorter : List Link} {p mid : Progress} {e : Fault}
    (swept : SweptChain r iteration chain p mid shorter)
    (moved : shorter.length < chain.length ∧ shorter.length ≠ 1)
    (tail : Interrupted r (iteration + 1) shorter mid e) : Interrupted r iteration chain p e

section

variable {r : Registry} {iteration : Nat} {segment : Link} {start position : Nat}
  {chain rest out : List Link} {p q : Progress} {e : Fault}

theorem Swept.ne_nil (h : Swept r iteration segment start position rest p q out) : out ≠ [] := by
  induction h with
  | last => exact List.cons_ne_nil _ _
  | joined _ _ _ ih => exact ih
  | parted => exact List.cons_ne_nil _ _

theorem broken_of_sweepFrom :
    ∀ {segment : Link} {start position : Nat} {p : Progress},
    (r.sweepFrom iteration segment start position rest p).outcome = .error e →
    BrokenSweep r iteration segment start position rest p e := by
  induction rest with
  | nil =>
    intro segment start position p h
    cases h
  | cons next rest ih =>
    intro segment start position p h
    have hnone : Swept r iteration segment start position [] p p ([] ++ [segment]) := .last _ _ _ _
    cases hv : r.verdict segment.name next.name with
    | error e' =>
      rw [Registry.outcome_sweepFrom_of_error hv] at h
      cases h
      obtain ⟨⟨up, down, hup, hdown, hunspeakable⟩, rfl⟩ := (r.failsIff_verdict _ _ _).mp hv
      exact .intro rfl hnone (.reason hup hdown hunspeakable)
    | ok v =>
      cases v with
      | allowed rule announced =>
        rw [Registry.outcome_sweepFrom_of_allowed hv, bind_eq_error_iff] at h
        rcases h with hcount | ⟨counted, hcount, htail⟩
        · obtain ⟨⟨reduction, hfinite, hrange⟩, rfl⟩ :=
            (Progress.failsIff_countFusion _ _ _ _ _).mp hcount
          exact .intro rfl hnone (.average ⟨_, _, hv⟩ hfinite hrange)
        · obtain ⟨rfl, swept, breaks⟩ := ih htail
          exact .intro rfl (.joined hv hcount swept) breaks
      | refused rule announced reason =>
        rw [Registry.outcome_sweepFrom_of_refused hv, map_eq_error_iff] at h
        obtain ⟨rfl, swept, breaks⟩ := ih h
        have hswept := Swept.parted hv swept
        rw [← List.cons_append] at hswept
        exact .intro rfl hswept breaks

theorem sweepFrom_of_breaks {next : Link} {after : List Link} (h : r.Breaks p segment next e) :
    (r.sweepFrom iteration segment start position (next :: after) p).outcome = .error e := by
  cases h with
  | reason hup hdown hunspeakable =>
    apply Registry.outcome_sweepFrom_of_error
    exact (r.failsIff_verdict _ _ _).mpr ⟨⟨_, _, hup, hdown, hunspeakable⟩, rfl⟩
  | average allowed hfinite hrange =>
    obtain ⟨rule, announced, hv⟩ := allowed
    rw [Registry.outcome_sweepFrom_of_allowed hv, bind_eq_error_iff]
    exact .inl ((Progress.failsIff_countFusion _ _ _ _ _).mpr ⟨⟨_, hfinite, hrange⟩, rfl⟩)

theorem Swept.outcome_of_breaks {before sealedLinks after : List Link} {last next : Link}
    (h : Swept r iteration segment start position before p q out) (hout : out = sealedLinks ++ [last])
    (breaks : r.Breaks q last next e) :
    (r.sweepFrom iteration segment start position (before ++ next :: after) p).outcome =
      .error e := by
  induction h generalizing sealedLinks with
  | last segment =>
    obtain ⟨rfl, rfl⟩ : sealedLinks = [] ∧ last = segment := by
      simpa [List.singleton_eq_append_iff] using hout
    exact sweepFrom_of_breaks breaks
  | joined allowed count tail ih =>
    rw [List.cons_append, Registry.outcome_sweepFrom_of_allowed allowed, bind_eq_error_iff]
    exact .inr ⟨_, count, ih hout breaks⟩
  | parted refused tail ih =>
    -- the last link is not the sealed one, for the rest of the sweep leaves a link
    cases sealedLinks with
    | nil => exact absurd (List.cons.inj hout).2 tail.ne_nil
    | cons first sealedLinks =>
      rw [List.cons_append, Registry.outcome_sweepFrom_of_refused refused, map_eq_error_iff]
      exact ih (List.cons.inj hout).2 breaks

theorem outcome_sweepFrom_eq_error_iff :
    (r.sweepFrom iteration segment start position rest p).outcome = .error e ↔
      BrokenSweep r iteration segment start position rest p e := by
  constructor
  · exact broken_of_sweepFrom
  · rintro ⟨rfl, swept, breaks⟩
    exact swept.outcome_of_breaks rfl breaks

theorem outcome_settle_eq_error_iff :
    (r.settle iteration chain p).outcome = .error e ↔ Interrupted r iteration chain p e := by
  constructor
  · intro h
    fun_induction Registry.settle r iteration chain p with
    | case1 iteration chain p swept e' he =>
      obtain rfl : e' = e := by simpa using h
      cases chain with
      | nil => cases he
      | cons first rest => exact .here (broken_of_sweepFrom he)
    | case2 iteration chain p swept mid shorter hs moved settled ih =>
      exact .later (outcome_sweep_eq_ok_iff.mp hs) moved (ih h)
    | case3 iteration chain p swept mid shorter hs still =>
      rw [show swept.outcome = .ok (mid, shorter) from hs] at h
      cases h
  · intro h
    induction h with
    | @here iteration first rest p e broken =>
      have hs : (r.sweep iteration (first :: rest) p).outcome = .error e :=
        outcome_sweepFrom_eq_error_iff.mpr broken
      rw [Registry.settle_of_error hs]
    | later swept moved tail ih =>
      rw [Registry.settle_of_moved (outcome_sweep_eq_ok_iff.mpr swept) moved, ih]

end

/-! ## Only large numbers break off -/

/-- A fault needs large numbers: too long a numeral needs such a product of the declared bounds of
names, and an average out of range such a product of the declared bounds of stages. -/
inductive Fault.Needs (records stages : Nat) : Fault → Prop
  | numeral (large : numeralBound ≤ records) : Needs records stages .numeralWritten
  | average (large : Binary64.maxUnits < 2 * stages * Binary64.unitsPerOne) :
    Needs records stages .averageRange

section

variable {r : Registry} {iteration : Nat} {chain : List Link} {p q : Progress} {e : Fault}
  {records stages : Nat}

theorem Registry.Breaks.needs {a b : Link} (h : r.Breaks q a b e)
    (hrecords : r.weight a * r.weight b ≤ records) (hstages : a.weight * b.weight ≤ stages)
    (hq : ∀ v ∈ q.stats.reductions, v.natAbs ≤ 2 * stages) : e.Needs records stages := by
  cases h with
  | reason hup hdown hunspeakable =>
    obtain ⟨-, k, hk, hlarge⟩ := hunspeakable
    apply Fault.Needs.numeral
    refine hlarge.trans (le_trans ?_ hrecords)
    rcases List.mem_append.mp hk with hk | hk
    · exact (le_weight_of_mem_counts hup hk).trans (Nat.le_mul_of_pos_right _ (r.one_le_weight b))
    · exact (le_weight_of_mem_counts hdown hk).trans (Nat.le_mul_of_pos_left _ (r.one_le_weight a))
  | @average reduction allowed hfinite hrange =>
    apply Fault.Needs.average
    by_contra hsmall
    have ha : a.weight ≤ stages := le_trans (Nat.le_mul_of_pos_right _ b.one_le_weight) hstages
    have hb : b.weight ≤ stages := le_trans (Nat.le_mul_of_pos_left _ a.one_le_weight) hstages
    have hall : ∀ v ∈ q.stats.reductions ++ [reduction], v.natAbs ≤ 2 * stages := by
      intro v hv
      rcases List.mem_append.mp hv with hv | hv
      · exact hq v hv
      · rw [List.mem_singleton.mp hv]
        exact Link.natAbs_reduction_le hfinite ha hb hstages
    obtain ⟨mean, hmean⟩ := Stats.exists_mean hall (not_lt.mp hsmall)
    rw [hmean] at hrange
    cases hrange

/-- The last link before the break and the one behind it are part of what the sweep has left. -/
theorem mul_le_of_prod_le {w : Link → Nat} (hw : ∀ l, 1 ≤ w l) {sealedLinks before after : List Link}
    {last next : Link} {limit : Nat}
    (hswept : ((sealedLinks ++ [last]).map w).prod ≤ (before.map w).prod)
    (hlimit : ((before ++ next :: after).map w).prod ≤ limit) : w last * w next ≤ limit := by
  rw [List.map_append, List.prod_append, List.map_singleton, List.prod_singleton] at hswept
  rw [List.map_append, List.prod_append, List.map_cons, List.prod_cons] at hlimit
  calc w last * w next
      ≤ (sealedLinks.map w).prod * w last * w next :=
        Nat.mul_le_mul_right _ (Nat.le_mul_of_pos_left _ (one_le_prod hw sealedLinks))
    _ ≤ (before.map w).prod * w next := Nat.mul_le_mul_right _ hswept
    _ ≤ (before.map w).prod * (w next * (after.map w).prod) :=
        Nat.mul_le_mul_left _ (Nat.le_mul_of_pos_right _ (one_le_prod hw after))
    _ ≤ limit := hlimit

theorem BrokenSweep.needs {segment : Link} {start position : Nat} {rest : List Link}
    (h : BrokenSweep r iteration segment start position rest p e)
    (hrecords : ((segment :: rest).map r.weight).prod ≤ records)
    (hstages : ((segment :: rest).map Link.weight).prod ≤ stages)
    (hp : ∀ v ∈ p.stats.reductions, v.natAbs ≤ 2 * stages) : e.Needs records stages := by
  obtain ⟨rfl, swept, breaks⟩ := h
  rw [← List.cons_append] at hrecords hstages
  apply breaks.needs
  · exact mul_le_of_prod_le r.one_le_weight (swept.prod_le r.weight_join_le) hrecords
  · exact mul_le_of_prod_le Link.one_le_weight (swept.prod_le Link.weight_join_le) hstages
  · refine swept.natAbs_reductions_le (le_trans ?_ hstages) hp
    rw [List.map_append, List.prod_append]
    exact Nat.le_mul_of_pos_right _ (one_le_prod Link.one_le_weight _)

theorem Interrupted.needs (h : Interrupted r iteration chain p e) :
    (chain.map r.weight).prod ≤ records → (chain.map Link.weight).prod ≤ stages →
    (∀ v ∈ p.stats.reductions, v.natAbs ≤ 2 * stages) → e.Needs records stages := by
  induction h with
  | here broken => exact broken.needs
  | later swept moved tail ih =>
    intro hrecords hstages hp
    apply ih
    · exact (swept.prod_le r.weight_join_le).trans hrecords
    · exact (swept.prod_le Link.weight_join_le).trans hstages
    · exact swept.natAbs_reductions_le hstages hp

end

section

variable {r : Registry} {links : List Link}

theorem outcome_optimize_eq_error_iff {e : Fault} :
    (r.optimize links).outcome = .error e ↔ Interrupted r 0 links {} e := by
  rw [Registry.outcome_optimize, map_eq_error_iff, outcome_settle_eq_error_iff]

theorem needs_of_optimize {e : Fault} (h : (r.optimize links).outcome = .error e) :
    e.Needs (links.map r.weight).prod (links.map Link.weight).prod :=
  (outcome_optimize_eq_error_iff.mp h).needs le_rfl le_rfl (by simp)

/-- A run over small numbers returns. -/
theorem exists_optimize_of_lt (hrecords : (links.map r.weight).prod < numeralBound)
    (hstages : 2 * (links.map Link.weight).prod * Binary64.unitsPerOne ≤ Binary64.maxUnits) :
    ∃ result, (r.optimize links).outcome = .ok result := by
  cases h : (r.optimize links).outcome with
  | ok result => exact ⟨result, rfl⟩
  | error e =>
    cases needs_of_optimize h with
    | numeral hlarge => exact absurd hrecords (not_lt.mpr hlarge)
    | average hlarge => exact absurd hstages (not_le.mpr hlarge)

end

/-! ## Chains of names -/

namespace Registry

/-- No operator runs its effect more than once, unless there is no bound to it. -/
def Modest (r : Registry) : Prop :=
  ∀ m ∈ r.operators, m.bound.magnitude ≤ 1

instance (r : Registry) : Decidable r.Modest :=
  inferInstanceAs (Decidable (∀ m ∈ r.operators, m.bound.magnitude ≤ 1))

variable {r : Registry}

theorem magnitude_mul_prod_factor_le {ms : List Operator}
    (h : ∀ m ∈ ms, m.bound.magnitude ≤ 1) (k : Multiplicity) :
    (k * (ms.map (·.shape.factor)).prod).magnitude ≤ k.magnitude := by
  induction ms generalizing k with
  | nil => simp
  | cons m ms ih =>
    obtain ⟨hm, hms⟩ := List.forall_mem_cons.mp h
    rw [List.map_cons, List.prod_cons, ← mul_assoc]
    calc (k * m.shape.factor * (ms.map (·.shape.factor)).prod).magnitude
        ≤ (k * m.shape.factor).magnitude := ih hms _
      _ ≤ (k * m.bound).magnitude := Shape.magnitude_mul_factor_le k m.shape
      _ ≤ k.magnitude * m.bound.magnitude := Multiplicity.magnitude_mul_le k m.bound
      _ ≤ k.magnitude * 1 := Nat.mul_le_mul_left _ hm
      _ = k.magnitude := Nat.mul_one _

/-- No name, plain or fused, has a larger bound than the records. -/
theorem Modest.magnitude_boundOf (h : r.Modest) (name : String) :
    (r.boundOf name).magnitude = 1 := by
  refine le_antisymm ?_ (Multiplicity.one_le_magnitude _)
  cases hm : r.resolve name with
  | none =>
    rw [boundOf, hm]
    exact le_refl 1
  | some m =>
    rw [boundOf_of_resolve hm]
    obtain ⟨first, rest, hms, rfl⟩ := resolve_eq_some_iff.mp hm
    have hmem : ∀ m ∈ first :: rest, m.bound.magnitude ≤ 1 :=
      forall_mem_of_mapM (fun _ m hm => h m (List.mem_of_find?_eq_some hm)) hms
    obtain ⟨hfirst, hrest⟩ := List.forall_mem_cons.mp hmem
    rw [Operator.bound_foldl_andThen]
    exact (magnitude_mul_prod_factor_le hrest first.bound).trans hfirst

theorem Modest.prod_weight (h : r.Modest) (links : List Link) : (links.map r.weight).prod = 1 := by
  apply List.prod_eq_one
  intro n hn
  obtain ⟨l, _, rfl⟩ := List.mem_map.mp hn
  exact h.magnitude_boundOf l.name

end Registry

theorem bound_stageFor (r : Registry) (name : String) : (stageFor r name).bound = r.boundOf name := by
  rw [Registry.boundOf, Stage.bound, Stage.shape, stageFor]
  cases r.resolve name <;> rfl

/-- Over a registry of modest operators every list of names has a run that returns. -/
theorem Registry.Modest.exists_optimize {r : Registry} (h : r.Modest) (names : List String) :
    ∃ result, (r.optimize (placeholders r names)).outcome = .ok result := by
  have hstages : ((placeholders r names).map Link.weight).prod = 1 := by
    apply List.prod_eq_one
    intro n hn
    obtain ⟨l, hl, rfl⟩ := List.mem_map.mp hn
    obtain ⟨name, _, rfl⟩ := List.mem_map.mp hl
    rw [Link.weight, bound_stageFor]
    exact h.magnitude_boundOf name
  apply exists_optimize_of_lt
  · rw [h.prod_weight]
    decide +kernel
  · rw [hstages]
    decide +kernel

/-- The builtin operators are modest, so nothing fails over them. -/
theorem exists_optimize_builtin (names : List String) :
    ∃ result, (Registry.builtin.optimize (placeholders .builtin names)).outcome = .ok result := by
  have hmodest : Registry.builtin.Modest := by decide
  exact hmodest.exists_optimize names

/-! ## When a run fails -/

/-- **When a run fails.** It fails just if it reaches an attempt that ends it: a refusal whose reason
cannot be written, or a fusion after which the average is out of range. The first takes names whose
declared bounds have a product with too long a numeral, the second stages whose declared bounds have a
product out of the range of the average, and over smaller numbers every run returns. -/
theorem optimize_fails_iff (r : Registry) (links : List Link) :
    (∀ e, (r.optimize links).outcome = .error e ↔ Interrupted r 0 links {} e) ∧
    (∀ e, (r.optimize links).outcome = .error e →
      e.Needs (links.map r.weight).prod (links.map Link.weight).prod) ∧
    ((links.map r.weight).prod < numeralBound →
      2 * (links.map Link.weight).prod * Binary64.unitsPerOne ≤ Binary64.maxUnits →
      ∃ result, (r.optimize links).outcome = .ok result) :=
  ⟨fun _ => outcome_optimize_eq_error_iff, fun _ => needs_of_optimize, exists_optimize_of_lt⟩

/-- Links of the operator `map` whose stages declare the given numbers of runs. -/
def mapLinks (counts : List Nat) : List Link :=
  counts.map fun count => ⟨.stateless (fun v => pure v) (.constant count) "map", "map"⟩

/-- The builtin operators and one that runs its effect very often. -/
def Registry.withBurst : Registry :=
  Registry.builtin.put ⟨"burst", .stateful, .constant (10 ^ 2200)⟩ (by decide)

/-- Links of a composite whose declared bound has too long a numeral, and of an operator that it is not
fused with. -/
def burstLinks : List Link :=
  [⟨.stateful (fun v state => pure (state, v)) .once "burst", "burst+burst"⟩,
    ⟨.stateless (fun v => pure v) .once "tap", "tap"⟩]

def fault? {α : Type} : Except Fault α → Option Fault
  | .ok _ => none
  | .error e => some e

theorem fault?_eq_some_iff {α : Type} {x : Except Fault α} {e : Fault} :
    fault? x = some e ↔ x = .error e := by
  cases x <;> simp [fault?]

/-- A chain of small bounds returns, and the fault over one of large bounds is accounted for. -/
theorem map_links_return_or_fail :
    (∃ result, (Registry.builtin.optimize (mapLinks [2, 3, 0])).outcome = .ok result) ∧
    (Registry.builtin.optimize (mapLinks [10 ^ 200, 10 ^ 200, 0])).outcome = .error .averageRange ∧
    Interrupted .builtin 0 (mapLinks [10 ^ 200, 10 ^ 200, 0]) {} .averageRange ∧
    Fault.averageRange.Needs ((mapLinks [10 ^ 200, 10 ^ 200, 0]).map Registry.builtin.weight).prod
      ((mapLinks [10 ^ 200, 10 ^ 200, 0]).map Link.weight).prod := by
  obtain ⟨-, -, hreturns⟩ := optimize_fails_iff .builtin (mapLinks [2, 3, 0])
  obtain ⟨hiff, hneeds, -⟩ := optimize_fails_iff .builtin (mapLinks [10 ^ 200, 10 ^ 200, 0])
  have hfails : (Registry.builtin.optimize (mapLinks [10 ^ 200, 10 ^ 200, 0])).outcome =
      .error .averageRange := fault?_eq_some_iff.mp (by decide +kernel)
  exact ⟨hreturns (by decide +kernel) (by decide +kernel), hfails, (hiff _).mp hfails,
    hneeds _ hfails⟩

/-- Both kinds of large numbers end a run: an average out of range on the way to one in range, and a
refusal with too long a numeral in its reason. -/
theorem large_numbers_end_runs :
    (Registry.builtin.optimize (mapLinks [10 ^ 200, 10 ^ 200, 0])).outcome = .error .averageRange ∧
    (Registry.withBurst.optimize burstLinks).outcome = .error .numeralWritten :=
  ⟨fault?_eq_some_iff.mp (by decide +kernel), fault?_eq_some_iff.mp (by decide +kernel)⟩

end StageFusion
