import StageFusion.Proofs.Attempts
import StageFusion.Proofs.Interruptions
import StageFusion.Proofs.SegmentNames

/-! Registries of basic shapes.

The shapes of the builtin operators are four (`Shape.basic`), and composition does not lead out of them
(`Shape.andThen_mem_basic`). So over a registry of these shapes every stage of a run has one of them: its
bound is one or there is none, it can be put in words, and every reduction is one. The average of such
reductions is one as well, or zero if there are none. -/

namespace StageFusion

open Service

/-! ## Four shapes -/

namespace Multiplicity

/-- A bound is one, or there is none. -/
def OneOrNone (m : Multiplicity) : Prop :=
  m = 1 ∨ m = unbounded

instance : DecidablePred OneOrNone := fun m =>
  inferInstanceAs (Decidable (m = 1 ∨ m = unbounded))

theorem OneOrNone.mul {a b : Multiplicity} (ha : a.OneOrNone) (hb : b.OneOrNone) :
    (a * b).OneOrNone := by
  obtain rfl | rfl := ha
  · rwa [one_mul]
  · obtain rfl | rfl := hb
    · exact .inr (mul_one unbounded)
    · exact .inr rfl

theorem OneOrNone.prod {bounds : List Multiplicity} (h : ∀ m ∈ bounds, m.OneOrNone) :
    bounds.prod.OneOrNone :=
  List.prod_induction OneOrNone (fun _ _ => .mul) (.inl rfl) h

theorem OneOrNone.magnitude_eq {m : Multiplicity} (h : m.OneOrNone) : m.magnitude = 1 := by
  obtain rfl | rfl := h
  · rfl
  · rfl

end Multiplicity

namespace Shape

/-- Exactly one run, at most one run, and the shapes without a bound. -/
def basic : List Shape :=
  [constant 1, conditional 1 0, dataDependent, unbounded]

/-- Composition does not lead out of the basic shapes. -/
theorem andThen_mem_basic : ∀ a ∈ basic, ∀ b ∈ basic, a.andThen b ∈ basic := by
  decide

theorem oneOrNone_bound : ∀ a ∈ basic, a.bound.OneOrNone := by
  decide

theorem counts_le_one : ∀ a ∈ basic, ∀ k ∈ a.counts, k ≤ 1 := by
  decide

theorem exists_text {a : Shape} (h : a ∈ basic) : ∃ text, a.text = .ok text := by
  refine a.failsIff_text.exists_ok_iff.mpr ?_
  rintro ⟨k, hk, hlarge⟩
  have hone : 1 < numeralBound := by decide +kernel
  exact absurd (hlarge.trans (counts_le_one a h k hk)) (Nat.not_le.mpr hone)

end Shape

/-! ## Registries and links -/

namespace Registry

/-- All operators have basic shapes. -/
def Basic (r : Registry) : Prop :=
  ∀ m ∈ r.operators, m.shape ∈ Shape.basic

instance (r : Registry) : Decidable r.Basic :=
  inferInstanceAs (Decidable (∀ m ∈ r.operators, m.shape ∈ Shape.basic))

theorem basic_builtin : builtin.Basic := by
  decide +kernel

variable {r : Registry}

theorem Basic.modest (hr : r.Basic) : r.Modest :=
  fun m hm => (Shape.oneOrNone_bound _ (hr m hm)).magnitude_eq.le

/-- The records of fused names have basic shapes as well. -/
theorem Basic.shape_of_resolve (hr : r.Basic) {name : String} {m : Operator}
    (h : r.resolve name = some m) : m.shape ∈ Shape.basic := by
  obtain ⟨first, rest, hms, rfl⟩ := resolve_eq_some_iff.mp h
  have hbasic : ∀ m ∈ first :: rest, m.shape ∈ Shape.basic :=
    forall_mem_of_mapM (fun _ m hm => hr m (List.mem_of_find?_eq_some hm)) hms
  obtain ⟨hfirst, hrest⟩ := List.forall_mem_cons.mp hbasic
  exact List.foldlRecOn rest Operator.andThen hfirst fun a ha b hb =>
    Shape.andThen_mem_basic _ ha _ (hrest b hb)

theorem Basic.shape_stageFor (hr : r.Basic) (name : String) :
    (stageFor r name).shape ∈ Shape.basic := by
  rw [Stage.shape, stageFor]
  cases h : r.resolve name with
  | none => exact (by decide : Shape.unbounded ∈ Shape.basic)
  | some m => exact hr.shape_of_resolve h

end Registry

def Link.Basic (l : Link) : Prop :=
  l.stage.shape ∈ Shape.basic

namespace Link

theorem Basic.join {a b : Link} (ha : a.Basic) (hb : b.Basic) : (a.join b).Basic :=
  Shape.andThen_mem_basic _ ha _ hb

theorem Basic.oneOrNone_bound {l : Link} (h : l.Basic) : l.stage.bound.OneOrNone :=
  Shape.oneOrNone_bound _ h

theorem Basic.oneOrNone_joinBound {a b : Link} (ha : a.Basic) (hb : b.Basic) :
    (a.joinBound b).OneOrNone := by
  rw [← bound_join]
  exact (ha.join hb).oneOrNone_bound

/-- A link with a basic shape can be shown. -/
theorem Basic.exists_segmentReport {l : Link} (h : l.Basic) : ∃ v, segmentReport l = .ok v := by
  obtain ⟨text, htext⟩ := Shape.exists_text h
  exact ⟨_, bind_eq_ok_iff.mpr ⟨text, htext, rfl⟩⟩

end Link

theorem Registry.Basic.placeholders {r : Registry} (hr : r.Basic) (names : List String) :
    ∀ l ∈ placeholders r names, l.Basic := by
  intro l hl
  obtain ⟨name, -, rfl⟩ := List.mem_map.mp hl
  exact hr.shape_stageFor name

/-! ## The average reduction -/

namespace Stats

variable {up down bound : Multiplicity}

theorem exists_reduction_iff : (∃ v, reduction? up down bound = some v) ↔
    up.isFinite = true ∧ down.isFinite = true ∧ bound.isFinite = true := by
  cases up <;> cases down <;> cases bound <;> simp [reduction?, Multiplicity.isFinite]

/-- One and one are fused into one. -/
theorem reduction_eq_one (hup : up.OneOrNone) (hdown : down.OneOrNone) (hbound : bound.OneOrNone)
    {v : Int} (h : reduction? up down bound = some v) : v = 1 := by
  obtain ⟨hupFinite, hdownFinite, hboundFinite⟩ := exists_reduction_iff.mp ⟨v, h⟩
  obtain rfl : up = 1 := hup.resolve_right (by rintro rfl; cases hupFinite)
  obtain rfl : down = 1 := hdown.resolve_right (by rintro rfl; cases hdownFinite)
  obtain rfl : bound = 1 := hbound.resolve_right (by rintro rfl; cases hboundFinite)
  exact (Option.some.inj h).symm

end Stats

/-- A run over a chain fuses two stages with finite bounds into a stage with a finite bound. -/
def Registry.FusesFinite (r : Registry) (links : List Link) : Prop :=
  ∃ a b, RunTries r a b 0 links {} ∧ r.Allows a.name b.name ∧ a.stage.bound.isFinite = true ∧
    b.stage.bound.isFinite = true ∧ (a.join b).stage.bound.isFinite = true

theorem Registry.exists_reduces_iff {r : Registry} {a b : Link} : (∃ v, r.Reduces v a b) ↔
    r.Allows a.name b.name ∧ a.stage.bound.isFinite = true ∧ b.stage.bound.isFinite = true ∧
      (a.join b).stage.bound.isFinite = true := by
  rw [Link.bound_join, ← Stats.exists_reduction_iff]
  exact ⟨fun ⟨v, h⟩ => ⟨h.allowed, v, h.finite⟩, fun ⟨hallows, v, h⟩ => ⟨v, hallows, h⟩⟩

section

variable {r : Registry} {links : List Link} {result : OptimizedChain}

theorem reductions_ne_nil_iff (h : (r.optimize links).outcome = .ok result) :
    result.stats.reductions ≠ [] ↔ r.FusesFinite links := by
  constructor
  · intro hne
    obtain ⟨v, hv⟩ := List.exists_mem_of_ne_nil _ hne
    obtain ⟨a, b, htries, hreduces⟩ := (mem_reductions_iff h).mp hv
    exact ⟨a, b, htries, Registry.exists_reduces_iff.mp ⟨v, hreduces⟩⟩
  · rintro ⟨a, b, htries, hfinite⟩
    obtain ⟨v, hreduces⟩ := Registry.exists_reduces_iff.mpr hfinite
    exact List.ne_nil_of_mem ((mem_reductions_iff h).mpr ⟨a, b, htries, hreduces⟩)

theorem averaged_of_optimize (h : (r.optimize links).outcome = .ok result) :
    result.stats.Averaged :=
  stats_of_optimize (fun _ => .addSkip) (fun _ _ _ _ _ hrecorded hs => hs.of_recorded hrecorded) h
    .empty

theorem reduction_eq_one_of_optimize (hlinks : ∀ l ∈ links, l.Basic)
    (h : (r.optimize links).outcome = .ok result) : ∀ v ∈ result.stats.reductions, v = 1 := by
  intro v hv
  obtain ⟨a, b, htries, hreduces⟩ := (mem_reductions_iff h).mp hv
  obtain ⟨ha, hb⟩ := htries.forall_mem (fun _ _ _ => Link.Basic.join) hlinks
  exact Stats.reduction_eq_one ha.oneOrNone_bound hb.oneOrNone_bound (ha.oneOrNone_joinBound hb)
    hreduces.finite

/-- The average of reductions by one. -/
theorem average_eq_of_optimize (hlinks : ∀ l ∈ links, l.Basic)
    (h : (r.optimize links).outcome = .ok result) :
    (r.FusesFinite links → result.stats.averageReduction = .one) ∧
      (¬ r.FusesFinite links → result.stats.averageReduction = .zero) := by
  have haveraged := averaged_of_optimize h
  rw [← reductions_ne_nil_iff h]
  constructor
  · intro hne
    have hmean := haveraged.mean_eq hne
    rw [Stats.mean?_eq_one (reduction_eq_one_of_optimize hlinks h) hne] at hmean
    exact (Option.some.inj hmean).symm
  · exact fun hnil => haveraged.eq_zero (not_not.mp hnil)

end

/-! ## Answers -/

/-- A value is one, or the sign of an infinite bound. -/
def Value.IsOneOrInfinite (v : Value) : Prop :=
  v = .int 1 ∨ v = .str "∞"

theorem Multiplicity.OneOrNone.toValue {m : Multiplicity} (h : m.OneOrNone) :
    m.toValue.IsOneOrInfinite := by
  obtain rfl | rfl := h
  · exact .inl rfl
  · exact .inr rfl

theorem OptimizedChain.oneOrNone_bound {c : OptimizedChain} (h : ∀ l ∈ c.links, l.Basic) :
    c.bound.OneOrNone := by
  rw [bound, Link.sequenceBound, Multiplicity.product_eq_prod]
  refine .prod fun m hm => ?_
  obtain ⟨l, hl, rfl⟩ := List.mem_map.mp hm
  exact (h l hl).oneOrNone_bound

/-- **Over basic shapes an answer stays in a closed range.** The builtin operators have basic shapes.
Over every registry of such operators a request to optimize names is answered without an error, whatever
the names are: every bound in the answer is one or infinite, and the average reduction is one if some
fusion joined two stages with finite bounds into a stage with a finite bound, and otherwise zero. -/
theorem optimize_basic_range : Registry.builtin.Basic ∧ ∀ r : Registry, r.Basic →
    ∀ names : List String, (∀ name ∈ names, name ≠ "") →
    ∃ reply segments entries,
      (answer r (optimizeRequest (names.map .str))).outcome = .ok reply ∧
      reply.field? "error" = none ∧
      reply.field "segments" = .list segments ∧ reply.field "trace" = .list entries ∧
      (∀ s ∈ segments, (s.field "bound").IsOneOrInfinite) ∧
      (∀ e ∈ entries, (e.field "fused_bound").IsOneOrInfinite) ∧
      (reply.field "usage_bound").IsOneOrInfinite ∧
      (r.FusesFinite (placeholders r names) →
        (reply.field "stats").field "averageBoundReduction" = .float .one) ∧
      (¬ r.FusesFinite (placeholders r names) →
        (reply.field "stats").field "averageBoundReduction" = .float .zero) := by
  refine ⟨Registry.basic_builtin, fun r hr names hnames => ?_⟩
  have hlinks := hr.placeholders names
  obtain ⟨c, hc⟩ := hr.modest.exists_optimize names
  have hbasic : ∀ l ∈ c.links, l.Basic :=
    forall_mem_optimize (fun _ _ _ => Link.Basic.join) hc hlinks
  obtain ⟨segments, hsegments⟩ := exists_mapM_ok fun l hl => (hbasic l hl).exists_segmentReport
  obtain ⟨hone, hzero⟩ := average_eq_of_optimize hlinks hc
  refine ⟨chainAnswer c segments, segments, c.trace.map (·.report),
    outcome_answer_optimizeRequest hnames hc (chainReport_eq_ok_iff.mpr ⟨segments, hsegments, rfl⟩),
    rfl, rfl, rfl, ?_, ?_, (OptimizedChain.oneOrNone_bound hbasic).toValue,
    fun h => congrArg Value.float (hone h), fun h => congrArg Value.float (hzero h)⟩
  · intro s hs
    have hmem := List.mem_map_of_mem (f := (·.field "bound")) hs
    rw [map_field_bound hsegments] at hmem
    obtain ⟨l, hl, hbound⟩ := List.mem_map.mp hmem
    rw [← hbound]
    exact (hbasic l hl).oneOrNone_bound.toValue
  · intro e he
    obtain ⟨t, ht, rfl⟩ := List.mem_map.mp he
    obtain ⟨a, b, htries, hreports⟩ := exists_tries_of_mem_trace hc ht
    obtain ⟨ha, hb⟩ := htries.forall_mem (fun _ _ _ => Link.Basic.join) hlinks
    show t.bound.toValue.IsOneOrInfinite
    rw [hreports.bound_eq]
    exact (ha.oneOrNone_joinBound hb).toValue

/-- The first fusion of this chain has no finite bound, the second one has. -/
theorem map_flatMap_scan_reduce_range : ∃ reply,
    (answer .builtin (optimizeRequest
      (["map", "flatMap", "scan", "reduce"].map .str))).outcome = .ok reply ∧
    reply.field? "error" = none ∧ (reply.field "usage_bound").IsOneOrInfinite ∧
    Registry.builtin.FusesFinite (placeholders .builtin ["map", "flatMap", "scan", "reduce"]) ∧
    (reply.field "stats").field "averageBoundReduction" = .float .one := by
  have hnames : ∀ name ∈ ["map", "flatMap", "scan", "reduce"], name ≠ "" := by decide
  obtain ⟨reply, _, _, hreply, hok, -, -, -, -, hbound, haverage, -⟩ :=
    optimize_basic_range.2 .builtin Registry.basic_builtin _ hnames
  have hfuses : Registry.builtin.FusesFinite
      (placeholders .builtin ["map", "flatMap", "scan", "reduce"]) := by
    refine ⟨⟨stageFor .builtin "scan", "scan"⟩, ⟨stageFor .builtin "reduce", "reduce"⟩,
      .here (.cons (.joined ⟨.statelessIdentity, .unbounded, by decide +kernel⟩
        (.parted ⟨.unboundedUpstream, .unbounded,
          "upstream 'map+flatMap' has unbounded fan-out", by decide +kernel⟩ (.here [])))),
      ⟨.statefulFinite, .exact 1, by decide +kernel⟩, by decide +kernel, by decide +kernel,
      by decide +kernel⟩
  exact ⟨reply, hreply, hok, hbound, hfuses, haverage hfuses⟩

end StageFusion
