import StageFusion.Proofs.Nests
import StageFusion.Proofs.Shapes
import StageFusion.Service.Answer

/-! Declared bounds of fused chains.

The bound of a segment is never below the product of the bounds of its original links
(`Nest.declaredBound_le`). The two are equal in a nest without a conditional shape downstream of a
fusion (`Nest.Tight`); otherwise the bound of the segment is zero or `unbounded`
(`Nest.bound_of_not_tight`). So the bound of a fused chain covers that of the original one
(`sequenceBound_le_bound`), and the main theorem says exactly when it stays at or below it. -/

namespace StageFusion

open Multiplicity (exact)
open Service (placeholders)

theorem Link.sequenceBound_eq_prod (links : List Link) :
    sequenceBound links = (links.map (·.stage.bound)).prod :=
  Multiplicity.product_eq_prod _

namespace Nest

/-- The bound of the original links of a nest in sequence. -/
def declaredBound (n : Nest) : Multiplicity :=
  Link.sequenceBound n.leaves

@[simp]
theorem declaredBound_leaf (l : Link) : (leaf l).declaredBound = l.stage.bound := by
  simp [declaredBound, leaves, Link.sequenceBound_eq_prod]

@[simp]
theorem declaredBound_join (up down : Nest) :
    (join up down).declaredBound = up.declaredBound * down.declaredBound := by
  simp [declaredBound, leaves, Link.sequenceBound_eq_prod]

theorem bound_stage_join (up down : Nest) :
    (join up down).stage.bound = up.stage.bound * down.stage.shape.factor :=
  Shape.bound_andThen _ _

/-- Fusing does not lower the bound. -/
theorem declaredBound_le (n : Nest) : n.declaredBound ≤ n.stage.bound := by
  induction n with
  | leaf l => simp
  | join up down ihUp ihDown =>
    calc (join up down).declaredBound
        = up.declaredBound * down.declaredBound := declaredBound_join up down
      _ ≤ up.stage.bound * down.stage.bound := mul_le_mul' ihUp ihDown
      _ ≤ up.stage.bound * down.stage.shape.factor :=
        mul_le_mul_right (Shape.bound_le_factor _) _
      _ = (join up down).stage.bound := (bound_stage_join up down).symm

/-! ## Where fusing raises the bound -/

/-- No fusion in the nest has a conditional shape downstream. -/
def Tight : Nest → Prop
  | leaf _ => True
  | join up down => up.Tight ∧ down.Tight ∧ down.stage.shape.isConditional = false

theorem Tight.bound_eq {n : Nest} (h : n.Tight) : n.stage.bound = n.declaredBound := by
  induction n with
  | leaf l => simp
  | join up down ihUp ihDown =>
    obtain ⟨hup, hdown, hshape⟩ := h
    rw [bound_stage_join, declaredBound_join, ihUp hup, Shape.factor_eq_bound hshape]
    congr 1
    exact ihDown hdown

/-- A fusion into a conditional shape loses every bound but zero. -/
theorem bound_of_not_tight {n : Nest} (h : ¬ n.Tight) :
    n.stage.bound = 0 ∨ n.stage.bound = .unbounded := by
  induction n with
  | leaf l => exact absurd trivial h
  | join up down ihUp ihDown =>
    rw [bound_stage_join]
    by_cases hup : up.Tight
    · -- the factor of the downstream side is zero or unbounded itself
      apply Multiplicity.mul_eq_zero_or_unbounded
      by_cases hshape : down.stage.shape.isConditional = true
      · exact .inr (Shape.factor_of_isConditional hshape)
      · rw [Bool.not_eq_true] at hshape
        rw [Shape.factor_eq_bound hshape]
        exact ihDown fun hdown => h ⟨hup, hdown, hshape⟩
    · rw [mul_comm]
      exact Multiplicity.mul_eq_zero_or_unbounded (ihUp hup) _

theorem isConditional_stage {n : Nest}
    (h : ∀ l ∈ n.leaves, l.stage.shape.isConditional = false) :
    n.stage.shape.isConditional = false := by
  induction n with
  | leaf l => exact h l (by simp [leaves])
  | join up down ihUp ihDown =>
    have hup := ihUp fun l hl => h l (by simp [leaves, hl])
    exact Shape.isConditional_andThen hup

/-- A conditional shape at the front of a nest is never downstream of a fusion. -/
theorem tight_of_tail {n : Nest}
    (h : ∀ l ∈ n.leaves.tail, l.stage.shape.isConditional = false) : n.Tight := by
  induction n with
  | leaf l => trivial
  | join up down ihUp ihDown =>
    rw [leaves, List.tail_append_of_ne_nil (leaves_ne_nil up)] at h
    have hdown : ∀ l ∈ down.leaves, l.stage.shape.isConditional = false :=
      fun l hl => h l (List.mem_append_right _ hl)
    refine ⟨ihUp fun l hl => h l (List.mem_append_left _ hl), ?_, isConditional_stage hdown⟩
    exact ihDown fun l hl => hdown l (List.mem_of_mem_tail hl)

end Nest

/-! ## Whole chains -/

namespace Grouped

variable {nests : List Nest} {links out : List Link}

theorem sequenceBound_out (h : Grouped nests links out) :
    Link.sequenceBound out = (nests.map (·.stage.bound)).prod := by
  rw [Link.sequenceBound_eq_prod, ← h.link_eq, List.map_map]
  rfl

theorem sequenceBound_links (h : Grouped nests links out) :
    Link.sequenceBound links = (nests.map Nest.declaredBound).prod := by
  rw [Link.sequenceBound_eq_prod, ← h.leaves_eq]
  clear h
  induction nests with
  | nil => rfl
  | cons n nests ih => simp [ih, Nest.declaredBound, Link.sequenceBound_eq_prod]

theorem sequenceBound_le (h : Grouped nests links out) :
    Link.sequenceBound links ≤ Link.sequenceBound out := by
  rw [h.sequenceBound_links, h.sequenceBound_out]
  exact List.prod_le_prod' fun n _ => n.declaredBound_le

theorem sequenceBound_eq_of_tight (h : Grouped nests links out) (htight : ∀ n ∈ nests, n.Tight) :
    Link.sequenceBound out = Link.sequenceBound links := by
  rw [h.sequenceBound_links, h.sequenceBound_out]
  congr 1
  exact List.map_congr_left fun n hn => (htight n hn).bound_eq

theorem sequenceBound_le_iff (h : Grouped nests links out) :
    Link.sequenceBound out ≤ Link.sequenceBound links ↔
      Link.sequenceBound links = .unbounded ∨ (∃ n ∈ nests, n.stage.bound = 0) ∨
        ∀ n ∈ nests, n.Tight := by
  constructor
  · intro hle
    by_contra hnone
    push Not at hnone
    obtain ⟨hfinite, hzero, n, hn, hloose⟩ := hnone
    -- a segment that is loose and not zero is unbounded, and so is the chain
    have hbound : n.stage.bound = .unbounded :=
      (Nest.bound_of_not_tight hloose).resolve_left (hzero n hn)
    have hout : Link.sequenceBound out = .unbounded := by
      rw [h.sequenceBound_out]
      apply Multiplicity.prod_eq_unbounded
      · exact List.mem_map.mpr ⟨n, hn, hbound⟩
      · intro hmem
        obtain ⟨m, hm, hm0⟩ := List.mem_map.mp hmem
        exact hzero m hm hm0
    rw [hout] at hle
    exact hfinite (Multiplicity.eq_unbounded_of_le hle)
  · rintro (hunbounded | ⟨n, hn, hzero⟩ | htight)
    · rw [hunbounded]
      exact Multiplicity.le_unbounded _
    · have hout : Link.sequenceBound out = 0 := by
        rw [h.sequenceBound_out]
        exact List.prod_eq_zero (List.mem_map.mpr ⟨n, hn, hzero⟩)
      rw [hout]
      exact Multiplicity.zero_le _
    · exact (h.sequenceBound_eq_of_tight htight).le

theorem tight_of_tail (h : Grouped nests links out)
    (hlinks : ∀ l ∈ links.tail, l.stage.shape.isConditional = false) : ∀ n ∈ nests, n.Tight := by
  rw [← h.leaves_eq] at hlinks
  cases nests with
  | nil => simp
  | cons first nests =>
    rw [List.flatMap_cons, List.tail_append_of_ne_nil first.leaves_ne_nil] at hlinks
    intro n hn
    apply Nest.tight_of_tail
    intro l hl
    apply hlinks
    rcases List.mem_cons.mp hn with rfl | hn
    · exact List.mem_append_left _ hl
    · exact List.mem_append_right _ (List.mem_flatMap.mpr ⟨n, hn, List.mem_of_mem_tail hl⟩)

end Grouped

/-- Fusing a chain does not lower its bound, whatever its stages declare. -/
theorem sequenceBound_le_bound {r : Registry} {links : List Link} {result : OptimizedChain}
    (h : (r.optimize links).outcome = .ok result) : Link.sequenceBound links ≤ result.bound := by
  obtain ⟨nests, hg⟩ := exists_grouped h
  exact hg.sequenceBound_le

/-- A stage has the shape and category that a registry has for the name of its link. -/
def Link.Declared (r : Registry) (l : Link) : Prop :=
  ∃ m, r.resolve l.name = some m ∧ l.stage.shape = m.shape ∧ l.stage.category = m.category

theorem declared_placeholders {r : Registry} {names : List String}
    (h : ∀ name ∈ names, (r.resolve name).isSome) :
    ∀ l ∈ placeholders r names, l.Declared r := by
  intro l hl
  obtain ⟨name, hname, rfl⟩ := List.mem_map.mp hl
  obtain ⟨m, hm⟩ := Option.isSome_iff_exists.mp (h name hname)
  exact ⟨m, hm, by simp [Service.stageFor, hm, Stage.shape, Usage.ofShape],
    by simp [Service.stageFor, hm]⟩

/-- **When fusing keeps the declared bound.** The segments are made of the original links, and the
bound of the fused chain is at or below that of the original one just if that was `unbounded`, or a
segment has bound zero, or nothing has been fused into a conditional shape downstream. In
particular, a chain with no conditional shape after its first link keeps its bound. -/
theorem bound_le_sequenceBound_iff {r : Registry} {links : List Link} {result : OptimizedChain}
    (h : (r.optimize links).outcome = .ok result) :
    (∃ nests, Grouped nests links result.links) ∧
    (∀ nests, Grouped nests links result.links →
      (result.bound ≤ Link.sequenceBound links ↔
        Link.sequenceBound links = .unbounded ∨ (∃ n ∈ nests, n.stage.bound = 0) ∨
          ∀ n ∈ nests, n.Tight)) ∧
    ((∀ l ∈ links.tail, l.stage.shape.isConditional = false) →
      result.bound = Link.sequenceBound links) := by
  refine ⟨exists_grouped h, ?_, ?_⟩
  · intro nests hg
    exact hg.sequenceBound_le_iff
  · intro hlinks
    obtain ⟨nests, hg⟩ := exists_grouped h
    exact hg.sequenceBound_eq_of_tight (hg.tight_of_tail hlinks)

/-- A rate limiter at the front is fused and keeps the bound. -/
theorem throttleTime_scan_keeps_bound : ∃ result,
    (Registry.builtin.optimize (placeholders .builtin ["throttleTime", "scan", "tap"])).outcome =
      .ok result ∧
    result.names = ["throttleTime+scan", "tap"] ∧
    result.bound =
      Link.sequenceBound (placeholders .builtin ["throttleTime", "scan", "tap"]) := by
  obtain ⟨result, h, hnames⟩ := exists_ok_of_toOption_map (f := OptimizedChain.names)
    (x := (Registry.builtin.optimize
      (placeholders .builtin ["throttleTime", "scan", "tap"])).outcome)
    (b := ["throttleTime+scan", "tap"]) (by decide +kernel)
  exact ⟨result, h, hnames, (bound_le_sequenceBound_iff h).2.2 (by decide +kernel)⟩

/-- A rate limiter after `scan` is fused into it, and the bound of one run is lost. -/
theorem scan_throttleTime_loses_bound : ∃ result,
    (Registry.builtin.optimize (placeholders .builtin ["scan", "throttleTime"])).outcome =
      .ok result ∧
    (∀ l ∈ placeholders .builtin ["scan", "throttleTime"], l.Declared .builtin) ∧
    Link.sequenceBound (placeholders .builtin ["scan", "throttleTime"]) = exact 1 ∧
    ¬ result.bound ≤ Link.sequenceBound (placeholders .builtin ["scan", "throttleTime"]) := by
  obtain ⟨result, h, hbound⟩ := exists_ok_of_toOption_map (f := OptimizedChain.bound)
    (x := (Registry.builtin.optimize (placeholders .builtin ["scan", "throttleTime"])).outcome)
    (b := .unbounded) (by decide +kernel)
  refine ⟨result, h, declared_placeholders (by decide +kernel), by decide +kernel, ?_⟩
  rw [hbound]
  decide +kernel

end StageFusion
