import StageFusion.Proofs.Blocks
import StageFusion.Proofs.Rules

/-! Nothing is fused behind an operator without a finite bound.

The rules look at the record of a whole segment, which has been folded from the records of its parts.
If every operator of a registry may run (`Registry.Live`), no factor of the fold is zero, and a bound
that is not finite makes every longer fold so as well: the record of a fused name has a finite bound
only if the records of both parts have one (`Registry.isFinite_parts`). So a segment that may take in
something consists of links with finite bounds (`Nest.isFinite_leaves`).

A zero absorbs what comes after it, so the condition on the registry cannot be left out: behind an
operator that never runs an unbounded one counts as zero, and is fused like any other. -/

namespace StageFusion

open Service (placeholders)

theorem Multiplicity.isFinite_of_le {a b : Multiplicity} (hle : a ≤ b) (hb : b.isFinite = true) :
    a.isFinite = true := by
  cases a with
  | exact n => rfl
  | unbounded =>
    rw [eq_unbounded_of_le hle] at hb
    exact hb

namespace Operator

variable {a : Operator} {ms : List Operator}

theorem factor_ne_zero (h : a.bound ≠ 0) : a.shape.factor ≠ 0 := by
  intro hfactor
  have hle := Shape.bound_le_factor a.shape
  rw [hfactor] at hle
  exact h (hle.antisymm (Multiplicity.zero_le _))

theorem prod_factor_ne_zero (h : ∀ m ∈ ms, m.bound ≠ 0) : (ms.map (·.shape.factor)).prod ≠ 0 := by
  intro hprod
  obtain ⟨m, hm, hfactor⟩ := List.mem_map.mp (List.prod_eq_zero_iff.mp hprod)
  exact factor_ne_zero (h m hm) hfactor

theorem isFinite_foldl_andThen (ha : a.bound ≠ 0) (h : ∀ m ∈ ms, m.bound ≠ 0) :
    (ms.foldl andThen a).bound.isFinite = true ↔
      a.bound.isFinite = true ∧ (ms.map fun m : Operator => m.shape.factor).prod.isFinite = true := by
  rw [bound_foldl_andThen]
  exact Multiplicity.isFinite_mul_iff ha (prod_factor_ne_zero h)

end Operator

namespace Registry

/-- No operator of the registry has bound zero. -/
def Live (r : Registry) : Prop :=
  ∀ m ∈ r.operators, m.bound ≠ 0

instance (r : Registry) : Decidable r.Live :=
  inferInstanceAs (Decidable (∀ m ∈ r.operators, m.bound ≠ 0))

variable {r : Registry}

theorem Live.bound_ne_zero (hr : r.Live) {name : String} {m : Operator}
    (h : r.resolve name = some m) : m.bound ≠ 0 := by
  obtain ⟨first, rest, hms, rfl⟩ := resolve_eq_some_iff.mp h
  have hmem : ∀ m ∈ first :: rest, m ∈ r.operators :=
    forall_mem_of_mapM (fun _ _ => List.mem_of_find?_eq_some) hms
  have hfirst : first.bound ≠ 0 := hr first (hmem first List.mem_cons_self)
  have hrest : ∀ m ∈ rest, m.bound ≠ 0 := fun m hm => hr m (hmem m (List.mem_cons_of_mem _ hm))
  rw [Operator.bound_foldl_andThen]
  exact mul_ne_zero hfirst (Operator.prod_factor_ne_zero hrest)

/-- Only finite parts make a finite whole. -/
theorem isFinite_parts (hr : r.Live) {up down : String} {a b whole : Operator}
    (hup : r.resolve up = some a) (hdown : r.resolve down = some b)
    (hwhole : r.resolve (fusedName up down) = some whole) (hfinite : whole.bound.isFinite = true) :
    a.bound.isFinite = true ∧ b.bound.isFinite = true := by
  obtain ⟨first, rest, hmem, rfl, hfold⟩ := exists_resolve_fusedName hup hdown
  have hlive : ∀ m ∈ first :: rest, m.bound ≠ 0 := fun m hm => hr m (hmem m hm)
  obtain ⟨hfirst, hrest⟩ := List.forall_mem_cons.mp hlive
  -- the whole is a fold from the record of the first part over all components of the second
  obtain rfl : (first :: rest).foldl Operator.andThen a = whole :=
    Option.some.inj (hfold.symm.trans hwhole)
  obtain ⟨hfiniteUp, hfactors⟩ :=
    (Operator.isFinite_foldl_andThen (hr.bound_ne_zero hup) hlive).mp hfinite
  rw [List.map_cons, List.prod_cons, Multiplicity.isFinite_mul_iff (Operator.factor_ne_zero hfirst)
    (Operator.prod_factor_ne_zero hrest)] at hfactors
  have hbound : first.bound.isFinite = true :=
    Multiplicity.isFinite_of_le (Shape.bound_le_factor _) hfactors.1
  exact ⟨hfiniteUp, (Operator.isFinite_foldl_andThen hfirst hrest).mpr ⟨hbound, hfactors.2⟩⟩

end Registry

namespace Nest

variable {r : Registry} {n : Nest}

theorem isFinite_leaves (hr : r.Live) {m : Operator} (hm : r.resolve n.link.name = some m)
    (hfinite : m.bound.isFinite = true) :
    ∀ l ∈ n.leaves, ∃ k, r.resolve l.name = some k ∧ k.bound.isFinite = true := by
  induction n generalizing m with
  | leaf l => exact List.forall_mem_singleton.mpr ⟨m, hm, hfinite⟩
  | join up down ihUp ihDown =>
    obtain ⟨a, b, ha, hb, _⟩ := Registry.joined_of_resolve hm
    obtain ⟨hup, hdown⟩ := Registry.isFinite_parts hr ha hb hm hfinite
    rw [leaves, List.forall_mem_append]
    exact ⟨ihUp ha hup, ihDown hb hdown⟩

theorem Allowed.isFinite_dropLast (hr : r.Live) (h : n.Allowed r) :
    ∀ l ∈ n.leaves.dropLast, ∃ k, r.resolve l.name = some k ∧ k.bound.isFinite = true := by
  induction n with
  | leaf l =>
    intro l' hl'
    cases hl'
  | join up down _ ihDown =>
    obtain ⟨_, hdown, hallows⟩ := h
    obtain ⟨a, _, ha, _, hfusible⟩ := Registry.allows_iff.mp hallows
    -- the rules want a finite bound of the whole upstream side, and so of all its links
    rw [leaves, List.dropLast_append_of_ne_nil down.leaves_ne_nil, List.forall_mem_append]
    exact ⟨isFinite_leaves hr ha hfusible.isFinite_up, ihDown hdown⟩

end Nest

/-- **Operators without a finite bound are barriers.** If every operator of the registry may run, each
link of a segment but its last has a name with a finite bound. So a link whose name stands for an
unbounded or data-dependent shape is the last of its segment. -/
theorem optimize_stops_at_barriers {r : Registry} {links : List Link} {result : OptimizedChain}
    (hr : r.Live) (h : (r.optimize links).outcome = .ok result) :
    (∃ nests, Grouped nests links result.links) ∧
    ∀ nests, Grouped nests links result.links → ∀ n ∈ nests,
      (∀ l ∈ n.leaves.dropLast, ∃ m, r.resolve l.name = some m ∧ m.bound.isFinite = true) ∧
      ∀ before l after m, n.leaves = before ++ l :: after → r.resolve l.name = some m →
        m.shape = .unbounded ∨ m.shape = .dataDependent → after = [] := by
  refine ⟨exists_grouped h, fun nests hg n hn => ?_⟩
  obtain ⟨run, hallowed, hleaves⟩ := exists_allowed_of_grouped h hg n hn
  have hfinite := hallowed.isFinite_dropLast hr
  rw [hleaves] at hfinite
  refine ⟨hfinite, ?_⟩
  intro before l after m hsplit hm hshape
  by_contra hafter
  have hl : l ∈ n.leaves.dropLast := by
    rw [hsplit, List.dropLast_append_of_ne_nil (List.cons_ne_nil _ _),
      List.dropLast_cons_of_ne_nil hafter]
    simp
  obtain ⟨k, hk, hbound⟩ := hfinite l hl
  obtain rfl : m = k := Option.some.inj (hm.symm.trans hk)
  rw [Operator.bound] at hbound
  rcases hshape with hshape | hshape
  · rw [hshape] at hbound
    cases hbound
  · rw [hshape] at hbound
    cases hbound

theorem Registry.live_builtin : Registry.builtin.Live := by
  decide +kernel

/-- A composite link without a bound ends its segment; a rate limiter ends one as well, since its
bound is lost where it is fused. -/
theorem filter_mapFlatMap_scan_throttleTime_map_stops : ∃ result,
    (Registry.builtin.optimize (placeholders .builtin
      ["filter", "map+flatMap", "scan", "throttleTime", "map"])).outcome = .ok result ∧
    result.names = ["filter+map+flatMap", "scan+throttleTime", "map"] ∧
    Registry.builtin.Live ∧
    ∀ nests, Grouped nests (placeholders .builtin
        ["filter", "map+flatMap", "scan", "throttleTime", "map"]) result.links →
      ∀ n ∈ nests, ∀ l ∈ n.leaves.dropLast,
        ∃ m, Registry.builtin.resolve l.name = some m ∧ m.bound.isFinite = true := by
  obtain ⟨result, h, hnames⟩ := exists_ok_of_toOption_map (f := OptimizedChain.names)
    (x := (Registry.builtin.optimize (placeholders .builtin
      ["filter", "map+flatMap", "scan", "throttleTime", "map"])).outcome)
    (b := ["filter+map+flatMap", "scan+throttleTime", "map"]) (by decide +kernel)
  obtain ⟨_, hstops⟩ := optimize_stops_at_barriers Registry.live_builtin h
  exact ⟨result, h, hnames, Registry.live_builtin, fun nests hg n hn => (hstops nests hg n hn).1⟩

/-- The builtin operators and one that never runs. -/
def Registry.withMute : Registry :=
  Registry.builtin.put ⟨"mute", .stateless, .constant 0⟩ (by decide)

/-- Behind it an unbounded operator is no barrier. -/
example : (Registry.withMute.optimize
    (placeholders .withMute ["mute", "flatMap", "map"])).outcome.toOption.map (·.names) =
      some ["mute+flatMap+map"] := by
  decide +kernel

end StageFusion
