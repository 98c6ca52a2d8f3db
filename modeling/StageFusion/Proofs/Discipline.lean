import StageFusion.Proofs.Blocks
import StageFusion.Proofs.Rules

/-! The order of categories in a segment.

The rules see the joined category and the folded shape of a segment. The category is read back to the
links without loss: a segment is stateless just if all of its links are (`Nest.stateless_iff`), and
effectful just if one of them is (`Nest.effectful_iff`). The shape is read back where it matters, at a
stateless segment that runs exactly once. Each fusion in it had a constant count upstream, so no count
has been lost or repeated, and all of its links run exactly once (`Nest.Allowed.once_leaves`). -/

namespace StageFusion

open Service (placeholders)

namespace Category

theorem join_eq_stateless_iff {a b : Category} :
    a.join b = .stateless ↔ a = .stateless ∧ b = .stateless := by
  cases a <;> cases b <;> decide

theorem join_eq_effectful_iff {a b : Category} :
    a.join b = .effectful ↔ a = .effectful ∨ b = .effectful := by
  cases a <;> cases b <;> decide

end Category

namespace Registry

def category? (r : Registry) (name : String) : Option Category :=
  (r.resolve name).map (·.category)

def shape? (r : Registry) (name : String) : Option Shape :=
  (r.resolve name).map (·.shape)

/-- A whole that runs exactly once, behind a constant count, has parts that run exactly once. -/
theorem once_parts {r : Registry} {up down : String} {a b whole : Operator}
    (hup : r.resolve up = some a) (hdown : r.resolve down = some b)
    (hwhole : r.resolve (fusedName up down) = some whole) (hconstant : a.shape.isConstant = true)
    (honce : whole.shape = .constant 1) : a.shape = .constant 1 ∧ b.shape = .constant 1 := by
  obtain ⟨first, rest, _, rfl, hfold⟩ := exists_resolve_fusedName hup hdown
  obtain rfl : (first :: rest).foldl Operator.andThen a = whole :=
    Option.some.inj (hfold.symm.trans hwhole)
  have hbound : a.bound * (first.shape.factor * (rest.map (·.shape.factor)).prod) = 1 := by
    calc a.bound * (first.shape.factor * (rest.map (·.shape.factor)).prod)
        = ((first :: rest).foldl Operator.andThen a).bound :=
          (Operator.bound_foldl_andThen a (first :: rest)).symm
      _ = 1 := by rw [Operator.bound, honce]; rfl
  obtain ⟨ha, hproduct⟩ := Multiplicity.mul_eq_one_iff.mp hbound
  obtain ⟨hfirst, hrest⟩ := Multiplicity.mul_eq_one_iff.mp hproduct
  constructor
  · rw [← Shape.factor_eq_one_iff,
      Shape.factor_eq_bound (Operator.isConditional_of_isConstant hconstant)]
    exact ha
  · have hreduced : first.shape.Reduced := by
      rw [Shape.factor_eq_one_iff.mp hfirst]
      trivial
    rw [← Shape.factor_eq_one_iff, Operator.factor_foldl_andThen hreduced, hfirst, hrest, mul_one]

end Registry

namespace Nest

variable {r : Registry} {n : Nest} {m : Operator}

theorem stateless_iff (hm : r.resolve n.link.name = some m) :
    m.category = .stateless ↔ ∀ l ∈ n.leaves, r.category? l.name = some .stateless := by
  induction n generalizing m with
  | leaf l =>
    have hl : r.category? l.name = some m.category := congrArg (Option.map _) hm
    simp [leaves, hl]
  | join up down ihUp ihDown =>
    obtain ⟨a, b, ha, hb, hj⟩ := Registry.joined_of_resolve hm
    rw [hj.category, Category.join_eq_stateless_iff, ihUp ha, ihDown hb, leaves,
      List.forall_mem_append]

theorem effectful_iff (hm : r.resolve n.link.name = some m) :
    m.category = .effectful ↔ ∃ l ∈ n.leaves, r.category? l.name = some .effectful := by
  induction n generalizing m with
  | leaf l =>
    have hl : r.category? l.name = some m.category := congrArg (Option.map _) hm
    simp [leaves, hl]
  | join up down ihUp ihDown =>
    obtain ⟨a, b, ha, hb, hj⟩ := Registry.joined_of_resolve hm
    rw [hj.category, Category.join_eq_effectful_iff, ihUp ha, ihDown hb, leaves]
    simp only [List.mem_append, or_and_right, exists_or]

/-- A stateless segment that runs exactly once is made of links that do. -/
theorem Allowed.once_leaves (h : n.Allowed r) (hm : r.resolve n.link.name = some m)
    (hstateless : m.category = .stateless) (honce : m.shape = .constant 1) :
    ∀ l ∈ n.leaves, r.shape? l.name = some (.constant 1) := by
  induction n generalizing m with
  | leaf l =>
    have hl : r.shape? l.name = some m.shape := congrArg (Option.map _) hm
    rw [honce] at hl
    exact List.forall_mem_singleton.mpr hl
  | join up down ihUp ihDown =>
    obtain ⟨hup, hdown, hallows⟩ := h
    obtain ⟨a, b, ha, hb, hfusible⟩ := Registry.allows_iff.mp hallows
    obtain ⟨whole, hwhole, hj⟩ := Registry.exists_joined ha hb
    obtain rfl : whole = m := Option.some.inj (hwhole.symm.trans hm)
    rw [hj.category, Category.join_eq_stateless_iff] at hstateless
    have hconstant : a.shape.isConstant = true := hfusible.isConstant_up (by simp [hstateless.1])
    obtain ⟨honceUp, honceDown⟩ := Registry.once_parts ha hb hwhole hconstant honce
    rw [leaves, List.forall_mem_append]
    exact ⟨ihUp hup ha hstateless.1 honceUp, ihDown hdown hb hstateless.2 honceDown⟩

/-- Behind an effectful link all links are stateless. -/
theorem Allowed.pairwise_leaves (h : n.Allowed r) : n.leaves.Pairwise fun a b =>
    r.category? a.name = some .effectful → r.category? b.name = some .stateless := by
  induction n with
  | leaf l => exact List.pairwise_singleton _ l
  | join up down ihUp ihDown =>
    obtain ⟨hup, hdown, hallows⟩ := h
    obtain ⟨a, b, ha, hb, hfusible⟩ := Registry.allows_iff.mp hallows
    have hcross : ∀ x ∈ up.leaves, ∀ y ∈ down.leaves,
        r.category? x.name = some .effectful → r.category? y.name = some .stateless := by
      intro x hx y hy heffectful
      have hupstream : a.category = .effectful := (effectful_iff ha).mpr ⟨x, hx, heffectful⟩
      exact (stateless_iff hb).mp (hfusible.stateless_down hupstream) y hy
    exact List.pairwise_append.mpr ⟨ihUp hup, ihDown hdown, hcross⟩

/-- Stateless links before the first link of another category run exactly once. -/
theorem Allowed.once_before (h : n.Allowed r) : ∀ {before after : List Link} {l : Link},
    n.leaves = before ++ l :: after → r.category? l.name ≠ some .stateless →
    (∀ x ∈ before, r.category? x.name = some .stateless) →
    ∀ x ∈ before, r.shape? x.name = some (.constant 1) := by
  induction n with
  | leaf l =>
    intro before after l' hsplit _ _
    cases before with
    | nil => exact List.forall_mem_nil _
    | cons x before => simp [leaves] at hsplit
  | join up down ihUp ihDown =>
    intro before after l hsplit hl hbefore
    obtain ⟨hup, hdown, hallows⟩ := h
    obtain ⟨a, b, ha, hb, hfusible⟩ := Registry.allows_iff.mp hallows
    -- with the link downstream, the whole upstream side is stateless and runs exactly once
    have hdownstream : ∀ front, down.leaves = front ++ l :: after →
        before = up.leaves ++ front → ∀ x ∈ before, r.shape? x.name = some (.constant 1) := by
      rintro front hfront rfl
      obtain ⟨hstateless, hfrontStateless⟩ := List.forall_mem_append.mp hbefore
      have hmem : l ∈ down.leaves := by simp [hfront]
      have hother : b.category ≠ .stateless := fun hb' => hl ((stateless_iff hb).mp hb' l hmem)
      have hcategory : a.category = .stateless := (stateless_iff ha).mpr hstateless
      have honce : a.shape = .constant 1 := hfusible.once_up hcategory hother
      exact List.forall_mem_append.mpr
        ⟨hup.once_leaves ha hcategory honce, ihDown hdown hfront hl hfrontStateless⟩
    rcases List.append_eq_append_iff.mp hsplit with ⟨front, hfront, hrest⟩ | ⟨back, hback, hrest⟩
    · exact hdownstream front hrest hfront
    · cases back with
      | nil => exact hdownstream [] hrest.symm (by simpa using hback.symm)
      | cons x back =>
        obtain ⟨rfl, _⟩ := List.cons_eq_cons.mp hrest
        exact ihUp hup hback hl hbefore

end Nest

/-- **Segments keep an order of categories.** Behind an effectful link of a segment there are only
stateless links. If only stateless links stand before a stateful or effectful link of a segment, every
one of them runs exactly once. -/
theorem optimize_orders_categories {r : Registry} {links : List Link} {result : OptimizedChain}
    (h : (r.optimize links).outcome = .ok result) :
    (∃ nests, Grouped nests links result.links) ∧
    ∀ nests, Grouped nests links result.links → ∀ n ∈ nests,
      (n.leaves.Pairwise fun a b =>
        r.category? a.name = some .effectful → r.category? b.name = some .stateless) ∧
      ∀ before l after, n.leaves = before ++ l :: after →
        r.category? l.name = some .stateful ∨ r.category? l.name = some .effectful →
        (∀ x ∈ before, r.category? x.name = some .stateless) →
        ∀ x ∈ before, r.shape? x.name = some (.constant 1) := by
  refine ⟨exists_grouped h, fun nests hg n hn => ?_⟩
  obtain ⟨run, hallowed, hleaves⟩ := exists_allowed_of_grouped h hg n hn
  rw [← hleaves]
  refine ⟨hallowed.pairwise_leaves, ?_⟩
  intro before l after hsplit hl hbefore
  have hother : r.category? l.name ≠ some .stateless := by
    rcases hl with hl | hl <;> simp [hl]
  exact hallowed.once_before hsplit hother hbefore

/-- An effect in the middle of a segment: before it links that run exactly once, behind it stateless
ones. -/
theorem map_filter_tap_map_pluck_in_order : ∃ result,
    (Registry.builtin.optimize (placeholders .builtin
      ["map", "filter", "tap", "map", "pluck"])).outcome = .ok result ∧
    result.names = ["map+filter+tap+map+pluck"] ∧
    ∀ nests, Grouped nests (placeholders .builtin ["map", "filter", "tap", "map", "pluck"])
        result.links → ∀ n ∈ nests,
      (n.leaves.Pairwise fun a b => Registry.builtin.category? a.name = some .effectful →
        Registry.builtin.category? b.name = some .stateless) ∧
      ∀ before l after, n.leaves = before ++ l :: after →
        Registry.builtin.category? l.name = some .stateful ∨
          Registry.builtin.category? l.name = some .effectful →
        (∀ x ∈ before, Registry.builtin.category? x.name = some .stateless) →
        ∀ x ∈ before, Registry.builtin.shape? x.name = some (.constant 1) := by
  obtain ⟨result, h, hnames⟩ := exists_ok_of_toOption_map (f := OptimizedChain.names)
    (x := (Registry.builtin.optimize (placeholders .builtin
      ["map", "filter", "tap", "map", "pluck"])).outcome)
    (b := ["map+filter+tap+map+pluck"]) (by decide +kernel)
  exact ⟨result, h, hnames, (optimize_orders_categories h).2⟩

end StageFusion
