import StageFusion.Proofs.BasicShapes
import StageFusion.Proofs.Blocks
import StageFusion.Proofs.Rules
import StageFusion.Stage.Reference

/-! What chains of reference stages declare, against the builtin records of their names.

The stages and the records are written down apart, and verdicts are read off the records while bounds
are read off the stages. They agree for every reference stage but one: a `take` declares its count, and
its record says that the usage depends on the data. So a `take` ends its segment, whatever its count
is, and nothing but stateless operators that run once can stand before it there (`Limited`). Every
other segment declares exactly what its record does (`Agrees`). -/

namespace StageFusion

/-! ## Runs whose reductions are one -/

section

variable {r : Registry} {P : Link → Prop} {iteration : Nat} {chain out : List Link}
  {p q : Progress} {e : Fault}

theorem SweptChain.reductions_eq_one
    (hjoin : ∀ a b, r.Allows a.name b.name → P a → P b → P (a.join b))
    (hone : ∀ a b v, P a → P b → r.Reduces v a b → v = 1)
    (h : SweptChain r iteration chain p q out) (hchain : ∀ l ∈ chain, P l)
    (hp : ∀ v ∈ p.stats.reductions, v = 1) : ∀ v ∈ q.stats.reductions, v = 1 := by
  intro v hv
  rcases h.mem_reductions_iff.mp hv with hv | ⟨a, b, htries, hreduces⟩
  · exact hp v hv
  · have hrun : RunTries r a b 0 chain {} := .here htries
    obtain ⟨ha, hb⟩ := hrun.forall_mem hjoin hchain
    exact hone a b v ha hb hreduces

/-- If every fusion reduces the bound by one, no average is out of range. -/
theorem Interrupted.eq_numeralWritten
    (hjoin : ∀ a b, r.Allows a.name b.name → P a → P b → P (a.join b))
    (hone : ∀ a b v, P a → P b → r.Reduces v a b → v = 1)
    (h : Interrupted r iteration chain p e) :
    (∀ l ∈ chain, P l) → (∀ v ∈ p.stats.reductions, v = 1) → e = .numeralWritten := by
  induction h with
  | @here iteration first rest p e broken =>
    intro hchain hp
    obtain @⟨before, after, sealedLinks, last, next, q, rfl, swept, breaks⟩ := broken
    cases breaks with
    | reason => rfl
    | @average reduction allowed finite range =>
      rw [← List.cons_append, List.forall_mem_append] at hchain
      obtain ⟨hbefore, hafter⟩ := hchain
      have hnext : P next := hafter next List.mem_cons_self
      have hswept := SweptChain.cons swept
      have hlast : P last := hswept.forall_mem hjoin hbefore last (by simp)
      have hall : ∀ v ∈ q.stats.reductions ++ [reduction], v = 1 := by
        rw [List.forall_mem_append, List.forall_mem_singleton]
        exact ⟨hswept.reductions_eq_one hjoin hone hbefore hp,
          hone last next reduction hlast hnext ⟨allowed, finite⟩⟩
      rw [Stats.mean?_eq_one hall (by simp)] at range
      cases range
  | later swept moved tail ih =>
    intro hchain hp
    exact ih (swept.forall_mem hjoin hchain) (swept.reductions_eq_one hjoin hone hchain hp)

/-- Over modest operators, a run in which every fusion reduces the bound by one returns. -/
theorem Registry.Modest.exists_optimize_of_reductions (hr : r.Modest) {links : List Link}
    (hjoin : ∀ a b, r.Allows a.name b.name → P a → P b → P (a.join b))
    (hone : ∀ a b v, P a → P b → r.Reduces v a b → v = 1) (hlinks : ∀ l ∈ links, P l) :
    ∃ result, (r.optimize links).outcome = .ok result := by
  cases h : (r.optimize links).outcome with
  | ok result => exact ⟨result, rfl⟩
  | error e =>
    obtain rfl : e = .numeralWritten :=
      (outcome_optimize_eq_error_iff.mp h).eq_numeralWritten hjoin hone hlinks (by simp)
    cases needs_of_optimize h with
    | numeral large =>
      have hsmall : 1 < numeralBound := by decide +kernel
      rw [hr.prod_weight] at large
      exact absurd large (not_le.mpr hsmall)

end

/-! ## Reference stages and their records -/

namespace Link

/-- A stage under its own name. -/
def own (s : Stage) : Link :=
  ⟨s, s.name⟩

/-- A reference stage, with any functions and any count, under its own name. -/
inductive IsReference : Link → Prop
  | map (f : Value → Logged Value Value) : IsReference (own (.map f))
  | filter (condition : Value → Logged Value Bool) : IsReference (own (.filter condition))
  | scan (initial : Value) (reduce : Value → Value → Logged Value Value) :
    IsReference (own (.scan initial reduce))
  | take (count : Nat) : IsReference (own (.take count))
  | flatMap (f : Value → Logged Value Value) : IsReference (own (.flatMap f))
  | tap (effect : Value → Logged Value Unit) : IsReference (own (.tap effect))

/-- A segment without a `take` declares what the record of its name does. -/
structure Agrees (block : List Link) (l : Link) (m : Operator) : Prop where
  known : Registry.builtin.resolve l.name = some m
  category : l.stage.category = m.category
  shape : l.stage.shape = m.shape
  untaken : ∀ b ∈ block, b.name ≠ "take"
  ne_nil : block ≠ []

/-- A segment that ends with a `take` declares its count, and the record of its name has no finite
bound: that of the `take` alone depends on the data, and that of a longer segment is unbounded. -/
structure Limited (before : List Link) (count : Nat) (l : Link) (m : Operator) : Prop where
  known : Registry.builtin.resolve l.name = some m
  category : l.stage.category = .stateful
  record_category : m.category = .stateful
  shape : l.stage.shape = .constant count
  record_shape : m.shape = if before = [] then .dataDependent else .unbounded
  untaken : ∀ b ∈ before, b.name ≠ "take"

/-- What a segment made of a block of links declares, against the record of its name. -/
inductive Declares : List Link → Link → Prop
  | agreed {block : List Link} {l : Link} {m : Operator} (agrees : Agrees block l m) :
    Declares block l
  | limited {before : List Link} {count : Nat} {l : Link} {m : Operator}
    (limited : Limited before count l m) : Declares (before ++ [own (.take count)]) l

theorem Agrees.own {s : Stage} (m : Operator) (name : s.name = m.name)
    (known : Registry.builtin.resolve m.name = some m) (category : s.category = m.category)
    (shape : s.shape = m.shape) (untaken : m.name ≠ "take") : Agrees [.own s] (.own s) m where
  known := by
    rw [← known, ← name]
    rfl
  category := category
  shape := shape
  untaken := by
    rw [List.forall_mem_singleton]
    exact fun h => untaken (name.symm.trans h)
  ne_nil := List.cons_ne_nil _ _

theorem IsReference.declares {l : Link} (h : l.IsReference) : Declares [l] l := by
  cases h with
  | map f =>
    exact .agreed (.own ⟨"map", .stateless, .constant 1⟩ rfl (by decide +kernel) rfl rfl (by decide))
  | filter condition =>
    exact .agreed
      (.own ⟨"filter", .stateless, .constant 1⟩ rfl (by decide +kernel) rfl rfl (by decide))
  | scan initial reduce =>
    exact .agreed (.own ⟨"scan", .stateful, .constant 1⟩ rfl (by decide +kernel) rfl rfl (by decide))
  | take count =>
    have known : Registry.builtin.resolve "take" = some ⟨"take", .stateful, .dataDependent⟩ := by
      decide +kernel
    have limited : Limited [] count (own (.take count)) ⟨"take", .stateful, .dataDependent⟩ :=
      ⟨known, rfl, rfl, rfl, rfl, by simp⟩
    exact .limited limited
  | flatMap f =>
    exact .agreed
      (.own ⟨"flatMap", .stateless, .unbounded⟩ rfl (by decide +kernel) rfl rfl (by decide))
  | tap effect =>
    exact .agreed (.own ⟨"tap", .effectful, .constant 1⟩ rfl (by decide +kernel) rfl rfl (by decide))

/-! ## What joining keeps -/

variable {up down before : List Link} {a b : Link} {m k : Operator} {count : Nat}

theorem Agrees.faithful (h : Agrees up a m) : a.Faithful .builtin := by
  intro n hn
  obtain rfl : m = n := Option.some.inj (h.known.symm.trans hn)
  exact ⟨h.shape, h.category⟩

theorem Agrees.basic (h : Agrees up a m) : a.Basic := by
  rw [Basic, h.shape]
  exact Registry.basic_builtin.shape_of_resolve h.known

theorem Limited.isFinite_eq_false (h : Limited before count a m) : m.bound.isFinite = false := by
  rw [Operator.bound, h.record_shape]
  split
  · rfl
  · rfl

/-- Nothing is fused behind a `take`. -/
theorem Limited.not_fusible (h : Limited before count a m) : ¬ m.Fusible k :=
  fun hfusible => Bool.false_ne_true (h.isFinite_eq_false.symm.trans hfusible.isFinite_up)

/-- Only what is stateless and runs once is fused with a `take` behind it. -/
theorem Limited.once_up (h : Limited before count b k) (hfusible : m.Fusible k) :
    m.category = .stateless ∧ m.shape = .constant 1 := by
  cases hfusible with
  | identity category shape => exact ⟨category, shape⟩
  | intoStateless _ category => simp [h.record_category] at category
  | stateful _ _ _ downFinite => simp [h.isFinite_eq_false] at downFinite

theorem Declares.agrees (h : Declares up a) (known : Registry.builtin.resolve a.name = some m)
    (hfusible : m.Fusible k) : Agrees up a m := by
  cases h with
  | @agreed _ _ m' agrees =>
    obtain rfl : m' = m := Option.some.inj (agrees.known.symm.trans known)
    exact agrees
  | @limited _ _ _ m' limited =>
    obtain rfl : m' = m := Option.some.inj (limited.known.symm.trans known)
    exact absurd hfusible limited.not_fusible

theorem Declares.join (ha : Declares up a) (hb : Declares down b)
    (h : Registry.builtin.Allows a.name b.name) : Declares (up ++ down) (a.join b) := by
  obtain ⟨m, k, hm, hk, hfusible⟩ := Registry.allows_iff.mp h
  have hup := ha.agrees hm hfusible
  have hknown : Registry.builtin.resolve (a.join b).name = some (m.andThen k) :=
    Registry.resolve_fusedName Registry.reduced_builtin hm hk
  cases hb with
  | @agreed _ _ k' hdown =>
    obtain ⟨hshape, hcategory⟩ :=
      hup.faithful.join Registry.reduced_builtin hdown.faithful _ hknown
    exact .agreed ⟨hknown, hcategory, hshape,
      List.forall_mem_append.mpr ⟨hup.untaken, hdown.untaken⟩,
      List.append_ne_nil_of_left_ne_nil hup.ne_nil _⟩
  | @limited before count _ k' hdown =>
    obtain rfl : k' = k := Option.some.inj (hdown.known.symm.trans hk)
    obtain ⟨hstateless, honce⟩ := hdown.once_up hfusible
    rw [← List.append_assoc]
    exact .limited {
      known := hknown
      category := by
        calc (a.join b).stage.category
            = a.stage.category.join b.stage.category := rfl
          _ = .stateful := by rw [hup.category, hstateless, hdown.category]; rfl
      record_category := by
        rw [Operator.andThen, hstateless, hdown.record_category]
        rfl
      shape := by
        calc (a.join b).stage.shape
            = a.stage.shape.andThen b.stage.shape := rfl
          _ = Shape.ofBound (1 * .exact count) := by rw [hup.shape, honce, hdown.shape]; rfl
          _ = .constant count := by rw [one_mul]; rfl
      record_shape := by
        rw [if_neg (List.append_ne_nil_of_left_ne_nil hup.ne_nil _), Operator.andThen, honce,
          hdown.record_shape]
        split
        · rfl
        · rfl
      untaken := List.forall_mem_append.mpr ⟨hup.untaken, hdown.untaken⟩ }

/-- A fusion of segments reduces the bound by one: both run once, or the second one is limited and its
count is kept. -/
theorem Declares.reduction_eq_one (ha : Declares up a) (hb : Declares down b) {v : Int}
    (h : Registry.builtin.Reduces v a b) : v = 1 := by
  obtain ⟨m, k, hm, hk, hfusible⟩ := Registry.allows_iff.mp h.allowed
  have hup := ha.agrees hm hfusible
  cases hb with
  | agreed hdown =>
    exact Stats.reduction_eq_one hup.basic.oneOrNone_bound hdown.basic.oneOrNone_bound
      (hup.basic.oneOrNone_joinBound hdown.basic) h.finite
  | @limited _ count _ k' hdown =>
    obtain rfl : k' = k := Option.some.inj (hdown.known.symm.trans hk)
    obtain ⟨-, honce⟩ := hdown.once_up hfusible
    have hfinite := h.finite
    have haBound : a.stage.bound = .exact 1 := by rw [Stage.bound, hup.shape, honce]; rfl
    have hbBound : b.stage.bound = .exact count := by rw [Stage.bound, hdown.shape]; rfl
    have hjoinBound : a.joinBound b = .exact count := by
      calc a.joinBound b
          = a.stage.bound * b.stage.shape.factor := rfl
        _ = 1 * .exact count := by rw [haBound, hdown.shape]; rfl
        _ = .exact count := one_mul _
    rw [haBound, hbBound, hjoinBound] at hfinite
    obtain rfl : (1 : Int) + count - count = v := Option.some.inj hfinite
    omega

end Link

theorem Nest.Allowed.declares {n : Nest} (h : n.Allowed .builtin)
    (hleaves : ∀ l ∈ n.leaves, l.IsReference) : Link.Declares n.leaves n.link := by
  induction n with
  | leaf l => exact (hleaves l (List.mem_singleton_self l)).declares
  | join up down ihUp ihDown =>
    obtain ⟨hup, hdown, hallows⟩ := h
    rw [leaves, List.forall_mem_append] at hleaves
    exact (ihUp hup hleaves.1).join (ihDown hdown hleaves.2) hallows

/-- **What chains of reference stages declare.** Every chain of reference stages under their own names,
with any functions and counts, has a run over the builtin operators that returns. The links of the
result are made of the blocks of a cut through the chain. A link of a block without a `take` has the
category and the shape of the record of its name. A `take` is the last of its block, and its link has
the category of the record but declares the count, where the record has no finite bound. -/
theorem optimize_references {links : List Link} (hlinks : ∀ l ∈ links, l.IsReference) :
    ∃ result blocks, (Registry.builtin.optimize links).outcome = .ok result ∧
      blocks.flatten = links ∧ List.Forall₂ Link.Merged blocks result.links ∧
      List.Forall₂ Link.Declares blocks result.links := by
  have hmodest : Registry.builtin.Modest := Registry.basic_builtin.modest
  obtain ⟨result, h⟩ := hmodest.exists_optimize_of_reductions
    (P := fun l => ∃ block, Link.Declares block l)
    (fun a b hallows ⟨up, ha⟩ ⟨down, hb⟩ => ⟨up ++ down, ha.join hb hallows⟩)
    (fun a b v ⟨up, ha⟩ ⟨down, hb⟩ hreduces => ha.reduction_eq_one hb hreduces)
    (fun l hl => ⟨[l], (hlinks l hl).declares⟩)
  obtain ⟨nests, hg, hallowed⟩ := exists_grouped_allowed h
  obtain ⟨hflat, hmerged⟩ := hg.merged
  refine ⟨result, nests.map Nest.leaves, h, hflat, hmerged, ?_⟩
  rw [← hg.link_eq, List.forall₂_map_left_iff, List.forall₂_map_right_iff, List.forall₂_same]
  intro n hn
  apply (hallowed n hn).declares
  intro l hl
  apply hlinks
  rw [← hg.leaves_eq]
  exact List.mem_flatMap_of_mem hn hl

/-- A chain with a `take` between stages that run once. -/
def takeChain : List Link :=
  [.own (.map pure), .own (.filter fun _ => pure true), .own (.take 2),
    .own (.scan (.int 0) fun acc _ => pure acc), .own (.map pure)]

/-- Two stateless stages are fused with the `take` behind them, and nothing is fused behind it. -/
theorem map_filter_take_scan_map_declares : ∃ result blocks,
    (Registry.builtin.optimize takeChain).outcome = .ok result ∧
    result.links.map (fun l => (l.name, l.stage.shape)) =
      [("map+filter+take", .constant 2), ("scan+map", .constant 1)] ∧
    blocks.flatten = takeChain ∧ List.Forall₂ Link.Merged blocks result.links ∧
    List.Forall₂ Link.Declares blocks result.links := by
  have hlinks : ∀ l ∈ takeChain, l.IsReference := by
    simp only [takeChain, List.forall_mem_cons]
    exact ⟨.map _, .filter _, .take 2, .scan _ _, .map _, by simp⟩
  obtain ⟨result, blocks, h, hflat, hmerged, hdeclares⟩ := optimize_references hlinks
  obtain ⟨_, hrun, hshown⟩ := exists_ok_of_toOption_map
    (f := fun c : OptimizedChain => c.links.map fun l => (l.name, l.stage.shape))
    (x := (Registry.builtin.optimize takeChain).outcome)
    (b := [("map+filter+take", .constant 2), ("scan+map", .constant 1)]) (by decide +kernel)
  obtain rfl := Except.ok.inj (hrun.symm.trans h)
  exact ⟨_, blocks, h, hshown, hflat, hmerged, hdeclares⟩

/-- A `take` declares its count, which its record does not. -/
theorem take_two_declares_otherwise : ∃ result l m, (Link.own (.take 2)).IsReference ∧
    (Registry.builtin.optimize [.own (.take 2)]).outcome = .ok result ∧ l ∈ result.links ∧
    Registry.builtin.resolve l.name = some m ∧ l.stage.shape ≠ m.shape := by
  refine ⟨⟨[.own (.take 2)], [], {}, Registry.builtin.unknownNames [.own (.take 2)]⟩, .own (.take 2),
    ⟨"take", .stateful, .dataDependent⟩, .take 2, ?_, List.mem_singleton_self _, by decide +kernel,
    by decide⟩
  have swept : SweptChain .builtin 0 [.own (.take 2)] {} {} [.own (.take 2)] :=
    .cons (.last (.own (.take 2)) 0 1 {})
  exact outcome_optimize_eq_ok_iff.mpr ⟨.stop swept (by simp), rfl⟩

end StageFusion
