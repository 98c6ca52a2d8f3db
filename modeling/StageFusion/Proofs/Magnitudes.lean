import StageFusion.Proofs.Sweeps

/-! How large the bounds of a run become.

`Multiplicity.magnitude` measures the numerals that a bound can bring about. It does not grow beyond
products, since a composition multiplies with a factor that is the declared bound or none at all
(`magnitude_mul_factor_le`). So the product over a chain never grows on a run: neither over the stages
nor over the records of the names (`Swept.prod_le`). -/

namespace StageFusion

namespace Multiplicity

/-- The size of a bound as a factor of other bounds: a number, but at least one. A bound without
number brings about no numerals. -/
def magnitude : Multiplicity → Nat
  | exact n => max n 1
  | unbounded => 1

theorem one_le_magnitude (m : Multiplicity) : 1 ≤ m.magnitude := by
  cases m with
  | exact n => exact le_max_right n 1
  | unbounded => exact le_refl 1

theorem le_magnitude (n : Nat) : n ≤ (exact n).magnitude :=
  le_max_left n 1

theorem magnitude_mul_le (a b : Multiplicity) : (a * b).magnitude ≤ a.magnitude * b.magnitude := by
  have hone : 1 ≤ a.magnitude * b.magnitude :=
    Nat.mul_le_mul a.one_le_magnitude b.one_le_magnitude
  cases a with
  | unbounded =>
    cases b with
    | unbounded => exact hone
    | exact n =>
      rw [unbounded_mul_exact]
      split_ifs <;> exact hone
  | exact m =>
    cases b with
    | unbounded =>
      rw [exact_mul_unbounded]
      split_ifs <;> exact hone
    | exact n => exact max_le (Nat.mul_le_mul (le_magnitude m) (le_magnitude n)) hone

theorem magnitude_mul_unbounded (k : Multiplicity) : (k * unbounded).magnitude = 1 := by
  rcases mul_eq_zero_or_unbounded (.inr rfl) k with h | h
  · rw [h]
    rfl
  · rw [h]
    rfl

end Multiplicity

namespace Shape

theorem le_magnitude_of_mem_counts {s : Shape} {k : Nat} (h : k ∈ s.counts) :
    k ≤ s.bound.magnitude := by
  cases s with
  | constant n =>
    obtain rfl : k = n := by simpa [counts] using h
    exact Multiplicity.le_magnitude k
  | conditional t f =>
    have hk : k = t ∨ k = f := by simpa [counts] using h
    refine le_trans ?_ (Multiplicity.le_magnitude (max t f))
    omega
  | dataDependent => simp [counts] at h
  | unbounded => simp [counts] at h

theorem magnitude_mul_factor_le (k : Multiplicity) (s : Shape) :
    (k * s.factor).magnitude ≤ (k * s.bound).magnitude := by
  cases hs : s.isConditional with
  | true =>
    rw [factor_of_isConditional hs, Multiplicity.magnitude_mul_unbounded]
    exact Multiplicity.one_le_magnitude _
  | false => rw [factor_eq_bound hs]

end Shape

namespace Registry

theorem boundOf_of_resolve {r : Registry} {name : String} {m : Operator}
    (h : r.resolve name = some m) : r.boundOf name = m.bound := by
  rw [boundOf, h]
  rfl

/-- The record of a fused name has a bound of no more than the product of the bounds of its parts, if
it is a number. -/
theorem magnitude_boundOf_fusedName_le (r : Registry) (up down : String) :
    (r.boundOf (fusedName up down)).magnitude ≤
      (r.boundOf up).magnitude * (r.boundOf down).magnitude := by
  cases hwhole : r.resolve (fusedName up down) with
  | none =>
    have hbound : r.boundOf (fusedName up down) = .unbounded := by
      rw [boundOf, hwhole]
      rfl
    rw [hbound]
    exact Nat.mul_le_mul (Multiplicity.one_le_magnitude _) (Multiplicity.one_le_magnitude _)
  | some whole =>
    obtain ⟨a, b, hup, hdown, -⟩ := joined_of_resolve hwhole
    obtain ⟨first, rest, -, rfl, hfold⟩ := exists_resolve_fusedName hup hdown
    obtain rfl := Option.some.inj (hwhole.symm.trans hfold)
    rw [boundOf_of_resolve hwhole, boundOf_of_resolve hup, boundOf_of_resolve hdown,
      Operator.bound_foldl_andThen, Operator.bound_foldl_andThen]
    generalize (rest.map (·.shape.factor)).prod = factors
    calc ((a.andThen first).bound * factors).magnitude
        = (a.bound * factors * first.shape.factor).magnitude := by
          rw [Operator.bound, Operator.andThen, Shape.bound_andThen, Operator.bound, mul_right_comm]
      _ ≤ (a.bound * factors * first.bound).magnitude :=
          Shape.magnitude_mul_factor_le _ _
      _ = (a.bound * (first.bound * factors)).magnitude := by
          rw [mul_assoc, mul_comm factors]
      _ ≤ a.bound.magnitude * (first.bound * factors).magnitude :=
          Multiplicity.magnitude_mul_le _ _

/-- The size of the declared bound of a link's name. -/
def weight (r : Registry) (l : Link) : Nat :=
  (r.boundOf l.name).magnitude

theorem one_le_weight (r : Registry) (l : Link) : 1 ≤ r.weight l :=
  Multiplicity.one_le_magnitude _

/-- The counts of a name are no larger than its weight. -/
theorem le_weight_of_mem_counts {r : Registry} {l : Link} {m : Operator} {k : Nat}
    (hm : r.resolve l.name = some m) (hk : k ∈ m.shape.counts) : k ≤ r.weight l := by
  rw [weight, boundOf_of_resolve hm]
  exact Shape.le_magnitude_of_mem_counts hk

theorem weight_join_le (r : Registry) (a b : Link) : r.weight (a.join b) ≤ r.weight a * r.weight b :=
  r.magnitude_boundOf_fusedName_le a.name b.name

end Registry

namespace Link

/-- The size of the declared bound of a link's stage. -/
def weight (l : Link) : Nat :=
  l.stage.bound.magnitude

theorem one_le_weight (l : Link) : 1 ≤ l.weight :=
  Multiplicity.one_le_magnitude _

theorem magnitude_joinBound_le (a b : Link) : (a.joinBound b).magnitude ≤ a.weight * b.weight :=
  le_trans (Shape.magnitude_mul_factor_le a.stage.bound b.stage.shape)
    (Multiplicity.magnitude_mul_le a.stage.bound b.stage.bound)

theorem weight_join_le (a b : Link) : (a.join b).weight ≤ a.weight * b.weight := by
  rw [weight, bound_join]
  exact magnitude_joinBound_le a b

end Link

/-! ## Products over chains -/

section

variable {r : Registry} {w : Link → Nat} {iteration : Nat} {chain out : List Link} {p q : Progress}

/-- Where a joined link weighs no more than its parts together, a sweep makes no chain heavier. -/
theorem Swept.prod_le (hjoin : ∀ a b, w (a.join b) ≤ w a * w b) {segment : Link}
    {start position : Nat} {rest : List Link}
    (h : Swept r iteration segment start position rest p q out) :
    (out.map w).prod ≤ ((segment :: rest).map w).prod := by
  induction h with
  | last => exact le_refl _
  | @joined segment next start position rest out p counted q rule announced allowed count tail ih =>
    calc (out.map w).prod
        ≤ w (segment.join next) * (rest.map w).prod := ih
      _ ≤ w segment * w next * (rest.map w).prod := Nat.mul_le_mul_right _ (hjoin segment next)
      _ = ((segment :: next :: rest).map w).prod := by
        rw [List.map_cons, List.map_cons, List.prod_cons, List.prod_cons, mul_assoc]
  | @parted segment next start position rest out p q rule announced reason refused tail ih =>
    rw [List.map_cons, List.prod_cons, List.map_cons, List.prod_cons]
    exact Nat.mul_le_mul_left _ ih

theorem one_le_prod (hw : ∀ l, 1 ≤ w l) (links : List Link) : 1 ≤ (links.map w).prod := by
  apply List.one_le_prod_of_one_le
  intro n hn
  obtain ⟨l, _, rfl⟩ := List.mem_map.mp hn
  exact hw l

theorem SweptChain.prod_le (hjoin : ∀ a b, w (a.join b) ≤ w a * w b)
    (h : SweptChain r iteration chain p q out) : (out.map w).prod ≤ (chain.map w).prod := by
  cases h with
  | empty => exact le_refl _
  | cons swept => exact swept.prod_le hjoin

end

/-! ## Reductions -/

/-- Two neighbours in a chain of a limited product. -/
theorem le_of_mul_mul_le {m n rest limit : Nat} (hm : 1 ≤ m) (hn : 1 ≤ n) (hrest : 1 ≤ rest)
    (h : m * (n * rest) ≤ limit) : m ≤ limit ∧ n ≤ limit ∧ m * n ≤ limit := by
  have hmn : m * n ≤ limit := by
    refine le_trans (Nat.le_mul_of_pos_right (m * n) hrest) ?_
    rwa [mul_assoc]
  exact ⟨le_trans (Nat.le_mul_of_pos_right m hn) hmn, le_trans (Nat.le_mul_of_pos_left n hm) hmn,
    hmn⟩

theorem Stats.natAbs_reduction_le {up down fused : Multiplicity} {reduction : Int} {limit : Nat}
    (h : reduction? up down fused = some reduction) (hup : up.magnitude ≤ limit)
    (hdown : down.magnitude ≤ limit) (hfused : fused.magnitude ≤ limit) :
    reduction.natAbs ≤ 2 * limit := by
  cases up with
  | unbounded => cases h
  | exact m =>
    cases down with
    | unbounded => cases h
    | exact n =>
      cases fused with
      | unbounded => cases h
      | exact k =>
        obtain rfl : (m : Int) + n - k = reduction := Option.some.inj h
        have hm := (Multiplicity.le_magnitude m).trans hup
        have hn := (Multiplicity.le_magnitude n).trans hdown
        have hk := (Multiplicity.le_magnitude k).trans hfused
        omega

/-- A counted fusion adds its reduction to the others, if it has one. -/
theorem Progress.mem_reductions_iff_of_countFusion {p q : Progress} {up down fused : Multiplicity}
    (h : p.countFusion up down fused = .ok q) {reduction : Int} :
    reduction ∈ q.stats.reductions ↔
      reduction ∈ p.stats.reductions ∨ Stats.reduction? up down fused = some reduction := by
  obtain ⟨hrecorded, -⟩ := recorded_of_countFusion h
  generalize q.stats = stats at hrecorded ⊢
  cases hrecorded with
  | counted infinite => simp [infinite]
  | averaged finite within => simp [finite, eq_comm]

section

variable {r : Registry} {iteration limit : Nat} {chain out : List Link} {p q : Progress}

theorem Link.natAbs_reduction_le {a b : Link} {reduction : Int}
    (h : Stats.reduction? a.stage.bound b.stage.bound (a.joinBound b) = some reduction)
    (ha : a.weight ≤ limit) (hb : b.weight ≤ limit) (hjoin : a.weight * b.weight ≤ limit) :
    reduction.natAbs ≤ 2 * limit :=
  Stats.natAbs_reduction_le h ha hb ((magnitude_joinBound_le a b).trans hjoin)

/-- No reduction is larger than twice the product over the chain. -/
theorem Swept.natAbs_reductions_le {segment : Link} {start position : Nat} {rest : List Link}
    (h : Swept r iteration segment start position rest p q out) :
    ((segment :: rest).map Link.weight).prod ≤ limit →
    (∀ v ∈ p.stats.reductions, v.natAbs ≤ 2 * limit) →
    ∀ v ∈ q.stats.reductions, v.natAbs ≤ 2 * limit := by
  induction h with
  | last => exact fun _ hp => hp
  | @joined segment next start position rest out p counted q rule announced allowed count tail ih =>
    intro hlimit hp
    have hparts : segment.weight * (next.weight * (rest.map Link.weight).prod) ≤ limit := by
      simpa only [List.map_cons, List.prod_cons] using hlimit
    obtain ⟨hsegment, hnext, hboth⟩ := le_of_mul_mul_le segment.one_le_weight next.one_le_weight
      (one_le_prod Link.one_le_weight rest) hparts
    apply ih
    · rw [List.map_cons, List.prod_cons]
      refine le_trans (Nat.mul_le_mul_right _ (Link.weight_join_le segment next)) ?_
      rwa [mul_assoc]
    · intro v hv
      rcases (Progress.mem_reductions_iff_of_countFusion count).mp hv with hv | hv
      · exact hp v hv
      · exact Link.natAbs_reduction_le hv hsegment hnext hboth
  | @parted segment next start position rest out p q rule announced reason refused tail ih =>
    intro hlimit hp
    apply ih _ hp
    refine le_trans (Nat.le_mul_of_pos_left _ segment.one_le_weight) ?_
    rwa [List.map_cons, List.prod_cons] at hlimit

theorem SweptChain.natAbs_reductions_le (h : SweptChain r iteration chain p q out)
    (hlimit : (chain.map Link.weight).prod ≤ limit)
    (hp : ∀ v ∈ p.stats.reductions, v.natAbs ≤ 2 * limit) :
    ∀ v ∈ q.stats.reductions, v.natAbs ≤ 2 * limit := by
  cases h with
  | empty => exact hp
  | cons swept => exact swept.natAbs_reductions_le hlimit hp

end

end StageFusion
