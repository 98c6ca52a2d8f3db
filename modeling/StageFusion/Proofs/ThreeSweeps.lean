import StageFusion.Proofs.FixedPoint
import StageFusion.Proofs.Rules

/-! A run takes at most three sweeps.

A sweep parts a segment from the *head* of the next one, before that has grown. So the two may still
be fusible when the sweep is over, but only in one way: a stateful segment without a constant count is
parted from a stateless head, which then takes in a stateful operator and has a constant count
(`Operator.Grown.rejoins`). The second sweep fuses such pairs. A segment that it fuses so is stateful
as its head was, which changes no verdict on it from upstream, and ends in the constant segment, which
changes no verdict downstream. So the second sweep leaves nothing to fuse
(`SweptChain.isChain_not_allows`), and the third one only finds this out. -/

namespace StageFusion

/-! ## Records -/

namespace Operator

theorem isConstant_of_isFinite {m : Operator} (hfinite : m.bound.isFinite = true)
    (h : m.shape.isConditional = false) : m.shape.isConstant = true := by
  rw [bound] at hfinite
  cases hs : m.shape with
  | constant k => rfl
  | conditional t f => simp [hs, Shape.isConditional] at h
  | dataDependent => simp [hs, Shape.bound, Multiplicity.isFinite] at hfinite
  | unbounded => simp [hs, Shape.bound, Multiplicity.isFinite] at hfinite

/-- What is left of the record `head` in the record `whole` of a segment that began with it. -/
structure Grown (head whole : Operator) : Prop where
  /-- Only behind a finite bound something has been fused. -/
  finite : whole = head ∨ head.bound.isFinite = true
  rank_le : head.category.rank ≤ whole.category.rank
  /-- A stateless segment takes in another category only when it runs exactly once. -/
  shape : head.category = .stateless →
    whole.category = .stateless ∨ whole.shape.isConditional = false

theorem Grown.refl (m : Operator) : m.Grown m :=
  ⟨.inl rfl, le_rfl, .inl⟩

theorem Grown.joined {head segment next whole : Operator} (h : head.Grown segment)
    (hf : segment.Fusible next) (hj : segment.Joined next whole) : head.Grown whole := by
  refine ⟨.inr ?_, ?_, fun hhead => ?_⟩
  · rcases h.finite with rfl | hfinite
    · exact hf.isFinite_up
    · exact hfinite
  · rw [hj.category, Category.rank_join]
    exact h.rank_le.trans (le_max_left _ _)
  · right
    apply hj.isConditional
    rcases h.shape hhead with hstateless | hshape
    · cases hf with
      | identity _ shape => rw [shape]; rfl
      | intoStateless shape _ => exact isConditional_of_isConstant shape
      | stateful upCategory => simp [hstateless] at upCategory
    · exact hshape

/-- A stateful operator with a finite bound but no constant count, before a stateful operator with a
constant count. -/
structure Rejoins (up down : Operator) : Prop where
  upCategory : up.category = .stateful
  upFinite : up.bound.isFinite = true
  upShape : up.shape.isConstant = false
  downCategory : down.category = .stateful
  downShape : down.shape.isConstant = true

/-- The only way in which a segment is fusible that was not fusible at its head. -/
theorem Grown.rejoins {up head whole : Operator} (h : head.Grown whole) (hf : up.Fusible whole)
    (hn : ¬ up.Fusible head) : up.Rejoins whole := by
  have hrank := h.rank_le
  cases hf with
  | identity category shape => exact absurd (.identity category shape) hn
  | intoStateless shape category =>
    have hhead : head.category = .stateless := by
      rw [category] at hrank
      cases hc : head.category <;> simp [hc, Category.rank] at hrank ⊢
    exact absurd (.intoStateless shape hhead) hn
  | stateful upCategory category upFinite finite =>
    have hfinite : head.bound.isFinite = true := by
      rcases h.finite with rfl | hfinite
      · exact finite
      · exact hfinite
    have hhead : head.category = .stateless := by
      rw [category] at hrank
      cases hc : head.category with
      | stateless => rfl
      | stateful => exact absurd (.stateful upCategory hc upFinite hfinite) hn
      | effectful => simp [hc, Category.rank] at hrank
    have hshape : whole.shape.isConditional = false :=
      (h.shape hhead).resolve_left (by simp [category])
    refine ⟨upCategory, upFinite, ?_, category, isConstant_of_isFinite finite hshape⟩
    rw [← Bool.not_eq_true]
    exact fun hconstant => hn (.intoStateless hconstant hhead)

section

variable {up down whole : Operator}

theorem Rejoins.category_joined (h : up.Rejoins down) (hj : up.Joined down whole) :
    whole.category = .stateful := by
  rw [hj.category, h.upCategory, h.downCategory]
  rfl

/-- Seen from upstream, rejoining makes no segment fusible that was not so before. -/
theorem Rejoins.fusible_up {before : Operator} (h : up.Rejoins down) (hj : up.Joined down whole)
    (hf : before.Fusible whole) : before.Fusible up := by
  have hwhole := h.category_joined hj
  cases hf with
  | identity category shape => exact .identity category shape
  | intoStateless shape category => simp [hwhole] at category
  | stateful category _ finite _ => exact .stateful category h.upCategory finite h.upFinite

/-- Neither does it seen from downstream. -/
theorem Rejoins.fusible_down {after : Operator} (h : up.Rejoins down) (hj : up.Joined down whole)
    (hf : whole.Fusible after) : down.Fusible after := by
  have hwhole := h.category_joined hj
  cases hf with
  | identity category _ => simp [hwhole] at category
  | intoStateless _ category => exact .intoStateless h.downShape category
  | stateful _ category _ finite =>
    exact .stateful h.downCategory category (isFinite_of_isConstant h.downShape) finite

end

end Operator

/-! ## Names -/

namespace Registry

variable {r : Registry}

/-- The name of a segment is known only if its head is, and its record has grown from that. -/
def GrownFrom (r : Registry) (head segment : String) : Prop :=
  ∀ whole, r.resolve segment = some whole → ∃ m, r.resolve head = some m ∧ m.Grown whole

/-- If two names may be fused, their records rejoin. -/
def OnlyRejoins (r : Registry) (up down : String) : Prop :=
  ∀ a b, r.resolve up = some a → r.resolve down = some b → a.Fusible b → a.Rejoins b

theorem not_allows_of_refused {up down : String} {rule : Rule} {bound : Multiplicity}
    {reason : String} (h : r.verdict up down = .ok (.refused rule bound reason)) :
    ¬ r.Allows up down := by
  rintro ⟨_, _, hallowed⟩
  rw [h] at hallowed
  cases hallowed

theorem GrownFrom.refl (name : String) : r.GrownFrom name name :=
  fun whole h => ⟨whole, h, .refl whole⟩

theorem GrownFrom.joined {head segment next : String} (h : r.GrownFrom head segment)
    (hallows : r.Allows segment next) : r.GrownFrom head (fusedName segment next) := by
  intro whole hwhole
  obtain ⟨a, b, ha, hb, hj⟩ := joined_of_resolve hwhole
  obtain ⟨a', b', ha', hb', hf⟩ := allows_iff.mp hallows
  obtain rfl : a = a' := Option.some.inj (ha.symm.trans ha')
  obtain rfl : b = b' := Option.some.inj (hb.symm.trans hb')
  obtain ⟨m, hm, hgrown⟩ := h a ha
  exact ⟨m, hm, hgrown.joined hf hj⟩

/-- A segment that has grown behind a refused pair can only be rejoined. -/
theorem GrownFrom.onlyRejoins {up head segment : String} (h : r.GrownFrom head segment)
    (hrefused : ¬ r.Allows up head) : r.OnlyRejoins up segment := by
  intro a whole ha hwhole hf
  obtain ⟨m, hm, hgrown⟩ := h whole hwhole
  exact hgrown.rejoins hf fun hfusible => hrefused (allows_iff.mpr ⟨a, m, ha, hm, hfusible⟩)

end Registry

/-! ## Sweeps -/

section

open Registry (GrownFrom)

variable {r : Registry} {iteration : Nat} {segment : Link} {start position : Nat}
  {chain rest out : List Link} {p q : Progress}

/-- Neighbours that a sweep leaves can only be rejoined. -/
theorem Swept.isChain_onlyRejoins (h : Swept r iteration segment start position rest p q out) :
    ∀ {head : String}, r.GrownFrom head segment.name →
    ∃ whole more, out = whole :: more ∧ r.GrownFrom head whole.name ∧
      out.IsChain fun a b => r.OnlyRejoins a.name b.name := by
  induction h with
  | last segment =>
    intro head hgrown
    exact ⟨segment, [], rfl, hgrown, .singleton segment⟩
  | joined allowed count tail ih =>
    intro head hgrown
    exact ih (hgrown.joined ⟨_, _, allowed⟩)
  | parted refused tail ih =>
    intro head hgrown
    -- the next segment starts with the link that has just been refused
    obtain ⟨whole, more, rfl, hnext, hchain⟩ := ih (.refl _)
    have hpair := hnext.onlyRejoins (Registry.not_allows_of_refused refused)
    exact ⟨_, _, rfl, hgrown, .cons_cons hpair hchain⟩

theorem SweptChain.isChain_onlyRejoins (h : SweptChain r iteration chain p q out) :
    out.IsChain fun a b => r.OnlyRejoins a.name b.name := by
  cases h with
  | empty => exact .nil
  | cons swept =>
    obtain ⟨_, _, _, _, hchain⟩ := swept.isChain_onlyRejoins (.refl _)
    exact hchain

/-- Where a sweep over a chain whose neighbours can only be rejoined may stand: its segment is a link
of the chain, or two links that have been rejoined. The segment is refused from upstream if its first
link, named `head`, is. -/
inductive Rejoining (r : Registry) : String → Link → List Link → Prop
  | fresh {segment : Link} {rest : List Link}
    (chain : (segment :: rest).IsChain fun a b => r.OnlyRejoins a.name b.name) :
    Rejoining r segment.name segment rest
  | full {head : String} {segment : Link} {rest : List Link}
    (chain : rest.IsChain fun a b => r.OnlyRejoins a.name b.name)
    (above : ∀ up, r.Allows up segment.name → r.Allows up head)
    (below : ∀ next ∈ rest.head?, ¬ r.Allows segment.name next.name) :
    Rejoining r head segment rest

theorem Rejoining.above {head up : String} (h : Rejoining r head segment rest)
    (hallows : r.Allows up segment.name) : r.Allows up head := by
  cases h with
  | fresh => exact hallows
  | full _ above _ => exact above up hallows

theorem Rejoining.isChain_rest {head : String} (h : Rejoining r head segment rest) :
    rest.IsChain fun a b => r.OnlyRejoins a.name b.name := by
  cases h with
  | fresh chain => exact chain.tail
  | full chain _ _ => exact chain

/-- Two links are rejoined at most: behind them comes nothing that may be fused. -/
theorem Rejoining.joined {head : String} {next : Link}
    (h : Rejoining r head segment (next :: rest)) (hallows : r.Allows segment.name next.name) :
    Rejoining r head (segment.join next) rest := by
  cases h with
  | full _ _ below => exact absurd hallows (below next rfl)
  | fresh chain =>
    obtain ⟨hpair, hrest⟩ := List.isChain_cons_cons.mp chain
    obtain ⟨a, b, ha, hb, hf⟩ := Registry.allows_iff.mp hallows
    have hrejoins := hpair a b ha hb hf
    obtain ⟨whole, hwhole, hj⟩ := Registry.exists_joined ha hb
    refine .full hrest.tail ?_ ?_
    · intro up hup
      obtain ⟨c, whole', hc, hwhole', hfusible⟩ := Registry.allows_iff.mp hup
      obtain rfl : whole = whole' := Option.some.inj (hwhole.symm.trans hwhole')
      exact Registry.allows_iff.mpr ⟨c, a, hc, ha, hrejoins.fusible_up hj hfusible⟩
    · intro after hafter hdown
      obtain ⟨whole', c, hwhole', hc, hfusible⟩ := Registry.allows_iff.mp hdown
      obtain rfl : whole = whole' := Option.some.inj (hwhole.symm.trans hwhole')
      -- the second link has a constant count, so it is not rejoined with what follows it
      obtain ⟨more, rfl⟩ : ∃ more, rest = after :: more := List.head?_eq_some_iff.mp hafter
      have hagain : b.Rejoins c :=
        (List.isChain_cons_cons.mp hrest).1 b c hb hc (hrejoins.fusible_down hj hfusible)
      have hvaries := hagain.upShape
      rw [hrejoins.downShape] at hvaries
      cases hvaries

theorem Swept.isChain_not_allows (h : Swept r iteration segment start position rest p q out) :
    ∀ {head : String}, Rejoining r head segment rest →
    ∃ whole more, out = whole :: more ∧ (∀ up, r.Allows up whole.name → r.Allows up head) ∧
      out.IsChain fun a b => ¬ r.Allows a.name b.name := by
  induction h with
  | last segment =>
    intro head hstate
    exact ⟨segment, [], rfl, fun up => hstate.above, .singleton segment⟩
  | joined allowed count tail ih =>
    intro head hstate
    exact ih (hstate.joined ⟨_, _, allowed⟩)
  | parted refused tail ih =>
    intro head hstate
    obtain ⟨whole, more, rfl, habove, hchain⟩ := ih (.fresh hstate.isChain_rest)
    have hpair := mt (habove _) (Registry.not_allows_of_refused refused)
    exact ⟨_, _, rfl, fun up => hstate.above, .cons_cons hpair hchain⟩

/-- A sweep over a chain whose neighbours can only be rejoined leaves nothing to fuse. -/
theorem SweptChain.isChain_not_allows (h : SweptChain r iteration chain p q out)
    (hchain : chain.IsChain fun a b => r.OnlyRejoins a.name b.name) :
    out.IsChain fun a b => ¬ r.Allows a.name b.name := by
  cases h with
  | empty => exact .nil
  | cons swept =>
    obtain ⟨_, _, _, _, hout⟩ := swept.isChain_not_allows (.fresh hchain)
    exact hout

/-- A sweep that finds nothing to fuse only adds attempts that have failed. -/
theorem Swept.fused_eq_false (h : Swept r iteration segment start position rest p q out) :
    (segment :: rest).IsChain (fun a b => ¬ r.Allows a.name b.name) →
    out.length = rest.length + 1 ∧ ∀ a ∈ q.trace, a ∈ p.trace ∨ a.fused = false := by
  induction h with
  | last => exact fun _ => ⟨rfl, fun a => .inl⟩
  | joined allowed count tail ih =>
    intro hchain
    exact absurd ⟨_, _, allowed⟩ (List.isChain_cons_cons.mp hchain).1
  | parted refused tail ih =>
    intro hchain
    obtain ⟨hlength, htrace⟩ := ih (List.isChain_cons_cons.mp hchain).2
    refine ⟨congrArg (· + 1) hlength, fun a ha => ?_⟩
    rcases htrace a ha with hnoted | hfused
    · rcases List.mem_append.mp hnoted with hbefore | hnew
      · exact .inl hbefore
      · rw [List.mem_singleton.mp hnew]
        exact .inr rfl
    · exact .inr hfused

theorem SweptChain.fused_eq_false (h : SweptChain r iteration chain p q out)
    (hchain : chain.IsChain fun a b => ¬ r.Allows a.name b.name) :
    out.length = chain.length ∧ ∀ a ∈ q.trace, a ∈ p.trace ∨ a.fused = false := by
  cases h with
  | empty => exact ⟨rfl, fun a => .inl⟩
  | cons swept => exact swept.fused_eq_false hchain

end

/-! ## Runs -/

/-- **A run takes at most three sweeps, and the third one fuses nothing.** -/
theorem optimize_takes_three_sweeps {r : Registry} {links : List Link} {result : OptimizedChain}
    (h : (r.optimize links).outcome = .ok result) :
    ∀ a ∈ result.trace, a.iteration ≤ 2 ∧ (a.iteration = 2 → a.fused = false) := by
  have hsettled := (outcome_optimize_eq_ok_iff.mp h).1
  cases hsettled with
  | stop swept =>
    intro a ha
    have hle := swept.iteration_le (by simp) a ha
    omega
  | again first _ tail =>
    have hfirst := first.iteration_le (by simp)
    cases tail with
    | stop swept =>
      intro a ha
      have hle := swept.iteration_le (fun b hb => (hfirst b hb).trans (by omega)) a ha
      omega
    | again second _ tail =>
      have hsecond := second.iteration_le fun b hb => (hfirst b hb).trans (by omega)
      have hdone := second.isChain_not_allows first.isChain_onlyRejoins
      cases tail with
      | again third moved =>
        -- the third sweep does not shorten the chain, so none follows it
        have hlength := (third.fused_eq_false hdone).1
        omega
      | stop third =>
        intro a ha
        have hle := third.iteration_le (fun b hb => (hsecond b hb).trans (by omega)) a ha
        refine ⟨hle, fun hlast => ?_⟩
        rcases (third.fused_eq_false hdone).2 a ha with hbefore | hfused
        · have hle := hsecond a hbefore
          omega
        · exact hfused

/-- The second sweep over this chain still fuses, and the third one is made. -/
theorem throttleTime_map_scan_tap_sweeps : ∃ result,
    (Registry.builtin.optimize
      (Service.placeholders .builtin ["throttleTime", "map", "scan", "tap"])).outcome = .ok result ∧
    result.trace.map (fun a => (a.iteration, a.upstream, a.downstream, a.fused)) =
      [(0, "throttleTime", "map", false), (0, "map", "scan", true), (0, "map+scan", "tap", false),
        (1, "throttleTime", "map+scan", true), (1, "throttleTime+map+scan", "tap", false),
        (2, "throttleTime+map+scan", "tap", false)] ∧
    ∀ a ∈ result.trace, a.iteration ≤ 2 ∧ (a.iteration = 2 → a.fused = false) := by
  obtain ⟨result, h, htrace⟩ := exists_ok_of_toOption_map
    (f := fun c : OptimizedChain =>
      c.trace.map fun a => (a.iteration, a.upstream, a.downstream, a.fused))
    (x := (Registry.builtin.optimize
      (Service.placeholders .builtin ["throttleTime", "map", "scan", "tap"])).outcome)
    (b := [(0, "throttleTime", "map", false), (0, "map", "scan", true),
      (0, "map+scan", "tap", false), (1, "throttleTime", "map+scan", true),
      (1, "throttleTime+map+scan", "tap", false), (2, "throttleTime+map+scan", "tap", false)])
    (by decide +kernel)
  exact ⟨result, h, htrace, optimize_takes_three_sweeps h⟩

end StageFusion
