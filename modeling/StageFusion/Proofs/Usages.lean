import StageFusion.Proofs.Bounds
import StageFusion.Proofs.Simulation

/-! Usages of fused chains.

`usagesAlong` collects the usages of the stages of a chain on the values that they receive while a
value passes through. A fused stage computes its usage from the usage upstream and the declared shape
downstream. So for honest stages the usage of a segment covers the product of the usages of its
original stages (`Nest.exists_count`), and this carries over to whole chains
(`Nest.exists_usagesAlong`). -/

namespace StageFusion

open Service (placeholders)

/-- No usage of an honest stage is above its declared bound. -/
def Stage.Honest (s : Stage) : Prop :=
  ∀ v m, s.usage.count v = .ok m → m ≤ s.bound

theorem honest_stageFor (r : Registry) (name : String) : (Service.stageFor r name).Honest := by
  intro v m hm
  cases hm
  exact le_rfl

/-- The usages of the stages of a chain, each on the value that it receives while a value passes
through; a fault of a usage or of the passage ends it. -/
def usagesAlong : List (Stage × Value) → Value → Except Fault (List Multiplicity)
  | [], _ => .ok []
  | (s, state) :: rest, v => do
    let m ← s.usage.count v
    let (_, output) ← (s.run v state).outcome
    return m :: (← usagesAlong rest output)

theorem usagesAlong_cons_eq_ok_iff {s : Stage} {state v : Value} {rest : List (Stage × Value)}
    {usages : List Multiplicity} :
    usagesAlong ((s, state) :: rest) v = .ok usages ↔
      ∃ m state' output tail, s.usage.count v = .ok m ∧
        (s.run v state).outcome = .ok (state', output) ∧ usagesAlong rest output = .ok tail ∧
        usages = m :: tail := by
  constructor
  · intro h
    obtain ⟨m, hm, h⟩ := bind_eq_ok_iff.mp h
    obtain ⟨⟨state', output⟩, hrun, h⟩ := bind_eq_ok_iff.mp h
    obtain ⟨tail, htail, h⟩ := bind_eq_ok_iff.mp h
    cases h
    exact ⟨m, state', output, tail, hm, hrun, htail, rfl⟩
  · rintro ⟨m, state', output, tail, hm, hrun, htail, rfl⟩
    refine bind_eq_ok_iff.mpr ⟨m, hm, bind_eq_ok_iff.mpr ⟨(state', output), hrun, ?_⟩⟩
    exact bind_eq_ok_iff.mpr ⟨tail, htail, rfl⟩

theorem usagesAlong_append {first second : List (Stage × Value)} {v : Value}
    {usages : List Multiplicity} (h : usagesAlong (first ++ second) v = .ok usages) :
    ∃ usagesA mid usagesB, usagesAlong first v = .ok usagesA ∧
      (feed first v).output = .ok mid ∧ usagesAlong second mid = .ok usagesB ∧
      usages = usagesA ++ usagesB := by
  induction first generalizing v usages with
  | nil => exact ⟨[], v, usages, rfl, rfl, h, rfl⟩
  | cons head rest ih =>
    obtain ⟨m, state', output, tail, hm, hrun, htail, rfl⟩ := usagesAlong_cons_eq_ok_iff.mp h
    obtain ⟨usagesA, mid, usagesB, hA, hmid, hB, rfl⟩ := ih htail
    refine ⟨m :: usagesA, mid, usagesB, ?_, ?_, hB, rfl⟩
    · exact usagesAlong_cons_eq_ok_iff.mpr ⟨m, state', output, usagesA, hm, hrun, hA, rfl⟩
    · simp [feed, hrun, hmid]

theorem count_andThenAs_eq_ok_iff {a b : Stage} {name : String} {v : Value} {m : Multiplicity} :
    (a.andThenAs b name).usage.count v = .ok m ↔
      ∃ k, a.usage.count v = .ok k ∧ m = k * b.shape.factor := by
  constructor
  · intro h
    obtain ⟨k, hk, h⟩ := bind_eq_ok_iff.mp h
    cases h
    exact ⟨k, hk, rfl⟩
  · rintro ⟨k, hk, rfl⟩
    exact bind_eq_ok_iff.mpr ⟨k, hk, rfl⟩

namespace Nest

/-- Honest stages are fused into honest stages. -/
theorem honest_stage {n : Nest} (h : ∀ l ∈ n.leaves, l.stage.Honest) : n.stage.Honest := by
  induction n with
  | leaf l => exact h l (by simp [leaves])
  | join up down ihUp ihDown =>
    intro v m hm
    obtain ⟨k, hk, rfl⟩ := count_andThenAs_eq_ok_iff.mp hm
    have hle := ihUp (fun l hl => h l (List.mem_append_left _ hl)) v k hk
    rw [bound_stage_join]
    exact mul_le_mul_left hle _

/-- The usage of a segment covers the usages of its original stages. -/
theorem exists_count {n : Nest} (h : ∀ l ∈ n.leaves, l.stage.Honest) :
    ∀ {state v : Value} {plain : List Value} {usages : List Multiplicity},
    n.states state = some plain → usagesAlong (n.stages.zip plain) v = .ok usages →
    ∃ m, n.stage.usage.count v = .ok m ∧ usages.prod ≤ m := by
  induction n with
  | leaf l =>
    intro state v plain usages hstate husages
    cases hstate
    obtain ⟨m, _, _, tail, hm, _, htail, rfl⟩ := usagesAlong_cons_eq_ok_iff.mp husages
    cases htail
    exact ⟨m, hm, by simp⟩
  | join up down ihUp ihDown =>
    intro state v plain usages hstate husages
    obtain ⟨a, b, plainUp, plainDown, _, hup, hdown, rfl⟩ := states_join_eq_some_iff.mp hstate
    rw [stages_join, List.zip_append (length_of_states hup).symm] at husages
    obtain ⟨usagesUp, mid, usagesDown, husagesUp, _, husagesDown, rfl⟩ :=
      usagesAlong_append husages
    have honestUp : ∀ l ∈ up.leaves, l.stage.Honest := fun l hl => h l (List.mem_append_left _ hl)
    have honestDown : ∀ l ∈ down.leaves, l.stage.Honest :=
      fun l hl => h l (List.mem_append_right _ hl)
    obtain ⟨k, hk, hleUp⟩ := ihUp honestUp hup husagesUp
    obtain ⟨j, hj, hleDown⟩ := ihDown honestDown hdown husagesDown
    refine ⟨k * down.stage.shape.factor, count_andThenAs_eq_ok_iff.mpr ⟨k, hk, rfl⟩, ?_⟩
    -- the usage downstream is not known to the fused stage, but honesty keeps it below the factor
    calc (usagesUp ++ usagesDown).prod
        = usagesUp.prod * usagesDown.prod := List.prod_append
      _ ≤ k * j := mul_le_mul' hleUp hleDown
      _ ≤ k * down.stage.bound := mul_le_mul_right (honest_stage honestDown mid j hj) _
      _ ≤ k * down.stage.shape.factor := mul_le_mul_right (Shape.bound_le_factor _) _

/-- Along segments in corresponding states, usages can be computed wherever they can be along the
original stages, and cover them. -/
theorem exists_usagesAlong {nests : List Nest} (h : ∀ n ∈ nests, ∀ l ∈ n.leaves, l.stage.Honest) :
    ∀ {segs plain : List Value} {v : Value} {usages : List Multiplicity},
    allStates nests segs = some plain →
    usagesAlong ((nests.flatMap stages).zip plain) v = .ok usages →
    ∃ fusedUsages, usagesAlong ((nests.map stage).zip segs) v = .ok fusedUsages ∧
      usages.prod ≤ fusedUsages.prod ∧ fusedUsages.prod ≤ (nests.map (·.stage.bound)).prod := by
  induction nests with
  | nil =>
    intro segs plain v usages hstates husages
    cases segs with
    | nil =>
      cases hstates
      cases husages
      exact ⟨[], rfl, le_rfl, le_rfl⟩
    | cons => cases hstates
  | cons n nests ih =>
    intro segs plain v usages hstates husages
    obtain ⟨state, rest, here, tail, rfl, hhere, htail, rfl⟩ :=
      allStates_cons_eq_some_iff.mp hstates
    rw [List.flatMap_cons, List.zip_append (length_of_states hhere).symm] at husages
    obtain ⟨usagesHere, mid, usagesTail, husagesHere, hmid, husagesTail, rfl⟩ :=
      usagesAlong_append husages
    have honestHere : ∀ l ∈ n.leaves, l.stage.Honest := h n (by simp)
    obtain ⟨m, hm, hle⟩ := exists_count honestHere hhere husagesHere
    obtain ⟨fusedTail, hfused, hleTail, hleBound⟩ :=
      ih (fun n hn => h n (List.mem_cons_of_mem _ hn)) htail husagesTail
    -- the segment hands on the value that its original stages hand on
    obtain ⟨state', hrun⟩ : ∃ state', (n.stage.run v state).outcome = .ok (state', mid) := by
      have hmirror := run_mirrors n v hhere
      generalize n.stage.run v state = run at hmirror ⊢
      generalize feed (n.stages.zip here) v = pass at hmirror hmid
      cases hmirror with
      | returned states =>
        cases hmid
        exact ⟨_, rfl⟩
      | failed => cases hmid
    refine ⟨m :: fusedTail, usagesAlong_cons_eq_ok_iff.mpr ⟨m, state', mid, fusedTail, hm, hrun,
      hfused, rfl⟩, ?_, ?_⟩
    · rw [List.prod_append, List.prod_cons]
      exact mul_le_mul' hle hleTail
    · rw [List.map_cons, List.prod_cons, List.prod_cons]
      exact mul_le_mul' (honest_stage honestHere v m hm) hleBound

/-! ## Every state of the original chain has a counterpart -/

theorem exists_states (n : Nest) {plain : List Value} (h : plain.length = n.stages.length) :
    ∃ state, n.states state = some plain := by
  induction n generalizing plain with
  | leaf l =>
    obtain ⟨state, rfl⟩ := List.length_eq_one_iff.mp h
    exact ⟨state, rfl⟩
  | join up down ihUp ihDown =>
    rw [stages_join, List.length_append] at h
    have hup : (plain.take up.stages.length).length = up.stages.length := by
      rw [List.length_take]
      omega
    have hdown : (plain.drop up.stages.length).length = down.stages.length := by
      rw [List.length_drop]
      omega
    obtain ⟨a, ha⟩ := ihUp hup
    obtain ⟨b, hb⟩ := ihDown hdown
    refine ⟨.pair a b, states_join_eq_some_iff.mpr ⟨a, b, _, _, rfl, ha, hb, ?_⟩⟩
    exact (List.take_append_drop _ _).symm

theorem exists_allStates (nests : List Nest) {plain : List Value}
    (h : plain.length = (nests.flatMap stages).length) :
    ∃ segs, allStates nests segs = some plain := by
  induction nests generalizing plain with
  | nil =>
    rw [List.length_eq_zero_iff.mp h]
    exact ⟨[], rfl⟩
  | cons n nests ih =>
    rw [List.flatMap_cons, List.length_append] at h
    have hhere : (plain.take n.stages.length).length = n.stages.length := by
      rw [List.length_take]
      omega
    have htail : (plain.drop n.stages.length).length = (nests.flatMap stages).length := by
      rw [List.length_drop]
      omega
    obtain ⟨state, hstate⟩ := n.exists_states hhere
    obtain ⟨segs, hsegs⟩ := ih htail
    refine ⟨state :: segs, allStates_cons_eq_some_iff.mpr ⟨state, segs, _, _, rfl, hstate, hsegs,
      ?_⟩⟩
    exact (List.take_append_drop _ _).symm

end Nest

/-- **Fused chains never declare less than they use.** The bound of the original chain is at or below
that of the fused chain. If the original stages are honest and a value passes through them from any
states, the product of their usages is at or below the product of the usages of the segments, from
any corresponding states, and that is at or below the bound of the fused chain. -/
theorem optimize_covers_usage {r : Registry} {links : List Link} {result : OptimizedChain}
    (h : (r.optimize links).outcome = .ok result) :
    Link.sequenceBound links ≤ result.bound ∧
    ((∀ l ∈ links, l.stage.Honest) →
      (∃ nests, Grouped nests links result.links) ∧
      ∀ nests, Grouped nests links result.links → ∀ plain v usages,
        plain.length = links.length →
        usagesAlong ((links.map (·.stage)).zip plain) v = .ok usages →
        (∃ segs, Nest.allStates nests segs = some plain) ∧
        ∀ segs, Nest.allStates nests segs = some plain →
          ∃ fusedUsages, usagesAlong (result.stages.zip segs) v = .ok fusedUsages ∧
            Multiplicity.product usages ≤ Multiplicity.product fusedUsages ∧
            Multiplicity.product fusedUsages ≤ result.bound) := by
  refine ⟨sequenceBound_le_bound h, fun honest => ⟨exists_grouped h, ?_⟩⟩
  intro nests hg plain v usages hlength husages
  rw [hg.stages_links] at husages
  rw [OptimizedChain.stages, hg.stages_out]
  have hlinks : (nests.flatMap Nest.stages).length = links.length := by
    rw [← hg.stages_links, List.length_map]
  have honestNests : ∀ n ∈ nests, ∀ l ∈ n.leaves, l.stage.Honest := by
    intro n hn l hl
    apply honest
    rw [← hg.leaves_eq]
    exact List.mem_flatMap.mpr ⟨n, hn, hl⟩
  refine ⟨Nest.exists_allStates nests (hlength.trans hlinks.symm), fun segs hsegs => ?_⟩
  obtain ⟨fusedUsages, hfused, hle, hbound⟩ := Nest.exists_usagesAlong honestNests hsegs husages
  refine ⟨fusedUsages, hfused, ?_, ?_⟩
  · rwa [Multiplicity.product_eq_prod, Multiplicity.product_eq_prod]
  · rw [Multiplicity.product_eq_prod, OptimizedChain.bound, hg.sequenceBound_out]
    exact hbound

/-- One value through a chain of placeholders: two segments are used as often as three stages. -/
theorem scan_throttleTime_tap_covers_usage : ∃ result segs fusedUsages,
    (Registry.builtin.optimize (placeholders .builtin ["scan", "throttleTime", "tap"])).outcome =
      .ok result ∧
    result.names = ["scan+throttleTime", "tap"] ∧
    usagesAlong (result.stages.zip segs) (.int 5) = .ok fusedUsages ∧
    1 ≤ Multiplicity.product fusedUsages ∧
    Multiplicity.product fusedUsages ≤ result.bound := by
  obtain ⟨result, h, hnames⟩ := exists_ok_of_toOption_map (f := OptimizedChain.names)
    (x := (Registry.builtin.optimize
      (placeholders .builtin ["scan", "throttleTime", "tap"])).outcome)
    (b := ["scan+throttleTime", "tap"]) (by decide +kernel)
  have honest : ∀ l ∈ placeholders .builtin ["scan", "throttleTime", "tap"], l.stage.Honest := by
    intro l hl
    obtain ⟨name, _, rfl⟩ := List.mem_map.mp hl
    exact honest_stageFor _ name
  obtain ⟨⟨nests, hg⟩, hcover⟩ := (optimize_covers_usage h).2 honest
  obtain ⟨⟨segs, hsegs⟩, hfused⟩ := hcover nests hg [.null, .int 2, .null] (.int 5) [1, 1, 1] rfl rfl
  obtain ⟨fusedUsages, hrun, hle, hbound⟩ := hfused segs hsegs
  exact ⟨result, segs, fusedUsages, h, hnames, hrun, hle, hbound⟩

end StageFusion
