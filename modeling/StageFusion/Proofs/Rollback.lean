import StageFusion.Plan.Stage
import StageFusion.Proofs.Simulation

/-! Fused chains past a fault.

When a stage fails, the stages before it have moved to their new states. A fused stage has one state
for all of its parts, so those of them that came before the fault are taken back to their old states.
`driveBlocks` drives the original stages in this way, cut into the blocks that became segments, and a
fused chain does what it does on every list of values, also past faults (`Nest.map_seen_feedAll`). The
original chain itself does so only if no fault comes after a move: in a block where every stage leaves
its state alone or is followed only by stages that never fail, nothing is ever taken back
(`feedBlocks_eq_feed`). -/

namespace StageFusion

/-! ## Chains in blocks -/

/-- Passes a value through blocks of stages, with the states of all stages in order. A block in which
a stage fails keeps its states, and so do the blocks after it. -/
def feedBlocks : List (List Stage) → List Value → Value → Passage
  | [], _, v => ⟨[], .ok v, []⟩
  | block :: blocks, states, v =>
    let p := feed (block.zip (states.take block.length)) v
    match p.output with
    | .error e => ⟨p.effects, .error e, states⟩
    | .ok mid =>
      let q := feedBlocks blocks (states.drop block.length) mid
      ⟨p.effects ++ q.effects, q.output, p.states ++ q.states⟩

/-- Passes a list of values through blocks of stages, one after another. -/
def feedAllBlocks (blocks : List (List Stage)) (states : List Value) : List Value → List Passage
  | [] => []
  | v :: rest =>
    let p := feedBlocks blocks states v
    p :: feedAllBlocks blocks p.states rest

/-- Drives a chain in blocks from fresh states. -/
def driveBlocks (blocks : List (List Stage)) (inputs : List Value) : List Passage :=
  feedAllBlocks blocks (blocks.flatten.map fun _ => .null) inputs

theorem feedBlocks_cons_append {block : List Stage} {blocks : List (List Stage)}
    {here later : List Value} (h : here.length = block.length) (v : Value) :
    feedBlocks (block :: blocks) (here ++ later) v =
      match (feed (block.zip here) v).output with
      | .error e => ⟨(feed (block.zip here) v).effects, .error e, here ++ later⟩
      | .ok mid => ⟨(feed (block.zip here) v).effects ++ (feedBlocks blocks later mid).effects,
          (feedBlocks blocks later mid).output,
          (feed (block.zip here) v).states ++ (feedBlocks blocks later mid).states⟩ := by
  rw [feedBlocks, List.take_left' h, List.drop_left' h]

namespace Nest

/-- A passage through segments and one through the blocks of their original stages: they do the same,
and leave corresponding states, with a fault as without one. -/
structure InStep (nests : List Nest) (fused blocks : Passage) : Prop where
  effects : fused.effects = blocks.effects
  output : fused.output = blocks.output
  states : allStates nests fused.states = some blocks.states

theorem InStep.seen {nests : List Nest} {fused blocks : Passage} (h : InStep nests fused blocks) :
    fused.seen = blocks.seen := by
  rw [Passage.seen, Passage.seen, h.effects, h.output]

theorem feed_inStep (nests : List Nest) : ∀ {segs plain : List Value} (v : Value),
    allStates nests segs = some plain →
    InStep nests (feed ((nests.map stage).zip segs) v)
      (feedBlocks (nests.map stages) plain v) := by
  induction nests with
  | nil =>
    intro segs plain v h
    cases segs with
    | nil =>
      cases h
      exact ⟨rfl, rfl, rfl⟩
    | cons => cases h
  | cons n nests ih =>
    intro segs plain v h
    obtain ⟨state, rest, here, tail, rfl, hhere, htail, rfl⟩ := allStates_cons_eq_some_iff.mp h
    have hrun := run_mirrors n v hhere
    rw [List.map_cons, List.map_cons, feedBlocks_cons_append (length_of_states hhere),
      List.zip_cons_cons, feed]
    generalize feed (n.stages.zip here) v = pass at hrun ⊢
    generalize n.stage.run v state = run at hrun ⊢
    cases hrun with
    | failed =>
      -- the segment keeps its state, and the block its states
      refine ⟨rfl, rfl, ?_⟩
      rw [List.map_snd_zip (by simp [(length_of_allStates htail).1])]
      exact h
    | @returned effects state' out here' hnew =>
      obtain ⟨heffects, houtput, hstates⟩ := ih out htail
      exact ⟨congrArg (effects ++ ·) heffects, houtput,
        allStates_cons_eq_some_iff.mpr ⟨_, _, _, _, rfl, hnew, hstates, rfl⟩⟩

theorem map_seen_feedAll (nests : List Nest) (inputs : List Value) :
    ∀ {segs plain : List Value}, allStates nests segs = some plain →
    (feedAll (nests.map stage) segs inputs).map Passage.seen =
      (feedAllBlocks (nests.map stages) plain inputs).map Passage.seen := by
  induction inputs with
  | nil =>
    intro segs plain h
    rfl
  | cons v inputs ih =>
    intro segs plain h
    have hstep := feed_inStep nests v h
    simp only [feedAll, feedAllBlocks, List.map_cons, hstep.seen, ih hstep.states]

end Nest

/-! ## Blocks that take nothing back -/

def Stage.KeepsState (s : Stage) : Prop :=
  ∀ v state state' output, (s.run v state).outcome = .ok (state', output) → state' = state

def Stage.NeverFails (s : Stage) : Prop :=
  ∀ v state, ∃ result, (s.run v state).outcome = .ok result

theorem Stage.keepsState_stateless (f : Value → Logged Value Value) (usage : Usage)
    (name : String) : (stateless f usage name).KeepsState := by
  intro v state state' output h
  obtain ⟨out, _, h⟩ := bind_eq_ok_iff.mp ((Logged.outcome_bind (f v) _).symm.trans h)
  cases h
  rfl

theorem Stage.neverFails_tap {effect : Value → Logged Value Unit}
    (h : ∀ v, ∃ result, (effect v).outcome = .ok result) : (tap effect).NeverFails := by
  intro v state
  obtain ⟨result, hresult⟩ := h v
  exact ⟨(state, v), Logged.outcome_bind_of_ok hresult _⟩

/-- No stage that may move its state comes before one that may fail. -/
def Steady (block : List Stage) : Prop :=
  block.Pairwise fun s t => s.KeepsState ∨ t.NeverFails

/-- The segments of a steady chain are steady. -/
theorem Grouped.steady {nests : List Nest} {links out : List Link} (hg : Grouped nests links out)
    (h : Steady (links.map (·.stage))) : ∀ n ∈ nests, Steady n.stages := by
  intro n hn
  rw [hg.stages_links, List.flatMap_def] at h
  exact h.sublist (List.sublist_flatten_of_mem (List.mem_map_of_mem hn))

theorem exists_output_of_neverFails {chain : List (Stage × Value)}
    (h : ∀ s ∈ chain.map Prod.fst, s.NeverFails) (v : Value) :
    ∃ output, (feed chain v).output = .ok output := by
  induction chain generalizing v with
  | nil => exact ⟨v, rfl⟩
  | cons head rest ih =>
    obtain ⟨s, state⟩ := head
    obtain ⟨hs, hrest⟩ : s.NeverFails ∧ ∀ t ∈ rest.map Prod.fst, t.NeverFails :=
      List.forall_mem_cons.mp h
    obtain ⟨⟨state', mid⟩, hrun⟩ := hs v state
    obtain ⟨output, houtput⟩ := ih hrest mid
    exact ⟨output, by simp only [feed, hrun, houtput]⟩

/-- A passage that fails in a steady chain has moved no state. -/
theorem states_feed_of_error {chain : List (Stage × Value)} (h : Steady (chain.map Prod.fst))
    {v : Value} {e : Fault} (herror : (feed chain v).output = .error e) :
    (feed chain v).states = chain.map Prod.snd := by
  induction chain generalizing v with
  | nil => cases herror
  | cons head rest ih =>
    obtain ⟨s, state⟩ := head
    obtain ⟨hs, hrest⟩ := List.pairwise_cons.mp h
    rw [feed] at herror ⊢
    cases hrun : (s.run v state).outcome with
    | error e' => rfl
    | ok r =>
      obtain ⟨state', mid⟩ := r
      simp only [hrun] at herror ⊢
      -- the fault comes later, so the stages that follow may fail and this one keeps its state
      have hkeeps : s.KeepsState := by
        by_contra hmoves
        obtain ⟨output, houtput⟩ := exists_output_of_neverFails
          (fun t ht => (hs t ht).resolve_left hmoves) mid
        rw [houtput] at herror
        cases herror
      rw [ih hrest herror, hkeeps v state state' mid hrun, List.map_cons]

theorem feedBlocks_eq_feed {blocks : List (List Stage)} (h : ∀ block ∈ blocks, Steady block) :
    ∀ {states : List Value} (v : Value), states.length = blocks.flatten.length →
    feedBlocks blocks states v = feed (blocks.flatten.zip states) v := by
  induction blocks with
  | nil =>
    intro states v hlength
    rw [List.length_eq_zero_iff.mp hlength]
    rfl
  | cons block blocks ih =>
    intro states v hlength
    obtain ⟨hblock, hblocks⟩ := List.forall_mem_cons.mp h
    rw [List.flatten_cons, List.length_append] at hlength
    obtain ⟨here, later, rfl, hhere⟩ :
        ∃ here later, states = here ++ later ∧ here.length = block.length :=
      ⟨states.take block.length, states.drop block.length, (List.take_append_drop _ _).symm,
        List.length_take_of_le (by omega)⟩
    have hlater : later.length = blocks.flatten.length := by
      rw [List.length_append] at hlength
      omega
    rw [feedBlocks_cons_append hhere, List.flatten_cons, List.zip_append hhere.symm, feed_append]
    cases houtput : (feed (block.zip here) v).output with
    | error e =>
      -- nothing in the block has moved, so there is nothing to take back
      have hstates := states_feed_of_error
        (by rwa [List.map_fst_zip (by omega)]) houtput
      rw [List.map_snd_zip (by omega)] at hstates
      simp only [hstates, List.map_snd_zip (show later.length ≤ blocks.flatten.length by omega)]
    | ok mid => simp only [ih hblocks mid hlater]

theorem feedAllBlocks_eq_feedAll {blocks : List (List Stage)}
    (h : ∀ block ∈ blocks, Steady block) (inputs : List Value) :
    ∀ {states : List Value}, states.length = blocks.flatten.length →
    feedAllBlocks blocks states inputs = feedAll blocks.flatten states inputs := by
  induction inputs with
  | nil =>
    intro states hlength
    rfl
  | cons v inputs ih =>
    intro states hlength
    have hnext : (feed (blocks.flatten.zip states) v).states.length = blocks.flatten.length := by
      rw [length_states_feed, List.length_zip]
      omega
    simp only [feedAllBlocks, feedAll, feedBlocks_eq_feed h v hlength, ih hnext]

theorem driveBlocks_eq_driveChain {blocks : List (List Stage)}
    (h : ∀ block ∈ blocks, Steady block) (inputs : List Value) :
    driveBlocks blocks inputs = driveChain blocks.flatten inputs :=
  feedAllBlocks_eq_feedAll h inputs (List.length_map _)

/-! ## Driven chains -/

/-- **What a fused chain does past a fault.** The segments are made of the original links. Driven over
any values, through faults, the fused chain does what the original stages do if the block of a segment
in which a stage fails keeps its states. It does what the original chain does if in no segment a stage
that may move its state comes before one that may fail. -/
theorem optimize_takes_back_segments {r : Registry} {links : List Link} {result : OptimizedChain}
    (h : (r.optimize links).outcome = .ok result) :
    (∃ nests, Grouped nests links result.links) ∧
    ∀ nests, Grouped nests links result.links → ∀ inputs,
      (driveChain result.stages inputs).map Passage.seen =
        (driveBlocks (nests.map Nest.stages) inputs).map Passage.seen ∧
      ((∀ n ∈ nests, Steady n.stages) →
        (driveChain result.stages inputs).map Passage.seen =
          (driveChain (links.map (·.stage)) inputs).map Passage.seen) := by
  refine ⟨exists_grouped h, fun nests hg inputs => ?_⟩
  have hblocks : (driveChain result.stages inputs).map Passage.seen =
      (driveBlocks (nests.map Nest.stages) inputs).map Passage.seen := by
    rw [OptimizedChain.stages, hg.stages_out]
    apply Nest.map_seen_feedAll
    rw [List.map_map, ← List.flatMap_def]
    exact Nest.allStates_null nests
  refine ⟨hblocks, fun hsteady => ?_⟩
  rw [hblocks, hg.stages_links, List.flatMap_def]
  exact congrArg _ (driveBlocks_eq_driveChain (List.forall_mem_map.mpr hsteady) inputs)

/-- A running sum, cut off above five by a stage that is fused with it. -/
def cappedSum : List Link :=
  [⟨.scan (.int 0) fun acc v => return Reduction.sum.apply acc v, "scan"⟩,
    ⟨.map (Mapping.failIf (.above 5) "too large").run, "map"⟩]

/-- The running sum keeps a value that makes the next stage fail, and the fused chain takes it back:
after that fault the one fails again and the other goes on. -/
theorem cappedSum_told_apart : ∃ result,
    (Registry.builtin.optimize cappedSum).outcome = .ok result ∧ result.names = ["scan+map"] ∧
    (driveChain result.stages [.int 1, .int 10, .int 1]).map (fun p =>
      p.output.toOption.bind Value.toInt?) = [some 1, none, some 2] ∧
    (driveChain (cappedSum.map (·.stage)) [.int 1, .int 10, .int 1]).map (fun p =>
      p.output.toOption.bind Value.toInt?) = [some 1, none, none] ∧
    (driveChain result.stages [.int 1, .int 10, .int 1]).map Passage.seen ≠
      (driveChain (cappedSum.map (·.stage)) [.int 1, .int 10, .int 1]).map Passage.seen := by
  obtain ⟨result, h, hseen⟩ := exists_ok_of_toOption_map
    (f := fun c : OptimizedChain => (c.names,
      (driveChain c.stages [.int 1, .int 10, .int 1]).map fun p =>
        p.output.toOption.bind Value.toInt?))
    (x := (Registry.builtin.optimize cappedSum).outcome)
    (b := (["scan+map"], [some 1, none, some 2])) (by decide +kernel)
  obtain ⟨hnames, hfused⟩ := Prod.mk.injEq .. ▸ hseen
  have hplain : (driveChain (cappedSum.map (·.stage)) [.int 1, .int 10, .int 1]).map (fun p =>
      p.output.toOption.bind Value.toInt?) = [some 1, none, none] := by
    decide +kernel
  refine ⟨result, h, hnames, hfused, hplain, fun hsame => ?_⟩
  -- equal passages have equal numbers
  have hnumbers := congrArg (List.map fun seen : List Value × Except Fault Value =>
    seen.2.toOption.bind Value.toInt?) hsame
  rw [List.map_map, List.map_map] at hnumbers
  have hlast := hfused.symm.trans (hnumbers.trans hplain)
  revert hlast
  decide

/-- A running sum that takes no value above five, with its stages the other way round. -/
def guardedSum : List Link :=
  [⟨.map (Mapping.failIf (.above 5) "too large").run, "map"⟩,
    ⟨.scan (.int 0) fun acc v => return Reduction.sum.apply acc v, "scan"⟩,
    ⟨.tap Logged.tell, "tap"⟩]

theorem steady_guardedSum : Steady (guardedSum.map (·.stage)) := by
  have hmap : (Stage.map (Mapping.failIf (.above 5) "too large").run).KeepsState :=
    Stage.keepsState_stateless _ _ _
  have htap : (Stage.tap Logged.tell).NeverFails :=
    Stage.neverFails_tap fun v => ⟨(), rfl⟩
  exact .cons (fun _ _ => .inl hmap) (.cons (List.forall_mem_singleton.mpr (.inr htap))
    (List.pairwise_singleton _ _))

/-- A value that is too large is passed over, and the sum goes on without it. -/
theorem guardedSum_goes_on : ∃ result,
    (Registry.builtin.optimize guardedSum).outcome = .ok result ∧
    result.names = ["map+scan", "tap"] ∧
    (driveChain result.stages [.int 1, .int 10, .int 1]).map Passage.seen =
      [([.int 1], .ok (.int 1)), ([], .error (.raised "too large")), ([.int 2], .ok (.int 2))] := by
  obtain ⟨result, h, hnames⟩ := exists_ok_of_toOption_map (f := OptimizedChain.names)
    (x := (Registry.builtin.optimize guardedSum).outcome)
    (b := ["map+scan", "tap"]) (by decide +kernel)
  obtain ⟨⟨nests, hg⟩, hdriven⟩ := optimize_takes_back_segments h
  refine ⟨result, h, hnames, ?_⟩
  rw [(hdriven nests hg _).2]
  · rfl
  · exact hg.steady steady_guardedSum

end StageFusion
