import StageFusion.Proofs.Nests
import StageFusion.Registry.Builtin
import StageFusion.Stage.Drive
import StageFusion.Stage.Reference

/-! Fused chains run as the chains they were made of.

A state of a segment stands for the states of its original stages: `Nest.states` takes it apart along
the nesting, the way the composed stages do, so that null stands for nulls throughout
(`Nest.states_null`). From states that correspond so, `Nest.run_mirrors` compares one run of a
segment with the passage through its original stages, `feed_matches` the passages through the two
chains, and `untilFault_feedAll` the chains driven over lists of values. -/

namespace StageFusion

/-! ## Passages through chains -/

theorem length_states_feed (chain : List (Stage × Value)) (v : Value) :
    (feed chain v).states.length = chain.length := by
  induction chain generalizing v with
  | nil => rfl
  | cons head rest ih =>
    obtain ⟨s, state⟩ := head
    rw [feed]
    cases (s.run v state).outcome with
    | error e => simp
    | ok r => simp [ih]

/-- A passage through a chain in two parts; the second part is reached only with an output of the
first. -/
theorem feed_append (first second : List (Stage × Value)) (v : Value) :
    feed (first ++ second) v =
      match (feed first v).output with
      | .error e => ⟨(feed first v).effects, .error e,
          (feed first v).states ++ second.map Prod.snd⟩
      | .ok mid => ⟨(feed first v).effects ++ (feed second mid).effects, (feed second mid).output,
          (feed first v).states ++ (feed second mid).states⟩ := by
  induction first generalizing v with
  | nil => simp [feed]
  | cons head rest ih =>
    obtain ⟨s, state⟩ := head
    simp only [List.cons_append, feed]
    cases (s.run v state).outcome with
    | error e => simp
    | ok r =>
      obtain ⟨state', out⟩ := r
      simp only [ih]
      cases (feed rest out).output <;> simp

/-- A composed stage runs its parts one after the other on the parts of its state. -/
theorem Stage.run_andThenAs {a b : Stage} {name : String} {v state stateA stateB : Value}
    (h : partStates state = .ok (stateA, stateB)) :
    (a.andThenAs b name).run v state = a.run v stateA >>= fun ranA =>
      b.run ranA.2 stateB >>= fun ranB => pure (.pair ranA.1 ranB.1, ranB.2) := by
  simp only [andThenAs, andThen, h]
  exact Logged.pure_bind_eq (stateA, stateB) _

namespace Nest

/-! ## States of segments -/

/-- The states of the original stages that a state of a segment stands for. -/
def states : Nest → Value → Option (List Value)
  | leaf _, state => some [state]
  | join up down, state =>
    match Stage.partStates state with
    | .ok (stateUp, stateDown) => do return (← up.states stateUp) ++ (← down.states stateDown)
    | .error _ => none

/-- The states of the original stages that the states of all segments stand for. -/
def allStates : List Nest → List Value → Option (List Value)
  | [], [] => some []
  | n :: nests, state :: segs => do return (← n.states state) ++ (← allStates nests segs)
  | _, _ => none

theorem states_join_eq_some_iff {up down : Nest} {state : Value} {plain : List Value} :
    (join up down).states state = some plain ↔
      ∃ stateUp stateDown plainUp plainDown,
        Stage.partStates state = .ok (stateUp, stateDown) ∧ up.states stateUp = some plainUp ∧
        down.states stateDown = some plainDown ∧ plain = plainUp ++ plainDown := by
  constructor
  · intro h
    rw [states] at h
    cases hparts : Stage.partStates state with
    | error e => simp [hparts] at h
    | ok parts =>
      simp only [hparts, Option.bind_eq_bind, Option.bind_eq_some_iff] at h
      obtain ⟨plainUp, hup, plainDown, hdown, heq⟩ := h
      cases heq
      exact ⟨parts.1, parts.2, plainUp, plainDown, rfl, hup, hdown, rfl⟩
  · rintro ⟨a, b, plainUp, plainDown, hparts, hup, hdown, rfl⟩
    simp [states, hparts, hup, hdown]

theorem allStates_cons_eq_some_iff {n : Nest} {nests : List Nest} {segs plain : List Value} :
    allStates (n :: nests) segs = some plain ↔
      ∃ state rest plainHere plainRest, segs = state :: rest ∧ n.states state = some plainHere ∧
        allStates nests rest = some plainRest ∧ plain = plainHere ++ plainRest := by
  constructor
  · intro h
    cases segs with
    | nil => simp [allStates] at h
    | cons state rest =>
      simp only [allStates, Option.bind_eq_bind, Option.bind_eq_some_iff] at h
      obtain ⟨plainHere, hhere, plainRest, hrest, heq⟩ := h
      cases heq
      exact ⟨state, rest, plainHere, plainRest, rfl, hhere, hrest, rfl⟩
  · rintro ⟨state, rest, plainHere, plainRest, rfl, hhere, hrest, rfl⟩
    simp [allStates, hhere, hrest]

theorem length_of_states {n : Nest} {state : Value} {plain : List Value}
    (h : n.states state = some plain) : plain.length = n.stages.length := by
  induction n generalizing state plain with
  | leaf l =>
    cases h
    rfl
  | join up down ihUp ihDown =>
    obtain ⟨a, b, plainUp, plainDown, _, hup, hdown, rfl⟩ := states_join_eq_some_iff.mp h
    simp [ihUp hup, ihDown hdown]

/-- Null stands for null everywhere. -/
theorem states_null (n : Nest) : n.states .null = some (n.stages.map fun _ => .null) := by
  induction n with
  | leaf l => rfl
  | join up down ihUp ihDown => simp [states, Stage.partStates, ihUp, ihDown]

theorem allStates_null (nests : List Nest) :
    allStates nests (nests.map fun _ => .null) =
      some ((nests.flatMap stages).map fun _ => .null) := by
  induction nests with
  | nil => rfl
  | cons n rest ih =>
    rw [List.map_cons, allStates, states_null, ih, List.flatMap_cons, List.map_append]
    rfl

/-! ## One segment -/

/-- A run of a segment did what the passage through its original stages did: the same effects and
the same output with corresponding states, or the same effects and the same fault. -/
inductive Mirrors (n : Nest) : Run → Passage → Prop
  | returned {effects : List Value} {state output : Value} {plain : List Value}
    (states : n.states state = some plain) :
    Mirrors n ⟨effects, .ok (state, output)⟩ ⟨effects, .ok output, plain⟩
  | failed {effects : List Value} {e : Fault} {plain : List Value} :
    Mirrors n ⟨effects, .error e⟩ ⟨effects, .error e, plain⟩

theorem run_mirrors (n : Nest) : ∀ {state : Value} {plain : List Value} (v : Value),
    n.states state = some plain →
    n.Mirrors (n.stage.run v state) (feed (n.stages.zip plain) v) := by
  induction n with
  | leaf l =>
    intro state plain v h
    cases h
    simp only [stages_leaf, stage_leaf, List.zip_cons_cons, List.zip_nil_right, feed]
    obtain ⟨effects, outcome⟩ := l.stage.run v state
    cases outcome with
    | error e => exact .failed
    | ok r =>
      simp only [List.append_nil]
      exact .returned rfl
  | join up down ihUp ihDown =>
    intro state plain v h
    obtain ⟨a, b, plainUp, plainDown, hparts, hup, hdown, rfl⟩ := states_join_eq_some_iff.mp h
    have hrunUp := ihUp v hup
    rw [stages_join, List.zip_append (length_of_states hup).symm, feed_append, stage_join]
    rw [Stage.run_andThenAs hparts]
    -- the downstream part runs only on an output of the upstream part
    generalize up.stage.run v a = runUp at hrunUp ⊢
    generalize feed (up.stages.zip plainUp) v = passUp at hrunUp ⊢
    cases hrunUp with
    | failed => exact .failed
    | @returned effectsUp stateUp mid newUp hnewUp =>
      have hrunDown := ihDown mid hdown
      simp only [Logged.mk_ok_bind]
      generalize down.stage.run mid b = runDown at hrunDown ⊢
      generalize feed (down.stages.zip plainDown) mid = passDown at hrunDown ⊢
      cases hrunDown with
      | failed => exact .failed
      | @returned effectsDown stateDown out newDown hnewDown =>
        simp only [Logged.mk_ok_bind, Logged.log_pure, Logged.outcome_pure, List.append_nil]
        exact .returned (states_join_eq_some_iff.mpr
          ⟨stateUp, stateDown, newUp, newDown, rfl, hnewUp, hnewDown, rfl⟩)

/-! ## Whole chains -/

/-- Where a passage stopped with a fault `e`: the segments before the broken one have moved to states
that correspond, the broken segment is in the state it had, and those after it are untouched. -/
inductive StoppedAt (before : List Nest) (broken : Nest) (after : List Nest) (v : Value)
    (e : Fault) : (segs plain newSegs newPlain : List Value) → Prop
  | intro {segsBefore movedSegs segsAfter : List Value} {seg mid : Value}
    {plainBefore movedPlain plainBroken leftPlain plainAfter : List Value}
    (started : allStates before segsBefore = some plainBefore)
    (reached : (feed ((before.flatMap stages).zip plainBefore) v).output = .ok mid)
    (moved : allStates before movedSegs = some movedPlain)
    (held : broken.states seg = some plainBroken)
    (failed : (feed (broken.stages.zip plainBroken) mid).output = .error e)
    (left : leftPlain.length = plainBroken.length)
    (untouched : allStates after segsAfter = some plainAfter) :
    StoppedAt before broken after v e
      (segsBefore ++ seg :: segsAfter) (plainBefore ++ (plainBroken ++ plainAfter))
      (movedSegs ++ seg :: segsAfter) (movedPlain ++ (leftPlain ++ plainAfter))

/-- The passage of a value through segments and the one through their original stages, from
corresponding states. -/
structure Matches (nests : List Nest) (segs plain : List Value) (v : Value)
    (fused original : Passage) : Prop where
  effects : fused.effects = original.effects
  output : fused.output = original.output
  states_of_ok {out : Value} : original.output = .ok out →
    allStates nests fused.states = some original.states
  states_of_error {e : Fault} : original.output = .error e →
    ∃ before broken after, nests = before ++ broken :: after ∧
      StoppedAt before broken after v e segs plain fused.states original.states

theorem length_of_allStates {nests : List Nest} {segs plain : List Value}
    (h : allStates nests segs = some plain) :
    segs.length = nests.length ∧ plain.length = (nests.flatMap stages).length := by
  induction nests generalizing segs plain with
  | nil => cases segs <;> simp_all [allStates]
  | cons n nests ih =>
    obtain ⟨state, rest, here, tail, rfl, hhere, htail, rfl⟩ := allStates_cons_eq_some_iff.mp h
    obtain ⟨hsegs, hplain⟩ := ih htail
    simp [hsegs, hplain, length_of_states hhere]

/-- A segment that a passage has left is one more segment before the broken one. -/
theorem StoppedAt.cons {before after : List Nest} {broken n : Nest} {v out state state' : Value}
    {e : Fault} {segs plain newSegs newPlain here here' : List Value}
    (h : StoppedAt before broken after out e segs plain newSegs newPlain)
    (hstate : n.states state = some here) (hstate' : n.states state' = some here')
    (hout : (feed (n.stages.zip here) v).output = .ok out) :
    StoppedAt (n :: before) broken after v e
      (state :: segs) (here ++ plain) (state' :: newSegs) (here' ++ newPlain) := by
  obtain ⟨started, reached, moved, held, failed, left, untouched⟩ := h
  simp only [← List.cons_append, ← List.append_assoc here, ← List.append_assoc here']
  refine .intro (allStates_cons_eq_some_iff.mpr ⟨_, _, _, _, rfl, hstate, started, rfl⟩) ?_
    (allStates_cons_eq_some_iff.mpr ⟨_, _, _, _, rfl, hstate', moved, rfl⟩) held failed left
    untouched
  rw [List.flatMap_cons, List.zip_append (length_of_states hstate).symm, feed_append, hout]
  exact reached

theorem feed_matches (nests : List Nest) : ∀ {segs plain : List Value} (v : Value),
    allStates nests segs = some plain →
    Matches nests segs plain v (feed ((nests.map stage).zip segs) v)
      (feed ((nests.flatMap stages).zip plain) v) := by
  induction nests with
  | nil =>
    intro segs plain v h
    cases segs with
    | nil =>
      cases h
      exact ⟨rfl, rfl, fun _ => rfl, fun h => by cases h⟩
    | cons => cases h
  | cons n nests ih =>
    intro segs plain v h
    obtain ⟨state, rest, here, tail, rfl, hhere, htail, rfl⟩ := allStates_cons_eq_some_iff.mp h
    have hrun := run_mirrors n v hhere
    have hlen := length_states_feed (n.stages.zip here) v
    obtain ⟨hrest, htail'⟩ := length_of_allStates htail
    rw [List.flatMap_cons, List.zip_append (length_of_states hhere).symm, feed_append, List.map_cons,
      List.zip_cons_cons, feed]
    generalize hpass : feed (n.stages.zip here) v = pass at hrun hlen ⊢
    generalize n.stage.run v state = run at hrun ⊢
    cases hrun with
    | @failed effects e left =>
      -- the first segment breaks, and nothing has moved before it
      refine ⟨rfl, rfl, fun h => (by cases h), fun h => ?_⟩
      cases h
      refine ⟨[], n, nests, rfl, ?_⟩
      rw [List.map_snd_zip (by simp [hrest]), List.map_snd_zip (by simp [htail'])]
      show StoppedAt [] n nests v e ([] ++ state :: rest) ([] ++ (here ++ tail))
        ([] ++ state :: rest) ([] ++ (left ++ tail))
      refine .intro rfl rfl rfl hhere ?_ ?_ htail
      · rw [hpass]
      · simpa [length_of_states hhere] using hlen
    | @returned effects state' out here' hnew =>
      obtain ⟨heffects, houtput, hok, herror⟩ := ih out htail
      refine ⟨by simp [heffects], houtput, fun h => ?_, fun h => ?_⟩
      · exact allStates_cons_eq_some_iff.mpr ⟨_, _, _, _, rfl, hnew, hok h, rfl⟩
      · obtain ⟨before, broken, after, rfl, hstopped⟩ := herror h
        exact ⟨n :: before, broken, after, rfl, hstopped.cons hhere hnew (by rw [hpass])⟩

end Nest

/-! ## Driven chains -/

/-- What can be seen of a passage from outside. -/
def Passage.seen (p : Passage) : List Value × Except Fault Value :=
  (p.effects, p.output)

/-- The passages up to and including the first that ends in a fault. -/
def untilFault : List Passage → List Passage
  | [] => []
  | p :: rest =>
    match p.output with
    | .ok _ => p :: untilFault rest
    | .error _ => [p]

open Nest (allStates Matches)

theorem untilFault_feedAll (nests : List Nest) (inputs : List Value) :
    ∀ {segs plain : List Value}, allStates nests segs = some plain →
    (untilFault (feedAll (nests.map Nest.stage) segs inputs)).map Passage.seen =
      (untilFault (feedAll (nests.flatMap Nest.stages) plain inputs)).map Passage.seen := by
  induction inputs with
  | nil =>
    intro segs plain h
    rfl
  | cons v inputs ih =>
    intro segs plain h
    have hm := Nest.feed_matches nests v h
    simp only [feedAll, untilFault]
    generalize feed ((nests.map Nest.stage).zip segs) v = fused at hm ⊢
    generalize feed ((nests.flatMap Nest.stages).zip plain) v = original at hm ⊢
    have hseen : fused.seen = original.seen := by simp [Passage.seen, hm.effects, hm.output]
    -- the list goes on only after a passage without fault, where the new states correspond
    rw [hm.output]
    cases hout : original.output with
    | error e => simp [hseen]
    | ok out => simp only [List.map_cons, hseen, ih (hm.states_of_ok hout)]

/-- **Fusion preserves behaviour.** The segments are made of the original links. However they are
explained so, a value that passes through them from corresponding states does what it does in the
original chain, and leaves corresponding states but in a segment where it fails. Driven from fresh
states, the two chains cannot be told apart up to and including the first fault. -/
theorem optimize_simulates {r : Registry} {links : List Link} {result : OptimizedChain}
    (h : (r.optimize links).outcome = .ok result) :
    (∃ nests, Grouped nests links result.links) ∧
    (∀ nests, Grouped nests links result.links → ∀ segs plain v,
      allStates nests segs = some plain →
      Matches nests segs plain v (feed (result.stages.zip segs) v)
        (feed ((links.map (·.stage)).zip plain) v)) ∧
    ∀ inputs, (untilFault (driveChain result.stages inputs)).map Passage.seen =
      (untilFault (driveChain (links.map (·.stage)) inputs)).map Passage.seen := by
  refine ⟨exists_grouped h, ?_, ?_⟩
  · intro nests hg segs plain v hstates
    rw [OptimizedChain.stages, hg.stages_out, hg.stages_links]
    exact Nest.feed_matches nests v hstates
  · intro inputs
    obtain ⟨nests, hg⟩ := exists_grouped h
    rw [OptimizedChain.stages, hg.stages_out, hg.stages_links]
    apply untilFault_feedAll
    rw [List.map_map]
    exact Nest.allStates_null nests

/-- A chain that is fused in two sweeps, and whose second stage fails on values such as null. -/
def guardedScan : List Link :=
  [⟨.stateful (fun v _ => return (v, v)) (.conditional (fun v => .ok v.isTruthy) 1 0) "throttleTime",
      "throttleTime"⟩,
    ⟨.map fun v => if v.isTruthy then return v else throw (.raised "no value"), "map"⟩,
    ⟨.scan (.list []) fun acc v => return .pair acc v, "scan"⟩,
    ⟨.tap Logged.tell, "tap"⟩]

/-- The fused chain performs the effect of the first value and fails on the second as the original
chain does. -/
theorem guardedScan_simulated : ∃ result,
    (Registry.builtin.optimize guardedScan).outcome = .ok result ∧
    result.names = ["throttleTime+map+scan", "tap"] ∧
    (untilFault (driveChain result.stages [.int 1, .null])).map Passage.seen =
      [([.pair (.list []) (.int 1)], .ok (.pair (.list []) (.int 1))),
        ([], .error (.raised "no value"))] := by
  obtain ⟨result, h, hnames⟩ := exists_ok_of_toOption_map (f := OptimizedChain.names)
    (x := (Registry.builtin.optimize guardedScan).outcome)
    (b := ["throttleTime+map+scan", "tap"]) (by decide +kernel)
  refine ⟨result, h, hnames, ?_⟩
  rw [(optimize_simulates h).2.2]
  rfl

end StageFusion
