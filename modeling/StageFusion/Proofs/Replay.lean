import Mathlib.Data.List.DropRight
import StageFusion.Proofs.Blocks
import StageFusion.Proofs.FixedPoint

/-! What the record of a run tells.

A trace is read back sweep by sweep. `Attempt.TellsOf` says what an attempt tells about the chain that
its sweep went over, and `SweepTold` that the attempts of a sweep do so, one for each link after the
first. `Link.merge` merges a chain as the attempts of a sweep say, and `Link.replay` as those of
several sweeps do.

`Sweeping` is the invariant of a sweep: which links are sealed, which the segment was joined from and
which are to come. Each kind of step keeps it, and `Swept.exists_told` is the whole sweep. The counters
are kept apart from it, in `Progress.Tallied`. -/

namespace StageFusion

open Service (placeholders)

/-! ## Merging as a record says -/

namespace Link

/-- A sequence of links as one, joined from the left. -/
def joinAll? : List Link → Option Link
  | [] => none
  | first :: rest => some (rest.foldl join first)

theorem joinAll?_concat {block : List Link} {segment : Link} (h : joinAll? block = some segment)
    (next : Link) : joinAll? (block ++ [next]) = some (segment.join next) := by
  cases block with
  | nil => cases h
  | cons first rest =>
    obtain rfl := Option.some.inj h
    rw [List.cons_append, joinAll?, List.foldl_concat]

theorem name_foldl_join (first : Link) (rest : List Link) :
    (rest.foldl join first).name = joinedName ((first :: rest).map (·.name)) := by
  induction rest using List.reverseRecOn with
  | nil => exact (joinedName_singleton first.name).symm
  | append_singleton rest next ih =>
    have hnames : (first :: rest).map (·.name) ≠ [] := List.cons_ne_nil _ _
    rw [List.foldl_concat, ← List.cons_append, List.map_append, List.map_singleton,
      joinedName_append hnames (List.cons_ne_nil _ _), ← ih, joinedName_singleton]
    rfl

theorem name_of_joinAll? {block : List Link} {l : Link} (h : joinAll? block = some l) :
    l.name = joinedName (block.map (·.name)) := by
  cases block with
  | nil => cases h
  | cons first rest =>
    obtain rfl := Option.some.inj h
    exact name_foldl_join first rest

/-- `segment` and the links after it, merged where a flag is set. -/
def mergeFrom : (segment : Link) → (rest : List Link) → (flags : List Bool) → List Link
  | segment, next :: rest, true :: flags => mergeFrom (segment.join next) rest flags
  | segment, next :: rest, false :: flags => segment :: mergeFrom next rest flags
  | segment, rest, _ => segment :: rest

theorem mergeFrom_ne_nil (segment : Link) (rest : List Link) (flags : List Bool) :
    mergeFrom segment rest flags ≠ [] := by
  fun_induction mergeFrom segment rest flags with
  | case1 segment next rest flags ih => exact ih
  | case2 segment next rest flags ih => exact List.cons_ne_nil _ _
  | case3 segment rest flags => exact List.cons_ne_nil _ _

/-- A chain merged where a flag is set, the first flag being that of its second link. -/
def merge (chain : List Link) (flags : List Bool) : List Link :=
  match chain with
  | [] => []
  | first :: rest => mergeFrom first rest flags

theorem merge_ne_nil {chain : List Link} (h : chain ≠ []) (flags : List Bool) :
    merge chain flags ≠ [] := by
  cases chain with
  | nil => exact absurd rfl h
  | cons first rest => exact mergeFrom_ne_nil first rest flags

/-- What sweeps leave of a chain, by the attempts of each. -/
def replay (chain : List Link) (groups : List (List Attempt)) : List Link :=
  groups.foldl (fun chain group => merge chain (group.map (·.fused))) chain

end Link

/-! ## What an attempt tells -/

/-- Where the segment begins after the attempts of a sweep so far: at the link that the last attempt
without a fusion was about, or else at the first link. -/
def segmentStart (attempts : List Attempt) : Nat :=
  (attempts.rdropWhile (·.fused)).length

/-- What an attempt tells about the chain of its sweep, `earlier` being the attempts that the sweep
made before it. Its bound is that of the stage which the fusion builds. -/
structure Attempt.TellsOf (iteration : Nat) (chain : List Link) (earlier : List Attempt)
    (a : Attempt) : Prop where
  iteration_eq : a.iteration = iteration
  position_eq : a.position = segmentStart earlier
  upstream_eq : a.upstream =
    joinedName ((chain.extract a.position (earlier.length + 1)).map (·.name))
  downstream_eq : chain[earlier.length + 1]?.map (·.name) = some a.downstream
  bound_eq : (Link.joinAll? (chain.extract a.position (earlier.length + 2))).map (·.stage.bound) =
    some a.bound

/-- Each attempt of a sweep over a chain tells about the chain what it should. -/
def Told (iteration : Nat) (chain : List Link) (attempts : List Attempt) : Prop :=
  ∀ earlier a later, attempts = earlier ++ a :: later → a.TellsOf iteration chain earlier

theorem Told.nil (iteration : Nat) (chain : List Link) : Told iteration chain [] := by
  intro earlier a later h
  simp at h

theorem Told.concat {iteration : Nat} {chain : List Link} {attempts : List Attempt} {a : Attempt}
    (h : Told iteration chain attempts) (ha : a.TellsOf iteration chain attempts) :
    Told iteration chain (attempts ++ [a]) := by
  intro earlier b later heq
  rcases List.eq_nil_or_concat' later with rfl | ⟨later, c, rfl⟩
  · obtain ⟨rfl, hb⟩ := List.append_inj' heq rfl
    obtain rfl := List.singleton_inj.mp hb
    exact ha
  · rw [← List.cons_append, ← List.append_assoc] at heq
    exact h earlier b later (List.append_inj' heq rfl).1

/-- The attempts of a sweep over a chain: one for each link after the first. -/
structure SweepTold (iteration : Nat) (chain : List Link) (group : List Attempt) : Prop where
  length_eq : group.length = chain.length - 1
  told : Told iteration chain group

/-- The attempts of sweeps from an iteration on, in groups: each group tells about the chain that the
groups before it leave. -/
def SweepsTold (iteration : Nat) (chain : List Link) (groups : List (List Attempt)) : Prop :=
  ∀ before group after, groups = before ++ group :: after →
    SweepTold (iteration + before.length) (Link.replay chain before) group

theorem SweepsTold.cons {iteration : Nat} {chain : List Link} {first : List Attempt}
    {groups : List (List Attempt)} (hfirst : SweepTold iteration chain first)
    (hgroups : SweepsTold (iteration + 1) (Link.merge chain (first.map (·.fused))) groups) :
    SweepsTold iteration chain (first :: groups) := by
  intro before group after heq
  cases before with
  | nil =>
    obtain ⟨rfl, -⟩ := List.cons.inj heq
    exact hfirst
  | cons _ before =>
    obtain ⟨rfl, hrest⟩ := List.cons.inj heq
    have h := hgroups before group after hrest
    rwa [Nat.add_assoc, Nat.add_comm 1] at h

theorem SweepsTold.nil (iteration : Nat) (chain : List Link) : SweepsTold iteration chain [] := by
  intro before group after h
  simp at h

/-! ## A sweep, step by step -/

/-- Where a sweep over `chain` stands after the attempts `made`: the links in `front` are sealed,
`segment` has been joined from those in `block`, and `rest` is to come. -/
structure Sweeping (iteration : Nat) (chain : List Link) (made : List Attempt)
    (front block : List Link) (segment : Link) (rest : List Link) : Prop where
  chain_eq : chain = front ++ block ++ rest
  length_eq : front.length + block.length = made.length + 1
  start_eq : front.length = segmentStart made
  segment_eq : Link.joinAll? block = some segment
  told : Told iteration chain made

namespace Sweeping

variable {iteration : Nat} {chain : List Link} {made : List Attempt} {front block : List Link}
  {segment next : Link} {rest : List Link} {a : Attempt}

theorem extract_block {stop : Nat} (h : front.length + block.length = stop) :
    (front ++ block ++ rest).extract front.length stop = block := by
  have hstop : stop - front.length = block.length := by omega
  rw [List.extract_eq_take_drop, hstop, List.append_assoc, List.drop_left, List.take_left]

/-- The attempt that a sweep notes next tells about its chain what it should. -/
theorem exists_note (h : Sweeping iteration chain made front block segment (next :: rest))
    {start : Nat} (hstart : start = front.length) (p : Progress) (d : Decision)
    (hd : d.bound = segment.joinBound next) :
    ∃ a : Attempt, a.TellsOf iteration chain made ∧ a.fused = d.stage?.isSome ∧
      (p.note iteration start segment.name next.name d).trace = p.trace ++ [a] := by
  subst hstart
  have hblock : chain.extract front.length (made.length + 1) = block := by
    rw [h.chain_eq, extract_block h.length_eq]
  have hwith : chain.extract front.length (made.length + 2) = block ++ [next] := by
    have hlength : front.length + (block ++ [next]).length = made.length + 2 := by
      rw [List.length_append, List.length_singleton, ← Nat.add_assoc, h.length_eq]
    rw [h.chain_eq, ← List.singleton_append, ← List.append_assoc, List.append_assoc front,
      extract_block hlength]
  refine ⟨⟨p.trace.length, iteration, front.length, segment.name, next.name, d.stage?.isSome,
    d.bound, d.reason?⟩, ?_, rfl, rfl⟩
  constructor
  case iteration_eq => rfl
  case position_eq => exact h.start_eq
  case upstream_eq =>
    rw [hblock]
    exact Link.name_of_joinAll? h.segment_eq
  case downstream_eq =>
    rw [h.chain_eq, ← h.length_eq, ← List.length_append, List.getElem?_append_right le_rfl,
      Nat.sub_self]
    rfl
  case bound_eq =>
    rw [hwith, Link.joinAll?_concat h.segment_eq, Option.map_some, Link.bound_join, hd]

theorem joined (h : Sweeping iteration chain made front block segment (next :: rest))
    (ha : a.TellsOf iteration chain made) (hfused : a.fused = true) :
    Sweeping iteration chain (made ++ [a]) front (block ++ [next]) (segment.join next) rest where
  chain_eq := by simp [h.chain_eq]
  length_eq := by
    have hlength := h.length_eq
    simp only [List.length_append, List.length_singleton]
    omega
  start_eq := by rw [h.start_eq, segmentStart, segmentStart, List.rdropWhile_concat_pos _ _ _ hfused]
  segment_eq := Link.joinAll?_concat h.segment_eq next
  told := h.told.concat ha

theorem parted (h : Sweeping iteration chain made front block segment (next :: rest))
    (ha : a.TellsOf iteration chain made) (hrefused : a.fused = false) :
    Sweeping iteration chain (made ++ [a]) (front ++ block) [next] next rest where
  chain_eq := by simp [h.chain_eq]
  length_eq := by
    have hlength := h.length_eq
    simp only [List.length_append, List.length_singleton]
    omega
  start_eq := by
    have hlength := h.length_eq
    rw [segmentStart, List.rdropWhile_concat_neg _ _ _ (by simp [hrefused])]
    simp only [List.length_append, List.length_singleton]
    omega
  segment_eq := rfl
  told := h.told.concat ha

end Sweeping

section

variable {r : Registry} {iteration : Nat} {segment : Link} {start position : Nat}
  {links chain rest out : List Link} {p q : Progress}

/-- The rest of a sweep makes one attempt for each link to come, and leaves what the attempts say. -/
theorem Swept.exists_told (h : Swept r iteration segment start position rest p q out) :
    ∀ {chain : List Link} {made : List Attempt} {front block : List Link},
      Sweeping iteration chain made front block segment rest → start = front.length →
      position = made.length + 1 →
    ∃ group : List Attempt, q.trace = p.trace ++ group ∧ group.length = rest.length ∧
      Link.mergeFrom segment rest (group.map (·.fused)) = out ∧
      Told iteration chain (made ++ group) := by
  induction h with
  | last segment start position p =>
    intro chain made front block hs hstart hposition
    refine ⟨[], (List.append_nil _).symm, rfl, rfl, ?_⟩
    rw [List.append_nil]
    exact hs.told
  | @joined segment next start position rest out p counted q rule announced allowed count tail ih =>
    intro chain made front block hs hstart hposition
    obtain ⟨a, ha, hfused, hnote⟩ := hs.exists_note hstart p
      (.fused (segment.joinBound next) (segment.join next).stage) rfl
    obtain ⟨group, htrace, hlength, hmerge, htold⟩ := ih (hs.joined ha hfused) hstart
      (by rw [hposition, List.length_append, List.length_singleton])
    refine ⟨a :: group, ?_, by rw [List.length_cons, hlength, List.length_cons], ?_, ?_⟩
    · rw [htrace, Progress.trace_of_countFusion count, hnote, List.append_assoc,
        List.singleton_append]
    · rw [List.map_cons, hfused]
      exact hmerge
    · rwa [List.append_assoc] at htold
  | @parted segment next start position rest out p q rule announced reason refused tail ih =>
    intro chain made front block hs hstart hposition
    obtain ⟨a, ha, hrefused, hnote⟩ := hs.exists_note hstart p
      (.refused (segment.joinBound next) reason) rfl
    -- the link that the attempt is about begins the next segment
    have hnext : position = (front ++ block).length := by
      rw [hposition, List.length_append, hs.length_eq]
    obtain ⟨group, htrace, hlength, hmerge, htold⟩ := ih (hs.parted ha hrefused) hnext
      (by rw [hposition, List.length_append, List.length_singleton])
    refine ⟨a :: group, ?_, by rw [List.length_cons, hlength, List.length_cons], ?_, ?_⟩
    · rw [htrace, Progress.countSkip, hnote, List.append_assoc, List.singleton_append]
    · rw [List.map_cons, hrefused]
      exact congrArg (segment :: ·) hmerge
    · rwa [List.append_assoc] at htold

theorem SweptChain.exists_told (h : SweptChain r iteration chain p q out) :
    ∃ group : List Attempt, q.trace = p.trace ++ group ∧ SweepTold iteration chain group ∧
      Link.merge chain (group.map (·.fused)) = out := by
  cases h with
  | empty => exact ⟨[], (List.append_nil _).symm, ⟨rfl, .nil _ _⟩, rfl⟩
  | @cons first rest out p q swept =>
    have hs : Sweeping iteration (first :: rest) [] [] [first] first rest :=
      ⟨rfl, rfl, rfl, rfl, .nil _ _⟩
    obtain ⟨group, htrace, hlength, hmerge, htold⟩ := swept.exists_told hs rfl rfl
    exact ⟨group, htrace, ⟨hlength, htold⟩, hmerge⟩

theorem Settled.exists_told (h : Settled r iteration chain p q out) :
    ∃ groups : List (List Attempt), q.trace = p.trace ++ groups.flatten ∧
      SweepsTold iteration chain groups ∧ Link.replay chain groups = out ∧
      (2 ≤ chain.length → [] ∉ groups) ∧ (chain.length ≤ 1 → groups.flatten = []) := by
  induction h with
  | @stop iteration chain out p q swept still =>
    obtain ⟨group, htrace, htold, hmerge⟩ := swept.exists_told
    have hlength := htold.length_eq
    refine ⟨[group], by simpa using htrace, .cons htold (.nil _ _), hmerge, ?_, ?_⟩
    · intro htwo hmem
      rw [← List.mem_singleton.mp hmem, List.length_nil] at hlength
      omega
    · intro hshort
      have hnil : group = [] := List.length_eq_zero_iff.mp (by omega)
      simp [hnil]
  | @again iteration chain shorter out p mid q swept moved tail ih =>
    obtain ⟨group, htrace, htold, rfl⟩ := swept.exists_told
    obtain ⟨groups, hgroups, htolds, hreplay, hne, -⟩ := ih
    have hlength := htold.length_eq
    have hchain : chain ≠ [] := by
      rintro rfl
      exact absurd moved.1 (Nat.not_lt_zero _)
    have hleft := List.length_pos_iff.mpr (Link.merge_ne_nil hchain (group.map (·.fused)))
    have htwo : 2 ≤ (Link.merge chain (group.map (·.fused))).length := by omega
    refine ⟨group :: groups, ?_, .cons htold htolds, hreplay, ?_, by omega⟩
    · rw [hgroups, htrace, List.flatten_cons, List.append_assoc]
    · intro _ hmem
      rcases List.mem_cons.mp hmem with hnil | hmem
      · rw [← hnil, List.length_nil] at hlength
        omega
      · exact hne htwo hmem

/-! ## The counters -/

/-- The record of a run that began with `links` links and has `left` of them left: steps are numbered
from zero, the statistics count the attempts of the trace, and each fusion has taken away one link. -/
structure Progress.Tallied (links left : Nat) (p : Progress) : Prop where
  steps_eq : p.trace.map (·.step) = List.range p.trace.length
  attempts_eq : p.stats.attempts = p.trace.length
  fused_eq : p.stats.fused = p.trace.countP (·.fused)
  skipped_eq : p.stats.skipped = p.trace.countP (!·.fused)
  left_eq : p.stats.fused + left = links

namespace Progress

theorem steps_note (h : p.trace.map (·.step) = List.range p.trace.length)
    (iteration position : Nat) (up down : String) (d : Decision) :
    (p.note iteration position up down d).trace.map (·.step) =
      List.range (p.note iteration position up down d).trace.length := by
  simp [note, h, List.range_succ]

theorem Tallied.fusion {total left position : Nat} {up down : String} {counted : Progress}
    {bound boundUp boundDown boundFused : Multiplicity} {stage : Stage}
    (h : p.Tallied total (left + 1))
    (hc : (p.note iteration position up down (.fused bound stage)).countFusion boundUp boundDown
      boundFused = .ok counted) : counted.Tallied total left := by
  obtain ⟨average, reductions, rfl⟩ := exists_eq_of_countFusion hc
  obtain ⟨hsteps, hattempts, hfused, hskipped, hleft⟩ := h
  constructor
  · exact steps_note hsteps _ _ _ _ _
  · simp [note, hattempts]
  · simp [note, hfused, Decision.stage?]
  · simp [note, hskipped, Decision.stage?]
  · simp only [note]
    omega

theorem Tallied.skip {total left : Nat} (h : p.Tallied total left) (iteration position : Nat)
    (up down : String) (bound : Multiplicity) (reason : String) :
    (p.note iteration position up down (.refused bound reason)).countSkip.Tallied total left := by
  obtain ⟨hsteps, hattempts, hfused, hskipped, hleft⟩ := h
  constructor
  · exact steps_note hsteps _ _ _ _ _
  · simp [countSkip, note, Stats.addSkip, hattempts]
  · simp [countSkip, note, Stats.addSkip, hfused, Decision.stage?]
  · simp [countSkip, note, Stats.addSkip, hskipped, Decision.stage?]
  · exact hleft

end Progress

/-- A sweep keeps the tally; `done` links are in segments sealed before. -/
theorem Swept.tallied {total : Nat} (h : Swept r iteration segment start position rest p q out) :
    ∀ {done : Nat}, p.Tallied total (done + rest.length + 1) →
      q.Tallied total (done + out.length) := by
  induction h with
  | last =>
    intro done hp
    exact hp
  | joined allowed count tail ih =>
    intro done hp
    exact ih (hp.fusion count)
  | @parted segment next start position rest out p q rule announced reason refused tail ih =>
    intro done hp
    have htail : p.Tallied total (done + 1 + rest.length + 1) := by
      rwa [List.length_cons, ← Nat.add_assoc, Nat.add_right_comm done] at hp
    have h := ih (htail.skip _ _ _ _ _ _)
    rwa [Nat.add_right_comm, Nat.add_assoc, ← List.length_cons (a := segment)] at h

theorem SweptChain.tallied {total : Nat} (h : SweptChain r iteration chain p q out)
    (hp : p.Tallied total chain.length) : q.Tallied total out.length := by
  cases h with
  | empty => exact hp
  | cons swept =>
    rw [List.length_cons, ← Nat.zero_add (_ + 1), ← Nat.add_assoc] at hp
    simpa using swept.tallied hp

theorem Settled.tallied {total : Nat} (h : Settled r iteration chain p q out) :
    p.Tallied total chain.length → q.Tallied total out.length := by
  induction h with
  | stop swept still => exact swept.tallied
  | again swept moved tail ih => exact fun hp => ih (swept.tallied hp)

/-! ## The whole run -/

/-- **A run can be replayed from its record.** The trace falls into the attempts of one sweep after the
other. The attempts of a sweep tell about the chain that the sweeps before it leave of the links, and
say how to merge it; the last chain so merged is the result. The steps are numbered through, and the
statistics count the attempts and the links that went into others. -/
theorem optimize_replays {result : OptimizedChain} (h : (r.optimize links).outcome = .ok result) :
    (∃ groups : List (List Attempt), result.trace = groups.flatten ∧ SweepsTold 0 links groups ∧
      Link.replay links groups = result.links ∧ (2 ≤ links.length → [] ∉ groups)) ∧
    (links.length ≤ 1 → result.trace = []) ∧
    Progress.Tallied links.length result.links.length ⟨result.stats, result.trace⟩ := by
  have hs := (outcome_optimize_eq_ok_iff.mp h).1
  have hstart : Progress.Tallied links.length links.length {} :=
    ⟨rfl, rfl, rfl, rfl, Nat.zero_add _⟩
  obtain ⟨groups, htrace, htold, hreplay, hne, hshort⟩ := hs.exists_told
  have hflat : result.trace = groups.flatten := htrace
  exact ⟨⟨groups, hflat, htold, hreplay, hne⟩, fun hlength => hflat.trans (hshort hlength),
    hs.tallied hstart⟩

end

/-- The segment begins at the second link in the first sweep, and at the first link in the second. -/
theorem throttleTime_map_scan_tap_replays : ∃ result,
    (Registry.builtin.optimize
      (placeholders .builtin ["throttleTime", "map", "scan", "tap"])).outcome = .ok result ∧
    result.trace.map (fun a => (a.iteration, a.position, a.upstream, a.fused)) =
      [(0, 0, "throttleTime", false), (0, 1, "map", true), (0, 1, "map+scan", false),
        (1, 0, "throttleTime", true), (1, 0, "throttleTime+map+scan", false),
        (2, 0, "throttleTime+map+scan", false)] ∧
    (∃ groups : List (List Attempt), result.trace = groups.flatten ∧
      SweepsTold 0 (placeholders .builtin ["throttleTime", "map", "scan", "tap"]) groups ∧
      Link.replay (placeholders .builtin ["throttleTime", "map", "scan", "tap"]) groups =
        result.links ∧ [] ∉ groups) ∧
    Progress.Tallied 4 2 ⟨result.stats, result.trace⟩ := by
  obtain ⟨result, h, hseen⟩ := exists_ok_of_toOption_map
    (f := fun c : OptimizedChain => (c.links.length,
      c.trace.map fun a => (a.iteration, a.position, a.upstream, a.fused)))
    (x := (Registry.builtin.optimize
      (placeholders .builtin ["throttleTime", "map", "scan", "tap"])).outcome)
    (b := (2, [(0, 0, "throttleTime", false), (0, 1, "map", true), (0, 1, "map+scan", false),
      (1, 0, "throttleTime", true), (1, 0, "throttleTime+map+scan", false),
      (2, 0, "throttleTime+map+scan", false)]))
    (by decide +kernel)
  obtain ⟨hlength, htrace⟩ := Prod.mk.injEq .. ▸ hseen
  obtain ⟨⟨groups, hflat, htold, hreplay, hne⟩, -, htallied⟩ := optimize_replays h
  have hfour : (placeholders .builtin ["throttleTime", "map", "scan", "tap"]).length = 4 := by
    decide +kernel
  rw [hlength, hfour] at htallied
  exact ⟨result, h, htrace, ⟨groups, hflat, htold, hreplay, hne (by rw [hfour]; decide)⟩, htallied⟩

end StageFusion
