import Mathlib.Data.List.Forall2
import StageFusion.Proofs.FixedPoint
import StageFusion.Registry.Draft

/-! What a run depends on.

Registries are asked for nothing but the records of the components of names. Two registries that agree
on these (`Registry.AgreeOn`) make the same run of a chain, with the same events, result or fault
(`Registry.optimize_congr`).

Decisions are made by names. `Swept.parallel` runs two chains side by side: a relation between links
that have the same names, and one between records, which every attempt keeps, hold of what both runs
leave. With equal names alone, the records differ in their bounds at most (`Progress.Alike`); with
equal shapes as well, they are equal. -/

namespace StageFusion

open Service (placeholders)

theorem forall₂_map_eq_iff {α β γ : Type} {f : α → γ} {g : β → γ} {xs : List α} {ys : List β} :
    List.Forall₂ (fun a b => f a = g b) xs ys ↔ xs.map f = ys.map g := by
  rw [← List.forall₂_eq_eq_eq, List.forall₂_map_left_iff, List.forall₂_map_right_iff]

/-! ## Two registries -/

namespace Registry

variable {r r' : Registry}

/-- Two registries have the same records, or none, for the components of a name. -/
def AgreeOn (r r' : Registry) (name : String) : Prop :=
  ∀ c ∈ components name, r.get? c = r'.get? c

theorem AgreeOn.fusedName {up down : String} (hup : r.AgreeOn r' up) (hdown : r.AgreeOn r' down) :
    r.AgreeOn r' (fusedName up down) := by
  intro c hc
  rw [components_fusedName, List.mem_append] at hc
  exact hc.elim (hup c) (hdown c)

theorem agreeOn_of_extend {extended : Registry} {drafts : List Draft} {name : String}
    (h : r.extend drafts = .ok extended)
    (hfresh : ∀ d ∈ drafts, ∀ m, d.check = .ok m → m.1.name ∉ components name) :
    extended.AgreeOn r name :=
  fun _ hc => get?_extend h fun d hd m hm hname => hfresh d hd m hm (hname ▸ hc)

theorem AgreeOn.symm {name : String} (h : r.AgreeOn r' name) : r'.AgreeOn r name :=
  fun c hc => (h c hc).symm

theorem AgreeOn.resolve_eq {name : String} (h : r.AgreeOn r' name) :
    r.resolve name = r'.resolve name := by
  rw [resolve, mapM_congr h, resolve]

theorem AgreeOn.fuseStages_eq {nameA nameB : String} (ha : r.AgreeOn r' nameA)
    (hb : r.AgreeOn r' nameB) (a b : Stage) :
    r.fuseStages a b nameA nameB = r'.fuseStages a b nameA nameB := by
  rw [fuseStages, fuseStages, verdict, verdict, ha.resolve_eq, hb.resolve_eq]

theorem sweepFrom_congr {iteration : Nat} {rest : List Link} :
    ∀ {segment : Link} (start position : Nat) (p : Progress), r.AgreeOn r' segment.name →
    (∀ l ∈ rest, r.AgreeOn r' l.name) →
    r.sweepFrom iteration segment start position rest p =
      r'.sweepFrom iteration segment start position rest p := by
  induction rest with
  | nil =>
    intro segment start position p _ _
    rfl
  | cons next rest ih =>
    intro segment start position p hsegment hchain
    obtain ⟨hnext, hrest⟩ := List.forall_mem_cons.mp hchain
    rw [sweepFrom, sweepFrom, hsegment.fuseStages_eq hnext]
    congr 1
    funext decision
    cases decision with
    | fused bound stage =>
      dsimp only
      congr 1
      funext counted
      exact ih start (position + 1) counted (hsegment.fusedName hnext) hrest
    | refused bound reason =>
      dsimp only
      rw [ih position (position + 1) _ hnext hrest]

theorem sweep_congr {chain : List Link} (h : ∀ l ∈ chain, r.AgreeOn r' l.name) (iteration : Nat)
    (p : Progress) : r.sweep iteration chain p = r'.sweep iteration chain p := by
  cases chain with
  | nil => rfl
  | cons first rest =>
    obtain ⟨hfirst, hrest⟩ := List.forall_mem_cons.mp h
    exact sweepFrom_congr 0 1 p hfirst hrest

theorem settle_congr (iteration : Nat) (chain : List Link) (p : Progress) :
    (∀ l ∈ chain, r.AgreeOn r' l.name) →
    r.settle iteration chain p = r'.settle iteration chain p := by
  fun_induction Registry.settle r iteration chain p with
  | case1 iteration chain p swept e he =>
    intro h
    have hs : r'.sweep iteration chain p = swept := (sweep_congr h iteration p).symm
    rw [settle_of_error (e := e) (by rw [hs]; exact he), hs]
  | case2 iteration chain p swept mid shorter he moved settled ih =>
    intro h
    have hs : r'.sweep iteration chain p = swept := (sweep_congr h iteration p).symm
    -- a sweep joins names that the registries agree on into such names
    have hshorter : ∀ l ∈ shorter, r.AgreeOn r' l.name :=
      (outcome_sweep_eq_ok_iff.mp he).forall_mem (fun _ _ _ ha hb => ha.fusedName hb) h
    rw [settle_of_moved (by rw [hs]; exact he) moved, hs, ← ih hshorter]
  | case3 iteration chain p swept mid shorter he still =>
    intro h
    have hs : r'.sweep iteration chain p = swept := (sweep_congr h iteration p).symm
    rw [settle_of_still (by rw [hs]; exact he) still, hs]

theorem unknownNames_congr {links : List Link} (h : ∀ l ∈ links, r.AgreeOn r' l.name) :
    r.unknownNames links = r'.unknownNames links := by
  rw [unknownNames, unknownNames]
  congr 1
  apply List.filter_congr
  intro name hname
  obtain ⟨l, hl, rfl⟩ := List.mem_map.mp hname
  rw [(h l hl).resolve_eq]

/-- Registries with the same records for all components of names make the same run. -/
theorem optimize_congr {links : List Link} (h : ∀ l ∈ links, r.AgreeOn r' l.name) :
    r.optimize links = r'.optimize links := by
  rw [optimize, optimize, unknownNames_congr h, settle_congr 0 links {} h]

end Registry

/-! ## Two runs side by side -/

/-- A relation between links and one between records that hold on along two runs: related links go by
the same names and are joined into related links, and an attempt at related links leaves related
records. -/
structure Parallel (L : Link → Link → Prop) (P : Progress → Progress → Prop) : Prop where
  name_eq {a a' : Link} (ha : L a a') : a.name = a'.name
  join {a a' b b' : Link} (ha : L a a') (hb : L b b') : L (a.join b) (a'.join b')
  fusion {a a' b b' : Link} {iteration start : Nat} {p p' q q' : Progress} (hp : P p p')
    (ha : L a a') (hb : L b b')
    (count : (p.note iteration start a.name b.name
        (.fused (a.joinBound b) (a.join b).stage)).countFusion
      a.stage.bound b.stage.bound (a.joinBound b) = .ok q)
    (count' : (p'.note iteration start a'.name b'.name
        (.fused (a'.joinBound b') (a'.join b').stage)).countFusion
      a'.stage.bound b'.stage.bound (a'.joinBound b') = .ok q') : P q q'
  skip {a a' b b' : Link} {p p' : Progress} (hp : P p p') (ha : L a a') (hb : L b b')
    (iteration start : Nat) (reason : String) :
    P (p.note iteration start a.name b.name (.refused (a.joinBound b) reason)).countSkip
      (p'.note iteration start a'.name b'.name (.refused (a'.joinBound b') reason)).countSkip

section

variable {r : Registry} {L : Link → Link → Prop} {P : Progress → Progress → Prop}
  {iteration : Nat} {chain chain' out out' : List Link} {p p' q q' : Progress}

theorem Swept.parallel (hparallel : Parallel L P) {segment : Link} {start position : Nat}
    {rest : List Link} (h : Swept r iteration segment start position rest p q out) :
    ∀ {segment' : Link} {rest' out' : List Link} {p' q' : Progress},
      Swept r iteration segment' start position rest' p' q' out' →
      L segment segment' → List.Forall₂ L rest rest' → P p p' →
      List.Forall₂ L out out' ∧ P q q' := by
  induction h with
  | last =>
    intro segment' rest' out' p' q' h' hsegment hrest hp
    cases hrest
    cases h'
    exact ⟨.cons hsegment .nil, hp⟩
  | joined allowed count tail ih =>
    intro segment' rest' out' p' q' h' hsegment hrest hp
    cases hrest with
    | cons hnext hrest =>
      -- the verdict is on the names, so the other run makes the same move
      rw [hparallel.name_eq hsegment, hparallel.name_eq hnext] at allowed
      cases h' with
      | joined allowed' count' tail' =>
        exact ih tail' (hparallel.join hsegment hnext) hrest
          (hparallel.fusion hp hsegment hnext count count')
      | parted refused' tail' =>
        rw [refused'] at allowed
        cases allowed
  | parted refused tail ih =>
    intro segment' rest' out' p' q' h' hsegment hrest hp
    cases hrest with
    | cons hnext hrest =>
      rw [hparallel.name_eq hsegment, hparallel.name_eq hnext] at refused
      cases h' with
      | joined allowed' count' tail' =>
        rw [allowed'] at refused
        cases refused
      | parted refused' tail' =>
        rw [refused'] at refused
        cases refused
        obtain ⟨hout, hq⟩ := ih tail' hnext hrest (hparallel.skip hp hsegment hnext _ _ _)
        exact ⟨.cons hsegment hout, hq⟩

theorem SweptChain.parallel (hparallel : Parallel L P) (h : SweptChain r iteration chain p q out)
    (h' : SweptChain r iteration chain' p' q' out') (hchain : List.Forall₂ L chain chain')
    (hp : P p p') : List.Forall₂ L out out' ∧ P q q' := by
  cases hchain with
  | nil =>
    cases h
    cases h'
    exact ⟨.nil, hp⟩
  | cons hfirst hrest =>
    cases h with
    | cons swept =>
      cases h' with
      | cons swept' => exact swept.parallel hparallel swept' hfirst hrest hp

theorem Settled.parallel (hparallel : Parallel L P) (h : Settled r iteration chain p q out) :
    ∀ {chain' out' : List Link} {p' q' : Progress}, Settled r iteration chain' p' q' out' →
      List.Forall₂ L chain chain' → P p p' → List.Forall₂ L out out' ∧ P q q' := by
  induction h with
  | stop swept still =>
    intro chain' out' p' q' h' hchain hp
    cases h' with
    | stop swept' still' => exact swept.parallel hparallel swept' hchain hp
    | again swept' moved' tail' =>
      obtain ⟨hout, -⟩ := swept.parallel hparallel swept' hchain hp
      rw [← hchain.length_eq, ← hout.length_eq] at moved'
      exact absurd moved' still
  | again swept moved tail ih =>
    intro chain' out' p' q' h' hchain hp
    cases h' with
    | stop swept' still' =>
      obtain ⟨hshorter, -⟩ := swept.parallel hparallel swept' hchain hp
      rw [hchain.length_eq, hshorter.length_eq] at moved
      exact absurd moved still'
    | again swept' moved' tail' =>
      obtain ⟨hshorter, hmid⟩ := swept.parallel hparallel swept' hchain hp
      exact ih tail' hshorter hmid

end

/-! ## Equal names -/

/-- An attempt without its bound. -/
def Attempt.withoutBound (a : Attempt) : Attempt :=
  { a with bound := .unbounded }

/-- Two records count the same attempts, and tell the same about them but for bounds. -/
structure Progress.Alike (p p' : Progress) : Prop where
  attempts_eq : p.stats.attempts = p'.stats.attempts
  fused_eq : p.stats.fused = p'.stats.fused
  skipped_eq : p.stats.skipped = p'.stats.skipped
  trace_eq : p.trace.map Attempt.withoutBound = p'.trace.map Attempt.withoutBound

namespace Progress

variable {p p' : Progress}

/-- Two decisions that differ in their bounds and stages at most are noted alike. -/
theorem Alike.note (h : p.Alike p') (iteration position : Nat) (up down : String)
    {d d' : Decision} (hstage : d.stage?.isSome = d'.stage?.isSome)
    (hreason : d.reason? = d'.reason?) :
    (p.note iteration position up down d).Alike (p'.note iteration position up down d') := by
  have hstep : p.trace.length = p'.trace.length := by
    simpa using congrArg List.length h.trace_eq
  refine ⟨h.attempts_eq, h.fused_eq, h.skipped_eq, ?_⟩
  simp only [Progress.note, List.map_append, List.map_cons, List.map_nil, h.trace_eq, hstep, hstage,
    hreason, Attempt.withoutBound]

/-- A counted fusion advances the counters of both records alike, whatever the bounds are. -/
theorem Alike.countFusion {q q' : Progress} {up up' down down' bound bound' : Multiplicity}
    (h : p.Alike p') (count : p.countFusion up down bound = .ok q)
    (count' : p'.countFusion up' down' bound' = .ok q') : q.Alike q' := by
  obtain ⟨_, _, rfl⟩ := exists_eq_of_countFusion count
  obtain ⟨_, _, rfl⟩ := exists_eq_of_countFusion count'
  exact ⟨congrArg (· + 1) h.attempts_eq, congrArg (· + 1) h.fused_eq, h.skipped_eq, h.trace_eq⟩

theorem Alike.countSkip (h : p.Alike p') : p.countSkip.Alike p'.countSkip :=
  ⟨congrArg (· + 1) h.attempts_eq, h.fused_eq, congrArg (· + 1) h.skipped_eq, h.trace_eq⟩

end Progress

theorem parallel_names : Parallel (fun a a' => a.name = a'.name) Progress.Alike where
  name_eq := id
  join ha hb := congrArg₂ fusedName ha hb
  fusion {a a' b b' iteration start p p' q q'} hp ha hb count count' := by
    rw [ha, hb] at count
    refine Progress.Alike.countFusion ?_ count count'
    exact hp.note iteration start a'.name b'.name rfl rfl
  skip {a a' b b' p p'} hp ha hb iteration start reason := by
    rw [ha, hb]
    apply Progress.Alike.countSkip
    exact hp.note iteration start a'.name b'.name rfl rfl

/-! ## Equal names and shapes -/

/-- Two links go by the same name, and their stages have the same shape. -/
structure Link.SameShape (a a' : Link) : Prop where
  name_eq : a.name = a'.name
  shape_eq : a.stage.shape = a'.stage.shape

namespace Link.SameShape

variable {a a' b b' : Link}

theorem bound_eq (h : a.SameShape a') : a.stage.bound = a'.stage.bound :=
  congrArg Shape.bound h.shape_eq

theorem joinBound_eq (ha : a.SameShape a') (hb : b.SameShape b') :
    a.joinBound b = a'.joinBound b' :=
  congrArg₂ Shape.boundAfter ha.bound_eq hb.shape_eq

theorem join (ha : a.SameShape a') (hb : b.SameShape b') : (a.join b).SameShape (a'.join b') :=
  ⟨congrArg₂ fusedName ha.name_eq hb.name_eq, congrArg₂ Shape.andThen ha.shape_eq hb.shape_eq⟩

theorem forall₂_iff {links links' : List Link} :
    List.Forall₂ SameShape links links' ↔ links.map (·.name) = links'.map (·.name) ∧
      links.map (·.stage.shape) = links'.map (·.stage.shape) := by
  constructor
  · intro h
    exact ⟨forall₂_map_eq_iff.mp (h.imp fun _ _ hl => hl.name_eq),
      forall₂_map_eq_iff.mp (h.imp fun _ _ hl => hl.shape_eq)⟩
  · rintro ⟨hnames, hshapes⟩
    have hpairs : links.map (fun l => (l.name, l.stage.shape)) =
        links'.map (fun l => (l.name, l.stage.shape)) := by
      rw [← List.zip_map', ← List.zip_map', hnames, hshapes]
    refine (forall₂_map_eq_iff.mpr hpairs).imp fun a a' h => ?_
    rw [Prod.mk.injEq] at h
    exact ⟨h.1, h.2⟩

end Link.SameShape

theorem parallel_sameShape : Parallel Link.SameShape Eq where
  name_eq h := h.name_eq
  join ha hb := ha.join hb
  fusion {a a' b b' iteration start p p' q q'} hp ha hb count count' := by
    subst hp
    -- the stages do differ, but a record only keeps that there was one
    have hnote : p.note iteration start a.name b.name (.fused (a.joinBound b) (a.join b).stage) =
        p.note iteration start a'.name b'.name (.fused (a'.joinBound b') (a'.join b').stage) := by
      rw [ha.name_eq, hb.name_eq, ha.joinBound_eq hb]
      rfl
    rw [hnote, ha.bound_eq, hb.bound_eq, ha.joinBound_eq hb, count'] at count
    cases count
    rfl
  skip {a a' b b' p p'} hp ha hb iteration start reason := by
    subst hp
    rw [ha.name_eq, hb.name_eq, ha.joinBound_eq hb]

/-! ## What a result depends on -/

section

variable {r : Registry} {links links' : List Link} {result result' : OptimizedChain}

theorem parallel_of_optimize {L : Link → Link → Prop} {P : Progress → Progress → Prop}
    (hparallel : Parallel L P) (h : (r.optimize links).outcome = .ok result)
    (h' : (r.optimize links').outcome = .ok result') (hlinks : List.Forall₂ L links links')
    (hp : P {} {}) :
    List.Forall₂ L result.links result'.links ∧
      P ⟨result.stats, result.trace⟩ ⟨result'.stats, result'.trace⟩ :=
  (outcome_optimize_eq_ok_iff.mp h).1.parallel hparallel (outcome_optimize_eq_ok_iff.mp h').1
    hlinks hp

theorem diagnostics_eq_of_names (h : (r.optimize links).outcome = .ok result)
    (h' : (r.optimize links').outcome = .ok result')
    (hnames : links.map (·.name) = links'.map (·.name)) :
    result.diagnostics = result'.diagnostics := by
  rw [OptimizedChain.diagnostics, OptimizedChain.diagnostics, (outcome_optimize_eq_ok_iff.mp h).2,
    (outcome_optimize_eq_ok_iff.mp h').2, Registry.unknownNames, Registry.unknownNames, hnames]

/-- **A run depends on names and records alone.** Chains of the same names, whatever their stages are,
over registries with the same records for the components of the names, come out with the same names
and warnings, after the same attempts but for the bounds. If the shapes are the same as well, the
bounds and the statistics are too. An extension by names that are no components changes nothing that
a run does. -/
theorem optimize_depends_on_names (r : Registry) (links : List Link) :
    (∀ (r' : Registry) (links' : List Link) (result result' : OptimizedChain),
      links.map (·.name) = links'.map (·.name) → (∀ l ∈ links, r.AgreeOn r' l.name) →
      (r.optimize links).outcome = .ok result → (r'.optimize links').outcome = .ok result' →
      result.names = result'.names ∧ result.diagnostics = result'.diagnostics ∧
      result.stats.attempts = result'.stats.attempts ∧
      result.stats.fused = result'.stats.fused ∧ result.stats.skipped = result'.stats.skipped ∧
      result.trace.map Attempt.withoutBound = result'.trace.map Attempt.withoutBound ∧
      (links.map (·.stage.shape) = links'.map (·.stage.shape) →
        result.bound = result'.bound ∧ result.trace = result'.trace ∧
        result.stats = result'.stats)) ∧
    ∀ (drafts : List Draft) (extended : Registry), r.extend drafts = .ok extended →
      (∀ d ∈ drafts, ∀ m, d.check = .ok m → ∀ l ∈ links, m.1.name ∉ components l.name) →
      extended.optimize links = r.optimize links := by
  constructor
  · intro r' links' result result' hnames hagree h h'
    -- the other registry can be replaced, since the other chain has the same names
    have hagree' : ∀ l ∈ links', r'.AgreeOn r l.name := by
      intro l hl
      have hmem : l.name ∈ links.map (·.name) := hnames ▸ List.mem_map_of_mem hl
      obtain ⟨l', hl', hname⟩ := List.mem_map.mp hmem
      exact hname ▸ (hagree l' hl').symm
    rw [Registry.optimize_congr hagree'] at h'
    obtain ⟨hout, halike⟩ := parallel_of_optimize parallel_names h h'
      (forall₂_map_eq_iff.mpr hnames) ⟨rfl, rfl, rfl, rfl⟩
    refine ⟨forall₂_map_eq_iff.mp hout, diagnostics_eq_of_names h h' hnames, halike.attempts_eq,
      halike.fused_eq, halike.skipped_eq, halike.trace_eq, ?_⟩
    intro hshapes
    obtain ⟨hsame, hrecord⟩ := parallel_of_optimize parallel_sameShape h h'
      (Link.SameShape.forall₂_iff.mpr ⟨hnames, hshapes⟩) rfl
    have hbounds : result.links.map (·.stage.bound) = result'.links.map (·.stage.bound) :=
      forall₂_map_eq_iff.mp (hsame.imp fun _ _ hl => hl.bound_eq)
    obtain ⟨hstats, htrace⟩ := Progress.mk.inj hrecord
    exact ⟨congrArg Multiplicity.product hbounds, htrace, hstats⟩
  · intro drafts extended hextend hfresh
    apply Registry.optimize_congr
    intro l hl
    exact Registry.agreeOn_of_extend hextend fun d hd m hm => hfresh d hd m hm l hl

end

/-- Links of the given names whose stages only fail, each with the same usage. -/
def brokenLinks (names : List String) (count : Nat) : List Link :=
  names.map fun name =>
    ⟨.stateless (fun _ => Logged.fail (.notPair "int")) (.constant count) "broken", name⟩

/-- Broken stages fuse as working ones do, beside an operator that does not occur. Only their usage
shows, in the bound. -/
theorem map_scan_tap_depends_on_names : ∃ extended result once thrice,
    Registry.builtin.extend
      [.record (.str "double") (.given .stateful) (.given (.conditional 2 2))] = .ok extended ∧
    (Registry.builtin.optimize
      (placeholders .builtin ["map", "scan", "tap"])).outcome = .ok result ∧
    (extended.optimize (brokenLinks ["map", "scan", "tap"] 1)).outcome = .ok once ∧
    (extended.optimize (brokenLinks ["map", "scan", "tap"] 3)).outcome = .ok thrice ∧
    result.names = ["map+scan", "tap"] ∧ result.names = once.names ∧ result.bound = once.bound ∧
    result.names = thrice.names ∧ thrice.bound = .exact 27 := by
  obtain ⟨extended, hextend, -⟩ := exists_ok_of_toOption_map (f := Registry.size)
    (x := Registry.builtin.extend
      [.record (.str "double") (.given .stateful) (.given (.conditional 2 2))])
    (b := 28) (by decide +kernel)
  obtain ⟨result, h, hnames⟩ := exists_ok_of_toOption_map (f := OptimizedChain.names)
    (x := (Registry.builtin.optimize (placeholders .builtin ["map", "scan", "tap"])).outcome)
    (b := ["map+scan", "tap"]) (by decide +kernel)
  obtain ⟨once, honce, -⟩ := exists_ok_of_toOption_map (f := OptimizedChain.names)
    (x := (Registry.builtin.optimize (brokenLinks ["map", "scan", "tap"] 1)).outcome)
    (b := ["map+scan", "tap"]) (by decide +kernel)
  obtain ⟨thrice, hthrice, hbound⟩ := exists_ok_of_toOption_map (f := OptimizedChain.bound)
    (x := (Registry.builtin.optimize (brokenLinks ["map", "scan", "tap"] 3)).outcome)
    (b := .exact 27) (by decide +kernel)
  have hfresh : ∀ name ∈ ["map", "scan", "tap"],
      ∀ d ∈ [Draft.record (.str "double") (.given .stateful) (.given (.conditional 2 2))],
      ∀ m, d.check = .ok m → m.1.name ∉ components name := by
    intro name hname d hd m hm
    obtain rfl := List.mem_singleton.mp hd
    have hvalid : IsOperatorName "double" := by decide
    simp only [Draft.check, Draft.checkName, dif_pos hvalid] at hm
    cases hm
    exact (by decide +kernel : ∀ name ∈ ["map", "scan", "tap"], "double" ∉ components name) _ hname
  have hextended : ∀ count, extended.optimize (brokenLinks ["map", "scan", "tap"] count) =
      Registry.builtin.optimize (brokenLinks ["map", "scan", "tap"] count) := by
    intro count
    apply (optimize_depends_on_names _ _).2 _ _ hextend
    intro d hd m hm l hl
    obtain ⟨name, hname, rfl⟩ := List.mem_map.mp hl
    exact hfresh name hname d hd m hm
  have hagree : ∀ l ∈ placeholders .builtin ["map", "scan", "tap"],
      Registry.builtin.AgreeOn extended l.name := by
    intro l hl
    obtain ⟨name, hname, rfl⟩ := List.mem_map.mp hl
    exact (Registry.agreeOn_of_extend hextend (hfresh name hname)).symm
  rw [← hextended 1] at honce
  rw [← hextended 3] at hthrice
  have hdepends := (optimize_depends_on_names Registry.builtin
    (placeholders .builtin ["map", "scan", "tap"])).1 extended
  obtain ⟨honceNames, -, -, -, -, -, hshapes⟩ :=
    hdepends (brokenLinks _ 1) result once rfl hagree h honce
  obtain ⟨hthriceNames, -⟩ := hdepends (brokenLinks _ 3) result thrice rfl hagree h hthrice
  obtain ⟨honceBound, -⟩ := hshapes (by decide +kernel)
  exact ⟨extended, result, once, thrice, hextend, h, honce, hthrice, hnames, honceNames, honceBound,
    hthriceNames, hbound⟩

end StageFusion
