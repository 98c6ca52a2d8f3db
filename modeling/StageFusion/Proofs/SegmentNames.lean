import StageFusion.Proofs.FixedPoint

/-! Segments are what their names stand for.

The stage of a segment has been composed in the order in which its links were fused, while its name is
read from left to right. If the registry has no choice between equal counts, composition is
associative and the two agree: a link whose stage has the shape and category of its name hands this on
through every sweep (`Link.Faithful.join`). So the names of the segments are enough to ask for them
again (`exists_optimize_again`): their placeholders have the same shapes and categories, and are
refused pair by pair as the segments are. -/

namespace StageFusion

open Service

/-! ## Links that are what their names stand for -/

/-- The stage of a link with a known name has the shape and category of the record of this name. -/
def Link.Faithful (r : Registry) (l : Link) : Prop :=
  ∀ m, r.resolve l.name = some m → l.stage.shape = m.shape ∧ l.stage.category = m.category

theorem Link.Faithful.join {r : Registry} (hr : r.Reduced) {a b : Link} (ha : a.Faithful r)
    (hb : b.Faithful r) : (a.join b).Faithful r := by
  intro whole hwhole
  obtain ⟨x, y, hx, hy, _⟩ := Registry.joined_of_resolve hwhole
  obtain ⟨hshapeA, hcategoryA⟩ := ha x hx
  obtain ⟨hshapeB, hcategoryB⟩ := hb y hy
  obtain rfl : x.andThen y = whole :=
    Option.some.inj ((Registry.resolve_fusedName hr hx hy).symm.trans hwhole)
  constructor
  · calc (a.join b).stage.shape
        = a.stage.shape.andThen b.stage.shape := rfl
      _ = x.shape.andThen y.shape := by rw [hshapeA, hshapeB]
  · calc (a.join b).stage.category
        = a.stage.category.join b.stage.category := rfl
      _ = x.category.join y.category := by rw [hcategoryA, hcategoryB]

/-- The stage of a link has the shape and category of the placeholder of its name. -/
structure Link.LikePlaceholder (r : Registry) (l : Link) : Prop where
  shape : l.stage.shape = (stageFor r l.name).shape
  category : l.stage.category = (stageFor r l.name).category

theorem likePlaceholder_iff_of_resolve {r : Registry} {l : Link} {m : Operator}
    (h : r.resolve l.name = some m) :
    l.LikePlaceholder r ↔ l.stage.shape = m.shape ∧ l.stage.category = m.category := by
  have hshape : (stageFor r l.name).shape = m.shape := by
    simp [stageFor, h, Stage.shape, Usage.ofShape]
  have hcategory : (stageFor r l.name).category = m.category := by simp [stageFor, h]
  rw [← hshape, ← hcategory]
  exact ⟨fun hl => ⟨hl.shape, hl.category⟩, fun hl => ⟨hl.1, hl.2⟩⟩

theorem Link.LikePlaceholder.faithful {r : Registry} {l : Link} (h : l.LikePlaceholder r) :
    l.Faithful r :=
  fun _ hm => (likePlaceholder_iff_of_resolve hm).mp h

theorem Link.LikePlaceholder.join {r : Registry} (hr : r.Reduced) {a b : Link}
    (hallows : r.Allows a.name b.name) (ha : a.LikePlaceholder r) (hb : b.LikePlaceholder r) :
    (a.join b).LikePlaceholder r := by
  -- unknown names have placeholders too, but they are never fused
  obtain ⟨_, _, hverdict⟩ := hallows
  have hknown : (r.resolve (a.join b).name).isSome :=
    (r.isSome_resolve_fusedName a.name b.name).mpr (Registry.isSome_resolve_of_allowed hverdict)
  obtain ⟨whole, hwhole⟩ := Option.isSome_iff_exists.mp hknown
  exact (likePlaceholder_iff_of_resolve hwhole).mpr (ha.faithful.join hr hb.faithful whole hwhole)

theorem likePlaceholder_placeholders (r : Registry) (names : List String) :
    ∀ l ∈ placeholders r names, l.LikePlaceholder r := by
  intro l hl
  obtain ⟨name, _, rfl⟩ := List.mem_map.mp hl
  exact ⟨rfl, rfl⟩

/-! ## Reports -/

section

variable {ε α β γ : Type}

theorem map_of_mapM {f : α → Except ε β} {g : β → γ} {k : α → γ}
    (hf : ∀ a b, f a = .ok b → g b = k a) {xs : List α} {ys : List β} (h : xs.mapM f = .ok ys) :
    ys.map g = xs.map k := by
  induction xs generalizing ys with
  | nil =>
    cases h
    rfl
  | cons a xs ih =>
    rw [List.mapM_cons] at h
    obtain ⟨b, hb, h⟩ := bind_eq_ok_iff.mp h
    obtain ⟨rest, hrest, h⟩ := bind_eq_ok_iff.mp h
    cases h
    rw [List.map_cons, List.map_cons, hf a b hb, ih hrest]

theorem exists_mapM_ok {f : α → Except ε β} {xs : List α} (h : ∀ a ∈ xs, ∃ b, f a = .ok b) :
    ∃ ys, xs.mapM f = .ok ys := by
  induction xs with
  | nil => exact ⟨[], rfl⟩
  | cons a xs ih =>
    obtain ⟨⟨b, hb⟩, hxs⟩ := List.forall_mem_cons.mp h
    obtain ⟨ys, hys⟩ := ih hxs
    refine ⟨b :: ys, ?_⟩
    rw [List.mapM_cons, hb, hys]
    rfl

end

theorem field_name_of_segmentReport {l : Link} {v : Value} (h : segmentReport l = .ok v) :
    v.field "name" = .str l.name := by
  obtain ⟨shown, _, h⟩ := bind_eq_ok_iff.mp h
  cases h
  rfl

theorem field_bound_of_segmentReport {l : Link} {v : Value} (h : segmentReport l = .ok v) :
    v.field "bound" = l.stage.bound.toValue := by
  obtain ⟨shown, _, h⟩ := bind_eq_ok_iff.mp h
  cases h
  rfl

theorem map_field_bound {links : List Link} {segments : List Value}
    (h : links.mapM segmentReport = .ok segments) :
    segments.map (·.field "bound") = links.map fun l => l.stage.bound.toValue :=
  map_of_mapM (fun _ _ => field_bound_of_segmentReport) h

/-- A report shows only the name, shape and category of a link. -/
theorem Link.LikePlaceholder.segmentReport_eq {r : Registry} {l : Link}
    (h : l.LikePlaceholder r) : segmentReport ⟨stageFor r l.name, l.name⟩ = segmentReport l := by
  simp only [segmentReport, Stage.bound, h.shape, h.category]

/-- The answer about a chain whose segments are shown in the given way. -/
def Service.chainAnswer (c : OptimizedChain) (segments : List Value) : Value :=
  .dict [("segments", .list segments), ("usage_bound", c.bound.toValue),
    ("trace", .list (c.trace.map (·.report))), ("stats", c.stats.report),
    ("diagnostics", .list (c.diagnostics.map .str))]

theorem chainReport_eq_ok_iff {c : OptimizedChain} {reply : Value} :
    chainReport c = .ok reply ↔
      ∃ segments, c.links.mapM segmentReport = .ok segments ∧ chainAnswer c segments = reply := by
  constructor
  · intro h
    obtain ⟨segments, hsegments, h⟩ := bind_eq_ok_iff.mp h
    cases h
    exact ⟨segments, hsegments, rfl⟩
  · rintro ⟨segments, hsegments, rfl⟩
    exact bind_eq_ok_iff.mpr ⟨segments, hsegments, rfl⟩

/-! ## Requests -/

def Service.optimizeRequest (names : List Value) : Value :=
  .dict [("action", .str "optimize"), ("operators", .list names)]

/-- A fault of an action becomes its answer. -/
theorem outcome_answer_of_action {r : Registry} {request : Value} {action : String}
    (h : request.field "action" = .str action) (hne : action ≠ "") :
    (answer r request).outcome =
      match (perform r (.str action) request).outcome with
      | .ok reply => .ok reply
      | .error e => .ok (faultAnswer e) := by
  cases request with
  | dict entries =>
    have htruthy : (Value.str action).isTruthy = true := bne_iff_ne.mpr hne
    simp only [answer, h, htruthy, if_true]
    show (tryCatch (perform r (.str action) (.dict entries)) _).outcome = _
    simp only [tryCatch, tryCatchThe, MonadExceptOf.tryCatch]
    cases (perform r (.str action) (.dict entries)).outcome <;> rfl
  | _ => simp [Value.field, Value.field?] at h

theorem outcome_answer {r : Registry} {request : Value}
    (h : request.field "action" = .str "optimize") :
    (answer r request).outcome =
      match (optimizeNames r request).outcome with
      | .ok reply => .ok reply
      | .error e => .ok (faultAnswer e) :=
  outcome_answer_of_action h (by decide)

theorem nonemptyText?_eq_some_iff {v : Value} {name : String} :
    nonemptyText? v = some name ↔ v = .str name ∧ name ≠ "" := by
  cases v with
  | str s =>
    by_cases hs : s = ""
    · simp only [nonemptyText?, hs, if_true]
      constructor
      · intro h
        cases h
      · rintro ⟨h, hne⟩
        cases h
        exact absurd rfl hne
    · simp only [nonemptyText?, hs, if_false, Option.some.injEq, Value.str.injEq]
      exact ⟨fun h => ⟨h, h ▸ hs⟩, fun h => h.1⟩
  | _ => simp [nonemptyText?]

theorem outcome_optimizeNames {r : Registry} {request : Value} {items : List Value}
    {names : List String} (hitems : request.field "operators" = .list items)
    (hnames : items.mapM nonemptyText? = some names) :
    (optimizeNames r request).outcome =
      (r.optimize (placeholders r names)).outcome.bind chainReport := by
  rw [optimizeNames, hitems]
  simp only [hnames, Logged.outcome_bind, Logged.outcome_liftM]

/-- An answer without an error reports the fused chain of the names that were asked for. -/
theorem exists_chain_of_answer {r : Registry} {request reply : Value}
    (haction : request.field "action" = .str "optimize")
    (h : (answer r request).outcome = .ok reply) (hok : reply.field? "error" = none) :
    ∃ names c, (∀ name ∈ names, name ≠ "") ∧
      (r.optimize (placeholders r names)).outcome = .ok c ∧ chainReport c = .ok reply := by
  have hreply : (optimizeNames r request).outcome = .ok reply := by
    rw [outcome_answer haction] at h
    cases houtcome : (optimizeNames r request).outcome with
    | ok reply' =>
      rw [houtcome] at h
      exact h
    | error e =>
      -- a fault would have become an answer with an error
      rw [houtcome] at h
      cases h
      simp [faultAnswer, errorAnswer, Value.field?] at hok
  cases hitems : request.field "operators" with
  | list items =>
    cases hnames : items.mapM nonemptyText? with
    | some names =>
      rw [outcome_optimizeNames hitems hnames] at hreply
      obtain ⟨c, hc, hreport⟩ := bind_eq_ok_iff.mp hreply
      refine ⟨names, c, forall_mem_of_mapM (fun item name hname => ?_) hnames, hc, hreport⟩
      exact (nonemptyText?_eq_some_iff.mp hname).2
    | none =>
      simp only [optimizeNames, hitems, hnames] at hreply
      cases hreply
      simp [errorAnswer, Value.field?] at hok
  | _ =>
    simp only [optimizeNames, hitems] at hreply
    cases hreply
    simp [errorAnswer, Value.field?] at hok

/-- Nonempty names can be asked for. -/
theorem mapM_nonemptyText? {names : List String} (h : ∀ name ∈ names, name ≠ "") :
    (names.map Value.str).mapM nonemptyText? = some names := by
  rw [List.mapM_map]
  calc names.mapM (nonemptyText? ∘ Value.str)
      = names.mapM fun name => pure name :=
        mapM_congr fun name hname => nonemptyText?_eq_some_iff.mpr ⟨rfl, h name hname⟩
    _ = some names := by rw [List.mapM_pure, List.map_id']; rfl

/-! ## Runs over names -/

section

variable {r : Registry} {names : List String} {c : OptimizedChain}

theorem likePlaceholder_of_optimize (hr : r.Reduced)
    (hc : (r.optimize (placeholders r names)).outcome = .ok c) :
    ∀ l ∈ c.links, l.LikePlaceholder r :=
  forall_mem_optimize (fun _ _ hallows ha hb => ha.join hr hallows hb) hc
    (likePlaceholder_placeholders r names)

theorem name_ne_empty_placeholders (hnames : ∀ name ∈ names, name ≠ "") :
    ∀ l ∈ placeholders r names, l.name ≠ "" := by
  intro l hl
  obtain ⟨name, hname, rfl⟩ := List.mem_map.mp hl
  exact hnames name hname

theorem name_ne_empty_of_optimize (hnames : ∀ name ∈ names, name ≠ "")
    (hc : (r.optimize (placeholders r names)).outcome = .ok c) : ∀ name ∈ c.names, name ≠ "" := by
  intro name hname
  obtain ⟨l, hl, rfl⟩ := List.mem_map.mp hname
  exact forall_mem_optimize (P := fun l => l.name ≠ "")
    (fun a b _ _ _ => fusedName_ne_empty a.name b.name) hc (name_ne_empty_placeholders hnames) l hl

/-- The placeholders of the names of the segments are left as they are by a run, and show what the
segments show. -/
theorem exists_optimize_again (hr : r.Reduced)
    (hc : (r.optimize (placeholders r names)).outcome = .ok c) :
    ∃ again, (r.optimize (placeholders r c.names)).outcome = .ok again ∧
      again.links.mapM segmentReport = c.links.mapM segmentReport ∧ again.bound = c.bound := by
  have hlike := likePlaceholder_of_optimize hr hc
  have hplaceholders : placeholders r c.names =
      c.links.map fun l => ⟨stageFor r l.name, l.name⟩ := List.map_map
  have hrefused : r.RefusesAll (placeholders r c.names) := by
    rw [hplaceholders]
    exact (List.isChain_map _).mpr (refusesAll_of_optimize hc)
  obtain ⟨again, hagain, hlinks⟩ := hrefused.exists_optimize
  refine ⟨again, hagain, ?_, ?_⟩
  · rw [hlinks, hplaceholders, List.mapM_map]
    exact mapM_congr fun l hl => (hlike l hl).segmentReport_eq
  · rw [OptimizedChain.bound, OptimizedChain.bound, hlinks, hplaceholders, Link.sequenceBound,
      Link.sequenceBound, List.map_map]
    congr 1
    exact List.map_congr_left fun l hl => congrArg Shape.bound (hlike l hl).shape.symm

end

theorem outcome_answer_optimizeRequest {r : Registry} {names : List String} {c : OptimizedChain}
    {reply : Value} (hnames : ∀ name ∈ names, name ≠ "")
    (hc : (r.optimize (placeholders r names)).outcome = .ok c) (hreport : chainReport c = .ok reply) :
    (answer r (optimizeRequest (names.map .str))).outcome = .ok reply := by
  rw [outcome_answer rfl, outcome_optimizeNames rfl (mapM_nonemptyText? hnames), hc]
  simp only [Except.bind, hreport]

theorem Registry.reduced_builtin : Registry.builtin.Reduced := by
  decide +kernel

/-- **Segments are what their names stand for.** The builtin registry has no choice between equal
counts. Over every such registry, if the stages of a chain have the shapes and categories of their
names as far as these are known, so have the stages of the fused chain. And whenever a request to
optimize a list of names is answered without an error, the names of the answered segments can be asked
for again, with the same segments and the same bound in the answer. -/
theorem optimize_faithful_to_names : Registry.builtin.Reduced ∧ ∀ r : Registry, r.Reduced →
    (∀ links result, (r.optimize links).outcome = .ok result → (∀ l ∈ links, l.Faithful r) →
      ∀ l ∈ result.links, l.Faithful r) ∧
    ∀ request reply, request.field "action" = .str "optimize" →
      (answer r request).outcome = .ok reply → reply.field? "error" = none →
      ∃ segments again, reply.field "segments" = .list segments ∧
        (answer r (optimizeRequest (segments.map (·.field "name")))).outcome = .ok again ∧
        again.field? "error" = none ∧ again.field "segments" = reply.field "segments" ∧
        again.field "usage_bound" = reply.field "usage_bound" := by
  refine ⟨Registry.reduced_builtin, fun r hr => ⟨?_, ?_⟩⟩
  · intro links result h hlinks
    exact forall_mem_optimize (fun _ _ _ ha hb => ha.join hr hb) h hlinks
  · intro request reply haction hreply hok
    obtain ⟨names, c, hnames, hc, hreport⟩ := exists_chain_of_answer haction hreply hok
    obtain ⟨segments, hsegments, rfl⟩ := chainReport_eq_ok_iff.mp hreport
    obtain ⟨again, hagain, hsame, hbound⟩ := exists_optimize_again hr hc
    have hasked : segments.map (·.field "name") = c.names.map .str := by
      rw [map_of_mapM (fun _ _ => field_name_of_segmentReport) hsegments, OptimizedChain.names,
        List.map_map]
      rfl
    have hanswer := outcome_answer_optimizeRequest (name_ne_empty_of_optimize hnames hc) hagain
      (chainReport_eq_ok_iff.mpr ⟨segments, hsame.trans hsegments, rfl⟩)
    rw [← hasked] at hanswer
    exact ⟨segments, chainAnswer again segments, rfl, hanswer, rfl, rfl,
      congrArg Multiplicity.toValue hbound⟩

/-- The name and the shape of every segment, as an answer shows them. -/
def Service.shownSegments (reply : Value) : List (Option String × Option String) :=
  ((reply.field "segments").elements?.getD []).map fun s =>
    ((s.field "name").toStr?, (s.field "shape").toStr?)

/-- The first segment of this chain is joined in two sweeps, from the right. -/
theorem throttleTime_map_scan_tap_faithful :
    (∃ result, (Registry.builtin.optimize
        (placeholders .builtin ["throttleTime", "map", "scan", "tap"])).outcome = .ok result ∧
      result.names = ["throttleTime+map+scan", "tap"] ∧ ∀ l ∈ result.links, l.Faithful .builtin) ∧
    ∃ reply again, (answer .builtin
        (optimizeRequest (["throttleTime", "map", "scan", "tap"].map .str))).outcome = .ok reply ∧
      shownSegments reply =
        [(some "throttleTime+map+scan", some "conditional(1, 0)"), (some "tap", some "constant(1)")] ∧
      (∃ segments, reply.field "segments" = .list segments ∧
        (answer .builtin (optimizeRequest (segments.map (·.field "name")))).outcome = .ok again) ∧
      again.field "segments" = reply.field "segments" := by
  obtain ⟨hlinks, hrequests⟩ := optimize_faithful_to_names.2 .builtin Registry.reduced_builtin
  constructor
  · obtain ⟨result, h, hnames⟩ := exists_ok_of_toOption_map (f := OptimizedChain.names)
      (x := (Registry.builtin.optimize
        (placeholders .builtin ["throttleTime", "map", "scan", "tap"])).outcome)
      (b := ["throttleTime+map+scan", "tap"]) (by decide +kernel)
    exact ⟨result, h, hnames, hlinks _ result h fun l hl =>
      (likePlaceholder_placeholders _ _ l hl).faithful⟩
  · obtain ⟨reply, h, hseen⟩ := exists_ok_of_toOption_map
      (f := fun reply : Value => ((reply.field? "error").isNone, shownSegments reply))
      (x := (answer .builtin
        (optimizeRequest (["throttleTime", "map", "scan", "tap"].map .str))).outcome)
      (b := (true, [(some "throttleTime+map+scan", some "conditional(1, 0)"),
        (some "tap", some "constant(1)")])) (by decide +kernel)
    obtain ⟨hok, hshown⟩ := Prod.mk.injEq .. ▸ hseen
    obtain ⟨segments, again, hsegments, hagain, -, hsame, -⟩ :=
      hrequests _ reply rfl h (Option.isNone_iff_eq_none.mp hok)
    exact ⟨reply, again, h, hshown, ⟨segments, hsegments, hagain⟩, hsame⟩

end StageFusion
