import StageFusion.Proofs.Attempts
import StageFusion.Proofs.SegmentNames

/-! The actions agree with each other.

An answer about a chain of names shows verdicts that were reached between placeholders, which fusion
had renamed on the way, and bounds written as values. A check asks the registry for a verdict on two
names again, and a product of bounds reads its values back. They come to the same, since placeholders
go by the names that are shown (`Attempt.Reports`, `refusesAll_of_optimize`) and a written bound reads
as itself (`Multiplicity.ofValue_toValue`). -/

namespace StageFusion

open Service

/-- An action without a fault is answered with its reply. -/
theorem outcome_answer_of_perform {r : Registry} {request reply : Value} {action : String}
    (h : request.field "action" = .str action) (hne : action ≠ "")
    (hreply : (perform r (.str action) request).outcome = .ok reply) :
    (answer r request).outcome = .ok reply := by
  rw [outcome_answer_of_action h hne, hreply]

/-! ## Checks -/

def Service.checkRequest (up down : Value) : Value :=
  .dict [("action", .str "check"), ("upstream", up), ("downstream", down)]

/-- A check of two names is answered without an error, with a verdict and a reason. -/
def Service.Checks (r : Registry) (up down : Value) (canFuse : Bool) (reason : Value) : Prop :=
  ∃ reply, (answer r (checkRequest up down)).outcome = .ok reply ∧ reply.field? "error" = none ∧
    reply.field? "can_fuse" = some (.bool canFuse) ∧ reply.field? "reason" = some reason

theorem outcome_answer_checkRequest {r : Registry} {up down : String} {v : Verdict} (hup : up ≠ "")
    (hdown : down ≠ "") (hv : r.verdict up down = .ok v) :
    (answer r (checkRequest (.str up) (.str down))).outcome =
      .ok (.dict [("upstream", .str up), ("downstream", .str down), ("can_fuse", .bool v.isAllowed),
        ("rule", .str v.rule.name), ("reason", (v.reason?.map Value.str).getD .null),
        ("fused_bound", v.bound.toValue), ("would_increase", .bool (r.raisesBound up down))]) := by
  have hfirst : nonemptyText? ((checkRequest (.str up) (.str down)).field "upstream") = some up :=
    nonemptyText?_eq_some_iff.mpr ⟨rfl, hup⟩
  have hsecond : nonemptyText? ((checkRequest (.str up) (.str down)).field "downstream") = some down :=
    nonemptyText?_eq_some_iff.mpr ⟨rfl, hdown⟩
  refine outcome_answer_of_perform rfl (by decide) ?_
  show checkPair r (checkRequest (.str up) (.str down)) = _
  simp only [checkPair, hfirst, hsecond, hv]
  rfl

theorem checks_of_verdict {r : Registry} {up down : String} {v : Verdict} (hup : up ≠ "")
    (hdown : down ≠ "") (hv : r.verdict up down = .ok v) :
    Checks r (.str up) (.str down) v.isAllowed ((v.reason?.map Value.str).getD .null) :=
  ⟨_, outcome_answer_checkRequest hup hdown hv, rfl, rfl, rfl⟩

/-- The check of two names that the registry refuses says why. -/
theorem Registry.Refuses.exists_checks {r : Registry} {up down : String} (h : r.Refuses up down)
    (hup : up ≠ "") (hdown : down ≠ "") :
    ∃ reason, Checks r (.str up) (.str down) false (.str reason) := by
  obtain ⟨rule, bound, reason, hv⟩ := h
  exact ⟨reason, checks_of_verdict hup hdown hv⟩

/-- The check of the names of an attempt shows what its report shows. -/
theorem Attempt.Reports.checks {r : Registry} {a b : Link} {t : Attempt} (h : t.Reports r a b)
    (ha : a.name ≠ "") (hb : b.name ≠ "") :
    Checks r (.str t.upstream) (.str t.downstream) t.fused
      ((t.reason.map Value.str).getD .null) := by
  obtain ⟨hup, hdown, -, v, hv, hfused, hreason⟩ := h
  rw [hup, hdown, hfused, hreason]
  exact checks_of_verdict ha hb hv

/-! ## Products -/

def Service.boundRequest (bounds : List Value) : Value :=
  .dict [("action", .str "bound"), ("bounds", .list bounds)]

/-- A written bound reads as itself. -/
theorem Multiplicity.ofValue_toValue (m : Multiplicity) : ofValue m.toValue = .ok m := by
  cases m with
  | exact n => exact ofValue_toValue_exact n
  | unbounded => decide +kernel

theorem Multiplicity.mapM_ofValue_toValue (bounds : List Multiplicity) :
    (bounds.map toValue).mapM ofValue = .ok bounds := by
  rw [List.mapM_map]
  calc bounds.mapM (ofValue ∘ toValue)
      = bounds.mapM fun m => pure m := mapM_congr fun m _ => ofValue_toValue m
    _ = .ok bounds := by rw [List.mapM_pure, List.map_id']; rfl

theorem outcome_answer_boundRequest (r : Registry) (bounds : List Multiplicity) :
    (answer r (boundRequest (bounds.map (·.toValue)))).outcome =
      .ok (.dict [("usage_bound", (Multiplicity.product bounds).toValue)]) := by
  have hproduct : multiplyBounds (boundRequest (bounds.map (·.toValue))) =
      .ok (.dict [("usage_bound", (Multiplicity.product bounds).toValue)]) :=
    bind_eq_ok_iff.mpr ⟨bounds, Multiplicity.mapM_ofValue_toValue bounds, rfl⟩
  exact outcome_answer_of_perform rfl (by decide) hproduct

/-! ## Answers about chains -/

/-- Attempts are made at links with names, if the names of the chain are none of them empty. -/
theorem RunTries.name_ne_empty {r : Registry} {names : List String} {a b : Link}
    (h : RunTries r a b 0 (placeholders r names) {}) (hnames : ∀ name ∈ names, name ≠ "") :
    a.name ≠ "" ∧ b.name ≠ "" :=
  h.forall_mem (P := fun l => l.name ≠ "")
    (fun a b _ _ _ => fusedName_ne_empty a.name b.name) (name_ne_empty_placeholders hnames)

/-- **The actions agree with each other.** Whenever a request to optimize a list of names is answered
without an error, a check of the two names of any entry of the trace shows the verdict and the reason
of the entry, a check of any two neighbouring segments refuses them, and the product of the bounds of
the segments is the bound of the chain. -/
theorem actions_agree {r : Registry} {request reply : Value}
    (haction : request.field "action" = .str "optimize")
    (hreply : (answer r request).outcome = .ok reply) (hok : reply.field? "error" = none) :
    ∃ segments entries,
      reply.field "segments" = .list segments ∧ reply.field "trace" = .list entries ∧
      (∀ e ∈ entries, ∃ fused, e.field? "fused" = some (.bool fused) ∧
        Checks r (e.field "upstream") (e.field "downstream") fused (e.field "reason")) ∧
      (segments.IsChain fun s t => ∃ reason,
        Checks r (s.field "name") (t.field "name") false (.str reason)) ∧
      ∃ multiplied,
        (answer r (boundRequest (segments.map (·.field "bound")))).outcome = .ok multiplied ∧
        multiplied.field? "error" = none ∧
        multiplied.field? "usage_bound" = reply.field? "usage_bound" := by
  obtain ⟨names, c, hnames, hc, hreport⟩ := exists_chain_of_answer haction hreply hok
  obtain ⟨segments, hsegments, rfl⟩ := chainReport_eq_ok_iff.mp hreport
  have hshownNames : segments.map (·.field "name") = c.names.map .str := by
    rw [map_of_mapM (fun _ _ => field_name_of_segmentReport) hsegments, OptimizedChain.names,
      List.map_map]
    rfl
  have hshownBounds : segments.map (·.field "bound") =
      (c.links.map (·.stage.bound)).map (·.toValue) := by
    rw [map_field_bound hsegments, List.map_map]
    rfl
  refine ⟨segments, c.trace.map (·.report), rfl, rfl, ?_, ?_, ?_⟩
  · intro e he
    obtain ⟨t, ht, rfl⟩ := List.mem_map.mp he
    obtain ⟨a, b, htries, hreports⟩ := exists_tries_of_mem_trace hc ht
    obtain ⟨ha, hb⟩ := htries.name_ne_empty hnames
    exact ⟨t.fused, rfl, hreports.checks ha hb⟩
  · have hrefused : c.names.IsChain r.Refuses := (List.isChain_map _).mpr (refusesAll_of_optimize hc)
    have hchecked : (c.names.map Value.str).IsChain fun s t => ∃ reason,
        Checks r s t false (.str reason) := by
      refine (List.isChain_map _).mpr (hrefused.imp_of_mem_imp fun up down hup hdown h => ?_)
      exact h.exists_checks (name_ne_empty_of_optimize hnames hc up hup)
        (name_ne_empty_of_optimize hnames hc down hdown)
    rw [← hshownNames] at hchecked
    exact (List.isChain_map _).mp hchecked
  · rw [hshownBounds]
    exact ⟨_, outcome_answer_boundRequest r _, rfl, rfl⟩

/-- The first two of these names are fused, and left apart from the unknown one. -/
theorem map_flatMap_nope_actions_agree : ∃ reply segments entries,
    (answer .builtin
      (optimizeRequest (["map", "flatMap", "nope"].map .str))).outcome = .ok reply ∧
    shownSegments reply = [(some "map+flatMap", some "unbounded"), (some "nope", some "unbounded")] ∧
    reply.field "segments" = .list segments ∧ reply.field "trace" = .list entries ∧
    (∀ e ∈ entries, ∃ fused, e.field? "fused" = some (.bool fused) ∧
      Checks .builtin (e.field "upstream") (e.field "downstream") fused (e.field "reason")) ∧
    segments.IsChain fun s t => ∃ reason,
      Checks .builtin (s.field "name") (t.field "name") false (.str reason) := by
  obtain ⟨reply, h, hseen⟩ := exists_ok_of_toOption_map
    (f := fun reply : Value => ((reply.field? "error").isNone, shownSegments reply))
    (x := (answer .builtin
      (optimizeRequest (["map", "flatMap", "nope"].map .str))).outcome)
    (b := (true, [(some "map+flatMap", some "unbounded"), (some "nope", some "unbounded")]))
    (by decide +kernel)
  obtain ⟨hok, hshown⟩ := Prod.mk.injEq .. ▸ hseen
  obtain ⟨segments, entries, hsegments, htrace, hentries, hneighbours, -⟩ :=
    actions_agree rfl h (Option.isNone_iff_eq_none.mp hok)
  exact ⟨reply, segments, entries, h, hshown, hsegments, htrace, hentries, hneighbours⟩

end StageFusion
