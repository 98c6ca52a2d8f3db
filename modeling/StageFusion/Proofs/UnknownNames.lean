import StageFusion.Proofs.Blocks
import StageFusion.Proofs.FixedPoint

/-! Unknown names in a run.

Every name that the registry does not know is reported once, in the order in which the names first
appear (`pairwise_idxOf_eraseDups_filter`). A link of such a name is never part of a larger block, while
the name of a link that a larger block has become is made of known ones only (`Link.MergedKnown`). No
sweep changes which names are unknown, so a second run reports the same. -/

namespace StageFusion

open Service (placeholders)

/-! ## Names in order of first appearance -/

/-- What is left of a list without repetitions stands in the order of first appearance. -/
theorem pairwise_idxOf_eraseDups_filter {α : Type} [DecidableEq α] (p : α → Bool) (xs : List α) :
    (xs.filter p).eraseDups.Pairwise fun a b => xs.idxOf a < xs.idxOf b := by
  induction xs using List.reverseRecOn with
  | nil => exact .nil
  | append_singleton xs x ih =>
    have hmem : ∀ a ∈ (xs.filter p).eraseDups, a ∈ xs := fun a ha =>
      List.mem_of_mem_filter (List.mem_eraseDups.mp ha)
    have hbefore : (xs.filter p).eraseDups.Pairwise
        fun a b => (xs ++ [x]).idxOf a < (xs ++ [x]).idxOf b := by
      refine ih.imp_of_mem fun ha hb h => ?_
      rwa [List.idxOf_append_of_mem (hmem _ ha), List.idxOf_append_of_mem (hmem _ hb)]
    rw [List.filter_append, List.eraseDups_append]
    by_cases hnew : p x = true ∧ x ∉ xs
    · -- only a new element is appended, and nothing of the list stands behind it
      have hlast : (([x].filter p).removeAll (xs.filter p)).eraseDups = [x] := by
        simp [List.removeAll, hnew.1, hnew.2, List.eraseDups_cons]
      rw [hlast, List.pairwise_append]
      refine ⟨hbefore, List.pairwise_singleton _ _, fun a ha b hb => ?_⟩
      rw [List.mem_singleton.mp hb, List.idxOf_append_of_mem (hmem a ha),
        List.idxOf_append_of_notMem hnew.2]
      exact (List.idxOf_lt_length_of_mem (hmem a ha)).trans_le (Nat.le_add_right _ _)
    · have hnone : ([x].filter p).removeAll (xs.filter p) = [] := by
        rw [not_and, not_not] at hnew
        cases hp : p x with
        | false => simp [hp, List.removeAll]
        | true => simp [hp, List.removeAll, hnew hp]
      rw [hnone, List.eraseDups_nil, List.append_nil]
      exact hbefore

/-! ## Links of unknown names -/

/-- A block of links has become one link, and the registry has had its say: a link that it does not know
is a block of its own, and a link made of several is made of names that it has records for. -/
structure Link.MergedKnown (r : Registry) (block : List Link) (out : Link) : Prop where
  merged : Link.Merged block out
  unknown_alone : ∀ l ∈ block, r.resolve l.name = none → block = [l] ∧ out = l
  components_known : 2 ≤ block.length → ∀ c ∈ components out.name, r.contains c = true

namespace Nest

variable {r : Registry}

/-- All leaves of a nest with a known name are known. -/
theorem isSome_resolve_leaves {n : Nest} (h : (r.resolve n.link.name).isSome) :
    ∀ l ∈ n.leaves, (r.resolve l.name).isSome := by
  induction n with
  | leaf l =>
    intro l' hl'
    rwa [List.mem_singleton.mp hl']
  | join up down ihUp ihDown =>
    obtain ⟨hup, hdown⟩ := (r.isSome_resolve_fusedName _ _).mp h
    intro l hl
    rcases List.mem_append.mp hl with hl | hl
    · exact ihUp hup l hl
    · exact ihDown hdown l hl

theorem Allowed.isSome_resolve {up down : Nest} (h : (join up down).Allowed r) :
    (r.resolve (join up down).link.name).isSome := by
  obtain ⟨-, -, rule, bound, hverdict⟩ := h
  exact (r.isSome_resolve_fusedName _ _).mpr (Registry.isSome_resolve_of_allowed hverdict)

theorem Allowed.mergedKnown {n : Nest} (h : n.Allowed r) : Link.MergedKnown r n.leaves n.link := by
  refine ⟨n.merged, ?_, ?_⟩
  · intro l hl hunknown
    cases n with
    | leaf l' =>
      obtain rfl := List.mem_singleton.mp hl
      exact ⟨rfl, rfl⟩
    | join up down =>
      have hknown := isSome_resolve_leaves h.isSome_resolve l hl
      rw [hunknown] at hknown
      cases hknown
  · intro htwo c hc
    cases n with
    | leaf l => exact absurd htwo (by simp [leaves])
    | join up down =>
      rw [Registry.contains_iff]
      exact (r.isSome_resolve_iff _).mp h.isSome_resolve c hc

end Nest

/-! ## What a run reports and leaves -/

section

variable {r : Registry} {links : List Link} {result : OptimizedChain}

theorem mem_unknownNames_iff {name : String} :
    name ∈ r.unknownNames links ↔ name ∈ links.map (·.name) ∧ r.resolve name = none := by
  rw [Registry.unknownNames, List.mem_eraseDups, List.mem_filter, Option.isNone_iff_eq_none]

theorem exists_mergedKnown (h : (r.optimize links).outcome = .ok result) :
    ∃ blocks : List (List Link), blocks.flatten = links ∧
      List.Forall₂ (Link.MergedKnown r) blocks result.links := by
  obtain ⟨nests, hg, hallowed⟩ := exists_grouped_allowed h
  refine ⟨nests.map Nest.leaves, hg.merged.1, ?_⟩
  rw [← hg.link_eq, List.forall₂_map_left_iff, List.forall₂_map_right_iff, List.forall₂_same]
  exact fun n hn => (hallowed n hn).mergedKnown

/-- A second run over a result has the same diagnostics. -/
theorem exists_optimize_result (h : (r.optimize links).outcome = .ok result) :
    ∃ again, (r.optimize result.links).outcome = .ok again ∧
      again.diagnostics = result.diagnostics := by
  obtain ⟨hsettled, hunknown⟩ := outcome_optimize_eq_ok_iff.mp h
  obtain ⟨again, hagain, -⟩ := (refusesAll_of_optimize h).exists_optimize
  refine ⟨again, hagain, ?_⟩
  rw [OptimizedChain.diagnostics, OptimizedChain.diagnostics,
    (outcome_optimize_eq_ok_iff.mp hagain).2, hunknown, hsettled.unknownNames_eq]

/-- **Unknown names are reported and never fused.** The diagnostics name the operators that the registry
does not know, each once and in order of first appearance. The links are cut into blocks such that a
link of an unknown name is a block of its own and stays as it is, while the name of a link made of
several has known components only. A second run has the same diagnostics. -/
theorem optimize_reports_unknown (h : (r.optimize links).outcome = .ok result) :
    (∃ unknown : List String,
      (result.diagnostics = unknown.map fun name =>
        "no metadata for operator " ++ Text.quote name ++ "; treated as unfusible") ∧
      (∀ name, name ∈ unknown ↔ name ∈ links.map (·.name) ∧ r.resolve name = none) ∧
      unknown.Pairwise fun a b => (links.map (·.name)).idxOf a < (links.map (·.name)).idxOf b) ∧
    (∃ blocks : List (List Link), blocks.flatten = links ∧
      List.Forall₂ (Link.MergedKnown r) blocks result.links) ∧
    ∃ again, (r.optimize result.links).outcome = .ok again ∧
      again.diagnostics = result.diagnostics := by
  have hunknown : result.unknown = r.unknownNames links := (outcome_optimize_eq_ok_iff.mp h).2
  refine ⟨⟨r.unknownNames links, ?_, fun _ => mem_unknownNames_iff, ?_⟩, exists_mergedKnown h,
    exists_optimize_result h⟩
  · rw [OptimizedChain.diagnostics, hunknown]
    rfl
  · exact pairwise_idxOf_eraseDups_filter _ _

end

/-- An unknown name, an empty one and a composite that is only known in part stay where they are, and
part what could be fused. -/
theorem map_nope_scan_reports_unknown : ∃ result,
    (Registry.builtin.optimize (placeholders .builtin
      ["map", "nope", "map", "scan", "", "map+nope", "nope", "map"])).outcome = .ok result ∧
    result.names = ["map", "nope", "map+scan", "", "map+nope", "nope", "map"] ∧
    result.diagnostics = ["no metadata for operator 'nope'; treated as unfusible",
      "no metadata for operator ''; treated as unfusible",
      "no metadata for operator 'map+nope'; treated as unfusible"] ∧
    (∃ again, (Registry.builtin.optimize result.links).outcome = .ok again ∧
      again.diagnostics = result.diagnostics) := by
  obtain ⟨result, h, hreport⟩ := exists_ok_of_toOption_map
    (f := fun c : OptimizedChain => (c.names, c.diagnostics))
    (x := (Registry.builtin.optimize (placeholders .builtin
      ["map", "nope", "map", "scan", "", "map+nope", "nope", "map"])).outcome)
    (b := (["map", "nope", "map+scan", "", "map+nope", "nope", "map"],
      ["no metadata for operator 'nope'; treated as unfusible",
        "no metadata for operator ''; treated as unfusible",
        "no metadata for operator 'map+nope'; treated as unfusible"]))
    (by decide +kernel)
  rw [Prod.mk.injEq] at hreport
  obtain ⟨-, -, hagain⟩ := optimize_reports_unknown h
  exact ⟨result, h, hreport.1, hreport.2, hagain⟩

end StageFusion
