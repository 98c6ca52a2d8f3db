import Mathlib.Data.List.Forall2
import StageFusion.Proofs.Nests
import StageFusion.Service.Answer

/-! The blocks of links that segments are made of.

A run cuts its links into blocks and turns each block into one link. `Link.Merged block out` says what
becomes of a block: a single link stays as it is, and a longer block becomes a composition of its
stages under all of their names, with the join of their categories.

The names of the segments fix the blocks. A segment that took in one link more would have a longer
name, so there is only one way to cut (`Link.Merged.blocks_unique`), and what holds of the blocks of
one grouping holds of those of every grouping (`exists_allowed_of_grouped`). -/

namespace StageFusion

open Service (placeholders)

/-! ## Names and categories of sequences -/

namespace Category

/-- The most restrictive of a list of categories. -/
def joinAll (cs : List Category) : Category :=
  cs.foldr join .stateless

theorem stateless_join (c : Category) : join .stateless c = c := by
  cases c <;> rfl

theorem join_stateless (c : Category) : c.join .stateless = c := by
  cases c <;> rfl

theorem joinAll_append (cs ds : List Category) :
    joinAll (cs ++ ds) = (joinAll cs).join (joinAll ds) := by
  induction cs with
  | nil => exact (stateless_join _).symm
  | cons c cs ih =>
    calc joinAll (c :: cs ++ ds)
        = c.join (joinAll (cs ++ ds)) := rfl
      _ = c.join ((joinAll cs).join (joinAll ds)) := by rw [ih]
      _ = (joinAll (c :: cs)).join (joinAll ds) := (join_assoc _ _ _).symm

end Category

/-- The name of a sequence of operators fused into one stage. -/
def joinedName (names : List String) : String :=
  fusedSeparator.toString.intercalate names

@[simp]
theorem joinedName_singleton (name : String) : joinedName [name] = name :=
  String.intercalate_singleton

theorem joinedName_append {front back : List String} (hfront : front ≠ []) (hback : back ≠ []) :
    joinedName (front ++ back) = fusedName (joinedName front) (joinedName back) :=
  String.intercalate_append_of_ne_nil hfront hback

theorem fusedName_ne_left (up down : String) : fusedName up down ≠ up := by
  intro h
  have hlength := congrArg String.length h
  have hseparator : fusedSeparator.toString.length = 1 := by decide
  simp only [fusedName, String.length_append, hseparator] at hlength
  omega

/-! ## What becomes of a block -/

/-- A stage is composed of a list of stages, each once and in order, in some grouping. The names that
it has been given on the way do not matter. -/
inductive Stage.Composed : List Stage → Stage → Prop
  | single (s : Stage) : Composed [s] s
  | andThenAs {front back : List Stage} {a b : Stage} (name : String) (up : Composed front a)
    (down : Composed back b) : Composed (front ++ back) (a.andThenAs b name)

/-- A block of links has become one link. -/
inductive Link.Merged : List Link → Link → Prop
  | single (l : Link) : Merged [l] l
  | fused {block : List Link} {out : Link} (two : 2 ≤ block.length)
    (name : out.name = joinedName (block.map (·.name)))
    (stageName : out.stage.name = out.name)
    (category : out.stage.category = Category.joinAll (block.map (·.stage.category)))
    (composed : Stage.Composed (block.map (·.stage)) out.stage) : Merged block out

namespace Nest

theorem name_link (n : Nest) : n.link.name = joinedName (n.leaves.map (·.name)) := by
  induction n with
  | leaf l => exact (joinedName_singleton l.name).symm
  | join up down ihUp ihDown =>
    have hup : up.leaves.map (·.name) ≠ [] := mt List.map_eq_nil_iff.mp up.leaves_ne_nil
    have hdown : down.leaves.map (·.name) ≠ [] := mt List.map_eq_nil_iff.mp down.leaves_ne_nil
    rw [leaves, List.map_append, joinedName_append hup hdown, ← ihUp, ← ihDown]
    rfl

theorem category_stage (n : Nest) :
    n.stage.category = Category.joinAll (n.leaves.map (·.stage.category)) := by
  induction n with
  | leaf l => exact (Category.join_stateless l.stage.category).symm
  | join up down ihUp ihDown =>
    rw [leaves, List.map_append, Category.joinAll_append, ← ihUp, ← ihDown]
    rfl

theorem composed (n : Nest) : Stage.Composed n.stages n.stage := by
  induction n with
  | leaf l => exact .single l.stage
  | join up down ihUp ihDown =>
    rw [stages_join]
    exact .andThenAs _ ihUp ihDown

theorem merged (n : Nest) : Link.Merged n.leaves n.link := by
  cases n with
  | leaf l => exact .single l
  | join up down =>
    have htwo : 2 ≤ (join up down).leaves.length := by
      have hup := List.length_pos_iff.mpr up.leaves_ne_nil
      have hdown := List.length_pos_iff.mpr down.leaves_ne_nil
      rw [leaves, List.length_append]
      omega
    exact .fused htwo (name_link _) rfl (category_stage _) (composed _)

end Nest

theorem Grouped.merged {nests : List Nest} {links out : List Link} (h : Grouped nests links out) :
    (nests.map Nest.leaves).flatten = links ∧
      List.Forall₂ Link.Merged (nests.map Nest.leaves) out := by
  constructor
  · rw [← List.flatMap_def, h.leaves_eq]
  · rw [← h.link_eq, List.forall₂_map_left_iff, List.forall₂_map_right_iff, List.forall₂_same]
    exact fun n _ => n.merged

/-! ## There is only one way to cut -/

namespace Link.Merged

variable {block front front' back back' : List Link} {blocks blocks' : List (List Link)} {l : Link}
  {out : List Link}

theorem ne_nil (h : Merged block l) : block ≠ [] := by
  cases h with
  | single => exact List.cons_ne_nil _ _
  | fused two =>
    rintro rfl
    exact absurd two (by decide)

theorem name_eq (h : Merged block l) : l.name = joinedName (block.map (·.name)) := by
  cases h with
  | single => exact (joinedName_singleton l.name).symm
  | fused _ name => exact name

/-- A block with further links behind it has become a link of another name. -/
theorem not_append (h : Merged front l) (h' : Merged (front ++ back) l) : back = [] := by
  by_contra hback
  have hfrontNames : front.map (·.name) ≠ [] := mt List.map_eq_nil_iff.mp h.ne_nil
  have hbackNames : back.map (·.name) ≠ [] := mt List.map_eq_nil_iff.mp hback
  have hname := h'.name_eq
  rw [List.map_append, joinedName_append hfrontNames hbackNames, ← h.name_eq] at hname
  exact fusedName_ne_left _ _ hname.symm

theorem eq_of_append_eq (h : Merged front l) (h' : Merged front' l)
    (heq : front ++ back = front' ++ back') : front = front' ∧ back = back' := by
  rcases List.append_eq_append_iff.mp heq with ⟨more, rfl, rfl⟩ | ⟨more, rfl, rfl⟩
  · obtain rfl := h.not_append h'
    simp
  · obtain rfl := h'.not_append h
    simp

theorem blocks_unique (h : List.Forall₂ Merged blocks out) (h' : List.Forall₂ Merged blocks' out)
    (heq : blocks.flatten = blocks'.flatten) : blocks = blocks' := by
  induction h generalizing blocks' with
  | nil =>
    cases h'
    rfl
  | cons hfirst hrest ih =>
    cases h' with
    | cons hfirst' hrest' =>
      rw [List.flatten_cons, List.flatten_cons] at heq
      obtain ⟨rfl, hflat⟩ := hfirst.eq_of_append_eq hfirst' heq
      rw [ih hrest' hflat]

/-- Blocks and what has become of them read the same. -/
theorem joinedName_eq (h : List.Forall₂ Merged blocks out) :
    joinedName (out.map (·.name)) = joinedName (blocks.flatten.map (·.name)) := by
  induction h with
  | nil => rfl
  | @cons block l blocks out hfirst hrest ih =>
    rw [List.flatten_cons, List.map_append, List.map_cons]
    cases hrest with
    | nil => simp [hfirst.name_eq]
    | @cons next l' blocks out hnext hrest =>
      have hblock : block.map (·.name) ≠ [] := mt List.map_eq_nil_iff.mp hfirst.ne_nil
      have hnames : (next :: blocks).flatten.map (·.name) ≠ [] := by
        simp [hnext.ne_nil]
      rw [← List.singleton_append, joinedName_append (List.cons_ne_nil _ _) (by simp),
        joinedName_append hblock hnames, ih, joinedName_singleton, hfirst.name_eq]

end Link.Merged

section

variable {r : Registry} {links : List Link} {result : OptimizedChain}

/-- However the segments are explained, the links of each can be nested by allowed fusions. -/
theorem exists_allowed_of_grouped (h : (r.optimize links).outcome = .ok result) {nests : List Nest}
    (hg : Grouped nests links result.links) :
    ∀ n ∈ nests, ∃ m : Nest, m.Allowed r ∧ m.leaves = n.leaves := by
  intro n hn
  obtain ⟨run, hrun, hallowed⟩ := exists_grouped_allowed h
  obtain ⟨hflat, hmerged⟩ := hg.merged
  obtain ⟨hflatRun, hmergedRun⟩ := hrun.merged
  have hblocks : run.map Nest.leaves = nests.map Nest.leaves :=
    Link.Merged.blocks_unique hmergedRun hmerged (hflatRun.trans hflat.symm)
  have hmem : n.leaves ∈ run.map Nest.leaves := by
    rw [hblocks]
    exact List.mem_map_of_mem hn
  obtain ⟨m, hm, hleaves⟩ := List.mem_map.mp hmem
  exact ⟨m, hallowed m hm, hleaves⟩

/-- **A run keeps every stage, once and in its place.** There is exactly one way to cut the links into
blocks so that each block has become one link of the result: a block of one link is that link, and a
longer one is composed of the stages of its links, in order, under all of their names and with the
join of their categories. So the names of the result read as those of the links do. -/
theorem optimize_keeps_stages (h : (r.optimize links).outcome = .ok result) :
    (∃! blocks : List (List Link), blocks.flatten = links ∧
      List.Forall₂ Link.Merged blocks result.links) ∧
    joinedName result.names = joinedName (links.map (·.name)) := by
  obtain ⟨nests, hg⟩ := exists_grouped h
  obtain ⟨hflat, hmerged⟩ := hg.merged
  constructor
  · refine ⟨nests.map Nest.leaves, ⟨hflat, hmerged⟩, ?_⟩
    rintro blocks ⟨hflat', hmerged'⟩
    exact Link.Merged.blocks_unique hmerged' hmerged (hflat'.trans hflat.symm)
  · rw [OptimizedChain.names, Link.Merged.joinedName_eq hmerged, hflat]

end

/-- The block of the first segment is merged in two sweeps, from the right. -/
theorem throttleTime_map_scan_tap_keeps_stages : ∃ result,
    (Registry.builtin.optimize
      (placeholders .builtin ["throttleTime", "map", "scan", "tap"])).outcome = .ok result ∧
    result.names = ["throttleTime+map+scan", "tap"] ∧
    (∃! blocks : List (List Link),
      blocks.flatten = placeholders .builtin ["throttleTime", "map", "scan", "tap"] ∧
        List.Forall₂ Link.Merged blocks result.links) ∧
    joinedName result.names = "throttleTime+map+scan+tap" := by
  obtain ⟨result, h, hnames⟩ := exists_ok_of_toOption_map (f := OptimizedChain.names)
    (x := (Registry.builtin.optimize
      (placeholders .builtin ["throttleTime", "map", "scan", "tap"])).outcome)
    (b := ["throttleTime+map+scan", "tap"]) (by decide +kernel)
  obtain ⟨hblocks, hjoined⟩ := optimize_keeps_stages h
  refine ⟨result, h, hnames, hblocks, ?_⟩
  rw [hjoined]
  decide +kernel

end StageFusion
