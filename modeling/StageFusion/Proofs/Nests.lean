import StageFusion.Proofs.Sweeps

/-! What a segment is made of.

A `Nest` is a link of the original chain, or two nests joined, in the order and grouping in which
links have been fused. `Nest.link` builds the link it stands for, `Nest.leaves` lists the original
links. `Grouped nests links out` says that `nests` explain a chain `out` as made of the chain `links`,
and `exists_grouped_allowed` that every result of the optimizer can be explained so by nests in which
the registry allows each fusion. -/

namespace StageFusion

/-- Original links under a nesting of fusions. -/
inductive Nest where
  | leaf (l : Link)
  | join (up down : Nest)

namespace Nest

/-- The link that a nest has been fused into. -/
def link : Nest → Link
  | leaf l => l
  | join up down => up.link.join down.link

/-- The original links of a nest, in order. -/
def leaves : Nest → List Link
  | leaf l => [l]
  | join up down => up.leaves ++ down.leaves

def stage (n : Nest) : Stage :=
  n.link.stage

/-- The stages of the original links of a nest, in order. -/
def stages (n : Nest) : List Stage :=
  n.leaves.map (·.stage)

@[simp]
theorem stage_leaf (l : Link) : (leaf l).stage = l.stage := rfl

theorem stage_join (up down : Nest) :
    (join up down).stage = up.stage.andThenAs down.stage (fusedName up.link.name down.link.name) :=
  rfl

@[simp]
theorem stages_leaf (l : Link) : (leaf l).stages = [l.stage] := rfl

@[simp]
theorem stages_join (up down : Nest) : (join up down).stages = up.stages ++ down.stages := by
  simp [stages, leaves]

/-- Each fusion in a nest is one that the registry allows. -/
def Allowed (r : Registry) : Nest → Prop
  | leaf _ => True
  | join up down => up.Allowed r ∧ down.Allowed r ∧ r.Allows up.link.name down.link.name

theorem leaves_ne_nil (n : Nest) : n.leaves ≠ [] := by
  induction n with
  | leaf l => simp [leaves]
  | join up down ihUp _ => simp [leaves, ihUp]

end Nest

/-- The nests stand for the links of one chain and are made of the links of another. -/
structure Grouped (nests : List Nest) (links out : List Link) : Prop where
  link_eq : nests.map Nest.link = out
  leaves_eq : nests.flatMap Nest.leaves = links

namespace Grouped

variable {nests : List Nest} {links out : List Link}

theorem stages_out (h : Grouped nests links out) : out.map (·.stage) = nests.map Nest.stage := by
  rw [← h.link_eq, List.map_map]
  rfl

theorem stages_links (h : Grouped nests links out) :
    links.map (·.stage) = nests.flatMap Nest.stages := by
  rw [← h.leaves_eq, List.map_flatMap]
  rfl

end Grouped

section

variable {r : Registry} {iteration : Nat} {segment : Link} {start position : Nat}
  {links chain rest out : List Link} {p q : Progress}

/-- A sweep only joins neighbouring nests, and only where the registry allows it: whatever its chain
is made of, what it leaves is made of the same. -/
theorem Swept.exists_grouped (h : Swept r iteration segment start position rest p q out) :
    ∀ (n : Nest) (ns : List Nest), n.link = segment → ns.map Nest.link = rest →
      (∀ m ∈ n :: ns, m.Allowed r) →
      ∃ nests, Grouped nests (n.leaves ++ ns.flatMap Nest.leaves) out ∧
        ∀ m ∈ nests, m.Allowed r := by
  induction h with
  | last =>
    intro n ns hn hns hallowed
    rw [List.map_eq_nil_iff] at hns
    subst hns
    exact ⟨[n], ⟨by simp [hn], by simp⟩, hallowed⟩
  | joined allowed count tail ih =>
    intro n ns hn hns hallowed
    obtain ⟨m, ms, rfl, rfl, rfl⟩ := List.map_eq_cons_iff.mp hns
    subst hn
    obtain ⟨hup, hdown, hms⟩ := by simpa only [List.forall_mem_cons] using hallowed
    -- the nests of the two links are joined as the links are
    have hjoin : ∀ k ∈ Nest.join n m :: ms, k.Allowed r :=
      List.forall_mem_cons.mpr ⟨⟨hup, hdown, _, _, allowed⟩, hms⟩
    obtain ⟨nests, ⟨hlink, hleaves⟩, hnests⟩ := ih (.join n m) ms rfl rfl hjoin
    exact ⟨nests, ⟨hlink, by simp [hleaves, Nest.leaves]⟩, hnests⟩
  | parted refused tail ih =>
    intro n ns hn hns hallowed
    obtain ⟨m, ms, rfl, rfl, rfl⟩ := List.map_eq_cons_iff.mp hns
    obtain ⟨hfirst, hrest⟩ := List.forall_mem_cons.mp hallowed
    obtain ⟨nests, ⟨hlink, hleaves⟩, hnests⟩ := ih m ms rfl rfl hrest
    exact ⟨n :: nests, ⟨by simp [hn, hlink], by simp [hleaves]⟩,
      List.forall_mem_cons.mpr ⟨hfirst, hnests⟩⟩

theorem SweptChain.exists_grouped (h : SweptChain r iteration chain p q out) {ns : List Nest}
    (hns : Grouped ns links chain) (hallowed : ∀ n ∈ ns, n.Allowed r) :
    ∃ nests, Grouped nests links out ∧ ∀ n ∈ nests, n.Allowed r := by
  cases h with
  | empty => exact ⟨ns, hns, hallowed⟩
  | cons swept =>
    obtain ⟨n, rest, rfl, hn, hrest⟩ := List.map_eq_cons_iff.mp hns.link_eq
    obtain ⟨nests, hnests⟩ := swept.exists_grouped n rest hn hrest hallowed
    rw [← List.flatMap_cons, hns.leaves_eq] at hnests
    exact ⟨nests, hnests⟩

theorem Settled.exists_grouped (h : Settled r iteration chain p q out) :
    ∀ {ns : List Nest}, Grouped ns links chain → (∀ n ∈ ns, n.Allowed r) →
      ∃ nests, Grouped nests links out ∧ ∀ n ∈ nests, n.Allowed r := by
  induction h with
  | stop swept still =>
    intro ns hns hallowed
    exact swept.exists_grouped hns hallowed
  | again swept moved tail ih =>
    intro ns hns hallowed
    obtain ⟨mid, hmid, hmidAllowed⟩ := swept.exists_grouped hns hallowed
    exact ih hmid hmidAllowed

end

section

variable {r : Registry} {links : List Link} {result : OptimizedChain}

/-- **Every segment is a nesting of neighbouring links.** Together the segments hold each original
link once and in order, and each fusion in them is one that the registry allows. -/
theorem exists_grouped_allowed (h : (r.optimize links).outcome = .ok result) :
    ∃ nests, Grouped nests links result.links ∧ ∀ n ∈ nests, n.Allowed r := by
  have hs := (outcome_optimize_eq_ok_iff.mp h).1
  have hleaf : Grouped (links.map .leaf) links links :=
    ⟨by simp [Nest.link, Function.comp_def], by simp [List.flatMap_map, Nest.leaves]⟩
  apply hs.exists_grouped hleaf
  intro n hn
  obtain ⟨l, _, rfl⟩ := List.mem_map.mp hn
  trivial

theorem exists_grouped (h : (r.optimize links).outcome = .ok result) :
    ∃ nests, Grouped nests links result.links := by
  obtain ⟨nests, hg, _⟩ := exists_grouped_allowed h
  exact ⟨nests, hg⟩

end

end StageFusion
