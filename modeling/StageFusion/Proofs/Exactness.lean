import StageFusion.Proofs.Usages
import StageFusion.Stage.Limit

/-! Declared shapes are exact.

`Usage.Built` and `Stage.Built` have one constructor for each way to make a usage or a stage. A shape
admits the multiplicities that it leaves open (`Shape.Admits`): one for a constant shape, two for a
choice, the top one for an unbounded shape, all for a shape that depends on the data. A combinator
that computes a usage from admitted ones computes an admitted one (`Shape.Admits.scale`,
`Shape.Admits.beside`), so that every usage of a built stage is admitted by the declared shape. -/

namespace StageFusion

open Multiplicity (exact)

/-! ## Shapes -/

namespace Shape

/-- A shape leaves a multiplicity open. -/
def Admits : Shape → Multiplicity → Prop
  | constant k, m => m = exact k
  | conditional t f, m => m = exact t ∨ m = exact f
  | dataDependent, _ => True
  | unbounded, m => m = .unbounded

theorem admits_bound (s : Shape) : s.Admits s.bound := by
  cases s with
  | constant k => rfl
  | conditional t f =>
    rcases max_choice t f with h | h
    · exact .inl (congrArg exact h)
    · exact .inr (congrArg exact h)
  | dataDependent => trivial
  | unbounded => rfl

theorem Admits.le_bound {s : Shape} {m : Multiplicity} (h : s.Admits m) : m ≤ s.bound := by
  cases s with
  | constant k => exact le_of_eq h
  | conditional t f =>
    rcases h with rfl | rfl
    · exact Multiplicity.exact_le_exact.mpr (le_max_left t f)
    · exact Multiplicity.exact_le_exact.mpr (le_max_right t f)
  | dataDependent => exact Multiplicity.le_unbounded m
  | unbounded => exact Multiplicity.le_unbounded m

theorem admits_ofBound (m : Multiplicity) : (ofBound m).Admits m := by
  cases m <;> rfl

/-- The shape of a choice admits both of its sides. -/
theorem admits_ofChoice (m n : Multiplicity) :
    (ofChoice m n).Admits m ∧ (ofChoice m n).Admits n := by
  cases m with
  | exact t =>
    cases n with
    | exact f =>
      by_cases h : t = f
      · simp [ofChoice, h, Admits]
      · simp [ofChoice, h, Admits]
    | unbounded => exact ⟨trivial, trivial⟩
  | unbounded =>
    cases n with
    | exact f => exact ⟨trivial, trivial⟩
    | unbounded => exact ⟨rfl, rfl⟩

theorem Admits.scale {s : Shape} {m : Multiplicity} (h : s.Admits m) (n : Multiplicity) :
    (s.scale n).Admits (m * n) := by
  by_cases hn : n = 0
  · rw [hn, mul_zero, scale_zero]
    rfl
  cases s with
  | constant k =>
    rw [show m = exact k from h]
    exact admits_ofBound _
  | conditional t f =>
    rcases h with rfl | rfl
    · exact (admits_ofChoice _ _).1
    · exact (admits_ofChoice _ _).2
  | dataDependent =>
    rw [scale_dataDependent hn]
    trivial
  | unbounded =>
    rw [scale_unbounded hn, show m = .unbounded from h]
    exact Multiplicity.unbounded_mul hn

/-- Two usages side by side are combined as their constant counts are, `unbounded` absorbing. -/
theorem Admits.beside {a b : Shape} {m n : Multiplicity} (ha : a.Admits m) (hb : b.Admits n)
    (op : Multiplicity → Multiplicity → Multiplicity) (f : Nat → Nat → Nat)
    (hexact : ∀ j k, op (exact j) (exact k) = exact (f j k))
    (hleft : ∀ k, op .unbounded k = .unbounded) (hright : ∀ k, op k .unbounded = .unbounded) :
    (Shape.beside f a b).Admits (op m n) := by
  cases a with
  | unbounded =>
    rw [show m = .unbounded from ha, hleft]
    rfl
  | constant j =>
    cases b with
    | constant k =>
      rw [show m = exact j from ha, show n = exact k from hb, hexact]
      rfl
    | unbounded =>
      rw [show n = .unbounded from hb, hright]
      rfl
    | _ => trivial
  | _ =>
    cases b with
    | unbounded =>
      rw [show n = .unbounded from hb, hright]
      rfl
    | _ => trivial

end Shape

/-! ## Usages -/

namespace Usage

/-- A usage that a constructor of usages makes. -/
inductive Built : Usage → Prop
  | constant (k : Nat) : Built (constant k)
  | once : Built once
  | never : Built never
  | unbounded : Built unbounded
  | conditional (condition : Value → Except Fault Bool) (whenTrue whenFalse : Nat) :
    Built (conditional condition whenTrue whenFalse)
  | dependent (f : Value → Except Fault Value) : Built (dependent f)
  | undeclared (f : Value → Except Fault Multiplicity) : Built (undeclared f)
  | ofShape (s : Shape) : Built (ofShape s)
  | ofValue {v : Value} {u : Usage} (h : ofValue v = .ok u) : Built u

/-- The declared shape admits every multiplicity that is computed. -/
def Exact (u : Usage) : Prop :=
  ∀ v m, u.count v = .ok m → u.shape.Admits m

theorem exact_constant (k : Nat) : (constant k).Exact := by
  intro v m h
  cases h
  rfl

theorem exact_ofMultiplicity (m : Multiplicity) : (ofMultiplicity m).Exact := by
  cases m with
  | exact k => exact exact_constant k
  | unbounded =>
    intro v m h
    cases h
    rfl

theorem exact_of_ofValue {v : Value} {u : Usage} (h : ofValue v = .ok u) : u.Exact := by
  cases v with
  | int i =>
    obtain ⟨k, _, h⟩ := bind_eq_ok_iff.mp h
    cases h
    exact exact_constant k
  | multiplicity m =>
    cases h
    exact exact_ofMultiplicity m
  | _ => cases h

theorem Built.exact {u : Usage} (h : u.Built) : u.Exact := by
  cases h with
  | constant k => exact exact_constant k
  | once => exact exact_constant 1
  | never => exact exact_constant 0
  | unbounded => exact exact_ofMultiplicity .unbounded
  | conditional condition t f =>
    intro v m h
    obtain ⟨answer, _, h⟩ := bind_eq_ok_iff.mp h
    cases h
    cases answer with
    | true => exact .inl rfl
    | false => exact .inr rfl
  | dependent f => exact fun _ _ _ => trivial
  | undeclared f => exact fun _ _ _ => trivial
  | ofShape s =>
    intro v m h
    cases h
    exact s.admits_bound
  | ofValue h => exact exact_of_ofValue h

end Usage

/-! ## Stages -/

namespace Stage

/-- A stage that is made of built usages by the constructors and combinators of stages, by fusing two
stages, or by optimizing a chain. -/
inductive Built : Stage → Prop
  | stateless (f : Value → Logged Value Value) {usage : Usage} (name : String)
    (husage : usage.Built) : Built (stateless f usage name)
  | stateful (step : Value → Value → Run) {usage : Usage} (name : String)
    (husage : usage.Built) : Built (stateful step usage name)
  | custom (run : Value → Value → Run) {usage : Usage} (category : Category) (name : String)
    (ceiling : Option Multiplicity) (husage : usage.Built) :
    Built ⟨run, usage, category, name, ceiling⟩
  | map (f : Value → Logged Value Value) : Built (map f)
  | filter (condition : Value → Logged Value Bool) : Built (filter condition)
  | scan (initial : Value) (reduce : Value → Value → Logged Value Value) :
    Built (scan initial reduce)
  | take (limit : Nat) : Built (take limit)
  | flatMap (f : Value → Logged Value Value) : Built (flatMap f)
  | tap (effect : Value → Logged Value Unit) : Built (tap effect)
  | andThen {a b : Stage} (ha : Built a) (hb : Built b) : Built (a.andThen b)
  | beside {a b : Stage} (ha : Built a) (hb : Built b) : Built (a.beside b)
  | fanOut {a b : Stage} (ha : Built a) (hb : Built b) : Built (a.fanOut b)
  | limit {s : Stage} (ceiling : Multiplicity) (hs : Built s) : Built (s.limit ceiling)
  | fused {r : Registry} {a b s : Stage} {nameA nameB : String} {bound : Multiplicity}
    (ha : Built a) (hb : Built b)
    (h : (r.fuseStages a b nameA nameB).outcome = .ok (.fused bound s)) : Built s
  | optimized {r : Registry} {links : List Link} {result : OptimizedChain} {l : Link}
    (hlinks : ∀ l ∈ links, Built l.stage) (h : (r.optimize links).outcome = .ok result)
    (hl : l ∈ result.links) : Built l.stage

/-- The declared shape of a stage admits every usage that is computed. -/
def Exact (s : Stage) : Prop :=
  s.usage.Exact

theorem Exact.honest {s : Stage} (h : s.Exact) : s.Honest :=
  fun v m hm => (h v m hm).le_bound

theorem Exact.andThenAs {a : Stage} (ha : a.Exact) (b : Stage) (name : String) :
    (a.andThenAs b name).Exact := by
  intro v m hm
  obtain ⟨k, hk, rfl⟩ := count_andThenAs_eq_ok_iff.mp hm
  show (a.shape.andThen b.shape).Admits _
  rw [Shape.andThen_eq_scale]
  exact (ha v k hk).scale b.shape.factor

theorem Exact.beside {a b : Stage} (ha : a.Exact) (hb : b.Exact) : (a.beside b).Exact := by
  intro v m hm
  obtain ⟨⟨x, y⟩, _, hm⟩ := bind_eq_ok_iff.mp hm
  obtain ⟨j, hj, hm⟩ := bind_eq_ok_iff.mp hm
  obtain ⟨k, hk, hm⟩ := bind_eq_ok_iff.mp hm
  cases hm
  exact (ha x j hj).beside (hb y k hk) max max Multiplicity.max_exact
    (fun k => max_eq_left (Multiplicity.le_unbounded k))
    (fun k => max_eq_right (Multiplicity.le_unbounded k))

theorem Exact.fanOut {a b : Stage} (ha : a.Exact) (hb : b.Exact) : (a.fanOut b).Exact := by
  intro v m hm
  obtain ⟨j, hj, hm⟩ := bind_eq_ok_iff.mp hm
  obtain ⟨k, hk, hm⟩ := bind_eq_ok_iff.mp hm
  cases hm
  exact (ha v j hj).beside (hb v k hk) (· + ·) (· + ·) (fun _ _ => rfl) Multiplicity.unbounded_add
    Multiplicity.add_unbounded

theorem exact_of_fuseStages {r : Registry} {a b s : Stage} {nameA nameB : String}
    {bound : Multiplicity} (ha : a.Exact)
    (h : (r.fuseStages a b nameA nameB).outcome = .ok (.fused bound s)) : s.Exact := by
  obtain ⟨-, -, rfl⟩ := Registry.outcome_fuseStages_eq_fused_iff.mp h
  exact ha.andThenAs b _

/-- A check at the declared bound never finds an honest usage above it. -/
theorem Honest.checkedUsage {s : Stage} (h : s.Honest) (v : Value) :
    s.checkedUsage s.bound v = s.usage.count v := by
  rw [Stage.checkedUsage]
  cases hcount : s.usage.count v with
  | error e => rfl
  | ok m => exact if_pos (h v m hcount)

theorem Built.exact {s : Stage} (h : s.Built) : s.Exact := by
  induction h with
  | stateless f name husage => exact husage.exact
  | stateful step name husage => exact husage.exact
  | custom run category name ceiling husage => exact husage.exact
  | map f => exact Usage.exact_constant 1
  | filter condition => exact Usage.exact_constant 1
  | scan initial reduce => exact Usage.exact_constant 1
  | take limit => exact Usage.exact_constant limit
  | flatMap f => exact Usage.exact_ofMultiplicity .unbounded
  | tap effect => exact Usage.exact_constant 1
  | @andThen a b ha hb iha ihb => exact iha.andThenAs b (a.andThen b).name
  | beside ha hb iha ihb => exact iha.beside ihb
  | fanOut ha hb iha ihb => exact iha.fanOut ihb
  | limit ceiling hs ih => exact ih
  | fused ha hb h iha ihb => exact exact_of_fuseStages iha h
  | @optimized r links result l hlinks h hl ih =>
    exact forall_mem_optimize (P := fun l => l.stage.Exact)
      (fun a b _ ha _ => ha.andThenAs b.stage _) h ih l hl

/-- **Declared shapes are exact.** Whatever a built stage computes as its usage, the declared shape
admits it, and it is at or below the declared bound. So a limit at the declared bound is never
exceeded: the stage runs under it as without it, once its usage has been computed. -/
theorem built_admits_usage {s : Stage} (h : s.Built) :
    (∀ v m, s.usage.count v = .ok m → s.shape.Admits m ∧ m ≤ s.bound) ∧
    ∀ v state, (s.limit s.bound).run v state =
      (liftM (s.usage.count v) : Logged Value Multiplicity) >>= fun _ => s.run v state := by
  have hexact := h.exact
  refine ⟨fun v m hm => ⟨hexact v m hm, hexact.honest v m hm⟩, fun v state => ?_⟩
  rw [← hexact.honest.checkedUsage v]
  rfl

/-- A rate limiter that lets three values or one pass, before a limited count of two. -/
def burst : List Link :=
  [⟨.stateful (fun v _ => return (v, v)) (.conditional (fun v => .ok v.isTruthy) 3 1) "throttleTime",
      "throttleTime"⟩,
    ⟨(Stage.take 2).limit (exact 2), "scan"⟩]

theorem built_burst : ∀ l ∈ burst, l.stage.Built :=
  List.forall_mem_cons.mpr ⟨.stateful _ _ (.conditional _ 3 1),
    List.forall_mem_singleton.mpr ((Built.take 2).limit (exact 2))⟩

/-- The segment is declared to be used six times or twice. A null input is the latter, and runs
under a limit of six. -/
theorem burst_admits_two : ∃ result l,
    (Registry.builtin.optimize burst).outcome = .ok result ∧ result.links = [l] ∧
    l.stage.Built ∧ l.stage.shape = .conditional 6 2 ∧
    l.stage.usage.count .null = .ok (exact 2) ∧
    (Shape.conditional 6 2).Admits (exact 2) ∧ exact 2 ≤ l.stage.bound ∧
    (l.stage.limit l.stage.bound).run .null .null = l.stage.run .null .null := by
  obtain ⟨result, h, hseen⟩ := exists_ok_of_toOption_map
    (f := fun c : OptimizedChain => c.links.map fun l =>
      (l.stage.shape, (l.stage.usage.count .null).toOption))
    (x := (Registry.builtin.optimize burst).outcome)
    (b := [(.conditional 6 2, some (exact 2))]) (by decide +kernel)
  obtain ⟨l, hlinks, hl⟩ := List.map_eq_singleton_iff.mp hseen
  obtain ⟨hshape, hcount⟩ := Prod.mk.injEq .. ▸ hl
  obtain ⟨_, hcount, rfl⟩ := exists_ok_of_toOption_map (f := id) (Option.map_id_apply.trans hcount)
  have hbuilt : l.stage.Built :=
    .optimized built_burst h (hlinks ▸ List.mem_singleton_self l)
  obtain ⟨hadmits, hruns⟩ := built_admits_usage hbuilt
  obtain ⟨hadmitted, hbound⟩ := hadmits .null (exact 2) hcount
  refine ⟨result, l, h, hlinks, hbuilt, hshape, hcount, hshape ▸ hadmitted, hbound, ?_⟩
  rw [hruns, hcount]
  rfl

end Stage

end StageFusion
