import StageFusion.Fusion.Pair

/-! Greedy fusion of a chain, repeated to a fixed point.

A sweep walks a chain from left to right with one accumulated segment: if the next link can be
fused into it, it is; if not, the segment is sealed and the next link starts a new one. Sweeps are
repeated until one fuses nothing or a single link is left. `Registry.optimize` reports names that
the registry does not know, settles the chain, and tells the statistics of a chain of two or more
links. -/

namespace StageFusion

/-- A stage with the operator name that the registry knows it by. -/
structure Link where
  stage : Stage
  name : String

/-- One attempt to fuse two neighbours. -/
structure Attempt where
  /-- The place of the attempt in the whole run. -/
  step : Nat
  /-- The sweep that made the attempt, the first being zero. -/
  iteration : Nat
  /-- Where the accumulated segment began in the chain of the sweep. -/
  position : Nat
  upstream : String
  downstream : String
  fused : Bool
  bound : Multiplicity
  reason : Option String
  deriving DecidableEq, Repr

/-- What a run has recorded so far. -/
structure Progress where
  stats : Stats := {}
  trace : List Attempt := []

namespace Progress

/-- Adds an attempt to the trace; its step is the number of attempts before it. -/
def note (p : Progress) (iteration position : Nat) (upstream downstream : String)
    (d : Decision) : Progress :=
  { p with trace := p.trace ++ [⟨p.trace.length, iteration, position, upstream, downstream,
      d.stage?.isSome, d.bound, d.reason?⟩] }

def countFusion (p : Progress) (up down fused : Multiplicity) : Except Fault Progress :=
  match p.stats.addFusion up down fused with
  | (stats, none) => .ok { p with stats := stats }
  | (_, some e) => .error e

def countSkip (p : Progress) : Progress :=
  { p with stats := p.stats.addSkip }

end Progress

namespace Registry

/-- A sweep over the rest of a chain. `segment` has been accumulated from the link at `start` up to
the one before `position`. -/
def sweepFrom (r : Registry) (iteration : Nat) :
    (segment : Link) → (start position : Nat) → (rest : List Link) → Progress →
      Logged Event (Progress × List Link)
  | segment, _, _, [], p => return (p, [segment])
  | segment, start, position, next :: rest, p => do
    let decision ← r.fuseStages segment.stage next.stage segment.name next.name
    let noted := p.note iteration start segment.name next.name decision
    match decision with
    | .fused bound stage =>
      let counted ← noted.countFusion segment.stage.bound next.stage.bound bound
      r.sweepFrom iteration ⟨stage, fusedName segment.name next.name⟩ start (position + 1) rest
        counted
    | .refused .. =>
      let (p, sealedLinks) ← r.sweepFrom iteration next position (position + 1) rest noted.countSkip
      return (p, segment :: sealedLinks)

/-- One sweep over a chain. -/
def sweep (r : Registry) (iteration : Nat) (chain : List Link) (p : Progress) :
    Logged Event (Progress × List Link) :=
  match chain with
  | [] => return (p, [])
  | first :: rest => r.sweepFrom iteration first 0 1 rest p

/-- Sweeps over a chain until a sweep does not shorten it or leaves one link. -/
def settle (r : Registry) (iteration : Nat) (chain : List Link) (p : Progress) :
    Logged Event (Progress × List Link) :=
  let swept := r.sweep iteration chain p
  match swept.outcome with
  | .error e => ⟨swept.log, .error e⟩
  | .ok (p, shorter) =>
    if _ : shorter.length < chain.length ∧ shorter.length ≠ 1 then
      let settled := r.settle (iteration + 1) shorter p
      ⟨swept.log ++ settled.log, settled.outcome⟩
    else swept
  termination_by chain.length
  decreasing_by omega

end Registry

/-- A chain after fusion, with the record of how it came about. -/
structure OptimizedChain where
  links : List Link
  trace : List Attempt
  stats : Stats
  /-- The names of links that the registry does not know. -/
  unknown : List String

def Link.sequenceBound (links : List Link) : Multiplicity :=
  Multiplicity.product (links.map (·.stage.bound))

namespace OptimizedChain

def bound (c : OptimizedChain) : Multiplicity :=
  Link.sequenceBound c.links

def stages (c : OptimizedChain) : List Stage :=
  c.links.map (·.stage)

def names (c : OptimizedChain) : List String :=
  c.links.map (·.name)

end OptimizedChain

namespace Registry

/-- The names of links that the registry does not know, each once, in order of first appearance. -/
def unknownNames (r : Registry) (links : List Link) : List String :=
  ((links.map (·.name)).filter fun n => (r.resolve n).isNone).eraseDups

/-- Fuses neighbouring stages greedily until nothing fuses. -/
def optimize (r : Registry) (links : List Link) : Logged Event OptimizedChain := do
  let unknown := r.unknownNames links
  Logged.tellAll (unknown.map .unknownOperator)
  let (p, settled) ← r.settle 0 links {}
  if 1 < links.length then
    Logged.tell (.finished p.stats)
  return ⟨settled, p.trace, p.stats, unknown⟩

end Registry

end StageFusion
