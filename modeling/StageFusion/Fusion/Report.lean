import StageFusion.Fusion.Chain

/-! Reports about fused chains: warnings, trace entries, and a summary in words. -/

namespace StageFusion

def unknownWarning (name : String) : String :=
  "no metadata for operator " ++ Text.quote name ++ "; treated as unfusible"

def Attempt.report (a : Attempt) : Value :=
  .dict [("step", .int a.step), ("iteration", .int a.iteration), ("position", .int a.position),
    ("upstream", .str a.upstream), ("downstream", .str a.downstream), ("fused", .bool a.fused),
    ("fused_bound", a.bound.toValue), ("reason", (a.reason.map Value.str).getD .null)]

namespace OptimizedChain

def diagnostics (c : OptimizedChain) : List String :=
  c.unknown.map unknownWarning

/-- The segments of a chain in words, each with its bound. -/
def segmentsText (c : OptimizedChain) : Except Fault String := do
  let segments ← c.links.mapM fun link => do
    return link.name ++ "[" ++ (← link.stage.bound.write) ++ "]"
  return if segments.isEmpty then "(empty)" else " -> ".intercalate segments

/-- The summary of a chain, one fact a line. -/
def summary (c : OptimizedChain) : Except Fault String := do
  let lines := [
    "segments: " ++ (← c.segmentsText),
    "usage bound: " ++ (← c.bound.write),
    "fused " ++ toString c.stats.fused ++ " of " ++ toString c.stats.attempts ++ " attempts"]
  return "\n".intercalate (lines ++ c.diagnostics.map ("warning: " ++ ·))

end OptimizedChain

end StageFusion
