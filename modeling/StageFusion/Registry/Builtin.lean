import StageFusion.Registry

/-! The builtin operator table. -/

namespace StageFusion

namespace Registry

/-- The builtin operators: stateless ones with one output for an input and with any number of
outputs, stateful ones with one step for an input, with a step that may be left out, with a bound
from an argument and over several sources, and those with observable effects. -/
def builtinOperators : List Operator :=
  let once := Shape.constant 1
  let rateLimited := Shape.conditional 1 0
  (["map", "filter", "mapTo", "pluck"].map fun n => ⟨n, .stateless, once⟩)
    ++ (["flatMap", "chain", "mergeMap", "concatMap", "switchMap"].map fun n =>
      ⟨n, .stateless, .unbounded⟩)
    ++ (["scan", "reduce", "drop", "skip", "distinctUntilChanged", "bufferCount",
      "slidingWindow"].map fun n => ⟨n, .stateful, once⟩)
    ++ (["throttleTime", "debounceTime"].map fun n => ⟨n, .stateful, rateLimited⟩)
    ++ [⟨"take", .stateful, .dataDependent⟩]
    ++ (["merge", "zip", "concat", "switch", "combineLatest"].map fun n =>
      ⟨n, .stateful, .unbounded⟩)
    ++ (["tap", "log", "metrics"].map fun n => ⟨n, .effectful, once⟩)

def builtin : Registry where
  operators := builtinOperators
  names_nodup := by decide +kernel
  names_valid := by decide +kernel

end Registry

end StageFusion
