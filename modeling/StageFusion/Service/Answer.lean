import StageFusion.Fusion.Report
import StageFusion.Registry.Builtin

/-! Requests to the fusion checker, as JSON values.

A request is a dictionary with an `action`: to list the operators, to check a pair of names, to
optimize a chain of names, or to multiply bounds. Every fault while an action is carried out
becomes an answer with an `error`; only a request that is no dictionary fails. -/

namespace StageFusion.Service

def errorAnswer (text : String) : Value :=
  .dict [("error", .str text)]

/-- The answer that reports a fault by its kind and wording. -/
def faultAnswer (e : Fault) : Value :=
  errorAnswer (e.label ++ ": " ++ e.message)

/-- The text of a field, if it is a text with at least one character. -/
def nonemptyText? : Value → Option String
  | .str s => if s = "" then none else some s
  | _ => none

/-- A stage that passes values on, with the usage and category that a registry has for a name. An
unknown name is unbounded and effectful. -/
def stageFor (r : Registry) (name : String) : Stage :=
  let (shape, category) :=
    match r.resolve name with
    | some m => (m.shape, m.category)
    | none => (.unbounded, .effectful)
  { run := fun v state => return (state, v)
    usage := .ofShape shape
    category
    name }

/-- The links that a list of operator names stands for. -/
def placeholders (r : Registry) (names : List String) : List Link :=
  names.map fun name => ⟨stageFor r name, name⟩

def listOperators (r : Registry) : Except Fault Value := do
  return .dict [("operators", .list (← r.operators.mapM (·.report)))]

def checkPair (r : Registry) (request : Value) : Except Fault Value :=
  match nonemptyText? (request.field "upstream"), nonemptyText? (request.field "downstream") with
  | none, _ => .ok (errorAnswer "Missing 'upstream' field")
  | _, none => .ok (errorAnswer "Missing 'downstream' field")
  | some up, some down => do
    let verdict ← r.verdict up down
    return .dict [("upstream", .str up), ("downstream", .str down),
      ("can_fuse", .bool verdict.isAllowed), ("rule", .str verdict.rule.name),
      ("reason", (verdict.reason?.map Value.str).getD .null),
      ("fused_bound", verdict.bound.toValue),
      ("would_increase", .bool (r.raisesBound up down))]

def segmentReport (link : Link) : Except Fault Value := do
  return .dict [("name", .str link.name), ("category", .str link.stage.category.name),
    ("shape", .str (← link.stage.shape.text)), ("bound", link.stage.bound.toValue)]

def chainReport (c : OptimizedChain) : Except Fault Value := do
  return .dict [("segments", .list (← c.links.mapM segmentReport)),
    ("usage_bound", c.bound.toValue), ("trace", .list (c.trace.map (·.report))),
    ("stats", c.stats.report), ("diagnostics", .list (c.diagnostics.map .str))]

def optimizeNames (r : Registry) (request : Value) : Logged Event Value :=
  match request.field "operators" with
  | .list items =>
    match items.mapM nonemptyText? with
    | some names => do
      let chain ← r.optimize (placeholders r names)
      liftM (chainReport chain)
    | none => return errorAnswer "'operators' must be a list of operator names"
  | _ => return errorAnswer "Missing 'operators' field"

def multiplyBounds (request : Value) : Except Fault Value :=
  match request.field "bounds" with
  | .list items => do
    let bounds ← items.mapM Multiplicity.ofValue
    return .dict [("usage_bound", (Multiplicity.product bounds).toValue)]
  | _ => .ok (errorAnswer "Missing 'bounds' field")

def perform (r : Registry) (action request : Value) : Logged Event Value :=
  match action with
  | .str "list_ops" => liftM (listOperators r)
  | .str "check" => liftM (checkPair r request)
  | .str "optimize" => optimizeNames r request
  | .str "bound" => liftM (multiplyBounds request)
  | action => do return errorAnswer ("Unknown action: " ++ (← action.display))

def answer (r : Registry) (request : Value) : Logged Event Value :=
  match request with
  | .dict _ =>
    let action := request.field "action"
    if action.isTruthy then
      tryCatch (perform r action request) fun e => return faultAnswer e
    else return errorAnswer "Missing 'action' field"
  | request => throw (.noField request.sort "get")

end StageFusion.Service
