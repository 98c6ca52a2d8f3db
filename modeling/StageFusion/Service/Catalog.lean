import StageFusion.Value

/-! Descriptions of the actions for a tool-using agent, as JSON schemas. -/

namespace StageFusion.Service

/-- A schema of a type without description. -/
def schema (type : String) : Value :=
  .dict [("type", .str type)]

/-- A schema of an object with properties, of which some are required. -/
def objectSchema (properties : List (String × Value)) (required : List String) : Value :=
  .dict ([("type", .str "object"), ("properties", .dict properties)]
    ++ if required.isEmpty then [] else [("required", .list (required.map .str))])

def arraySchema (items : Value) (description : String) : Value :=
  .dict [("type", .str "array"), ("items", items), ("description", .str description)]

def operatorNameSchema : Value :=
  .dict [("type", .str "string"),
    ("description", .str ("Operator name from the registry, e.g. 'map' or 'flatMap'. "
      ++ "Fused names such as 'map+filter' are accepted."))]

def tool (name description : String) (parameters : Value) : Value :=
  .dict [("name", .str name), ("description", .str description), ("parameters", parameters)]

def catalog : Value :=
  .list [
    tool "list_ops"
      "List the operator registry: name, category, usage shape and static bound."
      (objectSchema [] []),
    tool "check"
      "Check whether two adjacent operators can be fused, and which rule decided it."
      (objectSchema [("upstream", operatorNameSchema), ("downstream", operatorNameSchema)]
        ["upstream", "downstream"]),
    tool "optimize"
      ("Run the greedy fusion pass over a chain of operators and report "
        ++ "the fused segments, the overall usage bound and a fusion trace.")
      (objectSchema
        [("operators", arraySchema (schema "string") "Operator names in pipeline order")]
        ["operators"]),
    tool "bound"
      "Sequential usage bound of a chain of per-stage bounds."
      (objectSchema
        [("bounds", arraySchema (.dict [("type", .list [.str "integer", .str "string"])])
          "Per-stage bounds; use \"∞\" for unbounded")]
        ["bounds"])]

end StageFusion.Service
