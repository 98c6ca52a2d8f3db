import StageFusion.Value.Display

/-! Log messages from templates.

A template has places, each a percent sign and a letter: `%s` takes the next argument in plain text,
and `%%` stands for a percent sign. Without arguments the template is the message as it stands. -/

namespace StageFusion.Logging

/-- Fills the places of a template from `index` on with the arguments. `strict` asks that no
argument is left over. -/
def fillPlaces (strict : Bool) : Nat → List Char → List Value → Except Fault (List Char)
  | _, [], args => if strict && !args.isEmpty then .error .tooManyArguments else .ok []
  | _, ['%'], _ => .error .placeUnfinished
  | index, '%' :: '%' :: rest, args => do return '%' :: (← fillPlaces strict (index + 2) rest args)
  | index, '%' :: 's' :: rest, args =>
    match args with
    | [] => .error .tooFewArguments
    | v :: args => do
      let shown ← v.plain
      return shown.toList ++ (← fillPlaces strict (index + 2) rest args)
  | index, '%' :: kind :: _, _ => .error (.placeUnknown kind (index + 1))
  | index, c :: rest, args => do return c :: (← fillPlaces strict (index + 1) rest args)

/-- The message of a template with arguments. A single dictionary that is not empty may be left
over. -/
def message (template : String) (args : List Value) : Except Fault String :=
  match args with
  | [] => .ok template
  | [.dict (_ :: _)] => String.ofList <$> fillPlaces false 0 template.toList args
  | _ => String.ofList <$> fillPlaces true 0 template.toList args

end StageFusion.Logging
