import StageFusion.Multiplicity
import StageFusion.Text.Encoding
import StageFusion.Text.Quoted

/-! Faults: everything that can go wrong, as causes.

A `Fault` says what was found where something else was wanted. A constructor that shows a value
holds its text, since a value with an over-long numeral has none. `Fault.label` is the word by
which reports name the kind of a fault, and `Fault.message` its wording. Main statement:
`Fault.label_eq_usageExceeded_iff`, only an exceeded limit is reported as one. -/

namespace StageFusion

/-- The most digits that a numeral may have, in a text that is read or written. -/
def numeralLimit : Nat := 4300

/-- A cause of failure. -/
inductive Fault where
  /-- A count was wanted and a value of another type was found. -/
  | countType (found : String)
  /-- A count was wanted and a negative number was found. -/
  | countNegative (shown : String)
  /-- A multiplicity was wanted. -/
  | multiplicity (shown : String)
  /-- A numeral of this many digits was read. -/
  | numeralRead (digits : Nat)
  /-- A number with too long a numeral was to be written. -/
  | numeralWritten
  /-- The name of a usage shape was wanted. -/
  | shapeKind (shown : String)
  /-- A usage shape was given the wrong number of counts. -/
  | shapeArity (kind : String) (wanted found : Nat)
  /-- The name of a category was wanted. -/
  | category (shown : String)
  /-- A usage was wanted. -/
  | usage (found : String)
  /-- A number of values to take was wanted. -/
  | takeCount (shown : String)
  /-- An operator record was wanted. -/
  | recordType (found : String)
  /-- An operator record has no usable name. -/
  | recordName (shown : String)
  /-- An operator record has no category. -/
  | recordCategory (name : String) (shown : String)
  /-- An operator record has no usage shape. -/
  | recordShape (name : String) (shown : String)
  /-- Two operator records have one name. -/
  | recordDuplicate (name : String)
  /-- A stage declared more runs for an input than its limit admits. -/
  | usageExceeded (operator : String) (computed ceiling : Multiplicity)
  /-- An average is beyond the range of its format. -/
  | averageRange
  /-- A sequence of values was wanted. -/
  | notIterable (found : String)
  /-- A value of two parts was wanted and one without parts was found. -/
  | notPair (found : String)
  /-- A value of two parts was wanted and one with fewer parts was found. -/
  | tooFewParts (found : Nat)
  /-- A value of two parts was wanted and one with more parts was found. -/
  | tooManyParts
  /-- A value was to be compared with a number. -/
  | notOrdered (found : String)
  /-- A field was looked up in a value without it. -/
  | noField (found field : String)
  /-- A sink for statistics was wanted. -/
  | sink
  /-- The name of a log level was wanted. -/
  | levelName (shown : String)
  /-- A log level was wanted. -/
  | levelType (shown : String)
  /-- A log message has more places than arguments. -/
  | tooFewArguments
  /-- A log message has fewer places than arguments. -/
  | tooManyArguments
  /-- A log message ends within a place. -/
  | placeUnfinished
  /-- A log message has a place of an unknown kind, at this index. -/
  | placeUnknown (kind : Char) (index : Nat)
  /-- A number that is not finite was to be sent. -/
  | floatSent
  /-- A text with surrogates was to be sent. -/
  | surrogatesSent (run : Text.SurrogateRun)
  /-- A JSON text was wanted and nothing was found. -/
  | emptyJson
  /-- A function given by the caller failed. -/
  | raised (message : String)
  deriving DecidableEq, Repr, Inhabited

namespace Fault

/-- The word by which reports name the kind of a fault. -/
def label : Fault → String
  | countType _ | countNegative _ | multiplicity _ | numeralRead _ | numeralWritten | shapeKind _
  | shapeArity .. | category _ | takeCount _ | tooFewParts _ | tooManyParts | levelName _
  | placeUnfinished | placeUnknown .. | floatSent | raised _ => "ValueError"
  | usage _ | notIterable _ | notPair _ | notOrdered _ | sink | levelType _ | tooFewArguments
  | tooManyArguments => "TypeError"
  | recordType _ | recordName _ | recordCategory .. | recordShape .. | recordDuplicate _ =>
    "MetadataError"
  | usageExceeded .. => "UsageExceeded"
  | averageRange => "OverflowError"
  | noField .. => "AttributeError"
  | surrogatesSent _ => "UnicodeEncodeError"
  | emptyJson => "JSONDecodeError"

/-- The wording shared by the two faults about over-long numerals. -/
def numeralMessage (detail : String) : String :=
  "Exceeds the limit (" ++ toString numeralLimit ++ " digits) for integer string conversion"
    ++ detail ++ "; use sys.set_int_max_str_digits() to increase the limit"

def surrogatesMessage (run : Text.SurrogateRun) : String :=
  let what :=
    if run.further = 0 then
      " '\\u" ++ String.ofList (Text.hexDigits 4 run.first) ++ "' in position "
        ++ toString run.start
    else "s in position " ++ toString run.start ++ "-" ++ toString (run.start + run.further)
  "'utf-8' codec can't encode character" ++ what ++ ": surrogates not allowed"

def message : Fault → String
  | countType found => "Exact bound must be an int, got " ++ found
  | countNegative shown => "Exact bound must be non-negative, got " ++ shown
  | multiplicity shown => "Cannot parse multiplicity from " ++ shown
  | numeralRead digits => numeralMessage (": value has " ++ toString digits ++ " digits")
  | numeralWritten => numeralMessage ""
  | shapeKind shown => shown ++ " is not a valid ShapeKind"
  | shapeArity kind wanted found =>
    kind ++ " shape takes " ++ toString wanted ++ " value(s), got " ++ toString found
  | category shown => shown ++ " is not a valid Category"
  | usage found => "Cannot build a usage function from " ++ found
  | takeCount shown => "take count must be a non-negative int, got " ++ shown
  | recordType found => "Expected OperatorMetadata, got " ++ found
  | recordName shown => "Invalid operator name " ++ shown
  | recordCategory name shown =>
    "Operator " ++ Text.quote name ++ " has invalid category " ++ shown
  | recordShape name shown =>
    "Operator " ++ Text.quote name ++ " has invalid usage shape " ++ shown
  | recordDuplicate name => "Duplicate operator metadata for " ++ Text.quote name
  | usageExceeded operator computed ceiling =>
    "Usage " ++ computed.text ++ " exceeds maximum bound " ++ ceiling.text ++ " for operator "
      ++ Text.quote operator
  | averageRange => "integer division result too large for a float"
  | notIterable found => "'" ++ found ++ "' object is not iterable"
  | notPair found => "cannot unpack non-iterable " ++ found ++ " object"
  | tooFewParts found =>
    "not enough values to unpack (expected 2, got " ++ toString found ++ ")"
  | tooManyParts => "too many values to unpack (expected 2)"
  | notOrdered found => "'>=' not supported between instances of '" ++ found ++ "' and 'int'"
  | noField found field => "'" ++ found ++ "' object has no attribute '" ++ field ++ "'"
  | sink => "stats sink must be callable or None"
  | levelName shown => "Unknown level: " ++ shown
  | levelType shown => "Level not an integer or a valid string: " ++ shown
  | tooFewArguments => "not enough arguments for format string"
  | tooManyArguments => "not all arguments converted during string formatting"
  | placeUnfinished => "incomplete format"
  | placeUnknown kind index =>
    "unsupported format character '" ++ kind.toString ++ "' (0x"
      ++ String.ofList (Nat.toDigits 16 (Text.codePoint kind)) ++ ") at index " ++ toString index
  | floatSent => "Out of range float values are not JSON compliant"
  | surrogatesSent run => surrogatesMessage run
  | emptyJson => "Expecting value: line 1 column 1 (char 0)"
  | raised message => message

theorem label_eq_usageExceeded_iff (f : Fault) :
    f.label = "UsageExceeded" ↔ ∃ operator computed ceiling,
      f = usageExceeded operator computed ceiling := by
  cases f <;> simp [label]

end Fault

end StageFusion
