import StageFusion.Logging.Message
import StageFusion.Text.Cut

/-! Loggers.

The names of loggers form a tree by their dots. A notice is dropped if its level is below the
effective level of the logger it was made on, which is the level of the nearest logger up the tree
that has one. Otherwise it goes to the handlers of that logger and then of each one above, up to
and with the first that does not propagate. -/

namespace StageFusion.Logging

inductive Level where
  | debug
  | info
  | warning
  deriving DecidableEq, Repr

namespace Level

/-- The number of a level, by which levels are compared. -/
def number : Level → Int
  | debug => 10
  | info => 20
  | warning => 30

def name : Level → String
  | debug => "DEBUG"
  | info => "INFO"
  | warning => "WARNING"

/-- The levels that may be set by name. -/
def names : List (String × Int) :=
  [("CRITICAL", 50), ("FATAL", 50), ("ERROR", 40), ("WARN", 30), ("WARNING", 30), ("INFO", 20),
    ("DEBUG", 10), ("NOTSET", 0)]

/-- The level number that a value stands for: an integer, or the name of a level. -/
def numberOf (v : Value) : Except Fault Int :=
  match v with
  | .int i => .ok i
  | .bool b => .ok b.toNat
  | .str s =>
    match names.lookup s with
    | some i => .ok i
    | none => .error (.levelName (Text.quote s))
  | v => do throw (.levelType (← v.display))

end Level

/-- What takes the notices of a logger. -/
inductive Handler where
  /-- Collects every notice. -/
  | capture
  /-- Writes every notice to the stream that all stream handlers share. -/
  | stream
  deriving DecidableEq, Repr

/-- The settings of a logger. Level zero stands for the level of the loggers above. -/
structure Settings where
  level : Int := 0
  propagate : Bool := true
  handlers : List Handler := []
  deriving DecidableEq, Repr

/-- Loggers by name; every other logger has the settings of a new one. -/
abbrev Table := List (String × Settings)

namespace Table

def get (t : Table) (name : String) : Settings :=
  (t.lookup name).getD {}

def set (t : Table) (name : String) (s : Settings) : Table :=
  (name, s) :: t.filter (·.1 != name)

/-- The name of a logger and the names above it, from the bottom to the top. -/
def lineage (name : String) : List String :=
  let parts := (Text.cutAt '.' name.toList).map String.ofList
  ((List.range parts.length).map fun n => ".".intercalate (parts.take (n + 1))).reverse

/-- The level of loggers without a level of their own or above them. -/
def rootLevel : Int := 30

/-- The level below which a logger drops notices. -/
def effectiveLevel (t : Table) (name : String) : Int :=
  (((lineage name).map fun n => (t.get n).level).find? (· != 0)).getD rootLevel

/-- The settings from the bottom up to and with the first that do not propagate. -/
def reachOf : List Settings → List Settings
  | [] => []
  | s :: above => if s.propagate then s :: reachOf above else [s]

/-- The handlers that get a notice made on a logger, in order. -/
def handlersFor (t : Table) (name : String) : List Handler :=
  (reachOf ((lineage name).map t.get)).flatMap (·.handlers)

/-- Gives a logger a level and a propagation, and a stream handler if it has none. -/
def configure (t : Table) (level : Int) (propagate : Bool) (name : String) : Table :=
  let s := t.get name
  let handlers := if s.handlers.contains .stream then s.handlers else s.handlers ++ [.stream]
  t.set name ⟨level, propagate, handlers⟩

def isEnabled (t : Table) (name : String) (level : Level) : Bool :=
  t.effectiveLevel name ≤ level.number

end Table

/-- A message on its way to the handlers. -/
structure Notice where
  logger : String
  level : Level
  text : String
  deriving DecidableEq, Repr

/-- The line of a notice, apart from the time. -/
def Notice.line (n : Notice) : String :=
  n.level.name ++ " | " ++ n.logger ++ " | " ++ n.text

/-- The handlers that get a notice, in order. -/
def Notice.takers (n : Notice) (t : Table) : List Handler :=
  if t.isEnabled n.logger n.level then t.handlersFor n.logger else []

end StageFusion.Logging
