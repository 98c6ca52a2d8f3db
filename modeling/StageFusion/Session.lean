import StageFusion.Fusion.Report
import StageFusion.Logging
import StageFusion.Stage.Limit

/-! Sessions: the diagnostics around the optimizer.

A `Session` holds the debug switch, the installed sink for statistics and the loggers, and collects
what they received. `Session.observe` runs a computation that tells events: every event becomes a
notice on a logger, a record for the sink, or both, in the order in which the events were told.
Main statement: `observe_outcome`, the outcome of the computation is not touched. -/

namespace StageFusion

open Logging (Handler Notice Table)

/-- The state of the diagnostics, and what they have delivered. -/
structure Session where
  debug : Bool := false
  /-- The sink for statistics, by its number. -/
  sink : Option Nat := none
  loggers : Table := []
  /-- Lines that collecting handlers got. -/
  captured : List String := []
  /-- Lines that stream handlers wrote. -/
  streamed : List String := []
  /-- Records that sinks got. -/
  received : List (Nat × Stats) := []
  deriving Repr

namespace Session

/-- The logger above all others of the library. -/
def rootLogger : String := "streambound"

def fusionLogger : String := "streambound.fusion"

def chainLogger : String := "streambound.core.optimizer"

def limitLogger : String := "streambound.core.validation"

/-- A new session whose root logger collects every notice that reaches it. -/
def watched : Session where
  loggers := [(rootLogger, ⟨10, false, [.capture]⟩)]

/-- The session with nothing delivered yet. -/
def cleared (s : Session) : Session :=
  { s with captured := [], streamed := [], received := [] }

/-! ## Notices -/

def deliver (s : Session) (line : String) : Handler → Session
  | .capture => { s with captured := s.captured ++ [line] }
  | .stream => { s with streamed := s.streamed ++ [line] }

/-- Makes a notice, which all handlers get that are in reach of its logger. -/
def log (s : Session) (n : Notice) : Session :=
  (n.takers s.loggers).foldl (·.deliver n.line) s

/-- Makes a notice while debugging is switched on. -/
def logDebug (s : Session) (n : Notice) : Session :=
  if s.debug then s.log n else s

def statsNotice (stats : Stats) : Notice where
  logger := fusionLogger
  level := .info
  text := "fusion_stats | attempts=" ++ toString stats.attempts ++ " | fused="
    ++ toString stats.fused ++ " | skipped=" ++ toString stats.skipped ++ " | avg_reduction="
    ++ stats.averageReduction.fixed 3

def fusedNotice (up down : String) (rule : Rule) (bound : Multiplicity) : Notice where
  logger := fusionLogger
  level := .debug
  text := "fusion_applied | up=" ++ up ++ " | down=" ++ down ++ " | rule=" ++ rule.name
    ++ " | bound=" ++ bound.text

def skippedNotice (up down : String) (rule : Rule) (reason : String) : Notice where
  logger := fusionLogger
  level := .debug
  text := "fusion_skipped | up=" ++ up ++ " | down=" ++ down ++ " | rule=" ++ rule.name
    ++ " | reason=" ++ reason

def unknownNotice (name : String) : Notice where
  logger := chainLogger
  level := .warning
  text := "fusion_config | " ++ unknownWarning name

def excessNotice (operator : String) (computed ceiling : Multiplicity) : Notice where
  logger := limitLogger
  level := .debug
  text := "usage_exceeded | operator=" ++ operator ++ " | computed=" ++ computed.text
    ++ " | max=" ++ ceiling.text

def switchNotice (on : Bool) : Notice where
  logger := fusionLogger
  level := .info
  text := "fusion_debug | enabled=" ++ if on then "True" else "False"

/-! ## Events -/

def sendStats (s : Session) (stats : Stats) : Session :=
  match s.sink with
  | some sink => { s with received := s.received ++ [(sink, stats)] }
  | none => s

/-- Reports statistics to the log, while debugging, and to the sink. -/
def reportStats (s : Session) (stats : Stats) : Session :=
  (s.logDebug (statsNotice stats)).sendStats stats

def receive (s : Session) : Event → Session
  | .unknownOperator name => s.log (unknownNotice name)
  | .fused up down rule bound => s.logDebug (fusedNotice up down rule bound)
  | .skipped up down rule reason => s.logDebug (skippedNotice up down rule reason)
  | .finished stats => s.reportStats stats

/-- Runs a computation that tells events, taking notice of each. -/
def observe {α : Type} (s : Session) (x : Logged Event α) : Session × Except Fault α :=
  (x.log.foldl receive s, x.outcome)

@[simp]
theorem observe_outcome {α : Type} (s : Session) (x : Logged Event α) :
    (s.observe x).2 = x.outcome := rfl

/-! ## Settings and direct calls -/

/-- Switches debugging on, and says so. -/
def enableDebug (s : Session) : Session :=
  { s with debug := true }.log (switchNotice true)

/-- Says that debugging is switched off, and does so. -/
def disableDebug (s : Session) : Session :=
  { s.log (switchNotice false) with debug := false }

/-- Installs or removes the sink for statistics. -/
def setSink (s : Session) (sink : Option Nat) : Session :=
  { s with sink }

/-- Installs a value as sink: null removes the sink, and no other value is one. -/
def setSinkValue (s : Session) : Value → Session × Except Fault Unit
  | .null => (s.setSink none, .ok ())
  | _ => (s, .error .sink)

/-- Makes a notice about fusion of a template and arguments, while debugging. A template that does
not fit its arguments is a fault only where a collecting handler would get the notice; streams drop
it. -/
def debugMessage (s : Session) (template : String) (args : List Value) :
    Session × Except Fault Unit :=
  match Logging.message template args with
  | .ok text => (s.logDebug ⟨fusionLogger, .debug, text⟩, .ok ())
  | .error e =>
    let takers := Notice.takers ⟨fusionLogger, .debug, template⟩ s.loggers
    (s, if s.debug && takers.contains .capture then .error e else .ok ())

def configure (s : Session) (level : Int) (propagate : Bool) (names : List String) : Session :=
  { s with loggers := names.foldl (·.configure level propagate) s.loggers }

/-- The usage of a stage for an input, checked against a ceiling; an excess is noted. -/
def checkUsage (s : Session) (stage : Stage) (v : Value) (ceiling : Multiplicity) :
    Session × Except Fault Multiplicity :=
  let noted :=
    match stage.usage.count v with
    | .ok computed =>
      if computed ≤ ceiling then s else s.log (excessNotice stage.name computed ceiling)
    | .error _ => s
  (noted, stage.checkedUsage ceiling v)

end Session

end StageFusion
