import StageFusion.Proofs.FixedPoint
import StageFusion.Session

/-! What a run tells, and how the diagnostics take notice of it.

The events of a run are the unknown names, one event for each attempt of the trace in order
(`Settled.forall₂_log`), and at the end the statistics, if the chain has two links or more
(`log_optimize_of_ok`). A session hands notices of these events to its loggers and sends the statistics to
its sink (`Session.observe_eq`), and its settings stay as they are (`Session.foldl_log_settings`).
`optimize_observed` has the notices word for word. -/

namespace StageFusion

open Logging (Notice)

/-! ## Events of sweeps -/

/-- An event tells of an attempt, under the rule that decided about its two names. -/
inductive Attempt.ToldAs (r : Registry) : Attempt → Event → Prop
  | fused {t : Attempt} {rule : Rule} {announced : Multiplicity}
    (allowed : r.verdict t.upstream t.downstream = .ok (.allowed rule announced))
    (fused : t.fused = true) : ToldAs r t (.fused t.upstream t.downstream rule t.bound)
  | skipped {t : Attempt} {rule : Rule} {announced : Multiplicity} {reason : String}
    (refused : r.verdict t.upstream t.downstream = .ok (.refused rule announced reason))
    (apart : t.fused = false) (reason_eq : t.reason = some reason) :
    ToldAs r t (.skipped t.upstream t.downstream rule reason)

def Event.stats? : Event → Option Stats
  | finished stats => some stats
  | _ => none

section

variable {r : Registry} {iteration : Nat} {segment next : Link} {start position : Nat}
  {chain rest out : List Link} {p q : Progress} {rule : Rule} {announced : Multiplicity}

namespace Registry

theorem outcome_fuseStages_of_ok {v : Verdict} (h : r.verdict segment.name next.name = .ok v) :
    (r.fuseStages segment.stage next.stage segment.name next.name).outcome =
      .ok (segment.decision next v) := by
  rw [outcome_fuseStages, h]
  rfl

/-- An attempt without verdict is not told. -/
theorem log_sweepFrom_of_error {e : Fault} (h : r.verdict segment.name next.name = .error e) :
    (r.sweepFrom iteration segment start position (next :: rest) p).log = [] := by
  have houtcome : (r.fuseStages segment.stage next.stage segment.name next.name).outcome =
      .error e := by
    rw [outcome_fuseStages, h]
    rfl
  rw [sweepFrom, Logged.log_bind_of_error houtcome, fuseStages, h]
  rfl

/-- A fusion is told before it is counted. -/
theorem log_sweepFrom_of_allowed
    (h : r.verdict segment.name next.name = .ok (.allowed rule announced)) :
    (r.sweepFrom iteration segment start position (next :: rest) p).log =
      .fused segment.name next.name rule (segment.joinBound next) ::
        match (p.note iteration start segment.name next.name
            (.fused (segment.joinBound next) (segment.join next).stage)).countFusion
          segment.stage.bound next.stage.bound (segment.joinBound next) with
        | .ok counted =>
          (r.sweepFrom iteration (segment.join next) start (position + 1) rest counted).log
        | .error _ => [] := by
  have hfused : (r.fuseStages segment.stage next.stage segment.name next.name).log =
      [.fused segment.name next.name rule (segment.joinBound next)] := by
    rw [fuseStages, h]
    rfl
  rw [sweepFrom, Logged.log_bind_of_ok (outcome_fuseStages_of_ok h), hfused, List.singleton_append]
  congr 1
  simp only [Link.decision]
  cases hcount : (p.note iteration start segment.name next.name
      (.fused (segment.joinBound next) (segment.join next).stage)).countFusion
    segment.stage.bound next.stage.bound (segment.joinBound next) with
  | ok counted => rfl
  | error e => rfl

theorem log_sweepFrom_of_refused {reason : String}
    (h : r.verdict segment.name next.name = .ok (.refused rule announced reason)) :
    (r.sweepFrom iteration segment start position (next :: rest) p).log =
      .skipped segment.name next.name rule reason ::
        (r.sweepFrom iteration next position (position + 1) rest
          (p.note iteration start segment.name next.name
            (.refused (segment.joinBound next) reason)).countSkip).log := by
  have hskipped : (r.fuseStages segment.stage next.stage segment.name next.name).log =
      [.skipped segment.name next.name rule reason] := by
    rw [fuseStages, h]
    rfl
  rw [sweepFrom, Logged.log_bind_of_ok (outcome_fuseStages_of_ok h), hskipped,
    List.singleton_append]
  congr 1
  exact Logged.log_bind_pure _ _

end Registry

/-- The log of a sweep tells of the attempts that it adds to the trace, in order. -/
theorem Swept.forall₂_log (h : Swept r iteration segment start position rest p q out) :
    ∃ attempts, q.trace = p.trace ++ attempts ∧ List.Forall₂ (Attempt.ToldAs r) attempts
      (r.sweepFrom iteration segment start position rest p).log := by
  induction h with
  | last => exact ⟨[], (List.append_nil _).symm, .nil⟩
  | @joined segment next start position rest out p counted q rule announced allowed count tail ih =>
    obtain ⟨attempts, htrace, htold⟩ := ih
    refine ⟨⟨p.trace.length, iteration, start, segment.name, next.name, true,
      segment.joinBound next, none⟩ :: attempts, ?_, ?_⟩
    · rw [htrace, Progress.trace_of_countFusion count, List.append_cons]
      rfl
    · rw [Registry.log_sweepFrom_of_allowed allowed, count]
      exact .cons (.fused allowed rfl) htold
  | @parted segment next start position rest out p q rule announced reason refused tail ih =>
    obtain ⟨attempts, htrace, htold⟩ := ih
    refine ⟨⟨p.trace.length, iteration, start, segment.name, next.name, false,
      segment.joinBound next, some reason⟩ :: attempts, ?_, ?_⟩
    · rw [htrace, List.append_cons]
      rfl
    · rw [Registry.log_sweepFrom_of_refused refused]
      exact .cons (.skipped refused rfl rfl) htold

theorem SweptChain.forall₂_log (h : SweptChain r iteration chain p q out) :
    ∃ attempts, q.trace = p.trace ++ attempts ∧
      List.Forall₂ (Attempt.ToldAs r) attempts (r.sweep iteration chain p).log := by
  cases h with
  | empty => exact ⟨[], (List.append_nil _).symm, .nil⟩
  | cons swept => exact swept.forall₂_log

theorem Settled.forall₂_log (h : Settled r iteration chain p q out) :
    ∃ attempts, q.trace = p.trace ++ attempts ∧
      List.Forall₂ (Attempt.ToldAs r) attempts (r.settle iteration chain p).log := by
  induction h with
  | stop swept still =>
    rw [Registry.settle_of_still (outcome_sweep_eq_ok_iff.mpr swept) still]
    exact swept.forall₂_log
  | again swept moved tail ih =>
    obtain ⟨first, htrace, htold⟩ := swept.forall₂_log
    obtain ⟨later, htrace', htold'⟩ := ih
    refine ⟨first ++ later, ?_, ?_⟩
    · rw [htrace', htrace, List.append_assoc]
    · rw [Registry.settle_of_moved (outcome_sweep_eq_ok_iff.mpr swept) moved]
      exact List.rel_append htold htold'

/-! ## Statistics are told last -/

theorem stats?_of_mem_log_sweepFrom {e : Event} :
    ∀ {segment : Link} {start position : Nat} {p : Progress},
    e ∈ (r.sweepFrom iteration segment start position rest p).log → e.stats? = none := by
  induction rest with
  | nil => nofun
  | cons next rest ih =>
    intro segment start position p he
    cases hv : r.verdict segment.name next.name with
    | error fault =>
      rw [Registry.log_sweepFrom_of_error hv] at he
      cases he
    | ok v =>
      cases v with
      | allowed rule announced =>
        rw [Registry.log_sweepFrom_of_allowed hv] at he
        rcases List.mem_cons.mp he with rfl | he
        · rfl
        · split at he
          · exact ih he
          · cases he
      | refused rule announced reason =>
        rw [Registry.log_sweepFrom_of_refused hv] at he
        rcases List.mem_cons.mp he with rfl | he
        · rfl
        · exact ih he

theorem stats?_of_mem_log_sweep {e : Event} (he : e ∈ (r.sweep iteration chain p).log) :
    e.stats? = none := by
  cases chain with
  | nil => cases he
  | cons first rest => exact stats?_of_mem_log_sweepFrom he

/-- Sweeps tell no statistics, whether or not they come to an end. -/
theorem stats?_of_mem_log_settle {e : Event} (he : e ∈ (r.settle iteration chain p).log) :
    e.stats? = none := by
  fun_induction Registry.settle r iteration chain p with
  | case1 iteration chain p swept fault hs => exact stats?_of_mem_log_sweep he
  | case2 iteration chain p swept mid shorter hs moved settled ih =>
    rcases List.mem_append.mp he with he | he
    · exact stats?_of_mem_log_sweep he
    · exact ih he
  | case3 iteration chain p swept mid shorter hs still => exact stats?_of_mem_log_sweep he

end

/-! ## The log of a run -/

section

variable {r : Registry} {links : List Link} {result : OptimizedChain}

theorem log_optimize (r : Registry) (links : List Link) :
    (r.optimize links).log = (r.unknownNames links).map .unknownOperator ++
      ((r.settle 0 links {}).log ++
        match (r.settle 0 links {}).outcome with
        | .ok (p, _) => if 1 < links.length then [.finished p.stats] else []
        | .error _ => []) := by
  rw [Registry.optimize, Logged.log_bind_of_ok (Logged.outcome_tellAll _)]
  congr 1
  cases hsettled : (r.settle 0 links {}).outcome with
  | error e => rw [Logged.log_bind_of_error hsettled, List.append_nil]
  | ok settled =>
    rw [Logged.log_bind_of_ok hsettled]
    by_cases hlength : 1 < links.length
    · simp only [if_pos hlength]
      rfl
    · simp only [if_neg hlength]
      rfl

/-- **The log of a run that returns** holds the unknown names, an event for each attempt of the trace in
order, and the statistics at the end of the run, if the chain has two links or more. -/
theorem log_optimize_of_ok (h : (r.optimize links).outcome = .ok result) :
    ∃ events, List.Forall₂ (Attempt.ToldAs r) result.trace events ∧
      (r.optimize links).log = result.unknown.map .unknownOperator ++
        (events ++ if 1 < links.length then [.finished result.stats] else []) := by
  obtain ⟨hsettled, hunknown⟩ := outcome_optimize_eq_ok_iff.mp h
  obtain ⟨attempts, htrace, htold⟩ := hsettled.forall₂_log
  obtain rfl : result.trace = attempts := htrace
  refine ⟨_, htold, ?_⟩
  rw [log_optimize, outcome_settle_eq_ok_iff.mpr hsettled, hunknown]

/-- A run that returns tells its statistics once, if its chain has two links or more, and every other
run tells none. -/
theorem filterMap_stats?_log_optimize (r : Registry) (links : List Link) :
    (r.optimize links).log.filterMap Event.stats? =
      match (r.optimize links).outcome with
      | .ok result => if 1 < links.length then [result.stats] else []
      | .error _ => [] := by
  have hunknown : ((r.unknownNames links).map Event.unknownOperator).filterMap Event.stats? = [] :=
    List.filterMap_eq_nil_iff.mpr (List.forall_mem_map.mpr fun _ _ => rfl)
  have hsweeps : (r.settle 0 links {}).log.filterMap Event.stats? = [] :=
    List.filterMap_eq_nil_iff.mpr fun _ => stats?_of_mem_log_settle
  rw [log_optimize, Registry.outcome_optimize, List.filterMap_append, List.filterMap_append,
    hunknown, hsweeps, List.nil_append, List.nil_append]
  cases (r.settle 0 links {}).outcome with
  | error e => rfl
  | ok settled =>
    by_cases hlength : 1 < links.length
    · simp only [if_pos hlength]
      rfl
    · simp only [if_neg hlength]
      rfl

end

/-! ## Notices -/

def Event.notice : Event → Notice
  | unknownOperator name => Session.unknownNotice name
  | fused up down rule bound => Session.fusedNotice up down rule bound
  | skipped up down rule reason => Session.skippedNotice up down rule reason
  | finished stats => Session.statsNotice stats

/-- Whether an event is a warning, of which notice is taken without debugging as well. -/
def Event.isWarning : Event → Bool
  | unknownOperator _ => true
  | _ => false

namespace Session

variable {α : Type}

/-- The notices that the loggers are handed about events, in order. -/
def handed (s : Session) (events : List Event) : List Notice :=
  (events.filter fun e => e.isWarning || s.debug).map Event.notice

/-- The records that are sent to the installed sink about events, in order. -/
def sent (s : Session) (events : List Event) : List (Nat × Stats) :=
  match s.sink with
  | some sink => (events.filterMap Event.stats?).map fun stats => (sink, stats)
  | none => []

/-- A notice is delivered to the handlers in reach of its logger, and changes nothing else. -/
theorem log_eq (s : Session) (n : Notice) :
    s.log n = { s with
      captured := s.captured ++ ((n.takers s.loggers).filter (· = .capture)).map fun _ => n.line
      streamed := s.streamed ++ ((n.takers s.loggers).filter (· = .stream)).map fun _ => n.line } := by
  rw [log]
  generalize n.takers s.loggers = takers
  induction takers generalizing s with
  | nil => simp
  | cons handler rest ih =>
    rw [List.foldl_cons, ih]
    cases handler <;> simp [deliver]

/-- Notices leave the settings of a session as they are. -/
theorem foldl_log_settings (s : Session) (notices : List Notice) :
    (notices.foldl log s).debug = s.debug ∧ (notices.foldl log s).sink = s.sink ∧
      (notices.foldl log s).loggers = s.loggers := by
  induction notices generalizing s with
  | nil => exact ⟨rfl, rfl, rfl⟩
  | cons n rest ih =>
    rw [List.foldl_cons, log_eq]
    exact ih _

/-- What sinks got makes no difference to a logger. -/
theorem foldl_log_received (s : Session) (received : List (Nat × Stats)) (notices : List Notice) :
    notices.foldl log { s with received } = { notices.foldl log s with received } := by
  induction notices generalizing s with
  | nil => rfl
  | cons n rest ih =>
    have hlog : ({ s with received } : Session).log n = { s.log n with received } := by
      rw [log_eq, log_eq]
    rw [List.foldl_cons, List.foldl_cons, hlog, ih]

theorem handed_append (s : Session) (events later : List Event) :
    s.handed (events ++ later) = s.handed events ++ s.handed later := by
  rw [handed, List.filter_append, List.map_append, handed, handed]

theorem sent_append (s : Session) (events later : List Event) :
    s.sent (events ++ later) = s.sent events ++ s.sent later := by
  rw [sent, sent, sent]
  cases s.sink with
  | none => rfl
  | some sink => simp only [List.filterMap_append, List.map_append]

theorem receive_eq (s : Session) (e : Event) :
    s.receive e =
      { (s.handed [e]).foldl log s with received := s.received ++ s.sent [e] } := by
  -- which notices and records there are depends on the switch, the sink and the kind of event only
  obtain ⟨debug, sink, loggers, captured, streamed, received⟩ := s
  cases debug <;> cases sink <;> cases e <;>
    simp [receive, logDebug, reportStats, sendStats, handed, sent, Event.isWarning, Event.stats?,
      Event.notice, log_eq]

theorem handed_receive (s : Session) (e : Event) (events : List Event) :
    (s.receive e).handed events = s.handed events := by
  rw [receive_eq, handed, (s.foldl_log_settings _).1, handed]

theorem sent_receive (s : Session) (e : Event) (events : List Event) :
    (s.receive e).sent events = s.sent events := by
  rw [receive_eq, sent, (s.foldl_log_settings _).2.1, sent]

/-- The events of a computation are handed to the loggers as notices and sent to the sink as records. -/
theorem observe_eq (s : Session) (x : Logged Event α) :
    (s.observe x).1 =
      { (s.handed x.log).foldl log s with received := s.received ++ s.sent x.log } := by
  rw [observe]
  generalize x.log = events
  induction events generalizing s with
  | nil =>
    obtain ⟨debug, sink, loggers, captured, streamed, received⟩ := s
    cases sink <;> simp [handed, sent]
  | cons e rest ih =>
    rw [List.foldl_cons, ih, handed_receive, sent_receive, ← List.singleton_append, handed_append,
      sent_append, List.foldl_append, receive_eq, foldl_log_received, List.append_assoc]

theorem handed_unknown (s : Session) (names : List String) :
    s.handed (names.map .unknownOperator) = names.map unknownNotice := by
  rw [handed, List.filter_eq_self.mpr (List.forall_mem_map.mpr fun _ _ => rfl), List.map_map]
  rfl

theorem handed_of_debug {s : Session} (h : s.debug = true) (events : List Event) :
    s.handed events = events.map Event.notice := by
  rw [handed, List.filter_eq_self.mpr]
  intro e _
  rw [h, Bool.or_true]

theorem handed_of_not_debug {s : Session} (h : s.debug = false) {events : List Event}
    (hevents : ∀ e ∈ events, e.isWarning = false) : s.handed events = [] := by
  rw [handed, List.filter_eq_nil_iff.mpr, List.map_nil]
  intro e he
  rw [hevents e he, h]
  decide

end Session

/-- What is told of attempts is no warning. -/
theorem isWarning_of_told {r : Registry} {attempts : List Attempt} {events : List Event}
    (h : List.Forall₂ (Attempt.ToldAs r) attempts events) : ∀ e ∈ events, e.isWarning = false := by
  induction h with
  | nil => nofun
  | cons told _ ih =>
    refine List.forall_mem_cons.mpr ⟨?_, ih⟩
    cases told with
    | fused => rfl
    | skipped => rfl

/-- **Diagnostics observe a run without influencing it.** A run has the same outcome in every session:
the session only hands notices to its loggers and sends records to its sink. The notices of a run that
returns are a warning for each diagnostic of the result, and behind them, with debugging switched on only,
a notice for each attempt of the trace in order and then one about the final statistics, if the chain has
two links or more. -/
theorem optimize_observed (r : Registry) (links : List Link) :
    (∀ s s' : Session, (s.observe (r.optimize links)).2 = (s'.observe (r.optimize links)).2) ∧
    ∀ s : Session,
      (s.observe (r.optimize links)).1 =
        { (s.handed (r.optimize links).log).foldl Session.log s with
          received := s.received ++ s.sent (r.optimize links).log } ∧
      ∀ result, (s.observe (r.optimize links)).2 = .ok result →
        ∃ told, s.handed (r.optimize links).log =
            (result.diagnostics.map fun diagnostic =>
              ⟨"streambound.core.optimizer", .warning, "fusion_config | " ++ diagnostic⟩) ++ told ∧
          (s.debug = false → told = []) ∧
          (s.debug = true → ∃ decisions,
            List.Forall₂ (fun (t : Attempt) (n : Notice) =>
              ∃ v, r.verdict t.upstream t.downstream = .ok v ∧
                (t.fused = true ∧ n = ⟨"streambound.fusion", .debug,
                    "fusion_applied | up=" ++ t.upstream ++ " | down=" ++ t.downstream
                      ++ " | rule=" ++ v.rule.name ++ " | bound=" ++ t.bound.text⟩ ∨
                  t.fused = false ∧ ∃ reason, t.reason = some reason ∧
                    n = ⟨"streambound.fusion", .debug,
                      "fusion_skipped | up=" ++ t.upstream ++ " | down=" ++ t.downstream
                        ++ " | rule=" ++ v.rule.name ++ " | reason=" ++ reason⟩))
              result.trace decisions ∧
            told = decisions ++
              if 2 ≤ links.length then
                [⟨"streambound.fusion", .info,
                  "fusion_stats | attempts=" ++ toString result.stats.attempts
                    ++ " | fused=" ++ toString result.stats.fused
                    ++ " | skipped=" ++ toString result.stats.skipped
                    ++ " | avg_reduction=" ++ result.stats.averageReduction.fixed 3⟩]
              else []) := by
  refine ⟨fun _ _ => rfl, fun s => ⟨s.observe_eq _, fun result h => ?_⟩⟩
  obtain ⟨events, htold, hlog⟩ := log_optimize_of_ok h
  let final : List Event := if 2 ≤ links.length then [.finished result.stats] else []
  refine ⟨s.handed (events ++ final), ?_, fun hdebug => ?_,
    fun hdebug => ⟨events.map Event.notice, ?_, ?_⟩⟩
  · rw [hlog, Session.handed_append, Session.handed_unknown, OptimizedChain.diagnostics, List.map_map]
    rfl
  · refine Session.handed_of_not_debug hdebug fun e he => ?_
    rcases List.mem_append.mp he with he | he
    · exact isWarning_of_told htold e he
    · obtain ⟨-, rfl⟩ : 2 ≤ links.length ∧ e = .finished result.stats := by simpa [final] using he
      rfl
  · rw [List.forall₂_map_right_iff]
    refine htold.imp fun t e told => ?_
    cases told with
    | fused allowed fused => exact ⟨_, allowed, .inl ⟨fused, rfl⟩⟩
    | skipped refused apart reason => exact ⟨_, refused, .inr ⟨apart, _, reason, rfl⟩⟩
  · rw [Session.handed_of_debug hdebug, List.map_append, apply_ite (List.map Event.notice)]
    rfl

/-- The first two of these links are fused, and left apart from the unknown one in both sweeps. -/
theorem map_scan_nope_observed : ∃ result told,
    (({ debug := true } : Session).observe (Registry.builtin.optimize
      (Service.placeholders .builtin ["map", "scan", "nope"]))).2 = .ok result ∧
    result.diagnostics = ["no metadata for operator 'nope'; treated as unfusible"] ∧
    ({ debug := true } : Session).handed (Registry.builtin.optimize
        (Service.placeholders .builtin ["map", "scan", "nope"])).log =
      (result.diagnostics.map fun diagnostic =>
        ⟨"streambound.core.optimizer", .warning, "fusion_config | " ++ diagnostic⟩) ++ told ∧
    told.length = result.trace.length + 1 ∧
    ({ debug := true } : Session).handed (Registry.builtin.optimize
        (Service.placeholders .builtin ["map", "scan", "nope"])).log = [
      ⟨"streambound.core.optimizer", .warning,
        "fusion_config | no metadata for operator 'nope'; treated as unfusible"⟩,
      ⟨"streambound.fusion", .debug,
        "fusion_applied | up=map | down=scan | rule=stateless-identity | bound=1"⟩,
      ⟨"streambound.fusion", .debug, "fusion_skipped | up=map+scan | down=nope" ++
        " | rule=missing-metadata | reason=missing operator metadata for 'nope'"⟩,
      ⟨"streambound.fusion", .debug, "fusion_skipped | up=map+scan | down=nope" ++
        " | rule=missing-metadata | reason=missing operator metadata for 'nope'"⟩,
      ⟨"streambound.fusion", .info,
        "fusion_stats | attempts=3 | fused=1 | skipped=2 | avg_reduction=1.000"⟩] := by
  obtain ⟨result, h, hdiagnostics⟩ := exists_ok_of_toOption_map
    (f := OptimizedChain.diagnostics)
    (x := (Registry.builtin.optimize
      (Service.placeholders .builtin ["map", "scan", "nope"])).outcome)
    (b := ["no metadata for operator 'nope'; treated as unfusible"]) (by decide +kernel)
  obtain ⟨-, hsessions⟩ := optimize_observed .builtin
    (Service.placeholders .builtin ["map", "scan", "nope"])
  obtain ⟨told, hhanded, -, hdebug⟩ := (hsessions { debug := true }).2 result h
  obtain ⟨decisions, hdecisions, htold⟩ := hdebug rfl
  have hlength : told.length = result.trace.length + 1 := by
    rw [htold, List.length_append, hdecisions.length_eq]
    rfl
  exact ⟨result, told, h, hdiagnostics, hhanded, hlength, by decide +kernel⟩

end StageFusion
