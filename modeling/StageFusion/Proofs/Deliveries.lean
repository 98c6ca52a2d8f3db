import StageFusion.Proofs.Notices

/-! What sinks receive over a sequence of calls.

A session goes through calls that switch debugging, install or remove a sink, or optimize a chain. Only a
call to optimize sends something: the statistics of its run to the sink that is installed, once if the run
returns and its chain has two links or more (`recordsOf_call`). So over a sequence of calls a sink receives
the statistics of the runs that return while it is installed (`Call.statsUnder`), but for those over short
chains (`recordsOf_after`). -/

namespace StageFusion

/-! ## Calls -/

/-- A call that has to do with the diagnostics. -/
inductive Call where
  | enableDebug
  | disableDebug
  /-- Installs a sink in the place of any other, or removes the one there is. -/
  | setSink (sink : Option Nat)
  | optimize (r : Registry) (links : List Link)

namespace Call

def sinkAfter (installed : Option Nat) : Call → Option Nat
  | setSink sink => sink
  | _ => installed

/-- The statistics of the run that a call makes, if it makes one and the run returns. -/
def stats? : Call → Option Stats
  | optimize r links => (r.optimize links).outcome.toOption.map (·.stats)
  | _ => none

def isShort : Call → Bool
  | optimize _ links => links.length < 2
  | _ => false

/-- A call to optimize leaves the sink. -/
theorem sinkAfter_of_isShort {c : Call} (h : c.isShort) (installed : Option Nat) :
    c.sinkAfter installed = installed := by
  cases c with
  | optimize r links => rfl
  | _ => cases h

/-- A run over a short chain has nothing to refuse, and returns. -/
theorem exists_stats_of_isShort {c : Call} (h : c.isShort) : ∃ stats, c.stats? = some stats := by
  cases c with
  | optimize r links =>
    have hlength : links.length < 2 := of_decide_eq_true h
    have hrefused : r.RefusesAll links := by
      match links, hlength with
      | [], _ => exact .nil
      | [l], _ => exact .singleton l
    obtain ⟨result, hresult, -⟩ := hrefused.exists_optimize
    exact ⟨result.stats, by rw [stats?, hresult]; rfl⟩
  | _ => cases h

/-- The statistics of the runs that return while a sink is installed, one after another. -/
def statsUnder (k : Nat) : Option Nat → List Call → List Stats
  | _, [] => []
  | installed, c :: calls =>
    (if installed = some k then c.stats?.toList else []) ++
      statsUnder k (c.sinkAfter installed) calls

end Call

namespace Session

def call (s : Session) : Call → Session
  | .enableDebug => s.enableDebug
  | .disableDebug => s.disableDebug
  | .setSink sink => s.setSink sink
  | .optimize r links => (s.observe (r.optimize links)).1

def after (s : Session) (calls : List Call) : Session :=
  calls.foldl call s

@[simp]
theorem after_nil (s : Session) : s.after [] = s := rfl

@[simp]
theorem after_cons (s : Session) (c : Call) (calls : List Call) :
    s.after (c :: calls) = (s.call c).after calls := rfl

/-- The records that a sink has received, in order. -/
def recordsOf (s : Session) (k : Nat) : List Value :=
  (s.received.filter (·.1 = k)).map (·.2.report)

/-! ## One call -/

theorem sink_call (s : Session) (c : Call) : (s.call c).sink = c.sinkAfter s.sink := by
  cases c with
  | enableDebug => rw [call, enableDebug, log_eq]; rfl
  | disableDebug => rw [call, disableDebug, log_eq]; rfl
  | setSink sink => rfl
  | optimize r links =>
    rw [call, observe_eq]
    exact (s.foldl_log_settings _).2.1

theorem recordsOf_sent (s : Session) (k : Nat) (events : List Event) :
    ((s.sent events).filter (·.1 = k)).map (·.2.report) =
      (if s.sink = some k then events.filterMap Event.stats? else []).map (·.report) := by
  rw [sent]
  cases s.sink with
  | none => rfl
  | some sink =>
    by_cases h : sink = k
    · simp [h, List.filter_map, Function.comp_def]
    · simp [h, List.filter_map, Function.comp_def]

/-- A run sends its statistics to the installed sink, if it returns and its chain is not short. -/
theorem filterMap_stats?_eq {r : Registry} {links : List Link} :
    (r.optimize links).log.filterMap Event.stats? =
      if (Call.optimize r links).isShort then [] else (Call.optimize r links).stats?.toList := by
  rw [filterMap_stats?_log_optimize, Call.isShort, Call.stats?]
  cases (r.optimize links).outcome with
  | error e => simp [Except.toOption]
  | ok result =>
    by_cases h : links.length < 2
    · simp [h, Nat.not_lt.mpr (Nat.le_of_lt_succ h)]
    · simp [Except.toOption, h, Nat.succ_le_iff.mp (Nat.not_lt.mp h)]

/-- A call sends the statistics of its run to the installed sink, unless the chain is short. -/
theorem recordsOf_call (s : Session) (k : Nat) (c : Call) :
    (s.call c).recordsOf k = s.recordsOf k ++
      (if s.sink = some k then if c.isShort then [] else c.stats?.toList else []).map (·.report) := by
  cases c with
  | enableDebug =>
    rw [call, enableDebug, log_eq]
    simp [recordsOf, Call.stats?]
  | disableDebug =>
    rw [call, disableDebug, log_eq]
    simp [recordsOf, Call.stats?]
  | setSink sink => simp [recordsOf, call, setSink, Call.stats?]
  | optimize r links =>
    rw [call, observe_eq, ← filterMap_stats?_eq, ← recordsOf_sent]
    simp only [recordsOf, List.filter_append, List.map_append]

/-! ## Sequences of calls -/

/-- Over a sequence of calls a sink receives the statistics of the runs that return while it is
installed, but for those over short chains. -/
theorem recordsOf_after (s : Session) (k : Nat) (calls : List Call) :
    (s.after calls).recordsOf k = s.recordsOf k ++
      (Call.statsUnder k s.sink (calls.filter fun c => !c.isShort)).map (·.report) := by
  induction calls generalizing s with
  | nil => simp [Call.statsUnder]
  | cons c calls ih =>
    rw [after_cons, ih, recordsOf_call, sink_call]
    by_cases hshort : c.isShort
    · rw [List.filter_cons_of_neg (by simp [hshort]), Call.sinkAfter_of_isShort hshort]
      simp [hshort]
    · rw [List.filter_cons_of_pos (by simp [hshort]), Call.statsUnder, List.map_append,
        List.append_assoc, if_neg hshort]

end Session

/-! ## Records that are missing -/

namespace Call

theorem statsUnder_filter_sublist (k : Nat) (installed : Option Nat) (calls : List Call) :
    (statsUnder k installed (calls.filter fun c => !c.isShort)).Sublist
      (statsUnder k installed calls) := by
  induction calls generalizing installed with
  | nil => exact .slnil
  | cons c calls ih =>
    by_cases hshort : c.isShort
    · rw [List.filter_cons_of_neg (by simp [hshort]), statsUnder, sinkAfter_of_isShort hshort]
      exact (ih installed).trans (List.sublist_append_right _ _)
    · rw [List.filter_cons_of_pos (by simp [hshort]), statsUnder, statsUnder]
      exact (List.Sublist.refl _).append (ih _)

end Call

/-- A split of a list is at its head or within its tail. -/
theorem forall_split_cons {α : Type} {P : List α → α → Prop} {a : α} {as : List α} :
    (∀ before b later, a :: as = before ++ b :: later → P before b) ↔
      P [] a ∧ ∀ before b later, as = before ++ b :: later → P (a :: before) b := by
  constructor
  · intro h
    exact ⟨h [] a as rfl, fun before b later hsplit =>
      h (a :: before) b later (congrArg (a :: ·) hsplit)⟩
  · rintro ⟨hhead, htail⟩ before b later hsplit
    cases before with
    | nil =>
      obtain ⟨rfl, -⟩ := List.cons.inj hsplit
      exact hhead
    | cons first before =>
      obtain ⟨rfl, hrest⟩ := List.cons.inj hsplit
      exact htail before b later hrest

/-- Nothing is missing just if no chain is short while the sink is installed. -/
theorem statsUnder_filter_eq_iff (s : Session) (k : Nat) (calls : List Call) :
    Call.statsUnder k s.sink (calls.filter fun c => !c.isShort) = Call.statsUnder k s.sink calls ↔
      ∀ before c later, calls = before ++ c :: later → (s.after before).sink = some k →
        ¬ c.isShort := by
  induction calls generalizing s with
  | nil => simp
  | cons c calls ih =>
    have hrest := ih (s.call c)
    rw [Session.sink_call] at hrest
    simp only [forall_split_cons (P := fun before c => (s.after before).sink = some k → ¬ c.isShort),
      Session.after_nil, Session.after_cons, ← hrest]
    by_cases hshort : c.isShort
    · rw [List.filter_cons_of_neg (by simp [hshort]), Call.statsUnder,
        Call.sinkAfter_of_isShort hshort]
      by_cases hsink : s.sink = some k
      · -- the record of the short chain is missing
        obtain ⟨stats, hstats⟩ := Call.exists_stats_of_isShort hshort
        have hle := (Call.statsUnder_filter_sublist k s.sink calls).length_le
        rw [if_pos hsink, hstats]
        refine iff_of_false (fun heq => ?_) (fun h => h.1 hsink hshort)
        have hlength := congrArg List.length heq
        simp at hlength
        omega
      · simp [hsink]
    · rw [List.filter_cons_of_pos (by simp [hshort]), Call.statsUnder, Call.statsUnder]
      simp [hshort]

/-- **What sinks receive.** Over every sequence of calls, a sink receives the statistics of each run that
returns while it is installed and whose chain has two links or more, once and in order, whether debugging
is switched on or off. These are the statistics of all runs that return while it is installed exactly if
none of them is over a shorter chain. -/
theorem sinks_receive_statistics (s : Session) (k : Nat) (calls : List Call) :
    (s.after calls).recordsOf k = s.recordsOf k ++
        (Call.statsUnder k s.sink (calls.filter fun c => !c.isShort)).map (·.report) ∧
      ((s.after calls).recordsOf k = s.recordsOf k ++
          (Call.statsUnder k s.sink calls).map (·.report) ↔
        ∀ before r links later, calls = before ++ .optimize r links :: later →
          (s.after before).sink = some k → 2 ≤ links.length) := by
  have hrecords := s.recordsOf_after k calls
  have hlong : (∀ before c later, calls = before ++ c :: later →
        (s.after before).sink = some k → ¬ c.isShort) ↔
      ∀ before r links later, calls = before ++ .optimize r links :: later →
        (s.after before).sink = some k → 2 ≤ links.length := by
    constructor
    · intro h before r links later hsplit hsink
      have hlinks := h before (.optimize r links) later hsplit hsink
      rw [Call.isShort, decide_eq_true_eq] at hlinks
      omega
    · intro h before c later hsplit hsink hshort
      cases c with
      | optimize r links =>
        have hlinks := h before r links later hsplit hsink
        simp only [Call.isShort, decide_eq_true_eq] at hshort
        omega
      | _ => cases hshort
  refine ⟨hrecords, ?_⟩
  rw [hrecords, List.append_cancel_left_eq, ← hlong, ← statsUnder_filter_eq_iff]
  constructor
  · intro h
    have hlength := congrArg List.length h
    rw [List.length_map, List.length_map] at hlength
    exact (Call.statsUnder_filter_sublist k s.sink calls).eq_of_length hlength
  · exact congrArg _

/-- Two sinks, one after the other, and a run under each of them and under none. -/
def Call.twoSinks : List Call :=
  [.enableDebug, .setSink (some 0),
    .optimize .builtin (Service.placeholders .builtin ["map", "filter"]), .disableDebug,
    .setSink (some 1), .optimize .builtin (Service.placeholders .builtin ["tap", "log"]),
    .setSink none, .optimize .builtin (Service.placeholders .builtin ["map", "tap"])]

/-- Each of the two sinks receives the statistics of one run. -/
theorem twoSinks_receive :
    (({} : Session).after Call.twoSinks).recordsOf 0 = [Stats.report ⟨1, 1, 0, .one, [1]⟩] ∧
      (({} : Session).after Call.twoSinks).recordsOf 1 = [Stats.report ⟨1, 0, 1, .zero, []⟩] := by
  obtain ⟨hzero, -⟩ := sinks_receive_statistics {} 0 Call.twoSinks
  obtain ⟨hone, -⟩ := sinks_receive_statistics {} 1 Call.twoSinks
  have hstatsZero : Call.statsUnder 0 none (Call.twoSinks.filter fun c => !c.isShort) =
      [⟨1, 1, 0, .one, [1]⟩] := by decide +kernel
  have hstatsOne : Call.statsUnder 1 none (Call.twoSinks.filter fun c => !c.isShort) =
      [⟨1, 0, 1, .zero, []⟩] := by decide +kernel
  constructor
  · rw [hzero]
    exact congrArg (List.map (·.report)) hstatsZero
  · rw [hone]
    exact congrArg (List.map (·.report)) hstatsOne

/-- A run over one link returns with its statistics, of which the sink learns nothing. -/
theorem single_map_sink_receives_nothing :
    Call.statsUnder 0 none [.setSink (some 0),
        .optimize .builtin (Service.placeholders .builtin ["map"])] = [{}] ∧
      (({} : Session).after [.setSink (some 0),
        .optimize .builtin (Service.placeholders .builtin ["map"])]).recordsOf 0 = [] := by
  have hreceived : (({} : Session).after [.setSink (some 0),
      .optimize .builtin (Service.placeholders .builtin ["map"])]).received = [] := by
    decide +kernel
  refine ⟨by decide +kernel, ?_⟩
  rw [Session.recordsOf, hreceived]
  rfl

end StageFusion
