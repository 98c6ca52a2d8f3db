import StageFusion.Fault
import StageFusion.Value

/-! Statistics of fusion attempts.

`Stats` counts the attempts of a run, fused and skipped, and keeps the reductions of the bound: for
every fusion of two finite bounds into a finite bound, their sum less the fused bound. The average
is the exact mean of the reductions, rounded once; when it is beyond the range of its format the
recording call fails, with the counters and the list of reductions already advanced and the average
as it was. -/

namespace StageFusion

/-- What is known about the fusion attempts of a run. -/
structure Stats where
  attempts : Nat := 0
  fused : Nat := 0
  skipped : Nat := 0
  averageReduction : Binary64 := .zero
  /-- The reductions so far, in order. -/
  reductions : List Int := []
  deriving DecidableEq, Repr

namespace Stats

def total (values : List Int) : Int :=
  values.foldr (· + ·) 0

/-- The mean of a list of integers, if it is within the range of its format. -/
def mean? (values : List Int) : Option Binary64 :=
  Binary64.ofRatio? (total values) values.length

/-- The reduction of the bound by a fusion, if all three bounds are finite. -/
def reduction? : Multiplicity → Multiplicity → Multiplicity → Option Int
  | .exact up, .exact down, .exact fused => some ((up : Int) + down - fused)
  | _, _, _ => none

def addSkip (s : Stats) : Stats :=
  { s with attempts := s.attempts + 1, skipped := s.skipped + 1 }

/-- The statistics after a fusion, and the fault of an average out of range. -/
def addFusion (s : Stats) (up down fused : Multiplicity) : Stats × Option Fault :=
  let counted := { s with attempts := s.attempts + 1, fused := s.fused + 1 }
  match reduction? up down fused with
  | none => (counted, none)
  | some reduction =>
    let reductions := s.reductions ++ [reduction]
    match mean? reductions with
    | some mean => ({ counted with reductions, averageReduction := mean }, none)
    | none => ({ counted with reductions }, some .averageRange)

/-- What recording a fusion does: it counts as one, and its reduction is added to the others, if it has
one, and averaged with them, if the mean is within range. -/
inductive Recorded (s : Stats) (up down bound : Multiplicity) : Stats × Option Fault → Prop
  | counted (infinite : reduction? up down bound = none) :
    Recorded s up down bound
      (⟨s.attempts + 1, s.fused + 1, s.skipped, s.averageReduction, s.reductions⟩, none)
  | averaged {reduction : Int} {mean : Binary64} (finite : reduction? up down bound = some reduction)
    (within : mean? (s.reductions ++ [reduction]) = some mean) :
    Recorded s up down bound
      (⟨s.attempts + 1, s.fused + 1, s.skipped, mean, s.reductions ++ [reduction]⟩, none)
  | beyond {reduction : Int} (finite : reduction? up down bound = some reduction)
    (range : mean? (s.reductions ++ [reduction]) = none) :
    Recorded s up down bound
      (⟨s.attempts + 1, s.fused + 1, s.skipped, s.averageReduction, s.reductions ++ [reduction]⟩,
        some .averageRange)

theorem recorded_addFusion (s : Stats) (up down bound : Multiplicity) :
    s.Recorded up down bound (s.addFusion up down bound) := by
  unfold addFusion
  -- under a name of its own the mean stays closed: computing with its units would not end
  obtain ⟨average, haverage⟩ : ∃ average, average = mean? := ⟨_, rfl⟩
  rw [← haverage]
  cases hreduction : reduction? up down bound with
  | none => exact .counted hreduction
  | some reduction =>
    dsimp only
    cases hmean : average (s.reductions ++ [reduction]) with
    | some mean =>
      rw [haverage] at hmean
      exact .averaged hreduction hmean
    | none =>
      rw [haverage] at hmean
      exact .beyond hreduction hmean

def report (s : Stats) : Value :=
  .dict [("totalAttempts", .int s.attempts), ("successfulFusions", .int s.fused),
    ("skippedFusions", .int s.skipped), ("averageBoundReduction", .float s.averageReduction)]

end Stats

end StageFusion
