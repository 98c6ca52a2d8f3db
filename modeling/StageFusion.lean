import StageFusion.Fusion.DraftVerdict
import StageFusion.Json.Writer
import StageFusion.Plan.Stage
import StageFusion.Registry.Builtin
import StageFusion.Service.Http
import StageFusion.Service.Catalog
import StageFusion.Session
import StageFusion.Stage.Drive
import StageFusion.Proofs.FixedPoint
import StageFusion.Proofs.ThreeSweeps
import StageFusion.Proofs.Usages
import StageFusion.Proofs.SegmentNames
import StageFusion.Proofs.Exactness
import StageFusion.Proofs.Rollback
import StageFusion.Proofs.Barriers
import StageFusion.Proofs.Discipline
import StageFusion.Proofs.Replay
import StageFusion.Proofs.Groupings
import StageFusion.Proofs.Dependence
import StageFusion.Proofs.Averages
import StageFusion.Proofs.Magnitudes
import StageFusion.Proofs.Interruptions
import StageFusion.Proofs.UnknownNames
import StageFusion.Proofs.Attempts
import StageFusion.Proofs.Agreement
import StageFusion.Proofs.BasicShapes
import StageFusion.Proofs.Notices
import StageFusion.Proofs.Deliveries
import StageFusion.Proofs.Associativity
import StageFusion.Proofs.Limits
import StageFusion.Proofs.Branches
import StageFusion.Proofs.Registries
import StageFusion.Proofs.Readings
import StageFusion.Proofs.AnnouncedBounds
import StageFusion.Proofs.Recordings
import StageFusion.Proofs.ReferenceChains
import StageFusion.Proofs.RunningFolds
import StageFusion.Proofs.Semiring
