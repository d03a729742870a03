import Agenda.Main
import Agenda.World.Step
import Agenda.Proofs.Cache.Key
import Agenda.Proofs.Dashboard.Checkpoints
import Agenda.Proofs.Dashboard.Definition
import Agenda.Proofs.Needs.Forms
import Agenda.Proofs.Needs.GradingCount
import Agenda.Proofs.Needs.QuizList
import Agenda.Proofs.Needs.ReviewList
import Agenda.Proofs.Needs.SubmittingList
import Agenda.Proofs.Needs.Unrestricted
import Agenda.Proofs.Needs.ViewingList
import Agenda.Proofs.Scope.Resolution
import Agenda.Proofs.Shard.Retention
import Agenda.Proofs.World.CacheRefinement
import Agenda.Proofs.World.Completeness
import Agenda.Proofs.World.Containment
import Agenda.Proofs.World.Dismissal
import Agenda.Proofs.World.EmptyScope
import Agenda.Proofs.World.Expiry
import Agenda.Proofs.World.Freshness
import Agenda.Proofs.World.GradingPermission
import Agenda.Proofs.World.Isolation
import Agenda.Proofs.World.Ledger
import Agenda.Proofs.World.ModerationChecks
import Agenda.Proofs.World.Outage
import Agenda.Proofs.World.ReadBack
import Agenda.Proofs.World.ReadBounds
import Agenda.Proofs.World.RowOrder
import Agenda.Proofs.World.Soundness
