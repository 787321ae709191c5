import KataGo.Game.Runs
import KataGo.Game.AreaSymmetry
import KataGo.Game.Equivariance
import KataGo.Lib.Benson
import KataGo.Lib.Relocation
import KataGo.Promotion.Reissue
import KataGo.Promotion.Chain
import KataGo.Promotion.Swap
import KataGo.Scheduler.Duplicates
import KataGo.Python.Zobrist
import KataGo.Python.Lockstep
import KataGo.Selfplay.Runs
import KataGo.Trainer.Provenance
import KataGo.Suite.Types
import KataGo.Suite.Registry
import KataGo.Suite.Calls
import KataGo.Queue.Container
import KataGo.Queue.Contents
import KataGo.Queue.Runs
import KataGo.Queue.Closing
import KataGo.Queue.WakeUps
import KataGo.Game.SymmetryGroup
import KataGo.Game.TensorCopy
import KataGo.Game.IndependentLife
import KataGo.History.Record
import KataGo.History.KoTable
import KataGo.Game.HashAfterMove
import KataGo.History.Moves
import KataGo.History.Calls
import KataGo.History.Stages
import KataGo.History.RootTable
import KataGo.History.DuplicateMoves
import KataGo.Python.Ladder
import KataGo.Python.LadderRuns
import KataGo.Python.LadderTrace
import KataGo.Lib.GameTree
import KataGo.Python.Rooted
import KataGo.Python.GameState
import KataGo.Game.LibertiesAfterMove
import KataGo.History.Clear
import KataGo.History.HandicapBonus
import KataGo.History.Passes
import KataGo.Game.AllPassAlive
import KataGo.History.PassAliveEnd
import KataGo.Lib.DepthFirst
import KataGo.Python.Area
import KataGo.Python.AreaLife
import KataGo.Python.AreaAgree
import KataGo.Suite.Replays
import KataGo.Game.SetStones
import KataGo.Game.LocationText
import KataGo.Game.BoardText
import KataGo.Game.RepetitionBound
import KataGo.History.KoBlocks
import KataGo.Paired.Rows
import KataGo.Paired.Validation
import KataGo.Paired.Outcomes
import KataGo.Paired.Statistics
import KataGo.Paired.Metric
import KataGo.Paired.Exchange
import KataGo.Paired.RoleSwap
import KataGo.Lib.Polling
import KataGo.Lease.Host
import KataGo.Lease.Handoff
import KataGo.Lease.Reconcile
import KataGo.Lease.DryRun
import KataGo.Core.Base64
import KataGo.Core.Base64Texts
import KataGo.Selfplay.ScoreDistr
import KataGo.Selfplay.ScoreRows
import KataGo.Core.ConfigParser
import KataGo.Core.ConfigLines
import KataGo.Core.ConfigRoundTrip
import KataGo.Search.TimeControls
import KataGo.Search.TimeSafety
import KataGo.Suite.Ledger
import KataGo.Lib.Interleaving
import KataGo.Search.Traversal
import KataGo.Search.TraversalRuns
import KataGo.Search.NodeVisits
import KataGo.Search.VisitRuns
import KataGo.Core.WaitableFlag
import KataGo.Core.PriorityMutex
import KataGo.Search.PlayoutRuns
