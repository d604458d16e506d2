import PathPlanner.Accepted
import PathPlanner.Buffer
import PathPlanner.ByteReader
import PathPlanner.CanonicalForm
import PathPlanner.Collective
import PathPlanner.Costs
import PathPlanner.Crc
import PathPlanner.DeclarationOrder
import PathPlanner.Digest
import PathPlanner.Dsl.Assignments
import PathPlanner.Dsl.GroupLists
import PathPlanner.Dsl.LineConflicts
import PathPlanner.Dsl.LineOrder
import PathPlanner.Dsl.Reader
import PathPlanner.Dsl.Redrafts
import PathPlanner.Dsl.SectionLines
import PathPlanner.Dsl.Steps
import PathPlanner.Dsl.Structure
import PathPlanner.Eligibility
import PathPlanner.Encoding
import PathPlanner.Fabric
import PathPlanner.FabricIndex
import PathPlanner.FabricStages
import PathPlanner.Freshness
import PathPlanner.GroupIds
import PathPlanner.Ids
import PathPlanner.Lib.Arrivals
import PathPlanner.Lib.Blocks
import PathPlanner.Lib.Breadth
import PathPlanner.Lib.Budget
import PathPlanner.Lib.Checks
import PathPlanner.Lib.Clamped
import PathPlanner.Lib.Codec
import PathPlanner.Lib.Failures
import PathPlanner.Lib.Footprint
import PathPlanner.Lib.Moves
import PathPlanner.Lib.Permuted
import PathPlanner.Lib.Pick
import PathPlanner.Lib.Ranked
import PathPlanner.Lib.Sequence
import PathPlanner.Lib.SortedMap
import PathPlanner.Lib.Tally
import PathPlanner.Lib.TwoRuns
import PathPlanner.Lib.Walk
import PathPlanner.Lib.Words
import PathPlanner.LogicalEdges
import PathPlanner.Mapping
import PathPlanner.Names
import PathPlanner.Objective
import PathPlanner.Plan
import PathPlanner.PlanAudit
import PathPlanner.PlanCapacity
import PathPlanner.PlanChecks
import PathPlanner.PlanCodec
import PathPlanner.Planner.Admissible
import PathPlanner.Planner.Alternatives
import PathPlanner.Planner.AmpleLimits
import PathPlanner.Planner.Analyse
import PathPlanner.Planner.AnalyseSound
import PathPlanner.Planner.Assembled
import PathPlanner.Planner.AssembledValid
import PathPlanner.Planner.Assignments
import PathPlanner.Planner.Budgets
import PathPlanner.Planner.Candidate
import PathPlanner.Planner.CandidateSound
import PathPlanner.Planner.CoLocation
import PathPlanner.Planner.Compliance
import PathPlanner.Planner.Containment
import PathPlanner.Planner.DeclaredBounds
import PathPlanner.Planner.DisjointCut
import PathPlanner.Planner.Enumerate
import PathPlanner.Planner.EnumerateExact
import PathPlanner.Planner.EnumerateSound
import PathPlanner.Planner.Exploration
import PathPlanner.Planner.FastPath
import PathPlanner.Planner.FindPath
import PathPlanner.Planner.FlowCut
import PathPlanner.Planner.FlowRun
import PathPlanner.Planner.FlowValue
import PathPlanner.Planner.Global
import PathPlanner.Planner.GlobalSound
import PathPlanner.Planner.Independence
import PathPlanner.Planner.Infeasible
import PathPlanner.Planner.LabelSearch
import PathPlanner.Planner.MaxFlow
import PathPlanner.Planner.Outcome
import PathPlanner.Planner.OutcomeSound
import PathPlanner.Planner.PlanContract
import PathPlanner.Planner.PlanRecord
import PathPlanner.Planner.Pool
import PathPlanner.Planner.PoolSound
import PathPlanner.Planner.ProductSearch
import PathPlanner.Planner.Ranking
import PathPlanner.Planner.RankingSound
import PathPlanner.Planner.Reach
import PathPlanner.Planner.Search
import PathPlanner.Planner.SearchSound
import PathPlanner.Planner.Selection
import PathPlanner.Planner.Sets
import PathPlanner.Planner.SetsSound
import PathPlanner.Planner.SideBySide
import PathPlanner.Planner.Signatures
import PathPlanner.Planner.SweepSteps
import PathPlanner.Planner.Visibility
import PathPlanner.Policy
import PathPlanner.Rearranged
import PathPlanner.Request
import PathPlanner.Server.Client
import PathPlanner.Server.Conversation
import PathPlanner.Server.Coordinator
import PathPlanner.Server.Inbox
import PathPlanner.Server.Provenance
import PathPlanner.Server.Replies
import PathPlanner.Server.ReplyBounds
import PathPlanner.Server.ReplyFrames
import PathPlanner.Server.ServerRuns
import PathPlanner.Server.SessionLimit
import PathPlanner.Server.SessionSafety
import PathPlanner.Server.Shutdown
import PathPlanner.Server.Threads
import PathPlanner.Sha256Stream
import PathPlanner.Status
import PathPlanner.Store.Bounds
import PathPlanner.Store.CalmStore
import PathPlanner.Store.Crashes
import PathPlanner.Store.Eviction
import PathPlanner.Store.Fences
import PathPlanner.Store.Files
import PathPlanner.Store.Frames
import PathPlanner.Store.Lockstep
import PathPlanner.Store.MetaCodec
import PathPlanner.Store.PlanStore
import PathPlanner.Store.PutFailure
import PathPlanner.Store.Readable
import PathPlanner.Store.Record
import PathPlanner.Store.RecordAudit
import PathPlanner.Store.RecordCodec
import PathPlanner.Store.Refinement
import PathPlanner.Store.Revalidation
import PathPlanner.Store.Sequences
import PathPlanner.Store.StoreCases
import PathPlanner.Store.StoreRuns
import PathPlanner.Wire.DecodeErrors
import PathPlanner.Wire.Frame
import PathPlanner.Wire.FrameCodec
import PathPlanner.Wire.FrameStream
import PathPlanner.Wire.PayloadCodecs
import PathPlanner.Wire.Payloads
import PathPlanner.Wire.Socket
