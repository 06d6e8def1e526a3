import StreamJoin.Binary.Format
import StreamJoin.Binary.Rounding
import StreamJoin.Binary.Shortest
import StreamJoin.Event
import StreamJoin.Fault
import StreamJoin.Join.Drain
import StreamJoin.Join.Kind
import StreamJoin.Join.Options
import StreamJoin.Join.OptionsJson
import StreamJoin.Join.Phase
import StreamJoin.Join.Plan
import StreamJoin.Join.Probe
import StreamJoin.Join.Progress
import StreamJoin.Join.Pull
import StreamJoin.Join.State
import StreamJoin.Join.Table
import StreamJoin.Join.Tree
import StreamJoin.Json.Basic
import StreamJoin.Json.Document
import StreamJoin.Json.Member
import StreamJoin.Json.Number
import StreamJoin.Json.Quoted
import StreamJoin.Key.Basic
import StreamJoin.Key.Columns
import StreamJoin.Key.Digest
import StreamJoin.Key.Grouping
import StreamJoin.Proofs.BagJoin
import StreamJoin.Proofs.ClosedTrees
import StreamJoin.Proofs.CollectedRows
import StreamJoin.Proofs.ColumnNames
import StreamJoin.Proofs.ComparisonFailures
import StreamJoin.Proofs.ComparisonLaws
import StreamJoin.Proofs.CounterTotals
import StreamJoin.Proofs.CrossProduct
import StreamJoin.Proofs.DeclaredWidths
import StreamJoin.Proofs.DigitTexts
import StreamJoin.Proofs.DoubleReadings
import StreamJoin.Proofs.ExactNumbers
import StreamJoin.Proofs.FailureOrigins
import StreamJoin.Proofs.FailurePaths
import StreamJoin.Proofs.FiniteRuns
import StreamJoin.Proofs.FloatsAsJson
import StreamJoin.Proofs.HeldRows
import StreamJoin.Proofs.HistoryTally
import StreamJoin.Proofs.IdleTransparency
import StreamJoin.Proofs.JoinChronicle
import StreamJoin.Proofs.JoinInvariant
import StreamJoin.Proofs.JoinLedger
import StreamJoin.Proofs.JoinLifecycle
import StreamJoin.Proofs.JoinLog
import StreamJoin.Proofs.JsonValues
import StreamJoin.Proofs.KeyComparison
import StreamJoin.Proofs.KeyFeeds
import StreamJoin.Proofs.KeyGroups
import StreamJoin.Proofs.KeyReads
import StreamJoin.Proofs.KindsCompared
import StreamJoin.Proofs.LimitedStreams
import StreamJoin.Proofs.LockstepJoins
import StreamJoin.Proofs.MarkedPairs
import StreamJoin.Proofs.MarkedPositions
import StreamJoin.Proofs.NearMidpoints
import StreamJoin.Proofs.NearestWord
import StreamJoin.Proofs.NestedLoop
import StreamJoin.Proofs.NotedRuns
import StreamJoin.Proofs.NumericOrder
import StreamJoin.Proofs.OutlineText
import StreamJoin.Proofs.PlanChecks
import StreamJoin.Proofs.PlanKinds
import StreamJoin.Proofs.PlanRequirements
import StreamJoin.Proofs.PullDiscipline
import StreamJoin.Proofs.PullHistory
import StreamJoin.Proofs.PullSteps
import StreamJoin.Proofs.RaisedFaults
import StreamJoin.Proofs.RationalRounding
import StreamJoin.Proofs.ReceivedBlocks
import StreamJoin.Proofs.RecordedRuns
import StreamJoin.Proofs.ReorderedResiduals
import StreamJoin.Proofs.ResidualConjunction
import StreamJoin.Proofs.RoundedNumbers
import StreamJoin.Proofs.RowLimit
import StreamJoin.Proofs.RowLimitNumerals
import StreamJoin.Proofs.ScaledSignificands
import StreamJoin.Proofs.Script
import StreamJoin.Proofs.ScriptedJoin
import StreamJoin.Proofs.SharedCounters
import StreamJoin.Proofs.ShortestDecimals
import StreamJoin.Proofs.SingleReadings
import StreamJoin.Proofs.SpokenBlocks
import StreamJoin.Proofs.SqlOrder
import StreamJoin.Proofs.StoredBlocks
import StreamJoin.Proofs.TableContents
import StreamJoin.Proofs.TableGroups
import StreamJoin.Proofs.TerminalBlocks
import StreamJoin.Proofs.TreeMeaning
import StreamJoin.Proofs.TreeOutlines
import StreamJoin.Proofs.UnlimitedJoins
import StreamJoin.Proofs.WatchedJoin
import StreamJoin.Proofs.WholeRun
import StreamJoin.Proofs.WrittenDecimals
import StreamJoin.Proofs.WrittenDocuments
import StreamJoin.Residual.Basic
import StreamJoin.Residual.Comparison
import StreamJoin.Schema.Basic
import StreamJoin.Schema.Json
import StreamJoin.Stream.Block
import StreamJoin.Stream.Collect
import StreamJoin.Stream.Operator
import StreamJoin.Stream.Outline
import StreamJoin.Stream.Replay
import StreamJoin.Text.Blank
import StreamJoin.Text.Digits
import StreamJoin.Text.Hexadecimal
import StreamJoin.Text.Numeral
import StreamJoin.Value.Basic
import StreamJoin.Value.Comparison
import StreamJoin.Value.Json
import StreamJoin.Value.Order
import StreamJoin.Value.Text
