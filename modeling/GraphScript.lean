import GraphScript.Catalogue
import GraphScript.CommandLine
import GraphScript.Comparison
import GraphScript.Definition
import GraphScript.Executor
import GraphScript.File.Graph
import GraphScript.File.Load
import GraphScript.File.Path
import GraphScript.File.Shape
import GraphScript.File.Store
import GraphScript.File.Written
import GraphScript.Format
import GraphScript.Graph
import GraphScript.Identity
import GraphScript.Inspect
import GraphScript.Issue
import GraphScript.Json.Draft
import GraphScript.Json.Format
import GraphScript.Json.Number
import GraphScript.Json.Printer
import GraphScript.Json.Token
import GraphScript.Key
import GraphScript.Kind.Branching
import GraphScript.Kind.Entities
import GraphScript.Kind.Standard
import GraphScript.Kind.Triggers
import GraphScript.Kind.Variables
import GraphScript.Main
import GraphScript.Memory
import GraphScript.Note
import GraphScript.Number.Decimal
import GraphScript.Number.Layout
import GraphScript.Number.Shortest
import GraphScript.Number.Signed
import GraphScript.Pass
import GraphScript.PlayConfig
import GraphScript.Player
import GraphScript.Port
import GraphScript.Proofs.Repeats
import GraphScript.Proofs.TableEntries
import GraphScript.Proofs.WiringLists
import GraphScript.Ron.Any
import GraphScript.Ron.Format
import GraphScript.Ron.Gap
import GraphScript.Ron.Name
import GraphScript.Ron.Number
import GraphScript.Ron.Printer
import GraphScript.Ron.Quoted
import GraphScript.Ron.Reader
import GraphScript.Scene
import GraphScript.Session
import GraphScript.Table
import GraphScript.Text.Blank
import GraphScript.Text.CharSet
import GraphScript.Text.Identifier
import GraphScript.Text.Quoted
import GraphScript.Text.Visible
import GraphScript.Tree
import GraphScript.Validation
import GraphScript.Value
import GraphScript.Wiring
import GraphScript.World
import GraphScript.Proofs.PassSteps
import GraphScript.Proofs.StandardKinds
import GraphScript.Proofs.SessionRuns
import GraphScript.Proofs.SceneTable
import GraphScript.Proofs.ExecutorRuns
import GraphScript.Proofs.Pushes
import GraphScript.Proofs.Coverage
import GraphScript.Proofs.PassMaps
import GraphScript.Proofs.SceneShift
import GraphScript.Proofs.Restart
import GraphScript.Proofs.PassPairs
import GraphScript.Proofs.IssueFree
import GraphScript.Proofs.TypedRuns
import GraphScript.Proofs.KeptResults
import GraphScript.Proofs.PrunedGraphs
import GraphScript.Proofs.JsonTokens
import GraphScript.Proofs.JsonDrafts
import GraphScript.Proofs.SortedEntries
import GraphScript.Proofs.JsonLoading
import GraphScript.Proofs.SavedGraphs
import GraphScript.Proofs.Bookkeeping
import GraphScript.Proofs.Arrivals
import GraphScript.Proofs.RepeatedArrivals
import GraphScript.Proofs.ConnectionEvents
import GraphScript.Proofs.Pulls
import GraphScript.Proofs.TriggerMemory
import GraphScript.Proofs.SideEffects
import GraphScript.Proofs.LocalKinds
import GraphScript.Proofs.MergedGraphs
import GraphScript.Proofs.SeparateGraphs
import GraphScript.Proofs.Ticks
import GraphScript.Proofs.Starts
import GraphScript.Proofs.RonTexts
import GraphScript.Proofs.RonReaders
import GraphScript.Proofs.RonGraphs
import GraphScript.Proofs.DepthRoom
import GraphScript.Proofs.TidyGraphs
import GraphScript.Proofs.SlotHistories
import GraphScript.Proofs.EditorData
import GraphScript.Proofs.MirroredSessions
import GraphScript.Proofs.ExactIssues
import GraphScript.Proofs.WorkBound
import GraphScript.Proofs.RaisedLimits
import GraphScript.Proofs.WiredBranches
import GraphScript.Proofs.TimerCounts
import GraphScript.Proofs.KeySchedule
import GraphScript.Proofs.NumberOrder
import GraphScript.Proofs.WholeNumbers
import GraphScript.Proofs.ReadFields
import GraphScript.Proofs.TwoReaders
import GraphScript.Proofs.LoadedValues
import GraphScript.Proofs.ReloadedGraphs
import GraphScript.Proofs.LooseComparison
import GraphScript.Proofs.UsableInputs
