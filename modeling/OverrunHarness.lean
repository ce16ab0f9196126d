import OverrunHarness.Main
import OverrunHarness.History
import OverrunHarness.Proofs.Planning
import OverrunHarness.Proofs.Stores
import OverrunHarness.Proofs.Footprint
import OverrunHarness.Proofs.Draws
import OverrunHarness.Proofs.Records
import OverrunHarness.Proofs.DryRun
import OverrunHarness.Proofs.FilterReading
import OverrunHarness.Proofs.ProcessResult
import OverrunHarness.Proofs.SharedBuffer
import OverrunHarness.Proofs.Branches
import OverrunHarness.Proofs.Overflow
import OverrunHarness.Proofs.Origin
import OverrunHarness.Proofs.Writes
import OverrunHarness.Proofs.FileRuns
import OverrunHarness.Proofs.WellFormedText
import OverrunHarness.Proofs.IllFormedText
import OverrunHarness.Proofs.SeedText
import OverrunHarness.Proofs.Grammar
import OverrunHarness.Proofs.Acceptance
import OverrunHarness.Proofs.Spelling
import OverrunHarness.Proofs.Replay
import OverrunHarness.Proofs.PrintedPlan
import OverrunHarness.Proofs.FilteredLog
import OverrunHarness.Proofs.Respelling
import OverrunHarness.Proofs.FileHistory
import OverrunHarness.Proofs.ShownPaths
