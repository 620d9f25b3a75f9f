import TimedWaits.Scenario.Report
import TimedWaits.Main
import TimedWaits.Proofs.LinkedLists.Refinement
import TimedWaits.Proofs.LinkedLists.Sorting
import TimedWaits.Proofs.Alarms.Overdue
import TimedWaits.Proofs.Shift.Stages
import TimedWaits.Proofs.Rings.BoundedQueue
import TimedWaits.Proofs.Runs.Touches
import TimedWaits.Proofs.Runs.Surroundings
import TimedWaits.Proofs.Alarms.OwnAlarm
import TimedWaits.Proofs.Signals.Balance
import TimedWaits.Proofs.Rings.Calls
import TimedWaits.Proofs.Alarms.TimedWaits
import TimedWaits.Proofs.Alarms.WaitBalance
import TimedWaits.Proofs.Alarms.Punctual
import TimedWaits.Proofs.Alarms.Loops
import TimedWaits.Proofs.Alarms.Lateness
import TimedWaits.Proofs.Selectors.Coalescing
import TimedWaits.Proofs.Selectors.Slots
import TimedWaits.Proofs.Selectors.Attachments
import TimedWaits.Proofs.Selectors.Tables
import TimedWaits.Proofs.Selectors.Changes
import TimedWaits.Proofs.Selectors.Runs
import TimedWaits.Proofs.Runs.Strides
import TimedWaits.Proofs.Runs.Operations
import TimedWaits.Proofs.Selectors.Operations
import TimedWaits.Proofs.Selectors.Answers
import TimedWaits.Proofs.Selectors.Selections
import TimedWaits.Proofs.Alarms.Passages
import TimedWaits.Proofs.Alarms.Schedulings
import TimedWaits.Proofs.Workers.Jobs
import TimedWaits.Proofs.Workers.Executions
import TimedWaits.Proofs.Workers.JobOrder
import TimedWaits.Proofs.Workers.Progress
import TimedWaits.Proofs.Workers.KilledRuns
import TimedWaits.Proofs.Selectors.Matching
import TimedWaits.Proofs.Selectors.Wakeups
import TimedWaits.Proofs.Selectors.Timeouts
import TimedWaits.Proofs.Alarms.Ownership
import TimedWaits.Proofs.Alarms.Cleanup
import TimedWaits.Proofs.Alarms.Announcements
import TimedWaits.Proofs.Alarms.Rearming
import TimedWaits.Proofs.Signals.PostBoxes
import TimedWaits.Proofs.Signals.Refinement
import TimedWaits.Proofs.Signals.Tallies
import TimedWaits.Proofs.Alarms.StaleReports
import TimedWaits.Proofs.Signals.Supply
import TimedWaits.Proofs.Runs.Requests
import TimedWaits.Proofs.Alarms.BlockedWaits
import TimedWaits.Proofs.Rings.Passes
import TimedWaits.Proofs.Alarms.Soundings
import TimedWaits.Proofs.Alarms.Releases
import TimedWaits.Proofs.Rings.Heralds
import TimedWaits.Proofs.Rings.Waits
import TimedWaits.Proofs.Selectors.AnyToken
import TimedWaits.Proofs.Runs.Refusals
import TimedWaits.Proofs.Alarms.Reentrancy
import TimedWaits.Proofs.Tick.Arithmetic
import TimedWaits.Proofs.Text.Lines
import TimedWaits.Proofs.Text.Fields
import TimedWaits.Proofs.Tasks.Totals
import TimedWaits.Proofs.Tasks.Calls
import TimedWaits.Proofs.Tasks.Transcripts
import TimedWaits.Proofs.Tasks.Runs
import TimedWaits.Proofs.Tasks.TestGroups
