import PromptHarness.Actor
import PromptHarness.Session.Step
import PromptHarness.Proofs.Course
import PromptHarness.Proofs.Decoding
import PromptHarness.Proofs.Occurrence
import PromptHarness.Proofs.Waiting
import PromptHarness.Proofs.Conversation
import PromptHarness.Proofs.Runs
import PromptHarness.Proofs.Typing
import PromptHarness.Proofs.Protocol
import PromptHarness.Proofs.Transcript
import PromptHarness.Proofs.Phases
import PromptHarness.Proofs.Deadline
import PromptHarness.Proofs.Lifecycle
import PromptHarness.Proofs.Events
import PromptHarness.Proofs.Variables
import PromptHarness.Proofs.Surroundings
import PromptHarness.Proofs.Isolation
import PromptHarness.Proofs.Defects
import PromptHarness.Proofs.FalseDefects
import PromptHarness.Proofs.Paths
import PromptHarness.Proofs.Processes
import PromptHarness.Proofs.Closing
import PromptHarness.Proofs.Results
import PromptHarness.Proofs.Brackets
import PromptHarness.Proofs.Grammar
import PromptHarness.Proofs.PlanPrefixes
import PromptHarness.Proofs.Transparency
import PromptHarness.Proofs.Encoding
import PromptHarness.Proofs.Outcomes
import PromptHarness.Proofs.WritablePaths
import PromptHarness.Proofs.Performing
import PromptHarness.Proofs.Scopes
import PromptHarness.Proofs.Editors
import PromptHarness.Proofs.Calls
import PromptHarness.Proofs.Attendance
import PromptHarness.Proofs.Editing
import PromptHarness.Proofs.RoundTrip
import PromptHarness.Proofs.Directories
import PromptHarness.Proofs.HomeSetup
import PromptHarness.Proofs.Expectation
import PromptHarness.Proofs.Rendering
import PromptHarness.Proofs.WellFormed
import PromptHarness.Proofs.Renumbering
import PromptHarness.Proofs.FirstLine
import PromptHarness.Proofs.Stopping
import PromptHarness.Proofs.Credentials
import PromptHarness.Proofs.Exchanges
import PromptHarness.Proofs.Descriptions
import PromptHarness.Proofs.Documents
import PromptHarness.Proofs.Layers
import PromptHarness.Proofs.Unset
import PromptHarness.Proofs.Requests
import PromptHarness.Proofs.ProcessInvariants
import PromptHarness.Proofs.Subtrees
import PromptHarness.Proofs.HomeTeardown
import PromptHarness.Proofs.FilePreservation
import PromptHarness.Proofs.Opening
import PromptHarness.Proofs.Tallies
import PromptHarness.Proofs.Lines
import PromptHarness.Proofs.LogFiles
import PromptHarness.Proofs.Alignment
import PromptHarness.Proofs.Prompting
