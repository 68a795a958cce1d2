import AccessControl.Builtin.Glob
import AccessControl.Builtin.KeyMatch
import AccessControl.Builtin.Predicate
import AccessControl.Config.Parser
import AccessControl.Decimal.Printer
import AccessControl.Decimal.Reader
import AccessControl.Json.Printer
import AccessControl.Json.Reader
import AccessControl.Matcher.Machine
import AccessControl.Model.Reader
import AccessControl.Monitor.Action
import AccessControl.Monitor.Bounded
import AccessControl.Monitor.Builder
import AccessControl.Monitor.Operation
import AccessControl.Monitor.Setup
import AccessControl.Policy.RowJson
import AccessControl.Policy.Rule
import AccessControl.Regex.Search
import AccessControl.Text.CaseFold
import AccessControl.Text.Printable
import AccessControl.Text.WordCharacter
import AccessControl.Proofs.Matcher.Evaluation
import AccessControl.Proofs.Monitor.Memory
import AccessControl.Proofs.Model.Reader
import AccessControl.Proofs.Monitor.Enforcement
import AccessControl.Proofs.Matcher.Grammar
import AccessControl.Proofs.Matcher.Completeness
import AccessControl.Proofs.Matcher.Soundness
import AccessControl.Proofs.Matcher.Spelling
import AccessControl.Proofs.Matcher.Scanning
import AccessControl.Proofs.Matcher.Parsing
import AccessControl.Proofs.Monitor.Rows
import AccessControl.Proofs.Text.Blank
import AccessControl.Proofs.Config.Grammar
import AccessControl.Proofs.Config.Line
import AccessControl.Proofs.Config.Parsing
import AccessControl.Proofs.Config.RoundTrip
import AccessControl.Proofs.Matcher.Truncation
import AccessControl.Proofs.Matcher.Location
import AccessControl.Proofs.Matcher.Dangling
import AccessControl.Proofs.Config.Replacement
import AccessControl.Proofs.Model.Matcher
import AccessControl.Proofs.Json.Spelling
import AccessControl.Proofs.Policy.RowJson
import AccessControl.Proofs.Monitor.Decision
import AccessControl.Proofs.Monitor.History
import AccessControl.Proofs.Monitor.Transfer
import AccessControl.Proofs.Builtin.Glob
import AccessControl.Proofs.Builtin.Traversal
import AccessControl.Proofs.Builtin.KeyMatch
import AccessControl.Proofs.Monitor.Action
import AccessControl.Proofs.Monitor.Batch
import AccessControl.Proofs.Monitor.Removal
import AccessControl.Proofs.Policy.Clause
import AccessControl.Proofs.Text.Enumeration
import AccessControl.Proofs.Model.Acceptance
import AccessControl.Proofs.Matcher.Simulation
import AccessControl.Proofs.Monitor.Simulation
import AccessControl.Proofs.Matcher.Renaming
import AccessControl.Proofs.Monitor.Noninterference
import AccessControl.Proofs.Monitor.Renaming
import AccessControl.Proofs.Matcher.Access
import AccessControl.Proofs.Monitor.Columns
import AccessControl.Config.Scanner
import AccessControl.Proofs.Config.Location
import AccessControl.Proofs.Config.Scanner
import AccessControl.Proofs.Matcher.Balance
import AccessControl.Proofs.Matcher.FunctionTable
import AccessControl.Proofs.Monitor.Binding
import AccessControl.Proofs.Decimal.Magnitude
import AccessControl.Proofs.Matcher.Equality
import AccessControl.Proofs.Monitor.Recency
