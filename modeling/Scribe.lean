import Scribe.Event.Fields
import Scribe.Main
import Scribe.Output.Waits
import Scribe.Value.Json
import Scribe.Proofs.Coalescer.Books
import Scribe.Proofs.Observer.Stream
import Scribe.Proofs.Coalescer.Scope
import Scribe.Proofs.PageNames.Binding
import Scribe.Proofs.Session.Commit
import Scribe.Proofs.Session.Run
import Scribe.Proofs.Session.Scope
import Scribe.Proofs.Session.Output
import Scribe.Proofs.Program.Lines
import Scribe.Proofs.Program.Statement
import Scribe.Proofs.Program.Calls
import Scribe.Proofs.Program.JavaScript
import Scribe.Proofs.Program.Java
import Scribe.Proofs.Program.Python
import Scribe.Proofs.Program.CSharp
import Scribe.Proofs.Program.Plan
import Scribe.Proofs.Program.Scoping
import Scribe.Proofs.Session.Program
import Scribe.Proofs.Document
import Scribe.Proofs.Yaml.Print
import Scribe.Proofs.LogFile
import Scribe.Proofs.Dom.Criterion
import Scribe.Proofs.Dom.Identify
import Scribe.Proofs.Text.Literal
import Scribe.Proofs.Text.Quoted
import Scribe.Proofs.Session.Health
import Scribe.Proofs.Coalescer.Ledger
import Scribe.Proofs.Coalescer.Course
import Scribe.Proofs.Coalescer.Fills
import Scribe.Proofs.Coalescer.Awaiting
import Scribe.Proofs.Coalescer.Ticks
import Scribe.Proofs.Session.Turns
import Scribe.Proofs.Session.Noise
import Scribe.Proofs.Session.Queue
import Scribe.Proofs.Session.Posts
import Scribe.Proofs.Output.Notify
import Scribe.Proofs.PageNames.Numbering
import Scribe.Proofs.Output.Pending
import Scribe.Proofs.Program.Scanning
import Scribe.Proofs.Program.Naming
import Scribe.Proofs.Program.Brackets.JavaScript
import Scribe.Proofs.Program.Brackets.Java
import Scribe.Proofs.Program.Brackets.Python
import Scribe.Proofs.Program.Brackets.CSharp
import Scribe.Proofs.Program.Brackets
import Scribe.Proofs.Browser.GivingBack
import Scribe.Proofs.Browser.Announcing
import Scribe.Proofs.Coalescer.Requests
import Scribe.Proofs.Coalescer.Gathering
import Scribe.Proofs.ActionLog.Requests
import Scribe.Proofs.Coalescer.Stopping
import Scribe.Proofs.Css.Selector
import Scribe.Proofs.Dom.Attributes
import Scribe.Proofs.Css.Spelling
import Scribe.Proofs.Dom.Path
import Scribe.Proofs.Dom.Climb
import Scribe.Proofs.Program.Remarks
import Scribe.Proofs.Text.Lines
import Scribe.Proofs.Text.Case
import Scribe.Proofs.Program.Role
import Scribe.Proofs.Program.Body
import Scribe.Proofs.Program.AsyncScript
import Scribe.Proofs.Output.Subscriptions
import Scribe.Proofs.Yaml.Unreadable
import Scribe.Proofs.LogFile.Reporting
import Scribe.Proofs.Text.Numeral
import Scribe.Proofs.Settings
import Scribe.Proofs.Coalescer.Stock
import Scribe.Proofs.Coalescer.Turns
import Scribe.Proofs.Session.Downloads
