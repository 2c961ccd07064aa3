import Docwright.Component
import Docwright.Manual
import Docwright.Notes
import Docwright.Overview
import Docwright.Program
import Docwright.ReferenceIndex
import Docwright.Survey
import Docwright.Proofs.Disk.Names
import Docwright.Proofs.Overview.Budget
import Docwright.Proofs.Manual.SectionName
import Docwright.Proofs.Manual.Drafting
import Docwright.Proofs.Program.Outputs
import Docwright.Proofs.Program.Session
import Docwright.Proofs.Manual.Sections
import Docwright.Proofs.Disk.Beside
import Docwright.Proofs.Job.Ends
import Docwright.Proofs.Completion.Obtained
import Docwright.Proofs.Component.Subjects
import Docwright.Proofs.Disk.Access
import Docwright.Proofs.Component.Requests
import Docwright.Proofs.Component.Rounds
import Docwright.Proofs.Component.Pages
import Docwright.Proofs.Manual.TakenUp
import Docwright.Proofs.Disk.Walk
import Docwright.Proofs.Text.Utf8
import Docwright.Proofs.Notes.Taking
import Docwright.Proofs.Notes.Turns
import Docwright.Proofs.Program.NotesByName
import Docwright.Proofs.Json.RoundTrip
import Docwright.Proofs.Disk.Paths
import Docwright.Proofs.Job.Brings
import Docwright.Proofs.Survey.Listing
import Docwright.Proofs.Program.HandOff
import Docwright.Proofs.Program.Account
import Docwright.Proofs.Program.Steps
import Docwright.Proofs.Disk.Depth
import Docwright.Proofs.Notes.Account
import Docwright.Proofs.Overview.Account
import Docwright.Proofs.Manual.Account
import Docwright.Proofs.Component.Account
import Docwright.Proofs.Program.Failures
import Docwright.Proofs.Notes.Rerun
import Docwright.Proofs.Manual.Rerun
import Docwright.Proofs.Program.Rerun
import Docwright.Proofs.Manual.Resume
import Docwright.Proofs.Survey.Report
import Docwright.Proofs.Program.SourceFiles
import Docwright.Proofs.Notes.Exchanges
import Docwright.Proofs.Overview.Kept
import Docwright.Proofs.Notes.Tally
import Docwright.Proofs.Notes.Heading
import Docwright.Proofs.Manual.Retries
import Docwright.Proofs.Text.Trim
import Docwright.Proofs.Manual.Titles
import Docwright.Proofs.Manual.Grammar
import Docwright.Proofs.Manual.Outline
import Docwright.Proofs.Manual.Labels
import Docwright.Proofs.Disk.Inside
import Docwright.Proofs.Manual.Stems
import Docwright.Proofs.Manual.NameLength
import Docwright.Proofs.Survey.Findings
import Docwright.Proofs.Survey.Spans
import Docwright.Proofs.Text.Slices
import Docwright.Proofs.Disk.Added
import Docwright.Proofs.Overview.Folder
import Docwright.Proofs.Disk.Write
import Docwright.Proofs.Notes.Run
