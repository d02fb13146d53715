import Backtrack.Error
import Backtrack.Cursor
import Backtrack.Event
import Backtrack.Outcome
import Backtrack.Languages
import Backtrack.Term
import Backtrack.Session
import Backtrack.CommandLine
import Backtrack.Main
import Backtrack.Proofs.Tree
import Backtrack.Proofs.Passage
import Backtrack.Proofs.Law
import Backtrack.Proofs.Spelling
import Backtrack.Proofs.Bounds
import Backtrack.Proofs.Fragments
import Backtrack.Proofs.Depth
import Backtrack.Proofs.Termination
import Backtrack.Proofs.Locality
import Backtrack.Proofs.Renaming
import Backtrack.Proofs.Accounting
import Backtrack.Proofs.Markup.Runs
import Backtrack.Proofs.Markup.Document
import Backtrack.Proofs.Markup.Split
import Backtrack.Proofs.Markup.FrontEnds
import Backtrack.Proofs.Markup.Lossless
import Backtrack.Proofs.Markup.Concatenation
import Backtrack.Proofs.Recognition
import Backtrack.Proofs.Classes
import Backtrack.Proofs.Markup.Delimited
import Backtrack.Proofs.Quotations
import Backtrack.Proofs.Rendering
import Backtrack.Proofs.Frames
import Backtrack.Proofs.Groups
import Backtrack.Proofs.Agreement
import Backtrack.Proofs.Nesting
import Backtrack.Proofs.Repetition
import Backtrack.Proofs.Counting
import Backtrack.Proofs.Possession
import Backtrack.Proofs.Factoring
import Backtrack.Proofs.Choice
import Backtrack.Proofs.Keywords
import Backtrack.Proofs.Grouping
import Backtrack.Proofs.Arity
import Backtrack.Proofs.Substance
import Backtrack.Proofs.Scanning
import Backtrack.Proofs.Exhaustion
import Backtrack.Proofs.Continuing
import Backtrack.Proofs.Sessions
import Backtrack.Proofs.Checkpoints
import Backtrack.Proofs.CommandLine
import Backtrack.Proofs.Chaining
