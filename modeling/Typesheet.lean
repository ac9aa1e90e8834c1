import Typesheet.Command.Files
import Typesheet.Command.Run
import Typesheet.Main
import Typesheet.Proofs.Calculation
import Typesheet.Proofs.Checked
import Typesheet.Proofs.Flat
import Typesheet.Proofs.Reading
import Typesheet.Proofs.Faults
import Typesheet.Proofs.Pruning
import Typesheet.Proofs.Lexical
import Typesheet.Proofs.Words
import Typesheet.Proofs.Printing
import Typesheet.Proofs.Readback
import Typesheet.Proofs.Roundtrip
import Typesheet.Proofs.FixedPoint
import Typesheet.Proofs.Environment
import Typesheet.Proofs.Bare
import Typesheet.Proofs.Sentence
import Typesheet.Proofs.Concatenation
import Typesheet.Proofs.Completeness
import Typesheet.Proofs.Soundness
import Typesheet.Proofs.Seam
import Typesheet.Proofs.Isolation
import Typesheet.Proofs.Sessions
import Typesheet.Proofs.Expectation
import Typesheet.Proofs.Layout
import Typesheet.Proofs.Refusal
import Typesheet.Proofs.Reckoning
import Typesheet.Proofs.Resolution
import Typesheet.Proofs.Nodes
import Typesheet.Proofs.Visibility
import Typesheet.Proofs.Precedence
import Typesheet.Proofs.Numbering
import Typesheet.Proofs.Truncation
import Typesheet.Proofs.Separation
import Typesheet.Proofs.Whereabouts
import Typesheet.Proofs.Nesting
import Typesheet.Proofs.Inspection
import Typesheet.Proofs.Cascade
import Typesheet.Proofs.Lines
import Typesheet.Proofs.Excerpts
import Typesheet.Proofs.Carets
import Typesheet.Proofs.Filing
import Typesheet.Proofs.Modes
import Typesheet.Proofs.Progress
import Typesheet.Proofs.Abreast
import Typesheet.Proofs.Termination
import Typesheet.Proofs.Origins
import Typesheet.Proofs.Shadowing
import Typesheet.Proofs.Locating
