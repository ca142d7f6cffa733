import IntC.Main
import IntC.Command.Folder
import IntC.Session
import IntC.Proofs.Frame
import IntC.Proofs.Language
import IntC.Proofs.Reading
import IntC.Proofs.Expressions
import IntC.Proofs.Programs
import IntC.Proofs.Acceptance
import IntC.Proofs.WellFormed
import IntC.Proofs.Written
import IntC.Proofs.Printing
import IntC.Proofs.RoundTrip
import IntC.Proofs.Tiling
import IntC.Proofs.LexicalFaults
import IntC.Proofs.Layout
import IntC.Proofs.Blame
import IntC.Proofs.Diagnosis
import IntC.Proofs.Composition
import IntC.Proofs.Lines
import IntC.Proofs.Names
import IntC.Proofs.Reparse
import IntC.Proofs.Reports
import IntC.Proofs.Atomicity
import IntC.Proofs.Nesting
import IntC.Proofs.Refusals
import IntC.Proofs.Fallback
import IntC.Proofs.Tables
import IntC.Proofs.Leftovers
import IntC.Proofs.MoreFunctions
import IntC.Proofs.Unambiguous
import IntC.Proofs.LineLookup
import IntC.Proofs.Caret
import IntC.Proofs.Progress
import IntC.Proofs.Literals
import IntC.Proofs.Walks
