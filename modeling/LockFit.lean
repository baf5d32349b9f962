import LockFit.Main
import LockFit.Proofs.Outcome
import LockFit.Proofs.Package.Reach
import LockFit.Proofs.Satisfaction.PrefixIndex
import LockFit.Proofs.Satisfaction.Check
import LockFit.Proofs.Text.Halves
import LockFit.Proofs.Json.RoundTrip
import LockFit.Proofs.Json.Plain
import LockFit.Proofs.Lock.Canonical
import LockFit.Proofs.Lock.RoundTrip
import LockFit.Proofs.Constraint.Answers
import LockFit.Proofs.Satisfaction.Answers
import LockFit.Proofs.Satisfaction.Summary
import LockFit.Proofs.Satisfaction.AbsentManifest
import LockFit.Proofs.CommandLine.ExitCode
import LockFit.Proofs.CommandLine.Formats
import LockFit.Proofs.Constraint.Pieces
import LockFit.Proofs.Constraint.Intervals
import LockFit.Proofs.Version.Grammar
import LockFit.Proofs.Version.Numeral
import LockFit.Proofs.Version.Spelling
import LockFit.Proofs.Version.Printed
import LockFit.Proofs.Version.Identity
import LockFit.Proofs.Constraint.SameVersion
import LockFit.Proofs.Constraint.Spelling
import LockFit.Proofs.Constraint.Grammar
import LockFit.Proofs.Constraint.Pins
import LockFit.Proofs.ImportPath.Segments
import LockFit.Proofs.ImportPath.Coverage
import LockFit.Proofs.Manifest.Rules
import LockFit.Proofs.Satisfaction.DeclaredRoots
import LockFit.Proofs.Satisfaction.Verdicts
import LockFit.Proofs.Satisfaction.Inert
import LockFit.Proofs.Satisfaction.Slashes
import LockFit.Proofs.Package.Alike
import LockFit.Proofs.Satisfaction.Alike
import LockFit.Proofs.Package.Additions
import LockFit.Proofs.Package.Pruned
import LockFit.Proofs.Text.Trim
import LockFit.Proofs.Constraint.Numerals
import LockFit.Proofs.Manifest.Answers
import LockFit.Proofs.Json.Limits
import LockFit.Proofs.Loading
import LockFit.Proofs.Constraint.Conjunction
import LockFit.Proofs.Constraint.Written
import LockFit.Proofs.Package.AnyOrder
import LockFit.Proofs.Ignore
import LockFit.Proofs.Package.Monotone
import LockFit.Proofs.Satisfaction.Credit
import LockFit.Proofs.Json.Shape
import LockFit.Proofs.Lock.Accepted
import LockFit.Proofs.Package.Accepted
import LockFit.Proofs.Manifest.Construction
import LockFit.Proofs.Manifest.Accepted
