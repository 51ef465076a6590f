import LongDivision.Main
import LongDivision.Proofs.Dense.Convolution
import LongDivision.Proofs.Dense.Evaluation
import LongDivision.Proofs.Dense.Laws
import LongDivision.Proofs.Dense.Rendered
import LongDivision.Proofs.Division.Course
import LongDivision.Proofs.Division.Identity
import LongDivision.Proofs.Division.InPlace
import LongDivision.Proofs.Division.Linear
import LongDivision.Proofs.Division.Padding
import LongDivision.Proofs.Positional.Construction
import LongDivision.Proofs.TermMap.History
import LongDivision.Proofs.TermMap.Lossless
import LongDivision.Proofs.TermMap.Merged
import LongDivision.Proofs.TermMap.Sum
import LongDivision.Proofs.TermSum.Addition
import LongDivision.Proofs.TermSum.Laws
import LongDivision.Proofs.Expression.Joined
import LongDivision.Proofs.Expression.Outcome
import LongDivision.Proofs.Expression.Readers
import LongDivision.Proofs.Expression.RoundTrip
import LongDivision.Proofs.Session.Comparison
import LongDivision.Proofs.Session.Conduct
import LongDivision.Proofs.Session.Interference
import LongDivision.Proofs.Session.Limits
import LongDivision.Proofs.Session.Named
import LongDivision.Proofs.Session.Outcome
import LongDivision.Proofs.Session.Printed
import LongDivision.Proofs.Program.Directory
