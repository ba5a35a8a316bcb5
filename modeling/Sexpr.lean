import Sexpr.Form.Alike
import Sexpr.Form.Build
import Sexpr.Form.Layout
import Sexpr.Proofs.Form.RoundTrip
import Sexpr.Proofs.Token.Places
import Sexpr.Token.Listing
import Sexpr.Proofs.Form.Reformat
import Sexpr.Proofs.Token.Behind
import Sexpr.Proofs.Token.Part
import Sexpr.Proofs.Token.Prefix
import Sexpr.Proofs.Stages
import Sexpr.Proofs.Piecewise
import Sexpr.Proofs.Token.Truth
import Sexpr.Proofs.Form.Built
import Sexpr.Proofs.Report
import Sexpr.Proofs.Form.Viable
import Sexpr.Proofs.Form.Sole
import Sexpr.Proofs.Unsourced
import Sexpr.Proofs.Form.Broken
import Sexpr.Proofs.Form.Identity
import Sexpr.Proofs.Token.Listed
import Sexpr.Proofs.Form.Measured
import Sexpr.Proofs.Form.Abreast
import Sexpr.Proofs.Token.Buffered
