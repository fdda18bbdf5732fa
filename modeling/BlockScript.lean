import BlockScript.Main
import BlockScript.Proofs.Accepted
import BlockScript.Proofs.Build.Brackets
import BlockScript.Proofs.Build.Cleanup
import BlockScript.Proofs.Build.Isolation
import BlockScript.Proofs.Console.Modes
import BlockScript.Proofs.Eval.Accounted
import BlockScript.Proofs.Eval.Exact
import BlockScript.Proofs.Eval.Protocol
import BlockScript.Proofs.Eval.Shadow
import BlockScript.Proofs.Eval.Stack
import BlockScript.Proofs.Eval.Store
import BlockScript.Proofs.Eval.Transparent
import BlockScript.Proofs.Eval.Truncated
import BlockScript.Proofs.Eval.Unmentioned
import BlockScript.Proofs.Eval.Unrolled
import BlockScript.Proofs.Eval.Whileless
import BlockScript.Proofs.Grammar.Containment
import BlockScript.Proofs.Grammar.Declared
import BlockScript.Proofs.Token.Spaced
import BlockScript.Proofs.Display.Shape
import BlockScript.Proofs.Display.Unique
import BlockScript.Proofs.Eval.Chain
import BlockScript.Proofs.Display.Programs
