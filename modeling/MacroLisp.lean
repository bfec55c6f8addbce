import MacroLisp.Host.Sample
import MacroLisp.Main
import MacroLisp.Proofs.Data.Embedding
import MacroLisp.Proofs.Data.Handles
import MacroLisp.Proofs.Eval.Arithmetic
import MacroLisp.Proofs.Eval.Canonical
import MacroLisp.Proofs.Eval.DepthLimit
import MacroLisp.Proofs.Eval.Inert
import MacroLisp.Proofs.Eval.Isolation
import MacroLisp.Proofs.Eval.Pieces
import MacroLisp.Proofs.Eval.Refusal
import MacroLisp.Proofs.Eval.Sound
import MacroLisp.Proofs.Eval.Template
import MacroLisp.Proofs.Host.Bridge
import MacroLisp.Proofs.Lexing.RuleTable
import MacroLisp.Proofs.Reader.Layout
import MacroLisp.Proofs.Reader.Lookahead
import MacroLisp.Proofs.Reader.Offsets
import MacroLisp.Proofs.Reader.RoundTrip
import MacroLisp.Proofs.Data.Frames
import MacroLisp.Proofs.Eval.Levels
import MacroLisp.Proofs.Data.Equality
import MacroLisp.Proofs.Eval.Recursion
import MacroLisp.Proofs.Reader.Nesting
