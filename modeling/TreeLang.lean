import TreeLang.Env.Workspace
import TreeLang.Main
import TreeLang.Proofs.CallDepth
import TreeLang.Proofs.Defects
import TreeLang.Proofs.Frame
import TreeLang.Proofs.Output
import TreeLang.Proofs.Parameters
import TreeLang.Proofs.Correspondence
import TreeLang.Proofs.Interference
import TreeLang.Proofs.Encoding
import TreeLang.Proofs.Renaming
import TreeLang.Proofs.ActiveCalls
import TreeLang.Proofs.Moments
import TreeLang.Proofs.Sessions
import TreeLang.Proofs.Reading
import TreeLang.Proofs.Justification
import TreeLang.Proofs.Unbound
import TreeLang.Proofs.Arguments
import TreeLang.Proofs.OwnFrame
import TreeLang.Proofs.OperatorTable
import TreeLang.Proofs.Sharing
import TreeLang.Proofs.Arithmetic
import TreeLang.Proofs.FiniteMap
import TreeLang.Proofs.Quotation
import TreeLang.Proofs.Literals
import TreeLang.Proofs.Rendering
import TreeLang.Proofs.Fibonacci
import TreeLang.Proofs.Loading
import TreeLang.Proofs.Layout
import TreeLang.Proofs.Modes
