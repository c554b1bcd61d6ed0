import ScopeTyping.Story
import ScopeTyping.Scope.Json
import ScopeTyping.Span.Json
import ScopeTyping.Tree.Construct
import ScopeTyping.Tree.Outline
import ScopeTyping.Proofs.Outcome
import ScopeTyping.Proofs.Tree.Descent
import ScopeTyping.Proofs.Typing.Agreement
import ScopeTyping.Proofs.Typing.Sighted
import ScopeTyping.Proofs.Ty.Settled
import ScopeTyping.Proofs.Typing.Settled
import ScopeTyping.Proofs.Pass.Chronicle
import ScopeTyping.Proofs.Pass.Standard
import ScopeTyping.Proofs.Pass.Stability
import ScopeTyping.Proofs.Pass.Recording
import ScopeTyping.Proofs.Pass.Handlers
import ScopeTyping.Proofs.Pass.Assignments
import ScopeTyping.Proofs.Typing.Sites
import ScopeTyping.Proofs.Pass.Placement
import ScopeTyping.Proofs.Pass.Returns
import ScopeTyping.Proofs.Typing.Counterparts
import ScopeTyping.Proofs.Pass.Mirror
import ScopeTyping.Proofs.Pass.Parallel
import ScopeTyping.Proofs.Pass.Abreast
import ScopeTyping.Proofs.Pass.Isolation
import ScopeTyping.Proofs.Pass.Course
import ScopeTyping.Proofs.Pass.Frame
import ScopeTyping.Proofs.Pass.Housing
import ScopeTyping.Proofs.Pass.Ownership
import ScopeTyping.Proofs.Pass.Lexical
import ScopeTyping.Proofs.Pass.Introductions
import ScopeTyping.Proofs.Scope.Listing
import ScopeTyping.Proofs.Pass.Bindings
import ScopeTyping.Proofs.Scope.Attachments
import ScopeTyping.Proofs.Pass.Likeness
import ScopeTyping.Proofs.Pass.Equivariance
import ScopeTyping.Proofs.Pass.Placeholder
import ScopeTyping.Proofs.Typing.Blame
import ScopeTyping.Proofs.Pass.Conduct
import ScopeTyping.Proofs.Pass.Justification
import ScopeTyping.Proofs.Pass.Safety
import ScopeTyping.Proofs.Ty.Gradual
import ScopeTyping.Proofs.Program.Syntax
import ScopeTyping.Proofs.Program.Standing
import ScopeTyping.Proofs.Program.Meaning
import ScopeTyping.Proofs.Program.Following
import ScopeTyping.Proofs.Program.Typed
import ScopeTyping.Proofs.Program.Tally
import ScopeTyping.Proofs.Program.Enacted
import ScopeTyping.Proofs.Program.Performed
import ScopeTyping.Proofs.Program.Enactment
import ScopeTyping.Proofs.Program.Drafting
import ScopeTyping.Proofs.Program.Layout
import ScopeTyping.Proofs.Program.Construction
import ScopeTyping.Proofs.Program.Visits
import ScopeTyping.Proofs.Program.Coverage
import ScopeTyping.Proofs.Program.Dissolving
import ScopeTyping.Proofs.Program.Leading
import ScopeTyping.Proofs.Program.Statements
import ScopeTyping.Proofs.Program.Variables
import ScopeTyping.Proofs.Ty.Join
import ScopeTyping.Proofs.Ty.Text
import ScopeTyping.Proofs.Ty.UpperBound
import ScopeTyping.Proofs.Typing.Monotone
import ScopeTyping.Proofs.Typing.Literals
import ScopeTyping.Proofs.Scope.Dump
import ScopeTyping.Proofs.Json.Reading
import ScopeTyping.Proofs.Scope.Encoding
import ScopeTyping.Proofs.Ty.Acceptance
import ScopeTyping.Proofs.Ty.OperandOrder
import ScopeTyping.Proofs.Ty.Loosening
import ScopeTyping.Proofs.Diagnostic.EditDistance
import ScopeTyping.Proofs.Diagnostic.Suggestions
import ScopeTyping.Proofs.Scope.Histories
import ScopeTyping.Proofs.Pass.Effect
import ScopeTyping.Proofs.Diagnostic.Messages
import ScopeTyping.Proofs.Tree.Outline
import ScopeTyping.Proofs.Tree.Building
import ScopeTyping.Proofs.Tree.Spans
import ScopeTyping.Proofs.Typing.Declared
