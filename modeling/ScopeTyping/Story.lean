import ScopeTyping.Pass.Visit

/-! A story together with the names that its runs share: every question that resolves
the story hands back the names as the run left them. -/
namespace ScopeTyping

/-- A tree and the names known so far. -/
structure Story where
  tree : Tree
  names : NameTable

namespace Story

/-- The resolution of a story by the rules of the language. -/
def resolve (story : Story) : Run := story.tree.resolve story.names

/-- The text of a story's scopes, and the names afterwards. -/
def dump (story : Story) : Except Failure String × NameTable :=
  let run := story.resolve
  (do
    let resolution ← run.outcome
    (resolution.scopes.dump run.names).mapError .fault, run.names)

/-- The error of a story that has one, and the names afterwards. A story that resolves
is a fault that shows its scopes. -/
def expectError (story : Story) : Except Fault SemanticError × NameTable :=
  let (shown, names) := story.dump
  (match shown with
    | .ok dump => .error (.unexpectedSuccess dump)
    | .error (.error error) => .ok error
    | .error (.fault fault) => .error fault, names)

/-- The type of a text as seen from the scope of a node. A text without a name has no
type, and gets no name by being asked for. -/
def typeAt (story : Story) (resolution : Resolution) (node : NodeId) (text : String) :
    Except Fault (Option Ty) :=
  match story.names.get? text with
  | none => .ok none
  | some name => (resolution.lookupAt node name).map (·.map Symbol.ty)

/-- The type of a text in the scope of the whole story. -/
def rootType (story : Story) (resolution : Resolution) (text : String) :
    Except Fault (Option Ty) :=
  story.typeAt resolution story.tree.root text

end Story
end ScopeTyping
