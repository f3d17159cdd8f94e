/-
# JSON texts as trees

A `Node` is a JSON text read as far as its grammar goes: members in their order, duplicates kept,
numbers and strings as written. The tokens are read by a machine with a stack of containers, so
no depth of nesting is out of reach; `Node.tokens` writes the tree back as tokens.

Key definitions: `Node`, `Frame`, `State`, `State.step`, `Node.ofTokens?`, `Node.parse?`,
`Node.tokens`.
-/
import LanInference.Json.Token

namespace LanInference
namespace Json

inductive Node where
  | null
  | bool (b : Bool)
  | number (n : Literal)
  | string (ps : List Piece)
  | array (xs : List Node)
  | object (ms : List (List Piece × Node))
  deriving Repr, Inhabited

/-- A container part way through: what it holds so far, the newest first, and for an object the
key whose value is being read. -/
inductive Frame where
  | array (done : List Node)
  | object (done : List (List Piece × Node)) (key : List Piece)
  deriving Repr

/-- What the machine waits for. `value` and `key` say whether the container may close instead. -/
inductive State where
  | value (mayClose : Bool) (stack : List Frame)
  | key (mayClose : Bool) (done : List (List Piece × Node)) (stack : List Frame)
  | colon (done : List (List Piece × Node)) (key : List Piece) (stack : List Frame)
  | complete (node : Node) (stack : List Frame)
  deriving Repr

namespace State

/-- A token where a value may stand. -/
def onValue (mayClose : Bool) (stack : List Frame) : Token → Option State
  | .null => some (.complete .null stack)
  | .bool b => some (.complete (.bool b) stack)
  | .number n => some (.complete (.number n) stack)
  | .string ps => some (.complete (.string ps) stack)
  | .openArray => some (.value true (.array [] :: stack))
  | .openObject => some (.key true [] stack)
  | .closeArray =>
    match mayClose, stack with
    | true, .array done :: stack => some (.complete (.array done.reverse) stack)
    | _, _ => none
  | _ => none

/-- A token after a value. -/
def onComplete (node : Node) : List Frame → Token → Option State
  | .array done :: stack, .comma => some (.value false (.array (node :: done) :: stack))
  | .array done :: stack, .closeArray => some (.complete (.array (node :: done).reverse) stack)
  | .object done k :: stack, .comma => some (.key false ((k, node) :: done) stack)
  | .object done k :: stack, .closeObject =>
    some (.complete (.object ((k, node) :: done).reverse) stack)
  | _, _ => none

def step : State → Token → Option State
  | .value mayClose stack, t => onValue mayClose stack t
  | .key _ done stack, .string ps => some (.colon done ps stack)
  | .key true done stack, .closeObject => some (.complete (.object done.reverse) stack)
  | .colon done k stack, .colon => some (.value false (.object done k :: stack))
  | .complete node stack, t => onComplete node stack t
  | _, _ => none

/-- The machine over all of the tokens. -/
def run (s : State) (ts : List Token) : Option State := ts.foldlM step s

theorem run_append (s : State) (ts us : List Token) :
    s.run (ts ++ us) = (s.run ts).bind fun s => s.run us := by
  simp only [run, List.foldlM_append]
  rfl

end State

namespace Node

/-- The tree whose tokens these are. -/
def ofTokens? (ts : List Token) : Option Node :=
  match (State.value false []).run ts with
  | some (.complete node []) => some node
  | _ => none

/-- The tree of a JSON text. -/
def parse? (cs : List Char) : Option Node := (tokens? cs).bind ofTokens?

mutual

/-- The tokens of a tree. -/
def tokens : Node → List Token
  | .null => [.null]
  | .bool b => [.bool b]
  | .number n => [.number n]
  | .string ps => [.string ps]
  | .array xs => .openArray :: (itemTokens xs ++ [.closeArray])
  | .object ms => .openObject :: (memberTokens ms ++ [.closeObject])

/-- The tokens of an array's items, with commas between them. -/
def itemTokens : List Node → List Token
  | [] => []
  | [x] => tokens x
  | x :: y :: xs => tokens x ++ .comma :: itemTokens (y :: xs)

/-- The tokens of an object's members, with commas between them. -/
def memberTokens : List (List Piece × Node) → List Token
  | [] => []
  | [(k, x)] => .string k :: .colon :: tokens x
  | (k, x) :: m :: ms => .string k :: .colon :: (tokens x ++ .comma :: memberTokens (m :: ms))

end

end Node
end Json
end LanInference
