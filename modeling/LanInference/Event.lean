/-
# Events of a stream

What a chat or pull stream tells its reader: pieces of text, progress, and one terminal event,
after which nothing follows.

Key definitions: `StreamError`, `StreamError.message`, `Progress`, `Event`, `Event.isTerminal`,
`throughTerminal`, `deltaText`.
-/

namespace LanInference

/-- Why a stream ended in error. -/
inductive StreamError where
  /-- The server could not be reached, or the connection broke. -/
  | transport (reason : String)
  /-- The server answered with a status that is not a success. -/
  | status (code : UInt16)
  /-- The body of the answer reported an error. -/
  | provider (message : String)
  deriving Repr, DecidableEq

namespace StreamError

def message : StreamError → String
  | transport reason => "transport error: " ++ reason
  | status code => "unexpected HTTP status " ++ Nat.repr code.toNat
  | provider message => "provider error: " ++ message

end StreamError

/-- A step of a pull. -/
structure Progress where
  status : String
  digest : Option String := none
  total : Option UInt64 := none
  completed : Option UInt64 := none
  deriving Repr, DecidableEq

inductive Event where
  | delta (text : String)
  | progress (p : Progress)
  | done
  | error (e : StreamError)
  deriving Repr, DecidableEq

namespace Event

/-- `done` and `error` end a stream. -/
def isTerminal : Event → Bool
  | done => true
  | error _ => true
  | _ => false

end Event

/-- The events up to and including the first terminal one. -/
def throughTerminal : List Event → List Event
  | [] => []
  | e :: es => if e.isTerminal then [e] else e :: throughTerminal es

/-- The texts of the deltas, joined. -/
def deltaText (es : List Event) : String :=
  es.foldl (fun s e => match e with | .delta t => s ++ t | _ => s) ""

end LanInference
