/-
# What the program shows

Text of a stream goes to the output as it comes, progress to the error output, one line for each
report. A stream that is done ends its text with a newline and is a success; an error ends the text
too, and is reported after it.

Key definitions: `Outcome`, `CommandError`, `Progress.percent?`, `Progress.line`,
`Outcome.ofEvents`.
-/
import LanInference.Event
import LanInference.Recovery.Store
import LanInference.SessionId
import LanInference.Text.Digits

namespace LanInference

/-- What a run of the program leaves behind for who started it. -/
structure Outcome where
  code : Nat := 0
  out : String := ""
  err : String := ""
  deriving Repr, DecidableEq

/-- Why a command fails. -/
inductive CommandError where
  /-- A chat on the local network needs to be told where. -/
  | endpointRequired
  | invalidEndpoint (endpoint : String)
  /-- A URL, but not one of a web server. -/
  | notWebEndpoint (endpoint : String)
  | recovery (e : RecoveryError)
  | stream (id : SessionId) (e : StreamError)
  deriving Repr, DecidableEq

namespace CommandError

def message : CommandError → String
  | endpointRequired => "--endpoint is required for ollama"
  | invalidEndpoint endpoint => "invalid endpoint " ++ endpoint
  | notWebEndpoint endpoint => "endpoint must be an http(s) URL with a host: " ++ endpoint
  | recovery e => e.message
  | stream id e => "stream " ++ id.text ++ " failed: " ++ e.message

/-- What lies behind an error, if that is said apart. -/
def cause? : CommandError → Option String
  | invalidEndpoint _ => some "not a well-formed URL"
  | _ => none

end CommandError

namespace Progress

/-- The share that is completed, in percent, where a total is known. It is computed in words of 64
bits. -/
def percent? (p : Progress) : Option UInt64 :=
  match p.completed, p.total with
  | some done, some total => if 0 < total then some (done * 100 / total) else none
  | _, _ => none

/-- The line of a report: its status, and the share in at least three places. -/
def line (p : Progress) : String :=
  match p.percent? with
  | some n =>
    let digits := Text.decimal n.toNat
    p.status ++ " " ++ String.ofList (List.replicate (3 - digits.length) ' ' ++ digits) ++ "%"
  | none => p.status

end Progress

namespace Outcome

/-- The outcome with an error at its end. -/
def fail (o : Outcome) (e : CommandError) : Outcome :=
  let cause := match e.cause? with
    | some c => "\n\nCaused by:\n    " ++ c
    | none => ""
  { o with code := 1, err := o.err ++ "Error: " ++ e.message ++ cause ++ "\n" }

/-- What is shown of the events of a stream, after what was shown before. -/
def showEvents (id : SessionId) (o : Outcome) : List Event → Outcome
  | [] => o
  | .delta text :: es => showEvents id { o with out := o.out ++ text } es
  | .progress p :: es => showEvents id { o with err := o.err ++ p.line ++ "\n" } es
  | .done :: _ => { o with out := o.out ++ "\n" }
  | .error e :: _ => { o with out := o.out ++ "\n" }.fail (.stream id e)

def ofEvents (id : SessionId) (es : List Event) : Outcome := showEvents id {} es

end Outcome
end LanInference
