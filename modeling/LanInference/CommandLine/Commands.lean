/-
# The commands

A chat or a pull opens one stream over the recovery store and shows it; recovery shows what streams
before it have left in the store, each entry on a line as its id, a tab and its text in JSON.

Key definitions: `apiBase`, `streamCommand`, `recoverCommand`, `Surroundings`, `runCommand`.
-/
import LanInference.CommandLine.Arguments
import LanInference.CommandLine.Outcome
import LanInference.Json.Write
import LanInference.Net.Url
import LanInference.Recovery.FileStore
import LanInference.Settings.Basic
import LanInference.Stream.Ingest
import LanInference.Stream.Request

namespace LanInference

/-- The base URL of a provider's interface: below the endpoint given, or a hosted one. -/
def apiBase (s : Settings) (p : Provider) : Option String → Except CommandError String
  | none =>
    match p with
    | .ollama => .error .endpointRequired
    | .openAi => .ok s.openAiBaseUrl
    | .openRouter => .ok s.openRouterBaseUrl
  | some endpoint =>
    match Url.read endpoint with
    | .web u => .ok (p.apiBase u.text)
    | .other => .error (.notWebEndpoint endpoint)
    | .invalid => .error (.invalidEndpoint endpoint)

section
variable {σ : Type} [RecoveryStore σ]

/-- A stream is opened and shown, with all that its script brings. An interruption after that keeps
what came so far. -/
def streamCommand (store : σ) (r : StreamRequest) (script : Script) (interrupted : Bool) :
    Outcome × σ :=
  let (events, store) := ingest store r.session script
  let o := Outcome.ofEvents r.id events
  if interrupted ∧ ¬ events.any Event.isTerminal then
    ({ o with err := o.err ++ "\ninterrupted; partial response kept as " ++ r.id.text ++
        " (see \x60lanlink recover\x60)\n" }, store)
  else (o, store)

/-- The line of an entry. -/
def entryLine (id text : String) : String :=
  id ++ "\t" ++ Json.Node.text (.ofString text) ++ "\n"

/-- Entries are shown one after the other, and each is cleared after it is shown. -/
def showEntries (clear : Bool) (store : σ) (o : Outcome) : List (String × String) → Outcome × σ
  | [] => (o, store)
  | (id, text) :: rest =>
    let o := { o with out := o.out ++ entryLine id text }
    if clear then
      match RecoveryStore.remove store id with
      | (store, .ok ()) => showEntries clear store o rest
      | (store, .error e) => (o.fail (.recovery e), store)
    else showEntries clear store o rest

/-- The partial responses of a store are shown, or the first error in reading them. -/
def recoverCommand (dir : String) (clear : Bool) (store : σ) : Outcome × σ :=
  match recoverPartialResponses store with
  | .error e => (Outcome.fail {} (.recovery e), store)
  | .ok pending =>
    let o : Outcome :=
      if pending.entries = [] then { err := "no partial responses in " ++ dir ++ "\n" } else {}
    showEntries clear store o pending.entries

end

/-- What a run of the program meets. -/
structure Surroundings where
  settings : Settings
  /-- The directory that the settings keep partial responses in. -/
  directory : Directory
  /-- The id of the next session. -/
  newId : SessionId
  /-- What a server answers, if it is asked. -/
  script : Script
  reachable : Bool := true
  /-- Whether the program is told to stop once it has shown what the script brings. -/
  interrupted : Bool := false

namespace Surroundings

/-- The stream that a command opens, if it opens one: its request, or why there is none. -/
def request? (w : Surroundings) : Invocation → Option (Except CommandError StreamRequest)
  | .chat endpoint provider model token system message =>
    let messages := (system.map (ChatMessage.mk .system)).toList ++ [⟨.user, message⟩]
    some ((apiBase w.settings provider endpoint).map fun base =>
      { id := w.newId, kind := .chat provider model messages, apiBase := base, token })
  | .pull endpoint name =>
    some ((apiBase w.settings .ollama (some endpoint)).map fun base =>
      { id := w.newId, kind := .pull name, apiBase := base })
  | _ => none

/-- A stream over the recovery directory. A request that cannot be sent gets no answer. -/
def stream (w : Surroundings) (r : StreamRequest) : Outcome × Directory :=
  let script := if r.http?.isSome ∧ w.reachable then w.script
    else { w.script with reply := .unsent "" }
  let (o, store) := streamCommand (FileStore.openIn w.directory) r script w.interrupted
  (o, store.directory)

end Surroundings

/-- What a command shows, and the directory after it. Browsing shows nothing here: what it brings is
known to a network only. Help and the version leave the directory as it is. -/
def runCommand (w : Surroundings) (i : Invocation) : Outcome × Directory :=
  match w.request? i, i with
  | some (.ok r), _ => w.stream r
  | some (.error e), _ => (Outcome.fail {} e, w.directory)
  | none, .recover clear =>
    let (o, store) := recoverCommand w.settings.recoveryDir clear (FileStore.openIn w.directory)
    (o, store.directory)
  | none, .help topic => ({ out := topic.page }, w.directory)
  | none, .version => ({ out := versionLine }, w.directory)
  | none, _ => ({}, w.directory)

end LanInference
