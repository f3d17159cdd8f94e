/-
# Forms of the commands

Each command has a form: what it is about, its options, flags among them, and its operands. A help
page is the form written out: what the command is about, how it is used, and in each section a row
for each thing, in two columns.

Key definitions: `OptionForm`, `CommandForm`, `CommandName.form`, `Topic.page`, `versionLine`.
-/
import LanInference.Chat
import LanInference.Text.Digits

namespace LanInference

/-- An option of a command. -/
structure OptionForm where
  name : String
  /-- What its value is called. A flag has none. -/
  value : Option String := none
  about : String := ""
  isRequired : Bool := false
  /-- Which values it takes. -/
  accepts : String → Bool := fun _ => true

structure CommandForm where
  name : String
  about : String
  options : List OptionForm
  /-- What the operands are called. All of them have to be given. -/
  operands : List String := []

inductive CommandName where
  | discover
  | chat
  | pull
  | recover
  deriving Repr, DecidableEq

namespace CommandName

def all : List CommandName := [discover, chat, pull, recover]

/-- How many seconds a text says. -/
def seconds? (s : String) : Option Nat := Text.natural? UInt64.size s.toList

def form : CommandName → CommandForm
  | discover => {
      name := "discover"
      about := "Browse the LAN and print validated endpoints as JSON snapshots"
      options := [
        { name := "--user-initiated"
          about := "Treat the scan as user-initiated " ++
            "(clears the set, ignores background suppression)" },
        { name := "--duration", value := "SECS"
          about := "Stop after this many seconds instead of waiting for Ctrl-C"
          accepts := fun s => (seconds? s).isSome }] }
  | chat => {
      name := "chat"
      about := "Stream a chat completion to stdout"
      options := [
        { name := "--endpoint", value := "ENDPOINT"
          about := "Server base URL, e.g. http://192.168.1.20:11434. " ++
            "Defaults to the provider's hosted API" },
        { name := "--provider", value := "PROVIDER"
          about := "[default: " ++ Provider.ollama.name ++ "]"
          accepts := fun s => (Provider.ofName? s).isSome },
        { name := "--model", value := "MODEL", isRequired := true },
        { name := "--token", value := "TOKEN", about := "[env: LANLINK_TOKEN]" },
        { name := "--system", value := "SYSTEM" }]
      operands := ["MESSAGE"] }
  | pull => {
      name := "pull"
      about := "Pull a model on an Ollama server, printing progress"
      options := [{ name := "--endpoint", value := "ENDPOINT", isRequired := true }]
      operands := ["NAME"] }
  | recover => {
      name := "recover"
      about := "Print partial responses left behind by interrupted streams"
      options := [{ name := "--clear", about := "Delete the entries after printing them" }] }

/-- The name as it is given. -/
def text (c : CommandName) : String := c.form.name

def ofName? (s : String) : Option CommandName := all.find? (·.text = s)

end CommandName

/-! ### Help -/

/-- The name of a value in a help page. -/
def valueName (s : String) : String := "<" ++ s ++ ">"

namespace OptionForm

/-- An option as it is given. -/
def usage (o : OptionForm) : String :=
  match o.value with
  | some v => o.name ++ " " ++ valueName v
  | none => o.name

end OptionForm

namespace CommandForm

/-- How a command is used, with what has to be given. -/
def usage (f : CommandForm) : String :=
  let optional := if f.options.all OptionForm.isRequired then [] else ["[OPTIONS]"]
  let required := (f.options.filter OptionForm.isRequired).map OptionForm.usage
  " ".intercalate (f.name :: optional ++ required ++ f.operands.map valueName)

end CommandForm

/-- The rows of a section: the second column begins two blanks behind the longest text of the
first. -/
def helpRows (rows : List (String × String)) : String :=
  let width := (rows.map (·.1.length)).foldl max 0 + 2
  String.join (rows.map fun (left, right) =>
    "  " ++ left ++ String.ofList (List.replicate (width - left.length) ' ') ++ right ++ "\n")

/-- A page of help. Sections have a title and rows. -/
def helpPage (about usage : String) (sections : List (String × List (String × String))) : String :=
  about ++ "\n\nUsage: lanlink " ++ usage ++ "\n" ++
    String.join (sections.map fun (title, rows) => "\n" ++ title ++ ":\n" ++ helpRows rows)

/-- The row of the option that every command has. -/
def helpOption : String × String := ("-h, --help", "Print help")

/-- What there is help on. -/
inductive Topic where
  | program
  | command (c : CommandName)
  /-- The command that shows help. -/
  | help
  deriving Repr, DecidableEq

namespace Topic

def helpAbout : String := "Print this message or the help of the given subcommand(s)"

def page : Topic → String
  | program =>
    let commands := CommandName.all.map fun c => (c.text, c.form.about)
    helpPage "LanLink for Linux (mDNS discovery, endpoint validation, streaming chat client)"
      "<COMMAND>"
      [("Commands", commands ++ [("help", helpAbout)]),
        ("Options", [helpOption, ("-V, --version", "Print version")])]
  | command c =>
    let form := c.form
    let operands := form.operands.map fun v => (valueName v, "")
    let options := form.options.map fun o => ("    " ++ o.usage, o.about)
    helpPage form.about form.usage
      ((if operands = [] then [] else [("Arguments", operands)]) ++
        [("Options", options ++ [helpOption])])
  | help =>
    helpPage helpAbout "help [COMMAND]..."
      [("Arguments", [("[COMMAND]...", "Print help for the subcommand(s)")])]

end Topic

def versionLine : String := "lanlink 0.1.0\n"

end LanInference
