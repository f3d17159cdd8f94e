/-
# Arguments of the command line

A command takes flags, options with a value, and operands, in any order. An option's value is the
next argument or stands after an equals sign; an argument that starts with a hyphen is no value and
no operand, unless it is a lone hyphen or follows `--`. Nothing may be given twice, and whatever
does not fit is an error of use. Help is shown as soon as it is asked for, if nothing before is an
error, and whatever follows.

Key definitions: `Invocation`, `GivenArguments`, `GivenArguments.ofList`, `Invocation.ofList?`.
-/
import LanInference.CommandLine.Form

namespace LanInference

/-- What the user asks for. -/
inductive Invocation where
  /-- Browse the network, for so many seconds if they are given. -/
  | discover (userInitiated : Bool) (seconds : Option Nat)
  | chat (endpoint : Option String) (provider : Provider) (model : String)
      (token system : Option String) (message : String)
  | pull (endpoint name : String)
  /-- Show the partial responses, and clear them if asked to. -/
  | recover (clear : Bool)
  | help (topic : Topic)
  | version
  deriving Repr, DecidableEq

/-- Why arguments are not read to their end. -/
inductive ArgumentStop where
  | misuse
  | helpWanted
  deriving Repr, DecidableEq

/-- The arguments of a command, sorted out. -/
structure GivenArguments where
  flags : List String := []
  options : List (String × String) := []
  operands : List String := []
  /-- The option that the next argument is the value of. -/
  awaiting : Option OptionForm := none
  /-- Whether only operands follow. -/
  onlyOperands : Bool := false

/-- Whether an argument starts with a hyphen and is more than one. -/
def isHyphened (arg : String) : Bool :=
  match arg.toList with
  | '-' :: _ :: _ => true
  | _ => false

/-- Whether an argument asks for help: by its long name, or as the first of several letters. -/
def asksForHelp (arg : String) : Bool := arg == "--help" || "-h".toList.isPrefixOf arg.toList

def asksForVersion (arg : String) : Bool :=
  arg == "--version" || "-V".toList.isPrefixOf arg.toList

namespace GivenArguments

def option? (g : GivenArguments) (name : String) : Option String :=
  (g.options.find? (·.1 = name)).map (·.2)

/-- An option with its value, unless it was given before or does not take it. -/
def give (g : GivenArguments) (o : OptionForm) (value : String) :
    Except ArgumentStop GivenArguments :=
  if (g.option? o.name).isSome || !o.accepts value then .error .misuse
  else .ok { g with options := g.options ++ [(o.name, value)], awaiting := none }

/-- An argument that names an option: a flag, or an option with its value behind an equals sign or
in the next argument. -/
def pushOption (form : CommandForm) (g : GivenArguments) (arg : String) :
    Except ArgumentStop GivenArguments :=
  let name := String.ofList (arg.toList.takeWhile (· ≠ '='))
  match form.options.find? (·.name = name), arg.toList.dropWhile (· ≠ '=') with
  | none, _ => .error .misuse
  | some o, _ :: value =>
    if o.value.isSome then g.give o (String.ofList value) else .error .misuse
  | some o, [] =>
    if o.value.isSome then .ok { g with awaiting := some o }
    else if g.flags.contains arg then .error .misuse
    else .ok { g with flags := g.flags ++ [arg] }

/-- The next argument of a command of this form. -/
def push (form : CommandForm) (g : GivenArguments) (arg : String) :
    Except ArgumentStop GivenArguments :=
  match g.awaiting with
  | some o => if isHyphened arg then .error .misuse else g.give o arg
  | none =>
    if g.onlyOperands ∨ ¬ isHyphened arg then
      if g.operands.length < form.operands.length then
        .ok { g with operands := g.operands ++ [arg] }
      else .error .misuse
    else if arg = "--" then .ok { g with onlyOperands := true }
    else if asksForHelp arg then .error .helpWanted
    else g.pushOption form arg

/-- Whether everything is given that has to be. -/
def isComplete (form : CommandForm) (g : GivenArguments) : Bool :=
  g.awaiting.isNone && g.operands.length == form.operands.length &&
    form.options.all fun o => !o.isRequired || (g.option? o.name).isSome

/-- The arguments of a command of this form. -/
def ofList (form : CommandForm) (args : List String) : Except ArgumentStop GivenArguments := do
  let g ← args.foldlM (push form) {}
  if g.isComplete form then return g else .error .misuse

end GivenArguments

namespace Invocation

/-- What the arguments of a command ask for. A token that the environment holds stands in for one
that is not given. -/
def ofArguments? (environmentToken : Option String) (g : GivenArguments) :
    CommandName → Option Invocation
  | .discover =>
    some (.discover (g.flags.contains "--user-initiated")
      ((g.option? "--duration").bind CommandName.seconds?))
  | .chat => do
    let provider ← Provider.ofName? ((g.option? "--provider").getD Provider.ollama.name)
    return .chat (g.option? "--endpoint") provider (← g.option? "--model")
      (g.option? "--token" <|> environmentToken) (g.option? "--system") (← g.operands.head?)
  | .pull => do return .pull (← g.option? "--endpoint") (← g.operands.head?)
  | .recover => some (.recover (g.flags.contains "--clear"))

/-- The topic that is named behind `help`. -/
def topic? : List String → Option Topic
  | [] => some .program
  | [name] => if name = "help" then some .help else (CommandName.ofName? name).map .command
  | _ => none

/-- What the arguments ask for, unless they are an error of use. -/
def ofList? (environmentToken : Option String) : List String → Option Invocation
  | [] => none
  | first :: args =>
    if asksForHelp first then some (.help .program)
    else if asksForVersion first then some .version
    else if first = "help" then (topic? args).map .help
    else do
      let c ← CommandName.ofName? first
      match GivenArguments.ofList c.form args with
      | .ok g => ofArguments? environmentToken g c
      | .error .helpWanted => some (.help (.command c))
      | .error .misuse => none

end Invocation
end LanInference
