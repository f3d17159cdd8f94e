/-
# The program

Reads the environment, the settings file and the recovery directory, runs the command that the
arguments ask for, and carries out what it left in the directory. There is no network here: a stream
gets no answer.
-/
import LanInference.CommandLine.Commands

namespace LanInference
namespace Program

/-- The variables that the program looks at. -/
def variableNames : List String :=
  ["HOME", "XDG_STATE_HOME", "LANLINK_SERVICE_TYPE", "LANLINK_MIN_POLL_SECS",
    "LANLINK_RECOVERY_DIR", "LANLINK_LOG", "LANLINK_TOKEN"]

def readEnvironment : IO Environment := do
  let set ← variableNames.filterMapM fun name => return (← IO.getEnv name).map (name, ·)
  return (OrderedMap.ofList set).get?

/-- The first of the files that exists. -/
def findFile : List String → IO (Option Settings.File)
  | [] => return none
  | path :: rest => do
    try
      return some (.bytes (← IO.FS.readBinFile path).toList)
    catch
      | .noFileOrDirectory .. => findFile rest
      | _ => return some .unreadable

def readDirectory (path : String) : IO Directory := do
  try
    let found ← ((← IO.currentDir) / path).readDir
    let entries ← found.toList.mapM fun e => do
      try
        return (e.fileName, DirectoryEntry.file (← IO.FS.readBinFile e.path).toList)
      catch _ => return (e.fileName, DirectoryEntry.folder)
    return ⟨some (OrderedMap.ofList entries)⟩
  catch _ => return .missing

/-- Makes a directory what a command has left it as. -/
def writeDirectory (path : String) (before after : Directory) : IO Unit := do
  if before.entries?.isNone && after.entries?.isSome then IO.FS.createDirAll path
  for name in before.names do
    if (after.find? name).isNone then IO.FS.removeFile (joinPath path name)
  for name in after.names do
    match after.find? name with
    | some (.file bytes) =>
      if before.find? name ≠ some (.file bytes) then
        IO.FS.writeBinFile (joinPath path name) ⟨bytes.toArray⟩
    | _ => pure ()

/-- A new session id: random, with the marks of its kind. -/
def newId : IO SessionId := do
  let words ← (List.range 4).mapM fun _ => IO.rand 0 (UInt32.size - 1)
  let n := words.foldl (fun n w => n * UInt32.size + w) 0
  let version := 0xF <<< 76
  let kind := 0x3 <<< 62
  return ⟨(BitVec.ofNat 128 n &&& ~~~ BitVec.ofNat 128 (version ||| kind)) |||
    BitVec.ofNat 128 (0x4 <<< 76 ||| 0x2 <<< 62)⟩

end Program
end LanInference

open LanInference in
def main (args : List String) : IO UInt32 := do
  let env ← Program.readEnvironment
  match Invocation.ofList? (env "LANLINK_TOKEN") args with
  | none =>
    IO.eprintln "usage: lanlink discover | chat | pull | recover"
    return 2
  | some i =>
    let settings := Settings.load env (← Program.findFile (Settings.paths env))
    let directory ← Program.readDirectory settings.recoveryDir
    let (o, after) := runCommand
      { settings, directory, newId := ← Program.newId,
        script := { reply := .unsent "no network" } } i
    Program.writeDirectory settings.recoveryDir directory after
    IO.print o.out
    IO.eprint o.err
    return UInt32.ofNat o.code
