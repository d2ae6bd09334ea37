import CilLint.CommandLine.Run

/-!
# The program

Reads the files that a command needs, runs it, and prints what it has to say. If the input is not a
file it is a directory, and the paths of the files in it are read from standard input, one on a line.
-/

namespace CilLint.CommandLine

/-- What is printed when a command line asks for nothing that can be run. -/
def usage : String :=
  "usage: storycheck [-v] validate|stress PATH [OPTIONS]\n       storycheck [-v] rules\n"

/-- The input of a command. -/
def Command.input? : Command → Option Input
  | .validate input _ => some input
  | .stress input _ _ _ => some input
  | .rules => none

/-- The paths of the configuration files that a command may look for. -/
def Command.configPaths (command : Command) : List String :=
  match command.input? with
  | none => []
  | some input =>
    input.config.toList ++
      [input.path, (Path.parent? input.path).getD ".", "."].flatMap fun directory =>
        configNames.map (Path.join directory)

/-- The text of a file, if it can be read. -/
def readText? (path : String) : IO (Option String) := do
  try return some (← IO.FS.readFile path) catch _ => return none

/-- A tree with the files of those paths that can be read. -/
def readFiles (tree : FileTree) (paths : List String) : IO FileTree :=
  paths.foldlM (fun tree path => do
    match ← readText? path with
    | some text => return tree.addFile path text
    | none => return tree) tree

/-- The lines of standard input. -/
partial def readLines (input : IO.FS.Stream) : IO (List String) := do
  let line ← input.getLine
  if line.isEmpty then return []
  return line.trimAsciiEnd.toString :: (← readLines input)

/-- The files that a command needs. -/
def readNeeded (command : Command) : IO FileTree := do
  match command.input? with
  | none => return .empty
  | some input =>
    let tree ← readFiles .empty (input.path :: command.configPaths)
    if tree.isFile input.path then return tree
    readFiles tree (← readLines (← IO.getStdin))

/-- What some work gives, and how long it took. -/
def timed {α : Type} (work : Unit → α) : IO (α × Duration) := do
  let start ← IO.monoNanosNow
  let result ← IO.lazyPure work
  return (result, ⟨(← IO.monoNanosNow) - start⟩)

/-- How long the actors of a stress run take, if they work one after another. -/
def timeActors (v : Validator) (plan : Stress.Plan) (t : SymbolTable) : IO Stress.Timing := do
  -- What all actors share is there before the clock starts.
  let ctx ← IO.lazyPure fun _ => v.context t
  let symbols ← IO.lazyPure fun _ => v.eligibleSymbols t
  let start ← IO.monoNanosNow
  let times ← (List.range plan.batches).mapM fun batch =>
    v.activeRules.zipIdx.mapM fun (rule, actor) => do
      let untimed : Stress.Timing := ⟨{}, fun _ _ => {}⟩
      let (_, elapsed) ← timed fun _ => Stress.runActor plan untimed ctx symbols batch actor rule
      return elapsed
  let wallClock : Duration := ⟨(← IO.monoNanosNow) - start⟩
  return ⟨wallClock, fun batch actor => (times[batch]?.bind fun ts => ts[actor]?).getD {}⟩

/-- Does the work of a prepared command. The time that a report shows is that of the pass, without the
time it took to read the files. -/
def Prepared.perform (colored : Bool) : Prepared → IO Outcome
  | .validate input failOnViolations validator modules => do
    let (report, elapsed) ← timed fun _ => validator.validate (.ofModules modules)
    return validateOutcome colored elapsed input failOnViolations report
  | .stress input strict validator plan modules => do
    let table := SymbolTable.ofModules modules
    let timing ← timeActors validator plan table
    return stressOutcome colored input strict (Stress.run validator plan timing table)
  | .rules => return ⟨listRules, 0⟩

/-- Runs a command and says how it ended. -/
def execute (command : Command) : IO UInt32 := do
  match prepare (← readNeeded command) command with
  | .ok prepared =>
    let outcome ← prepared.perform false
    IO.print outcome.output
    return outcome.status.toUInt32
  | .error e =>
    IO.eprintln ("Error: " ++ e.message)
    return errorStatus.toUInt32

end CilLint.CommandLine

/-- Runs the command that the arguments ask for. -/
def main (arguments : List String) : IO UInt32 := do
  match CilLint.CommandLine.parse arguments with
  | .ok invocation => CilLint.CommandLine.execute invocation.command
  | .error .version =>
    IO.println ("storycheck " ++ CilLint.Render.version)
    return 0
  | .error stop =>
    IO.print CilLint.CommandLine.usage
    return stop.exitStatus.toUInt32
