import CilLint.CommandLine.Arguments
import CilLint.Config.Reader
import CilLint.FileTree
import CilLint.Manifest.Load
import CilLint.Render.Pretty

/-!
# Running commands

What a command does, as a function of the files it finds and the time it takes: what it prints, and
the status it ends with. The configuration is checked before the rules that are left out, and those
before the input is loaded, so the first of several errors is reported.
-/

namespace CilLint.CommandLine

/-- Why a command could not be run. -/
inductive RunError where
  | config (cause : ConfigError)
  | unreadableConfig (path : String)
  | unknownRule (id : String)
  | missingInput (path : String) (cause : FileTree.Missing)
  | noManifests (path : String)
  | unreadableManifest (path : String)

/-- The text of an error. -/
def RunError.message : RunError → String
  | .config cause => cause.message
  | .unreadableConfig path => "failed to parse config " ++ path
  | .unknownRule id => "unknown rule id " ++ Text.quote id
  | .missingInput path cause => "IO error for operation on " ++ path ++ ": " ++ cause.message
  | .noManifests path => "no module manifests found under " ++ path
  | .unreadableManifest path => "failed to load manifest " ++ path

/-! ### Configurations -/

/-- The names of configuration files, in the order in which they are tried. -/
def configNames : List String := ["storycheck.yaml", ".storycheck.yaml", "story.yaml"]

/-- The configuration file in a directory. -/
def discover? (files : FileTree) (directory : String) : Option String :=
  (configNames.map (Path.join directory)).find? files.isFile

/-- The configuration file for an input: the one that is asked for, or else one beside the input or
in the current directory. -/
def configPath? (files : FileTree) (input : Input) : Option String :=
  match input.config with
  | some path => some path
  | none =>
    let directory :=
      if files.isDirectory input.path then input.path else (Path.parent? input.path).getD "."
    (discover? files directory).or (discover? files ".")

/-- The configuration in a file. -/
def readConfig (files : FileTree) (path : String) : Except RunError Config :=
  match ((files.textAt? path).bind Yaml.parse?).map Config.read with
  | some (.ok config) => .ok config
  | _ => .error (.unreadableConfig path)

/-- Refuses a configuration with errors. -/
def checkConfig (config : Config) : Except RunError Unit := config.check.mapError .config

/-- The configuration for an input. -/
def loadConfig (files : FileTree) (input : Input) : Except RunError Config := do
  let config ← match configPath? files input with
    | some path => readConfig files path
    | none => pure {}
  checkConfig config
  return config

/-! ### Modules -/

/-- The extensions of manifests. -/
def manifestExtensions : List String := ["yaml", "yml", "json"]

/-- Whether a file in a directory is a manifest. -/
def isManifest (path : String) : Bool :=
  !configNames.contains (Path.fileName path) &&
    (Path.extension? path).any manifestExtensions.contains

/-- The paths and texts of the manifests of an input. A file that is asked for by its path counts,
whatever its name. -/
def manifests (files : FileTree) (path : String) : Except RunError (List (String × String)) :=
  match files.find path with
  | .error cause => .error (.missingInput path cause)
  | .ok (.file text) => .ok [(path, text)]
  | .ok tree => .ok ((tree.walk path).filter fun (p, _) => isManifest p)

/-- **The modules of an input.** -/
def loadModules (files : FileTree) (path : String) : Except RunError (List Module) := do
  let found ← manifests files path
  if found.isEmpty then throw (.noManifests path)
  found.mapM fun (p, text) =>
    match Module.ofFile? p text with
    | some m => .ok m
    | none => .error (.unreadableManifest p)

/-! ### Commands -/

/-- What a command prints, and the status it ends with. -/
structure Outcome where
  output : String
  status : Nat
  deriving Repr

/-- The status of a command that found something it was asked to fail on. -/
def failedStatus : Nat := 1

/-- The status of a command that could not be run. -/
def errorStatus : Nat := 2

/-- The validator for an input. -/
def validatorFor (config : Config) (input : Input) : Except RunError Validator := do
  let disabled := config.disabled ++ input.disabled
  match disabled.find? fun id => !Registry.builtin.contains id with
  | some id => throw (.unknownRule id)
  | none =>
    let filter ← config.moduleFilter.mapError RunError.config
    return { eligible := filter.admits, disabled, weights := config.scoring }

/-- A command whose input is loaded, so that nothing can go wrong any more. -/
inductive Prepared where
  | validate (input : Input) (failOnViolations : Bool) (validator : Validator)
      (modules : List Module)
  | stress (input : Input) (strict : Bool) (validator : Validator) (plan : Stress.Plan)
      (modules : List Module)
  | rules

/-- Prepares the validation of an input. -/
def prepareValidate (files : FileTree) (input : Input) (failOnViolations : Bool) :
    Except RunError Prepared := do
  let config ← loadConfig files input
  let validator ← validatorFor config input
  let modules ← loadModules files input.path
  return .validate input failOnViolations validator modules

/-- Prepares a stress run on an input. -/
def prepareStress (files : FileTree) (input : Input) (batches iterations : Option Nat)
    (strict : Bool) : Except RunError Prepared := do
  let config ← loadConfig files input
  let plan := { config.stress with
    batches := batches.getD config.stress.batches
    iterations := iterations.getD config.stress.iterations }
  checkConfig { config with stress := plan }
  let validator ← validatorFor config input
  let modules ← loadModules files input.path
  return .stress input strict validator plan modules

/-- Loads what a command needs. -/
def prepare (files : FileTree) : Command → Except RunError Prepared
  | .validate input failOnViolations => prepareValidate files input failOnViolations
  | .stress input batches iterations strict => prepareStress files input batches iterations strict
  | .rules => .ok .rules

/-- How a validation ends, which had this report and took this long. -/
def validateOutcome (colored : Bool) (elapsed : Duration) (input : Input) (failOnViolations : Bool)
    (report : Report) : Outcome :=
  let output := match input.format with
    | .pretty => Render.reportPretty colored input.path elapsed report
    | .json => Render.reportJson input.path elapsed report ++ "\n"
  ⟨output, if failOnViolations && report.failed then failedStatus else 0⟩

/-- How a stress run with a result ends. -/
def stressOutcome (colored : Bool) (input : Input) (strict : Bool) (result : Stress.Result) :
    Outcome :=
  let output := match input.format with
    | .pretty => Render.stressPretty colored input.path result
    | .json => Render.stressJson input.path result ++ "\n"
  ⟨output, if strict && !result.isHealthy then failedStatus else 0⟩

/-- Lists the built-in rules. -/
def listRules : String :=
  String.join (Registry.builtin.rules.map fun r =>
    Render.padRight 24 r.id ++ " " ++ r.description ++ "\n")

/-- How a prepared command ends, if its work takes this long. -/
def Prepared.outcome (colored : Bool) (timing : Stress.Timing) : Prepared → Outcome
  | .validate input failOnViolations validator modules =>
    validateOutcome colored timing.wallClock input failOnViolations
      (validator.validate (.ofModules modules))
  | .stress input strict validator plan modules =>
    stressOutcome colored input strict (Stress.run validator plan timing (.ofModules modules))
  | .rules => ⟨listRules, 0⟩

/-- **Runs a command** on some files. -/
def run (files : FileTree) (colored : Bool) (timing : Stress.Timing) (command : Command) :
    Except RunError Outcome :=
  (prepare files command).map (Prepared.outcome colored timing)

end CilLint.CommandLine
