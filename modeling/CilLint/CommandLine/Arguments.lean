import CilLint.Text.Numeral
import CilLint.Text.Search

/-!
# Arguments

What the words of a command line ask for. Before the command stand flags that hold for all commands;
behind it stand the options of the command and the path of the input. A word that starts with a dash
is a flag or an option: a long one by itself, or a cluster of short ones. The value of an option is
attached to it or is the next word, unless that looks like a flag. After two dashes every word is
taken as it is.

A value is checked only when the next argument is understood or the words end, so a word that is not
understood at all is reported first.
-/

namespace CilLint.CommandLine

/-- How results are written. -/
inductive Format where
  | pretty | json
  deriving DecidableEq, Repr

/-- The format with a given name. -/
def Format.ofName? : String → Option Format
  | "pretty" => some .pretty
  | "json" => some .json
  | _ => none

/-- What commands that load modules share. -/
structure Input where
  path : String
  config : Option String := none
  format : Format := .pretty
  disabled : List String := []
  deriving DecidableEq, Repr

/-- What a command line asks for. -/
inductive Command where
  | validate (input : Input) (failOnViolations : Bool)
  | stress (input : Input) (batches iterations : Option Nat) (strict : Bool)
  | rules
  deriving DecidableEq, Repr

/-- A command, and how often more logging was asked for. -/
structure Invocation where
  verbose : Nat
  command : Command
  deriving DecidableEq, Repr

/-- Why a command line asks for nothing that can be run. -/
inductive Stop where
  | help
  | version
  /-- There are no words at all. -/
  | nothing
  | missingCommand
  | unknownCommand
  | unknownArgument
  | missingPath
  | badValue
  /-- A number is none, or too large. -/
  | badNumber
  /-- An argument that may stand only once stands again. -/
  | repeated
  /-- A flag has a value. -/
  | unexpectedValue
  deriving DecidableEq, Repr

/-- The exit status of a stop. -/
def Stop.exitStatus : Stop → Nat
  | .help | .version => 0
  | _ => 2

/-- The commands. -/
inductive CommandName where
  | validate | stress | rules
  deriving DecidableEq, Repr

/-- The command with a given name. -/
def CommandName.ofName? : String → Option CommandName
  | "validate" | "check" => some .validate
  | "stress" => some .stress
  | "rules" => some .rules
  | _ => none

/-- Arguments with a value. -/
inductive Slot where
  | path | config | format | disable | batches | iterations
  deriving DecidableEq, Repr

/-- Arguments without a value. -/
inductive Flag where
  | verbose | help | failOnViolations | strict
  deriving DecidableEq, Repr

/-- What a flag or option of a command means. -/
abbrev Meaning := Slot ⊕ Flag

/-- The meaning of a long flag or option of a command. -/
def CommandName.long? (command : CommandName) (name : String) : Option Meaning :=
  match command, name with
  | _, "verbose" => some (.inr .verbose)
  | _, "help" => some (.inr .help)
  | .rules, _ => none
  | _, "config" => some (.inl .config)
  | _, "format" => some (.inl .format)
  | _, "disable" => some (.inl .disable)
  | .validate, "fail-on-violations" => some (.inr .failOnViolations)
  | .stress, "batches" => some (.inl .batches)
  | .stress, "iterations" => some (.inl .iterations)
  | .stress, "strict" => some (.inr .strict)
  | _, _ => none

/-- The meaning of a short flag or option of a command. -/
def CommandName.short? (command : CommandName) (c : Char) : Option Meaning :=
  match command, c with
  | _, 'v' => some (.inr .verbose)
  | _, 'h' => some (.inr .help)
  | .rules, _ => none
  | _, 'c' => some (.inl .config)
  | _, 'f' => some (.inl .format)
  | _, _ => none

/-- The arguments of a command that were understood so far. -/
structure Gathered where
  path : Option String := none
  config : Option String := none
  format : Option Format := none
  disabled : List String := []
  batches : Option Nat := none
  iterations : Option Nat := none
  failOnViolations : Bool := false
  strict : Bool := false
  /-- How often more logging was asked for behind the command. -/
  verbose : Nat := 0
  /-- An argument whose value was not checked yet, or is still to come. -/
  pending : Option (Slot × Option String) := none
  deriving DecidableEq, Repr

namespace Gathered

/-- The greatest count of a repeated flag. -/
def greatestCount : Nat := 255

/-- One more of a repeated flag. -/
def countUp (n : Nat) : Nat := min (n + 1) greatestCount

/-- A path that is not empty. -/
def pathValue (s : String) : Except Stop String := if s.isEmpty then .error .badValue else .ok s

/-- A number of at most 64 bits. -/
def numberValue (s : String) : Except Stop Nat :=
  match Text.unsigned? 10 s.toList with
  | some n => if n < UInt64.size then .ok n else .error .badNumber
  | none => .error .badNumber

/-- Refuses an argument that stands again. -/
def once {α : Type} (old : Option α) : Except Stop Unit :=
  if old.isSome then .error .repeated else .ok ()

/-- Takes the value of an argument. -/
def store (g : Gathered) (value : String) : Slot → Except Stop Gathered
  | .path => do once g.path; return { g with path := ← pathValue value }
  | .config => do once g.config; return { g with config := ← pathValue value }
  | .format => do
    once g.format
    match Format.ofName? value with
    | some f => return { g with format := some f }
    | none => throw .badValue
  | .disable => .ok { g with disabled := g.disabled ++ [value] }
  | .batches => do once g.batches; return { g with batches := ← numberValue value }
  | .iterations => do once g.iterations; return { g with iterations := ← numberValue value }

/-- Checks the value of the pending argument. -/
def settle (g : Gathered) : Except Stop Gathered :=
  match g.pending with
  | none => .ok g
  | some (_, none) => .error .badValue
  | some (slot, some value) => { g with pending := none }.store value slot

/-- Takes a flag. -/
def raise (g : Gathered) (flag : Flag) : Except Stop Gathered := do
  let g ← g.settle
  match flag with
  | .help => throw .help
  | .verbose => return { g with verbose := countUp g.verbose }
  | .failOnViolations =>
    if g.failOnViolations then throw .repeated else return { g with failOnViolations := true }
  | .strict => if g.strict then throw .repeated else return { g with strict := true }

/-- Takes an option with its value, or waits for the value. -/
def take (g : Gathered) (slot : Slot) (attached : Option String) : Except Stop Gathered := do
  let g ← g.settle
  match attached with
  | some value => g.store value slot
  | none => return { g with pending := some (slot, none) }

/-- Takes a word that is neither a flag nor an option. -/
def word (command : CommandName) (g : Gathered) (w : String) : Except Stop Gathered := do
  if command == .rules then throw .unknownArgument
  let isPath := match g.pending with
    | some (.path, _) => false
    | _ => g.path.isNone
  if isPath then return { ← g.settle with pending := some (.path, some w) }
  else throw .unknownArgument

/-- The value that is attached to a short option, if any. -/
def attachedValue : List Char → Option String
  | [] => none
  | '=' :: cs => some (String.ofList cs)
  | cs => some (String.ofList cs)

/-- Takes a cluster of short flags, which may end with an option. -/
def cluster (command : CommandName) (g : Gathered) : List Char → Except Stop Gathered
  | [] => .ok g
  | c :: cs =>
    match command.short? c with
    | none => .error .unknownArgument
    | some (.inr flag) => do cluster command (← g.raise flag) cs
    | some (.inl slot) => g.take slot (attachedValue cs)

/-- Takes a long flag or option. -/
def long (command : CommandName) (g : Gathered) (body : List Char) : Except Stop Gathered :=
  let name := String.ofList (body.takeWhile (· != '='))
  let attached := match body.dropWhile (· != '=') with
    | [] => none
    | _ :: value => some (String.ofList value)
  match command.long? name with
  | none => .error .unknownArgument
  | some (.inl slot) => g.take slot attached
  | some (.inr flag) => if attached.isSome then .error .unexpectedValue else g.raise flag

/-- Takes the words behind a command; after two dashes they are plain. -/
def words (command : CommandName) (plain : Bool) (g : Gathered) : List String → Except Stop Gathered
  | [] => g.settle
  | w :: ws =>
    if plain then do words command true (← g.word command w) ws
    else if w = "--" then words command true g ws
    else
      match w.toList with
      | '-' :: '-' :: body => do words command false (← g.long command body) ws
      | '-' :: c :: body => do words command false (← g.cluster command (c :: body)) ws
      | _ =>
        match g.pending with
        | some (slot, none) => words command false { g with pending := some (slot, some w) } ws
        | _ => do words command false (← g.word command w) ws

/-- The input of a command, for which a path is required. -/
def input (g : Gathered) : Except Stop Input :=
  match g.path with
  | none => .error .missingPath
  | some path => .ok ⟨path, g.config, g.format.getD .pretty, g.disabled⟩

/-- What a command with some arguments asks for. -/
def command (g : Gathered) : CommandName → Except Stop Command
  | .validate => do return .validate (← g.input) g.failOnViolations
  | .stress => do return .stress (← g.input) g.batches g.iterations g.strict
  | .rules => .ok .rules

end Gathered

/-- What the words behind `help` ask for. Only a command has help, and a command has none of its own
commands. -/
def helpOn : List String → Stop
  | [] => .help
  | [w] => if (CommandName.ofName? w).isSome || w == "help" then .help else .unknownCommand
  | _ => .unknownCommand

/-- What a cluster of short flags before the command asks for. -/
def leadingCluster (verbose : Nat) : List Char → Except Stop Nat
  | [] => .ok verbose
  | 'v' :: cs => leadingCluster (Gathered.countUp verbose) cs
  | 'h' :: _ => .error .help
  | 'V' :: _ => .error .version
  | _ => .error .unknownArgument

/-- What a long flag before the command asks for. -/
def leadingLong (verbose : Nat) (body : List Char) : Except Stop Nat :=
  let stopOr (stop : Except Stop Nat) : Except Stop Nat :=
    if body.contains '=' then .error .unexpectedValue else stop
  match String.ofList (body.takeWhile (· != '=')) with
  | "verbose" => stopOr (.ok (Gathered.countUp verbose))
  | "help" => stopOr (.error .help)
  | "version" => stopOr (.error .version)
  | _ => .error .unknownArgument

/-- What a command line without a command asks for. -/
def withoutCommand (verbose : Nat) : Stop := if verbose = 0 then .nothing else .missingCommand

/-- What the words ask for, after `verbose` requests for more logging. -/
def parseFrom (verbose : Nat) : List String → Except Stop Invocation
  | [] => .error (withoutCommand verbose)
  | "--" :: [] => .error (withoutCommand verbose)
  | "--" :: w :: _ =>
    .error (if (CommandName.ofName? w).isSome || w == "help" then .unknownArgument
      else .unknownCommand)
  | "help" :: ws => .error (helpOn ws)
  | w :: ws =>
    match CommandName.ofName? w with
    | some name => do
      let g ← Gathered.words name false {} ws
      return ⟨if g.verbose = 0 then verbose else g.verbose, ← g.command name⟩
    | none =>
      match w.toList with
      | '-' :: '-' :: body => do parseFrom (← leadingLong verbose body) ws
      | '-' :: c :: body => do parseFrom (← leadingCluster verbose (c :: body)) ws
      | _ => .error .unknownCommand

/-- **What a command line asks for.** -/
def parse (arguments : List String) : Except Stop Invocation := parseFrom 0 arguments

end CilLint.CommandLine
