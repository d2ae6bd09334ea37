/-!
# Verbosity

How much is logged, by how often it was asked for.
-/

namespace CilLint.CommandLine

/-- What is logged when it was asked for `count` times. -/
def logDirective (count : Nat) : String :=
  match count with
  | 0 => "storycheck=warn"
  | 1 => "storycheck=info"
  | 2 => "storycheck=debug"
  | _ => "storycheck=trace,debug"

end CilLint.CommandLine
