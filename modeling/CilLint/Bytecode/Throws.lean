import CilLint.Bytecode.Decode
import CilLint.Module

/-!
# Thrown exceptions

Whether a body constructs an exception of a given type and throws it. The type of what is thrown is
taken to be the type that was constructed last.
-/

namespace CilLint

/-- Whether an instruction constructs an object whose type name ends with `exception`. -/
def constructs (m : Module) (exception : String) (i : Instruction) : Bool :=
  match i.token?.bind m.resolve? with
  | none => false
  | some key => key.name == ".ctor" && Text.endsWith key.declaringType exception

/-- Whether instructions throw, where `constructed` says whether the object that was constructed last
before them is an `exception`. -/
def throwsFrom (m : Module) (exception : String) (constructed : Bool) : List Instruction → Bool
  | [] => false
  | i :: rest =>
    if i.is Code.newobj then throwsFrom m exception (constructs m exception i) rest
    else if i.is Code.throw && constructed then true
    else throwsFrom m exception constructed rest

/-- **Whether a body constructs and throws** an object whose type name ends with `exception`. A body
that does not decode to its end is judged by what was decoded. -/
def throwsException (m : Module) (exception : String) (body : List UInt8) : Bool :=
  throwsFrom m exception false (decode body).instructions

end CilLint
