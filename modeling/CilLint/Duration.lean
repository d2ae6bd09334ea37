/-!
# Durations

Times that something took, to the nanosecond.
-/

namespace CilLint

/-- A length of time. -/
structure Duration where
  nanoseconds : Nat := 0
  deriving DecidableEq, Repr

namespace Duration

/-- So many milliseconds. -/
def ofMilliseconds (n : Nat) : Duration := ⟨n * 1000000⟩

/-- The number of whole milliseconds. -/
def wholeMilliseconds (d : Duration) : Nat := d.nanoseconds / 1000000

/-- A natural number of at most 64 bits as the nearest floating-point number. -/
def toFloat (n : Nat) : Float := (UInt64.ofNat n).toFloat

/-- A duration in seconds: the whole seconds and the rest are rounded apart. -/
def seconds (d : Duration) : Float :=
  toFloat (d.nanoseconds / 1000000000) + toFloat (d.nanoseconds % 1000000000) / 1e9

/-- A duration in milliseconds. -/
def milliseconds (d : Duration) : Float := d.seconds * 1000.0

end Duration

end CilLint
