/-!
# Styled text

Text with terminal colours. A styled text is put between the codes that switch its style on and all
styles off; where the text itself switches styles off, its own is switched on again. Padding counts as
part of the text.
-/

namespace CilLint.Render

/-- A style of text. -/
inductive Style where
  | normal | dimmed | red | green | yellow | blue | boldRed | boldCyan
  deriving DecidableEq, Repr

/-- The code of a style, which plain text has none of. -/
def Style.code? : Style → Option String
  | .normal => none
  | .dimmed => some "2"
  | .red => some "31"
  | .green => some "32"
  | .yellow => some "33"
  | .blue => some "34"
  | .boldRed => some "1;31"
  | .boldCyan => some "1;36"

/-- What switches all styles off. -/
def resetCode : List Char := "\x1b[0m".toList

/-- A text with a style switched on again wherever it is switched off. -/
def resume (on : List Char) : List Char → List Char
  | '\x1b' :: '[' :: '0' :: 'm' :: rest => resetCode ++ on ++ resume on rest
  | c :: rest => c :: resume on rest
  | [] => []

/-- A text filled up with blanks on its right. -/
def padRight (width : Nat) (s : String) : String :=
  s ++ String.ofList (List.replicate (width - s.length) ' ')

/-- A text in a style, if colours are wanted at all. -/
def paint (colored : Bool) (style : Style) (s : String) (width : Nat := 0) : String :=
  match style.code? with
  | none => padRight width s
  | some code =>
    if colored then
      let on := ("\x1b[" ++ code ++ "m").toList
      String.ofList on ++ padRight width (String.ofList (resume on s.toList)) ++
        String.ofList resetCode
    else padRight width s

end CilLint.Render
