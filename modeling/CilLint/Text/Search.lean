/-!
# Searching texts

Where one text lies in another: at its start, at its end, or anywhere (`contains`). Searches run on
character lists, so a search is a structural recursion and its meaning is the existence of two
surrounding lists (`occursIn_iff`).

Keyword searches ignore case through `lower`. Only a character whose lower case holds an ASCII
letter can matter to an ASCII keyword: the ASCII capitals, the Kelvin sign and the dotted capital I.
All other characters stand for themselves.
-/

namespace CilLint.Text

/-- Whether `needle` occurs in a list as a block of consecutive elements. -/
def occursIn (needle : List Char) : List Char → Bool
  | [] => needle.isEmpty
  | c :: cs => needle.isPrefixOf (c :: cs) || occursIn needle cs

/-- Whether `fragment` occurs somewhere in `s`. -/
def contains (s fragment : String) : Bool := occursIn fragment.toList s.toList

/-- Whether `s` begins with `head`. -/
def startsWith (s head : String) : Bool := head.toList.isPrefixOf s.toList

/-- Whether `s` ends with `tail`. -/
def endsWith (s tail : String) : Bool := tail.toList.isSuffixOf s.toList

/-- A block occurs in a list iff the list splits around it. -/
theorem occursIn_iff {needle hay : List Char} :
    occursIn needle hay = true ↔ ∃ before after, hay = before ++ needle ++ after := by
  induction hay with
  | nil =>
    constructor
    · intro h
      have : needle = [] := by simpa [occursIn] using h
      exact ⟨[], [], by simp [this]⟩
    · rintro ⟨before, after, h⟩
      have : needle = [] := by
        cases needle with
        | nil => rfl
        | cons c cs => simp at h
      simp [occursIn, this]
  | cons c cs ih =>
    rw [occursIn, Bool.or_eq_true, List.isPrefixOf_iff_prefix, ih]
    constructor
    · rintro (⟨after, h⟩ | ⟨before, after, h⟩)
      · exact ⟨[], after, by simpa using h.symm⟩
      · exact ⟨c :: before, after, by simp [h]⟩
    · rintro ⟨before, after, h⟩
      cases before with
      | nil => exact .inl ⟨after, by simpa using h.symm⟩
      | cons d before =>
        refine .inr ⟨before, after, ?_⟩
        simp only [List.cons_append, List.cons.injEq] at h
        exact h.2

/-- The lower case of a character, as far as an ASCII keyword can tell. -/
def lowerChar (c : Char) : List Char :=
  if 'A' ≤ c ∧ c ≤ 'Z' then [Char.ofNat (c.toNat + 32)]
  else if c.toNat = 0x212A then ['k']
  else if c.toNat = 0x130 then ['i', Char.ofNat 0x307]
  else [c]

/-- A text in lower case, as far as an ASCII keyword can tell. -/
def lower (s : String) : String := String.ofList (s.toList.flatMap lowerChar)

end CilLint.Text
