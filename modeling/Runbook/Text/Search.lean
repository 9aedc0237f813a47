/-! # Parts of texts

Whether one text occurs in another, and a text cut at every occurrence of a character.
-/

namespace Runbook.Text

/-- The first characters occur somewhere in the second. -/
def occursIn (part : List Char) : List Char → Bool
  | [] => part.isEmpty
  | c :: rest => part.isPrefixOf (c :: rest) || occursIn part rest

/-- The first text occurs somewhere in the second. -/
def contains (whole part : String) : Bool := occursIn part.toList whole.toList

/-- Characters cut at every occurrence of a separator; there is always at least one piece. -/
def splitAt (separator : Char) : List Char → List (List Char)
  | [] => [[]]
  | c :: rest =>
    if c == separator then [] :: splitAt separator rest
    else match splitAt separator rest with
      | [] => [[c]]
      | piece :: pieces => (c :: piece) :: pieces

/-- A text cut at every occurrence of a separator. -/
def split (separator : Char) (s : String) : List String :=
  (splitAt separator s.toList).map String.ofList

theorem splitAt_ne_nil (separator : Char) (cs : List Char) : splitAt separator cs ≠ [] := by
  cases cs with
  | nil => simp [splitAt]
  | cons c rest =>
    simp only [splitAt]
    split
    · simp
    · split <;> simp

end Runbook.Text
