/-!
# Splitting, searching and replacing

Texts are cut at single characters, and a pattern is replaced at its occurrences, read from the
left and not overlapping.
-/

set_option autoImplicit false

namespace Folio.Text

/-- The pieces of a text between the characters that satisfy `cut`; there is one piece more than
there are cuts. -/
def splitWhere (cut : Char → Bool) : List Char → List (List Char)
  | [] => [[]]
  | c :: cs =>
    if cut c then [] :: splitWhere cut cs
    else
      match splitWhere cut cs with
      | [] => [[c]]
      | piece :: pieces => (c :: piece) :: pieces

theorem splitWhere_ne_nil (cut : Char → Bool) (text : List Char) : splitWhere cut text ≠ [] := by
  induction text with
  | nil => simp [splitWhere]
  | cons c cs ih =>
    unfold splitWhere
    split
    · simp
    · split <;> simp

/-- Drops as many characters as `skip` says, then copies the text with every occurrence of
`pattern` replaced. -/
def replaceFrom (pattern replacement : List Char) : Nat → List Char → List Char
  | _, [] => []
  | skip + 1, _ :: cs => replaceFrom pattern replacement skip cs
  | 0, c :: cs =>
    if pattern.isPrefixOf (c :: cs) then
      replacement ++ replaceFrom pattern replacement (pattern.length - 1) cs
    else c :: replaceFrom pattern replacement 0 cs

/-- The text with every occurrence of a non-empty pattern replaced. -/
def replaceAll (pattern replacement text : List Char) : List Char :=
  replaceFrom pattern replacement 0 text

/-- The string with every occurrence of a non-empty pattern replaced. -/
def replaced (text pattern replacement : String) : String :=
  String.ofList (replaceAll pattern.toList replacement.toList text.toList)

/-- Joins the pieces of a text with a separator between them. -/
def joinWith (separator : List Char) : List (List Char) → List Char
  | [] => []
  | [piece] => piece
  | piece :: pieces => piece ++ separator ++ joinWith separator pieces

end Folio.Text
