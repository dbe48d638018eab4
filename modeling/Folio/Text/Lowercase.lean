import Folio.Text.CaseTable
import Folio.Text.Ranges

/-!
# Lower case

The full lowercase mapping of Unicode: character by character, except that the capital I with a
dot becomes two characters and that a capital sigma at the end of a word takes its final form.
-/

set_option autoImplicit false

namespace Folio.Text

/-- The lower-case form of a code point by the runs of the table; itself if there is none. -/
def lowercaseCode (code : Nat) : Nat :=
  match lowercaseRuns.find? fun (first, last, step, _) =>
      first ≤ code && code ≤ last && (code - first) % step == 0 with
  | some (first, _, _, lower) => lower + (code - first)
  | none => code

/-- The lower-case form of a character that does not depend on its neighbours. -/
def lowercaseChar (c : Char) : List Char :=
  if c.toNat < 0x80 then [c.toLower]
  else if c = 'İ' then ['i', '\u0307']
  else [Char.ofNat (lowercaseCode c.toNat)]

/-- Whether the first character that is not ignored for case is a cased one. -/
def startsCased (text : List Char) : Bool :=
  match text.dropWhile fun c => inRanges caseIgnorableRanges c.toNat with
  | [] => false
  | c :: _ => inRanges casedRanges c.toNat

/-- Lower-cases a text that follows the characters `before`, which are given from the last to the
first. -/
def lowercaseAfter : List Char → List Char → List Char
  | _, [] => []
  | before, c :: cs =>
    let lower :=
      if c = 'Σ' then
        if startsCased before && !startsCased cs then ['ς'] else ['σ']
      else lowercaseChar c
    lower ++ lowercaseAfter (c :: before) cs

/-- The full lower-case form of a text. -/
def lowercase (text : List Char) : List Char :=
  lowercaseAfter [] text

end Folio.Text
