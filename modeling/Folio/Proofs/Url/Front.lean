import Folio.Proofs.Lists
import Folio.Url

/-!
# The front of a text

What stands behind a text, from a slash on, has no part in how the text begins: the front of the text
stays what it is (`normalizeInput_append`), and so does the scheme (`splitScheme_append`). So the
address is read from what follows the colon, with all that stands behind it (`parseChars_append`).
-/

set_option autoImplicit false

namespace Folio.Url

/-! ## What is read -/

/-- What does not count at the ends of a text. -/
def isEdge (c : Char) : Bool := c.toNat ≤ 0x20

/-- What does not count anywhere in a text. -/
def isBreak (c : Char) : Bool := c == '\t' || c == '\n' || c == '\r'

/-- What counts of a text with more behind it. -/
def front (text : List Char) : List Char := (text.dropWhile isEdge).filter fun c => !isBreak c

theorem normalizeInput_eq (text : List Char) :
    normalizeInput text =
      (((text.dropWhile isEdge).reverse.dropWhile isEdge).reverse).filter fun c => !isBreak c := rfl

theorem mem_front {text : List Char} {c : Char} (h : c ∈ front text) : c ∈ text :=
  (List.dropWhile_suffix _).mem ((List.mem_filter.1 h).1)

/-- What a scheme is written with. -/
def inScheme (c : Char) : Bool := c.isAlphanum || c == '+' || c == '-' || c == '.'

theorem splitScheme_cons (c : Char) (cs : List Char) :
    splitScheme (c :: cs) =
      if c.isAlpha then
        match (c :: cs).dropWhile inScheme with
        | ':' :: rest => some (((c :: cs).takeWhile inScheme).map Char.toLower, rest)
        | _ => none
      else none := rfl

theorem splitScheme_suffix {text scheme rest : List Char}
    (h : splitScheme text = some (scheme, rest)) : rest <:+ text := by
  cases text with
  | nil => cases h
  | cons c cs =>
    rw [splitScheme_cons] at h
    split at h
    · split at h
      · rename_i hcolon
        cases h
        exact (List.suffix_cons ':' rest).trans (hcolon ▸ List.dropWhile_suffix _)
      · cases h
    · cases h

section
variable {text behind : List Char} (hslash : ∀ c ∈ behind.head?, c = '/')
include hslash

theorem normalizeInput_append (hbreak : ∀ c ∈ behind, isBreak c = false)
    (hlast : ∀ c ∈ (text ++ behind).getLast?, isEdge c = false) :
    normalizeInput (text ++ behind) = front text ++ behind := by
  have hedge : ∀ c ∈ behind.head?, isEdge c = false := by
    intro c hc
    rw [hslash c hc]
    rfl
  have hend : ∀ c ∈ ((text ++ behind).dropWhile isEdge).getLast?, isEdge c = false := by
    intro c hc
    obtain ⟨dropped, hdropped⟩ := List.dropWhile_suffix isEdge (l := text ++ behind)
    refine hlast c ?_
    rw [← hdropped, List.getLast?_append, Option.mem_def.1 hc]
    rfl
  have hbehind : behind.filter (fun c => !isBreak c) = behind :=
    List.filter_eq_self.2 fun c hc => by simp [hbreak c hc]
  rw [normalizeInput_eq, reverse_dropWhile hend, dropWhile_behind hedge, List.filter_append,
    hbehind, front]

theorem splitScheme_append :
    splitScheme (text ++ behind) =
      (splitScheme text).map fun (scheme, rest) => (scheme, rest ++ behind) := by
  have hscheme : ∀ c ∈ behind.head?, inScheme c = false := by
    intro c hc
    rw [hslash c hc]
    rfl
  cases text with
  | nil =>
    cases behind with
    | nil => rfl
    | cons c cs =>
      rw [hslash c rfl]
      rfl
  | cons c cs =>
    rw [List.cons_append, splitScheme_cons, splitScheme_cons, ← List.cons_append,
      takeWhile_behind hscheme, dropWhile_behind hscheme]
    split
    · cases (c :: cs).dropWhile inScheme with
      | nil =>
        cases behind with
        | nil => rfl
        | cons b bs =>
          rw [hslash b rfl]
          rfl
      | cons d ds =>
        by_cases hd : d = ':'
        · subst hd
          rfl
        · simp [hd]
    · rfl

end

/-! ## Schemes -/

def isSlash (c : Char) : Bool := c == '/' || c == '\\'

/-- What stands in the text up to the path, after the slashes of a scheme. -/
def inName (special : Bool) (c : Char) : Bool := !endsAuthority special c

theorem parseAfterSlashes_eq (scheme text : List Char) :
    parseAfterSlashes scheme text =
      (parseAuthority scheme (text.takeWhile (inName (isSpecial scheme)))
        (!(text.dropWhile (inName (isSpecial scheme))).isEmpty)).map fun (authority, left) =>
          let rest := text.dropWhile (inName (isSpecial scheme))
          let marked := parseQuery (isSpecial scheme) (rest.dropWhile fun c => !startsQuery c)
          ⟨scheme, some authority, parsePath scheme (left ++ rest.takeWhile fun c => !startsQuery c),
            marked.1, marked.2⟩ := rfl

/-- Reads what follows the colon after a scheme without rules of its own. -/
def parseOther (scheme text : List Char) : Except Fault Url :=
  match text with
  | '/' :: '/' :: rest => parseAfterSlashes scheme rest
  | _ => .ok (parseWithoutAuthority scheme text)

/-- Reads what follows the colon after a scheme. -/
def parseBehind (scheme text : List Char) : Except Fault Url :=
  if isFile scheme then parseFile scheme text
  else if isSpecial scheme then parseAfterSlashes scheme (text.dropWhile isSlash)
  else parseOther scheme text

theorem parseChars_eq (text : List Char) :
    parseChars text =
      match splitScheme (normalizeInput text) with
      | none => .error .relativeWithoutBase
      | some (scheme, rest) => parseBehind scheme rest := rfl

theorem parseChars_append {text behind : List Char} (hslash : ∀ c ∈ behind.head?, c = '/')
    (hbreak : ∀ c ∈ behind, isBreak c = false)
    (hlast : ∀ c ∈ (text ++ behind).getLast?, isEdge c = false) :
    parseChars (text ++ behind) =
      match splitScheme (front text) with
      | none => .error .relativeWithoutBase
      | some (scheme, rest) => parseBehind scheme (rest ++ behind) := by
  rw [parseChars_eq, normalizeInput_append hslash hbreak hlast, splitScheme_append hslash]
  cases splitScheme (front text) with
  | none => rfl
  | some parts => rfl

end Folio.Url
