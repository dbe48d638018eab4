import Folio.Text.Split

/-!
# Paths

A path is a text. Its parts lie between slashes, where empty parts and single dots count only at the
start: a first slash makes the path absolute, and a first dot stays. Taking a path apart never
changes the text of what remains.
-/

set_option autoImplicit false

namespace Folio.Path

/-- The start of a path that no part belongs to: a slash, or a single dot. -/
def start (path : List Char) : List Char :=
  match path with
  | '/' :: _ => ['/']
  | ['.'] => ['.']
  | '.' :: '/' :: _ => ['.']
  | _ => []

/-- Whether a part of a path counts. -/
def counts (part : List Char) : Bool :=
  !(part.isEmpty || part == ['.'])

/-- The parts of a path behind its start, from the last one that counts to the first. -/
def partsFromEnd (path : List Char) : List (List Char) :=
  (Text.splitWhere (· == '/') (path.drop (start path).length)).reverse.dropWhile (!counts ·)

/-- The text of a start and parts that are given from the last to the first. -/
def ofPartsFromEnd (start : List Char) (parts : List (List Char)) : List Char :=
  start ++ Text.joinWith ['/'] (parts.dropWhile (!counts ·)).reverse

/-- Two dots, which stand for the directory above. -/
def up : List Char := ['.', '.']

/-- The name of what the path leads to, unless it ends by going up or to the root. -/
def fileName? (path : List Char) : Option (List Char) :=
  match partsFromEnd path with
  | last :: _ => if last = up then none else some last
  | [] => none

/-- The path of the directory that holds what the path leads to. -/
def parent? (path : List Char) : Option (List Char) :=
  match partsFromEnd path with
  | _ :: parts => some (ofPartsFromEnd (start path) parts)
  | [] => if start path = ['.'] then some [] else none

/-- The part of a name before its last dot; a dot at the very start does not count. -/
def stem (name : List Char) : List Char :=
  match name.reverse.dropWhile (· != '.') with
  | _ :: before => if before.isEmpty then name else before.reverse
  | [] => name

/-- The path followed by a name. -/
def join (path name : List Char) : List Char :=
  if name.head? = some '/' then name
  else if path.isEmpty ∨ path.getLast? = some '/' then path ++ name
  else path ++ '/' :: name

/-- The path with another name for what it leads to. -/
def withFileName (path name : List Char) : List Char :=
  match fileName? path with
  | some _ => join ((parent? path).getD []) name
  | none => join path name

/-- Where the output goes by default: beside the input, under the stem of its name. -/
def translated (path : List Char) : List Char :=
  let stem := ((fileName? path).map stem).getD "document".toList
  withFileName path (stem ++ "_translated.pdf".toList)

end Folio.Path
