/-!
# Sorted associations

A finite map as the list of its entries in ascending order of the keys, and a finite set as the
ascending list of its members. Putting an entry in keeps the order and replaces the entry that had
the same key.
-/

set_option autoImplicit false

namespace Folio.Sorted

variable {κ α : Type} [LT κ] [DecidableLT κ]

/-- Puts an entry in, in place of the one with the same key. -/
def insert (key : κ) (value : α) : List (κ × α) → List (κ × α)
  | [] => [(key, value)]
  | entry :: rest =>
    if key < entry.1 then (key, value) :: entry :: rest
    else if entry.1 < key then entry :: insert key value rest
    else (key, value) :: rest

/-- Puts an entry in unless the key is there already. -/
def insertNew (key : κ) (value : α) : List (κ × α) → List (κ × α)
  | [] => [(key, value)]
  | entry :: rest =>
    if key < entry.1 then (key, value) :: entry :: rest
    else if entry.1 < key then entry :: insertNew key value rest
    else entry :: rest

/-- Puts a member into a set. -/
def add (key : κ) : List κ → List κ
  | [] => [key]
  | k :: rest =>
    if key < k then key :: k :: rest
    else if k < key then k :: add key rest
    else k :: rest

/-- The entries put in one after the other, later ones in place of earlier ones. -/
def ofList (entries : List (κ × α)) : List (κ × α) :=
  entries.foldl (fun map entry => insert entry.1 entry.2 map) []

/-- The set of the members of a list, added to a set. -/
def addAll (keys : List κ) (set : List κ) : List κ :=
  keys.foldl (fun set key => add key set) set

end Folio.Sorted
