import Folio.Font.UnicodeMap.Reader
import Folio.Pdf.Object
import Folio.Sorted

/-!
# PDF documents

A document holds objects by number and the catalog that everything is reached from. New objects get
numbers that were never used before. The pages are the leaves of a tree below the catalog, read in
order; what cannot be reached from the catalog can be dropped.
-/

set_option autoImplicit false

namespace Folio.Pdf

/-- The objects of a document, in ascending order of their numbers. -/
structure Document where
  objects : List (Nat × Object) := []
  /-- What the trailer names as the root. -/
  root : Option Object := none
  /-- The greatest number given to an object. -/
  lastNumber : Nat := 0

namespace Document

def empty : Document := {}

/-- Takes a number for an object that is set later. -/
def reserve (doc : Document) : Nat × Document :=
  (doc.lastNumber + 1, { doc with lastNumber := doc.lastNumber + 1 })

/-- Puts an object under a number, in place of the one that was there. -/
def set (doc : Document) (number : Nat) (object : Object) : Document :=
  { doc with objects := Sorted.insert number object doc.objects }

/-- Adds an object under a new number. -/
def add (doc : Document) (object : Object) : Nat × Document :=
  let (number, doc) := doc.reserve
  (number, doc.set number object)

/-- Why an object is not what it should be. -/
inductive Fault where
  /-- A key that must be there is not. -/
  | missingKey
  /-- The object is of another kind. -/
  | wrongType
  | notFound
  /-- References lead to references without end. -/
  | tooManyReferences
  /-- The way up from a page comes back to itself. -/
  | cycle
  /-- The bytes of a string cannot be read as text. -/
  | undecodable
  /-- The map of a font back to characters cannot be used. -/
  | unicodeMap (fault : UnicodeMap.Fault)
  | malformed (what : String)
deriving DecidableEq, Repr

def Fault.message : Fault → String
  | .missingKey => "A required dictionary key was not found"
  | .wrongType => "An object does not have the expected type"
  | .notFound => "A required object was not found"
  | .tooManyReferences => "Could not dereference an object; possibly a reference cycle"
  | .cycle => "Could not dereference an object; reference cycle detected"
  | .undecodable => "Could not decode content"
  | .unicodeMap fault => "ToUnicode CMap error: " ++ fault.message
  | .malformed what => "Syntax error: " ++ what

/-! ### Looking up -/

/-- How many references after a reference are followed. -/
def referenceLimit : Nat := 128

/-- The object that an object stands for after at most `fuel` references. -/
def followFrom (doc : Document) : Nat → Object → Except Fault Object
  | fuel, .reference number =>
    match fuel, doc.objects.lookup number with
    | _, none => .error .notFound
    | 0, some _ => .error .tooManyReferences
    | fuel + 1, some object => followFrom doc fuel object
  | _, object => .ok object

/-- The object that an object stands for. -/
def follow (doc : Document) (object : Object) : Except Fault Object :=
  doc.followFrom referenceLimit object

/-- The object with a number, if it stands for one. -/
def get (doc : Document) (number : Nat) : Except Fault Object :=
  match doc.objects.lookup number with
  | none => .error .notFound
  | some object => doc.follow object

/-- The dictionary with a number. -/
def dictionary (doc : Document) (number : Nat) : Except Fault Dictionary := do
  match ← doc.get number with
  | .dictionary entries => .ok entries
  | _ => .error .wrongType

def dictionary? (doc : Document) (number : Nat) : Option Dictionary :=
  (doc.dictionary number).toOption

/-! ### The page tree -/

/-- How many levels of the page tree are remembered. -/
def depthLimit : Nat := 256

/-- The children of a node of the page tree. -/
def kids (doc : Document) (node : Nat) : List Object :=
  match (doc.dictionary? node).bind (·.lookup "Kids") with
  | some (.array items) => items
  | _ => []

/-- The kind that a node of the page tree says it is of. -/
def kind? (doc : Document) (node : Nat) : Option String :=
  (doc.dictionary? node).bind fun dict => (dict.lookup "Type").bind Object.name?

/-- The next node to visit, with the nodes of its level that follow and the levels above. -/
def takeNode : List Object → List (List Object) → Option (Object × List Object × List (List Object))
  | node :: nodes, levels => some (node, nodes, levels)
  | [], (node :: nodes) :: levels => some (node, nodes, levels)
  | [], _ => none

/-- Visits a node: whether it is a page, and the nodes and levels still to be visited. -/
def visit (doc : Document) (node : Object) (nodes : List Object) (levels : List (List Object)) :
    Option Nat × List Object × List (List Object) :=
  match node.reference?, node.reference?.bind doc.kind? with
  | some number, some "Page" => (some number, nodes, levels)
  | some number, some "Pages" =>
    if levels.length < depthLimit then
      (none, doc.kids number, if nodes.isEmpty then levels else nodes :: levels)
    else (none, nodes, levels)
  | _, _ => (none, nodes, levels)

/-- The pages among nodes still to be visited and the levels above them. At most as many nodes are
visited as `fuel` says. -/
def pagesFrom (doc : Document) : Nat → List Object → List (List Object) → List Nat
  | 0, _, _ => []
  | fuel + 1, nodes, levels =>
    match takeNode nodes levels with
    | none => []
    | some (node, nodes, levels) =>
      let (page?, nodes, levels) := doc.visit node nodes levels
      page?.toList ++ pagesFrom doc fuel nodes levels

/-- The root of the page tree. -/
def pageTree? (doc : Document) : Option Nat := do
  let catalog ← doc.dictionary? (← (← doc.root).reference?)
  (← catalog.lookup "Pages").reference?

/-- The object numbers of the pages, in page order. -/
def pages (doc : Document) : List Nat :=
  match doc.pageTree? with
  | some root => doc.pagesFrom doc.objects.length (doc.kids root) []
  | none => []

/-! ### Reachable objects -/

/-- The object numbers of `remaining` that are reached from pending references, which are at most as
many as `fuel` says. -/
def reach (doc : Document) : Nat → List Nat → List Nat → List Nat
  | 0, _, _ => []
  | fuel + 1, remaining, pending =>
    match pending.dropWhile (· ∉ remaining) with
    | [] => []
    | number :: pending =>
      let next := match doc.objects.lookup number with
        | some object => object.references
        | none => []
      number :: reach doc fuel (remaining.erase number) (next ++ pending)

/-- The numbers of the objects that the trailer leads to. -/
def reachable (doc : Document) : List Nat :=
  doc.reach doc.objects.length (doc.objects.map Prod.fst)
    ((doc.root.map Object.references).getD [])

/-- Drops the objects that the trailer does not lead to. -/
def prune (doc : Document) : Document :=
  let kept := doc.reachable
  { doc with objects := doc.objects.filter fun entry => kept.contains entry.1 }

end Document

end Folio.Pdf
