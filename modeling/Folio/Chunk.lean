import Folio.Log
import Folio.Page

/-!
# Chunks

Pages are packed in their order into chunks, each sent with one request. A page joins the current
chunk unless that would push the cost of the chunk over the budget; a page dearer than the budget
is sent alone and never split.
-/

set_option autoImplicit false

namespace Folio

/-- Pages that are sent together. -/
abbrev Chunk := List Page

namespace Chunk

/-- The summed cost of the pages. -/
def cost : Chunk → Nat
  | [] => 0
  | page :: pages => page.cost + cost pages

/-- The page numbers of a chunk. -/
def numbers (chunk : Chunk) : List PageNumber :=
  chunk.map Page.number

/-- Packs pages after those of the chunk that is being filled, whose cost is `spent`. -/
def packAfter (budget : Nat) (current : Chunk) (spent : Nat) : List Page → List Chunk
  | [] => if current.isEmpty then [] else [current]
  | page :: pages =>
    if !current.isEmpty && budget < spent + page.cost then
      current :: packAfter budget [page] page.cost pages
    else packAfter budget (current ++ [page]) (spent + page.cost) pages

/-- The pages in chunks whose cost stays within the budget where that is possible. -/
def pack (budget : Nat) (pages : List Page) : List Chunk :=
  packAfter budget [] 0 pages

/-- What is reported about the packing of pages. -/
def packLog (budget : Nat) (pages : List Page) : Log :=
  let dear := pages.filter fun page => budget < page.cost
  dear.flatMap (fun page => Log.debug
    (s!"Page {page.number.toNat} costs {page.cost} which exceeds the chunk budget of {budget}; " ++
      "sending it alone")) ++
    Log.debug (s!"Packed {pages.length} pages into {(pack budget pages).length} chunks " ++
      s!"(budget {budget})")

end Chunk

end Folio
