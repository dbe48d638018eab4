import Folio.Chunk
import Folio.Proofs.Cutting

/-!
# Packing

Packing takes pages into a chunk, from the first one on, as long as the chunk stays within the
budget, and then goes on with the next chunk. `Greedy` says this of a division without the walk that
makes it: a chunk is within the budget or cannot be split, and the first page of the next chunk
would have made it too dear. There is one such division of every list of pages, the packing
(`pack_characterized`), so that no page is lost, repeated or moved (`flatten_pack`). No other
division into chunks that fit has fewer of them (`pack_fewest`).
-/

set_option autoImplicit false

namespace Folio.Chunk

/-! ## Costs -/

theorem cost_append (a b : Chunk) : cost (a ++ b) = cost a + cost b := by
  induction a with
  | nil => simp [cost]
  | cons page a ih =>
    simp only [List.cons_append, cost, ih]
    omega

theorem cost_singleton (page : Page) : cost [page] = page.cost := by
  simp [cost]

theorem cost_le_of_mem {chunk : Chunk} {page : Page} (h : page ∈ chunk) :
    page.cost ≤ cost chunk := by
  obtain ⟨before, after, rfl⟩ := List.append_of_mem h
  rw [cost_append, cost]
  omega

/-! ## Greedy divisions -/

/-- The chunk is within the budget, or there is nothing in it to split. -/
def Fits (budget : Nat) (chunk : Chunk) : Prop :=
  cost chunk ≤ budget ∨ ∃ page, chunk = [page]

structure Greedy (budget : Nat) (pages : List Page) (chunks : List Chunk) : Prop where
  flatten : chunks.flatten = pages
  inhabited : ∀ chunk ∈ chunks, chunk ≠ []
  fits : ∀ chunk ∈ chunks, Fits budget chunk
  full : chunks.IsChain fun chunk next => ∀ page ∈ next.head?, budget < cost chunk + page.cost

section
variable {budget : Nat} {chunk : Chunk} {page : Page} {pages : List Page} {chunks : List Chunk}

theorem Fits.dear_alone (h : Fits budget chunk) (hp : page ∈ chunk) (hdear : budget < page.cost) :
    chunk = [page] := by
  rcases h with h | ⟨only, rfl⟩
  · have := cost_le_of_mem hp
    omega
  · rw [List.mem_singleton.1 hp]

/-- Between two chunks it is the first of the pages still to come that does not fit. -/
theorem greedy_cons_iff :
    Greedy budget pages (chunk :: chunks) ↔
      ∃ rest, pages = chunk ++ rest ∧ chunk ≠ [] ∧ Fits budget chunk ∧
        (∀ page ∈ rest.head?, budget < cost chunk + page.cost) ∧ Greedy budget rest chunks := by
  have hhead (hne : ∀ next ∈ chunks, next ≠ []) :
      (∀ next ∈ chunks.head?, ∀ page ∈ next.head?, budget < cost chunk + page.cost) ↔
        ∀ page ∈ chunks.flatten.head?, budget < cost chunk + page.cost := by
    cases chunks with
    | nil => simp
    | cons next chunks =>
      obtain ⟨first, next, rfl⟩ := List.exists_cons_of_ne_nil (hne next List.mem_cons_self)
      simp
  constructor
  · rintro ⟨rfl, hne, hfits, hfull⟩
    rw [List.forall_mem_cons] at hne hfits
    rw [List.isChain_cons] at hfull
    exact ⟨chunks.flatten, rfl, hne.1, hfits.1, (hhead hne.2).1 hfull.1, rfl, hne.2, hfits.2,
      hfull.2⟩
  · rintro ⟨rest, rfl, hne, hfits, hfull, hrest⟩
    obtain ⟨rfl, hnes, hfitss, hchain⟩ := hrest
    exact ⟨rfl, List.forall_mem_cons.2 ⟨hne, hnes⟩, List.forall_mem_cons.2 ⟨hfits, hfitss⟩,
      List.isChain_cons.2 ⟨(hhead hnes).2 hfull, hchain⟩⟩

/-! ## The walk -/

theorem pack_cons (budget : Nat) (page : Page) (pages : List Page) :
    pack budget (page :: pages) = packAfter budget [page] (cost [page]) pages := by
  simp [pack, packAfter, cost]

theorem packAfter_join (h : cost chunk + page.cost ≤ budget) (pages : List Page) :
    packAfter budget chunk (cost chunk) (page :: pages) =
      packAfter budget (chunk ++ [page]) (cost (chunk ++ [page])) pages := by
  have hnot : ¬ (!chunk.isEmpty && decide (budget < cost chunk + page.cost)) = true := by
    simp only [Bool.and_eq_true, decide_eq_true_eq, not_and]
    omega
  rw [packAfter, if_neg hnot, cost_append, cost_singleton]

theorem packAfter_close (hne : chunk ≠ []) (h : budget < cost chunk + page.cost)
    (pages : List Page) :
    packAfter budget chunk (cost chunk) (page :: pages) = chunk :: pack budget (page :: pages) := by
  have hfull : (!chunk.isEmpty && decide (budget < cost chunk + page.cost)) = true := by
    simp [hne, h]
  rw [packAfter, if_pos hfull, pack_cons, cost_singleton]

/-- Pages that fit into the current chunk together all join it. -/
theorem packAfter_append {more : Chunk} (h : cost (chunk ++ more) ≤ budget) (pages : List Page) :
    packAfter budget chunk (cost chunk) (more ++ pages) =
      packAfter budget (chunk ++ more) (cost (chunk ++ more)) pages := by
  induction more generalizing chunk with
  | nil => simp
  | cons page more ih =>
    have hsplit : chunk ++ page :: more = chunk ++ [page] ++ more := by simp
    rw [hsplit] at h ⊢
    have hjoin : cost chunk + page.cost ≤ budget := by
      rw [cost_append, cost_append, cost_singleton] at h
      omega
    rw [List.cons_append, packAfter_join hjoin, ih h]

/-! ## The packing is the greedy division -/

/-- What the walk carries: the current chunk fits, and its cost is what was spent on it. -/
theorem packAfter_greedy (hne : chunk ≠ []) (h : Fits budget chunk) (pages : List Page) :
    Greedy budget (chunk ++ pages) (packAfter budget chunk (cost chunk) pages) := by
  induction pages generalizing chunk with
  | nil =>
    have hlast : packAfter budget chunk (cost chunk) [] = [chunk] := by simp [packAfter, hne]
    have hnil : Greedy budget [] [] := ⟨rfl, by simp, by simp, .nil⟩
    rw [hlast]
    exact greedy_cons_iff.2 ⟨[], rfl, hne, h, by simp, hnil⟩
  | cons page pages ih =>
    rcases Nat.lt_or_ge budget (cost chunk + page.cost) with hfull | hjoin
    · rw [packAfter_close hne hfull, pack_cons]
      have hlater := ih (List.cons_ne_nil page []) (.inr ⟨page, rfl⟩)
      refine greedy_cons_iff.2 ⟨page :: pages, rfl, hne, h, ?_, hlater⟩
      intro next hnext
      cases hnext
      exact hfull
    · rw [packAfter_join hjoin]
      have hfits : Fits budget (chunk ++ [page]) := .inl (by rwa [cost_append, cost_singleton])
      simpa using ih (List.append_ne_nil_of_left_ne_nil hne [page]) hfits

theorem pack_greedy (budget : Nat) (pages : List Page) :
    Greedy budget pages (pack budget pages) := by
  cases pages with
  | nil => exact ⟨rfl, by simp [pack, packAfter], by simp [pack, packAfter], .nil⟩
  | cons page pages =>
    rw [pack_cons]
    exact packAfter_greedy (List.cons_ne_nil page []) (.inr ⟨page, rfl⟩) pages

/-- Two greedy divisions cut at the same places: the first chunk is as long as the budget allows. -/
theorem Greedy.eq_pack (h : Greedy budget pages chunks) : chunks = pack budget pages := by
  induction chunks generalizing pages with
  | nil =>
    rw [← h.flatten]
    rfl
  | cons chunk chunks ih =>
    obtain ⟨rest, rfl, hne, hfits, hfull, hrest⟩ := greedy_cons_iff.1 h
    obtain ⟨first, more, rfl⟩ := List.exists_cons_of_ne_nil hne
    have hfilled : pack budget (first :: more ++ rest) =
        packAfter budget (first :: more) (cost (first :: more)) rest := by
      rw [List.cons_append, pack_cons]
      rcases hfits with hcost | ⟨only, honly⟩
      · have hfill : cost ([first] ++ more) ≤ budget := hcost
        exact packAfter_append hfill rest
      · cases honly
        rfl
    rw [hfilled, ih hrest]
    cases rest with
    | nil => rfl
    | cons page pages => rw [packAfter_close hne (hfull page rfl)]

end

theorem flatten_pack (budget : Nat) (pages : List Page) : (pack budget pages).flatten = pages :=
  (pack_greedy budget pages).flatten

theorem ne_nil_of_mem_pack {budget : Nat} {pages : List Page} {chunk : Chunk}
    (h : chunk ∈ pack budget pages) : chunk ≠ [] :=
  (pack_greedy budget pages).inhabited chunk h

/-- The packing is the one greedy division, and in it a page dearer than the budget is alone. -/
theorem pack_characterized (budget : Nat) (pages : List Page) :
    (∀ chunks, Greedy budget pages chunks ↔ chunks = pack budget pages) ∧
      ∀ page ∈ pages, budget < page.cost →
        [page] ∈ pack budget pages ∧ ∀ chunk ∈ pack budget pages, page ∈ chunk → chunk = [page] := by
  have hgreedy := pack_greedy budget pages
  refine ⟨fun chunks => ⟨Greedy.eq_pack, fun h => h ▸ hgreedy⟩, fun page hp hdear => ?_⟩
  have halone : ∀ chunk ∈ pack budget pages, page ∈ chunk → chunk = [page] :=
    fun chunk hc hpc => (hgreedy.fits chunk hc).dear_alone hpc hdear
  rw [← hgreedy.flatten] at hp
  obtain ⟨chunk, hc, hpc⟩ := List.mem_flatten.1 hp
  exact ⟨halone chunk hc hpc ▸ hc, halone⟩

/-- A dear page between two that would fit together, and a budget that two pages use up. -/
theorem pack_characterized_dear_between :
    let cheap (n : PageNumber) : Page := ⟨n, "a"⟩
    let dear : Page := ⟨3, "aaaaaaaaaaaaaaaaaaaaaaaaaaaaaaaaaaa"⟩
    let pages : List Page := [cheap 1, cheap 2, dear, cheap 4]
    pack 66 pages = [[cheap 1, cheap 2], [dear], [cheap 4]] ∧ dear ∈ pages ∧ 66 < dear.cost ∧
      ∀ chunk ∈ pack 66 pages, dear ∈ chunk → chunk = [dear] := by
  intro cheap dear pages
  have hmem : dear ∈ pages := by decide
  have hdear : 66 < dear.cost := by decide
  exact ⟨by decide, hmem, hdear, ((pack_characterized 66 pages).2 dear hmem hdear).2⟩

/-! ## The number of chunks -/

section
variable {budget : Nat} {chunk : Chunk} {pages : List Page} {chunks : List Chunk}

theorem cost_le_of_part {part : Chunk} (h : part <:+: chunk) : cost part ≤ cost chunk := by
  obtain ⟨before, after, rfl⟩ := h
  rw [cost_append, cost_append]
  omega

theorem inherited_fits (budget : Nat) (pages : List Page) : Inherited (Fits budget) pages := by
  have hcost : Inherited (fun chunk => cost chunk ≤ budget) pages :=
    fun _ _ h _ _ hpart => (cost_le_of_part hpart).trans h
  exact hcost.or_singleton

theorem Greedy.isCutting (h : Greedy budget pages chunks) :
    IsCutting (Fits budget) pages chunks :=
  ⟨h.flatten, h.inhabited, h.fits⟩

theorem Greedy.isFull (h : Greedy budget pages chunks) : IsFull (Fits budget) chunks := by
  have hcost : IsFull (fun chunk => cost chunk ≤ budget) chunks := by
    refine h.full.imp fun chunk next hdear page hp => ?_
    have hmore : budget < cost (chunk ++ [page]) := by
      rw [cost_append, cost_singleton]
      exact hdear page hp
    exact Nat.not_le_of_gt hmore
  exact hcost.or_singleton h.inhabited

theorem Fits.of_le {larger : Nat} (h : budget ≤ larger) (hfits : Fits budget chunk) :
    Fits larger chunk :=
  hfits.imp_left (le_trans · h)

end

/-- No way of cutting the pages into chunks that fit needs fewer chunks than the packing has, and a
larger budget does not need more. -/
theorem pack_fewest (budget : Nat) (pages : List Page) :
    (∀ chunks, IsCutting (Fits budget) pages chunks →
      (pack budget pages).length ≤ chunks.length) ∧
    ∀ larger, budget ≤ larger → (pack larger pages).length ≤ (pack budget pages).length := by
  have hfewest (budget : Nat) (chunks : List Chunk) (h : IsCutting (Fits budget) pages chunks) :
      (pack budget pages).length ≤ chunks.length :=
    (pack_greedy budget pages).isFull.length_le (pack_greedy budget pages).isCutting h
      (inherited_fits budget pages)
  refine ⟨hfewest budget, fun larger hle => hfewest larger _ ?_⟩
  have hpacked := (pack_greedy budget pages).isCutting
  exact ⟨hpacked.flatten, hpacked.inhabited, fun chunk hc => (hpacked.allowed chunk hc).of_le hle⟩

/-- A dear page takes a chunk of its own, and the pages around it are cut in another way as well. -/
theorem pack_fewest_dear_between :
    let cheap (n : PageNumber) : Page := ⟨n, "a"⟩
    let dear : Page := ⟨3, "aaaaaaaaaaaaaaaaaaaaaaaaaaaaaaaaaaa"⟩
    let pages : List Page := [cheap 1, cheap 2, dear, cheap 4]
    let chunks : List Chunk := [[cheap 1], [cheap 2], [dear], [cheap 4]]
    IsCutting (Fits 66) pages chunks ∧ (pack 66 pages).length = 3 ∧
      (pack 66 pages).length ≤ chunks.length ∧
      66 ≤ 100 ∧ (pack 100 pages).length ≤ (pack 66 pages).length := by
  intro cheap dear pages chunks
  have hsingle (page : Page) : Fits 66 [page] := .inr ⟨page, rfl⟩
  have hchunks : IsCutting (Fits 66) pages chunks :=
    ⟨rfl, by decide, by simp [chunks, hsingle]⟩
  have hlarger : 66 ≤ 100 := by decide
  exact ⟨hchunks, by decide, (pack_fewest 66 pages).1 chunks hchunks, hlarger,
    (pack_fewest 66 pages).2 100 hlarger⟩

end Folio.Chunk
