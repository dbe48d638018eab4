import Folio.Page
import Mathlib.Data.List.Perm.Basic

/-!
# The order of pages

`Page.sort` gives a permutation in ascending order (`sort_perm`, `sort_ascending`). It is accepted
by `Page.sortDistinct` just when all numbers are positive and none occurs twice
(`sortDistinct_eq_ok_iff`); then the numbers strictly ascend. Whatever else is given is answered
with invalid input.
-/

set_option autoImplicit false

namespace Folio.Page

/-! ## Sorting -/

theorem insertSorted_perm (page : Page) (pages : List Page) :
    (insertSorted page pages).Perm (page :: pages) := by
  induction pages with
  | nil => exact .refl _
  | cons next rest ih =>
    unfold insertSorted
    split
    · exact .refl _
    · exact (ih.cons next).trans (.swap page next rest)

theorem sort_perm (pages : List Page) : (sort pages).Perm pages := by
  induction pages with
  | nil => exact .refl _
  | cons page pages ih => exact (insertSorted_perm page _).trans (ih.cons page)

theorem insertSorted_ascending {page : Page} {pages : List Page}
    (h : pages.Pairwise (·.number ≤ ·.number)) :
    (insertSorted page pages).Pairwise (·.number ≤ ·.number) := by
  induction pages with
  | nil => exact List.pairwise_singleton _ _
  | cons next rest ih =>
    obtain ⟨hle, hrest⟩ := List.pairwise_cons.1 h
    unfold insertSorted
    split
    · rename_i hp
      refine List.pairwise_cons.2 ⟨fun p hm => ?_, h⟩
      rcases List.mem_cons.1 hm with rfl | hm
      · exact hp
      · exact UInt32.le_trans hp (hle p hm)
    · rename_i hp
      refine List.pairwise_cons.2 ⟨fun p hm => ?_, ih hrest⟩
      rcases List.mem_cons.1 ((insertSorted_perm page rest).mem_iff.1 hm) with rfl | hm
      · exact (UInt32.le_total _ _).resolve_left hp
      · exact hle p hm

theorem sort_ascending (pages : List Page) : (sort pages).Pairwise (·.number ≤ ·.number) := by
  induction pages with
  | nil => exact .nil
  | cons page pages ih => exact insertSorted_ascending ih

@[simp] theorem mem_sort {page : Page} {pages : List Page} : page ∈ sort pages ↔ page ∈ pages :=
  (sort_perm pages).mem_iff

/-! ## Checking -/

/-- In pages that ascend from `previous` on, a fault is a zero or a number that is repeated. -/
theorem findFault_eq_none_iff (previous : Option PageNumber) {pages : List Page}
    (h : pages.Pairwise (·.number ≤ ·.number))
    (hp : ∀ n ∈ previous, ∀ p ∈ pages, n ≤ p.number) :
    findFault previous pages = none ↔
      (∀ p ∈ pages, p.number ≠ 0 ∧ previous ≠ some p.number) ∧
        pages.Pairwise (·.number < ·.number) := by
  induction pages generalizing previous with
  | nil => simp [findFault]
  | cons page rest ih =>
    obtain ⟨hle, hrest⟩ := List.pairwise_cons.1 h
    simp only [findFault, List.forall_mem_cons, List.pairwise_cons]
    split
    · simp_all
    · split
      · simp_all
      · rename_i h0 h1
        rw [ih _ hrest (by simpa using hle)]
        -- what follows is not below `page`, so it differs from it just when it is above
        have hlt : ∀ p ∈ rest, page.number < p.number ↔ some page.number ≠ some p.number :=
          fun p hm => by
            rw [UInt32.lt_iff_le_and_ne]
            simp [hle p hm]
        have hprev : ∀ p ∈ rest, page.number < p.number → previous ≠ some p.number := by
          rintro p hm hl rfl
          exact UInt32.not_le.2 hl (hp _ rfl page List.mem_cons_self)
        constructor
        · rintro ⟨hne, hpw⟩
          have hl : ∀ p ∈ rest, page.number < p.number := fun p hm => (hlt p hm).2 (hne p hm).2
          exact ⟨⟨⟨h0, h1⟩, fun p hm => ⟨(hne p hm).1, hprev p hm (hl p hm)⟩⟩, hl, hpw⟩
        · rintro ⟨⟨-, hne⟩, hl, hpw⟩
          exact ⟨fun p hm => ⟨(hne p hm).1, (hlt p hm).1 (hl p hm)⟩, hpw⟩

theorem findFault_invalidInput {previous : Option PageNumber} {pages : List Page}
    {error : TranslationError} (h : findFault previous pages = some error) :
    ∃ message, error = .invalidInput message := by
  induction pages generalizing previous with
  | nil => simp [findFault] at h
  | cons page rest ih =>
    simp only [findFault] at h
    split at h
    · exact ⟨_, (Option.some.inj h).symm⟩
    · split at h
      · exact ⟨_, (Option.some.inj h).symm⟩
      · exact ih h

theorem sortDistinct_invalidInput {pages : List Page} {error : TranslationError}
    (h : sortDistinct pages = .error error) : ∃ message, error = .invalidInput message := by
  unfold sortDistinct at h
  split at h
  · rename_i fault hf
    cases h
    exact findFault_invalidInput hf
  · cases h

theorem nodup_of_ascending {pages : List Page} (h : pages.Pairwise (·.number < ·.number)) :
    (pages.map Page.number).Nodup :=
  (List.pairwise_map.2 h).imp UInt32.ne_of_lt

theorem pairwise_lt_iff_nodup {pages : List Page} (h : pages.Pairwise (·.number ≤ ·.number)) :
    pages.Pairwise (·.number < ·.number) ↔ (pages.map Page.number).Nodup := by
  refine ⟨nodup_of_ascending, fun hn => ?_⟩
  exact (h.and (List.pairwise_map.1 hn)).imp fun ⟨hle, hne⟩ => UInt32.lt_iff_le_and_ne.2 ⟨hle, hne⟩

/-- The pages are accepted just when their numbers are positive and each occurs once. -/
theorem sortDistinct_eq_ok_iff {pages sorted : List Page} :
    sortDistinct pages = .ok sorted ↔
      sorted = sort pages ∧ (∀ p ∈ pages, p.number ≠ 0) ∧ (pages.map Page.number).Nodup := by
  have hf := findFault_eq_none_iff none (sort_ascending pages) (by simp)
  simp only [ne_eq, reduceCtorEq, not_false_eq_true, and_true, mem_sort] at hf
  rw [pairwise_lt_iff_nodup (sort_ascending pages),
    ((sort_perm pages).map Page.number).nodup_iff] at hf
  unfold sortDistinct
  split
  · rename_i fault hs
    rw [hs] at hf
    simp only [reduceCtorEq, false_iff] at hf
    simp [hf]
  · rename_i hs
    obtain ⟨hz, hn⟩ := hf.1 hs
    exact ⟨fun h => ⟨(Except.ok.inj h).symm, hz, hn⟩, fun h => congrArg _ h.1.symm⟩

/-- Accepted pages strictly ascend. -/
theorem sortDistinct_pairwise {pages sorted : List Page} (h : sortDistinct pages = .ok sorted) :
    sorted.Pairwise (·.number < ·.number) := by
  obtain ⟨rfl, -, hn⟩ := sortDistinct_eq_ok_iff.1 h
  rw [pairwise_lt_iff_nodup (sort_ascending pages)]
  exact ((sort_perm pages).map Page.number).nodup_iff.2 hn

end Folio.Page
