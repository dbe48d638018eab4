import Folio.Proofs.PageOrder
import Folio.Proofs.Sorted
import Folio.Reply

/-!
# Replies that are accepted

A reply is accepted just when it holds an object with an answer for every page of the chunk; then it
yields one text for each of these pages (`translations_eq_ok_iff`). For a chunk in order, the texts
come in the order of the pages.
-/

set_option autoImplicit false

namespace Folio.Reply

theorem insertNumber_perm (n : PageNumber) (numbers : List PageNumber) :
    (sortNumbers.insertNumber n numbers).Perm (n :: numbers) := by
  induction numbers with
  | nil => exact .refl _
  | cons m rest ih =>
    unfold sortNumbers.insertNumber
    split
    · exact .refl _
    · exact (ih.cons m).trans (.swap n m rest)

theorem sortNumbers_perm (numbers : List PageNumber) : (sortNumbers numbers).Perm numbers := by
  induction numbers with
  | nil => exact .refl _
  | cons n numbers ih => exact (insertNumber_perm n _).trans (ih.cons n)

theorem insertNumber_ascending {n : PageNumber} {numbers : List PageNumber}
    (h : numbers.Pairwise (· ≤ ·)) : (sortNumbers.insertNumber n numbers).Pairwise (· ≤ ·) := by
  induction numbers with
  | nil => exact List.pairwise_singleton _ _
  | cons m rest ih =>
    obtain ⟨hle, hrest⟩ := List.pairwise_cons.1 h
    unfold sortNumbers.insertNumber
    split
    · rename_i hn
      refine List.pairwise_cons.2 ⟨fun k hk => ?_, h⟩
      rcases List.mem_cons.1 hk with rfl | hk
      · exact hn
      · exact UInt32.le_trans hn (hle k hk)
    · rename_i hn
      refine List.pairwise_cons.2 ⟨fun k hk => ?_, ih hrest⟩
      rcases List.mem_cons.1 ((insertNumber_perm n rest).mem_iff.1 hk) with rfl | hk
      · exact (UInt32.le_total _ _).resolve_left hn
      · exact hle k hk

theorem sortNumbers_ascending (numbers : List PageNumber) :
    (sortNumbers numbers).Pairwise (· ≤ ·) := by
  induction numbers with
  | nil => exact .nil
  | cons n numbers ih => exact insertNumber_ascending ih

theorem missing_eq_nil_iff {answers : List (PageNumber × Json.Value)} {chunk : Chunk} :
    missing answers chunk = [] ↔ ∀ page ∈ chunk, (answers.lookup page.number).isSome := by
  rw [missing, ← List.length_eq_zero_iff, (sortNumbers_perm _).length_eq, List.length_eq_zero_iff,
    List.filter_eq_nil_iff]
  simp [Chunk.numbers, Option.isSome_iff_ne_none]

/-- The translation of a page that answers hold. -/
def textIn (answers : List (PageNumber × Json.Value)) (page : Page) : String :=
  ((answers.lookup page.number).map text).getD ""

theorem translations_of_unreadable {content : String} {e : Json.ReadError}
    (h : Json.parse (cleaned content) = .error e) (chunk : Chunk) :
    translations content chunk =
      .error (.protocol s!"Assistant content was not valid JSON: {e.message}") := by
  simp only [translations, object, h, bind, Except.bind]

/-- An object is judged by the pages that it leaves without an answer. -/
theorem translations_of_object {content : String} {chunk : Chunk} {members : Json.Members}
    (h : object content = .ok members) :
    translations content chunk =
      if (missing (answers members) chunk).isEmpty then
        .ok (Sorted.ofList (chunk.map fun page => (page.number, textIn (answers members) page)))
      else .error (.missingPages (missing (answers members) chunk)) := by
  simp only [translations, h, bind, Except.bind]
  rfl

theorem translations_eq_ok_iff {content : String} {chunk : Chunk}
    {entries : List (PageNumber × String)} :
    translations content chunk = .ok entries ↔
      ∃ members, object content = .ok members ∧
        (∀ page ∈ chunk, ((answers members).lookup page.number).isSome) ∧
        entries = Sorted.ofList (chunk.map fun page => (page.number, textIn (answers members) page))
      := by
  cases hobject : object content with
  | error e => simp [translations, hobject, bind, Except.bind]
  | ok members =>
    rw [translations_of_object hobject]
    simp only [Except.ok.injEq, exists_eq_left', ← missing_eq_nil_iff, List.isEmpty_iff]
    split
    · rename_i hm
      simp [hm, eq_comm]
    · rename_i hm
      simp [hm]

/-- Entries under the numbers of pages that ascend are in order. -/
theorem ofList_map_number {α : Type} {pages : List Page} (h : pages.Pairwise (·.number < ·.number))
    (f : Page → α) :
    Sorted.ofList (pages.map fun page => (page.number, f page)) =
      pages.map fun page => (page.number, f page) :=
  Sorted.ofList_of_ascending (List.pairwise_map.2 h)

end Folio.Reply
