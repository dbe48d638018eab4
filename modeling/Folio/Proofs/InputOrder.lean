import Folio.Proofs.PageOrder
import Folio.Renderer
import Folio.Translation

/-!
# The order of the input

Pages may be given in any order. What the check of their numbers says of them (`Page.Judged`) does
not depend on it: a zero is reported first, and otherwise the smallest number that is repeated. So
neither does anything that follows: the run of a job and the rendered document are the same
(`order_irrelevant`).
-/

set_option autoImplicit false

namespace Folio

namespace Page

/-- What the check of pages comes to, by their numbers alone. -/
inductive Judged (pages : List Page) : Except TranslationError (List Page) → Prop
  | zero (zero : ∃ page ∈ pages, page.number = 0) :
      Judged pages (.error (.invalidInput "Page numbers start at 1"))
  | repeated (n : PageNumber) (positive : ∀ page ∈ pages, page.number ≠ 0)
      (twice : 2 ≤ (pages.map Page.number).count n)
      (least : ∀ m, 2 ≤ (pages.map Page.number).count m → n ≤ m) :
      Judged pages (.error (.invalidInput s!"Page {n.toNat} appears more than once"))
  | sorted (sorted : List Page) (positive : ∀ page ∈ pages, page.number ≠ 0)
      (distinct : (pages.map Page.number).Nodup) (perm : sorted.Perm pages)
      (ascending : sorted.Pairwise (·.number < ·.number)) :
      Judged pages (.ok sorted)

/-! ## The fault of sorted pages -/

/-- Only the numbers of pages matter for what is wrong with them. -/
theorem findFault_congr (previous : Option PageNumber) {pages others : List Page}
    (h : pages.map Page.number = others.map Page.number) :
    findFault previous pages = findFault previous others := by
  induction pages generalizing previous others with
  | nil =>
    cases others with
    | nil => rfl
    | cons other others => cases h
  | cons page pages ih =>
    cases others with
    | nil => cases h
    | cons other others =>
      obtain ⟨hnumber, hrest⟩ := List.cons.inj h
      unfold findFault
      rw [hnumber, ih (some other.number) hrest]

/-- A zero stands at the front of sorted pages, and so is what is found. -/
theorem findFault_of_zero {pages : List Page} (hsorted : pages.Pairwise (·.number ≤ ·.number))
    (hzero : ∃ page ∈ pages, page.number = 0) :
    findFault none pages = some (.invalidInput "Page numbers start at 1") := by
  obtain ⟨zero, hm, hzero⟩ := hzero
  cases pages with
  | nil => cases hm
  | cons page rest =>
    have hhead : page.number = 0 := by
      rcases List.mem_cons.1 hm with rfl | hm
      · exact hzero
      · have hle := (List.pairwise_cons.1 hsorted).1 zero hm
        rw [hzero] at hle
        exact UInt32.le_zero_iff.1 hle
    simp [findFault, hhead]

theorem two_le_count_cons {p m : PageNumber} {numbers : List PageNumber} (h : p ∉ numbers) :
    2 ≤ (p :: numbers).count m ↔ 2 ≤ numbers.count m := by
  by_cases hm : m = p
  · subst hm
    have hnone : numbers.count m = 0 := List.count_eq_zero.2 h
    rw [List.count_cons_self]
    omega
  · rw [List.count_cons_of_ne (Ne.symm hm)]

/-- In sorted pages with positive numbers, what is found is the smallest number that is repeated,
where `previous` stands before them. -/
theorem findFault_repeated {previous : Option PageNumber} {pages : List Page}
    {error : TranslationError}
    (hsorted : (previous.toList ++ pages.map Page.number).Pairwise (· ≤ ·))
    (hpositive : ∀ page ∈ pages, page.number ≠ 0) (h : findFault previous pages = some error) :
    ∃ n, error = .invalidInput s!"Page {n.toNat} appears more than once" ∧
      2 ≤ (previous.toList ++ pages.map Page.number).count n ∧
      ∀ m, 2 ≤ (previous.toList ++ pages.map Page.number).count m → n ≤ m := by
  induction pages generalizing previous with
  | nil => simp [findFault] at h
  | cons page rest ih =>
    have hrest : ((some page.number).toList ++ rest.map Page.number).Pairwise (· ≤ ·) :=
      (List.pairwise_append.1 hsorted).2.1
    unfold findFault at h
    rw [if_neg (hpositive page List.mem_cons_self)] at h
    by_cases hprevious : previous = some page.number
    · subst hprevious
      rw [if_pos rfl] at h
      refine ⟨page.number, (Option.some.inj h).symm, ?_, ?_⟩
      · simp
      · intro m hm
        have hmem : m ∈ (some page.number).toList ++ (page :: rest).map Page.number :=
          List.count_pos_iff.1 (by omega)
        rcases List.mem_cons.1 hmem with rfl | hmem
        · exact UInt32.le_refl _
        · exact (List.pairwise_cons.1 hsorted).1 m hmem
    · rw [if_neg hprevious] at h
      obtain ⟨n, herror, htwice, hleast⟩ :=
        ih hrest (fun p hp => hpositive p (List.mem_cons_of_mem _ hp)) h
      -- `previous` is below all that follows, so that it changes no count of two
      have hcount : ∀ m, 2 ≤ (previous.toList ++ (page :: rest).map Page.number).count m ↔
          2 ≤ ((some page.number).toList ++ rest.map Page.number).count m := by
        intro m
        cases previous with
        | none => rfl
        | some p =>
          refine two_le_count_cons fun hp => ?_
          have hle := (List.pairwise_cons.1 hsorted).1 page.number List.mem_cons_self
          rcases List.mem_cons.1 hp with heq | hp
          · exact hprevious (congrArg some heq)
          · have hge := (List.pairwise_cons.1 hrest).1 p hp
            exact hprevious (congrArg some (UInt32.le_antisymm hle hge))
      exact ⟨n, herror, (hcount n).2 htwice, fun m hm => hleast m ((hcount m).1 hm)⟩

/-! ## The judgement -/

theorem sortDistinct_judged (pages : List Page) : Judged pages (sortDistinct pages) := by
  have hnumbers := (sort_perm pages).map Page.number
  unfold sortDistinct
  by_cases hzero : ∃ page ∈ pages, page.number = 0
  · have hsome : ∃ page ∈ sort pages, page.number = 0 := by simpa using hzero
    rw [findFault_of_zero (sort_ascending pages) hsome]
    exact .zero hzero
  · have hpositive : ∀ page ∈ pages, page.number ≠ 0 := by
      intro page hp h0
      exact hzero ⟨page, hp, h0⟩
    cases hfault : findFault none (sort pages) with
    | some error =>
      have hsorted : ((none : Option PageNumber).toList ++ (sort pages).map Page.number).Pairwise
          (· ≤ ·) := List.pairwise_map.2 (sort_ascending pages)
      obtain ⟨n, rfl, htwice, hleast⟩ := findFault_repeated hsorted (by simpa using hpositive) hfault
      simp only [Option.toList_none, List.nil_append, hnumbers.count_eq] at htwice hleast
      exact .repeated n hpositive htwice hleast
    | none =>
      have hok : sortDistinct pages = .ok (sort pages) := by
        unfold sortDistinct
        rw [hfault]
      obtain ⟨-, -, hdistinct⟩ := sortDistinct_eq_ok_iff.1 hok
      exact .sorted (sort pages) hpositive hdistinct (sort_perm pages) (sortDistinct_pairwise hok)

/-! ## Shuffled pages -/

section
variable {pages shuffled : List Page}

/-- Pages of one number may come out in another order, their numbers may not. -/
theorem map_number_sort_of_perm (h : shuffled.Perm pages) :
    (sort shuffled).map Page.number = (sort pages).map Page.number := by
  have hperm : ((sort shuffled).map Page.number).Perm ((sort pages).map Page.number) :=
    ((sort_perm shuffled).trans (h.trans (sort_perm pages).symm)).map Page.number
  exact hperm.eq_of_pairwise (fun _ _ _ _ => UInt32.le_antisymm)
    (List.pairwise_map.2 (sort_ascending shuffled)) (List.pairwise_map.2 (sort_ascending pages))

theorem sort_of_perm (h : shuffled.Perm pages) (hn : (pages.map Page.number).Nodup) :
    sort shuffled = sort pages := by
  have hstrict {list : List Page} (hl : list.Perm pages) :
      (sort list).Pairwise (·.number < ·.number) := by
    rw [pairwise_lt_iff_nodup (sort_ascending list)]
    exact (((sort_perm list).trans hl).map Page.number).nodup_iff.2 hn
  have hperm : (sort shuffled).Perm (sort pages) :=
    (sort_perm shuffled).trans (h.trans (sort_perm pages).symm)
  refine hperm.eq_of_pairwise ?_ (hstrict h) (hstrict (.refl pages))
  intro a b _ _ hab hba
  exact absurd (UInt32.lt_trans hab hba) (UInt32.lt_irrefl _)

/-- Refused pages are refused with the same words, accepted ones come out in the same order. -/
theorem sortDistinct_of_perm (h : shuffled.Perm pages) :
    sortDistinct shuffled = sortDistinct pages := by
  have hfault : findFault none (sort shuffled) = findFault none (sort pages) :=
    findFault_congr none (map_number_sort_of_perm h)
  cases hp : sortDistinct pages with
  | ok sorted =>
    obtain ⟨rfl, hpositive, hn⟩ := sortDistinct_eq_ok_iff.1 hp
    refine sortDistinct_eq_ok_iff.2 ⟨(sort_of_perm h hn).symm, ?_, ?_⟩
    · intro page hm
      exact hpositive page (h.mem_iff.1 hm)
    · exact (h.map Page.number).nodup_iff.2 hn
  | error error =>
    unfold sortDistinct at hp ⊢
    rw [hfault]
    split at hp
    · exact hp
    · cases hp

theorem sortDistinct_eq_error_iff :
    (∃ error, sortDistinct pages = .error error) ↔
      (∃ page ∈ pages, page.number = 0) ∨ ¬ (pages.map Page.number).Nodup := by
  constructor
  · rintro ⟨error, herror⟩
    by_contra hnot
    push Not at hnot
    have hok := sortDistinct_eq_ok_iff.2 ⟨rfl, hnot.1, hnot.2⟩
    rw [herror] at hok
    cases hok
  · intro hfault
    cases hp : sortDistinct pages with
    | error error => exact ⟨error, rfl⟩
    | ok sorted =>
      obtain ⟨-, hpositive, hn⟩ := sortDistinct_eq_ok_iff.1 hp
      rcases hfault with ⟨page, hm, h0⟩ | hnot
      · exact absurd h0 (hpositive page hm)
      · exact absurd hn hnot

end

end Page

/-! ## Runs -/

/-- In whatever order pages are given, the check of their numbers says the same about them, a job
sends the same requests with the same progress to the same end, and pages with distinct numbers are
drawn in the same way. -/
theorem order_irrelevant {pages shuffled : List Page} (h : shuffled.Perm pages) :
    Page.Judged pages (Page.sortDistinct pages) ∧
      ((∃ error, Page.sortDistinct pages = .error error) ↔
        (∃ page ∈ pages, page.number = 0) ∨ ¬ (pages.map Page.number).Nodup) ∧
      Page.sortDistinct shuffled = Page.sortDistinct pages ∧
      (∀ {σ : Type} (job : Job) (transport : Transport σ) (state : σ),
        job.translate transport shuffled state = job.translate transport pages state) ∧
      ((pages.map Page.number).Nodup → ∀ {σ κ : Type} (renderer : Renderer) (sink : Sink σ κ)
        (translations : Translations) (sizes : List (Option PageSize)) (state : σ),
        renderer.render sink shuffled translations sizes state =
          renderer.render sink pages translations sizes state) := by
  have hsort : Page.sortDistinct shuffled = Page.sortDistinct pages := Page.sortDistinct_of_perm h
  refine ⟨Page.sortDistinct_judged pages, Page.sortDistinct_eq_error_iff, hsort, ?_, ?_⟩
  · intro σ job transport state
    unfold Job.translate
    rw [hsort]
  · intro hn σ κ renderer sink translations sizes state
    unfold Renderer.render
    rw [Page.sort_of_perm h hn]

/-- Three pages, of which two have a number in common and different texts, are refused in the same
way in any order; two pages with distinct numbers are drawn in the same way. -/
theorem order_irrelevant_repeated :
    let pages : List Page := [⟨2, "a"⟩, ⟨1, "b"⟩, ⟨2, "c"⟩]
    let shuffled : List Page := [⟨2, "c"⟩, ⟨2, "a"⟩, ⟨1, "b"⟩]
    shuffled.Perm pages ∧ Page.sortDistinct shuffled = Page.sortDistinct pages ∧
      ∀ {σ κ : Type} (renderer : Renderer) (sink : Sink σ κ) (state : σ),
        renderer.render sink [⟨2, "a"⟩, ⟨1, "b"⟩] .empty [] state =
          renderer.render sink [⟨1, "b"⟩, ⟨2, "a"⟩] .empty [] state := by
  intro pages shuffled
  have h : shuffled.Perm pages := by decide
  refine ⟨h, (order_irrelevant h).2.2.1, ?_⟩
  intro σ κ renderer sink state
  have hswap : ([⟨2, "a"⟩, ⟨1, "b"⟩] : List Page).Perm [⟨1, "b"⟩, ⟨2, "a"⟩] := by decide
  obtain ⟨-, -, -, -, hdrawn⟩ := order_irrelevant hswap
  exact hdrawn (by decide) renderer sink .empty [] state

end Folio
