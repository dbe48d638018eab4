import Folio.Proofs.Rendered
import Mathlib.Data.ENat.Lattice

/-!
# The capacity of pages

The cursor of a page moves down line by line, and the page is full once it has come to the bottom
margin. How many lines that takes is the capacity of the page; a page that continues another one
counts from one line on, and whether there is an end to it at all depends on the numbers. The pages
of a text are filled to their capacities one after the other until no line is left
(`writeLines_fills`).
-/

set_option autoImplicit false

namespace Folio

namespace PageSetup

variable (setup : PageSetup)

/-- Where the cursor of a page stands behind a number of lines. -/
def cursorBehind : Nat → Float32
  | 0 => setup.size.height - setup.margin - setup.leading
  | n + 1 => cursorBehind n - setup.leading

/-- The least number of lines, not below `least`, behind which the cursor has come to the bottom
margin; infinite if there is none. -/
noncomputable def capacity (least : Nat) : ℕ∞ :=
  ⨅ (n : Nat) (_ : least ≤ n ∧ setup.cursorBehind n ≤ setup.margin), (n : ℕ∞)

/-- The capacity of an output page of a text, counted from zero: the first one may be left without
a line, the others may not. -/
noncomputable def room (segment : Nat) : ℕ∞ :=
  if segment = 0 then setup.capacity 0 else setup.capacity 1

/-- Lines are dealt out to pages in order, to each as many as there is room for, until none is
left. -/
structure Fills (lines : List Line) (pages : List (List Line)) : Prop where
  kept : pages.flatten = lines
  opened : pages ≠ []
  held : ∀ segment page, pages[segment]? = some page →
    (page.length : ℕ∞) =
      min ↑(lines.length - (pages.take segment).flatten.length) (setup.room segment)
  full : ∀ segment page, pages[segment]? = some page → segment + 1 < pages.length →
    (page.length : ℕ∞) = setup.room segment
  continued : ∀ page ∈ pages.tail, page ≠ []

/-! ## One page -/

theorem isFull_iff (n : Nat) :
    setup.isFull (setup.cursorBehind n) = true ↔ setup.cursorBehind n ≤ setup.margin :=
  decide_eq_true_iff

theorem capacity_of_full {n : Nat} (h : setup.cursorBehind n ≤ setup.margin) :
    setup.capacity n = n :=
  le_antisymm (iInf₂_le n ⟨le_rfl, h⟩) (le_iInf₂ fun _ hm => Nat.cast_le.2 hm.1)

theorem capacity_of_not_full {n : Nat} (h : ¬ setup.cursorBehind n ≤ setup.margin) :
    setup.capacity n = setup.capacity (n + 1) := by
  refine le_antisymm (le_iInf₂ fun m hm => iInf₂_le m ⟨Nat.le_of_succ_le hm.1, hm.2⟩)
    (le_iInf₂ fun m hm => iInf₂_le m ⟨?_, hm.2⟩)
  exact Nat.lt_of_le_of_ne hm.1 fun heq => h (heq ▸ hm.2)

/-- The lines of a page and those that are left are all there were. -/
theorem length_fill_add (cursor : Float32) (lines : List Line) :
    (setup.fill cursor lines).1.length + (setup.fill cursor lines).2.length = lines.length := by
  rw [← List.length_append, setup.fill_append]

/-- A page that holds `n` lines takes more of them up to its capacity. -/
theorem length_fill (n : Nat) (lines : List Line) :
    ((n + (setup.fill (setup.cursorBehind n) lines).1.length : Nat) : ℕ∞) =
      min ↑(n + lines.length) (setup.capacity n) := by
  induction lines generalizing n with
  | nil =>
    refine (min_eq_left ?_).symm
    exact le_iInf₂ fun m hm => Nat.cast_le.2 hm.1
  | cons line lines ih =>
    by_cases hfull : setup.cursorBehind n ≤ setup.margin
    · have htaken : setup.fill (setup.cursorBehind n) (line :: lines) = ([], line :: lines) := by
        rw [fill, if_pos ((setup.isFull_iff n).2 hfull)]
      rw [htaken, setup.capacity_of_full hfull]
      exact (min_eq_right (Nat.cast_le.2 (Nat.le_add_right n _))).symm
    · have htaken : (setup.fill (setup.cursorBehind n) (line :: lines)).1 =
          line :: (setup.fill (setup.cursorBehind (n + 1)) lines).1 := by
        rw [fill, if_neg (mt (setup.isFull_iff n).1 hfull)]
        rfl
      have hnext := ih (n + 1)
      rw [Nat.add_right_comm n 1, Nat.add_right_comm n 1] at hnext
      rw [htaken, setup.capacity_of_not_full hfull]
      exact hnext

/-! ## All pages -/

theorem continuedPages_cons (line : Line) (lines : List Line) :
    setup.continuedPages (line :: lines) =
      (line :: (setup.fill (setup.cursorBehind 1) lines).1) ::
        setup.continuedPages (setup.fill (setup.cursorBehind 1) lines).2 := by
  rw [continuedPages]
  rfl

/-- A page that continues a text has a line at least, and as many of those that are left as there is
room for. -/
theorem held_continuedPages (lines : List Line) {i : Nat} {page : List Line}
    (h : (setup.continuedPages lines)[i]? = some page) :
    page ≠ [] ∧ (page.length : ℕ∞) =
      min ↑(lines.length - ((setup.continuedPages lines).take i).flatten.length)
        (setup.capacity 1) := by
  induction lines using continuedPages.induct setup generalizing i with
  | case1 => simp [continuedPages] at h
  | case2 line lines ih =>
    rw [continuedPages_cons] at h ⊢
    cases i with
    | zero =>
      cases h
      refine ⟨List.cons_ne_nil _ _, ?_⟩
      have hlength := setup.length_fill 1 lines
      rw [Nat.add_comm, Nat.add_comm 1] at hlength
      exact hlength
    | succ i =>
      obtain ⟨hne, hheld⟩ := ih h
      refine ⟨hne, hheld.trans ?_⟩
      have hsplit := setup.length_fill_add (setup.cursorBehind 1) lines
      rw [List.take_succ_cons, List.flatten_cons, List.length_append, List.length_cons,
        List.length_cons, ← Nat.sub_sub, ← hsplit]
      congr 2
      have hcursor : setup.firstCursor - setup.leading = setup.cursorBehind 1 := rfl
      rw [hcursor]
      omega

/-- Room for more than a page holds is left only if nothing follows it. -/
theorem full_of_continued {lines : List Line} {pages : List (List Line)} {segment : Nat}
    {page next : List Line} {room : ℕ∞} (hkept : pages.flatten = lines)
    (hpage : pages[segment]? = some page) (hnext : pages[segment + 1]? = some next)
    (hne : next ≠ [])
    (hheld : (page.length : ℕ∞) =
      min ↑(lines.length - (pages.take segment).flatten.length) room) :
    (page.length : ℕ∞) = room := by
  obtain ⟨hlt, rfl⟩ := List.getElem?_eq_some_iff.1 hpage
  obtain ⟨hlt', rfl⟩ := List.getElem?_eq_some_iff.1 hnext
  have hsplit := congrArg (fun pages : List (List Line) => pages.flatten.length)
    (List.take_append_drop segment pages)
  simp only [List.drop_eq_getElem_cons hlt, List.drop_eq_getElem_cons hlt', List.flatten_append,
    List.flatten_cons, List.length_append, hkept] at hsplit
  have hpos := List.length_pos_of_ne_nil hne
  have hless : pages[segment].length < lines.length - (pages.take segment).flatten.length := by
    omega
  rcases min_choice (↑(lines.length - (pages.take segment).flatten.length)) room with h | h
  · rw [h, Nat.cast_inj] at hheld
    omega
  · rw [hheld, h]

theorem fills_paginate (lines : List Line) : setup.Fills lines (setup.paginate lines) := by
  have hkept := setup.flatten_paginate lines
  have hheld (segment : Nat) (page : List Line)
      (h : (setup.paginate lines)[segment]? = some page) :
      (segment ≠ 0 → page ≠ []) ∧ (page.length : ℕ∞) =
        min ↑(lines.length - ((setup.paginate lines).take segment).flatten.length)
          (setup.room segment) := by
    cases segment with
    | zero =>
      cases h
      have hlength := setup.length_fill 0 lines
      rw [Nat.zero_add, Nat.zero_add] at hlength
      exact ⟨fun h => absurd rfl h, hlength⟩
    | succ i =>
      obtain ⟨hne, hlength⟩ := setup.held_continuedPages _ h
      refine ⟨fun _ => hne, hlength.trans ?_⟩
      have hsplit := setup.length_fill_add setup.firstCursor lines
      rw [paginate, List.take_succ_cons, List.flatten_cons, List.length_append, ← hsplit, room,
        if_neg (Nat.succ_ne_zero i), Nat.add_sub_add_left]
  refine ⟨hkept, List.cons_ne_nil _ _, fun segment page h => (hheld segment page h).2,
    fun segment page h hlt => ?_, fun page hp => ?_⟩
  · have hnext := List.getElem?_eq_getElem hlt
    exact full_of_continued hkept h hnext ((hheld _ _ hnext).1 (Nat.succ_ne_zero segment))
      (hheld segment page h).2
  · obtain ⟨i, hi⟩ := List.mem_iff_getElem?.1 hp
    rw [List.getElem?_tail] at hi
    exact (hheld _ _ hi).1 (Nat.succ_ne_zero i)

/-- There is one page more than lines at most: the first one alone may be without any. -/
theorem Fills.length_le {setup : PageSetup} {lines : List Line} {pages : List (List Line)}
    (h : setup.Fills lines pages) : pages.length ≤ lines.length + 1 := by
  obtain ⟨first, later, rfl⟩ := List.exists_cons_of_ne_nil h.opened
  have hlater : later.length ≤ later.flatten.length := by
    have hmap : (later.map List.length).length = later.length := List.length_map List.length
    rw [List.length_flatten, ← hmap]
    exact List.length_le_sum_of_one_le _ fun n hn => by
      obtain ⟨page, hp, rfl⟩ := List.mem_map.1 hn
      exact List.length_pos_of_ne_nil (h.continued page hp)
  rw [← h.kept, List.flatten_cons, List.length_append, List.length_cons]
  omega

end PageSetup

/-- Over a sink that never fails, the lines of a text fill as many pages as they need, each under
its header, whatever the numbers of the setup are. -/
theorem writeLines_fills {σ κ : Type} (sink : Sink σ κ) (hs : sink.Reliable) (setup : PageSetup)
    (lines : List Line) (header : Nat → Line) (state : σ) :
    let run := sink.writeLines setup lines header state
    let record := sink.recorded.writeLines setup lines header ⟨state, []⟩
    ∃ pages, setup.Fills lines pages ∧ record.state.inner = run.state ∧
      committedSheets record.state.calls = setup.sheets header 0 pages ∧
      run.result = .ok pages.length ∧ pages.length ≤ lines.length + 1 := by
  obtain ⟨calls, hrec, hw, hcount⟩ := sink.writeLines_recorded setup lines header ⟨state, []⟩
  obtain ⟨hnone, hsheets⟩ := hw.of_reliable (not_not_intro hs)
  have hfills := setup.fills_paginate lines
  refine ⟨setup.paginate lines, hfills, ?_, ?_, ?_, hfills.length_le⟩
  · rw [hrec]
    rfl
  · rw [hrec]
    exact hsheets
  · cases hr : (sink.writeLines setup lines header state).result with
    | error e => rw [hr] at hnone; cases hnone
    | ok count =>
      rw [hcount count hr]
      simp [PageSetup.sheets]

/-- A page that is too small for any line stays empty when it is the first one; pages that continue
it hold a line each. -/
theorem writeLines_fills_tiny_page :
    let sink : Sink Unit Unit := {
      beginPage := fun _ state => (.ok (), state)
      showText := fun _ canvas state => (.ok (), canvas, state)
      newLine := fun canvas state => (.ok (), canvas, state)
      commitPage := fun _ state => (.ok (), state) }
    let setup : PageSetup := { size := ⟨200, 100⟩, fontSize := 10, leading := 14, margin := 48 }
    let lines : List Line := [['a'], ['b']]
    sink.Reliable ∧ setup.capacity 0 = 0 ∧ setup.capacity 1 = 1 ∧
      ∃ pages, setup.Fills lines pages ∧
        (sink.writeLines setup lines (fun _ => ['h']) ()).result = .ok pages.length ∧
        pages.length ≤ 3 := by
  intro sink setup lines
  have hs : sink.Reliable := ⟨fun _ _ => rfl, fun _ _ _ => rfl, fun _ _ => rfl, fun _ _ => rfl⟩
  have hfirst : setup.cursorBehind 0 ≤ setup.margin := by decide
  have hnext : setup.cursorBehind 1 ≤ setup.margin := by decide
  obtain ⟨pages, hfills, -, -, hresult, hle⟩ :=
    writeLines_fills sink hs setup lines (fun _ => ['h']) ()
  exact ⟨hs, setup.capacity_of_full hfirst, setup.capacity_of_full hnext, pages, hfills, hresult,
    hle⟩

end Folio
