import Folio.Pdf.Source
import Mathlib.Data.List.Forall2
import Mathlib.Data.Nat.Notation
import Mathlib.Order.Basic

/-!
# The boxes of pages

The size of a page is read off the first dictionary with a usable box on the way from the page up
its parents (`Measured`). At most ten dictionaries are looked at, so that the search comes to an end
where the way up runs in a circle, and a box that cannot be used hides none above it. Nothing else
in the document counts (`pageSizes_nearest`).
-/

set_option autoImplicit false

namespace Folio.Pdf.Document

/-! ## The way up -/

/-- The dictionary that the reference to the parent leads to. -/
def parent? (doc : Document) (dict : Dictionary) : Option Dictionary :=
  ((dict.lookup "Parent").bind Object.reference?).bind doc.dictionary?

/-- The dictionary so many steps above the object with a number. -/
def ancestor? (doc : Document) (number : ℕ) : ℕ → Option Dictionary
  | 0 => doc.dictionary? number
  | steps + 1 => (doc.ancestor? number steps).bind doc.parent?

/-- A box of a dictionary's own: an array, given directly or by a reference, with exactly four
numbers among its items. -/
def HasBox (doc : Document) (dict : Dictionary) (left bottom right top : Float32) : Prop :=
  ∃ items,
    (dict.lookup "MediaBox" = some (.array items) ∨
      ∃ number, dict.lookup "MediaBox" = some (.reference number) ∧
        doc.get number = .ok (.array items)) ∧
    items.filterMap Object.number? = [left, bottom, right, top]

/-- A dictionary without a usable box. -/
def Boxless (doc : Document) (dict : Dictionary) : Prop :=
  ∀ left bottom right top, ¬ doc.HasBox dict left bottom right top

/-- The size that is found for a page among so many dictionaries on the way up from it: that between
the numbers of the nearest usable box, if both its sides are positive. -/
inductive Measured (doc : Document) (depth page : ℕ) : Option PageSize → Prop
  | nearest {steps : ℕ} {dict : Dictionary} {left bottom right top : Float32}
      (within : steps < depth)
      (reached : doc.ancestor? page steps = some dict)
      (box : doc.HasBox dict left bottom right top)
      (first : ∀ earlier < steps, ∀ below ∈ doc.ancestor? page earlier, doc.Boxless below) :
      Measured doc depth page
        (if 0 < (right - left).abs ∧ 0 < (top - bottom).abs then
          some ⟨(right - left).abs, (top - bottom).abs⟩
        else none)
  | none (boxless : ∀ steps < depth, ∀ dict ∈ doc.ancestor? page steps, doc.Boxless dict) :
      Measured doc depth page none

/-- On the ways up from a page of each, two documents have the same dictionaries, and the same
arrays where these refer to boxes. -/
def SameWay (doc other : Document) (depth page otherPage : ℕ) : Prop :=
  ∀ steps < depth, doc.ancestor? page steps = other.ancestor? otherPage steps ∧
    ∀ dict ∈ doc.ancestor? page steps, ∀ number,
      dict.lookup "MediaBox" = some (.reference number) →
        ∀ items, doc.get number = .ok (.array items) ↔ other.get number = .ok (.array items)

variable {doc : Document}

/-- Above a dictionary, the way up is that of its parent. -/
theorem ancestor?_succ {number parent : ℕ} {dict : Dictionary}
    (hdict : doc.dictionary? number = some dict)
    (hparent : (dict.lookup "Parent").bind Object.reference? = some parent) (steps : ℕ) :
    doc.ancestor? number (steps + 1) = doc.ancestor? parent steps := by
  induction steps with
  | zero => simp [ancestor?, hdict, parent?, hparent]
  | succ steps ih => rw [ancestor?, ih, ancestor?]

/-- Where there is no parent, the way up has come to its end. -/
theorem ancestor?_eq_none {number : ℕ}
    (h : ∀ dict ∈ doc.dictionary? number, (dict.lookup "Parent").bind Object.reference? = none)
    (steps : ℕ) : doc.ancestor? number (steps + 1) = none := by
  induction steps with
  | zero =>
    rw [ancestor?, ancestor?, Option.bind_eq_none_iff]
    intro dict hdict
    rw [parent?, h dict hdict]
    rfl
  | succ steps ih =>
    rw [ancestor?, ih]
    rfl

/-! ## Boxes -/

theorem arrayAt?_eq_some_iff {value : Object} {items : List Object} :
    doc.arrayAt? value = some items ↔
      value = .array items ∨
        ∃ number, value = .reference number ∧ doc.get number = .ok (.array items) := by
  cases value with
  | array found => simp [arrayAt?]
  | reference number =>
    simp only [arrayAt?, reduceCtorEq, Object.reference.injEq, exists_eq_left', false_or]
    cases doc.get number with
    | error fault => simp [Except.toOption]
    | ok object =>
      cases object with
      | array found => simp [Except.toOption, Object.array?]
      | _ => simp [Except.toOption, Object.array?]
  | _ => simp [arrayAt?]

/-- The box that is read off a dictionary is its own. -/
theorem ownBox?_eq_some_iff {dict : Dictionary} {box : List Float32} :
    doc.ownBox? dict = some box ↔
      ∃ left bottom right top, box = [left, bottom, right, top] ∧
        doc.HasBox dict left bottom right top := by
  constructor
  · intro h
    obtain ⟨value, hvalue, h⟩ := Option.bind_eq_some_iff.1 h
    obtain ⟨items, hitems, h⟩ := Option.bind_eq_some_iff.1 h
    obtain ⟨hlength, hbox⟩ : (items.filterMap Object.number?).length = 4 ∧
        items.filterMap Object.number? = box := by simpa using h
    obtain ⟨left, bottom, right, top, hnumbers⟩ := List.length_eq_four.1 hlength
    refine ⟨left, bottom, right, top, hbox.symm.trans hnumbers, items, ?_, hnumbers⟩
    rcases arrayAt?_eq_some_iff.1 hitems with rfl | ⟨number, rfl, hget⟩
    · exact .inl hvalue
    · exact .inr ⟨number, hvalue, hget⟩
  · rintro ⟨left, bottom, right, top, rfl, items, hplace, hnumbers⟩
    obtain ⟨value, hvalue, hitems⟩ :
        ∃ value, dict.lookup "MediaBox" = some value ∧ doc.arrayAt? value = some items := by
      rcases hplace with hvalue | ⟨number, hvalue, hget⟩
      · exact ⟨_, hvalue, rfl⟩
      · exact ⟨_, hvalue, arrayAt?_eq_some_iff.2 (.inr ⟨number, rfl, hget⟩)⟩
    simp [ownBox?, hvalue, hitems, hnumbers]

theorem ownBox?_eq_none_iff {dict : Dictionary} : doc.ownBox? dict = none ↔ doc.Boxless dict := by
  rw [Option.eq_none_iff_forall_not_mem]
  constructor
  · intro h left bottom right top hbox
    exact h _ (ownBox?_eq_some_iff.2 ⟨left, bottom, right, top, rfl, hbox⟩)
  · intro h box hmem
    obtain ⟨left, bottom, right, top, -, hbox⟩ := ownBox?_eq_some_iff.1 hmem
    exact h left bottom right top hbox

/-- A dictionary has at most one box. -/
theorem HasBox.unique {dict : Dictionary} {left bottom right top left' bottom' right' top' : Float32}
    (h : doc.HasBox dict left bottom right top) (h' : doc.HasBox dict left' bottom' right' top') :
    left = left' ∧ bottom = bottom' ∧ right = right' ∧ top = top' := by
  have hbox := ownBox?_eq_some_iff.2 ⟨left, bottom, right, top, rfl, h⟩
  have hbox' := ownBox?_eq_some_iff.2 ⟨left', bottom', right', top', rfl, h'⟩
  simpa using hbox.symm.trans hbox'

/-! ## Searching -/

theorem get_dictionary? (doc : Document) (number : ℕ) :
    (doc.get number).toOption.bind Object.dictionary? = doc.dictionary? number := by
  unfold dictionary? dictionary
  cases doc.get number with
  | error fault => rfl
  | ok object =>
    cases object with
    | dictionary entries => rfl
    | _ => rfl

/-- The box of the object with a number, found among so many dictionaries. -/
def boxOf? (doc : Document) (depth number : ℕ) : Option (List Float32) :=
  (doc.get number).toOption.bind (doc.box? depth)

/-- One dictionary is looked at, and then its parent. -/
theorem boxOf?_succ (doc : Document) (depth number : ℕ) :
    doc.boxOf? (depth + 1) number = (doc.dictionary? number).bind fun dict =>
      (doc.ownBox? dict).or
        (((dict.lookup "Parent").bind Object.reference?).bind (doc.boxOf? depth)) := by
  rw [← get_dictionary?, boxOf?, Option.bind_assoc]
  refine congrArg _ (funext fun object => ?_)
  simp only [box?, Option.bind_eq_bind]
  refine congrArg _ (funext fun dict => ?_)
  cases doc.ownBox? dict with
  | some box => rfl
  | none => rw [Option.none_or, Option.bind_assoc]; rfl

namespace Measured

variable {depth page : ℕ} {size? other? : Option PageSize}

/-- Where the first dictionary has no box, what is found is found for its parent. -/
theorem of_parent {parent : ℕ} {dict : Dictionary} (hdict : doc.dictionary? page = some dict)
    (hboxless : doc.Boxless dict)
    (hparent : (dict.lookup "Parent").bind Object.reference? = some parent)
    (h : doc.Measured depth parent size?) : doc.Measured (depth + 1) page size? := by
  have hbelow : ∀ below ∈ doc.ancestor? page 0, doc.Boxless below := by
    intro below hbelow
    cases hdict.symm.trans hbelow
    exact hboxless
  cases h with
  | nearest within reached box first =>
    refine .nearest (Nat.succ_lt_succ within) ?_ box fun earlier hearlier => ?_
    · rw [ancestor?_succ hdict hparent, reached]
    · cases earlier with
      | zero => exact hbelow
      | succ earlier =>
        rw [ancestor?_succ hdict hparent]
        exact first earlier (Nat.lt_of_succ_lt_succ hearlier)
  | none boxless =>
    refine .none fun steps hsteps => ?_
    cases steps with
    | zero => exact hbelow
    | succ steps =>
      rw [ancestor?_succ hdict hparent]
      exact boxless steps (Nat.lt_of_succ_lt_succ hsteps)

/-- Where there is no parent, nothing is found above. -/
theorem of_top (hboxless : ∀ dict ∈ doc.dictionary? page, doc.Boxless dict)
    (hparent : ∀ dict ∈ doc.dictionary? page,
      (dict.lookup "Parent").bind Object.reference? = Option.none) :
    doc.Measured depth page Option.none := by
  refine .none fun steps _ => ?_
  cases steps with
  | zero => exact hboxless
  | succ steps => simp [ancestor?_eq_none hparent]

/-- No two sizes are found for a page. -/
theorem unique (h : doc.Measured depth page size?) (h' : doc.Measured depth page other?) :
    size? = other? := by
  cases h with
  | @nearest steps dict _ _ _ _ within reached box first =>
    cases h' with
    | @nearest steps' dict' _ _ _ _ within' reached' box' first' =>
      have hsteps : steps = steps' := by
        rcases Nat.lt_trichotomy steps steps' with hlt | heq | hgt
        · exact absurd box (first' steps hlt dict reached _ _ _ _)
        · exact heq
        · exact absurd box' (first steps' hgt dict' reached' _ _ _ _)
      subst hsteps
      cases reached.symm.trans reached'
      obtain ⟨rfl, rfl, rfl, rfl⟩ := box.unique box'
      rfl
    | none boxless => exact absurd box (boxless steps within dict reached _ _ _ _)
  | none boxless =>
    cases h' with
    | nearest within reached box first => exact absurd box (boxless _ within _ reached _ _ _ _)
    | none _ => rfl

end Measured

theorem measured_boxOf? (doc : Document) (depth page : ℕ) :
    doc.Measured depth page ((doc.boxOf? depth page).bind sizeOfBox?) := by
  induction depth generalizing page with
  | zero =>
    have hnone : doc.boxOf? 0 page = none := by
      rw [boxOf?, Option.bind_eq_none_iff]
      exact fun _ _ => rfl
    rw [hnone]
    exact .none fun steps hsteps => absurd hsteps steps.not_lt_zero
  | succ depth ih =>
    rw [boxOf?_succ]
    cases hdict : doc.dictionary? page with
    | none => exact .of_top (by simp [hdict]) (by simp [hdict])
    | some dict =>
      rw [Option.bind_some]
      cases hbox : doc.ownBox? dict with
      | some box =>
        obtain ⟨left, bottom, right, top, rfl, hown⟩ := ownBox?_eq_some_iff.1 hbox
        exact .nearest depth.succ_pos hdict hown fun earlier hearlier =>
          absurd hearlier earlier.not_lt_zero
      | none =>
        have hboxless := ownBox?_eq_none_iff.1 hbox
        have hfirst : ∀ found ∈ doc.dictionary? page, found = dict := fun found hfound =>
          Option.some.inj (hfound.symm.trans hdict)
        rw [Option.none_or]
        cases hparent : (dict.lookup "Parent").bind Object.reference? with
        | some parent => exact (ih parent).of_parent hdict hboxless hparent
        | none =>
          exact .of_top (fun found hfound => hfirst found hfound ▸ hboxless) fun found hfound =>
            hfirst found hfound ▸ hparent

theorem HasBox.congr {other : Document} {dict : Dictionary} {left bottom right top : Float32}
    (h : ∀ number, dict.lookup "MediaBox" = some (.reference number) →
      ∀ items, doc.get number = .ok (.array items) ↔ other.get number = .ok (.array items)) :
    doc.HasBox dict left bottom right top ↔ other.HasBox dict left bottom right top := by
  refine exists_congr fun items => and_congr_left fun _ => or_congr_right ?_
  exact exists_congr fun number => and_congr_right fun hnumber => h number hnumber items

/-- The same is found where the ways up are the same. -/
theorem SameWay.measured {other : Document} {depth page otherPage : ℕ} {size? : Option PageSize}
    (h : doc.SameWay other depth page otherPage) (hfound : doc.Measured depth page size?) :
    other.Measured depth otherPage size? := by
  have hboxless : ∀ steps < depth, (∀ dict ∈ doc.ancestor? page steps, doc.Boxless dict) →
      ∀ dict ∈ other.ancestor? otherPage steps, other.Boxless dict := by
    intro steps hsteps hall dict hdict left bottom right top hbox
    obtain ⟨hsame, harrays⟩ := h steps hsteps
    rw [← hsame] at hdict
    exact hall dict hdict left bottom right top ((HasBox.congr (harrays dict hdict)).2 hbox)
  cases hfound with
  | nearest within reached box first =>
    obtain ⟨hsame, harrays⟩ := h _ within
    refine .nearest within (hsame.symm.trans reached) ((HasBox.congr (harrays _ reached)).1 box) ?_
    intro earlier hearlier
    exact hboxless earlier (Nat.lt_trans hearlier within) (first earlier hearlier)
  | none boxless => exact .none fun steps hsteps => hboxless steps hsteps (boxless steps hsteps)

/-- Every page of every document has the size that is found on the way up from it, among ten
dictionaries. It depends on nothing but the dictionaries on the way up and the arrays that these
refer to for their boxes. -/
theorem pageSizes_nearest (doc : Document) :
    List.Forall₂ (doc.Measured 10) doc.pages doc.pageSizes ∧
      ∀ (other : Document) (i j page otherPage : ℕ), doc.pages[i]? = some page →
        other.pages[j]? = some otherPage → doc.SameWay other 10 page otherPage →
          doc.pageSizes[i]? = other.pageSizes[j]? := by
  have hsizes (doc : Document) :
      doc.pageSizes = doc.pages.map fun page => (doc.boxOf? 10 page).bind sizeOfBox? := rfl
  constructor
  · rw [hsizes, List.forall₂_map_right_iff, List.forall₂_same]
    exact fun page _ => doc.measured_boxOf? 10 page
  · intro other i j page otherPage hpage hother hsame
    rw [hsizes, hsizes, List.getElem?_map, List.getElem?_map, hpage, hother, Option.map_some,
      Option.map_some]
    exact congrArg some
      ((hsame.measured (doc.measured_boxOf? 10 page)).unique (other.measured_boxOf? 10 otherPage))

/-- A page and its parent that lead to each other: the box of the page has a name among its items,
that of the parent is behind a reference. In a larger document the page has the same size. -/
theorem pageSizes_nearest_circle :
    let leaf : Dictionary := [("Type", .name "Page"), ("Parent", .reference 2),
      ("MediaBox", .array [.integer 0, .integer 0, .integer 5, .name "top"])]
    let branch : Dictionary := [("Type", .name "Pages"), ("Parent", .reference 3),
      ("Kids", .array [.reference 3]), ("MediaBox", .reference 4)]
    let box : Object := .array [.integer 0, .integer 842, .null, .integer 595, .integer 0]
    let doc : Document := {
      objects := [(1, .dictionary [("Pages", .reference 2)]), (2, .dictionary branch),
        (3, .dictionary leaf), (4, box)]
      root := some (.reference 1) }
    let other : Document := {
      objects := [(2, .dictionary branch), (3, .dictionary leaf), (4, box),
        (5, .dictionary [("Type", .name "Page")]), (6, .dictionary [("Pages", .reference 7)]),
        (7, .dictionary [("Type", .name "Pages"), ("Kids", .array [.reference 5, .reference 2])])]
      root := some (.reference 6) }
    doc.pages = [3] ∧ other.pages = [5, 3] ∧ doc.SameWay other 10 3 3 ∧
      doc.pageSizes[0]? = some (some ⟨595, 842⟩) ∧ doc.pageSizes[0]? = other.pageSizes[1]? := by
  intro leaf branch box doc other
  have hway (steps : ℕ) :
      (doc.ancestor? 3 steps = some leaf ∧ other.ancestor? 3 steps = some leaf) ∨
        (doc.ancestor? 3 steps = some branch ∧ other.ancestor? 3 steps = some branch) := by
    induction steps with
    | zero => exact .inl ⟨rfl, rfl⟩
    | succ steps ih =>
      rcases ih with ⟨hdoc, hother⟩ | ⟨hdoc, hother⟩
      · rw [ancestor?, ancestor?, hdoc, hother]
        exact .inr ⟨rfl, rfl⟩
      · rw [ancestor?, ancestor?, hdoc, hother]
        exact .inl ⟨rfl, rfl⟩
  have hsame : doc.SameWay other 10 3 3 := by
    intro steps _
    rcases hway steps with ⟨hdoc, hother⟩ | ⟨hdoc, hother⟩
    · refine ⟨hdoc.trans hother.symm, fun dict hdict number hbox => ?_⟩
      cases hdoc.symm.trans hdict
      cases hbox
    · refine ⟨hdoc.trans hother.symm, fun dict hdict number hbox => ?_⟩
      cases hdoc.symm.trans hdict
      cases hbox
      exact fun items => Iff.rfl
  exact ⟨rfl, rfl, hsame, by decide +kernel, doc.pageSizes_nearest.2 other 0 1 3 3 rfl rfl hsame⟩

end Folio.Pdf.Document
