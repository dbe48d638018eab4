import Folio.Path
import Folio.Proofs.Splitting
import Mathlib.Data.List.DropRight

/-!
# Taking paths apart

A path is its start and the pieces behind it, of which those at its end that do not count do not
matter. A name put behind a path is found again, and what holds it is the path, as far as that
counts (`fileName?_join`, `parent?_join`). So another name for what a path leads to leaves the
directory as it is (`parent?_withFileName`).
-/

set_option autoImplicit false

namespace Folio.Path

/-! ## Pieces -/

/-- The pieces of a path behind its start, also those that do not count. -/
def pieces (path : List Char) : List (List Char) :=
  Text.splitWhere (· == '/') (path.drop (start path).length)

theorem partsFromEnd_eq (path : List Char) :
    partsFromEnd path = (pieces path).reverse.dropWhile (!counts ·) := rfl

theorem pieces_unslashed {path piece : List Char} (h : piece ∈ pieces path) : '/' ∉ piece := by
  intro hmem
  simpa using Text.not_cut_of_mem_splitWhere h hmem

theorem splitWhere_cons_of_ne {c : Char} (h : c ≠ '/') (cs : List Char) :
    ∃ piece more, Text.splitWhere (· == '/') cs = piece :: more ∧
      Text.splitWhere (· == '/') (c :: cs) = (c :: piece) :: more := by
  obtain ⟨piece, more, hsplit⟩ := List.exists_cons_of_ne_nil (Text.splitWhere_ne_nil (· == '/') cs)
  exact ⟨piece, more, hsplit, by simp [Text.splitWhere, h, hsplit]⟩

theorem splitWhere_joinWith {parts : List (List Char)} (hne : parts ≠ [])
    (h : ∀ part ∈ parts, '/' ∉ part) :
    Text.splitWhere (· == '/') (Text.joinWith ['/'] parts) = parts := by
  have huncut {part : List Char} (hpart : part ∈ parts) : ∀ c ∈ part, (c == '/') = false := by
    rintro c hc
    rw [beq_eq_false_iff_ne]
    rintro rfl
    exact h part hpart hc
  induction parts with
  | nil => exact absurd rfl hne
  | cons part parts ih =>
    cases parts with
    | nil => exact Text.splitWhere_uncut (huncut List.mem_cons_self)
    | cons next parts =>
      rw [List.forall_mem_cons] at h
      have hrest := ih (List.cons_ne_nil next parts) h.2 fun hpart =>
        huncut (List.mem_cons_of_mem part hpart)
      have hjoin : Text.joinWith ['/'] (part :: next :: parts) =
          part ++ '/' :: Text.joinWith ['/'] (next :: parts) := by simp [Text.joinWith]
      rw [hjoin, Text.splitWhere_append_cut (by decide), hrest,
        Text.splitWhere_uncut (huncut List.mem_cons_self), List.singleton_append]

/-! ## The start -/

/-- How the pieces behind a start can begin. -/
inductive Begins : List Char → List (List Char) → Prop
  | root (more : List (List Char)) : Begins ['/'] more
  | here (more : List (List Char)) : Begins ['.'] ([] :: more)
  | nothing : Begins [] [[]]
  | piece {piece : List Char} (more : List (List Char)) (hne : piece ≠ []) (hdot : piece ≠ ['.']) :
      Begins [] (piece :: more)

theorem begins_pieces (path : List Char) : Begins (start path) (pieces path) := by
  unfold pieces
  fun_cases start path with
  | case1 rest => exact .root _
  | case2 => exact .here []
  | case3 rest => exact .here _
  | case4 path hroot hdot hhere =>
    cases path with
    | nil => exact .nothing
    | cons c cs =>
      have hc : c ≠ '/' := by
        rintro rfl
        exact hroot cs rfl
      obtain ⟨piece, more, hcs, hsplit⟩ := splitWhere_cons_of_ne hc cs
      rw [List.length_nil, List.drop_zero, hsplit]
      refine .piece more (List.cons_ne_nil c piece) fun heq => ?_
      cases heq
      -- the first piece is a dot only where the path is one or goes on with a slash
      cases cs with
      | nil => exact hdot rfl
      | cons d cs =>
        by_cases hd : d = '/'
        · subst hd
          exact hhere cs rfl
        · obtain ⟨piece, more, -, hcs'⟩ := splitWhere_cons_of_ne hd cs
          rw [hcs'] at hcs
          cases hcs

theorem start_eq_nil {path : List Char} (hroot : ∀ rest, path ≠ '/' :: rest) (hdot : path ≠ ['.'])
    (hhere : ∀ rest, path ≠ '.' :: '/' :: rest) : start path = [] := by
  fun_cases start path with
  | case1 rest => exact absurd rfl (hroot rest)
  | case2 => exact absurd rfl hdot
  | case3 rest => exact absurd rfl (hhere rest)
  | case4 => rfl

theorem start_of_begins {s first : List Char} {more : List (List Char)}
    (h : Begins s (first :: more)) (hfirst : '/' ∉ first) :
    start (s ++ Text.joinWith ['/'] (first :: more)) = s := by
  cases h with
  | root => rfl
  | here => cases more <;> rfl
  | nothing => rfl
  | piece more hne hdot =>
    obtain ⟨behind, hbehind, hjoin⟩ : ∃ behind, behind.head? ∈ [none, some '/'] ∧
        Text.joinWith ['/'] (first :: more) = first ++ behind := by
      cases more with
      | nil => exact ⟨[], by simp, by simp [Text.joinWith]⟩
      | cons next more =>
        exact ⟨'/' :: Text.joinWith ['/'] (next :: more), by simp, by simp [Text.joinWith]⟩
    rw [List.nil_append, hjoin]
    obtain ⟨c, cs, rfl⟩ := List.exists_cons_of_ne_nil hne
    refine start_eq_nil (fun rest heq => ?_) (fun heq => ?_) fun rest heq => ?_
    · cases heq
      exact hfirst List.mem_cons_self
    · obtain ⟨rfl, hnil⟩ := List.cons_eq_cons.1 heq
      exact hdot (by rw [(List.append_eq_nil_iff.1 hnil).1])
    · obtain ⟨rfl, hslash⟩ := List.cons_eq_cons.1 heq
      cases cs with
      | nil => exact hdot rfl
      | cons d cs =>
        cases hslash
        exact hfirst (by simp)

theorem pieces_of_begins {first : List Char} {s : List Char} {more : List (List Char)}
    (h : Begins s (first :: more)) (hunslashed : ∀ piece ∈ first :: more, '/' ∉ piece) :
    pieces (s ++ Text.joinWith ['/'] (first :: more)) = first :: more := by
  rw [pieces, start_of_begins h (hunslashed first List.mem_cons_self), List.drop_left,
    splitWhere_joinWith (List.cons_ne_nil first more) hunslashed]

/-- The start is all of a path that has nothing behind it. -/
theorem start_start (path : List Char) : start (start path) = start path := by
  fun_cases start path <;> rfl

theorem partsFromEnd_start (path : List Char) : partsFromEnd (start path) = [] := by
  fun_cases start path <;> rfl

theorem length_start_le (path : List Char) : (start path).length ≤ path.length := by
  fun_cases start path <;> simp

/-- What a slash separates from a path does not change its start. -/
theorem start_append_slash {path : List Char} (h : path ≠ []) (rest : List Char) :
    start (path ++ '/' :: rest) = start path := by
  fun_cases start path with
  | case1 more => rfl
  | case2 => rfl
  | case3 more => rfl
  | case4 path hroot hdot hhere =>
    obtain ⟨c, cs, rfl⟩ := List.exists_cons_of_ne_nil h
    refine start_eq_nil (fun more heq => ?_) (fun heq => ?_) fun more heq => ?_
    · cases heq
      exact hroot cs rfl
    · simp at heq
    · obtain ⟨rfl, hslash⟩ := List.cons_eq_cons.1 heq
      cases cs with
      | nil => exact hdot rfl
      | cons d cs =>
        cases hslash
        exact hhere cs rfl

theorem pieces_append_slash {path : List Char} (h : path ≠ []) (rest : List Char) :
    pieces (path ++ '/' :: rest) = pieces path ++ Text.splitWhere (· == '/') rest := by
  rw [pieces, start_append_slash h, List.drop_append_of_le_length (length_start_le path),
    Text.splitWhere_append_cut (by decide), ← pieces]

/-! ## Names behind a path -/

/-- A text that can be the name of what a path leads to. -/
structure IsName (name : List Char) : Prop where
  counts : counts name = true
  not_up : name ≠ up
  unslashed : '/' ∉ name

theorem IsName.head_ne {name : List Char} (h : IsName name) : name.head? ≠ some '/' := fun hslash =>
  h.unslashed (List.mem_of_mem_head? hslash)

theorem IsName.split {name : List Char} (h : IsName name) :
    Text.splitWhere (· == '/') name = [name] := by
  refine Text.splitWhere_uncut fun c hc => ?_
  rw [beq_eq_false_iff_ne]
  rintro rfl
  exact h.unslashed hc

theorem IsName.start_eq {name : List Char} (h : IsName name) : start name = [] := by
  refine start_eq_nil ?_ ?_ ?_
  · rintro rest rfl
    exact h.unslashed List.mem_cons_self
  · rintro rfl
    exact absurd h.counts (by decide)
  · rintro rest rfl
    exact h.unslashed (by simp)

theorem fileName?_eq_some_iff {path name : List Char} :
    fileName? path = some name ↔ name ≠ up ∧ ∃ parts, partsFromEnd path = name :: parts := by
  unfold fileName?
  cases partsFromEnd path with
  | nil => simp
  | cons last parts =>
    by_cases hup : last = up
    · simp only [if_pos hup]
      refine ⟨nofun, ?_⟩
      rintro ⟨hne, more, heq⟩
      cases heq
      exact absurd hup hne
    · simp only [if_neg hup]
      constructor
      · intro h
        cases h
        exact ⟨hup, parts, rfl⟩
      · rintro ⟨-, more, heq⟩
        cases heq
        rfl

/-- The name of what a path leads to stands between slashes. -/
theorem isName_of_fileName? {path name : List Char} (h : fileName? path = some name) :
    IsName name := by
  obtain ⟨hup, parts, hparts⟩ := fileName?_eq_some_iff.1 h
  have hsub : name ∈ (pieces path).reverse := by
    have hmem : name ∈ partsFromEnd path := by simp [hparts]
    exact (List.dropWhile_sublist _).subset hmem
  have hcounts := List.head?_dropWhile_not (!counts ·) (pieces path).reverse
  rw [← partsFromEnd_eq, hparts] at hcounts
  exact ⟨by simpa using hcounts, hup, pieces_unslashed (List.mem_reverse.1 hsub)⟩

section
variable {path name : List Char} (hname : IsName name)
include hname

/-- A name is put behind a slash, which may be there already. -/
theorem join_cases (path : List Char) :
    (path = [] ∧ join path name = name) ∨
    (∃ before, path = before ++ ['/'] ∧ join path name = before ++ '/' :: name) ∨
    (path ≠ [] ∧ join path name = path ++ '/' :: name) := by
  unfold join
  rw [if_neg hname.head_ne]
  by_cases hnil : path = []
  · subst hnil
    exact .inl ⟨rfl, rfl⟩
  · by_cases hlast : path.getLast? = some '/'
    · obtain ⟨before, rfl⟩ := List.getLast?_eq_some_iff.1 hlast
      exact .inr (.inl ⟨before, rfl, by simp⟩)
    · exact .inr (.inr ⟨hnil, by simp [hnil, hlast]⟩)

theorem start_join (path : List Char) : start (join path name) = start path := by
  rcases join_cases hname path with ⟨rfl, hjoin⟩ | ⟨before, rfl, hjoin⟩ | ⟨hne, hjoin⟩
  · rw [hjoin, hname.start_eq]
    rfl
  · rw [hjoin]
    by_cases hnil : before = []
    · subst hnil
      rfl
    · rw [start_append_slash hnil, start_append_slash hnil]
  · rw [hjoin, start_append_slash hne]

/-- A name behind a path is one piece more. -/
theorem partsFromEnd_join (path : List Char) :
    ∃ parts, partsFromEnd (join path name) = name :: parts ∧
      parts.dropWhile (!counts ·) = partsFromEnd path := by
  have hlast (before : List (List Char)) (h : pieces (join path name) = before ++ [name]) :
      partsFromEnd (join path name) = name :: before.reverse := by
    rw [partsFromEnd_eq, h, List.reverse_append, List.reverse_singleton, List.singleton_append,
      List.dropWhile_cons_of_neg (by simp [hname.counts])]
  rcases join_cases hname path with ⟨rfl, hjoin⟩ | ⟨before, rfl, hjoin⟩ | ⟨hne, hjoin⟩
  · refine ⟨_, hlast [] ?_, rfl⟩
    rw [hjoin, pieces, hname.start_eq, List.length_nil, List.drop_zero, hname.split,
      List.nil_append]
  · by_cases hnil : before = []
    · subst hnil
      refine ⟨_, hlast [] ?_, rfl⟩
      rw [hjoin]
      exact hname.split
    · refine ⟨_, hlast (pieces before) ?_, ?_⟩
      · rw [hjoin, pieces_append_slash hnil, hname.split]
      · have hempty : Text.splitWhere (· == '/') [] = [[]] := rfl
        rw [partsFromEnd_eq, pieces_append_slash hnil, hempty, List.reverse_append]
        rfl
  · refine ⟨_, hlast (pieces path) ?_, rfl⟩
    rw [hjoin, pieces_append_slash hne, hname.split]

theorem fileName?_join (path : List Char) : fileName? (join path name) = some name := by
  obtain ⟨parts, hparts, -⟩ := partsFromEnd_join hname path
  rw [fileName?, hparts]
  exact if_neg hname.not_up

theorem parent?_join (path : List Char) :
    parent? (join path name) = some (ofPartsFromEnd (start path) (partsFromEnd path)) := by
  obtain ⟨parts, hparts, hpath⟩ := partsFromEnd_join hname path
  rw [parent?, hparts, start_join hname]
  simp only [ofPartsFromEnd, ← hpath, List.dropWhile_idempotent]

end

/-! ## Directories -/

theorem Begins.take {s first : List Char} {more behind : List (List Char)}
    (h : Begins s (first :: (more ++ behind))) : Begins s (first :: more) := by
  generalize hpieces : first :: (more ++ behind) = pieces at h
  cases h with
  | root => exact .root _
  | here =>
    cases hpieces
    exact .here more
  | nothing =>
    obtain ⟨rfl, hnil⟩ := List.cons_eq_cons.1 hpieces
    rw [(List.append_eq_nil_iff.1 hnil).1]
    exact .nothing
  | piece _ hne hdot =>
    cases hpieces
    exact .piece more hne hdot

/-- Parts taken from the end of a path leave a path behind, with the same start and the other
parts. -/
theorem taken_apart {path last : List Char} {parts : List (List Char)}
    (h : partsFromEnd path = last :: parts) :
    start (ofPartsFromEnd (start path) parts) = start path ∧
      partsFromEnd (ofPartsFromEnd (start path) parts) = parts.dropWhile (!counts ·) := by
  unfold ofPartsFromEnd
  by_cases hnil : (parts.dropWhile (!counts ·)).reverse = []
  · have hstart : start path ++ Text.joinWith ['/'] [] = start path := List.append_nil _
    rw [hnil, hstart]
    exact ⟨start_start path, by rw [partsFromEnd_start, List.reverse_eq_nil_iff.1 hnil]⟩
  · obtain ⟨first, more, hkept⟩ := List.exists_cons_of_ne_nil hnil
    obtain ⟨behind, hpieces⟩ : ∃ behind, pieces path = first :: (more ++ behind) := by
      have hsuffix : parts.dropWhile (!counts ·) <:+ (pieces path).reverse :=
        (List.dropWhile_suffix _).trans
          ((List.suffix_cons last parts).trans (h ▸ List.dropWhile_suffix _))
      obtain ⟨behind, hbehind⟩ := hsuffix
      refine ⟨behind.reverse, ?_⟩
      rw [← List.reverse_reverse (pieces path), ← hbehind, List.reverse_append, hkept,
        List.cons_append]
    have hbegins : Begins (start path) (first :: more) := (hpieces ▸ begins_pieces path).take
    have hunslashed : ∀ piece ∈ first :: more, '/' ∉ piece := by
      intro piece hpiece
      have hmem : piece ∈ pieces path := by
        rw [hpieces, ← List.cons_append]
        exact List.mem_append_left behind hpiece
      exact pieces_unslashed hmem
    rw [hkept, start_of_begins hbegins (hunslashed first List.mem_cons_self), partsFromEnd_eq,
      pieces_of_begins hbegins hunslashed, ← hkept, List.reverse_reverse,
      List.dropWhile_idempotent]
    exact ⟨rfl, rfl⟩

section
variable {path last : List Char} {parts : List (List Char)}
  (hparts : partsFromEnd path = last :: parts)
include hparts

theorem parent?_eq : parent? path = some (ofPartsFromEnd (start path) parts) := by
  rw [parent?, hparts]

/-- Another name is put behind what holds the old one. -/
theorem withFileName_eq (hup : last ≠ up) (name : List Char) :
    withFileName path name = join (ofPartsFromEnd (start path) parts) name := by
  have hold : fileName? path = some last := fileName?_eq_some_iff.2 ⟨hup, parts, hparts⟩
  rw [withFileName, parent?_eq hparts, hold]
  rfl

end

/-- Another name for what a path leads to leaves it in its directory. -/
theorem parent?_withFileName {path old name : List Char} (h : fileName? path = some old)
    (hname : IsName name) :
    ∃ directory, parent? path = some directory ∧
      parent? (withFileName path name) = some directory := by
  obtain ⟨hup, parts, hparts⟩ := fileName?_eq_some_iff.1 h
  obtain ⟨hstart, hkept⟩ := taken_apart hparts
  refine ⟨_, parent?_eq hparts, ?_⟩
  rw [withFileName_eq hparts hup, parent?_join hname, hstart, hkept]
  simp only [ofPartsFromEnd, List.dropWhile_idempotent]

theorem fileName?_withFileName {name : List Char} (hname : IsName name) (path : List Char) :
    fileName? (withFileName path name) = some name := by
  unfold withFileName
  split <;> exact fileName?_join hname _

end Folio.Path
