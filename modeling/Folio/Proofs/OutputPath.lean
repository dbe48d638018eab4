import Folio.Proofs.Files
import Folio.Proofs.Paths

/-!
# Where the output goes by default

The default output lies beside the input under a name of its own, which is never the name of the
input (`stem_append_ne`). As a path leads to a place in the directory that it names
(`locate_fileName?`), it leads to another place than the input, and writing it leaves the input as
it was (`translated_beside`).
-/

set_option autoImplicit false

namespace Folio

/-! ## Ways through a tree -/

namespace Files

variable {files : Files} {place found : Place}

theorem walk_append (files : Files) (place : Place) (before behind : List (List Char)) :
    files.walk place (before ++ behind) =
      (files.walk place before).bind (files.walk · behind) := by
  fun_induction files.walk place before with
  | case1 place => rfl
  | case2 place part parts hat => simp only [List.cons_append, walk, hat, Except.bind]
  | case3 place part parts content hat => simp only [List.cons_append, walk, hat, Except.bind]
  | case4 place part parts hat hdot ih => simp only [List.cons_append, walk, hat, if_pos hdot, ih]
  | case5 place parts hat hdot ih =>
    simp only [List.cons_append, walk, hat, if_neg hdot, ↓reduceIte, ih]
  | case6 place part parts hat hdot hup hlong =>
    simp only [List.cons_append, walk, hat, if_neg hdot, if_neg hup, if_pos hlong, Except.bind]
  | case7 place part parts hat hdot hup hshort ih =>
    simp only [List.cons_append, walk, hat, if_neg hdot, if_neg hup, if_neg hshort, ih]

theorem walk_append_eq_ok {before behind : List (List Char)}
    (h : files.walk place (before ++ behind) = .ok found) :
    ∃ between, files.walk place before = .ok between ∧ files.walk between behind = .ok found := by
  rw [walk_append] at h
  cases hwalk : files.walk place before with
  | error e =>
    rw [hwalk] at h
    cases h
  | ok between =>
    rw [hwalk] at h
    exact ⟨between, rfl, h⟩

/-- Parts that do not count lead nowhere else. -/
theorem walk_uncounted {parts : List (List Char)}
    (hparts : ∀ part ∈ parts, Path.counts part = false)
    (h : files.walk place parts = .ok found) : found = place := by
  induction parts with
  | nil =>
    cases h
    rfl
  | cons part parts ih =>
    rw [List.forall_mem_cons] at hparts
    have hdot : part.isEmpty ∨ part = ['.'] := by
      simpa [Path.counts, or_iff_not_imp_left] using hparts.1
    unfold walk at h
    split at h
    · cases h
    · cases h
    · rw [if_pos hdot] at h
      exact ih hparts.2 h

/-- The parts at the end that do not count may be left out. -/
theorem walk_counted {parts : List (List Char)} (h : files.walk place parts.reverse = .ok found) :
    files.walk place (parts.dropWhile (!Path.counts ·)).reverse = .ok found := by
  rw [← List.takeWhile_append_dropWhile (p := (!Path.counts ·)) (l := parts),
    List.reverse_append] at h
  obtain ⟨between, hbefore, hbehind⟩ := walk_append_eq_ok h
  have huncounted : ∀ part ∈ (parts.takeWhile (!Path.counts ·)).reverse,
      Path.counts part = false := by
    intro part hpart
    simpa using List.mem_takeWhile_imp (List.mem_reverse.1 hpart)
  rw [walk_uncounted huncounted hbehind]
  exact hbefore

theorem walk_name {name : List Char} (hname : Path.IsName name)
    (h : files.walk place [name] = .ok found) : found = place ++ [String.ofList name] := by
  have hcounts : ¬ (name.isEmpty ∨ name = ['.']) := by simpa [Path.counts] using hname.counts
  unfold walk at h
  split at h
  · cases h
  · cases h
  · rw [if_neg hcounts, if_neg hname.not_up] at h
    split at h
    · cases h
    · cases h
      rfl

/-- The place that paths with a given start go from. -/
def origin (files : Files) (start : List Char) : Place :=
  if start = ['/'] then ["/"] else files.start

/-- A path is gone along by its pieces; a dot at its start leads nowhere else. -/
theorem startOf_eq_ok {path : List Char} {parts : List (List Char)}
    (h : files.startOf (String.ofList path) = .ok (place, parts)) :
    place = files.origin (Path.start path) ∧
      files.walk place parts = files.walk place (Path.pieces path) := by
  unfold startOf at h
  rw [String.toList_ofList] at h
  split at h
  · cases h
  · split at h
    · cases h
    · split at h
      · cases h
      · cases h
        exact ⟨rfl, rfl⟩
      · rename_i hroot
        cases h
        fun_cases Path.start path with
        | case1 rest => exact absurd rfl (hroot rest)
        | case2 => exact ⟨rfl, by simp [walk, Path.pieces, Path.start, Text.splitWhere]⟩
        | case3 rest => exact ⟨rfl, by simp [walk, Path.pieces, Path.start, Text.splitWhere]⟩
        | case4 path hroot hdot hhere =>
          rw [Path.pieces, Path.start_eq_nil hroot hdot hhere]
          exact ⟨rfl, rfl⟩

theorem walk_of_locate {path : List Char} (h : files.locate (String.ofList path) = .ok found) :
    files.walk (files.origin (Path.start path)) (Path.partsFromEnd path).reverse = .ok found := by
  unfold locate at h
  cases hstart : files.startOf (String.ofList path) with
  | error e =>
    rw [hstart] at h
    cases h
  | ok start =>
    obtain ⟨place, parts⟩ := start
    rw [hstart] at h
    obtain ⟨rfl, hpieces⟩ := startOf_eq_ok hstart
    have hwalk := hpieces.symm.trans h
    rw [← List.reverse_reverse (Path.pieces path)] at hwalk
    exact walk_counted hwalk

/-- A path with a name leads into the directory that is left without the name. -/
theorem locate_name {path name : List Char} {parts : List (List Char)}
    (hparts : Path.partsFromEnd path = name :: parts) (hname : Path.IsName name)
    (h : files.locate (String.ofList path) = .ok found) :
    ∃ above, files.walk (files.origin (Path.start path))
        (parts.dropWhile (!Path.counts ·)).reverse = .ok above ∧
      found = above ++ [String.ofList name] := by
  have hwalk := walk_of_locate h
  rw [hparts, List.reverse_cons] at hwalk
  obtain ⟨above, habove, hlast⟩ := walk_append_eq_ok hwalk
  exact ⟨above, walk_counted habove, walk_name hname hlast⟩

/-- A name behind a path leads into the directory that the path leads to. -/
theorem locate_join {path name : List Char} (hname : Path.IsName name)
    (h : files.locate (String.ofList (Path.join path name)) = .ok found) :
    ∃ above, files.walk (files.origin (Path.start path)) (Path.partsFromEnd path).reverse =
        .ok above ∧ found = above ++ [String.ofList name] := by
  obtain ⟨parts, hparts, hpath⟩ := Path.partsFromEnd_join hname path
  obtain ⟨above, habove, hfound⟩ := locate_name hparts hname h
  rw [Path.start_join hname, hpath] at habove
  exact ⟨above, habove, hfound⟩

/-- Another name leads to another place. -/
theorem locate_withFileName_ne {path name : List Char} {place found : Place}
    (hname : Path.IsName name) (hne : Path.fileName? path ≠ some name)
    (h : files.locate (String.ofList path) = .ok place)
    (h' : files.locate (String.ofList (Path.withFileName path name)) = .ok found) :
    found ≠ place := by
  cases hold : Path.fileName? path with
  | none =>
    rw [Path.withFileName, hold] at h'
    obtain ⟨above, habove, rfl⟩ := locate_join hname h'
    rw [walk_of_locate h] at habove
    cases habove
    intro heq
    simpa using congrArg List.length heq
  | some old =>
    obtain ⟨hup, parts, hparts⟩ := Path.fileName?_eq_some_iff.1 hold
    obtain ⟨hstart, hkept⟩ := Path.taken_apart hparts
    obtain ⟨above, habove, rfl⟩ := locate_name hparts (Path.isName_of_fileName? hold) h
    rw [Path.withFileName_eq hparts hup] at h'
    obtain ⟨above', habove', rfl⟩ := locate_join hname h'
    rw [hstart, hkept, habove] at habove'
    cases habove'
    intro heq
    obtain ⟨-, hlast⟩ := List.append_inj' heq rfl
    refine hne ?_
    rw [hold, String.ofList_injective (List.singleton_inj.1 hlast)]

theorem read_eq_ok_iff {path : String} {content : ByteArray} :
    files.read path = .ok content ↔
      ∃ place, files.locate path = .ok place ∧ files.at? place = some (.file content) := by
  unfold read find
  cases hlocate : files.locate path with
  | error e => simp [bind, Except.bind]
  | ok place =>
    cases hat : files.at? place with
    | none => simp [bind, Except.bind, hat]
    | some entry => cases entry <;> simp [bind, Except.bind, hat]

/-- What is written under one path can be read under another one as before, if they lead to
different places. -/
theorem read_of_write_ne {after : Files} {path other : String} {input output : ByteArray}
    (hne : ∀ {place found}, files.locate path = .ok place → files.locate other = .ok found →
      found ≠ place)
    (hread : files.read path = .ok input) (hwrite : files.write other output = .ok after) :
    after.read path = .ok input := by
  obtain ⟨found, hfound, hat, rfl⟩ := write_eq_ok hwrite
  obtain ⟨place, hplace, hinput⟩ := read_eq_ok_iff.1 hread
  refine read_eq_ok_iff.2 ⟨place, locate_put hat hplace, ?_⟩
  rw [at?_put (not_top hat), if_neg (hne hplace hfound).symm, hinput]

end Files

/-! ## The default output -/

namespace Path

/-- The stem of a name is all of it, or what stands before its last dot. -/
theorem stem_cases (name : List Char) :
    stem name = name ∨ ∃ extension, name = stem name ++ '.' :: extension := by
  have hsplit := List.takeWhile_append_dropWhile (p := (· != '.')) (l := name.reverse)
  have hdot := List.head?_dropWhile_not (· != '.') name.reverse
  unfold stem
  split
  · rename_i c before hdrop
    rw [hdrop] at hsplit hdot
    have hc : c = '.' := by simpa using hdot
    split
    · exact .inl rfl
    · have hname := congrArg List.reverse hsplit
      rw [List.reverse_reverse, hc] at hname
      exact .inr ⟨_, by simpa using hname.symm⟩
  · exact .inl rfl

/-- No name is its own stem with the suffix: that is longer, or goes on differently. -/
theorem stem_append_ne (name : List Char) : stem name ++ "_translated.pdf".toList ≠ name := by
  intro heq
  rcases stem_cases name with hstem | ⟨extension, hstem⟩
  · have hlength := congrArg List.length heq
    have hsuffix : "_translated.pdf".toList.length = 15 := by decide
    rw [List.length_append, hstem, hsuffix] at hlength
    omega
  · have hhead := congrArg List.head? (List.append_cancel_left (heq.trans hstem))
    have hsuffix : "_translated.pdf".toList.head? = some '_' := by decide
    rw [hsuffix, List.head?_cons, Option.some_inj] at hhead
    exact absurd hhead (by decide)

/-- Only the two dots and what does not count are no names, and they are short. -/
theorem isName_of_length {name : List Char} (hlength : 2 < name.length) (h : '/' ∉ name) :
    IsName name where
  counts := by
    have hne : name ≠ [] ∧ name ≠ ['.'] := by constructor <;> rintro rfl <;> simp at hlength
    simp [counts, hne]
  not_up := by
    rintro rfl
    exact absurd hlength (by decide)
  unslashed := h

theorem isName_suffixed {name : List Char} (h : '/' ∉ name) :
    IsName (name ++ "_translated.pdf".toList) := by
  have hsuffix : "_translated.pdf".toList.length = 15 ∧ '/' ∉ "_translated.pdf".toList := by decide
  refine isName_of_length ?_ ?_
  · rw [List.length_append, hsuffix.1]
    omega
  · rw [List.mem_append, not_or]
    exact ⟨h, hsuffix.2⟩

theorem isName_translated (path : List Char) :
    IsName (((fileName? path).map stem).getD "document".toList ++ "_translated.pdf".toList) := by
  refine isName_suffixed ?_
  cases hname : fileName? path with
  | none => decide
  | some name =>
    have hunslashed := (isName_of_fileName? hname).unslashed
    rcases stem_cases name with hstem | ⟨extension, hstem⟩
    · simpa [hstem] using hunslashed
    · rw [hstem] at hunslashed
      exact fun hmem => hunslashed (List.mem_append_left _ hmem)

/-- The default output has a name, which is the stem of the input's name (or `document` for an input
without a name) with a suffix. It is never the name of the input, it lies in the same directory, and
writing it leaves the input as it was. -/
theorem translated_beside (path : List Char) :
    fileName? (translated path) =
        some (((fileName? path).map stem).getD "document".toList ++ "_translated.pdf".toList) ∧
      fileName? (translated path) ≠ fileName? path ∧
      (∀ name, fileName? path = some name →
        ∃ directory, parent? path = some directory ∧
          parent? (translated path) = some directory) ∧
      ∀ (files after : Files) (input output : ByteArray),
        files.read (String.ofList path) = .ok input →
        files.write (String.ofList (translated path)) output = .ok after →
        after.read (String.ofList path) = .ok input := by
  have hname := isName_translated path
  have hfound : fileName? (translated path) =
      some (((fileName? path).map stem).getD "document".toList ++ "_translated.pdf".toList) :=
    fileName?_withFileName hname path
  have hne : fileName? path ≠
      some (((fileName? path).map stem).getD "document".toList ++ "_translated.pdf".toList) := by
    cases fileName? path with
    | none => nofun
    | some name => exact fun heq => stem_append_ne name (Option.some_inj.1 heq).symm
  refine ⟨hfound, ?_, fun name hold => parent?_withFileName hold hname, ?_⟩
  · rw [hfound]
    exact hne.symm
  · intro files after input output
    exact Files.read_of_write_ne (Files.locate_withFileName_ne hname hne)

/-- A hidden file behind two slashes: only the part behind its last dot is no stem. -/
theorem translated_beside_hidden :
    let path := "docs//.report.v2".toList
    let input : ByteArray := ⟨#[1]⟩
    let output : ByteArray := ⟨#[2]⟩
    let files : Files :=
      { entries := [(["docs"], .directory), (["docs", ".report.v2"], .file input)] }
    let after := files.put ["docs", ".report_translated.pdf"] (.file output)
    (fileName? path = some ".report.v2".toList ∧ files.read (String.ofList path) = .ok input ∧
        files.write (String.ofList (translated path)) output = .ok after) ∧
      fileName? (translated path) = some ".report_translated.pdf".toList ∧
      (∃ directory, parent? path = some directory ∧
        parent? (translated path) = some directory) ∧
      after.read (String.ofList path) = .ok input := by
  intro path input output files after
  obtain ⟨hfound, -, hparent, hkept⟩ := translated_beside path
  have hname : fileName? path = some ".report.v2".toList := by decide
  have hread : files.read (String.ofList path) = .ok input :=
    Files.read_eq_ok_iff.2 ⟨["docs", ".report.v2"], by decide, rfl⟩
  have hwrite : files.write (String.ofList (translated path)) output = .ok after := by decide
  refine ⟨⟨hname, hread, hwrite⟩, ?_, hparent _ hname, hkept files after input output hread hwrite⟩
  rw [hfound, hname]
  decide

end Path

end Folio
