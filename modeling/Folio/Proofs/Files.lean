import Folio.Files
import Folio.Proofs.Sorted

/-!
# What operations on files change

Making directories leaves every file as it was and adds none, even where it fails halfway
(`makeDirectories_sameFiles`). A file that is written is found under the path that it was written
to, and no other file changes (`write_spec`).
-/

set_option autoImplicit false

namespace Folio.Files

/-! ## Files at places -/

/-- Both trees have the same files, with the same content. -/
def SameFiles (before after : Files) : Prop :=
  ∀ place content, after.at? place = some (.file content) ↔ before.at? place = some (.file content)

/-- The trees have the same files, with the same content, except at one place. -/
def SameFilesExcept (changed : Place) (before after : Files) : Prop :=
  ∀ place, place ≠ changed → ∀ content,
    after.at? place = some (.file content) ↔ before.at? place = some (.file content)

section
variable {before between after : Files}

theorem SameFiles.refl (files : Files) : SameFiles files files := fun _ _ => Iff.rfl

theorem SameFiles.trans (h : SameFiles before between) (h' : SameFiles between after) :
    SameFiles before after :=
  fun place content => (h' place content).trans (h place content)

theorem SameFiles.except (h : SameFiles before between) {changed : Place}
    (h' : SameFilesExcept changed between after) : SameFilesExcept changed before after :=
  fun place hne content => (h' place hne content).trans (h place content)

end

/-! ## Putting -/

section
variable {files : Files} {place : Place} {entry : Entry}

theorem at?_put (hplace : ¬ (place = [] ∨ place = ["/"])) (x : Place) :
    (files.put place entry).at? x = if x = place then some entry else files.at? x := by
  have hlookup : (files.put place entry).entries.lookup x =
      if x = place then some entry else files.entries.lookup x := by
    unfold put
    convert Sorted.lookup_insert place entry files.entries x
  unfold at?
  rw [hlookup]
  by_cases hx : x = place
  · subst hx
    rw [if_neg hplace, if_pos rfl, if_pos rfl]
  · rw [if_neg hx, if_neg hx]

/-- The start of relative paths and the root are directories. -/
theorem not_top (h : files.at? place ≠ some .directory) : ¬ (place = [] ∨ place = ["/"]) := by
  intro htop
  exact h (if_pos htop)

/-- A directory that was not there is no file. -/
theorem put_directory_sameFiles (h : files.at? place = none) :
    SameFiles files (files.put place .directory) := by
  have hat : files.at? place ≠ some .directory := by simp [h]
  intro x content
  rw [at?_put (not_top hat)]
  by_cases hx : x = place
  · subst hx
    simp [h]
  · rw [if_neg hx]

theorem put_file_sameFilesExcept (h : files.at? place ≠ some .directory) (content : ByteArray) :
    SameFilesExcept place files (files.put place (.file content)) := by
  intro x hx other
  rw [at?_put (not_top h), if_neg hx]

/-- No way leads on through what is not a directory, so that whatever is put there does not matter
to ways that come through. -/
theorem walk_put (h : files.at? place ≠ some .directory) {origin : Place}
    {parts : List (List Char)} {found : Place} (hwalk : files.walk origin parts = .ok found) :
    (files.put place entry).walk origin parts = .ok found := by
  have hat? {origin : Place} (hat : files.at? origin = some .directory) :
      (files.put place entry).at? origin = some .directory := by
    have hne : origin ≠ place := by
      rintro rfl
      exact h hat
    rw [at?_put (not_top h), if_neg hne, hat]
  fun_induction files.walk origin parts with
  | case1 origin => exact hwalk
  | case2 origin part parts hat => cases hwalk
  | case3 origin part parts content hat => cases hwalk
  | case4 origin part parts hat hdot ih =>
    rw [walk, hat? hat, if_pos hdot]
    exact ih hwalk
  | case5 origin parts hat hdot ih =>
    rw [walk, hat? hat]
    simp only [if_neg hdot, ↓reduceIte]
    exact ih hwalk
  | case6 origin part parts hat hdot hup hlong => cases hwalk
  | case7 origin part parts hat hdot hup hshort ih =>
    rw [walk, hat? hat]
    simp only [if_neg hdot, if_neg hup, if_neg hshort]
    exact ih hwalk

end

/-! ## Making directories -/

theorem makeDirectory_sameFiles {files after : Files} {path : String}
    (h : files.makeDirectory path = .ok after) : SameFiles files after := by
  unfold makeDirectory at h
  cases hplace : files.locate (withoutEndSlashes path) with
  | error e => simp [hplace, bind, Except.bind] at h
  | ok place =>
    cases hat : files.at? place with
    | some entry => simp [hplace, hat, bind, Except.bind, throw, throwThe, MonadExceptOf.throw] at h
    | none =>
      simp only [hplace, hat, bind, Except.bind, pure, Except.pure] at h
      cases h
      exact put_directory_sameFiles hat

theorem makeDirectoriesFrom_sameFiles (fuel : Nat) (files : Files) (path : List Char) :
    SameFiles files (makeDirectoriesFrom fuel files path).2 := by
  fun_induction makeDirectoriesFrom fuel files path with
  | case1 files path => exact .refl files
  | case2 fuel files path => exact .refl files
  | case3 fuel files path name h made hmade => exact makeDirectory_sameFiles hmade
  | case4 fuel files path name h missing e above habove ih =>
    rw [habove] at ih
    exact ih
  | case5 fuel files path name h missing above habove made hmade ih =>
    rw [habove] at ih
    exact ih.trans (makeDirectory_sameFiles hmade)
  | case6 fuel files path name h missing above habove e hmade ih =>
    rw [habove] at ih
    exact ih
  | case7 fuel files path name h e hne hmade => exact .refl files

theorem makeDirectories_sameFiles (files : Files) (path : String) :
    SameFiles files (files.makeDirectories path).2 :=
  makeDirectoriesFrom_sameFiles _ _ _

/-! ## Writing -/

/-- Writing puts a file where the path leads to, unless a directory lies there or must. -/
theorem write_eq_ok_iff {files after : Files} {path : String} {content : ByteArray} :
    files.write path content = .ok after ↔
      ∃ origin parts place, files.startOf path = .ok (origin, parts) ∧
        parts.getLast? ≠ some [] ∧ files.walk origin parts = .ok place ∧
        files.at? place ≠ some .directory ∧ after = files.put place (.file content) := by
  unfold write
  constructor
  · intro h
    cases hstart : files.startOf path with
    | error e => simp [hstart, bind, Except.bind] at h
    | ok start =>
      obtain ⟨origin, parts⟩ := start
      simp only [hstart, bind, Except.bind, throw, throwThe, MonadExceptOf.throw] at h
      by_cases hslash : parts.getLast? = some []
      · rw [if_pos hslash] at h
        split at h
        · cases h
        · cases h
      · rw [if_neg hslash] at h
        cases hwalk : files.walk origin parts with
        | error e => simp [hwalk] at h
        | ok place =>
          simp only [hwalk] at h
          split at h
          · cases h
          · rename_i hat
            cases h
            exact ⟨origin, parts, place, rfl, hslash, hwalk, hat, rfl⟩
  · rintro ⟨origin, parts, place, hstart, hslash, hwalk, hat, rfl⟩
    simp only [hstart, bind, Except.bind, if_neg hslash, hwalk, pure, Except.pure]

theorem write_eq_ok {files after : Files} {path : String} {content : ByteArray}
    (h : files.write path content = .ok after) :
    ∃ place, files.locate path = .ok place ∧ files.at? place ≠ some .directory ∧
      after = files.put place (.file content) := by
  obtain ⟨origin, parts, place, hstart, -, hwalk, hat, hafter⟩ := write_eq_ok_iff.1 h
  have hplace : files.locate path = .ok place := by
    rw [locate, hstart]
    exact hwalk
  exact ⟨place, hplace, hat, hafter⟩

theorem locate_put {files : Files} {path : String} {place found : Place} {entry : Entry}
    (hat : files.at? place ≠ some .directory) (h : files.locate path = .ok found) :
    (files.put place entry).locate path = .ok found := by
  have hsame : (files.put place entry).startOf path = files.startOf path := rfl
  unfold locate at h ⊢
  rw [hsame]
  cases hstart : files.startOf path with
  | error e =>
    rw [hstart] at h
    cases h
  | ok start =>
    rw [hstart] at h
    exact walk_put hat h

/-- A file that was written is found under its path, and no other file changed. -/
theorem write_spec {files after : Files} {path : String} {content : ByteArray}
    (h : files.write path content = .ok after) :
    ∃ place, after.locate path = .ok place ∧ after.at? place = some (.file content) ∧
      SameFilesExcept place files after := by
  obtain ⟨place, hplace, hat, rfl⟩ := write_eq_ok h
  refine ⟨place, locate_put hat hplace, ?_, put_file_sameFilesExcept hat content⟩
  rw [at?_put (not_top hat), if_pos rfl]

theorem read_of_at? {files : Files} {path : String} {place : Place} {content : ByteArray}
    (hplace : files.locate path = .ok place) (hat : files.at? place = some (.file content)) :
    files.read path = .ok content := by
  simp only [read, find, hplace, hat, bind, Except.bind]

theorem read_write {files after : Files} {path : String} {content : ByteArray}
    (h : files.write path content = .ok after) : after.read path = .ok content := by
  obtain ⟨place, hplace, hat, -⟩ := write_spec h
  exact read_of_at? hplace hat

/-- A second write to the same path replaces what the first one wrote. -/
theorem write_write {files between : Files} {path : String} {content : ByteArray}
    (h : files.write path content = .ok between) (other : ByteArray) :
    between.write path other = files.write path other := by
  obtain ⟨origin, parts, place, hstart, hslash, hwalk, hat, rfl⟩ := write_eq_ok_iff.1 h
  have hfirst : files.write path other = .ok (files.put place (.file other)) :=
    write_eq_ok_iff.2 ⟨origin, parts, place, hstart, hslash, hwalk, hat, rfl⟩
  have hfile : (files.put place (.file content)).at? place ≠ some .directory := by
    rw [at?_put (not_top hat), if_pos rfl]
    simp
  have hreplaced : files.put place (.file other) =
      (files.put place (.file content)).put place (.file other) := by
    simp only [put, Sorted.insert_insert]
  rw [hfirst]
  exact write_eq_ok_iff.2
    ⟨origin, parts, place, hstart, hslash, walk_put hat hwalk, hfile, hreplaced⟩

end Folio.Files
