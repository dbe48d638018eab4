import Folio.Font.Face
import Folio.Proofs.Lists
import Folio.Proofs.Lowercase
import Folio.Proofs.Splitting

/-!
# Language tags

A first subtag that has been brought to the code of its language stays what it is, and so does its
face, as long as no blank stands behind it: blanks at the ends of a tag do not count, but those
before its first separator do (`normalizedSubtag_projects`).
-/

set_option autoImplicit false

namespace Folio

open Text

/-! ## Ends of texts -/

/-- The text ends with a blank. -/
def EndsBlank (text : List Char) : Prop := ∃ c ∈ text.getLast?, isBlank c = true

theorem endsBlank_iff {text : List Char} :
    EndsBlank text ↔ text.getLast?.map isBlank = some true := by
  simp [EndsBlank]

instance (text : List Char) : Decidable (EndsBlank text) :=
  decidable_of_iff _ endsBlank_iff.symm

theorem endsBlank_lowercase {text : List Char} : EndsBlank (lowercase text) ↔ EndsBlank text := by
  rw [endsBlank_iff, endsBlank_iff, getLast?_lowercase]

theorem trimEnd_of_not_endsBlank {text : List Char} (h : ¬ EndsBlank text) : trimEnd text = text :=
  reverse_dropWhile fun c hc => Bool.eq_false_iff.2 fun hblank => h ⟨c, hc, hblank⟩

theorem not_endsBlank_trimEnd (text : List Char) : ¬ EndsBlank (trimEnd text) := by
  rintro ⟨c, hc, hblank⟩
  rw [trimEnd, List.getLast?_reverse] at hc
  have hnot := List.head?_dropWhile_not isBlank text.reverse
  rw [hc] at hnot
  cases hblank.symm.trans hnot

/-! ## First subtags -/

/-- The first subtag of a tag, as it stands there. -/
def firstSubtag (tag : String) : List Char :=
  (trim tag.toList).takeWhile fun c => !isSubtagSeparator c

theorem primarySubtag_eq (tag : String) :
    primarySubtag tag = String.ofList (lowercase (firstSubtag tag)) := rfl

/-- A text that can be the first subtag of a tag, in lower case. -/
structure IsPrimary (text : List Char) : Prop where
  isLower : ∀ c ∈ text, IsLower c
  unseparated : ∀ c ∈ text, isSubtagSeparator c = false
  head : ∀ c ∈ text.head?, isBlank c = false

theorem head?_trim {text : List Char} {c : Char} (h : c ∈ (trim text).head?) :
    isBlank c = false := by
  by_cases hblank : Blanks text
  · rw [trim_eq_nil_iff.2 hblank] at h
    cases h
  · have hsome : ∃ c ∈ text, isBlank c = false := by simpa [Blanks] using hblank
    obtain ⟨d, rest, htrim, hd⟩ := (tight_trim hsome).head
    rw [htrim] at h
    cases h
    exact hd

theorem isPrimary_primarySubtag (tag : String) : IsPrimary (primarySubtag tag).toList := by
  rw [primarySubtag_eq, String.toList_ofList]
  refine ⟨fun d hd => (mem_lowercase hd).1, fun d hd => ?_, fun d hd => ?_⟩
  · obtain ⟨-, c, hc, hsame⟩ := mem_lowercase hd
    simpa [hsame] using List.mem_takeWhile_imp hc
  · have hhead := head?_lowercase (firstSubtag tag)
    rw [hd, Option.map_some, eq_comm, Option.map_eq_some_iff] at hhead
    obtain ⟨c, hc, hsame⟩ := hhead
    obtain ⟨behind, hbehind⟩ := List.takeWhile_prefix (fun c => !isSubtagSeparator c)
      (l := trim tag.toList)
    have hfirst : c ∈ (trim tag.toList).head? := by
      rw [← hbehind, List.head?_append, ← firstSubtag, hc]
      rfl
    rw [← hsame]
    exact head?_trim hfirst

/-- Of a first subtag in lower case, only the blanks at its end do not count. -/
theorem IsPrimary.primarySubtag_eq {tag : String} (h : IsPrimary tag.toList) :
    primarySubtag tag = String.ofList (trimEnd tag.toList) := by
  have hstart : trimStart tag.toList = tag.toList := by
    cases htag : tag.toList with
    | nil => rfl
    | cons c cs =>
      rw [htag] at h
      exact List.dropWhile_cons_of_neg (by simp [h.head c rfl])
  have hsubtag : firstSubtag tag = trimEnd tag.toList := by
    rw [firstSubtag, trim, hstart, List.takeWhile_eq_self_iff]
    intro c hc
    simp [h.unseparated c (mem_of_mem_trimEnd hc)]
  rw [Folio.primarySubtag_eq, hsubtag,
    lowercase_of_isLower fun c hc => h.isLower c (mem_of_mem_trimEnd hc)]

theorem endsBlank_primarySubtag {tag : String} :
    EndsBlank (primarySubtag tag).toList ↔ EndsBlank (firstSubtag tag) := by
  rw [primarySubtag_eq, String.toList_ofList, endsBlank_lowercase]

/-! ## Codes -/

namespace Language

/-- The codes of two letters are written in lower case. -/
theorem written_part1 : ∀ language ∈ all, ∀ code ∈ language.part1,
    code.utf8ByteSize = 2 ∧ primarySubtag code = code ∧ ¬ EndsBlank code.toList := by
  decide +kernel

/-- No code of three letters ends with a blank. -/
theorem written_part3 : (∀ language ∈ all, ¬ EndsBlank language.part3.toList) ∧
    ∀ codes ∈ bibliographic, ¬ EndsBlank codes.1.toList := by
  decide +kernel

/-- A code of two letters is looked up to a language with that code. -/
theorem ofCode?_part1 {language : Language} {code : String} (hlanguage : language ∈ all)
    (hcode : language.part1 = some code) : (ofCode? code).bind part1 = some code := by
  obtain ⟨hsize, -⟩ := written_part1 language hlanguage code hcode
  have hsome : (all.find? fun language => language.part1 == some code).isSome := by
    rw [List.find?_isSome]
    exact ⟨language, hlanguage, by simp [hcode]⟩
  obtain ⟨found, hfound⟩ := Option.isSome_iff_exists.1 hsome
  rw [ofCode?, if_pos hsize, hfound]
  simpa using List.find?_some hfound

theorem mem_of_ofCode? {language : Language} {code : String} (h : ofCode? code = some language) :
    language ∈ all ∧ ¬ EndsBlank code.toList := by
  unfold ofCode? at h
  split at h
  · have hcode := List.find?_some h
    have hmem := List.mem_of_find?_eq_some h
    exact ⟨hmem, (written_part1 language hmem code (by simpa using hcode)).2.2⟩
  · split at h
    · have hcode := List.find?_some h
      have hmem := List.mem_of_find?_eq_some h
      refine ⟨hmem, ?_⟩
      rw [beq_iff_eq, terminological] at hcode
      cases hlookup : bibliographic.lookup code with
      | none =>
        rw [hlookup, Option.getD_none] at hcode
        rw [← hcode]
        exact written_part3.1 language hmem
      | some other =>
        obtain ⟨before, after, hsplit, -⟩ := List.lookup_eq_some_iff.1 hlookup
        exact written_part3.2 (code, other) (by simp [hsplit])
    · cases h

end Language

/-! ## Normalized subtags -/

/-- A tag is brought to a code that stays what it is, or to its first subtag in lower case. -/
theorem normalizedSubtag_cases (tag : String) :
    (∃ code, normalizedSubtag tag = code ∧ normalizedSubtag code = code ∧
      ¬ EndsBlank code.toList ∧ ¬ EndsBlank (firstSubtag tag)) ∨
    normalizedSubtag tag = primarySubtag tag := by
  cases hlanguage : Language.ofCode? (primarySubtag tag) with
  | none => exact .inr (by rw [normalizedSubtag, hlanguage]; rfl)
  | some language =>
    cases hcode : language.part1 with
    | none => exact .inr (by rw [normalizedSubtag, hlanguage, Option.bind_some, hcode]; rfl)
    | some code =>
      obtain ⟨hmem, hends⟩ := Language.mem_of_ofCode? hlanguage
      obtain ⟨-, hprimary, hcodeends⟩ := Language.written_part1 language hmem code hcode
      refine .inl ⟨code, ?_, ?_, hcodeends, mt endsBlank_primarySubtag.2 hends⟩
      · rw [normalizedSubtag, hlanguage, Option.bind_some, hcode, Option.getD_some]
      · rw [normalizedSubtag, hprimary, Language.ofCode?_part1 hmem hcode, Option.getD_some]

theorem endsBlank_normalizedSubtag {tag : String} :
    EndsBlank (normalizedSubtag tag).toList ↔ EndsBlank (firstSubtag tag) := by
  rcases normalizedSubtag_cases tag with ⟨code, hcode, -, hends, hends'⟩ | hprimary
  · rw [hcode]
    exact iff_of_false hends hends'
  · rw [hprimary, endsBlank_primarySubtag]

/-- A normalized subtag stays what it is unless a blank stands at its end, which is then left
out. -/
theorem normalizedSubtag_normalizedSubtag_iff {tag : String} :
    normalizedSubtag (normalizedSubtag tag) = normalizedSubtag tag ↔
      ¬ EndsBlank (firstSubtag tag) := by
  rcases normalizedSubtag_cases tag with ⟨code, hcode, hstays, -, hends⟩ | hprimary
  · rw [hcode]
    exact iff_of_true hstays hends
  · have hfirst := (isPrimary_primarySubtag tag).primarySubtag_eq
    rw [hprimary, ← endsBlank_primarySubtag]
    constructor
    · intro hstays hends
      rw [← hstays, endsBlank_normalizedSubtag, ← endsBlank_primarySubtag, hfirst,
        String.toList_ofList] at hends
      exact not_endsBlank_trimEnd _ hends
    · intro hends
      rw [trimEnd_of_not_endsBlank hends, String.ofList_toList] at hfirst
      rw [normalizedSubtag, hfirst, ← normalizedSubtag, hprimary]

theorem normalizedSubtag_congr {tag other : String} (h : firstSubtag tag = firstSubtag other) :
    normalizedSubtag tag = normalizedSubtag other := by
  rw [normalizedSubtag, normalizedSubtag, primarySubtag_eq, primarySubtag_eq, h]

/-! ## What follows the first subtag -/

theorem not_blank_of_separator {c : Char} (h : isSubtagSeparator c = true) : isBlank c = false := by
  rw [isSubtagSeparator, Bool.or_eq_true, beq_iff_eq, beq_iff_eq] at h
  rcases h with rfl | rfl <;> decide

theorem trimStart_append {c : Char} (hc : isBlank c = false) (before behind : List Char) :
    trimStart (before ++ c :: behind) = trimStart before ++ c :: behind :=
  dropWhile_behind (by simpa using hc)

theorem endsBlank_trimStart {text : List Char} :
    EndsBlank (trimStart text) ↔ ¬ (Blanks text ∨ ¬ EndsBlank text) := by
  rw [not_or, not_not]
  by_cases hblank : Blanks text
  · have hnil : trimStart text = [] := List.dropWhile_eq_nil_iff.2 hblank
    rw [hnil]
    exact iff_of_false (by decide) fun h => h.1 hblank
  · have hne : trimStart text ≠ [] := fun hnil => hblank (List.dropWhile_eq_nil_iff.1 hnil)
    have hlast : (text.takeWhile isBlank ++ trimStart text).getLast? = (trimStart text).getLast? :=
      List.getLast?_append_of_ne_nil _ hne
    rw [trimStart, List.takeWhile_append_dropWhile, ← trimStart] at hlast
    rw [EndsBlank, EndsBlank, ← hlast]
    exact (and_iff_right hblank).symm

/-- A separator ends the first subtag, also behind blanks. -/
theorem firstSubtag_of_split {tag : String} {before behind : List Char} {separator : Char}
    (h : isSubtagSeparator separator = true) (htag : tag.toList = before ++ separator :: behind) :
    firstSubtag tag = (trimStart before).takeWhile fun c => !isSubtagSeparator c := by
  have hblank := not_blank_of_separator h
  rw [firstSubtag, trim, htag, trimStart_append hblank, trimEnd_append hblank]
  exact takeWhile_behind (by simpa using h)

/-- What follows a separator does not count, but the separator makes the blanks before it count. -/
theorem normalizedSubtag_append_iff {tag : String} {separator : Char}
    (h : isSubtagSeparator separator = true) (suffix : String) :
    normalizedSubtag (tag ++ String.singleton separator ++ suffix) = normalizedSubtag tag ↔
      (∃ c ∈ tag.toList, isSubtagSeparator c = true) ∨ Blanks tag.toList ∨
        ¬ EndsBlank tag.toList := by
  have hlonger : (tag ++ String.singleton separator ++ suffix).toList =
      tag.toList ++ separator :: suffix.toList := by
    simp
  have hfirst := firstSubtag_of_split h hlonger
  by_cases hseparated : ∃ c ∈ tag.toList, isSubtagSeparator c = true
  · refine iff_of_true (normalizedSubtag_congr ?_) (.inl hseparated)
    obtain ⟨c, hc, hseparator⟩ := hseparated
    obtain ⟨before, behind, htag⟩ := List.append_of_mem hc
    rw [hfirst, firstSubtag_of_split hseparator htag, htag,
      trimStart_append (not_blank_of_separator hseparator)]
    exact takeWhile_behind (by simpa using hseparator)
  · have hunseparated : ∀ c ∈ trimStart tag.toList, (!isSubtagSeparator c) = true := by
      intro c hc
      have hmem : c ∈ tag.toList := (List.dropWhile_sublist isBlank).subset hc
      simpa using fun hseparator => hseparated ⟨c, hmem, hseparator⟩
    have hshort : firstSubtag tag = trimEnd (trimStart tag.toList) :=
      List.takeWhile_eq_self_iff.2 fun c hc => hunseparated c (mem_of_mem_trimEnd hc)
    rw [List.takeWhile_eq_self_iff.2 hunseparated] at hfirst
    rw [or_iff_right hseparated]
    by_cases hends : EndsBlank (trimStart tag.toList)
    · refine iff_of_false (fun hsame => ?_) (endsBlank_trimStart.1 hends)
      rw [← hfirst, ← endsBlank_normalizedSubtag, hsame, endsBlank_normalizedSubtag,
        hshort] at hends
      exact not_endsBlank_trimEnd _ hends
    · refine iff_of_true (normalizedSubtag_congr ?_) (not_not.1 (mt endsBlank_trimStart.2 hends))
      rw [hfirst, hshort, trimEnd_of_not_endsBlank hends]

/-! ## Faces -/

theorem ofLanguage_of_endsBlank {tag : String} (h : EndsBlank (firstSubtag tag)) :
    Face.ofLanguage tag = .general := by
  rw [← endsBlank_normalizedSubtag] at h
  unfold Face.ofLanguage
  split
  all_goals first
    | rfl
    | rename_i heq
      rw [heq] at h
      exact absurd h (by decide)

/-- Blanks behind the first subtag of a tag, and nothing else, keep it from being normalized once
and for all: they count before a separator and only there. Without them the normalized subtag stays
what it is and has the face of the tag; with them it is an unknown code and its face is the general
one. -/
theorem normalizedSubtag_projects (tag : String) :
    (normalizedSubtag (normalizedSubtag tag) = normalizedSubtag tag ↔
      ¬ EndsBlank (firstSubtag tag)) ∧
    (¬ EndsBlank (firstSubtag tag) →
      Face.ofLanguage (normalizedSubtag tag) = Face.ofLanguage tag) ∧
    (EndsBlank (firstSubtag tag) →
      normalizedSubtag tag = primarySubtag tag ∧ Face.ofLanguage tag = .general) ∧
    ∀ (separator : Char) (suffix : String), isSubtagSeparator separator = true →
      (normalizedSubtag (tag ++ String.singleton separator ++ suffix) = normalizedSubtag tag ↔
        (∃ c ∈ tag.toList, isSubtagSeparator c = true) ∨ Blanks tag.toList ∨
          ¬ EndsBlank tag.toList) := by
  refine ⟨normalizedSubtag_normalizedSubtag_iff, fun hends => ?_, fun hends => ⟨?_, ?_⟩, ?_⟩
  · rw [Face.ofLanguage, normalizedSubtag_normalizedSubtag_iff.2 hends, ← Face.ofLanguage]
  · rcases normalizedSubtag_cases tag with ⟨code, -, -, -, hnot⟩ | hprimary
    · exact absurd hends hnot
    · exact hprimary
  · exact ofLanguage_of_endsBlank hends
  · exact fun separator suffix h => normalizedSubtag_append_iff h suffix

/-- A bibliographic code in capital letters. -/
theorem normalizedSubtag_projects_german :
    (¬ EndsBlank (firstSubtag "GER") ∧ isSubtagSeparator '_' = true) ∧
      normalizedSubtag (normalizedSubtag "GER") = normalizedSubtag "GER" ∧
      Face.ofLanguage (normalizedSubtag "GER") = Face.ofLanguage "GER" ∧
      normalizedSubtag ("GER" ++ String.singleton '_' ++ "AT") = normalizedSubtag "GER" := by
  obtain ⟨hstays, hface, -, hsuffix⟩ := normalizedSubtag_projects "GER"
  have hends : ¬ EndsBlank (firstSubtag "GER") := by decide
  have hseparator : isSubtagSeparator '_' = true := by decide
  have htag : ¬ EndsBlank "GER".toList := by decide
  exact ⟨⟨hends, hseparator⟩, hstays.2 hends, hface hends,
    (hsuffix '_' "AT" hseparator).2 (.inr (.inr htag))⟩

/-- Arabic in Egypt, with a blank before the separator. -/
theorem normalizedSubtag_keeps_blank :
    normalizedSubtag "ar -EG" = "ar " ∧
      normalizedSubtag (normalizedSubtag "ar -EG") ≠ normalizedSubtag "ar -EG" ∧
      normalizedSubtag ("ar " ++ String.singleton '-' ++ "EG") ≠ normalizedSubtag "ar " ∧
      Face.ofLanguage "ar -EG" = .general ∧
      Face.ofLanguage (normalizedSubtag "ar -EG") = .arabic := by
  decide +kernel

end Folio
