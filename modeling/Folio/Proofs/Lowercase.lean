import Folio.Language
import Mathlib.Data.List.Forall2

/-!
# Lower case

What lower case makes of a text it leaves as it is (`lowercase_of_isLower`): no run of the table
maps on the lower-case forms of another one (`not_covers_form`). Blanks and separators of subtags
neither come from other characters nor turn into others, so that a text in lower case begins and
ends with blanks as it did before (`head?_lowercase`, `getLast?_lowercase`).
-/

set_option autoImplicit false

namespace Folio.Text

/-! ## The runs of the table -/

/-- Whether a run has a lower-case form for a code point. -/
def covers (run : Nat × Nat × Nat × Nat) (code : Nat) : Bool :=
  run.1 ≤ code && code ≤ run.2.1 && (code - run.1) % run.2.2.1 == 0

/-- The lower-case form of a code point that a run covers. -/
def form (run : Nat × Nat × Nat × Nat) (code : Nat) : Nat := run.2.2.2 + (code - run.1)

theorem lowercaseCode_cases (code : Nat) :
    lowercaseCode code = code ∨
      ∃ run ∈ lowercaseRuns, covers run code = true ∧ lowercaseCode code = form run code := by
  unfold lowercaseCode
  split
  · rename_i first last step lower hfind
    have hcovers := List.find?_some hfind
    exact .inr ⟨_, List.mem_of_find?_eq_some hfind, hcovers, rfl⟩
  · exact .inl rfl

theorem lowercaseCode_of_uncovered {code : Nat}
    (h : ∀ run ∈ lowercaseRuns, covers run code = false) : lowercaseCode code = code := by
  unfold lowercaseCode
  split
  · rename_i first last step lower hfind
    have hcovers := List.find?_some hfind
    have huncovered := h _ (List.mem_of_find?_eq_some hfind)
    cases hcovers.symm.trans huncovered
  · rfl

theorem le_of_covers {run : Nat × Nat × Nat × Nat} {code : Nat} (h : covers run code = true) :
    run.1 ≤ code ∧ code ≤ run.2.1 := by
  simp only [covers, Bool.and_eq_true, decide_eq_true_eq] at h
  exact h.1

/-- Whether the forms of a run may lie in another run. -/
def meets (run other : Nat × Nat × Nat × Nat) : Bool :=
  (other.1.ble (run.2.2.2 + (run.2.1 - run.1))).and (run.2.2.2.ble other.2.1)

/-- Where the forms of a run lie in another run, they stand between the code points that it
covers. -/
theorem runs_apart : (lowercaseRuns.all fun run => lowercaseRuns.all fun other =>
    bif meets run other then (List.range (run.2.1 - run.1 + 1)).all fun k =>
      !covers run (run.1 + k) || !covers other (form run (run.1 + k))
    else true) = true := by
  decide +kernel

/-- Lower-case forms have no lower-case forms of their own. -/
theorem not_covers_form {run other : Nat × Nat × Nat × Nat} {code : Nat}
    (hrun : run ∈ lowercaseRuns) (hother : other ∈ lowercaseRuns) (h : covers run code = true) :
    covers other (form run code) = false := by
  obtain ⟨hfirst, hlast⟩ := le_of_covers h
  by_contra hcovers
  rw [Bool.not_eq_false] at hcovers
  obtain ⟨hfirst', hlast'⟩ := le_of_covers hcovers
  unfold form at hfirst' hlast'
  have hmeets : meets run other = true := by
    simp only [meets, Bool.and_eq_true, Nat.ble_eq]
    omega
  have hapart := List.all_eq_true.1 (List.all_eq_true.1 runs_apart run hrun) other hother
  rw [hmeets, cond_true, List.all_eq_true] at hapart
  have hcode := hapart (code - run.1) (List.mem_range.2 (by omega))
  rw [Nat.add_sub_cancel' hfirst, h, hcovers] at hcode
  cases hcode

/-- What is neither mapped nor mapped on: blanks, separators of subtags, the capital I with a dot,
which becomes two characters, and what is no character. -/
def unmapped : List (Nat × Nat) :=
  blankRanges ++ [(0x2D, 0x2D), (0x5F, 0x5F), (0x130, 0x130), (0xD800, 0xDFFF)]

theorem runs_mapped : (lowercaseRuns.all fun run =>
    Nat.ble (run.2.2.2 + (run.2.1 - run.1)) 0x10FFFF && unmapped.all fun range =>
      (Nat.blt run.2.1 range.1 || Nat.blt range.2 run.1) &&
        (Nat.blt (run.2.2.2 + (run.2.1 - run.1)) range.1 || Nat.blt range.2 run.2.2.2)) = true := by
  decide +kernel

theorem mapped_of_covers {run : Nat × Nat × Nat × Nat} {code : Nat} (hrun : run ∈ lowercaseRuns)
    (h : covers run code = true) :
    inRanges unmapped code = false ∧ inRanges unmapped (form run code) = false ∧
      form run code ≤ 0x10FFFF := by
  obtain ⟨hfirst, hlast⟩ := le_of_covers h
  have hmapped := List.all_eq_true.1 runs_mapped run hrun
  simp only [Bool.and_eq_true, Nat.ble_eq, List.all_eq_true, Bool.or_eq_true, Nat.blt_eq] at hmapped
  obtain ⟨hgreatest, hranges⟩ := hmapped
  simp only [← Bool.not_eq_true, inRanges_iff, form]
  refine ⟨?_, ?_, by omega⟩
  · rintro ⟨range, hrange, hle, hge⟩
    have hapart := hranges range hrange
    omega
  · rintro ⟨range, hrange, hle, hge⟩
    have hapart := hranges range hrange
    omega

/-! ## Characters in lower case -/

/-- A character that lower case leaves as it is, wherever it stands. -/
structure IsLower (c : Char) : Prop where
  not_sigma : c ≠ 'Σ'
  not_dotted : c ≠ 'İ'
  code : lowercaseCode c.toNat = c.toNat

theorem toNat_ofNat {n : Nat} (h : n.isValidChar) : (Char.ofNat n).toNat = n := by
  unfold Char.ofNat
  rw [dif_pos h]
  rfl

/-- Of ASCII only the first run covers anything. -/
theorem lowercaseCode_ascii {code : Nat} (h : code < 0x80) :
    lowercaseCode code = if 0x41 ≤ code ∧ code ≤ 0x5A then code + 0x20 else code := by
  have hruns : lowercaseRuns = (0x41, 0x5A, 1, 0x61) :: lowercaseRuns.tail := rfl
  have htail : ∀ run ∈ lowercaseRuns.tail, 0x80 ≤ run.1 := by decide +kernel
  split
  · rename_i hcapital
    have hcovers : covers (0x41, 0x5A, 1, 0x61) code = true := by
      simp [covers, hcapital, Nat.mod_one]
    have hfind : lowercaseRuns.find? (covers · code) = some (0x41, 0x5A, 1, 0x61) := by
      rw [hruns]
      exact List.find?_cons_of_pos hcovers
    have hform : lowercaseCode code = 0x61 + (code - 0x41) := by
      unfold lowercaseCode
      exact hfind ▸ rfl
    omega
  · rename_i hcapital
    refine lowercaseCode_of_uncovered fun run hrun => Bool.eq_false_iff.2 fun hcovers => ?_
    obtain ⟨hfirst, hlast⟩ := le_of_covers hcovers
    rw [hruns, List.mem_cons] at hrun
    rcases hrun with rfl | hlater
    · exact hcapital ⟨hfirst, hlast⟩
    · have hbehind := htail run hlater
      omega

/-- The runs hold for ASCII as well. -/
theorem lowercaseChar_eq {c : Char} (h : c ≠ 'İ') :
    lowercaseChar c = [Char.ofNat (lowercaseCode c.toNat)] := by
  have hascii : ∀ n < 0x80, (Char.ofNat n).toLower =
      Char.ofNat (if 0x41 ≤ n ∧ n ≤ 0x5A then n + 0x20 else n) := by
    decide +kernel
  unfold lowercaseChar
  split
  · rename_i hc
    have hlower := hascii c.toNat hc
    rw [Char.ofNat_toNat] at hlower
    rw [hlower, lowercaseCode_ascii hc]
  · rfl

/-- What a character becomes in lower case. -/
structure Lowers (c : Char) (lower : List Char) : Prop where
  ne_nil : lower ≠ []
  isLower : ∀ d ∈ lower, IsLower d
  isBlank : ∀ d ∈ lower, isBlank d = isBlank c
  isSubtagSeparator : ∀ d ∈ lower, isSubtagSeparator d = isSubtagSeparator c

theorem IsLower.lowers_of_eq {c d : Char} (h : IsLower d) (hblank : isBlank d = isBlank c)
    (hseparator : isSubtagSeparator d = isSubtagSeparator c) : Lowers c [d] where
  ne_nil := List.cons_ne_nil d []
  isLower := List.forall_mem_singleton.2 h
  isBlank := List.forall_mem_singleton.2 hblank
  isSubtagSeparator := List.forall_mem_singleton.2 hseparator

theorem IsLower.lowers {c : Char} (h : IsLower c) : Lowers c [c] :=
  h.lowers_of_eq rfl rfl

/-- Where no range of unmapped characters reaches, there are neither blanks nor separators. -/
theorem ordinary_of_unmapped {c : Char} (h : inRanges unmapped c.toNat = false) :
    isBlank c = false ∧ isSubtagSeparator c = false ∧ c ≠ 'İ' := by
  have hranges : ∀ range ∈ unmapped, ¬ (range.1 ≤ c.toNat ∧ c.toNat ≤ range.2) := by
    rw [← Bool.not_eq_true, inRanges_iff] at h
    simpa using h
  refine ⟨?_, ?_, ?_⟩
  · rw [← Bool.not_eq_true, isBlank, inRanges_iff]
    rintro ⟨range, hrange, hc⟩
    exact hranges range (List.mem_append_left _ hrange) hc
  · rw [isSubtagSeparator, Bool.or_eq_false_iff, beq_eq_false_iff_ne, beq_eq_false_iff_ne]
    constructor <;> rintro rfl
    · exact hranges (0x2D, 0x2D) (by decide) (by decide)
    · exact hranges (0x5F, 0x5F) (by decide) (by decide)
  · rintro rfl
    exact hranges (0x130, 0x130) (by decide) (by decide)

theorem lowers_of_covers {run : Nat × Nat × Nat × Nat} {c : Char} (hrun : run ∈ lowercaseRuns)
    (h : covers run c.toNat = true) : Lowers c [Char.ofNat (form run c.toNat)] := by
  obtain ⟨hc, hform, hgreatest⟩ := mapped_of_covers hrun h
  have hvalid : (form run c.toNat).isValidChar := by
    have hsurrogate : ¬ (0xD800 ≤ form run c.toNat ∧ form run c.toNat ≤ 0xDFFF) := by
      rw [← Bool.not_eq_true, inRanges_iff] at hform
      exact fun hrange => hform ⟨(0xD800, 0xDFFF), by decide, hrange⟩
    unfold Nat.isValidChar
    omega
  have hcode := toNat_ofNat hvalid
  have huncovered : ∀ other ∈ lowercaseRuns, covers other (form run c.toNat) = false :=
    fun other hother => not_covers_form hrun hother h
  obtain ⟨hblank, hseparator, hdotted⟩ := ordinary_of_unmapped (hcode.symm ▸ hform)
  obtain ⟨hblank', hseparator', -⟩ := ordinary_of_unmapped hc
  have hlower : IsLower (Char.ofNat (form run c.toNat)) := by
    refine ⟨?_, hdotted, by rw [hcode, lowercaseCode_of_uncovered huncovered]⟩
    intro hsigma
    rw [← hcode, hsigma] at huncovered
    exact absurd huncovered (by decide +kernel)
  exact hlower.lowers_of_eq (hblank.trans hblank'.symm) (hseparator.trans hseparator'.symm)

theorem lowers_lowercaseChar {c : Char} (h : c ≠ 'Σ') : Lowers c (lowercaseChar c) := by
  by_cases hdotted : c = 'İ'
  · subst hdotted
    have hi : IsLower 'i' := ⟨by decide, by decide, by decide +kernel⟩
    have hdot : IsLower '\u0307' := ⟨by decide, by decide, by decide +kernel⟩
    refine ⟨by decide, ?_, ?_, ?_⟩
    · exact List.forall_mem_cons.2 ⟨hi, List.forall_mem_singleton.2 hdot⟩
    · exact List.forall_mem_cons.2 ⟨by decide, List.forall_mem_singleton.2 (by decide)⟩
    · exact List.forall_mem_cons.2 ⟨by decide, List.forall_mem_singleton.2 (by decide)⟩
  · rw [lowercaseChar_eq hdotted]
    rcases lowercaseCode_cases c.toNat with hsame | ⟨run, hrun, hcovers, hform⟩
    · have hlower : IsLower c := ⟨h, hdotted, hsame⟩
      rw [hsame, Char.ofNat_toNat]
      exact hlower.lowers
    · rw [hform]
      exact lowers_of_covers hrun hcovers

/-! ## Texts in lower case -/

/-- A text is put into lower case character by character. -/
theorem exists_lowers (before text : List Char) :
    ∃ groups, List.Forall₂ Lowers text groups ∧ lowercaseAfter before text = groups.flatten := by
  induction text generalizing before with
  | nil => exact ⟨[], .nil, rfl⟩
  | cons c cs ih =>
    obtain ⟨groups, hgroups, hrest⟩ := ih (c :: before)
    rw [lowercaseAfter, hrest]
    by_cases hc : c = 'Σ'
    · subst hc
      have hsmall : IsLower 'σ' := ⟨by decide, by decide, by decide +kernel⟩
      have hfinal : IsLower 'ς' := ⟨by decide, by decide, by decide +kernel⟩
      rw [if_pos rfl]
      split
      · exact ⟨_, .cons (hfinal.lowers_of_eq (by decide) (by decide)) hgroups, rfl⟩
      · exact ⟨_, .cons (hsmall.lowers_of_eq (by decide) (by decide)) hgroups, rfl⟩
    · rw [if_neg hc]
      exact ⟨_, .cons (lowers_lowercaseChar hc) hgroups, rfl⟩

/-- What lower case has made of a text it leaves as it is. -/
theorem lowercase_of_isLower {text : List Char} (h : ∀ c ∈ text, IsLower c) :
    lowercase text = text := by
  have hafter (before : List Char) : lowercaseAfter before text = text := by
    induction text generalizing before with
    | nil => rfl
    | cons c cs ih =>
      rw [List.forall_mem_cons] at h
      obtain ⟨⟨hsigma, hdotted, hcode⟩, hrest⟩ := h
      rw [lowercaseAfter, ih hrest, if_neg hsigma, lowercaseChar_eq hdotted, hcode,
        Char.ofNat_toNat, List.singleton_append]
  exact hafter []

theorem mem_lowercase {text : List Char} {d : Char} (h : d ∈ lowercase text) :
    IsLower d ∧ ∃ c ∈ text, isSubtagSeparator d = isSubtagSeparator c := by
  obtain ⟨groups, hgroups, htext⟩ := exists_lowers [] text
  rw [lowercase, htext] at h
  clear htext
  induction hgroups with
  | nil => cases h
  | cons hlowers _ ih =>
    rw [List.flatten_cons, List.mem_append] at h
    rcases h with h | h
    · exact ⟨hlowers.isLower d h, _, List.mem_cons_self, hlowers.isSubtagSeparator d h⟩
    · obtain ⟨hlower, c, hc, hd⟩ := ih h
      exact ⟨hlower, c, List.mem_cons_of_mem _ hc, hd⟩

theorem head?_lowercase (text : List Char) :
    (lowercase text).head?.map isBlank = text.head?.map isBlank := by
  obtain ⟨groups, hgroups, htext⟩ := exists_lowers [] text
  rw [lowercase, htext]
  cases hgroups with
  | nil => rfl
  | @cons c group cs groups hlowers _ =>
    obtain ⟨d, ds, rfl⟩ := List.exists_cons_of_ne_nil hlowers.ne_nil
    simpa using hlowers.isBlank d List.mem_cons_self

theorem getLast?_lowercase (text : List Char) :
    (lowercase text).getLast?.map isBlank = text.getLast?.map isBlank := by
  obtain ⟨groups, hgroups, htext⟩ := exists_lowers [] text
  rw [lowercase, htext]
  clear htext
  induction hgroups with
  | nil => rfl
  | @cons c group cs groups hlowers hrest ih =>
    cases cs with
    | nil =>
      cases hrest
      obtain ⟨ds, d, rfl⟩ := (List.eq_nil_or_concat group).resolve_left hlowers.ne_nil
      simpa using hlowers.isBlank d (by simp)
    | cons next cs =>
      have hne : groups.flatten ≠ [] := by
        intro hnil
        rw [hnil, List.getLast?_eq_some_getLast (List.cons_ne_nil next cs)] at ih
        cases ih
      rw [List.flatten_cons, List.getLast?_append_of_ne_nil group hne, ih,
        List.getLast?_cons_cons]

end Folio.Text
