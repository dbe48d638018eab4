import Folio.Proofs.Splitting
import Folio.Url

/-!
# Segments behind a path

A path is read piece by piece, and what stands behind a slash does not change what the pieces before
it come to (`resolveFrom_append`). So a text with plain segments behind it is read to the segments
that the text keeps, and then those (`parseSegments_plain`). With slashes or nothing behind it, it is
read to the segments that it keeps, and then empty ones; one slash makes one (`parseSegments_slashes`).
-/

set_option autoImplicit false

namespace Folio

namespace Url

/-- What separates the segments of a path. -/
def isSeparator (scheme : List Char) (c : Char) : Bool :=
  c == '/' || (isSpecial scheme && c == '\\')

/-- A segment that is read as it is written, wherever it stands. -/
structure Plain (segment : List Char) : Prop where
  chars : ∀ c ∈ segment, inPath c = false ∧ c ≠ '/' ∧ c ≠ '\\'
  single : isSingleDot segment = false
  double : isDoubleDot segment = false
  drive : isDriveLetter segment = false

instance (segment : List Char) : Decidable (Plain segment) :=
  decidable_of_iff
    ((segment.all (fun c => !inPath c && !(c == '/' || c == '\\')) && !isSingleDot segment &&
      !isDoubleDot segment && !isDriveLetter segment) = true)
    ⟨fun h => by
      simp only [Bool.and_eq_true, List.all_eq_true, Bool.not_eq_true', Bool.or_eq_false_iff,
        beq_eq_false_iff_ne] at h
      exact ⟨h.1.1.1, h.1.1.2, h.1.2, h.2⟩,
    fun h => by
      simp only [Bool.and_eq_true, List.all_eq_true, Bool.not_eq_true', Bool.or_eq_false_iff,
        beq_eq_false_iff_ne]
      exact ⟨⟨⟨h.chars, h.single⟩, h.double⟩, h.drive⟩⟩

/-- Segments as they are written in a path. -/
def written (segments : List (List Char)) : List Char := segments.flatMap ('/' :: ·)

/-- So many empty segments. -/
def blanks (n : Nat) : List (List Char) := List.replicate n []

theorem plain_nil : Plain [] := ⟨by simp, rfl, rfl, rfl⟩

theorem plain_blanks (n : Nat) : ∀ s ∈ blanks n, Plain s := by
  intro s hs
  rw [List.eq_of_mem_replicate hs]
  exact plain_nil

@[simp] theorem written_nil : written [] = [] := rfl

@[simp] theorem written_cons (s : List Char) (segments : List (List Char)) :
    written (s :: segments) = '/' :: s ++ written segments := rfl

@[simp] theorem written_append (a b : List (List Char)) :
    written (a ++ b) = written a ++ written b := List.flatMap_append

theorem written_blanks (n : Nat) : written (blanks n) = List.replicate n '/' := by
  induction n with
  | zero => rfl
  | succ n ih =>
    rw [blanks, List.replicate_succ, written_cons, ← blanks, ih]
    rfl

/-- Of what is written behind a path, the first character is a slash. -/
theorem head_written (segments : List (List Char)) : ∀ c ∈ (written segments).head?, c = '/' := by
  cases segments with
  | nil => simp
  | cons s segments => simp

section
variable {segments : List (List Char)} (hplain : ∀ s ∈ segments, Plain s)
include hplain

theorem mem_written {c : Char} (hc : c ∈ written segments) : c = '/' ∨ inPath c = false := by
  obtain ⟨s, hs, hc⟩ := List.mem_flatMap.1 hc
  rcases List.mem_cons.1 hc with rfl | hc
  · exact .inl rfl
  · exact .inr ((hplain s hs).chars c hc).1

theorem splitWhere_written (scheme text : List Char) :
    Text.splitWhere (isSeparator scheme) (text ++ written segments) =
      Text.splitWhere (isSeparator scheme) text ++ segments := by
  induction segments generalizing text with
  | nil => simp
  | cons s segments ih =>
    rw [List.forall_mem_cons] at hplain
    have huncut : ∀ c ∈ s, isSeparator scheme c = false := by
      intro c hc
      obtain ⟨-, hslash, hback⟩ := hplain.1.chars c hc
      simp [isSeparator, hslash, hback]
    have hslash : isSeparator scheme '/' = true := rfl
    rw [written_cons, List.cons_append, Text.splitWhere_append_cut hslash, ih hplain.2,
      Text.splitWhere_uncut huncut]
    rfl

end

/-! ## Resolution -/

/-- What a piece that is not the last one does to the segments before it. -/
def pass (file : Bool) (done : List (List Char)) (piece : List Char) : List (List Char) :=
  if isDoubleDot piece then shorten done
  else if isSingleDot piece then done
  else
    let piece :=
      if file && done.isEmpty && isDriveLetter piece then piece.take 1 ++ [':'] else piece
    encode inPath piece :: done

theorem resolveFrom_append (file : Bool) (done pieces more : List (List Char)) (hmore : more ≠ []) :
    resolveFrom file done (pieces ++ more) =
      resolveFrom file (pieces.foldl (pass file) done) more := by
  induction pieces generalizing done with
  | nil => rfl
  | cons piece pieces ih =>
    have hlast : (pieces ++ more).isEmpty = false := by simp [hmore]
    rw [List.cons_append, resolveFrom, List.foldl_cons, ← ih, pass, hlast]
    split
    · rfl
    · split <;> rfl

/-- The last piece does the same, but for the empty segment that dots leave at the end. -/
theorem resolveFrom_eq (file : Bool) (done pieces : List (List Char)) :
    ∃ n, resolveFrom file done pieces = blanks n ++ pieces.foldl (pass file) done := by
  induction pieces generalizing done with
  | nil => exact ⟨0, rfl⟩
  | cons piece pieces ih =>
    rw [resolveFrom, List.foldl_cons, pass]
    cases pieces with
    | nil =>
      split
      · exact ⟨1, rfl⟩
      · split
        · exact ⟨1, rfl⟩
        · exact ⟨0, rfl⟩
    | cons next pieces =>
      split
      · exact ih (shorten done)
      · split
        · exact ih done
        · exact ih _

theorem encode_plain {chosen : Char → Bool} {text : List Char}
    (h : ∀ c ∈ text, chosen c = false) : encode chosen text = text := by
  induction text with
  | nil => rfl
  | cons c cs ih =>
    rw [List.forall_mem_cons] at h
    rw [encode, List.flatMap_cons, if_neg (by simp [h.1]), ← encode, ih h.2]
    rfl

theorem resolveFrom_plain {segments : List (List Char)} (hplain : ∀ s ∈ segments, Plain s)
    (file : Bool) (done : List (List Char)) :
    resolveFrom file done segments = segments.reverse ++ done := by
  induction segments generalizing done with
  | nil => rfl
  | cons s segments ih =>
    rw [List.forall_mem_cons] at hplain
    obtain ⟨hs, hplain⟩ := hplain
    have hencode : encode inPath s = s := encode_plain fun c hc => (hs.chars c hc).1
    rw [resolveFrom]
    simp [hs.double, hs.single, hs.drive, hencode, ih hplain]

/-! ## Paths -/

/-- The segments that a text comes to before what stands behind it. -/
def kept (scheme text : List Char) : List (List Char) :=
  ((Text.splitWhere (isSeparator scheme) text).foldl (pass (isFile scheme)) []).reverse

theorem parseSegments_eq (scheme text : List Char) :
    parseSegments scheme text =
      (resolveFrom (isFile scheme) [] (Text.splitWhere (isSeparator scheme) text)).reverse := rfl

section
variable {segments : List (List Char)} (hplain : ∀ s ∈ segments, Plain s)
include hplain

theorem parseSegments_plain (scheme text : List Char) (hne : segments ≠ []) :
    parseSegments scheme (text ++ written segments) = kept scheme text ++ segments := by
  rw [parseSegments_eq, splitWhere_written hplain, resolveFrom_append _ _ _ _ hne,
    resolveFrom_plain hplain, List.reverse_append, List.reverse_reverse, kept]

/-- Plain segments are read as they are, the first one without its slash. -/
theorem parseSegments_self {s : List Char} (hs : Plain s) (scheme : List Char) :
    parseSegments scheme (s ++ written segments) = s :: segments := by
  have huncut : ∀ c ∈ s, isSeparator scheme c = false := by
    intro c hc
    obtain ⟨-, hslash, hback⟩ := hs.chars c hc
    simp [isSeparator, hslash, hback]
  have hall : ∀ x ∈ [s] ++ segments, Plain x := by
    intro x hx
    rcases List.mem_cons.1 hx with rfl | hx
    · exact hs
    · exact hplain x hx
  rw [parseSegments_eq, splitWhere_written hplain, Text.splitWhere_uncut huncut,
    resolveFrom_plain hall, List.append_nil, List.reverse_reverse]
  rfl

end

theorem parseSegments_nil (scheme : List Char) : parseSegments scheme [] = [[]] :=
  parseSegments_self (plain_blanks 0) plain_nil scheme

theorem parseSegments_slashes (scheme text : List Char) (n : Nat) :
    ∃ m, (n = 1 → m = 1) ∧
      parseSegments scheme (text ++ written (blanks n)) = kept scheme text ++ blanks m := by
  cases n with
  | zero =>
    obtain ⟨m, hm⟩ := resolveFrom_eq (isFile scheme) []
      (Text.splitWhere (isSeparator scheme) text)
    refine ⟨m, nofun, ?_⟩
    have hreverse : (blanks m).reverse = blanks m := List.reverse_replicate ..
    rw [blanks, List.replicate_zero, written_nil, List.append_nil, parseSegments_eq, hm,
      List.reverse_append, hreverse, kept]
  | succ n =>
    exact ⟨n + 1, id, parseSegments_plain (plain_blanks _) scheme text (by simp [blanks])⟩

/-- The segments that the path after an authority comes to before what stands behind it. -/
def pathKept (scheme : List Char) : List Char → List (List Char)
  | [] => []
  | c :: cs => kept scheme (if endsAuthority (isSpecial scheme) c then cs else c :: cs)

theorem parsePath_cons (scheme : List Char) (c : Char) (cs : List Char) :
    parsePath scheme (c :: cs) =
      .rooted (parseSegments scheme (if endsAuthority (isSpecial scheme) c then cs else c :: cs)) := by
  rw [parsePath]
  split
  · rfl
  · rfl

theorem endsAuthority_slash (special : Bool) : endsAuthority special '/' = true := rfl

theorem parsePath_plain {segments : List (List Char)} (hplain : ∀ s ∈ segments, Plain s)
    (hne : segments ≠ []) (scheme text : List Char) :
    parsePath scheme (text ++ written segments) = .rooted (pathKept scheme text ++ segments) := by
  cases text with
  | nil =>
    obtain ⟨s, rest, rfl⟩ := List.exists_cons_of_ne_nil hne
    rw [List.forall_mem_cons] at hplain
    rw [List.nil_append, written_cons, List.cons_append, parsePath_cons,
      if_pos (endsAuthority_slash _), parseSegments_self hplain.2 hplain.1]
    rfl
  | cons c cs =>
    rw [List.cons_append, parsePath_cons, pathKept]
    by_cases hc : endsAuthority (isSpecial scheme) c = true
    · rw [if_pos hc, if_pos hc, parseSegments_plain hplain scheme cs hne]
    · rw [if_neg hc, if_neg hc, ← List.cons_append,
        parseSegments_plain hplain scheme (c :: cs) hne]

theorem parsePath_slashes (scheme text : List Char) (n : Nat) :
    ∃ m, (n = 1 → m = 1) ∧ parsePath scheme (text ++ written (blanks n)) =
      .rooted (pathKept scheme text ++ blanks m) := by
  cases text with
  | nil =>
    cases n with
    | zero =>
      cases hspecial : isSpecial scheme with
      | true => exact ⟨1, nofun, by simp [parsePath, hspecial, blanks, pathKept]⟩
      | false => exact ⟨0, nofun, by simp [parsePath, hspecial, blanks, pathKept]⟩
    | succ n =>
      have hne : blanks (n + 1) ≠ [] := by simp [blanks]
      exact ⟨n + 1, id, parsePath_plain (plain_blanks _) hne scheme []⟩
  | cons c cs =>
    rw [List.cons_append, parsePath_cons, pathKept]
    by_cases hc : endsAuthority (isSpecial scheme) c = true
    · obtain ⟨m, hone, hm⟩ := parseSegments_slashes scheme cs n
      exact ⟨m, hone, by rw [if_pos hc, if_pos hc, hm]⟩
    · obtain ⟨m, hone, hm⟩ := parseSegments_slashes scheme (c :: cs) n
      exact ⟨m, hone, by rw [if_neg hc, if_neg hc, ← List.cons_append, hm]⟩

end Url

end Folio
