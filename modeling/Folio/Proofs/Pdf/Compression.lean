import Folio.Pdf.File
import Folio.Pdf.Source
import Folio.Proofs.Pdf.Reachable
import Folio.Proofs.Pdf.Stored

/-!
# Compressed documents

Compressing a document changes the form of its streams and nothing else: dictionaries keep their
entries (`valueAt?_compress`), references lead as far (`reaches_compress_iff`), and a stream holds
what it held (`Holds.compress`), as long as the library compresses without loss.
-/

set_option autoImplicit false

namespace Folio.Pdf

/-- What the library compresses comes back as it was. -/
def Library.Lossless (library : Library) : Prop :=
  ∀ content, Deflate.decompress (library.deflate content) = content

theorem File.library_lossless : File.library.Lossless := Deflate.decompress_store

/-! ## Objects -/

theorem Dictionary.set_of_isNone {dict : Dictionary} {key : String} (value : Object)
    (h : (dict.lookup key).isNone) : dict.set key value = dict ++ [(key, value)] := by
  induction dict with
  | nil => rfl
  | cons entry dict ih =>
    obtain ⟨k, v⟩ := entry
    rw [Sorted.lookup_cons_ite] at h
    by_cases hk : key = k
    · rw [if_pos hk] at h
      cases h
    · rw [if_neg hk] at h
      rw [set, if_neg (Ne.symm hk), ih h, List.cons_append]

theorem Object.referencesOfEntries_append (a b : Dictionary) :
    Object.referencesOfEntries (a ++ b) =
      Object.referencesOfEntries a ++ Object.referencesOfEntries b := by
  induction a with
  | nil => rfl
  | cons entry a ih => simp [Object.referencesOfEntries, ih]

namespace Object

variable (deflate : Bytes → Bytes)

/-- A stream stays as it is, or its content is deflated and it names the filter. -/
theorem compress_stream (entries : Dictionary) (content : Bytes) :
    (stream entries content).compress deflate = stream entries content ∨
      ((entries.lookup "Filter").isNone = true ∧
        (stream entries content).compress deflate =
          stream (entries ++ [("Filter", name "FlateDecode")]) (deflate content)) := by
  rw [compress]
  by_cases h : (entries.lookup "Filter").isNone &&
      (deflate content).length + filterCost < content.length
  · rw [if_pos h]
    have hnone : (entries.lookup "Filter").isNone = true := (Bool.and_eq_true_iff.1 h).1
    exact .inr ⟨hnone, by rw [Dictionary.set_of_isNone _ hnone]⟩
  · rw [if_neg h]
    exact .inl rfl

@[simp] theorem dictionary?_compress (object : Object) :
    (object.compress deflate).dictionary? = object.dictionary? := by
  cases object with
  | stream entries content =>
    rcases compress_stream deflate entries content with h | ⟨-, h⟩
    · rw [h]
    · rw [h]
      rfl
  | _ => rfl

@[simp] theorem references_compress (object : Object) :
    (object.compress deflate).references = object.references := by
  cases object with
  | stream entries content =>
    rcases compress_stream deflate entries content with h | ⟨-, h⟩
    · rw [h]
    · rw [h, references, references, referencesOfEntries_append]
      exact List.append_nil _
  | _ => rfl

end Object

/-! ## Documents -/

namespace Document

section
variable (doc : Document) (deflate : Bytes → Bytes) (n : Nat)

theorem lookup_compress : (doc.compress deflate).objects.lookup n =
    (doc.objects.lookup n).map (Object.compress deflate) := by
  rw [compress]
  induction doc.objects with
  | nil => rfl
  | cons entry objects ih =>
    obtain ⟨m, object⟩ := entry
    rw [List.map_cons, Sorted.lookup_cons_ite, Sorted.lookup_cons_ite, ih]
    split <;> rfl

@[simp] theorem valueAt?_compress (key : String) :
    (doc.compress deflate).valueAt? n key = doc.valueAt? n key := by
  rw [valueAt?, lookup_compress, valueAt?]
  cases doc.objects.lookup n <;> simp

theorem lookup_compress_dictionary {entries : Dictionary}
    (h : doc.objects.lookup n = some (.dictionary entries)) :
    (doc.compress deflate).objects.lookup n = some (.dictionary entries) := by
  rw [lookup_compress, h]
  rfl

/-- References lead as far as they did. -/
theorem reaches_compress_iff (start : List Nat) :
    (doc.compress deflate).Reaches start n ↔ doc.Reaches start n := by
  constructor
  · intro h
    refine h.mono fun m object hm => ?_
    rw [lookup_compress] at hm
    obtain ⟨kept, hkept, rfl⟩ := Option.map_eq_some_iff.1 hm
    exact ⟨kept, hkept, by rw [Object.references_compress]; exact List.Subset.refl _⟩
  · intro h
    refine h.mono fun m object hm => ⟨object.compress deflate, ?_, ?_⟩
    · rw [lookup_compress, hm]
      rfl
    · rw [Object.references_compress]
      exact List.Subset.refl _

end

theorem Bounded.compress {doc : Document} (h : doc.Bounded) (deflate : Bytes → Bytes) :
    (doc.compress deflate).Bounded := by
  intro n object hn
  rw [lookup_compress] at hn
  obtain ⟨kept, hkept, -⟩ := Option.map_eq_some_iff.1 hn
  exact h n kept hkept

/-! ### Streams -/

/-- The stream under a number has the entries and the content, as it is or deflated. -/
def Holds (doc : Document) (n : Nat) (entries : Dictionary) (plain : Bytes) : Prop :=
  doc.objects.lookup n = some (.stream entries plain) ∨
    ∃ content, doc.objects.lookup n =
        some (.stream (entries ++ [("Filter", .name "FlateDecode")]) content) ∧
      Deflate.decompress content = plain

section
variable {doc : Document} {n : Nat} {entries : Dictionary} {plain : Bytes}

theorem Holds.of_lookup {later : Document} (h : doc.Holds n entries plain)
    (hkept : ∀ entries content, doc.objects.lookup n = some (.stream entries content) →
      later.objects.lookup n = some (.stream entries content)) :
    later.Holds n entries plain :=
  h.imp (hkept _ _) fun ⟨content, h, hplain⟩ => ⟨content, hkept _ _ h, hplain⟩

theorem Holds.compress (h : doc.Holds n entries plain) (hentries : entries.lookup "Filter" = none)
    {library : Library} (hlossless : library.Lossless) :
    (doc.compress library.deflate).Holds n entries plain := by
  unfold Holds
  rw [lookup_compress]
  rcases h with h | ⟨content, h, hplain⟩
  · rw [h]
    rcases Object.compress_stream library.deflate entries plain with hsame | ⟨-, hdeflated⟩
    · exact .inl (congrArg some hsame)
    · exact .inr ⟨_, congrArg some hdeflated, hlossless plain⟩
  · rw [h]
    refine .inr ⟨content, congrArg some ?_, hplain⟩
    rcases Object.compress_stream library.deflate _ content with hsame | ⟨hnone, -⟩
    · exact hsame
    · rw [List.lookup_append, hentries] at hnone
      cases hnone

/-- A stream without entries of its own is read as what it holds. -/
theorem Holds.lookup (h : doc.Holds n [] plain) :
    ∃ entries content, doc.objects.lookup n = some (.stream entries content) ∧
      plainContent? entries content = some plain ∧
      (unfiltered? entries content).getD content = plain := by
  rcases h with h | ⟨content, h, hplain⟩
  · exact ⟨[], plain, h, rfl, rfl⟩
  · exact ⟨[("Filter", .name "FlateDecode")], content, h, congrArg some hplain, hplain⟩

theorem Holds.plainAt? (h : doc.Holds n [] plain) : doc.plainAt? n = some plain := by
  obtain ⟨entries, content, hlookup, hplain, -⟩ := h.lookup
  exact plainAt?_eq_some_iff.2 ⟨entries, content, hlookup, hplain⟩

end

end Document

end Folio.Pdf
