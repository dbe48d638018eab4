import Folio.Pdf.Library
import Folio.Proofs.Pdf.PageTree

/-!
# Documents that come back

What is written down and read again comes back as it was, except that a real number may come back as
an integer and that dictionaries may have gained entries (`Object.comesBackAs`). A library need not
give back every document, since numbers that are too large have no form that it could read; where a
document comes back, its pages do (`IsFlat.comesBack`).
-/

set_option autoImplicit false

namespace Folio.Pdf

/-! ## Objects -/

namespace Object

mutual

/-- Whether an object that was written may be found as another. -/
def comesBackAs : Object → Object → Bool
  | .null, .null => true
  | .bool a, .bool b => a == b
  | .integer a, .integer b => a == b
  | .real a, b => decide (b.number? = some a)
  | .name a, .name b => a == b
  | .string a, .string b => a == b
  | .hexString a, .hexString b => a == b
  | .array a, .array b => itemsComeBack a b
  | .dictionary a, .dictionary b => entriesComeBack a b
  | .stream a content, .stream b found => entriesComeBack a b && content == found
  | .reference a, .reference b => a == b
  | _, _ => false

/-- Whether the items of an array may be found as others, one by one. -/
def itemsComeBack : List Object → List Object → Bool
  | [], [] => true
  | a :: as, b :: bs => a.comesBackAs b && itemsComeBack as bs
  | _, _ => false

/-- Whether the entries of a dictionary may be found among others. -/
def entriesComeBack : List (String × Object) → List (String × Object) → Bool
  | [], _ => true
  | (key, a) :: as, bs => (bs.lookup key).any a.comesBackAs && entriesComeBack as bs

end

section
variable {found : Object}

theorem eq_reference_of_comesBackAs {n : Nat} (h : (reference n).comesBackAs found) :
    found = .reference n := by
  cases found with
  | reference m =>
    rw [comesBackAs, beq_iff_eq] at h
    rw [h]
  | _ => simp [comesBackAs] at h

theorem eq_name_of_comesBackAs {text : String} (h : (name text).comesBackAs found) :
    found = .name text := by
  cases found with
  | name other =>
    rw [comesBackAs, beq_iff_eq] at h
    rw [h]
  | _ => simp [comesBackAs] at h

theorem eq_integer_of_comesBackAs {value : Int} (h : (integer value).comesBackAs found) :
    found = .integer value := by
  cases found with
  | integer other =>
    rw [comesBackAs, beq_iff_eq] at h
    rw [h]
  | _ => simp [comesBackAs] at h

theorem eq_references_of_itemsComeBack {numbers : List Nat} {items : List Object}
    (h : itemsComeBack (numbers.map .reference) items) : items = numbers.map .reference := by
  induction numbers generalizing items with
  | nil =>
    cases items with
    | nil => rfl
    | cons => simp [itemsComeBack] at h
  | cons n numbers ih =>
    cases items with
    | nil => simp [itemsComeBack] at h
    | cons item items =>
      rw [List.map_cons, itemsComeBack, Bool.and_eq_true] at h
      rw [eq_reference_of_comesBackAs h.1, ih h.2, List.map_cons]

theorem eq_array_of_comesBackAs {numbers : List Nat}
    (h : (array (numbers.map .reference)).comesBackAs found) :
    found = .array (numbers.map .reference) := by
  cases found with
  | array items =>
    rw [comesBackAs] at h
    rw [eq_references_of_itemsComeBack h]
  | _ => simp [comesBackAs] at h

theorem eq_dictionary_of_comesBackAs {entries : Dictionary}
    (h : (dictionary entries).comesBackAs found) :
    ∃ others, found = .dictionary others ∧ entriesComeBack entries others := by
  cases found with
  | dictionary others => exact ⟨others, rfl, by rwa [comesBackAs] at h⟩
  | _ => simp [comesBackAs] at h

end

/-- The bytes of a string. -/
def bytes? : Object → Option Bytes
  | .string bytes => some bytes
  | .hexString bytes => some bytes
  | _ => none

theorem number?_of_comesBackAs {written found : Object} (h : written.comesBackAs found) :
    found.number? = written.number? := by
  cases written with
  | real x =>
    rw [comesBackAs, decide_eq_true_eq] at h
    exact h
  | _ => cases found <;> simp_all [comesBackAs, number?]

theorem bytes?_of_comesBackAs {written found : Object} (h : written.comesBackAs found) :
    found.bytes? = written.bytes? := by
  cases written with
  | _ => cases found <;> simp_all [comesBackAs, number?, bytes?]

theorem map_of_itemsComeBack {α : Type} {f : Object → α}
    (hf : ∀ a b, a.comesBackAs b → f b = f a) {written found : List Object}
    (h : itemsComeBack written found) : found.map f = written.map f := by
  induction written generalizing found with
  | nil =>
    cases found with
    | nil => rfl
    | cons => simp [itemsComeBack] at h
  | cons a as ih =>
    cases found with
    | nil => simp [itemsComeBack] at h
    | cons b bs =>
      rw [itemsComeBack, Bool.and_eq_true] at h
      rw [List.map_cons, List.map_cons, hf a b h.1, ih h.2]

theorem lookup_of_entriesComeBack {entries others : Dictionary}
    (h : entriesComeBack entries others) {key : String} {value : Object}
    (hvalue : entries.lookup key = some value) :
    ∃ found, others.lookup key = some found ∧ value.comesBackAs found := by
  induction entries with
  | nil => cases hvalue
  | cons entry entries ih =>
    obtain ⟨k, v⟩ := entry
    rw [entriesComeBack, Bool.and_eq_true] at h
    rw [Sorted.lookup_cons_ite] at hvalue
    split at hvalue
    · rename_i hk
      cases hvalue
      rw [hk]
      exact (Option.any_eq_true _ _).1 h.1
    · exact ih h.2 hvalue

end Object

/-! ## Documents -/

/-- Whether a document that was written may be found as another: all its objects come back. -/
def Document.comesBackAs (doc found : Document) : Bool :=
  (match doc.root, found.root with
    | some a, some b => a.comesBackAs b
    | none, none => true
    | _, _ => false) &&
    doc.objects.all fun (number, object) => (found.objects.lookup number).any object.comesBackAs

/-- Whether a library reads a document again that it has written. -/
def Library.returns (library : Library) (doc : Document) : Bool :=
  match library.read (library.write doc) with
  | .ok found => doc.comesBackAs found
  | .error _ => false

theorem Library.exists_read_of_returns {library : Library} {doc : Document}
    (h : library.returns doc) :
    ∃ found, library.read (library.write doc) = .ok found ∧ doc.comesBackAs found := by
  unfold returns at h
  split at h
  · rename_i found hread
    exact ⟨found, hread, h⟩
  · cases h

namespace Document

variable {doc found : Document}

theorem root_of_comesBackAs (h : doc.comesBackAs found) {catalog : Nat}
    (hroot : doc.root = some (.reference catalog)) : found.root = some (.reference catalog) := by
  rw [comesBackAs, Bool.and_eq_true, hroot] at h
  cases hfound : found.root with
  | none => simp [hfound] at h
  | some root =>
    rw [hfound] at h
    rw [Object.eq_reference_of_comesBackAs h.1]

theorem valueAt?_of_comesBackAs (h : doc.comesBackAs found) {n : Nat} {key : String} {value : Object}
    (hvalue : doc.valueAt? n key = some value) :
    ∃ other, found.valueAt? n key = some other ∧ value.comesBackAs other := by
  obtain ⟨entries, hentries, hkey⟩ := valueAt?_eq_some_iff.1 hvalue
  rw [comesBackAs, Bool.and_eq_true, List.all_eq_true] at h
  obtain ⟨before, after, hobjects, -⟩ := List.lookup_eq_some_iff.1 hentries
  have hback := h.2 (n, .dictionary entries) (by rw [hobjects]; simp)
  obtain ⟨object, hobject, hsame⟩ := (Option.any_eq_true _ _).1 hback
  obtain ⟨others, rfl, hentries⟩ := Object.eq_dictionary_of_comesBackAs hsame
  obtain ⟨other, hother, hsame⟩ := Object.lookup_of_entriesComeBack hentries hkey
  exact ⟨other, valueAt?_eq_some_iff.2 ⟨others, hobject, hother⟩, hsame⟩

/-- The page tree comes back. -/
theorem IsFlat.comesBack {catalog tree : Nat} {kids : List Nat} (h : doc.IsFlat catalog tree kids)
    (hback : doc.comesBackAs found) : found.IsFlat catalog tree kids := by
  have hname {n : Nat} {key text : String} (hentry : doc.valueAt? n key = some (.name text)) :
      found.valueAt? n key = some (.name text) := by
    obtain ⟨other, hother, hsame⟩ := valueAt?_of_comesBackAs hback hentry
    rw [hother, Object.eq_name_of_comesBackAs hsame]
  have hreference {n m : Nat} {key : String} (hentry : doc.valueAt? n key = some (.reference m)) :
      found.valueAt? n key = some (.reference m) := by
    obtain ⟨other, hother, hsame⟩ := valueAt?_of_comesBackAs hback hentry
    rw [hother, Object.eq_reference_of_comesBackAs hsame]
  obtain ⟨items, hitems, hkids⟩ := valueAt?_of_comesBackAs hback h.branch.2.1
  obtain ⟨count, hcount, hlength⟩ := valueAt?_of_comesBackAs hback h.branch.2.2
  rw [Object.eq_array_of_comesBackAs hkids] at hitems
  rw [Object.eq_integer_of_comesBackAs hlength] at hcount
  exact {
    root := root_of_comesBackAs hback h.root
    catalog := ⟨hname h.catalog.1, hreference h.catalog.2⟩
    branch := ⟨hname h.branch.1, hitems, hcount⟩
    leaf := fun kid hkid => ⟨hname (h.leaf kid hkid).1, hreference (h.leaf kid hkid).2⟩
    distinct := h.distinct }

end Document

end Folio.Pdf
