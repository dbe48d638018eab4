import Folio.Pdf.Source
import Folio.Proofs.Binary
import Folio.Proofs.Pdf.Reachable
import Mathlib.Data.List.Perm.Subperm

/-!
# Page trees of one level

Where every child of the root of a page tree is a page, the pages of the document are these children
in their order (`IsFlat.pages_eq`), and the size read off a page is the one that it was given
(`pageSize_of_box`).
-/

set_option autoImplicit false

namespace Folio.Pdf.Document

variable {doc : Document}

/-! ## Dictionaries -/

theorem get_of_lookup {n : Nat} {entries : Dictionary}
    (h : doc.objects.lookup n = some (.dictionary entries)) :
    doc.get n = .ok (.dictionary entries) := by
  rw [get, h]
  rfl

/-- A value is found in the dictionary that its number leads to. -/
theorem dictionary?_of_valueAt? {n : Nat} {key : String} {value : Object}
    (h : doc.valueAt? n key = some value) :
    ∃ entries, doc.dictionary? n = some entries ∧ entries.lookup key = some value := by
  obtain ⟨entries, hentries, hvalue⟩ := valueAt?_eq_some_iff.1 h
  refine ⟨entries, ?_, hvalue⟩
  rw [dictionary?, dictionary, get_of_lookup hentries]
  rfl

theorem kind?_of_valueAt? {n : Nat} {kind : String} (h : doc.valueAt? n "Type" = some (.name kind)) :
    doc.kind? n = some kind := by
  obtain ⟨entries, hentries, hkind⟩ := dictionary?_of_valueAt? h
  rw [kind?, hentries, Option.bind_some, hkind]
  rfl

/-! ## Trees -/

/-- The trailer names a catalog, and the page tree below it has one level. -/
structure IsFlat (doc : Document) (catalog tree : Nat) (kids : List Nat) : Prop where
  root : doc.root = some (.reference catalog)
  catalog : doc.valueAt? catalog "Type" = some (.name "Catalog") ∧
    doc.valueAt? catalog "Pages" = some (.reference tree)
  branch : doc.valueAt? tree "Type" = some (.name "Pages") ∧
    doc.valueAt? tree "Kids" = some (.array (kids.map .reference)) ∧
    doc.valueAt? tree "Count" = some (.integer kids.length)
  leaf : ∀ kid ∈ kids, doc.valueAt? kid "Type" = some (.name "Page") ∧
    doc.valueAt? kid "Parent" = some (.reference tree)
  distinct : kids.Nodup

/-- Nodes that are pages are visited one after the other. -/
theorem pagesFrom_of_pages {fuel : Nat} {kids : List Nat} (hfuel : kids.length ≤ fuel)
    (h : ∀ kid ∈ kids, doc.kind? kid = some "Page") :
    doc.pagesFrom fuel (kids.map .reference) [] = kids := by
  induction kids generalizing fuel with
  | nil =>
    cases fuel with
    | zero => rfl
    | succ fuel => rfl
  | cons kid kids ih =>
    obtain ⟨hkid, hkids⟩ := List.forall_mem_cons.1 h
    cases fuel with
    | zero => cases hfuel
    | succ fuel =>
      have hvisit : doc.visit (.reference kid) (kids.map .reference) [] =
          (some kid, kids.map .reference, []) := by
        simp [visit, Object.reference?, hkid]
      rw [List.map_cons, pagesFrom, takeNode]
      simp only [hvisit]
      rw [ih (Nat.le_of_succ_le_succ hfuel) hkids]
      rfl

namespace IsFlat

variable {catalog tree : Nat} {kids : List Nat} (h : doc.IsFlat catalog tree kids)

include h

theorem pageTree?_eq : doc.pageTree? = some tree := by
  obtain ⟨entries, hentries, hpages⟩ := dictionary?_of_valueAt? h.catalog.2
  rw [pageTree?, h.root]
  simp only [Object.reference?, Option.bind_eq_bind, Option.bind_some]
  rw [hentries, Option.bind_some, hpages]
  rfl

theorem kids_eq : doc.kids tree = kids.map .reference := by
  obtain ⟨entries, hentries, hkids⟩ := dictionary?_of_valueAt? h.branch.2.1
  rw [Document.kids, hentries, Option.bind_some, hkids]

/-- There are enough objects for every child, since no two of them are the same. -/
theorem length_le : kids.length ≤ doc.objects.length := by
  have hsub : kids ⊆ doc.objects.map Prod.fst := by
    intro kid hkid
    obtain ⟨entries, hlookup, -⟩ := valueAt?_eq_some_iff.1 (h.leaf kid hkid).1
    exact mem_numbers_iff.2 ⟨_, hlookup⟩
  have hle := (List.subperm_of_subset h.distinct hsub).length_le
  rwa [List.length_map] at hle

/-- The pages are the children of the root, in their order. -/
theorem pages_eq : doc.pages = kids := by
  rw [pages, h.pageTree?_eq]
  simp only
  rw [h.kids_eq]
  exact pagesFrom_of_pages h.length_le fun kid hkid => kind?_of_valueAt? (h.leaf kid hkid).1

/-- Only the root and the entries matter. -/
theorem congr {later : Document} (hroot : later.root = doc.root)
    (hentry : ∀ n key, later.valueAt? n key = doc.valueAt? n key) : later.IsFlat catalog tree kids where
  root := hroot.trans h.root
  catalog := by simpa only [hentry] using h.catalog
  branch := by simpa only [hentry] using h.branch
  leaf := by simpa only [hentry] using h.leaf
  distinct := h.distinct

end IsFlat

/-! ## Sizes -/

/-- The size that is read off a page whose sides are positive is the one that it was given. -/
theorem pageSize_of_box {page : Nat} {size : PageSize}
    (h : doc.valueAt? page "MediaBox" =
      some (.array [.integer 0, .integer 0, .real size.width, .real size.height]))
    (hwidth : 0 < size.width) (hheight : 0 < size.height) :
    ((doc.get page).toOption.bind (doc.box? boxDepth)).bind sizeOfBox? = some size := by
  obtain ⟨entries, hentries, hbox⟩ := valueAt?_eq_some_iff.1 h
  have hown : doc.ownBox? entries =
      some [Binary32.ofInt 0, Binary32.ofInt 0, size.width, size.height] := by
    rw [ownBox?, hbox]
    rfl
  have hfound : doc.box? boxDepth (.dictionary entries) =
      some [Binary32.ofInt 0, Binary32.ofInt 0, size.width, size.height] := by
    rw [boxDepth, box?]
    simp only [Object.dictionary?, Option.bind_eq_bind, Option.bind_some, hown]
  have hsize : sizeOfBox? [Binary32.ofInt 0, Binary32.ofInt 0, size.width, size.height] =
      some size := by
    simp only [sizeOfBox?, Binary32.sub_zero_of_pos hwidth, Binary32.sub_zero_of_pos hheight,
      Binary32.abs_of_pos hwidth, Binary32.abs_of_pos hheight]
    exact if_pos ⟨hwidth, hheight⟩
  rw [get_of_lookup hentries]
  exact (congrArg (Option.bind · sizeOfBox?) hfound).trans hsize

end Folio.Pdf.Document
