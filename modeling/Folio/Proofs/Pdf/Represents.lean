import Folio.Proofs.Pdf.ContentStream
import Folio.Proofs.Pdf.Embedding
import Folio.Proofs.Rendered

/-!
# What an output document represents

An output document `Represents` the pages that were committed to it, whatever else is drawn in the
meantime: its page tree lists them in order, each with the operations that were drawn on it, the
font is embedded for some characters, and nothing is left over. A commit appends a page
(`Represents.commit`), and turning the document into bytes changes nothing but the characters that
the font is embedded for and the form of the streams (`Represents.serialize`).
-/

set_option autoImplicit false

namespace Folio

open Pdf

/-! ## Canvases -/

theorem drawnText_concat (strokes : List Stroke) (stroke : Stroke) :
    drawnText (strokes ++ [stroke]) = drawnText strokes ++ drawnText [stroke] :=
  List.flatMap_append

namespace Pdf.Output

/-- Draws a stroke. -/
def draw (font : Font) : Stroke → Canvas → Canvas
  | .text line => showText font line
  | .lineBreak => newLine

/-- The canvas on which the strokes of a page were drawn. -/
def canvasOf (font : Font) (sheet : Sheet) : Canvas :=
  sheet.strokes.foldl (fun canvas stroke => draw font stroke canvas) (blankCanvas sheet.setup)

section
variable (font : Font) (setup : PageSetup) (strokes : List Stroke) (stroke : Stroke)

@[simp] theorem canvasOf_nil : canvasOf font ⟨setup, []⟩ = blankCanvas setup := rfl

@[simp] theorem canvasOf_concat :
    canvasOf font ⟨setup, strokes ++ [stroke]⟩ =
      draw font stroke (canvasOf font ⟨setup, strokes⟩) := by
  simp [canvasOf, List.foldl_append]

@[simp] theorem size_draw (canvas : Canvas) : (draw font stroke canvas).size = canvas.size := by
  cases stroke <;> rfl

@[simp] theorem drawn_draw (canvas : Canvas) :
    (draw font stroke canvas).drawn = stroke.operation font :: canvas.drawn := by
  cases stroke <;> rfl

theorem mem_used_draw (canvas : Canvas) (c : Char) :
    c ∈ (draw font stroke canvas).used ↔ c ∈ canvas.used ∨ c ∈ drawnText [stroke] := by
  cases stroke with
  | text line => simp [draw, showText, Sorted.mem_addAll, drawnText, or_comm]
  | lineBreak => simp [draw, newLine, drawnText]

end

theorem size_canvasOf (font : Font) (sheet : Sheet) :
    (canvasOf font sheet).size = sheet.setup.size := by
  obtain ⟨setup, strokes⟩ := sheet
  induction strokes using List.reverseRecOn with
  | nil => rfl
  | append_singleton strokes stroke ih => rw [canvasOf_concat, size_draw, ih]

theorem operations_canvasOf (font : Font) (sheet : Sheet) :
    operations (canvasOf font sheet) = sheet.operations font := by
  obtain ⟨setup, strokes⟩ := sheet
  have hdrawn : (canvasOf font ⟨setup, strokes⟩).drawn.reverse =
      opening setup ++ strokes.map (Stroke.operation font) := by
    induction strokes using List.reverseRecOn with
    | nil => simp [blankCanvas]
    | append_singleton strokes stroke ih => simp [ih]
  rw [operations, List.reverse_cons, hdrawn]
  rfl

theorem mem_used_canvasOf (font : Font) (sheet : Sheet) (c : Char) :
    c ∈ (canvasOf font sheet).used ↔ c ∈ drawnText sheet.strokes := by
  obtain ⟨setup, strokes⟩ := sheet
  induction strokes using List.reverseRecOn with
  | nil => simp [blankCanvas, drawnText]
  | append_singleton strokes stroke ih =>
    rw [canvasOf_concat, mem_used_draw, ih, drawnText_concat, List.mem_append]

/-! ## Pages -/

/-- An object is a page below a tree, with the size of a sheet and a content stream that draws
it. -/
structure IsPage (font : Font) (doc : Document) (tree resources page : Nat) (sheet : Sheet) :
    Prop where
  type : doc.valueAt? page "Type" = some (.name "Page")
  parent : doc.valueAt? page "Parent" = some (.reference tree)
  resources : doc.valueAt? page "Resources" = some (.reference resources)
  box : doc.valueAt? page "MediaBox" = some (.array
    [.integer 0, .integer 0, .real sheet.setup.size.width, .real sheet.setup.size.height])
  content : ∃ content, doc.valueAt? page "Contents" = some (.reference content) ∧
    doc.Holds content [] (sheet.stream font)

section
variable {font : Font} {doc later : Document} {tree resources page : Nat} {sheet : Sheet}

@[simp] theorem kind?_treeNode (kids : List Nat) : (treeNode kids).kind? = some "Pages" := rfl

@[simp] theorem kind?_catalogNode : (catalogNode tree).kind? = some "Catalog" := rfl

@[simp] theorem kind?_resourcesNode (number : Nat) : (resourcesNode number).kind? = none := rfl

theorem references_pageNode (tree resources content : Nat) (size : PageSize) :
    (pageNode tree resources content size).references = [tree, content, resources] := by
  simp [pageNode, Object.references, Object.referencesOfEntries, Object.referencesOfItems]

theorem references_treeNode (kids : List Nat) : (treeNode kids).references = kids := by
  have hitems : Object.referencesOfItems (kids.map .reference) = kids := by
    induction kids with
    | nil => rfl
    | cons kid kids ih =>
      rw [List.map_cons, Object.referencesOfItems, ih]
      rfl
  simp [treeNode, Object.references, Object.referencesOfEntries, hitems]

theorem references_catalogNode (tree : Nat) : (catalogNode tree).references = [tree] := by
  simp [catalogNode, Object.references, Object.referencesOfEntries]

theorem references_resourcesNode (fontNumber : Nat) :
    (resourcesNode fontNumber).references = [fontNumber] := by
  simp [resourcesNode, Object.references, Object.referencesOfEntries]

theorem isPage_of_lookup {content : Nat}
    (hpage : doc.objects.lookup page = some (pageNode tree resources content sheet.setup.size))
    (hcontent : doc.objects.lookup content = some (.stream [] (sheet.stream font))) :
    IsPage font doc tree resources page sheet := by
  have hentry {key : String} {value : Object}
      (h : (pageNode tree resources content sheet.setup.size).dictionary?.bind (·.lookup key) =
        some value) : doc.valueAt? page key = some value := by
    rw [Document.valueAt?, hpage]
    exact h
  exact ⟨hentry rfl, hentry rfl, hentry rfl, hentry rfl, content, hentry rfl, .inl hcontent⟩

theorem IsPage.mono (h : IsPage font doc tree resources page sheet)
    (hkept : ∀ n, doc.Reaches [page] n → doc.Keeps later ["Pages", "Font"] n) :
    IsPage font later tree resources page sheet := by
  obtain ⟨content, hcontents, hcontent⟩ := h.content
  obtain ⟨entries, hpage, htype⟩ := Document.valueAt?_eq_some_iff.1 h.type
  have hkind : (Object.dictionary entries).kind? = some "Page" := by
    simp [Object.kind?, Object.dictionary?, htype, Object.name?]
  have hp : doc.Reaches [page] page := .start List.mem_cons_self
  have hc : doc.Reaches [page] content := hp.valueAt? hcontents (by simp [Object.references])
  have hlater : later.objects.lookup page = some (.dictionary entries) :=
    hkept page hp _ hpage (by simp [hkind])
  have hentry (key : String) : later.valueAt? page key = doc.valueAt? page key := by
    rw [Document.valueAt?, hlater, Document.valueAt?, hpage]
  exact ⟨(hentry _).trans h.type, (hentry _).trans h.parent, (hentry _).trans h.resources,
    (hentry _).trans h.box, content, (hentry _).trans hcontents,
    hcontent.of_lookup fun _ _ h => hkept content hc _ h (by simp)⟩

theorem IsPage.compress (h : IsPage font doc tree resources page sheet) {library : Library}
    (hlossless : library.Lossless) :
    IsPage font (doc.compress library.deflate) tree resources page sheet := by
  obtain ⟨content, hcontents, hcontent⟩ := h.content
  have hentry (key : String) :
      (doc.compress library.deflate).valueAt? page key = doc.valueAt? page key :=
    doc.valueAt?_compress _ page key
  exact ⟨(hentry _).trans h.type, (hentry _).trans h.parent, (hentry _).trans h.resources,
    (hentry _).trans h.box, content, (hentry _).trans hcontents,
    hcontent.compress rfl hlossless⟩

/-- What a reader takes for the content of the page. -/
theorem IsPage.pageContent_eq (h : IsPage font doc tree resources page sheet) :
    doc.pageContent page = sheet.stream font := by
  obtain ⟨content, hcontents, hcontent⟩ := h.content
  obtain ⟨entries, hpage, hcontents⟩ := Document.dictionary?_of_valueAt? hcontents
  obtain ⟨entries, bytes, hstream, -, hplain⟩ := hcontent.lookup
  have hstreams : doc.contentStreams Document.referenceLimit (.reference content) = [content] := by
    unfold Document.contentStreams
    simp only [hstream]
  have hget : doc.get content = .ok (.stream entries bytes) := by
    rw [Document.get, hstream]
    rfl
  rw [Document.pageContent, hpage, Option.bind_some, hcontents]
  simp only [hstreams, List.flatMap_cons, List.flatMap_nil, List.append_nil, hget, hplain]

end

/-! ## The invariant -/

/-- The document has the sheets that were committed as its pages, set in the font. -/
structure Shows (font : Font) (sheets : List Sheet) (output : Output) : Prop where
  inFont : output.font = font
  bounded : output.document.Bounded
  root : ∃ catalog, output.document.root = some (.reference catalog) ∧
    output.document.objects.lookup catalog = some (catalogNode output.tree)
  tree : output.document.objects.lookup output.tree = some (treeNode output.kids)
  resources : output.document.objects.lookup output.resources =
    some (resourcesNode output.fontNumber)
  embedded : font.IsEmbedded output.embedded output.document output.fontNumber
  pages : List.Forall₂ (IsPage font output.document output.tree output.resources) output.kids sheets
  distinct : output.kids.Nodup
  used : ∀ c, c ∈ output.used ↔ ∃ sheet ∈ sheets, c ∈ drawnText sheet.strokes

/-- Where references lead from: the trailer, and the resources of pages that are still to come. -/
def anchors (output : Output) : List Nat :=
  output.resources :: output.document.trailer

/-- The document shows the sheets, and has no object that nothing leads to. -/
structure Represents (font : Font) (sheets : List Sheet) (output : Output) : Prop
    extends Shows font sheets output where
  anchored : ∀ n object, output.document.objects.lookup n = some object →
    output.document.Reaches output.anchors n
  /-- Without pages, nothing was drawn that the font could be embedded for. -/
  unembedded : output.kids = [] → output.embedded = []

/-! ### A document without pages -/

section
variable {doc : Document}

theorem reaches_new_helvetica (h : (Output.new .helvetica).document = doc) {n : Nat}
    {object : Object} (hn : doc.objects.lookup n = some object) :
    n ≤ doc.lastNumber ∧ doc.Reaches (3 :: doc.trailer) n := by
  have hnumbers : doc.objects.map Prod.fst = [1, 2, 3, 4] := h ▸ rfl
  have htrailer : doc.trailer = [4] := h ▸ rfl
  have hlast : doc.lastNumber = 4 := h ▸ rfl
  have atResources : doc.objects.lookup 3 = some (resourcesNode 2) := h ▸ rfl
  have atCatalog : doc.objects.lookup 4 = some (catalogNode 1) := h ▸ rfl
  rw [htrailer, hlast]
  have hresources : doc.Reaches [3, 4] 3 := .start (by simp)
  have hfont : doc.Reaches [3, 4] 2 :=
    .step hresources atResources (by simp [references_resourcesNode])
  have hcatalog : doc.Reaches [3, 4] 4 := .start (by simp)
  have htree : doc.Reaches [3, 4] 1 := .step hcatalog atCatalog (by simp [references_catalogNode])
  have hmem : n ∈ [1, 2, 3, 4] := hnumbers ▸ Document.mem_numbers_iff.2 ⟨object, hn⟩
  simp only [List.mem_cons, List.not_mem_nil, or_false] at hmem
  refine ⟨by omega, ?_⟩
  rcases hmem with rfl | rfl | rfl | rfl
  · exact htree
  · exact hfont
  · exact hresources
  · exact hcatalog

theorem reaches_new_trueType {font : TrueType} (h : (Output.new (.trueType font)).document = doc)
    {n : Nat} {object : Object} (hn : doc.objects.lookup n = some object) :
    n ≤ doc.lastNumber ∧ doc.Reaches (7 :: doc.trailer) n := by
  have hnumbers : doc.objects.map Prod.fst = [1, 2, 3, 4, 5, 6, 7, 8] := h ▸ rfl
  have htrailer : doc.trailer = [8] := h ▸ rfl
  have hlast : doc.lastNumber = 8 := h ▸ rfl
  have atDescriptor : doc.objects.lookup 3 = some (font.descriptor 2) := h ▸ rfl
  have atGlyphs : doc.objects.lookup 4 = some (font.glyphFont [] 3) := h ▸ rfl
  have atFont : doc.objects.lookup 6 = some (.dictionary (font.dictionary 4 5)) := h ▸ rfl
  have atResources : doc.objects.lookup 7 = some (resourcesNode 6) := h ▸ rfl
  have atCatalog : doc.objects.lookup 8 = some (catalogNode 1) := h ▸ rfl
  rw [htrailer, hlast]
  have hresources : doc.Reaches [7, 8] 7 := .start (by simp)
  have hfont : doc.Reaches [7, 8] 6 :=
    .step hresources atResources (by simp [references_resourcesNode])
  have hglyphs : doc.Reaches [7, 8] 4 :=
    .step hfont atFont (by simp [TrueType.references_dictionary])
  have hunicode : doc.Reaches [7, 8] 5 :=
    .step hfont atFont (by simp [TrueType.references_dictionary])
  have hdescriptor : doc.Reaches [7, 8] 3 :=
    .step hglyphs atGlyphs (font.mem_references_glyphFont _ _)
  have hfile : doc.Reaches [7, 8] 2 :=
    .step hdescriptor atDescriptor (font.mem_references_descriptor _)
  have hcatalog : doc.Reaches [7, 8] 8 := .start (by simp)
  have htree : doc.Reaches [7, 8] 1 := .step hcatalog atCatalog (by simp [references_catalogNode])
  have hmem : n ∈ [1, 2, 3, 4, 5, 6, 7, 8] := hnumbers ▸ Document.mem_numbers_iff.2 ⟨object, hn⟩
  simp only [List.mem_cons, List.not_mem_nil, or_false] at hmem
  refine ⟨by omega, ?_⟩
  rcases hmem with rfl | rfl | rfl | rfl | rfl | rfl | rfl | rfl
  · exact htree
  · exact hfile
  · exact hdescriptor
  · exact hglyphs
  · exact hunicode
  · exact hfont
  · exact hresources
  · exact hcatalog

end

theorem represents_new (font : Font) : Represents font [] (Output.new font) := by
  cases font with
  | helvetica =>
    exact {
      inFont := rfl
      bounded := fun n object hn => (reaches_new_helvetica rfl hn).1
      root := ⟨4, rfl, rfl⟩
      tree := rfl
      resources := rfl
      embedded := rfl
      pages := .nil
      distinct := List.nodup_nil
      used := by simp [Output.new]
      anchored := fun n object hn => (reaches_new_helvetica rfl hn).2
      unembedded := fun _ => rfl }
  | trueType font =>
    exact {
      inFont := rfl
      bounded := fun n object hn => (reaches_new_trueType rfl hn).1
      root := ⟨8, rfl, rfl⟩
      tree := rfl
      resources := rfl
      embedded := ⟨2, 3, 4, 5, rfl, rfl, .inl rfl, rfl, .inl rfl⟩
      pages := .nil
      distinct := List.nodup_nil
      used := by simp [Output.new]
      anchored := fun n object hn => (reaches_new_trueType rfl hn).2
      unembedded := fun _ => rfl }

/-! ### Committing a page -/

theorem lookup_commit (output : Output) (canvas : Canvas) (n : Nat) :
    (output.commit canvas).document.objects.lookup n =
      if n = output.tree then some (treeNode (output.kids ++ [output.document.lastNumber + 2]))
      else if n = output.document.lastNumber + 2 then
        some (pageNode output.tree output.resources (output.document.lastNumber + 1) canvas.size)
      else if n = output.document.lastNumber + 1 then
        some (.stream [] (contentText (operations canvas)))
      else output.document.objects.lookup n := by
  simp only [commit, Document.add, Document.reserve, Document.lookup_set, Document.lastNumber_set]

section
variable {output : Output} (canvas : Canvas)

/-- Of what was there, only the page tree changes. -/
theorem lookup_commit_of_ne {n : Nat} (hne : n ≠ output.tree)
    (hle : n ≤ output.document.lastNumber) :
    (output.commit canvas).document.objects.lookup n = output.document.objects.lookup n := by
  rw [lookup_commit, if_neg hne, if_neg (by omega), if_neg (by omega)]

variable (htree : output.tree ≤ output.document.lastNumber)

include htree

theorem lookup_commit_page :
    (output.commit canvas).document.objects.lookup (output.document.lastNumber + 2) =
      some (pageNode output.tree output.resources (output.document.lastNumber + 1)
        canvas.size) := by
  rw [lookup_commit, if_neg (by omega), if_pos rfl]

theorem lookup_commit_content :
    (output.commit canvas).document.objects.lookup (output.document.lastNumber + 1) =
      some (.stream [] (contentText (operations canvas))) := by
  rw [lookup_commit, if_neg (by omega), if_neg (by omega), if_pos rfl]

end

section
variable {font : Font} {sheets : List Sheet} {output : Output}

theorem Shows.page_of_mem (h : Shows font sheets output) {kid : Nat} (hkid : kid ∈ output.kids) :
    ∃ sheet ∈ sheets, IsPage font output.document output.tree output.resources kid sheet := by
  obtain ⟨i, hi, rfl⟩ := List.getElem_of_mem hkid
  have hlength : output.kids.length = sheets.length := h.pages.length_eq
  exact ⟨sheets[i], List.getElem_mem _, h.pages.get hi (hlength ▸ hi)⟩

theorem Shows.tree_le (h : Shows font sheets output) :
    output.tree ≤ output.document.lastNumber :=
  h.bounded _ _ h.tree

theorem Shows.fontNumber_le (h : Shows font sheets output) :
    output.fontNumber ≤ output.document.lastNumber := by
  obtain ⟨object, hobject, -⟩ := h.embedded.kind?
  exact h.bounded _ _ hobject

theorem Shows.tree_reached (h : Shows font sheets output) :
    output.document.Reaches output.document.trailer output.tree := by
  obtain ⟨catalog, hroot, hcatalog⟩ := h.root
  have hc : output.document.Reaches output.document.trailer catalog :=
    .start (by simp [Document.trailer, hroot, Object.references])
  exact .step hc hcatalog (by simp [references_catalogNode])

theorem Shows.kid_reached (h : Shows font sheets output) {kid : Nat} (hkid : kid ∈ output.kids) :
    output.document.Reaches output.document.trailer kid :=
  .step h.tree_reached h.tree (by rwa [references_treeNode])

/-- The resources are reached from any page. -/
theorem Shows.resources_reached (h : Shows font sheets output) (hkids : output.kids ≠ []) :
    output.document.Reaches output.document.trailer output.resources := by
  obtain ⟨kid, hkid⟩ := List.exists_mem_of_ne_nil _ hkids
  obtain ⟨sheet, -, hpage⟩ := h.page_of_mem hkid
  exact (h.kid_reached hkid).valueAt? hpage.resources (by simp [Object.references])

theorem reaches_anchors {n : Nat} (hn : output.document.Reaches output.document.trailer n) :
    output.document.Reaches output.anchors n :=
  hn.trans fun _ hm => .start (List.mem_cons_of_mem _ hm)

/-- Once there is a page, the trailer leads as far as all anchors do. -/
theorem Shows.reaches_trailer (h : Shows font sheets output) (hkids : output.kids ≠ []) {n : Nat}
    (hn : output.document.Reaches output.anchors n) :
    output.document.Reaches output.document.trailer n := by
  refine hn.trans fun m hm => ?_
  rcases List.mem_cons.1 hm with rfl | hm
  · exact h.resources_reached hkids
  · exact .start hm

theorem Shows.isFlat (h : Shows font sheets output) :
    ∃ catalog, output.document.IsFlat catalog output.tree output.kids := by
  obtain ⟨catalog, hroot, hcatalog⟩ := h.root
  have hentry {key : String} {value : Object}
      (hvalue : (catalogNode output.tree).dictionary?.bind (·.lookup key) = some value) :
      output.document.valueAt? catalog key = some value := by
    rw [Document.valueAt?, hcatalog]
    exact hvalue
  have hbranch {key : String} {value : Object}
      (hvalue : (treeNode output.kids).dictionary?.bind (·.lookup key) = some value) :
      output.document.valueAt? output.tree key = some value := by
    rw [Document.valueAt?, h.tree]
    exact hvalue
  refine ⟨catalog, hroot, ⟨hentry rfl, hentry rfl⟩, ⟨hbranch rfl, hbranch rfl, hbranch rfl⟩, ?_,
    h.distinct⟩
  intro kid hkid
  obtain ⟨sheet, -, hpage⟩ := h.page_of_mem hkid
  exact ⟨hpage.type, hpage.parent⟩

/-- The pages that a reader finds. -/
theorem Shows.pages_eq (h : Shows font sheets output) : output.document.pages = output.kids := by
  obtain ⟨catalog, hflat⟩ := h.isFlat
  exact hflat.pages_eq

/-- A page is appended. -/
theorem Shows.commit (h : Shows font sheets output) (sheet : Sheet) :
    Shows font (sheets ++ [sheet]) (output.commit (canvasOf font sheet)) := by
  have hkept : ∀ n,
      output.document.Keeps (output.commit (canvasOf font sheet)).document ["Pages"] n := by
    intro n object hn hkind
    have hne : n ≠ output.tree := by
      rintro rfl
      cases hn.symm.trans h.tree
      simp at hkind
    rw [lookup_commit_of_ne _ hne (h.bounded n object hn)]
    exact hn
  obtain ⟨catalog, hroot, hcatalog⟩ := h.root
  constructor
  case inFont => exact h.inFont
  case bounded =>
    have htree : output.tree ≤ output.document.lastNumber + 2 := Nat.le_add_right_of_le h.tree_le
    exact ((h.bounded.add _).add _).set htree _
  case root => exact ⟨catalog, hroot, hkept catalog _ hcatalog (by simp)⟩
  case tree =>
    rw [lookup_commit]
    exact if_pos rfl
  case resources => exact hkept _ _ h.resources (by simp)
  case embedded => exact h.embedded.mono fun n _ => hkept n
  case pages =>
    have hnew : IsPage font (output.commit (canvasOf font sheet)).document output.tree
        output.resources (output.document.lastNumber + 2) sheet := by
      have hcontent := lookup_commit_content (canvasOf font sheet) h.tree_le
      rw [operations_canvasOf, Sheet.contentText_operations] at hcontent
      refine isPage_of_lookup ?_ hcontent
      rw [lookup_commit_page _ h.tree_le, size_canvasOf]
    have hold := h.pages.imp fun kid sheet hpage =>
      hpage.mono fun n _ => (hkept n).mono (by simp)
    exact List.rel_append hold (.cons hnew .nil)
  case distinct =>
    have hfresh : output.document.lastNumber + 2 ∉ output.kids := by
      intro hmem
      obtain ⟨other, -, hpage⟩ := h.page_of_mem hmem
      obtain ⟨entries, hentries, -⟩ := Document.valueAt?_eq_some_iff.1 hpage.type
      have hle := h.bounded _ _ hentries
      omega
    exact List.nodup_append.2 ⟨h.distinct, List.nodup_singleton _, fun kid hkid new hnew heq =>
      hfresh (List.mem_singleton.1 hnew ▸ heq ▸ hkid)⟩
  case used =>
    intro c
    show c ∈ Sorted.addAll (canvasOf font sheet).used output.used ↔ _
    rw [Sorted.mem_addAll, mem_used_canvasOf, h.used]
    simp only [List.mem_append, List.mem_singleton, or_and_right, exists_or, exists_eq_left]
    exact or_comm

/-- A page is appended, and its objects are all that is new. -/
theorem Represents.commit (h : Represents font sheets output) (sheet : Sheet) :
    Represents font (sheets ++ [sheet]) (output.commit (canvasOf font sheet)) := by
  have hshows := h.toShows.commit sheet
  refine ⟨hshows, ?_, fun hnil => absurd hnil (List.append_ne_nil_of_right_ne_nil _ (by simp))⟩
  -- the root of the page tree refers to all that it referred to, and other objects are as before
  have hold : ∀ n, output.document.Reaches output.anchors n →
      (output.commit (canvasOf font sheet)).document.Reaches output.anchors n := by
    intro n hn
    refine hn.mono fun m object hm => ?_
    by_cases hne : m = output.tree
    · subst hne
      cases hm.symm.trans h.tree
      refine ⟨_, hshows.tree, ?_⟩
      rw [references_treeNode, references_treeNode]
      exact List.subset_append_left _ _
    · refine ⟨object, ?_, List.Subset.refl _⟩
      rw [lookup_commit_of_ne _ hne (h.bounded m object hm)]
      exact hm
  have htree := hold _ (h.anchored _ _ h.tree)
  have hpage : (output.commit (canvasOf font sheet)).document.Reaches output.anchors
      (output.document.lastNumber + 2) :=
    .step htree hshows.tree (by simp [references_treeNode, Output.commit, Document.add,
      Document.reserve])
  have hcontent : (output.commit (canvasOf font sheet)).document.Reaches output.anchors
      (output.document.lastNumber + 1) :=
    .step hpage (lookup_commit_page _ h.tree_le) (by simp [references_pageNode])
  intro n object hn
  rw [lookup_commit] at hn
  by_cases isTree : n = output.tree
  · exact isTree ▸ htree
  · by_cases isPage : n = output.document.lastNumber + 2
    · exact isPage ▸ hpage
    · by_cases isContent : n = output.document.lastNumber + 1
      · exact isContent ▸ hcontent
      · rw [if_neg isTree, if_neg isPage, if_neg isContent] at hn
        exact hold n (h.anchored n object hn)

/-! ### Embedding the font -/

/-- Objects may come and go and the font may be embedded anew, as long as what the anchors lead to
is kept. -/
theorem Shows.mono (h : Shows font sheets output) {later : Document} {embedded : List Char}
    (hbounded : later.Bounded) (hroot : later.root = output.document.root)
    (hkept : ∀ n, output.document.Reaches output.anchors n →
      output.document.Keeps later ["Font"] n)
    (hfont : font.IsEmbedded embedded later output.fontNumber) :
    Shows font sheets { output with document := later, embedded } := by
  obtain ⟨catalog, hr, hcatalog⟩ := h.root
  have hc : output.document.Reaches output.document.trailer catalog :=
    .start (by simp [Document.trailer, hr, Object.references])
  have hresources : output.document.Reaches output.anchors output.resources :=
    .start List.mem_cons_self
  constructor
  case inFont => exact h.inFont
  case bounded => exact hbounded
  case root => exact ⟨catalog, hroot.trans hr, hkept _ (reaches_anchors hc) _ hcatalog (by simp)⟩
  case tree => exact hkept _ (reaches_anchors h.tree_reached) _ h.tree (by simp)
  case resources => exact hkept _ hresources _ h.resources (by simp)
  case embedded => exact hfont
  case pages =>
    have hpages := (List.forall₂_and_left _ _).2 ⟨fun kid hkid => h.kid_reached hkid, h.pages⟩
    refine hpages.imp fun kid sheet hpage => hpage.2.mono fun n hn => ?_
    exact (hkept n (reaches_anchors (hn.after hpage.1))).mono (by simp)
  case distinct => exact h.distinct
  case used => exact h.used

/-- The font is embedded for other characters, and its old objects are still there. -/
theorem Shows.embed (h : Shows font sheets output) (used : List Char) :
    Shows font sheets { output with
      document := (font.embed used output.document).2.set output.fontNumber
        (.dictionary (font.embed used output.document).1)
      embedded := used } := by
  obtain ⟨hroot, hbounded, hlast, hkept⟩ := font.embed_keeps used h.bounded
  refine h.mono (hbounded.set (Nat.le_trans h.fontNumber_le hlast) _) hroot ?_
    (Font.isEmbedded_embed h.fontNumber_le)
  intro n _ object hn hkind
  have hne : n ≠ output.fontNumber := by
    rintro rfl
    obtain ⟨old, hold, hfont⟩ := h.embedded.kind?
    cases hn.symm.trans hold
    exact hkind "Font" List.mem_cons_self hfont
  rw [Document.lookup_set, if_neg hne]
  exact hkept n object hn

/-- What nothing leads to any more is dropped. -/
theorem Shows.prune (h : Shows font sheets output) (hkids : output.kids ≠ []) :
    Represents font sheets { output with document := output.document.prune } := by
  have hkept (kinds : List String) {n : Nat} (hn : output.document.Reaches output.anchors n) :
      output.document.Keeps output.document.prune kinds n := by
    intro object hobject _
    rw [Document.lookup_prune (h.reaches_trailer hkids hn)]
    exact hobject
  have hfont : output.document.Reaches output.anchors output.fontNumber :=
    .step (.start List.mem_cons_self) h.resources (by simp [references_resourcesNode])
  have hshows := h.mono h.bounded.prune Document.root_prune (fun n hn => hkept _ hn)
    (h.embedded.mono fun n hn => hkept _ (hn.after hfont))
  exact ⟨hshows, fun n object hn => reaches_anchors (Document.prune_reaches hn),
    fun hnil => absurd hnil hkids⟩

/-- After the font was embedded, it is embedded for what was drawn. -/
theorem Represents.embedFont (h : Represents font sheets output) :
    Represents font sheets output.embedFont.1 ∧
      output.embedFont.1.embedded = output.embedFont.1.used := by
  unfold Output.embedFont
  by_cases hused : output.used = output.embedded
  · rw [if_pos hused]
    exact ⟨h, hused.symm⟩
  · have hkids : output.kids ≠ [] := by
      intro hnil
      have hsheets : sheets = [] := List.forall₂_nil_left_iff.1 (hnil ▸ h.pages)
      have hnone : output.used = [] := List.eq_nil_iff_forall_not_mem.2 fun c hc => by
        simpa [hsheets] using (h.used c).1 hc
      exact hused (hnone.trans (h.unembedded hnil).symm)
    rw [if_neg hused]
    obtain rfl := h.inFont
    exact ⟨(h.toShows.embed output.used).prune hkids, rfl⟩

/-- The form of the streams does not matter. -/
theorem Represents.compress (h : Represents font sheets output) {library : Library}
    (hlossless : library.Lossless) :
    Represents font sheets
      { output with document := output.document.compress library.deflate } := by
  obtain ⟨catalog, hroot, hcatalog⟩ := h.root
  refine ⟨{
    inFont := h.inFont
    bounded := h.bounded.compress _
    root := ⟨catalog, hroot, Document.lookup_compress_dictionary _ _ _ hcatalog⟩
    tree := Document.lookup_compress_dictionary _ _ _ h.tree
    resources := Document.lookup_compress_dictionary _ _ _ h.resources
    embedded := h.embedded.compress hlossless
    pages := h.pages.imp fun kid sheet hpage => hpage.compress hlossless
    distinct := h.distinct
    used := h.used }, ?_, h.unembedded⟩
  intro n object hn
  rw [Document.lookup_compress] at hn
  obtain ⟨kept, hkept, -⟩ := Option.map_eq_some_iff.1 hn
  exact (Document.reaches_compress_iff _ _ _ _).2 (h.anchored n kept hkept)

/-- The table of a file takes a number. -/
theorem Represents.reserve (h : Represents font sheets output) :
    Represents font sheets { output with document := output.document.reserve.2 } := by
  have hshows := h.toShows.mono h.bounded.reserve rfl (fun _ _ _ hn _ => hn)
    (h.embedded.mono fun _ _ _ hn _ => hn)
  refine ⟨hshows, ?_, h.unembedded⟩
  intro n object hn
  exact (h.anchored n object hn).mono fun _ object hm => ⟨object, hm, List.Subset.refl _⟩

/-- Whatever form the streams take, the page tree stays the same. -/
theorem Represents.isFlat_serialize (h : Represents font sheets output) (library : Library) :
    ∃ catalog tree kids, (output.serialize library).output.document.IsFlat catalog tree kids ∧
      kids.length = sheets.length := by
  obtain ⟨h, -⟩ := h.embedFont
  obtain ⟨catalog, hflat⟩ := h.isFlat
  exact ⟨catalog, _, _, hflat.congr rfl fun _ _ => Document.valueAt?_compress _ _ _ _,
    h.pages.length_eq⟩

/-- Turning the document into bytes embeds the font for what was drawn. -/
theorem Represents.serialize (h : Represents font sheets output) {library : Library}
    (hlossless : library.Lossless) :
    Represents font sheets (output.serialize library).output ∧
      (output.serialize library).output.embedded = (output.serialize library).output.used := by
  obtain ⟨h, hused⟩ := h.embedFont
  exact ⟨(h.compress hlossless).reserve, hused⟩

end

end Pdf.Output

end Folio
