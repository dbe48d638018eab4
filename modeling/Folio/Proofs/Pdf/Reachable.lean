import Folio.Pdf.Document
import Folio.Pdf.Filter
import Folio.Proofs.Sorted
import Mathlib.Data.List.TakeWhile

/-!
# Objects that can be reached

`Document.valueAt?` and `Document.plainAt?` say what a document holds under a number: an entry of a
dictionary, and the content of a stream behind its filters. `Document.Reaches` follows references
from a start, one object after the other. What the trailer leads to in this sense is what
`Document.reachable` finds (`mem_reachable_iff`), so that pruning keeps every object that is reached,
under its number (`lookup_prune`), and no other (`prune_reaches`).
-/

set_option autoImplicit false

namespace Folio.Pdf

namespace Document

/-! ## Looking up -/

theorem mem_numbers_iff {doc : Document} {n : Nat} :
    n ∈ doc.objects.map Prod.fst ↔ ∃ object, doc.objects.lookup n = some object := by
  rw [← Option.isSome_iff_exists, List.lookup_isSome_iff, List.mem_map]
  constructor
  · rintro ⟨entry, hentry, rfl⟩
    exact ⟨entry, hentry, beq_self_eq_true _⟩
  · rintro ⟨entry, hentry, h⟩
    exact ⟨entry, hentry, (beq_iff_eq.1 h).symm⟩

@[simp] theorem lastNumber_set (doc : Document) (number : Nat) (object : Object) :
    (doc.set number object).lastNumber = doc.lastNumber := rfl

theorem lookup_set (doc : Document) (number : Nat) (object : Object) (n : Nat) :
    (doc.set number object).objects.lookup n =
      if n = number then some object else doc.objects.lookup n :=
  Sorted.lookup_insert number object doc.objects n

/-- The value of a key in the dictionary that stands under a number. -/
def valueAt? (doc : Document) (number : Nat) (key : String) : Option Object :=
  ((doc.objects.lookup number).bind Object.dictionary?).bind (·.lookup key)

/-- What the stream under a number holds behind its filters. -/
def plainAt? (doc : Document) (number : Nat) : Option Bytes :=
  match doc.objects.lookup number with
  | some (.stream entries content) => plainContent? entries content
  | _ => none

theorem valueAt?_eq_some_iff {doc : Document} {n : Nat} {key : String} {value : Object} :
    doc.valueAt? n key = some value ↔ ∃ entries,
      doc.objects.lookup n = some (.dictionary entries) ∧ entries.lookup key = some value := by
  constructor
  · intro h
    obtain ⟨entries, hentries, hvalue⟩ := Option.bind_eq_some_iff.1 h
    obtain ⟨object, hobject, hdict⟩ := Option.bind_eq_some_iff.1 hentries
    cases object with
    | dictionary found =>
      cases hdict
      exact ⟨entries, hobject, hvalue⟩
    | _ => cases hdict
  · rintro ⟨entries, hentries, hvalue⟩
    rw [valueAt?, hentries]
    exact hvalue

theorem plainAt?_eq_some_iff {doc : Document} {n : Nat} {plain : Bytes} :
    doc.plainAt? n = some plain ↔ ∃ entries content,
      doc.objects.lookup n = some (.stream entries content) ∧
      plainContent? entries content = some plain := by
  unfold plainAt?
  constructor
  · intro h
    split at h
    · rename_i entries content hobject
      exact ⟨entries, content, hobject, h⟩
    · cases h
  · rintro ⟨entries, content, hobject, hplain⟩
    rw [hobject]
    exact hplain

/-- No number above the last one that was given out is in use. -/
def Bounded (doc : Document) : Prop :=
  ∀ n object, doc.objects.lookup n = some object → n ≤ doc.lastNumber

theorem Bounded.set {doc : Document} (h : doc.Bounded) {number : Nat}
    (hn : number ≤ doc.lastNumber) (object : Object) : (doc.set number object).Bounded := by
  intro n found hfound
  rw [lookup_set] at hfound
  split at hfound
  · rename_i heq
    exact heq ▸ hn
  · exact h n found hfound

theorem Bounded.reserve {doc : Document} (h : doc.Bounded) : doc.reserve.2.Bounded := by
  intro n object hfound
  exact Nat.le_succ_of_le (h n object hfound)

theorem Bounded.add {doc : Document} (h : doc.Bounded) (object : Object) :
    (doc.add object).2.Bounded :=
  h.reserve.set (Nat.le_refl _) object

/-! ## Following references -/

/-- The numbers that references lead to from a start. -/
inductive Reaches (doc : Document) (start : List Nat) : Nat → Prop
  | start {n : Nat} (h : n ∈ start) : Reaches doc start n
  | step {m n : Nat} {object : Object} (h : Reaches doc start m)
      (found : doc.objects.lookup m = some object) (refers : n ∈ object.references) :
      Reaches doc start n

theorem mem_references_of_lookup {entries : Dictionary} {key : String} {value : Object}
    (h : entries.lookup key = some value) {n : Nat} (hn : n ∈ value.references) :
    n ∈ Object.referencesOfEntries entries := by
  induction entries with
  | nil => cases h
  | cons entry entries ih =>
    obtain ⟨k, v⟩ := entry
    rw [Object.referencesOfEntries, List.mem_append]
    rw [Sorted.lookup_cons_ite] at h
    split at h
    · cases h
      exact .inl hn
    · exact .inr (ih h)

/-- A dictionary leads to the objects that its entries refer to. -/
theorem Reaches.valueAt? {doc : Document} {start : List Nat} {m n : Nat} {key : String}
    {value : Object}
    (h : doc.Reaches start m) (hentry : doc.valueAt? m key = some value) (hn : n ∈ value.references) :
    doc.Reaches start n := by
  obtain ⟨entries, hentries, hvalue⟩ := valueAt?_eq_some_iff.1 hentry
  refine .step h hentries ?_
  rw [Object.references]
  exact mem_references_of_lookup hvalue hn

/-- The numbers that the trailer refers to. -/
def trailer (doc : Document) : List Nat :=
  (doc.root.map Object.references).getD []

section
variable {doc later : Document} {start : List Nat} {n : Nat}

/-- Where objects keep their references, they lead as far. -/
theorem Reaches.mono (h : doc.Reaches start n)
    (hkept : ∀ m object, doc.objects.lookup m = some object →
      ∃ kept, later.objects.lookup m = some kept ∧ object.references ⊆ kept.references) :
    later.Reaches start n := by
  induction h with
  | start h => exact .start h
  | step _ found refers ih =>
    obtain ⟨kept, hlater, hsub⟩ := hkept _ _ found
    exact .step ih hlater (hsub refers)

/-- What is reached from several numbers is reached from one of them. -/
theorem Reaches.cons {m : Nat} (h : doc.Reaches (m :: start) n) :
    doc.Reaches [m] n ∨ doc.Reaches start n := by
  induction h with
  | start h =>
    rcases List.mem_cons.1 h with rfl | h
    · exact .inl (.start List.mem_cons_self)
    · exact .inr (.start h)
  | step _ found refers ih =>
    exact ih.imp (fun h => .step h found refers) fun h => .step h found refers

/-- What is reached from numbers that are reached is reached. -/
theorem Reaches.trans {middle : List Nat} (h : doc.Reaches middle n)
    (hm : ∀ m ∈ middle, doc.Reaches start m) : doc.Reaches start n := by
  induction h with
  | start h => exact hm _ h
  | step _ found refers ih => exact .step ih found refers

theorem Reaches.after {m : Nat} (h : doc.Reaches [m] n) (hm : doc.Reaches start m) :
    doc.Reaches start n := by
  refine h.trans fun k hk => ?_
  rw [List.mem_singleton.1 hk]
  exact hm

end

/-! ## What is found -/

section
variable {doc : Document} {remaining pending : List Nat}

theorem mem_dropWhile {n : Nat} (hn : n ∈ pending) (hr : n ∈ remaining) :
    n ∈ pending.dropWhile (· ∉ remaining) := by
  rw [← List.takeWhile_append_dropWhile (p := (· ∉ remaining)) (l := pending)] at hn
  refine (List.mem_append.1 hn).resolve_left fun htaken => ?_
  have hnot := List.mem_takeWhile_imp htaken
  simp [hr] at hnot

theorem mem_remaining_of_dropWhile {number : Nat} {rest : List Nat}
    (h : pending.dropWhile (· ∉ remaining) = number :: rest) : number ∈ remaining := by
  have hhead := List.head?_dropWhile_not (· ∉ remaining) pending
  rw [h] at hhead
  simpa using hhead

theorem mem_pending_of_dropWhile {number : Nat} {rest : List Nat}
    (h : pending.dropWhile (· ∉ remaining) = number :: rest) {n : Nat} (hn : n ∈ number :: rest) :
    n ∈ pending :=
  List.dropWhile_subset _ (h ▸ hn)

theorem mem_remaining_of_mem_reach {fuel n : Nat} (h : n ∈ doc.reach fuel remaining pending) :
    n ∈ remaining := by
  fun_induction reach doc fuel remaining pending with
  | case1 => cases h
  | case2 => cases h
  | case3 fuel remaining pending number rest hnext next ih =>
    rcases List.mem_cons.1 h with rfl | h
    · exact mem_remaining_of_dropWhile hnext
    · exact List.mem_of_mem_erase (ih h)

/-- The walk takes every pending number that remains, and with each number it takes those that the
object refers to. -/
theorem reach_closed (doc : Document) {fuel : Nat} {remaining : List Nat}
    (hfuel : remaining.length ≤ fuel) (pending : List Nat) :
    (∀ n ∈ pending, n ∈ remaining → n ∈ doc.reach fuel remaining pending) ∧
      ∀ m ∈ doc.reach fuel remaining pending, ∀ object, doc.objects.lookup m = some object →
        ∀ n ∈ object.references, n ∈ remaining → n ∈ doc.reach fuel remaining pending := by
  fun_induction reach doc fuel remaining pending with
  | case1 remaining pending =>
    -- the fuel runs out only where nothing remains
    obtain rfl : remaining = [] := List.length_eq_zero_iff.1 (Nat.le_zero.1 hfuel)
    simp
  | case2 fuel remaining pending hnext =>
    refine ⟨fun n hn hr => ?_, by simp⟩
    have hmem := mem_dropWhile hn hr
    rw [hnext] at hmem
    exact hmem
  | case3 fuel remaining pending number rest hnext next ih =>
    have hnumber := mem_remaining_of_dropWhile hnext
    have hlength : (remaining.erase number).length ≤ fuel := by
      rw [List.length_erase_of_mem hnumber]
      omega
    obtain ⟨hpending, hreferences⟩ := ih hlength
    have herase {n : Nat} (hne : n ≠ number) (hr : n ∈ remaining) : n ∈ remaining.erase number :=
      (List.mem_erase_of_ne hne).2 hr
    constructor
    · intro n hn hr
      by_cases heq : n = number
      · exact heq ▸ List.mem_cons_self
      · have hmem := mem_dropWhile hn hr
        rw [hnext] at hmem
        have hrest : n ∈ rest := (List.mem_cons.1 hmem).resolve_left heq
        exact List.mem_cons_of_mem _
          (hpending n (List.mem_append_right _ hrest) (herase heq hr))
    · intro m hm object hfound n hn hr
      by_cases heq : n = number
      · exact heq ▸ List.mem_cons_self
      · rcases List.mem_cons.1 hm with rfl | hm
        · have hin : n ∈ next := by simpa [next, hfound] using hn
          exact List.mem_cons_of_mem _
            (hpending n (List.mem_append_left _ hin) (herase heq hr))
        · exact List.mem_cons_of_mem _ (hreferences m hm object hfound n hn (herase heq hr))

theorem reaches_of_mem_reach {start : List Nat} (hp : ∀ n ∈ pending, doc.Reaches start n)
    {fuel n : Nat} (h : n ∈ doc.reach fuel remaining pending) : doc.Reaches start n := by
  fun_induction reach doc fuel remaining pending with
  | case1 => cases h
  | case2 => cases h
  | case3 fuel remaining pending number rest hnext next ih =>
    have hmem {n : Nat} (hn : n ∈ number :: rest) : n ∈ pending :=
      mem_pending_of_dropWhile hnext hn
    have hnumber : doc.Reaches start number := hp number (hmem List.mem_cons_self)
    rcases List.mem_cons.1 h with rfl | h
    · exact hnumber
    · refine ih (fun n hn => ?_) h
      rcases List.mem_append.1 hn with hn | hn
      · cases hfound : doc.objects.lookup number with
        | none => simp [next, hfound] at hn
        | some object => exact .step hnumber hfound (by simpa [next, hfound] using hn)
      · exact hp n (hmem (List.mem_cons_of_mem _ hn))

end

theorem mem_reachable_iff {doc : Document} {n : Nat} :
    n ∈ doc.reachable ↔ n ∈ doc.objects.map Prod.fst ∧ doc.Reaches doc.trailer n := by
  have hfuel : (doc.objects.map Prod.fst).length ≤ doc.objects.length := by
    rw [List.length_map]
  obtain ⟨hpending, hreferences⟩ := reach_closed doc hfuel doc.trailer
  constructor
  · intro h
    exact ⟨mem_remaining_of_mem_reach h, reaches_of_mem_reach (fun _ hn => .start hn) h⟩
  · rintro ⟨hn, h⟩
    induction h with
    | start h => exact hpending _ h hn
    | step _ found refers ih =>
      exact hreferences _ (ih (mem_numbers_iff.2 ⟨_, found⟩)) _ found _ refers hn

/-! ## Pruning -/

theorem lookup_filter_number (objects : List (Nat × Object)) (kept : Nat → Bool) (n : Nat) :
    (objects.filter fun entry => kept entry.1).lookup n =
      if kept n then objects.lookup n else none := by
  induction objects with
  | nil => simp
  | cons entry objects ih =>
    obtain ⟨m, object⟩ := entry
    by_cases heq : n = m
    · subst heq
      by_cases hk : kept n
      · simp [hk]
      · simp [hk, ih]
    · by_cases hk : kept m
      · simp [hk, Sorted.lookup_cons_ite, heq, ih]
      · simp [hk, Sorted.lookup_cons_ite, heq, ih]

section
variable {doc : Document} {n : Nat}

@[simp] theorem root_prune : doc.prune.root = doc.root := rfl

theorem lookup_of_lookup_prune {object : Object} (h : doc.prune.objects.lookup n = some object) :
    doc.objects.lookup n = some object := by
  have hfilter := lookup_filter_number doc.objects doc.reachable.contains n
  rw [← h]
  unfold prune at h ⊢
  rw [hfilter] at h ⊢
  split
  · rfl
  · rename_i hk
    rw [if_neg hk] at h
    cases h

/-- Objects that are reached are kept. -/
theorem lookup_prune (h : doc.Reaches doc.trailer n) :
    doc.prune.objects.lookup n = doc.objects.lookup n := by
  have hfilter := lookup_filter_number doc.objects doc.reachable.contains n
  unfold prune
  rw [hfilter]
  cases hfound : doc.objects.lookup n with
  | none => simp
  | some object =>
    have hmem : n ∈ doc.reachable := mem_reachable_iff.2 ⟨mem_numbers_iff.2 ⟨object, hfound⟩, h⟩
    simp [hmem]

theorem Bounded.prune (h : doc.Bounded) : doc.prune.Bounded := by
  intro n object hfound
  exact h n object (lookup_of_lookup_prune hfound)

/-- Everything that is left is reached. -/
theorem prune_reaches {object : Object} (h : doc.prune.objects.lookup n = some object) :
    doc.prune.Reaches doc.prune.trailer n := by
  have hfilter := lookup_filter_number doc.objects doc.reachable.contains n
  have hmem : n ∈ doc.reachable := by
    unfold Document.prune at h
    rw [hfilter] at h
    by_contra hnot
    simp [hnot] at h
  have hreaches : doc.Reaches doc.trailer n := (mem_reachable_iff.1 hmem).2
  -- every object on the way is reached, so that it is kept
  have hkept : ∀ m, doc.Reaches doc.trailer m → doc.prune.Reaches doc.trailer m := by
    intro m hm
    induction hm with
    | start h => exact .start h
    | step hm found refers ih => exact .step ih ((lookup_prune hm).trans found) refers
  exact hkept n hreaches

end

end Document

end Folio.Pdf
