import Mathlib.Data.List.Chain

/-!
# Cutting lists

A list is cut into consecutive pieces that satisfy a condition. A cutting is full if no piece could
have taken the first element of the next one as well; walks that take as much as they can into
each piece make full cuttings. Where the condition passes from a piece to its parts, no cutting has
fewer pieces than a full one (`IsFull.length_le`).
-/

set_option autoImplicit false

namespace Folio

variable {α : Type} {ok : List α → Prop} {whole : List α} {piece : List α}
  {pieces others : List (List α)}

/-- The list is cut into pieces that are not empty and satisfy a condition. -/
structure IsCutting (ok : List α → Prop) (whole : List α) (pieces : List (List α)) : Prop where
  flatten : pieces.flatten = whole
  inhabited : ∀ piece ∈ pieces, piece ≠ []
  allowed : ∀ piece ∈ pieces, ok piece

/-- No piece may take the first element of the next one. -/
def IsFull (ok : List α → Prop) (pieces : List (List α)) : Prop :=
  pieces.IsChain fun piece next => ∀ x ∈ next.head?, ¬ ok (piece ++ [x])

/-- The condition passes from every piece of a list to the parts of the piece. -/
def Inherited (ok : List α → Prop) (whole : List α) : Prop :=
  ∀ piece, piece <:+: whole → ok piece → ∀ part, part ≠ [] → part <:+: piece → ok part

theorem Inherited.of_part {part : List α} (h : Inherited ok whole) (hp : part <:+: whole) :
    Inherited ok part :=
  fun piece hpiece => h piece (hpiece.trans hp)

/-- Single elements may stand as pieces besides, as they have no other parts. -/
theorem Inherited.or_singleton (h : Inherited ok whole) :
    Inherited (fun piece => ok piece ∨ ∃ x, piece = [x]) whole := by
  rintro piece hpiece hallowed part hne hpart
  rcases hallowed with hok | ⟨x, rfl⟩
  · exact .inl (h piece hpiece hok part hne hpart)
  · have hlength := hpart.length_le
    exact .inr ⟨x, hpart.eq_of_length_le (List.length_pos_of_ne_nil hne)⟩

theorem isCutting_cons_iff :
    IsCutting ok whole (piece :: pieces) ↔
      piece ≠ [] ∧ ok piece ∧ ∃ rest, whole = piece ++ rest ∧ IsCutting ok rest pieces := by
  constructor
  · rintro ⟨rfl, hne, hok⟩
    rw [List.forall_mem_cons] at hne hok
    exact ⟨hne.1, hok.1, pieces.flatten, rfl, rfl, hne.2, hok.2⟩
  · rintro ⟨hne, hok, rest, rfl, rfl, hnes, hoks⟩
    exact ⟨rfl, List.forall_mem_cons.2 ⟨hne, hnes⟩, List.forall_mem_cons.2 ⟨hok, hoks⟩⟩

theorem IsCutting.eq_nil (h : IsCutting ok [] pieces) : pieces = [] := by
  refine List.eq_nil_iff_forall_not_mem.2 fun piece hp => ?_
  exact h.inhabited piece hp (List.flatten_eq_nil_iff.1 h.flatten piece hp)

/-- It is the first of the elements still to come that a piece may not take. -/
theorem isFull_cons_iff (hne : ∀ piece ∈ pieces, piece ≠ []) :
    IsFull ok (piece :: pieces) ↔
      (∀ x ∈ pieces.flatten.head?, ¬ ok (piece ++ [x])) ∧ IsFull ok pieces := by
  have hhead : (∀ next ∈ pieces.head?, ∀ x ∈ next.head?, ¬ ok (piece ++ [x])) ↔
      ∀ x ∈ pieces.flatten.head?, ¬ ok (piece ++ [x]) := by
    cases pieces with
    | nil => simp
    | cons next pieces =>
      obtain ⟨first, next, rfl⟩ := List.exists_cons_of_ne_nil (hne next List.mem_cons_self)
      simp
  rw [IsFull, List.isChain_cons, hhead, IsFull]

/-- A piece with an element more is no single element. -/
theorem IsFull.or_singleton (h : IsFull ok pieces) (hne : ∀ piece ∈ pieces, piece ≠ []) :
    IsFull (fun piece => ok piece ∨ ∃ x, piece = [x]) pieces := by
  refine h.imp_of_mem_imp fun piece next hp _ hfull x hx hallowed => ?_
  rcases hallowed with hok | ⟨y, hsingle⟩
  · exact hfull x hx hok
  · have hlength := congrArg List.length hsingle
    have := List.length_pos_of_ne_nil (hne piece hp)
    simp only [List.length_append, List.length_singleton] at hlength
    omega

/-- Behind as many pieces, a full cutting is at least as far as any other one: `before` is what the
other has still to go through before it reaches the place where the full one goes on. -/
theorem IsFull.length_le_of_behind {before : List α} (hfull : IsFull ok pieces)
    (hpieces : IsCutting ok whole pieces) (hothers : IsCutting ok (before ++ whole) others)
    (hinherited : Inherited ok (before ++ whole)) : pieces.length ≤ others.length := by
  induction others generalizing before whole pieces with
  | nil =>
    have hnil : before ++ whole = [] := hothers.flatten.symm
    rw [(List.append_eq_nil_iff.1 hnil).2] at hpieces
    rw [hpieces.eq_nil]
  | cons other others ih =>
    obtain ⟨-, hok, rest, hsplit, hbehind⟩ := isCutting_cons_iff.1 hothers
    have hsuffix : Inherited ok rest := hinherited.of_part ⟨other, [], by simp [hsplit]⟩
    rcases List.append_eq_append_iff.1 hsplit with ⟨start, rfl, rfl⟩ | ⟨later, rfl, rfl⟩
    · -- The other piece ends in `whole`, behind its beginning `start`.
      cases pieces with
      | nil => exact Nat.zero_le _
      | cons piece pieces =>
        obtain ⟨hne, -, remaining, hcut, hrest⟩ := isCutting_cons_iff.1 hpieces
        rcases List.append_eq_append_iff.1 hcut with ⟨gap, rfl, rfl⟩ | ⟨more, rfl, rfl⟩
        · exact Nat.succ_le_succ (ih hfull.tail hrest hbehind hsuffix)
        · cases more with
          | nil =>
            rw [List.append_nil] at hok
            have hnone : IsCutting ok ([] ++ rest) others := hbehind
            exact Nat.succ_le_succ (ih hfull.tail hrest hnone hsuffix)
          | cons x more =>
            have hlonger : ok (piece ++ [x]) :=
              hinherited _ ⟨[], rest, by simp⟩ hok _ (by simp) ⟨before, more, by simp⟩
            have hnot := ((isFull_cons_iff hrest.inhabited).1 hfull).1 x
            rw [hrest.flatten] at hnot
            exact absurd hlonger (hnot rfl)
    · exact Nat.le_succ_of_le (ih hfull hpieces hbehind hsuffix)

/-- A full cutting has as few pieces as possible. -/
theorem IsFull.length_le (hfull : IsFull ok pieces) (hpieces : IsCutting ok whole pieces)
    (hothers : IsCutting ok whole others) (hinherited : Inherited ok whole) :
    pieces.length ≤ others.length := by
  have hnone : IsCutting ok ([] ++ whole) others := hothers
  exact hfull.length_le_of_behind hpieces hnone hinherited

end Folio
