import Folio.Proofs.Fence

/-!
# The search for the closing fence

Fences are looked for from the end of a text, and those that are passed do not overlap. `ClosedIn`
says where that leads without the walk: a fence counts if it closes what is before it and the
backticks behind it in its run make up whole fences. The search finds such a fence if there is one
(`beforeFence_cases`).
-/

set_option autoImplicit false

namespace Folio.Reply

open Text

/-! ## What a fence closes -/

theorem closes_eq {before : List Char} (h : before.head? ≠ some '\n') :
    closes before = (before.dropWhile isBlank).head?.all fun c => c == '\x7d' || c == ']' := by
  unfold closes
  split
  · exact absurd rfl h
  · cases before.dropWhile isBlank <;> rfl

theorem closes_cons {c : Char} (hc : isBlank c = false) (before : List Char) :
    closes (c :: before) = true ↔ c = '\x7d' ∨ c = ']' := by
  have hn : (c :: before).head? ≠ some '\n' := by
    rintro ⟨⟩
    exact absurd hc (by decide)
  rw [closes_eq hn, List.dropWhile_cons_of_neg (by simp [hc])]
  simp

theorem closes_blank {c : Char} (hc : isBlank c = true) (hn : c ≠ '\n') {before : List Char}
    (hb : before.head? ≠ some '\n') : closes (c :: before) = closes before := by
  have hcons : (c :: before).head? ≠ some '\n' := fun h => hn (Option.some.inj h)
  rw [closes_eq hcons, closes_eq hb, List.dropWhile_cons_of_pos hc]

/-! ## Runs of backticks -/

/-- How many backticks a text starts with. -/
def ticks (text : List Char) : Nat := (text.takeWhile (· == '`')).length

@[simp] theorem ticks_cons (text : List Char) : ticks ('`' :: text) = ticks text + 1 := by
  simp [ticks]

theorem ticks_of_ne {c : Char} (h : c ≠ '`') (text : List Char) : ticks (c :: text) = 0 := by
  simp [ticks, h]

theorem ticks_fence (text : List Char) : ticks (fence ++ text) = ticks text + 3 := by
  simp [fence]

theorem exists_fence {text : List Char} (h : 3 ≤ ticks text) :
    ∃ rest, text = fence ++ rest := by
  have hrun : text.takeWhile (· == '`') = List.replicate (ticks text) '`' :=
    List.eq_replicate_of_mem fun c hc => by simpa using List.mem_takeWhile_imp hc
  refine ⟨List.replicate (ticks text - 3) '`' ++ text.dropWhile (· == '`'), ?_⟩
  obtain ⟨n, hn⟩ : ∃ n, ticks text = n + 3 := ⟨ticks text - 3, by omega⟩
  rw [← List.append_assoc, hn, Nat.add_sub_cancel]
  have hreplicate : fence ++ List.replicate n '`' = List.replicate (n + 3) '`' := by
    simp [fence, List.replicate_succ]
  rw [hreplicate, ← hn, ← hrun, List.takeWhile_append_dropWhile]

/-! ## The search -/

/-- In a text given from its end, with `behind` behind it, a fence closes `before`. Fences do not
overlap, so whole fences follow it in its run of backticks. -/
def ClosedIn (reversed behind before : List Char) : Prop :=
  ∃ passed, reversed = passed ++ fence ++ before ∧ 3 ∣ ticks (passed.reverse ++ behind) ∧
    closes before = true

theorem closedIn_fence {rest behind : List Char} (hrest : closes rest = false)
    (hbehind : 3 ∣ ticks behind) (before : List Char) :
    ClosedIn (fence ++ rest) behind before ↔ ClosedIn rest (fence ++ behind) before := by
  constructor
  · rintro ⟨passed, heq, haligned, hcloses⟩
    -- A fence that is passed in part leaves a run that no longer falls into whole fences.
    match passed with
    | [] =>
      rw [List.append_cancel_left heq, hcloses] at hrest
      cases hrest
    | [a] =>
      simp only [fence, List.cons_append, List.nil_append, List.cons.injEq] at heq
      obtain ⟨rfl, -⟩ := heq
      rw [List.reverse_singleton, List.singleton_append, ticks_cons] at haligned
      omega
    | [a, b] =>
      simp only [fence, List.cons_append, List.nil_append, List.cons.injEq] at heq
      obtain ⟨rfl, rfl, -⟩ := heq
      simp only [List.reverse_cons, List.reverse_nil, List.nil_append, List.cons_append,
        ticks_cons] at haligned
      omega
    | a :: b :: c :: passed =>
      simp only [fence, List.cons_append, List.nil_append, List.cons.injEq] at heq
      obtain ⟨rfl, rfl, rfl, rfl⟩ := heq
      refine ⟨passed, by simp [fence], ?_, hcloses⟩
      simpa [fence] using haligned
  · rintro ⟨passed, rfl, haligned, hcloses⟩
    refine ⟨fence ++ passed, by simp, ?_, hcloses⟩
    simpa [fence] using haligned

theorem closedIn_cons {c : Char} {reversed behind : List Char}
    (h : ¬ fence <+: c :: reversed) (before : List Char) :
    ClosedIn (c :: reversed) behind before ↔ ClosedIn reversed (c :: behind) before := by
  constructor
  · rintro ⟨passed, heq, haligned, hcloses⟩
    cases passed with
    | nil => exact absurd ⟨before, heq.symm⟩ h
    | cons d passed =>
      obtain ⟨rfl, rfl⟩ := List.cons.inj heq
      exact ⟨passed, rfl, by simpa using haligned, hcloses⟩
  · rintro ⟨passed, rfl, haligned, hcloses⟩
    exact ⟨c :: passed, rfl, by simpa using haligned, hcloses⟩

/-- The search finds a fence that closes what is before it, if there is one. -/
theorem beforeFence_cases (reversed behind : List Char)
    (h : fence <+: reversed → 3 ∣ ticks behind) :
    (∃ before, beforeFence 0 reversed = some before ∧ ClosedIn reversed behind before) ∨
      beforeFence 0 reversed = none ∧ ∀ before, ¬ ClosedIn reversed behind before := by
  -- The hypothesis carries the walk: no fence starts within three backticks that are passed.
  induction hlen : reversed.length using Nat.strong_induction_on generalizing reversed behind with
  | _ n ih =>
    by_cases hfence : fence <+: reversed
    · obtain ⟨rest, rfl⟩ := hfence
      have hbehind := h ⟨rest, rfl⟩
      cases hrest : closes rest with
      | true =>
        refine .inl ⟨rest, by simp [fence, beforeFence, hrest], [], rfl, ?_, hrest⟩
        simpa using hbehind
      | false =>
        have hskip : beforeFence 0 (fence ++ rest) = beforeFence 0 rest := by
          simp [fence, beforeFence, hrest]
        have hlt : rest.length < n := by
          rw [← hlen, List.length_append]
          exact Nat.lt_add_of_pos_left (by decide)
        have haligned : 3 ∣ ticks (fence ++ behind) := by
          rw [ticks_fence]
          omega
        rw [hskip]
        simpa only [closedIn_fence hrest hbehind] using
          ih _ hlt rest (fence ++ behind) (fun _ => haligned) rfl
    · cases reversed with
      | nil =>
        refine .inr ⟨rfl, ?_⟩
        rintro before ⟨passed, heq, -, -⟩
        have := congrArg List.length heq
        simp [fence] at this
      | cons c reversed =>
        have hstep : beforeFence 0 (c :: reversed) = beforeFence 0 reversed := by
          rw [beforeFence, if_neg (mt List.isPrefixOf_iff_prefix.1 hfence)]
        have haligned : fence <+: reversed → 3 ∣ ticks (c :: behind) := by
          rintro ⟨rest, rfl⟩
          have hc : c ≠ '`' := by
            rintro rfl
            exact hfence ⟨'`' :: rest, rfl⟩
          rw [ticks_of_ne hc]
          exact Nat.dvd_zero 3
        rw [hstep]
        simpa only [closedIn_cons hfence] using
          ih _ (by simp [← hlen]) reversed (c :: behind) haligned rfl

end Folio.Reply
