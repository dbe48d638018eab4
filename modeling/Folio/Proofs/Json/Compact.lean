import Folio.Proofs.Json.Reading
import Folio.Proofs.Sorted

/-!
# Compact texts

The compact text of a value is one of its texts (`isText_compact`), so reading it gives the value
back (`parse_text`). This holds of `Plain` values: without floating-point numbers, and with the
members of objects in order, as every object has them that is made of entries.
-/

set_option autoImplicit false

namespace Folio.Json

/-! ## Strings -/

theorem hexNumber_control : ∀ n < 0x20,
    hexNumber? ['0', '0', Text.hexDigit (n / 16), Text.hexDigit n] = some n := by
  decide

/-- A character is spelled as it is escaped. -/
theorem spelling_escapeChar (c : Char) : Spelling c (escapeChar c) := by
  unfold escapeChar
  split
  · rename_i h; subst h; exact .letter rfl
  split
  · rename_i h; subst h; exact .letter rfl
  split
  · rename_i h; subst h; exact .letter rfl
  split
  · rename_i h; subst h; exact .letter rfl
  split
  · rename_i h; subst h; exact .letter rfl
  split
  · rename_i h; subst h; exact .letter rfl
  split
  · rename_i h; subst h; exact .letter rfl
  split
  · rename_i h
    exact .unit rfl (hexNumber_control c.toNat h)
  · rename_i hq hb _ _ _ _ _ hc
    exact .plain hq hb (Nat.not_lt.1 hc)

theorem spelled_flatMap (cs : List Char) : Spelled cs (cs.flatMap escapeChar) := by
  induction cs with
  | nil => exact .nil
  | cons c cs ih => exact .cons (spelling_escapeChar c) ih

theorem writtenString_stringText (text : String) : WrittenString text (stringText text) :=
  .mk (spelled_flatMap text.toList)

/-! ## Arrays and objects -/

theorem compactItems_eq (items : List Value) : compactItems items = items.map Value.compact := by
  induction items with
  | nil => rfl
  | cons item items ih => simp [compactItems, ih]

/-- The compact text of a member. -/
def memberCompact (m : String × Value) : List Char := stringText m.1 ++ ':' :: m.2.compact

theorem compactMembers_eq (ms : Members) : compactMembers ms = ms.map memberCompact := by
  induction ms with
  | nil => rfl
  | cons m ms ih => simp [compactMembers, memberCompact, ih]

theorem separated_cons_cons (t u : List Char) (texts : List (List Char)) :
    separated (t :: u :: texts) = t ++ ',' :: separated (u :: texts) := rfl

section
variable {α : Type} {elem : α → List Char → Prop} {text : α → List Char}

theorem more_separated {x : α} {xs : List α} (h : ∀ y ∈ xs, elem y (text y)) :
    ∃ rest, separated ((x :: xs).map text) = text x ++ rest ∧ More elem xs rest := by
  induction xs generalizing x with
  | nil => exact ⟨[], by simp [separated], .nil spaces_nil⟩
  | cons y ys ih =>
    obtain ⟨rest, hr, hm⟩ := ih (x := y) fun z hz => h z (List.mem_cons_of_mem _ hz)
    refine ⟨',' :: (text y ++ rest), ?_, ?_⟩
    · rw [List.map_cons, List.map_cons, separated_cons_cons, ← List.map_cons, hr]
    · simpa using More.cons spaces_nil spaces_nil (h y List.mem_cons_self) hm

/-- Texts of elements with commas between them are a text of the list. -/
theorem listed_separated {xs : List α} (h : ∀ x ∈ xs, elem x (text x)) :
    Listed elem xs (separated (xs.map text)) := by
  cases xs with
  | nil => exact .nil spaces_nil
  | cons x xs =>
    obtain ⟨rest, hr, hm⟩ := more_separated (x := x) fun y hy => h y (List.mem_cons_of_mem _ hy)
    rw [hr]
    simpa using Listed.cons spaces_nil (h x List.mem_cons_self) hm

end

theorem member_compact {item : Value → List Char → Prop} {m : String × Value}
    (h : item m.2 m.2.compact) : Member item m (memberCompact m) := by
  simpa [memberCompact] using Member.mk (writtenString_stringText m.1) spaces_nil spaces_nil h

/-! ## Values -/

/-- Values that nest at most so many brackets, without floating-point numbers and with the members
of objects in order. -/
def Plain : Nat → Value → Prop
  | _, .null => True
  | _, .bool _ => True
  | _, .number (.integer n) => IsWord n
  | _, .number (.float _) => False
  | _, .string _ => True
  | 0, .array _ => False
  | depth + 1, .array items => ∀ v ∈ items, Plain depth v
  | 0, .object _ => False
  | depth + 1, .object ms => Sorted.Ascending ms ∧ ∀ m ∈ ms, Plain depth m.2

/-- An object is made of entries once its members are in order. -/
theorem ofEntries_of_ascending {ms : Members} (h : Sorted.Ascending ms) :
    Value.ofEntries ms = .object ms := by
  rw [Value.ofEntries, Members.ofList, Sorted.ofList_of_ascending h]

theorem plain_ofEntries {depth : Nat} {entries : List (String × Value)}
    (h : ∀ e ∈ entries, Plain depth e.2) : Plain (depth + 1) (.ofEntries entries) :=
  ⟨Sorted.ascending_ofList entries, fun e he => h e (Sorted.mem_of_mem_ofList he)⟩

theorem scalar_compact {depth : Nat} {v : Value} (h : Plain depth v) (ha : v.array? = none)
    (ho : v.object? = none) : Scalar v v.compact := by
  cases v with
  | null => exact .nullWord
  | bool b =>
    cases b with
    | true => exact .trueWord
    | false => exact .falseWord
  | number n =>
    cases n with
    | integer n => exact .integer (by cases depth <;> exact h)
    | float x => cases depth <;> exact h.elim
  | string text => exact .string (writtenString_stringText text)
  | array => cases ha
  | object => cases ho

theorem written_compact {depth : Nat} {v : Value} (h : Plain depth v) :
    Written depth v v.compact := by
  induction depth generalizing v with
  | zero =>
    cases v with
    | array | object => exact h.elim
    | _ => exact scalar_compact h rfl rfl
  | succ depth ih =>
    cases v with
    | array items =>
      refine .inr (.array ?_)
      rw [compactItems_eq]
      exact listed_separated fun v hv => ih (h v hv)
    | object ms =>
      have hm : Listed (Member (Written depth)) ms (separated (compactMembers ms)) := by
        rw [compactMembers_eq]
        exact listed_separated fun m hm => member_compact (ih (h.2 m hm))
      have hc := Compound.object hm
      rw [ofEntries_of_ascending h.1] at hc
      exact .inr hc
    | _ => exact .inl (scalar_compact h rfl rfl)

theorem isText_compact {depth : Nat} (hd : depth ≤ 127) {v : Value} (h : Plain depth v) :
    IsText v v.compact :=
  (written_compact h).mono hd

/-- A value is read back from its compact text. -/
theorem parse_text {depth : Nat} (hd : depth ≤ 127) {v : Value} (h : Plain depth v) :
    parse v.text = .ok v := by
  simpa [Value.text] using parse_of_isText (isText_compact hd h) spaces_nil spaces_nil

end Folio.Json
