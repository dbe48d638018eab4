import Folio.Json.Decode

/-!
# What decoded data satisfies

Whatever a text says, an integer that is decoded lies in its range (`yields_integerIn`). A record
that is decoded satisfies what its initial value satisfies and every field keeps
(`yields_record`), whether it is written as an object or as an array.
-/

set_option autoImplicit false

namespace Folio.Json

/-- All data that the decoder reads, from whatever text, satisfies a property. -/
def Yields {α : Type} (d : Decoder α) (P : α → Prop) : Prop :=
  ∀ ⦃c : Cursor⦄ ⦃a : α⦄ ⦃left : Cursor⦄, d.read c = .ok (a, left) → P a

theorem Yields.map {α β : Type} {d : Decoder α} {P : α → Prop} (h : Yields d P) {f : α → β}
    {Q : β → Prop} (hf : ∀ a, P a → Q (f a)) : Yields (d.map f) Q := by
  intro c b left hread
  simp only [Decoder.map] at hread
  cases hd : d.read c with
  | error e => simp [hd, Except.map] at hread
  | ok read =>
    simp only [hd, Except.map, Except.ok.injEq, Prod.mk.injEq] at hread
    rw [← hread.1]
    exact hf read.1 (h hd)

theorem of_bind {ε α β : Type} {x : Except ε α} {f : α → Except ε β} {b : β}
    (h : x >>= f = .ok b) : ∃ a, x = .ok a ∧ f a = .ok b := by
  cases x with
  | error e => cases h
  | ok a => exact ⟨a, rfl, h⟩

/-! ## Numbers -/

theorem readOther_ne_ok {α : Type} (expected : String) (c : Cursor) (x : α × Cursor) :
    Decoder.readOther expected c ≠ .ok x := by
  intro h
  unfold Decoder.readOther at h
  split at h
  · cases h
  · obtain ⟨read, -, h⟩ := of_bind h
    cases h
  · cases h
  · cases h
  · split at h
    · obtain ⟨read, -, h⟩ := of_bind h
      cases h
    · split at h
      · obtain ⟨read, -, h⟩ := of_bind h
        cases h
      · cases h

theorem numberAs_ok {α : Type} {expected : String} {ofNumber : Number → Except Mismatch α}
    {start left : Cursor} {a : α}
    (h : (Decoder.numberAs expected ofNumber).read start = .ok (a, left)) :
    ∃ c cs n, start.skip.rest = c :: cs ∧ (c = '-' ∨ c.isDigit = true) ∧
      readSigned start.skip = .ok (n, left) ∧ ofNumber n = .ok a := by
  simp only [Decoder.numberAs] at h
  cases hrest : start.skip.rest with
  | nil =>
    simp only [hrest, Bool.false_eq_true, if_false] at h
    exact absurd h (readOther_ne_ok expected _ _)
  | cons c cs =>
    simp only [hrest] at h
    split at h
    · rename_i hc
      obtain ⟨⟨n, left'⟩, hsigned, h⟩ := of_bind h
      cases hn : ofNumber n with
      | error mismatch => simp [hn, Decoder.failLooking] at h
      | ok value =>
        simp only [hn, Except.ok.injEq, Prod.mk.injEq] at h
        obtain ⟨rfl, rfl⟩ := h
        exact ⟨c, cs, n, rfl, by simpa using hc, hsigned, hn⟩
    · exact absurd h (readOther_ne_ok expected _ _)

theorem yields_integerIn (expected : String) (low high : Int) :
    Yields (.integerIn expected low high) fun n => low ≤ n ∧ n ≤ high := by
  intro start a left hread
  obtain ⟨-, -, n, -, -, -, ha⟩ := numberAs_ok hread
  cases n with
  | integer n =>
    simp only at ha
    split at ha
    · rename_i hrange
      cases ha
      exact hrange
    · cases ha
  | float x => cases ha

theorem yields_int64 : Yields .int64 fun n => -0x8000000000000000 ≤ n ∧ n ≤ 0x7FFFFFFFFFFFFFFF :=
  yields_integerIn _ _ _

theorem yields_nat64 : Yields .nat64 fun n => n ≤ 0xFFFFFFFFFFFFFFFF :=
  (yields_integerIn "u64" 0 0xFFFFFFFFFFFFFFFF).map fun n h => by omega

/-! ## Records -/

section
variable {β : Type} {r : Record β} {P : β → Prop}
  (hfields : ∀ field ∈ r.fields, Yields field.decode fun set => ∀ b, P b → P (set b))
include hfields

theorem readFields_yields {fuel : Nat} {first : Bool} {seen : List String} {record b : β}
    {c left : Cursor} (hrecord : P record)
    (h : r.readFields fuel first seen record c = .ok (b, left)) : P b := by
  induction fuel generalizing first seen record c with
  | zero => cases h
  | succ fuel ih =>
    unfold Record.readFields at h
    obtain ⟨next, -, h⟩ := of_bind h
    cases next with
    | none =>
      simp only at h
      split at h
      · cases h
      · cases h
        exact hrecord
    | some c₁ =>
      obtain ⟨⟨key, c₂⟩, -, h⟩ := of_bind h
      simp only at h
      split at h
      · obtain ⟨c₃, -, h⟩ := of_bind h
        obtain ⟨c₄, -, h⟩ := of_bind h
        exact ih hrecord h
      · rename_i field hfind
        split at h
        · cases h
        · obtain ⟨c₃, -, h⟩ := of_bind h
          obtain ⟨⟨set, c₄⟩, hset, h⟩ := of_bind h
          exact ih (hfields field (List.mem_of_find?_eq_some hfind) hset record hrecord) h

theorem readItemsInto_yields {index : Nat} {fields : List (Field β)}
    (hmem : ∀ field ∈ fields, field ∈ r.fields) {record b : β} {c left : Cursor}
    (hrecord : P record) (h : r.readItemsInto index record fields c = .ok (b, left)) : P b := by
  induction fields generalizing index record c with
  | nil =>
    obtain ⟨c₁, -, h⟩ := of_bind h
    cases h
    exact hrecord
  | cons field fields ih =>
    have htail : ∀ field ∈ fields, field ∈ r.fields :=
      fun x hx => hmem x (List.mem_cons_of_mem field hx)
    unfold Record.readItemsInto at h
    obtain ⟨next, -, h⟩ := of_bind h
    cases next with
    | none =>
      simp only at h
      split at h
      · cases h
      · exact ih htail hrecord h
    | some c₁ =>
      obtain ⟨⟨set, c₂⟩, hset, h⟩ := of_bind h
      exact ih htail (hfields field (hmem field List.mem_cons_self) hset record hrecord) h

/-- A record that is decoded satisfies what every field keeps. -/
theorem yields_record (hinitial : P r.initial) : Yields r.decoder P := by
  intro c b left hread
  simp only [Record.decoder] at hread
  split at hread
  · exact readFields_yields hfields hinitial hread
  · exact readItemsInto_yields hfields (fun _ h => h) hinitial hread
  · exact absurd hread (readOther_ne_ok r.expected _ _)

end

/-- A field of which nothing need be known, because it plays no part in the property. -/
theorem yields_untouched {α β : Type} (d : Decoder α) {set : α → β → β} {P : β → Prop}
    (h : ∀ a b, P b → P (set a b)) : Yields (d.map set) fun update => ∀ b, P b → P (update b) :=
  have hany : Yields d fun _ => True := fun _ _ _ _ => trivial
  hany.map fun a _ => h a

theorem Decoder.readAll_yields {α : Type} {d : Decoder α} {P : α → Prop} (h : Yields d P)
    {c : Cursor} {a : α} (hread : d.readAll c = .ok a) : P a := by
  obtain ⟨⟨value, left⟩, hvalue, hread⟩ := of_bind hread
  obtain ⟨-, -, hread⟩ := of_bind hread
  cases hread
  exact h hvalue

end Folio.Json
