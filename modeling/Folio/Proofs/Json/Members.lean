import Folio.Proofs.Json.Compact
import Folio.Proofs.Json.Invariant

/-!
# Members in the order in which they are written

`Writes text ms`: the text is that of an object, and its members are written in the order of `ms`,
each time a key is written. Every text that is read to an object writes some members, and the object
is made of them (`parse_eq_object_iff`). The texts of the grammar write the members that they list
(`writes_of_listed`).
-/

set_option autoImplicit false

namespace Folio.Json

/-- The members of an object as its text has them, from the first to the last. -/
def Writes (text : String) (ms : List (String × Value)) : Prop :=
  ∃ left, (Cursor.ofText text).skip.rest.head? = some '\x7b' ∧
    readMembers (readValue 127) (Cursor.ofText text).skip.rest.length []
      ((Cursor.ofText text).skip.take '\x7b') = .ok (ms, left) ∧
    finish left = .ok ()

theorem readValue_object {depth : Nat} {c left : Cursor} {ms : List (String × Value)}
    (hbrace : c.skip.rest.head? = some '\x7b')
    (hms : readMembers (readValue (depth + 1)) c.skip.rest.length [] (c.skip.take '\x7b') =
      .ok (ms, left)) : readValue (depth + 2) c = .ok (.ofEntries ms, left) := by
  obtain ⟨cs, hrest⟩ := List.head?_eq_some_iff.1 hbrace
  rw [hrest] at hms
  rw [readValue]
  simp only [hrest, hms, Nat.add_eq_zero_iff, Nat.one_ne_zero, and_false, if_false, bind,
    Except.bind]

/-- Only an opening brace leads to an object. -/
theorem readValue_eq_object {depth : Nat} {c left : Cursor} {members : Members}
    (h : readValue (depth + 1) c = .ok (.object members, left)) :
    c.skip.rest.head? = some '\x7b' ∧
      ∃ ms, readMembers (readValue depth) c.skip.rest.length [] (c.skip.take '\x7b') =
        .ok (ms, left) ∧ members = Members.ofList ms := by
  rw [readValue] at h
  simp only at h
  split at h
  · cases h
  · obtain ⟨read, -, h⟩ := of_bind h
    cases h
  · split at h
    · cases h
    · obtain ⟨read, -, h⟩ := of_bind h
      cases h
  · rename_i hrest
    split at h
    · cases h
    · obtain ⟨⟨ms, c₁⟩, hms, h⟩ := of_bind h
      cases h
      rw [hrest]
      exact ⟨rfl, ms, by rwa [hrest] at hms, rfl⟩
  · rename_i next cs _ _ _ _
    split at h
    · rename_i word value hword
      obtain ⟨read, -, h⟩ := of_bind h
      cases h
      unfold word? at hword
      split at hword
      all_goals cases hword
    · split at h
      · obtain ⟨read, -, h⟩ := of_bind h
        cases h
      · cases h

theorem parse_eq_object_iff {text : String} {members : Members} :
    parse text = .ok (.object members) ↔ ∃ ms, Writes text ms ∧ members = Members.ofList ms := by
  constructor
  · intro h
    obtain ⟨⟨value, left⟩, hread, h⟩ := of_bind h
    obtain ⟨_, hfinish, h⟩ := of_bind h
    cases h
    obtain ⟨hbrace, ms, hms, hmembers⟩ := readValue_eq_object hread
    exact ⟨ms, ⟨left, hbrace, hms, hfinish⟩, hmembers⟩
  · rintro ⟨ms, ⟨left, hbrace, hms, hfinish⟩, rfl⟩
    have hread : readValue depthLimit (.ofText text) = .ok (.ofEntries ms, left) :=
      readValue_object hbrace hms
    simp only [parse, hread, hfinish, bind, Except.bind]
    rfl

/-- The members that a text of the grammar lists are those that it writes. -/
theorem writes_of_listed {ms : List (String × Value)} {cs ws ws' : List Char}
    (h : Listed (Member (Written 126)) ms cs) (hw : Spaces ws) (hw' : Spaces ws') :
    Writes (String.ofList (ws ++ '\x7b' :: cs ++ '\x7d' :: ws')) ms := by
  obtain ⟨p, hp⟩ := skip_spaces hw (c := '\x7b') rfl (cs ++ '\x7d' :: ws') ⟨1, 0⟩ false
  have hskip : (Cursor.ofText (String.ofList (ws ++ '\x7b' :: cs ++ '\x7d' :: ws'))).skip =
      ⟨'\x7b' :: (cs ++ '\x7d' :: ws'), p, false, []⟩ := by
    simpa [Cursor.ofText] using hp
  have hfuel : ms.length < ('\x7b' :: (cs ++ '\x7d' :: ws')).length := by
    have := h.length_le
    simp only [List.length_cons, List.length_append]
    omega
  obtain ⟨p', hp'⟩ := readMembers_takes (readValue_readsAll 126) h hfuel ws' (p.past '\x7b') false
  rw [Writes, hskip]
  refine ⟨_, rfl, ?_, finish_spaces hw' p' false⟩
  simpa [Cursor.take] using hp'

theorem compact_object (ms : List (String × Value)) :
    (Value.object ms).compact = '\x7b' :: separated (ms.map memberCompact) ++ ['\x7d'] := by
  rw [Value.compact, compactMembers_eq]

/-- A compact text has the members as they are given, in order or not. -/
theorem writes_compact {depth : Nat} (hd : depth ≤ 126) {ms : List (String × Value)}
    (h : ∀ m ∈ ms, Plain depth m.2) : Writes (String.ofList (Value.object ms).compact) ms := by
  have hlisted : Listed (Member (Written 126)) ms (separated (ms.map memberCompact)) :=
    listed_separated fun m hm => member_compact ((written_compact (h m hm)).mono hd)
  have hwrites := writes_of_listed hlisted spaces_nil spaces_nil
  rw [List.nil_append] at hwrites
  rwa [compact_object]

theorem ascending_of_parse {text : String} {members : Members}
    (h : parse text = .ok (.object members)) : Sorted.Ascending members := by
  obtain ⟨ms, -, rfl⟩ := parse_eq_object_iff.1 h
  exact Sorted.ascending_ofList ms

end Folio.Json
