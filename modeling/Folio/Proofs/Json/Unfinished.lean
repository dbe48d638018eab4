import Folio.Proofs.Json.Compact

/-!
# Texts that end inside a string

An object that is cut off inside the text of a member is no JSON: the reader takes all members
before it and then finds the end of the text (`parse_unfinished`).
-/

set_option autoImplicit false

namespace Folio.Json

/-- From any place, `reader` comes to the end of `text` inside a string. -/
def RunsOut {α : Type} (reader : Reader α) (text : List Char) : Prop :=
  ∀ p streaming, ∃ p', reader ⟨text, p, streaming, []⟩ = .error ⟨.eofInString, p'⟩

/-- Members that others follow, each with its comma. -/
def preceding (ms : List (String × Value)) : List Char :=
  ms.flatMap fun m => memberCompact m ++ [',']

theorem preceding_cons (m : String × Value) (ms : List (String × Value)) :
    preceding (m :: ms) = memberCompact m ++ ',' :: preceding ms := by
  simp [preceding]

theorem length_le_preceding (ms : List (String × Value)) : ms.length ≤ (preceding ms).length := by
  induction ms with
  | nil => exact Nat.le_refl _
  | cons m ms ih =>
    rw [preceding_cons, List.length_append, List.length_cons, List.length_cons]
    omega

theorem separated_members (before : List (String × Value)) (m : String × Value)
    (later : List (String × Value)) :
    ∃ rest, separated ((before ++ m :: later).map memberCompact) =
      preceding before ++ memberCompact m ++ rest := by
  induction before with
  | nil =>
    cases later with
    | nil => exact ⟨[], by simp [preceding, separated]⟩
    | cons l later => exact ⟨_, rfl⟩
  | cons b before ih =>
    obtain ⟨rest, hrest⟩ := ih
    refine ⟨rest, ?_⟩
    obtain ⟨x, xs, hxs⟩ : ∃ x xs, (before ++ m :: later).map memberCompact = x :: xs :=
      List.exists_cons_of_ne_nil (by simp)
    rw [hxs] at hrest
    rw [List.cons_append, List.map_cons, hxs, separated_cons_cons, hrest, preceding_cons]
    simp

theorem readString_runsOut {cs body : List Char} (h : Spelled cs body) :
    RunsOut readString ('"' :: body) := by
  intro p streaming
  obtain ⟨p', hp⟩ := readChars_spelled h (p.past '"') [] []
  rw [List.append_nil] at hp
  exact ⟨p', by simp [readString, Cursor.take, hp, readChars, bind, Except.bind]⟩

theorem readValue_runsOut (depth : Nat) {cs body : List Char} (h : Spelled cs body) :
    RunsOut (readValue (depth + 1)) ('"' :: body) := by
  intro p streaming
  obtain ⟨p', hp⟩ := readString_runsOut h p streaming
  refine ⟨p', ?_⟩
  rw [readValue, skip_token rfl]
  simp only [hp, bind, Except.bind]

/-- What stands between two members. -/
def between (first : Bool) : List Char := if first then [] else [',']

theorem nextKey_between (first : Bool) (rest : List Char) (p : Position) (streaming : Bool) :
    ∃ p', nextKey first ⟨between first ++ '"' :: rest, p, streaming, []⟩ =
      .ok (some ⟨'"' :: rest, p', streaming, []⟩) := by
  have hquote (p : Position) := skip_token (c := '"') rfl rest p streaming
  cases first with
  | true => exact ⟨p, by simp [nextKey, between, hquote]⟩
  | false =>
    have hcomma := skip_token (c := ',') rfl ('"' :: rest) p streaming
    exact ⟨p.past ',', by simp [nextKey, between, hcomma, Cursor.take, hquote]⟩

section
variable {reader : Reader Value} {item : Value → List Char → Prop}

theorem readMembers_runsOut (hr : ReadsAll reader item) {ms : List (String × Value)}
    (hms : ∀ m ∈ ms, item m.2 m.2.compact) {value : List Char} (hv : RunsOut reader value)
    (key : String) {read : List (String × Value)} {fuel : Nat} (hf : ms.length < fuel) :
    RunsOut (readMembers reader fuel read)
      (between read.isEmpty ++ preceding ms ++ stringText key ++ ':' :: value) := by
  induction ms generalizing read fuel with
  | nil =>
    intro p streaming
    obtain ⟨fuel, rfl⟩ : ∃ f, fuel = f + 1 := ⟨fuel - 1, by omega⟩
    obtain ⟨p₁, hp₁⟩ := nextKey_between read.isEmpty
      (key.toList.flatMap escapeChar ++ '"' :: ':' :: value) p streaming
    obtain ⟨p₂, hp₂⟩ :=
      readString_takes (writtenString_stringText key) (':' :: value) p₁ streaming
    have hcolon : readColon ⟨':' :: value, p₂, streaming, []⟩ =
        .ok ⟨value, p₂.past ':', streaming, []⟩ := by
      simp [readColon, skip_token (c := ':') rfl, Cursor.take]
    obtain ⟨p₃, hp₃⟩ := hv (p₂.past ':') streaming
    refine ⟨p₃, ?_⟩
    simp only [stringText, preceding, List.flatMap_nil, List.append_assoc, List.cons_append,
      List.nil_append, List.append_nil] at hp₁ hp₂ ⊢
    simp only [readMembers, hp₁, hp₂, hcolon, hp₃, bind, Except.bind]
  | cons m ms ih =>
    intro p streaming
    obtain ⟨fuel, rfl⟩ : ∃ f, fuel = f + 1 := ⟨fuel - 1, by omega⟩
    have hmember := member_compact (hms m List.mem_cons_self)
    have hlen : ms.length < fuel := by simpa using hf
    obtain ⟨cs, hcs⟩ := hmember.head
    obtain ⟨p₁, hp₁⟩ := nextKey_between read.isEmpty
      (cs ++ ',' :: (preceding ms ++ stringText key ++ ':' :: value)) p streaming
    obtain ⟨c₁, c₂, p₂, hkey, hcolon, hvalue⟩ := readMember hr hmember
      (ends_spaces spaces_nil (.inl rfl) (preceding ms ++ stringText key ++ ':' :: value)) p₁
      streaming
    have hrest : RunsOut (readMembers reader fuel (m :: read)) _ :=
      ih (fun x hx => hms x (List.mem_cons_of_mem m hx)) hlen
    obtain ⟨p₃, hp₃⟩ := hrest p₂ streaming
    refine ⟨p₃, ?_⟩
    rw [preceding_cons, hcs]
    rw [hcs] at hkey
    simp only [between, List.isEmpty_cons, Bool.false_eq_true, if_false, List.append_assoc,
      List.cons_append, List.nil_append] at hp₁ hkey hvalue hp₃ ⊢
    simp only [readMembers, hp₁, hkey, hcolon, hvalue, hp₃, bind, Except.bind]

end

/-- An object of texts that is cut off inside one of them is no JSON. -/
theorem parse_unfinished {ms : List (String × Value)} (hms : ∀ m ∈ ms, Plain 0 m.2) (key : String)
    (cs : List Char) :
    ∃ p, parse (String.ofList ('\x7b' :: preceding ms ++ stringText key ++
      ':' :: '"' :: cs.flatMap escapeChar)) = .error ⟨.eofInString, p⟩ := by
  let text := preceding ms ++ stringText key ++ ':' :: '"' :: cs.flatMap escapeChar
  have hlen : ms.length < ('\x7b' :: text).length := by
    have := length_le_preceding ms
    simp only [text, List.length_cons, List.length_append]
    omega
  have hrun : RunsOut (readMembers (readValue 127) ('\x7b' :: text).length []) text :=
    readMembers_runsOut (readValue_readsAll 126)
      (fun m hm => (written_compact (hms m hm)).mono (by decide))
      (readValue_runsOut 126 (spelled_flatMap cs)) key hlen
  obtain ⟨p, hp⟩ := hrun (Position.past ⟨1, 0⟩ '\x7b') false
  refine ⟨p, ?_⟩
  have htext : '\x7b' :: preceding ms ++ stringText key ++ ':' :: '"' :: cs.flatMap escapeChar =
      '\x7b' :: text := by simp [text]
  rw [htext, parse, depthLimit, Cursor.ofText, String.toList_ofList, readValue, skip_token rfl]
  simp only [Nat.reduceEqDiff, if_false, Cursor.take, List.tail_cons, hp, bind, Except.bind]

end Folio.Json
