import Folio.Json.Decode
import Folio.Proofs.Json.Compact

/-!
# Decoding what was written

A decoder takes a text for its data if it takes exactly that text before what may follow a value,
with blanks in front of it or not (`Decodes`). There is one lemma for each decoder. A record is read
from the texts of its fields in any order, and what was read sets the fields one after the other
(`decodes_record`).
-/

set_option autoImplicit false

namespace Folio.Json

/-- The decoder takes the text for the data. -/
def Decodes {α : Type} (d : Decoder α) (a : α) (cs : List Char) : Prop :=
  ∀ ⦃ws rest : List Char⦄, Spaces ws → Ends rest → Takes d.read (ws ++ cs) a rest

theorem Decodes.map {α β : Type} {d : Decoder α} {a : α} {cs : List Char} (h : Decodes d a cs)
    (f : α → β) : Decodes (d.map f) (f a) cs := by
  intro ws rest hw he p streaming
  obtain ⟨p', hp⟩ := h hw he p streaming
  exact ⟨p', by simp only [Decoder.map, hp, Except.map]⟩

theorem Decodes.readAll {α : Type} {d : Decoder α} {a : α} {cs : List Char} (h : Decodes d a cs)
    (p : Position) (streaming : Bool) : d.readAll ⟨cs, p, streaming, []⟩ = .ok a := by
  have hends : Ends [] := by simp [Ends]
  obtain ⟨p', hp⟩ := h spaces_nil hends p streaming
  rw [List.append_nil, List.nil_append] at hp
  simp only [Decoder.readAll, hp, bind, Except.bind, finish_spaces spaces_nil]

/-! ## Words and strings -/

theorem decodes_bool (b : Bool) :
    Decodes .bool b (if b then "true".toList else "false".toList) := by
  intro ws rest hw _ p streaming
  simp only [Decoder.bool, List.append_assoc]
  cases b with
  | true =>
    obtain ⟨p₁, hp₁⟩ := skip_spaces hw (c := 't') rfl ("rue".toList ++ rest) p streaming
    obtain ⟨p₂, hp₂⟩ := readWord_append "true".toList rest p₁ streaming
    refine ⟨p₂, ?_⟩
    have hword : "true".toList = 't' :: "rue".toList := rfl
    rw [hword, List.cons_append] at hp₂
    rw [if_pos rfl, hword, List.cons_append, hp₁]
    simp only [hp₂, bind, Except.bind]
  | false =>
    obtain ⟨p₁, hp₁⟩ := skip_spaces hw (c := 'f') rfl ("alse".toList ++ rest) p streaming
    obtain ⟨p₂, hp₂⟩ := readWord_append "false".toList rest p₁ streaming
    refine ⟨p₂, ?_⟩
    have hword : "false".toList = 'f' :: "alse".toList := rfl
    rw [hword, List.cons_append] at hp₂
    rw [if_neg (by decide), hword, List.cons_append, hp₁]
    simp only [hp₂, bind, Except.bind]

theorem decodes_stringAs (expected : String) {text : String} {cs : List Char}
    (h : WrittenString text cs) : Decodes (.stringAs expected) text cs := by
  intro ws rest hw _ p streaming
  obtain ⟨cs', rfl⟩ : ∃ cs', cs = '"' :: cs' := by
    obtain ⟨_⟩ := h
    exact ⟨_, rfl⟩
  obtain ⟨p₁, hp₁⟩ := skip_spaces hw (c := '"') rfl (cs' ++ rest) p streaming
  obtain ⟨p₂, hp₂⟩ := readString_takes h rest p₁ streaming
  refine ⟨p₂, ?_⟩
  rw [List.cons_append] at hp₂
  simp only [Decoder.stringAs, List.append_assoc, List.cons_append, hp₁, hp₂]

theorem decodes_string (text : String) : Decodes .string text (stringText text) :=
  decodes_stringAs "a string" (writtenString_stringText text)

/-- A name is read to what it is known as. -/
theorem decodes_variant {α : Type} {known : List (String × α)} {name : String} {a : α}
    (h : known.lookup name = some a) {cs : List Char} (hw : WrittenString name cs) :
    Decodes (.variant known) a cs := by
  intro ws rest hws he p streaming
  obtain ⟨cs', rfl⟩ : ∃ cs', cs = '"' :: cs' := by
    obtain ⟨_⟩ := hw
    exact ⟨_, rfl⟩
  obtain ⟨p₁, hp₁⟩ := skip_spaces hws (c := '"') rfl (cs' ++ rest) p streaming
  obtain ⟨p₂, hp₂⟩ := decodes_stringAs "variant identifier" hw spaces_nil he p₁ streaming
  refine ⟨p₂, ?_⟩
  rw [List.nil_append, List.cons_append] at hp₂
  simp only [Decoder.variant, List.append_assoc, List.cons_append, hp₁, hp₂, h, bind, Except.bind]

/-! ## Numbers -/

theorem decodes_numberAs {α : Type} {expected : String} {ofNumber : Number → Except Mismatch α}
    {number : Number} {a : α} (ha : ofNumber number = .ok a) {c : Char} {cs : List Char}
    (hc : c = '-' ∨ c.isDigit = true)
    (h : ∀ ⦃rest⦄, Ends rest → Takes readSigned (c :: cs) number rest) :
    Decodes (.numberAs expected ofNumber) a (c :: cs) := by
  intro ws rest hw he p streaming
  obtain ⟨p₁, hp₁⟩ := skip_spaces hw (digit_not_space hc) (cs ++ rest) p streaming
  obtain ⟨p₂, hp₂⟩ := h he p₁ streaming
  refine ⟨p₂, ?_⟩
  have hnumber : (c == '-' || c.isDigit) = true := by simpa using hc
  rw [List.cons_append] at hp₂
  simp only [Decoder.numberAs, List.append_assoc, List.cons_append, hp₁, hnumber, if_true, hp₂, ha,
    bind, Except.bind]

theorem decodes_integerIn {expected : String} {low high n : Int} (hlow : low ≤ n) (hhigh : n ≤ high)
    (hword : IsWord n) : Decodes (.integerIn expected low high) n (integerText n) := by
  obtain ⟨c, cs, hcs, hc⟩ := integerText_head (n := n)
  have htakes := fun rest (he : Ends rest) => readSigned_takes hword he
  rw [hcs] at htakes ⊢
  exact decodes_numberAs (if_pos ⟨hlow, hhigh⟩) hc htakes

theorem decodes_int64 {n : Int} (hlow : -0x8000000000000000 ≤ n) (hhigh : n ≤ 0x7FFFFFFFFFFFFFFF) :
    Decodes .int64 n (integerText n) :=
  decodes_integerIn hlow hhigh ⟨hlow, by omega⟩

theorem decodes_nat64 {n : Nat} (h : n ≤ 0xFFFFFFFFFFFFFFFF) :
    Decodes .nat64 n (integerText n) := by
  have hread : Decodes (.integerIn "u64" 0 0xFFFFFFFFFFFFFFFF) (n : Int) (integerText n) :=
    decodes_integerIn (by omega) (by omega) ⟨by omega, by omega⟩
  exact hread.map Int.toNat

/-! ## Nothing, and lists -/

theorem decodes_none {α : Type} (d : Decoder α) : Decodes (.optional d) none "null".toList := by
  intro ws rest hw _ p streaming
  obtain ⟨p₁, hp₁⟩ := skip_spaces hw (c := 'n') rfl ("ull".toList ++ rest) p streaming
  obtain ⟨p₂, hp₂⟩ := readWord_append "null".toList rest p₁ streaming
  refine ⟨p₂, ?_⟩
  have hword : "null".toList = 'n' :: "ull".toList := rfl
  rw [hword, List.cons_append] at hp₂
  rw [hword, List.append_assoc, List.cons_append]
  simp only [Decoder.optional, hp₁]
  simp only [hword, hp₂, bind, Except.bind]

theorem decodes_some {α : Type} {d : Decoder α} {a : α} {c : Char} {cs : List Char}
    (h : Decodes d a (c :: cs)) (hc : isSpace c = false) (hnull : c ≠ 'n') :
    Decodes (.optional d) (some a) (c :: cs) := by
  intro ws rest hw he p streaming
  obtain ⟨p₁, hp₁⟩ := skip_spaces hw hc (cs ++ rest) p streaming
  obtain ⟨p₂, hp₂⟩ := h spaces_nil he p₁ streaming
  refine ⟨p₂, ?_⟩
  rw [List.nil_append, List.cons_append] at hp₂
  simp only [Decoder.optional, List.append_assoc, List.cons_append, hp₁]
  split
  · rename_i heq
    exact absurd (List.cons.inj heq).1 hnull
  · rw [hp₂]
    rfl

theorem decodes_list {α : Type} {d : Decoder α} {item : α → List Char → Prop}
    (h : ReadsAll d.read item) {xs : List α} {cs : List Char} (hl : Listed item xs cs) :
    Decodes (.list d) xs ('[' :: cs ++ [']']) := by
  intro ws rest hw _ p streaming
  obtain ⟨p₁, hp₁⟩ := skip_spaces hw (c := '[') rfl (cs ++ ']' :: rest) p streaming
  have hlen : xs.length < ('[' :: (cs ++ ']' :: rest)).length := by
    have := hl.length_le
    simp only [List.length_append, List.length_cons]
    omega
  obtain ⟨p₂, hp₂⟩ := readItems_takes h hl hlen rest (p₁.past '[') streaming
  refine ⟨p₂, ?_⟩
  simp only [List.append_assoc, List.cons_append, List.nil_append] at hp₁ hp₂ ⊢
  simp only [Decoder.list, hp₁, Cursor.take, List.tail_cons, hp₂]

theorem readsAll_string : ReadsAll Decoder.string.read WrittenString := by
  constructor
  · intro text cs h
    obtain ⟨_⟩ := h
    exact ⟨_, _, rfl, by decide, by decide, by decide⟩
  · intro text cs ws rest h hw he
    exact decodes_stringAs "a string" h hw he

/-! ## Records -/

section
variable {β : Type} (r : Record β)

/-- The text of a field: its key, a colon, and a text for its value, which sets the field. -/
inductive FieldText : String × (β → β) → List Char → Prop
  | mk {key : String} {set : β → β} {field : Field β} {k ws ws' cs : List Char} :
      WrittenString key k → Spaces ws → Spaces ws' →
      r.fields.find? (fun field => field.name == key) = some field →
      Decodes field.decode set cs → FieldText (key, set) (k ++ ws ++ ':' :: ws' ++ cs)

variable {r}

theorem FieldText.head {m : String × (β → β)} {cs : List Char} (h : FieldText r m cs) :
    ∃ cs', cs = '"' :: cs' := by
  obtain ⟨⟨_⟩, -, -, -, -⟩ := h
  exact ⟨_, rfl⟩

/-- A field is read in three steps: its key, the colon, and its value. -/
theorem readField {m : String × (β → β)} {cs rest : List Char} (h : FieldText r m cs)
    (he : Ends rest) (p : Position) (streaming : Bool) :
    ∃ field c₁ c₂ p', readString ⟨cs ++ rest, p, streaming, []⟩ = .ok (m.1, c₁) ∧
      r.fields.find? (fun field => field.name == m.1) = some field ∧ readColon c₁ = .ok c₂ ∧
      field.decode.read c₂ = .ok (m.2, ⟨rest, p', streaming, []⟩) := by
  obtain @⟨key, set, field, k, ws, ws', cs, hk, hw, hw', hfind, hread⟩ := h
  obtain ⟨p₁, hp₁⟩ := readString_takes hk (ws ++ ':' :: ws' ++ cs ++ rest) p streaming
  obtain ⟨p₂, hp₂⟩ := skip_spaces hw (c := ':') (by decide) (ws' ++ cs ++ rest) p₁ streaming
  obtain ⟨p₃, hp₃⟩ := hread hw' he (p₂.past ':') streaming
  refine ⟨field, ⟨ws ++ ':' :: ws' ++ cs ++ rest, p₁, streaming, []⟩,
    ⟨ws' ++ cs ++ rest, p₂.past ':', streaming, []⟩, p₃, ?_, hfind, ?_, hp₃⟩
  · simpa using hp₁
  · simp only [List.append_assoc, List.cons_append] at hp₂ ⊢
    simp [readColon, hp₂, Cursor.take]

/-- A record without required fields misses none. -/
theorem missing?_of_optional (h : ∀ field ∈ r.fields, field.required = false)
    (seen : List String) : r.missing? seen = none := by
  have hnone : (r.fields.find? fun field => field.required && !seen.contains field.name) = none :=
    List.find?_eq_none.2 fun field hfield => by simp [h field hfield]
  rw [Record.missing?, hnone]
  rfl

/-- Sets fields one after the other. -/
def setAll (record : β) (ms : List (String × (β → β))) : β := ms.foldl (fun b m => m.2 b) record

section
variable (hoptional : ∀ field ∈ r.fields, field.required = false)
include hoptional

theorem readFields_more {ms : List (String × (β → β))} {cs : List Char}
    (h : More (FieldText r) ms cs) {seen : List String} (hkeys : (ms.map Prod.fst).Nodup)
    (hseen : ∀ m ∈ ms, m.1 ∉ seen) (record : β) {fuel : Nat} (hf : ms.length < fuel)
    (rest : List Char) :
    Takes (r.readFields fuel false seen record) (cs ++ ['\x7d']) (setAll record ms) rest := by
  induction h generalizing seen record fuel with
  | nil hw =>
    intro p streaming
    obtain ⟨fuel, rfl⟩ : ∃ f, fuel = f + 1 := ⟨fuel - 1, by omega⟩
    obtain ⟨p₁, hp₁⟩ := skip_spaces hw (c := '\x7d') (by decide) rest p streaming
    refine ⟨p₁.past '\x7d', ?_⟩
    simp [Record.readFields, nextKey, hp₁, Cursor.take, missing?_of_optional hoptional, setAll,
      bind, Except.bind]
  | @cons ws ws' cs more m ms hw hw' hm hmore ih =>
    intro p streaming
    obtain ⟨fuel, rfl⟩ : ∃ f, fuel = f + 1 := ⟨fuel - 1, by omega⟩
    obtain ⟨cs', rfl⟩ := hm.head
    obtain ⟨p₁, hp₁⟩ := skip_spaces hw (c := ',') (by decide)
      (ws' ++ '"' :: cs' ++ more ++ '\x7d' :: rest) p streaming
    obtain ⟨p₂, hp₂⟩ := skip_spaces hw' (c := '"') (by decide) (cs' ++ more ++ '\x7d' :: rest)
      (p₁.past ',') streaming
    obtain ⟨field, c₁, c₂, p₃, hkey, hfind, hcolon, hvalue⟩ :=
      readField hm (hmore.ends (.inr (.inr rfl)) rest) p₂ streaming
    rw [List.map_cons, List.nodup_cons] at hkeys
    have hnew : ∀ x ∈ ms, x.1 ∉ m.1 :: seen := by
      intro x hx hmem
      rcases List.mem_cons.1 hmem with heq | hmem
      · exact hkeys.1 (heq ▸ List.mem_map_of_mem hx)
      · exact hseen x (List.mem_cons_of_mem m hx) hmem
    have hfresh : seen.contains m.1 = false := by
      simpa using hseen m List.mem_cons_self
    have hlen : ms.length < fuel := by simp only [List.length_cons] at hf; omega
    obtain ⟨p₄, hp₄⟩ := ih hkeys.2 hnew (m.2 record) hlen p₃ streaming
    refine ⟨p₄, ?_⟩
    simp only [List.append_assoc, List.cons_append, List.nil_append] at hp₁ hp₂ hkey hvalue hp₄ ⊢
    simp only [Record.readFields, nextKey, hp₁, hp₂, hkey, hfind, hcolon, hvalue, hp₄, hfresh,
      Cursor.take, List.tail_cons, bind, Except.bind, Bool.false_eq_true, if_false, setAll,
      List.foldl_cons]

theorem readFields_takes {ms : List (String × (β → β))} {cs : List Char}
    (h : Listed (FieldText r) ms cs) (hkeys : (ms.map Prod.fst).Nodup) (record : β) {fuel : Nat}
    (hf : ms.length < fuel) (rest : List Char) :
    Takes (r.readFields fuel true [] record) (cs ++ ['\x7d']) (setAll record ms) rest := by
  intro p streaming
  obtain ⟨fuel, rfl⟩ : ∃ f, fuel = f + 1 := ⟨fuel - 1, by omega⟩
  cases h with
  | nil hw =>
    obtain ⟨p₁, hp₁⟩ := skip_spaces hw (c := '\x7d') (by decide) rest p streaming
    refine ⟨p₁.past '\x7d', ?_⟩
    simp [Record.readFields, nextKey, hp₁, Cursor.take, missing?_of_optional hoptional, setAll,
      bind, Except.bind]
  | @cons ws cs more m ms hw hm hmore =>
    obtain ⟨cs', rfl⟩ := hm.head
    obtain ⟨p₁, hp₁⟩ := skip_spaces hw (c := '"') (by decide) (cs' ++ more ++ '\x7d' :: rest) p
      streaming
    obtain ⟨field, c₁, c₂, p₂, hkey, hfind, hcolon, hvalue⟩ :=
      readField hm (hmore.ends (.inr (.inr rfl)) rest) p₁ streaming
    rw [List.map_cons, List.nodup_cons] at hkeys
    have hnew : ∀ x ∈ ms, x.1 ∉ [m.1] := by
      intro x hx hmem
      exact hkeys.1 (List.mem_singleton.1 hmem ▸ List.mem_map_of_mem hx)
    have hlen : ms.length < fuel := by simp only [List.length_cons] at hf; omega
    obtain ⟨p₃, hp₃⟩ :=
      readFields_more hoptional hmore hkeys.2 hnew (m.2 record) hlen rest p₂ streaming
    refine ⟨p₃, ?_⟩
    simp only [List.append_assoc, List.cons_append, List.nil_append] at hp₁ hkey hvalue hp₃ ⊢
    simp only [Record.readFields, nextKey, hp₁, hkey, hfind, hcolon, hvalue, hp₃, bind, Except.bind,
      if_true, List.contains_nil, Bool.false_eq_true, if_false, setAll, List.foldl_cons]

/-- A record is read from the texts of fields with different keys. -/
theorem decodes_record {ms : List (String × (β → β))} {cs : List Char}
    (h : Listed (FieldText r) ms cs) (hkeys : (ms.map Prod.fst).Nodup) :
    Decodes r.decoder (setAll r.initial ms) ('\x7b' :: cs ++ ['\x7d']) := by
  intro ws rest hw _ p streaming
  obtain ⟨p₁, hp₁⟩ := skip_spaces hw (c := '\x7b') rfl (cs ++ '\x7d' :: rest) p streaming
  have hlen : ms.length < ('\x7b' :: (cs ++ '\x7d' :: rest)).length := by
    have := h.length_le
    simp only [List.length_append, List.length_cons]
    omega
  obtain ⟨p₂, hp₂⟩ :=
    readFields_takes hoptional h hkeys r.initial hlen rest (p₁.past '\x7b') streaming
  refine ⟨p₂, ?_⟩
  simp only [List.append_assoc, List.cons_append, List.nil_append] at hp₁ hp₂ ⊢
  simp only [Record.decoder, hp₁, Cursor.take, List.tail_cons, hp₂]

end

end

/-! ## Texts on lines of their own -/

theorem spaces_newLine (level : Nat) : Spaces (newLine level) := by
  intro c hc
  rcases List.mem_cons.1 hc with rfl | hc
  · rfl
  · rw [List.eq_of_mem_replicate hc]
    rfl

section
variable {α : Type} {elem : α → List Char → Prop}

theorem more_lines {ws ws' : List Char} (hw : Spaces ws) (hw' : Spaces ws')
    {entries : List (α × List Char)} (h : ∀ e ∈ entries, elem e.1 e.2) (text : List Char) :
    ∃ rest, separated ((text :: entries.map Prod.snd).map (ws ++ ·)) ++ ws' = ws ++ text ++ rest ∧
      More elem (entries.map Prod.fst) rest := by
  induction entries generalizing text with
  | nil => exact ⟨ws', by simp [separated], .nil hw'⟩
  | cons e entries ih =>
    obtain ⟨rest, hr, hm⟩ := ih (fun x hx => h x (List.mem_cons_of_mem e hx)) e.2
    refine ⟨',' :: (ws ++ e.2 ++ rest), ?_, ?_⟩
    · rw [List.map_cons, List.map_cons, List.map_cons, separated_cons_cons, List.append_assoc,
        List.cons_append, ← List.map_cons, hr]
    · simpa using More.cons spaces_nil hw (h e List.mem_cons_self) hm

/-- Texts of elements on lines of their own are a text of the list. -/
theorem listed_block (level : Nat) (opening closing : Char) {entries : List (α × List Char)}
    (h : ∀ e ∈ entries, elem e.1 e.2) :
    ∃ inside, block level opening closing (entries.map Prod.snd) =
      opening :: inside ++ [closing] ∧ Listed elem (entries.map Prod.fst) inside := by
  cases entries with
  | nil => exact ⟨[], rfl, .nil spaces_nil⟩
  | cons e entries =>
    obtain ⟨rest, hr, hm⟩ := more_lines (spaces_newLine (level + 1)) (spaces_newLine level)
      (fun x hx => h x (List.mem_cons_of_mem e hx)) e.2
    refine ⟨newLine (level + 1) ++ e.2 ++ rest, ?_,
      .cons (spaces_newLine (level + 1)) (h e List.mem_cons_self) hm⟩
    rw [List.map_cons, block, ← hr]
    · simp
    · simp

end

theorem decodes_strings (level : Nat) (texts : List String) :
    Decodes (.list .string) texts (block level '[' ']' (texts.map stringText)) := by
  have helem : ∀ e ∈ texts.map fun text => (text, stringText text), WrittenString e.1 e.2 := by
    intro e he
    obtain ⟨text, -, rfl⟩ := List.mem_map.1 he
    exact writtenString_stringText text
  obtain ⟨inside, hblock, hlisted⟩ := listed_block level '[' ']' helem
  simp only [List.map_map, Function.comp_def, List.map_id'] at hblock hlisted
  rw [hblock]
  exact decodes_list readsAll_string hlisted

section
variable {β : Type} {r : Record β}

/-- The text of a value sets the field with the key. -/
def SetsField (r : Record β) (m : String × (β → β)) (cs : List Char) : Prop :=
  ∃ field, r.fields.find? (fun field => field.name == m.1) = some field ∧
    Decodes field.decode m.2 cs

theorem setsField_optional {α : Type} {key : String} {d : Decoder α} {set : α → β → β} {a : α}
    {update : β → β} {cs : List Char}
    (hfind : r.fields.find? (fun field => field.name == key) = some (.optional key d set))
    (h : Decodes d a cs) (hset : set a = update) : SetsField r (key, update) cs := by
  subst hset
  exact ⟨_, hfind, h.map set⟩

theorem SetsField.fieldText {m : String × (β → β)} {cs : List Char} (h : SetsField r m cs) :
    FieldText r m (memberText m.1 cs) := by
  obtain ⟨field, hfind, hread⟩ := h
  have hspace : Spaces [' '] := by simp [Spaces, isSpace]
  simpa [memberText] using
    FieldText.mk (writtenString_stringText m.1) spaces_nil hspace hfind hread

/-- A record is read from the members that it is written as. -/
theorem decodes_members (hoptional : ∀ field ∈ r.fields, field.required = false) (level : Nat)
    {members : List ((String × (β → β)) × List Char)} (h : ∀ m ∈ members, SetsField r m.1 m.2)
    (hkeys : (members.map fun m => m.1.1).Nodup) :
    Decodes r.decoder (setAll r.initial (members.map Prod.fst))
      (block level '\x7b' '\x7d' (members.map fun m => memberText m.1.1 m.2)) := by
  have helem : ∀ e ∈ members.map fun m => (m.1, memberText m.1.1 m.2), FieldText r e.1 e.2 := by
    intro e he
    obtain ⟨m, hm, rfl⟩ := List.mem_map.1 he
    exact (h m hm).fieldText
  obtain ⟨inside, hblock, hlisted⟩ := listed_block level '\x7b' '\x7d' helem
  simp only [List.map_map, Function.comp_def] at hblock hlisted
  rw [hblock]
  exact decodes_record hoptional hlisted (by simpa only [List.map_map, Function.comp_def])

end

end Folio.Json
