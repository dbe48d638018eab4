import Folio.Pdf.Output
import Folio.Pdf.Reading
import Folio.Proofs.Lists
import Folio.Proofs.Pdf.ComesBack
import Folio.Proofs.Recording
import Folio.Proofs.Written

/-!
# The content stream of a page

What is drawn on a page is written line by line, one operation a line (`contentText_operations`). A
reader of content streams finds these operations again (`readContent_stream`), as long as the
decimals of the setup are read as the numbers that they stand for.
-/

set_option autoImplicit false

namespace Folio

open Pdf

namespace Pdf

/-! ## Numbers -/

/-- The number that bytes are read as, if they hold nothing else. -/
def readReal? (bytes : Bytes) : Option Float32 :=
  match readNumber bytes with
  | some (object, []) => object.number?
  | _ => none

/-- The decimal text of a number is read as the number. -/
def Legible (x : Float32) : Prop :=
  readReal? (asciiBytes (Binary32.text x).toList) = some x

instance (x : Float32) : Decidable (Legible x) := inferInstanceAs (Decidable (_ = _))

theorem Legible.exists {x : Float32} (h : Legible x) :
    ∃ object, readNumber (asciiBytes (Binary32.text x).toList) = some (object, []) ∧
      object.number? = some x := by
  unfold Legible readReal? at h
  split at h
  · rename_i object hread
    exact ⟨object, hread, h⟩
  · cases h

section
variable {bytes : Bytes} (rest : Bytes)

theorem span_append {p : UInt8 → Bool} {stop : UInt8} (hstop : p stop = false) (bytes : Bytes) :
    (bytes ++ stop :: rest).span p = ((bytes.span p).1, (bytes.span p).2 ++ stop :: rest) := by
  simp only [List.span_eq_takeWhile_dropWhile]
  induction bytes with
  | nil => simp [hstop]
  | cons byte bytes ih =>
    rw [Prod.mk.injEq] at ih
    cases hbyte : p byte with
    | true => simp [hbyte, ih]
    | false => simp [hbyte]

theorem readNatural_append {n : Nat} {after : Bytes} (h : readNatural bytes = some (n, after)) :
    readNatural (bytes ++ 0x20 :: rest) = some (n, after ++ 0x20 :: rest) := by
  unfold readNatural at h ⊢
  rw [span_append rest (by decide)]
  rcases hspan : bytes.span isDigit with ⟨digits, left⟩
  rw [hspan] at h
  cases digits with
  | nil => cases h
  | cons digit digits =>
    cases h
    rfl

theorem readPoint?_append :
    readPoint? (bytes ++ 0x20 :: rest) =
      (readPoint? bytes).map fun (whole, fraction, after) =>
        (whole, fraction, after ++ 0x20 :: rest) := by
  unfold readPoint?
  rw [span_append rest (by decide)]
  rcases bytes.span isDigit with ⟨whole, _ | ⟨byte, more⟩⟩
  · rfl
  · by_cases hpoint : byte = 0x2E
    · subst hpoint
      simp only [List.cons_append, span_append rest (show isDigit 0x20 = false by decide)]
      split <;> rfl
    · simp [hpoint]

theorem readMinus_append (h : bytes ≠ []) :
    readMinus (bytes ++ rest) = ((readMinus bytes).1, (readMinus bytes).2 ++ rest) := by
  cases bytes with
  | nil => exact absurd rfl h
  | cons byte bytes =>
    rw [List.cons_append]
    unfold readMinus
    split
    · rename_i heq
      cases heq
      rfl
    · rename_i heq
      cases heq
      rfl
    · rename_i hminus hplus
      split
      · rename_i heq
        cases heq
        exact absurd rfl (hminus _)
      · rename_i heq
        cases heq
        exact absurd rfl (hplus _)
      · rfl

/-- A space ends a number. -/
theorem readNumber_append {object : Object} (h : readNumber bytes = some (object, [])) :
    readNumber (bytes ++ 0x20 :: rest) = some (object, 0x20 :: rest) := by
  have hne : bytes ≠ [] := by
    rintro rfl
    cases h
  unfold readNumber at h ⊢
  rw [readMinus_append _ hne]
  simp only [readPoint?_append] at h ⊢
  cases hpoint : readPoint? (readMinus bytes).2 with
  | some found =>
    obtain ⟨whole, fraction, after⟩ := found
    rw [hpoint] at h
    cases h
    rfl
  | none =>
    simp only [hpoint, Option.map_none] at h ⊢
    cases hnatural : readNatural (readMinus bytes).2 with
    | none => simp [hnatural] at h
    | some found =>
      obtain ⟨n, after⟩ := found
      rw [readNatural_append _ hnatural]
      simp only [hnatural, Option.bind_eq_bind, Option.bind_some] at h ⊢
      generalize (if (readMinus bytes).1 = true then -(n : Int) else n) = value at h ⊢
      by_cases hrange : -0x8000000000000000 ≤ value ∧ value < 0x8000000000000000
      · rw [if_pos hrange] at h ⊢
        cases h
        rfl
      · rw [if_neg hrange] at h
        cases h

end

/-! ## Operands -/

/-- Bytes begin with neither a space nor a comment. -/
def Begins (bytes : Bytes) : Prop :=
  ∃ byte rest, bytes = byte :: rest ∧ byte ∉ ([0x20, 0x09, 0x0A, 0x0D, 0x25] : Bytes)

section
variable {bytes : Bytes}

theorem Begins.skipContentSpace (h : Begins bytes) : skipContentSpace bytes = bytes := by
  obtain ⟨byte, rest, rfl, hbyte⟩ := h
  simp only [List.mem_cons, List.not_mem_nil, or_false, not_or] at hbyte
  refine List.dropWhile_cons_of_neg ?_
  simp [hbyte]

theorem Begins.skipComments (h : Begins bytes) (count : Nat) :
    skipComments count bytes = bytes := by
  obtain ⟨byte, rest, rfl, hbyte⟩ := h
  simp only [List.mem_cons, List.not_mem_nil, or_false, not_or] at hbyte
  cases count with
  | zero => rfl
  | succ count =>
    unfold Pdf.skipComments
    split
    · rename_i heq
      cases heq
      simp at hbyte
    · rfl

theorem Begins.append (h : Begins bytes) (more : Bytes) : Begins (bytes ++ more) := by
  obtain ⟨byte, rest, rfl, hbyte⟩ := h
  exact ⟨byte, rest ++ more, rfl, hbyte⟩

theorem begins_of_readOperand {fuel : Nat} {found : Object × Bytes}
    (h : readOperand fuel bytes = some found) : Begins bytes := by
  cases bytes with
  | nil => cases h
  | cons byte rest =>
    refine ⟨byte, rest, rfl, fun hmem => ?_⟩
    simp only [List.mem_cons, List.not_mem_nil, or_false] at hmem
    rcases hmem with rfl | rfl | rfl | rfl | rfl <;> cases h

theorem skipWord?_of_readNumber {found : Object × Bytes} (h : readNumber bytes = some found)
    {word : String} (hword : ∀ rest, readNumber (asciiBytes word.toList ++ rest) = none) :
    skipWord? word bytes = none := by
  unfold skipWord?
  refine if_neg fun hprefix => ?_
  obtain ⟨rest, rfl⟩ := List.isPrefixOf_iff_prefix.1 hprefix
  cases (hword rest).symm.trans h

theorem readOperand_of_readName {rest : Bytes} {name : String} {after : Bytes}
    (h : readName (0x2F :: rest) = some (name, after)) (fuel : Nat) :
    readOperand fuel (0x2F :: rest) = some (.name name, after) := by
  have hnull : skipWord? "null" (0x2F :: rest) = none := rfl
  have htrue : skipWord? "true" (0x2F :: rest) = none := rfl
  have hfalse : skipWord? "false" (0x2F :: rest) = none := rfl
  have hnumber : readNumber (0x2F :: rest) = none := rfl
  show readAtom (0x2F :: rest) = _
  simp only [readAtom, firstOf, hnull, htrue, hfalse, hnumber, h, Option.map_none, Option.map_some]

theorem readOperand_of_readHexString {rest text after : Bytes}
    (h : readHexString (0x3C :: rest) = some (text, after)) (fuel : Nat) :
    readOperand fuel (0x3C :: rest) = some (.hexString text, after) := by
  have hnull : skipWord? "null" (0x3C :: rest) = none := rfl
  have htrue : skipWord? "true" (0x3C :: rest) = none := rfl
  have hfalse : skipWord? "false" (0x3C :: rest) = none := rfl
  have hnumber : readNumber (0x3C :: rest) = none := rfl
  have hname : readName (0x3C :: rest) = none := rfl
  have hstring : readString (0x3C :: rest) = none := rfl
  have hatom : readAtom (0x3C :: rest) = some (.hexString text, after) := by
    simp only [readAtom, firstOf, hnull, htrue, hfalse, hnumber, hname, hstring, h,
      Option.map_none, Option.map_some]
  unfold readOperand
  split
  · rename_i heq
    cases heq
  · rename_i heq
    cases heq
    cases h
  · exact hatom

theorem readOperand_of_readNumber {found : Object × Bytes} (h : readNumber bytes = some found)
    (fuel : Nat) : readOperand fuel bytes = some found := by
  have hnull : skipWord? "null" bytes = none := skipWord?_of_readNumber h fun _ => rfl
  have htrue : skipWord? "true" bytes = none := skipWord?_of_readNumber h fun _ => rfl
  have hfalse : skipWord? "false" bytes = none := skipWord?_of_readNumber h fun _ => rfl
  have hatom : readAtom bytes = some found := by
    simp only [readAtom, firstOf, hnull, htrue, hfalse, Option.map_none, h]
  unfold readOperand
  split
  · cases h
  · cases h
  · exact hatom

end

/-- An operand that was written before a space is found as another. -/
structure IsOperand (written found : Object) : Prop where
  same : written.comesBackAs found
  read : ∀ (fuel : Nat) (rest : Bytes),
    readOperand fuel (written.text ++ 0x20 :: rest) = some (found, 0x20 :: rest)

theorem Legible.isOperand {x : Float32} (h : Legible x) : ∃ found, IsOperand (.real x) found := by
  obtain ⟨found, hread, hvalue⟩ := h.exists
  refine ⟨found, by simpa [Object.comesBackAs] using hvalue, fun fuel rest => ?_⟩
  rw [Object.text]
  exact readOperand_of_readNumber (readNumber_append rest hread) fuel

theorem isOperand_fontResource :
    IsOperand (.name Output.fontResource) (.name Output.fontResource) where
  same := by decide
  read fuel rest := by
    have htext : (Object.name Output.fontResource).text = [0x2F, 0x46, 0x31] := by decide +kernel
    have hname : nameOfBytes [0x46, 0x31] = Output.fontResource := by decide +kernel
    have hbytes : readNameBytes (0x46 :: 0x31 :: 0x20 :: rest) = ([0x46, 0x31], 0x20 :: rest) := by
      rcases rest with _ | ⟨next, _ | ⟨last, rest⟩⟩ <;> rfl
    have hread : readName (0x2F :: 0x46 :: 0x31 :: 0x20 :: rest) =
        some (Output.fontResource, 0x20 :: rest) := by
      rw [readName, hbytes]
      simp only [hname]
    rw [htext]
    exact readOperand_of_readName hread fuel

theorem asciiBytes_hexByte (byte : UInt8) :
    asciiBytes (Text.hexUpper 2 byte.toNat) =
      [UnicodeMap.hexByte (byte.toNat / 16), UnicodeMap.hexByte (byte.toNat % 16)] := by
  have hlt : byte.toNat < 256 := byte.toNat_lt
  rw [Text.hexUpper_succ (by decide), Text.hexUpper, Nat.toDigits_of_lt_base (by omega)]
  rfl

theorem readHexValues_text (bytes rest : Bytes) :
    readHexValues (asciiBytes (bytes.flatMap fun byte => Text.hexUpper 2 byte.toNat) ++
        0x3E :: rest) =
      some (bytes.flatMap fun byte => [byte.toNat / 16, byte.toNat % 16], rest) := by
  induction bytes with
  | nil => rfl
  | cons byte bytes ih =>
    have hlt : byte.toNat < 256 := byte.toNat_lt
    obtain ⟨hhigh, hhigh', hhigh''⟩ := UnicodeMap.hexByte_spec (k := byte.toNat / 16) (by omega)
    obtain ⟨hlow, hlow', hlow''⟩ := UnicodeMap.hexByte_spec (k := byte.toNat % 16) (by omega)
    rw [List.flatMap_cons, asciiBytes_append, asciiBytes_hexByte, List.append_assoc]
    simp only [List.cons_append, List.nil_append, readHexValues, hhigh, hhigh', hhigh'', hlow,
      hlow', hlow'', ih]
    rfl

theorem ofHexValues_halves (bytes : Bytes) :
    ofHexValues (bytes.flatMap fun byte => [byte.toNat / 16, byte.toNat % 16]) = bytes := by
  induction bytes with
  | nil => rfl
  | cons byte bytes ih =>
    rw [List.flatMap_cons, List.cons_append, List.cons_append, List.nil_append, ofHexValues, ih]
    rw [Nat.div_add_mod', UInt8.ofNat_toNat]

theorem isOperand_hexString (bytes : Bytes) : IsOperand (.hexString bytes) (.hexString bytes) where
  same := by simp [Object.comesBackAs]
  read fuel rest := by
    have htext : (Object.hexString bytes).text =
        0x3C :: (asciiBytes (bytes.flatMap fun byte => Text.hexUpper 2 byte.toNat) ++ [0x3E]) := by
      rw [Object.text, hexText, List.cons_append, asciiBytes_cons, asciiBytes_append]
      rfl
    have hread : readHexString ((Object.hexString bytes).text ++ 0x20 :: rest) =
        some (bytes, 0x20 :: rest) := by
      rw [htext, List.cons_append, List.append_assoc, readHexString]
      simp only [List.singleton_append, readHexValues_text, Option.map_some, ofHexValues_halves]
    rw [htext] at hread ⊢
    exact readOperand_of_readHexString hread fuel

/-! ## Operations -/

/-- A word is read as an operator wherever it is followed by something else. -/
structure IsOperator (name : String) : Prop where
  refused : ∀ (fuel : Nat) (rest : Bytes), readOperand fuel (asciiBytes name.toList ++ rest) = none
  letters : ∀ byte ∈ asciiBytes name.toList, isOperatorByte byte = true
  begins : Begins (asciiBytes name.toList)
  named : String.ofList (latinChars (asciiBytes name.toList)) = name

/-- The operators of a page. -/
theorem isOperator_of_mem {name : String}
    (h : name ∈ ["BT", "Tf", "TL", "Td", "Tj", "T*", "ET"]) : IsOperator name := by
  simp only [List.mem_cons, List.not_mem_nil, or_false] at h
  rcases h with rfl | rfl | rfl | rfl | rfl | rfl | rfl <;>
    exact ⟨fun _ _ => rfl, by decide +kernel, ⟨_, _, rfl, by decide⟩, by decide +kernel⟩

/-- Whether an operation that was written may be found as another. -/
def Operation.comesBackAs (written found : Operation) : Bool :=
  written.operator == found.operator && Object.itemsComeBack written.operands found.operands

/-- Operations that were written are found again, one by one. -/
def OperationsComeBack (written found : List Operation) : Prop :=
  List.Forall₂ (fun a b => a.comesBackAs b) written found

/-- An operation that was written is found as another. -/
structure Operation.IsRead (written found : Operation) : Prop where
  operator : found.operator = written.operator
  spelled : IsOperator written.operator
  operands : List.Forall₂ IsOperand written.operands found.operands
  few : found.operands.length < 3

theorem itemsComeBack_of_isOperand {written found : List Object}
    (h : List.Forall₂ IsOperand written found) : Object.itemsComeBack written found := by
  induction h with
  | nil => rfl
  | cons h hs ih => rw [Object.itemsComeBack, h.same, ih, Bool.and_self]

theorem Operation.IsRead.comesBackAs {written found : Operation} (h : written.IsRead found) :
    written.comesBackAs found := by
  rw [Operation.comesBackAs, h.operator, beq_self_eq_true, Bool.true_and]
  exact itemsComeBack_of_isOperand h.operands

/-- The operands in front of an operator. -/
def operandsText (operands : List Object) : Bytes :=
  operands.flatMap fun operand => operand.text ++ asciiBytes [' ']

theorem operandsText_cons (operand : Object) (operands : List Object) (rest : Bytes) :
    operandsText (operand :: operands) ++ rest =
      operand.text ++ 0x20 :: (operandsText operands ++ rest) := by
  simp [operandsText, asciiBytes]

theorem begins_operandsText {written found : List Object}
    (h : List.Forall₂ IsOperand written found) {rest : Bytes} (hrest : Begins rest) :
    Begins (operandsText written ++ rest) := by
  cases h with
  | nil => exact hrest
  | cons h hs =>
    rw [operandsText_cons]
    exact begins_of_readOperand (h.read 0 _)

theorem readOperandsFrom_text {written found : List Object}
    (h : List.Forall₂ IsOperand written found) (fuel : Nat) {count : Nat}
    (hcount : written.length < count) {rest : Bytes} (hrest : readOperand fuel rest = none)
    (hbegins : Begins rest) :
    readOperandsFrom fuel count (operandsText written ++ rest) = (found, rest) := by
  induction h generalizing count with
  | nil =>
    obtain ⟨count, rfl⟩ : ∃ k, count = k + 1 := ⟨count - 1, by omega⟩
    show readOperandsFrom fuel (count + 1) rest = ([], rest)
    rw [readOperandsFrom, hrest]
  | cons h hs ih =>
    obtain ⟨count, rfl⟩ : ∃ k, count = k + 1 := ⟨count - 1, by omega⟩
    have hspace (bytes : Bytes) (hb : Begins bytes) : skipContentSpace (0x20 :: bytes) = bytes :=
      hb.skipContentSpace
    rw [operandsText_cons, readOperandsFrom, h.read]
    simp only [hspace _ (begins_operandsText hs hbegins)]
    rw [ih (by simpa using hcount)]

/-- An operation is read up to its operator. -/
theorem readOperationsFrom_text {written found : Operation} (h : written.IsRead found)
    {fuel : Nat} (hfuel : 2 < fuel) (count : Nat) {after : Bytes}
    (hafter : ∀ byte ∈ after.head?, isOperatorByte byte = false) :
    readOperationsFrom fuel (count + 1) (written.text ++ after) =
      found :: readOperationsFrom fuel count (skipContentSpace after) := by
  have htext : written.text ++ after = operandsText written.operands ++
      (asciiBytes written.operator.toList ++ after) := List.append_assoc _ _ _
  -- the operator ends where no byte of an operator follows
  have hspan : (asciiBytes written.operator.toList ++ after).span isOperatorByte =
      (asciiBytes written.operator.toList, after) := by
    have hall := List.takeWhile_eq_self_iff.2 h.spelled.letters
    have hnone := List.dropWhile_eq_nil_iff.2 h.spelled.letters
    cases after with
    | nil => rw [List.append_nil, List.span_eq_takeWhile_dropWhile, hall, hnone]
    | cons byte after =>
      rw [span_append _ (hafter byte rfl), List.span_eq_takeWhile_dropWhile, hall, hnone]
      rfl
  have hbegins : Begins (asciiBytes written.operator.toList ++ after) :=
    h.spelled.begins.append after
  have hfew : written.operands.length < 3 := h.operands.length_eq ▸ h.few
  rw [htext, readOperationsFrom, (begins_operandsText h.operands hbegins).skipComments,
    readOperandsFrom_text h.operands fuel (by omega) (h.spelled.refused fuel after) hbegins]
  simp only [hspan]
  obtain ⟨byte, rest, hname, -⟩ := h.spelled.begins
  have hnamed := h.spelled.named
  rw [hname] at hnamed ⊢
  obtain ⟨operator, operands⟩ := found
  obtain rfl : operator = written.operator := h.operator
  simp only [hnamed]

theorem Operation.IsRead.begins {written found : Operation} (h : written.IsRead found) :
    Begins written.text :=
  begins_operandsText h.operands h.spelled.begins

theorem contentText_cons_cons (operation next : Operation) (others : List Operation) :
    contentText (operation :: next :: others) =
      operation.text ++ 0x0A :: contentText (next :: others) := by
  simp [contentText, asciiBytes]

theorem begins_contentText {written : Operation} {others : List Operation}
    (h : Begins written.text) : Begins (contentText (written :: others)) := by
  cases others with
  | nil => exact h
  | cons other others => exact (h.append _).append _

theorem readOperationsFrom_nil (fuel count : Nat) : readOperationsFrom fuel count [] = [] := by
  cases count with
  | zero => rfl
  | succ count =>
    cases fuel with
    | zero => rfl
    | succ fuel => rfl

theorem readOperationsFrom_contentText {written found : List Operation}
    (h : List.Forall₂ Operation.IsRead written found) {fuel : Nat} (hfuel : 2 < fuel) {count : Nat}
    (hcount : written.length ≤ count) :
    readOperationsFrom fuel count (contentText written) = found := by
  induction h generalizing count with
  | nil => exact readOperationsFrom_nil fuel count
  | cons hread hreads ih =>
    obtain ⟨count, rfl⟩ : ∃ k, count = k + 1 := Nat.exists_eq_succ_of_ne_zero (by
      rintro rfl
      cases hcount)
    cases hreads with
    | nil =>
      have hend : ∀ byte ∈ ([] : Bytes).head?, isOperatorByte byte = false := by simp
      have hlast := readOperationsFrom_text hread hfuel count hend
      rw [List.append_nil, show skipContentSpace [] = [] from rfl, readOperationsFrom_nil] at hlast
      exact hlast
    | @cons next _ others _ hnext hreads =>
      have hspace : skipContentSpace (0x0A :: contentText (next :: others)) =
          contentText (next :: others) :=
        (begins_contentText hnext.begins).skipContentSpace
      have hfeed : ∀ byte ∈ (0x0A :: contentText (next :: others)).head?,
          isOperatorByte byte = false := by simp [isOperatorByte]
      have hstep := readOperationsFrom_text hread hfuel count hfeed
      rwa [hspace, ih (Nat.le_of_succ_le_succ hcount), ← contentText_cons_cons] at hstep

theorem length_le_contentText {written found : List Operation}
    (h : List.Forall₂ Operation.IsRead written found) :
    written.length ≤ (contentText written).length := by
  induction h with
  | nil => exact Nat.le_refl 0
  | cons hread hreads ih =>
    obtain ⟨byte, rest, htext, -⟩ := hread.begins
    cases hreads with
    | nil => simp [contentText, htext]
    | cons =>
      rw [contentText_cons_cons, htext]
      simp only [List.length_append, List.length_cons] at ih ⊢
      omega

/-- Operations that are written one a line are read as they were written. -/
theorem readContent_contentText {written found : List Operation}
    (h : List.Forall₂ Operation.IsRead written found) :
    readContent (contentText written) = found := by
  have hcount := length_le_contentText h
  cases h with
  | nil => rfl
  | cons hread hreads =>
    have hfuel : 2 < objectFuel (contentText _) :=
      Nat.lt_of_lt_of_le (by decide : 2 < 2 * 1 + 2)
        (Nat.add_le_add_right (Nat.mul_le_mul_left 2 (Nat.le_trans (by simp) hcount)) 2)
    rw [readContent, (begins_contentText hread.begins).skipContentSpace]
    exact readOperationsFrom_contentText (.cons hread hreads) hfuel hcount

/-- Operations are written as lines, each as it is spelled. -/
theorem contentText_eq {operations : List Operation} {lines : List String}
    (h : List.Forall₂ (fun operation line => operation.text = asciiBytes line.toList)
      operations lines) :
    contentText operations = asciiBytes ("\n".intercalate lines).toList := by
  rw [String.toList_intercalate]
  induction h with
  | nil => rfl
  | cons hline hlines ih =>
    cases hlines with
    | nil => simpa [contentText] using hline
    | cons =>
      rw [contentText_cons_cons, hline, ih]
      simp [asciiBytes]

end Pdf

/-! ## Pages -/

/-- The operation that draws a stroke. -/
def Stroke.operation (font : Font) : Stroke → Operation
  | .text line => .showText (font.encode line)
  | .lineBreak => .nextLine

/-- The line of a content stream that shows a text. -/
def showLine (font : Font) (line : Line) : String :=
  "<" ++ String.ofList ((font.encode line).flatMap fun byte => Text.hexUpper 2 byte.toNat) ++ "> Tj"

/-- The line of a content stream that draws a stroke. -/
def Stroke.streamLine (font : Font) : Stroke → String
  | .text line => showLine font line
  | .lineBreak => "T*"

/-- A setup is written in decimals that are read as the numbers that they stand for. -/
structure PageSetup.Legible (setup : PageSetup) : Prop where
  fontSize : Pdf.Legible setup.fontSize
  leading : Pdf.Legible setup.leading
  margin : Pdf.Legible setup.margin
  top : Pdf.Legible (setup.size.height - setup.margin)

/-- The lines of a content stream that a page begins with. -/
def PageSetup.streamLines (setup : PageSetup) : List String :=
  let top := setup.size.height - setup.margin
  ["BT",
    "/F1 " ++ Binary32.text setup.fontSize ++ " Tf",
    Binary32.text setup.leading ++ " TL",
    Binary32.text setup.margin ++ " " ++ Binary32.text top ++ " Td"]

namespace Sheet

/-- The operations of a page: a text block, with what is drawn behind its opening. -/
def operations (font : Font) (sheet : Sheet) : List Operation :=
  Output.opening sheet.setup ++ sheet.strokes.map (Stroke.operation font) ++ [.endText]

/-- The lines of the content stream of a page. -/
def streamLines (font : Font) (sheet : Sheet) : List String :=
  sheet.setup.streamLines ++ sheet.strokes.map (Stroke.streamLine font) ++ ["ET"]

/-- The content stream of a page. -/
def stream (font : Font) (sheet : Sheet) : Bytes :=
  asciiBytes ("\n".intercalate (sheet.streamLines font)).toList

theorem contentText_operations (font : Font) (sheet : Sheet) :
    Pdf.contentText (sheet.operations font) = sheet.stream font := by
  refine contentText_eq (List.rel_append (List.rel_append ?opening ?strokes) ?ending)
  case opening =>
    have hname : nameText Output.fontResource = asciiBytes ['/', 'F', '1'] := by decide +kernel
    refine .cons ?_ (.cons ?_ (.cons ?_ (.cons ?_ .nil)))
    · rfl
    · simp [Operation.text, Operation.selectFont, hname, Object.text, asciiBytes]
    · simp [Operation.text, Operation.setLeading, Object.text, asciiBytes]
    · simp [Operation.text, Operation.moveTo, Object.text, asciiBytes]
  case strokes =>
    rw [List.forall₂_map_left_iff, List.forall₂_map_right_iff]
    refine List.forall₂_same.2 fun stroke _ => ?_
    cases stroke with
    | text line =>
      simp [Stroke.operation, Stroke.streamLine, showLine, Operation.text, Operation.showText,
        Object.text, hexText, asciiBytes]
    | lineBreak => rfl
  case ending => exact .cons rfl .nil

/-- Every operation of a page with a legible setup is read. -/
theorem exists_isRead (font : Font) {sheet : Sheet} (h : sheet.setup.Legible) :
    ∀ operation ∈ sheet.operations font, ∃ found, Operation.IsRead operation found := by
  obtain ⟨size, hsize⟩ := h.fontSize.isOperand
  obtain ⟨leading, hleading⟩ := h.leading.isOperand
  obtain ⟨margin, hmargin⟩ := h.margin.isOperand
  obtain ⟨top, htop⟩ := h.top.isOperand
  have hoperator {name : String} (hname : name ∈ ["BT", "Tf", "TL", "Td", "Tj", "T*", "ET"]) :=
    isOperator_of_mem hname
  intro operation hmem
  simp only [operations, Output.opening, List.mem_append, List.mem_cons, List.mem_map,
    List.not_mem_nil, or_false] at hmem
  rcases hmem with ((rfl | rfl | rfl | rfl) | ⟨stroke, -, rfl⟩) | rfl
  · exact ⟨⟨"BT", []⟩, rfl, hoperator (by simp [Operation.beginText]), .nil, by simp⟩
  · exact ⟨⟨"Tf", [_, size]⟩, rfl, hoperator (by simp [Operation.selectFont]),
      .cons isOperand_fontResource (.cons hsize .nil), by simp⟩
  · exact ⟨⟨"TL", [leading]⟩, rfl, hoperator (by simp [Operation.setLeading]),
      .cons hleading .nil, by simp⟩
  · exact ⟨⟨"Td", [margin, top]⟩, rfl, hoperator (by simp [Operation.moveTo]),
      .cons hmargin (.cons htop .nil), by simp⟩
  · cases stroke with
    | text line =>
      exact ⟨⟨"Tj", [_]⟩, rfl, hoperator (by simp [Stroke.operation, Operation.showText]),
        .cons (isOperand_hexString _) .nil, by simp⟩
    | lineBreak =>
      exact ⟨⟨"T*", []⟩, rfl, hoperator (by simp [Stroke.operation, Operation.nextLine]), .nil,
        by simp⟩
  · exact ⟨⟨"ET", []⟩, rfl, hoperator (by simp [Operation.endText]), .nil, by simp⟩

/-- A reader finds the operations of the page in its content stream. -/
theorem readContent_stream (font : Font) {sheet : Sheet} (h : sheet.setup.Legible) :
    OperationsComeBack (sheet.operations font) (readContent (sheet.stream font)) := by
  obtain ⟨found, hread⟩ := exists_forall₂ (exists_isRead font h)
  rw [← contentText_operations, readContent_contentText hread]
  exact hread.imp fun written found hread => hread.comesBackAs

end Sheet

end Folio
