import Folio.Json.Printer
import Folio.Json.Reader

/-!
# The texts of a value

A value has many texts: blanks may stand around its tokens, a character of a string may be written
as itself or as an escape, and the members of an object may come in any order, where the last of
those with one key counts. `Written depth value text` says that `text` is one of them, starts and
ends with a token, and nests at most `depth` brackets. It is the grammar that a reader is measured
by, and is said without one.

Of the numbers only integers that fit a machine word are covered.
-/

set_option autoImplicit false

namespace Folio.Json

/-! ## Strings -/

/-- A number with one more hexadecimal digit behind it. -/
def hexStep (value : Option Nat) (c : Char) : Option Nat :=
  value.bind fun v => (hexValue? c).map (v * 16 + ·)

/-- The number that hexadecimal digits denote. -/
def hexNumber? (digits : List Char) : Option Nat := digits.foldl hexStep (some 0)

/-- The ways to write a character inside a string. -/
inductive Spelling : Char → List Char → Prop
  | plain {c : Char} : c ≠ '"' → c ≠ '\\' → 0x20 ≤ c.toNat → Spelling c [c]
  | letter {c e : Char} : escaped? e = some c → Spelling c ['\\', e]
  | unit {c : Char} {digits : List Char} : digits.length = 4 →
      hexNumber? digits = some c.toNat → Spelling c ('\\' :: 'u' :: digits)
  | pair {c : Char} {high low : List Char} {h l : Nat} : high.length = 4 → low.length = 4 →
      hexNumber? high = some h → hexNumber? low = some l → 0xD800 ≤ h → h ≤ 0xDBFF →
      0xDC00 ≤ l → l ≤ 0xDFFF → c.toNat = (h - 0xD800) * 0x400 + (l - 0xDC00) + 0x10000 →
      Spelling c ('\\' :: 'u' :: high ++ '\\' :: 'u' :: low)

/-- The second list spells the characters of the first one after the other. -/
inductive Spelled : List Char → List Char → Prop
  | nil : Spelled [] []
  | cons {c : Char} {cs w ws : List Char} : Spelling c w → Spelled cs ws →
      Spelled (c :: cs) (w ++ ws)

/-- The texts of a string: its characters spelled between quotes. -/
inductive WrittenString (text : String) : List Char → Prop
  | mk {body : List Char} : Spelled text.toList body → WrittenString text ('"' :: body ++ ['"'])

/-! ## Arrays and objects -/

/-- Blanks in any number. -/
def Spaces (ws : List Char) : Prop := ∀ c ∈ ws, isSpace c = true

theorem spaces_nil : Spaces [] := fun _ h => by cases h

/-- What follows one element of a list, up to its closing bracket. -/
inductive More {α : Type} (elem : α → List Char → Prop) : List α → List Char → Prop
  | nil {ws : List Char} : Spaces ws → More elem [] ws
  | cons {ws ws' cs rest : List Char} {x : α} {xs : List α} : Spaces ws → Spaces ws' →
      elem x cs → More elem xs rest → More elem (x :: xs) (ws ++ ',' :: ws' ++ cs ++ rest)

/-- What stands between the brackets of a list: its elements, separated by commas. -/
inductive Listed {α : Type} (elem : α → List Char → Prop) : List α → List Char → Prop
  | nil {ws : List Char} : Spaces ws → Listed elem [] ws
  | cons {ws cs rest : List Char} {x : α} {xs : List α} : Spaces ws → elem x cs →
      More elem xs rest → Listed elem (x :: xs) (ws ++ cs ++ rest)

section
variable (item : Value → List Char → Prop)

/-- A key, a colon and a value. -/
inductive Member : String × Value → List Char → Prop
  | mk {key : String} {v : Value} {k ws ws' cs : List Char} : WrittenString key k → Spaces ws →
      Spaces ws' → item v cs → Member (key, v) (k ++ ws ++ ':' :: ws' ++ cs)

/-- The texts of arrays and objects over the texts of what they hold. -/
inductive Compound : Value → List Char → Prop
  | array {vs : List Value} {cs : List Char} : Listed item vs cs →
      Compound (.array vs) ('[' :: cs ++ [']'])
  | object {ms : List (String × Value)} {cs : List Char} : Listed (Member item) ms cs →
      Compound (.ofEntries ms) ('\x7b' :: cs ++ ['\x7d'])

end

/-! ## Values -/

/-- The integers that fit a machine word, signed or not. -/
def IsWord (n : Int) : Prop := -0x8000000000000000 ≤ n ∧ n < 0x10000000000000000

/-- The texts of values without brackets. -/
inductive Scalar : Value → List Char → Prop
  | nullWord : Scalar .null "null".toList
  | trueWord : Scalar (.bool true) "true".toList
  | falseWord : Scalar (.bool false) "false".toList
  | integer {n : Int} : IsWord n → Scalar (.number (.integer n)) (integerText n)
  | string {text : String} {cs : List Char} : WrittenString text cs → Scalar (.string text) cs

/-- The texts of a value that nest at most `depth` brackets, without blanks around them. -/
def Written : Nat → Value → List Char → Prop
  | 0 => Scalar
  | depth + 1 => fun v cs => Scalar v cs ∨ Compound (Written depth) v cs

/-- The texts of a value, without blanks around them; so many brackets may be nested in a text. -/
def IsText : Value → List Char → Prop := Written 127

/-! ## Deeper nesting -/

theorem Listed.imp {α : Type} {p q : α → List Char → Prop} (h : ∀ x cs, p x cs → q x cs)
    {xs : List α} {cs : List Char} (hl : Listed p xs cs) : Listed q xs cs := by
  have more : ∀ {xs cs}, More p xs cs → More q xs cs := fun hm => by
    induction hm with
    | nil hw => exact .nil hw
    | cons hw hw' hx _ ih => exact .cons hw hw' (h _ _ hx) ih
  cases hl with
  | nil hw => exact .nil hw
  | cons hw hx hm => exact .cons hw (h _ _ hx) (more hm)

theorem Compound.imp {p q : Value → List Char → Prop} (h : ∀ v cs, p v cs → q v cs) {v : Value}
    {cs : List Char} (hc : Compound p v cs) : Compound q v cs := by
  cases hc with
  | array hl => exact .array (hl.imp h)
  | object hl =>
    exact .object (hl.imp fun _ _ ⟨hk, hw, hw', hv⟩ => ⟨hk, hw, hw', h _ _ hv⟩)

theorem Written.succ {depth : Nat} {v : Value} {cs : List Char} (h : Written depth v cs) :
    Written (depth + 1) v cs := by
  induction depth generalizing v cs with
  | zero => exact .inl h
  | succ depth ih => exact h.imp_right (Compound.imp fun _ _ => ih)

theorem Written.mono {d d' : Nat} (hd : d ≤ d') {v : Value} {cs : List Char}
    (h : Written d v cs) : Written d' v cs := by
  induction hd with
  | refl => exact h
  | step _ ih => exact ih.succ

end Folio.Json
