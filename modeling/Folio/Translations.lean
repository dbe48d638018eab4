import Folio.Error
import Folio.Json.Decode

/-!
# Translations

The translated texts of a document, by page number and in page order.
-/

set_option autoImplicit false

namespace Folio

/-- Translated text by page number, in page order. -/
structure Translations where
  entries : List (PageNumber × String)
deriving DecidableEq, Repr

namespace Translations

def empty : Translations := ⟨[]⟩

/-- Records the translation of a page in place of an earlier one. -/
def insert (translations : Translations) (number : PageNumber) (text : String) : Translations :=
  ⟨Sorted.insert number text translations.entries⟩

/-- Records translations one after the other. -/
def extend (translations : Translations) (entries : List (PageNumber × String)) : Translations :=
  entries.foldl (fun translations entry => translations.insert entry.1 entry.2) translations

/-- The translation of a page. -/
def get? (translations : Translations) (number : PageNumber) : Option String :=
  translations.entries.lookup number

def size (translations : Translations) : Nat :=
  translations.entries.length

/-- The pages as an object under one key. -/
def toJson (translations : Translations) : Json.Value :=
  .ofEntries [("pages", .ofEntries (translations.entries.map fun (number, text) =>
    (number.toNat.repr, .string text)))]

/-- The form of translations in data. -/
def record : Json.Record Translations where
  name := "TranslationResult"
  initial := empty
  fields := [.needed "pages" (.keyed .nat32 .string) fun entries _ =>
    empty.extend (entries.map fun (n, text) => (UInt32.ofNat n, text))]

def decoder : Json.Decoder Translations := record.decoder

end Translations

end Folio
