import Folio.Language

/-!
# Font faces

The face that a text in a language is set in. Scripts with many characters of their own have faces
of their own; all other languages share a general one.
-/

set_option autoImplicit false

namespace Folio

/-- A font face, by the script that it covers. -/
inductive Face where
  | simplifiedChinese
  | japanese
  | korean
  | arabic
  | thai
  | general
deriving DecidableEq, Repr

namespace Face

/-- The face for the language of a tag. -/
def ofLanguage (tag : String) : Face :=
  match normalizedSubtag tag with
  | "zh" => .simplifiedChinese
  | "ja" => .japanese
  | "ko" => .korean
  | "ar" => .arabic
  | "th" => .thai
  | _ => .general

/-- The name of the file that holds a face. -/
def fileName : Face → String
  | .simplifiedChinese => "NotoSansSC-Regular.ttf"
  | .japanese => "NotoSansJP-Regular.ttf"
  | .korean => "malgun.ttf"
  | .arabic => "NotoSansArabic-Regular.ttf"
  | .thai => "NotoSansThai-Regular.ttf"
  | .general => "NotoSans-Regular.ttf"

end Face

end Folio
