import Folio.Language.Table
import Folio.Text.Blank
import Folio.Text.Lowercase
import Folio.Text.Split

/-!
# Language tags

A tag such as `zh-Hans` is known by its first subtag. A code of three letters is brought to the code
of two letters of the same language, where there is one; the bibliographic codes of ISO 639-2 count
as the terminological ones.
-/

set_option autoImplicit false

namespace Folio

namespace Language

/-- Bibliographic codes that differ from the terminological code of the same language. -/
def bibliographic : List (String × String) := [
  ("fre", "fra"), ("ger", "deu"), ("dut", "nld"), ("gre", "ell"), ("chi", "zho"), ("cze", "ces"),
  ("ice", "isl"), ("alb", "sqi"), ("arm", "hye"), ("baq", "eus"), ("bur", "mya"), ("per", "fas"),
  ("geo", "kat"), ("may", "msa"), ("mac", "mkd"), ("rum", "ron"), ("slo", "slk"), ("wel", "cym")]

/-- The terminological code for a code of three letters. -/
def terminological (code : String) : String :=
  (bibliographic.lookup code).getD code

/-- The language with a given code of two or of three letters. -/
def ofCode? (code : String) : Option Language :=
  if code.utf8ByteSize = 2 then all.find? fun language => language.part1 == some code
  else if code.utf8ByteSize = 3 then
    let code := terminological code
    all.find? fun language => language.part3 == code
  else none

end Language

/-- What separates the subtags of a language tag. -/
def isSubtagSeparator (c : Char) : Bool :=
  c == '-' || c == '_'

/-- The first subtag of a language tag, in lower case. -/
def primarySubtag (tag : String) : String :=
  let text := Text.trim tag.toList
  String.ofList (Text.lowercase (text.takeWhile fun c => !isSubtagSeparator c))

/-- The first subtag of a language tag, as a code of two letters if the language has one. -/
def normalizedSubtag (tag : String) : String :=
  let primary := primarySubtag tag
  ((Language.ofCode? primary).bind Language.part1).getD primary

/-- The English name of the language of a tag. -/
def languageName? (tag : String) : Option String :=
  (Language.ofCode? (primarySubtag tag)).map Language.name

end Folio
