import Folio.Error
import Folio.Provider
import Folio.Url

/-!
# Endpoints

The address that a job sends its requests to: the configured base address, or the default of the
provider, with the chat path of the provider behind it.
-/

set_option autoImplicit false

namespace Folio

/-- Where a job sends its requests. -/
structure Endpoint where
  provider : Provider
  /-- The base address as configured, without slashes at its end. -/
  baseUrl : String
  url : Url
deriving DecidableEq, Repr

namespace Endpoint

/-- The base address in use: blank means the default of the provider. -/
def baseFor (provider : Provider) (configured : String) : String :=
  let base := (Text.nonBlank? configured).getD provider.defaultBaseUrl
  String.ofList (base.toList.reverse.dropWhile (· == '/')).reverse

/-- The endpoint for a configured base address. -/
def resolve (provider : Provider) (configured : String) : Except TranslationError Endpoint :=
  let baseUrl := baseFor provider configured
  match Url.parse (baseUrl ++ provider.chatPath) with
  | .ok url => .ok { provider, baseUrl, url }
  | .error fault => .error (.configuration s!"Invalid base URL '{baseUrl}': {fault.message}")

end Endpoint

end Folio
