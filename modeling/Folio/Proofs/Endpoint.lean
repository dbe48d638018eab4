import Folio.Endpoint
import Folio.Proofs.Url.Joining
import Mathlib.Tactic.Common

/-!
# Whom an endpoint asks

An endpoint asks the server of the base address it was configured with, at the chat path below the
path of the base (`resolve_below`). That is so for the base addresses that a path can be written
behind. The path is put behind the text of the base before either is read: behind a bare scheme it
is read as a host (`resolve_bare_scheme`), behind a query as part of the query.
-/

set_option autoImplicit false

namespace Folio

namespace Provider

/-- The segments of the chat path. -/
def chatSegments : Provider → List (List Char)
  | .openAi => ["chat".toList, "completions".toList]
  | .ollama => ["api".toList, "chat".toList]

theorem written_chatSegments (provider : Provider) :
    Url.written provider.chatSegments = provider.chatPath.toList := by
  cases provider with
  | openAi => decide
  | ollama => decide

theorem solid_chatSegments (provider : Provider) : Url.Solid provider.chatSegments := by
  cases provider with
  | openAi => exact ⟨by decide +kernel, _, _, _, rfl⟩
  | ollama => exact ⟨by decide +kernel, _, _, _, rfl⟩

end Provider

namespace Endpoint

theorem baseFor_content (provider : Provider) {configured : String}
    (h : Text.hasContent configured = true) :
    (baseFor provider configured).toList =
      Url.withoutSlashes (Text.trim configured.toList) := by
  rw [baseFor, Text.nonBlank?, if_pos h]
  simp [Text.trimmed, Url.withoutSlashes]

/-- Where a chat address can be made from a configured one that a path can follow, it is the
configured address with the path of the provider behind its own. -/
theorem resolve_below (provider : Provider) (configured : String) (endpoint : Endpoint)
    (hcontent : Text.hasContent configured = true)
    (hbase : Url.Joinable (Text.trim configured.toList))
    (h : resolve provider configured = .ok endpoint) :
    ∃ base slashed, Url.parse (Text.trimmed configured) = .ok base ∧
      Url.parseChars (Url.withoutSlashes (Text.trim configured.toList) ++ ['/']) = .ok slashed ∧
      Url.Below base slashed provider.chatPath.toList endpoint.url := by
  unfold resolve at h
  cases hparse : Url.parse (baseFor provider configured ++ provider.chatPath) with
  | error fault => simp [hparse] at h
  | ok url =>
    simp only [hparse, Except.ok.injEq] at h
    subst h
    rw [Url.parse, String.toList_append, baseFor_content provider hcontent,
      ← provider.written_chatSegments] at hparse
    obtain ⟨base, slashed, hread, hslashed, hbelow⟩ :=
      Url.parseChars_below hbase provider.solid_chatSegments hparse
    rw [provider.written_chatSegments] at hbelow
    refine ⟨base, slashed, ?_, hslashed, hbelow⟩
    rw [Url.parse, Text.trimmed, String.toList_ofList, hread]

/-- A host with a port, with blanks around the address and two slashes at its end. -/
theorem resolve_below_port :
    ∃ base slashed, Url.parse (Text.trimmed " http://gpu-box:11434// ") = .ok base ∧
      Url.parseChars (Url.withoutSlashes (Text.trim " http://gpu-box:11434// ".toList) ++ ['/']) =
        .ok slashed ∧
      Url.Below base slashed Provider.ollama.chatPath.toList
        ⟨"http".toList, some ⟨[], [], .domain "gpu-box".toList, some 11434⟩,
          .rooted ["api".toList, "chat".toList], none, none⟩ :=
  resolve_below .ollama " http://gpu-box:11434// " ⟨.ollama, "http://gpu-box:11434", _⟩
    (by decide +kernel) (by decide +kernel) (by decide +kernel)

/-- A bare scheme is no address, and the chat path behind it is read as a host. -/
theorem resolve_bare_scheme :
    resolve .openAi "http://" =
        .ok ⟨.openAi, "http:", ⟨"http".toList,
          some ⟨[], [], .domain "chat".toList, none⟩, .rooted ["completions".toList], none, none⟩⟩ ∧
      Url.parse "http://" = .error .emptyHost := by
  constructor
  · decide +kernel
  · decide +kernel

end Endpoint

end Folio
