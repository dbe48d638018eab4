import Folio.Proofs.Json.Text
import Folio.Proofs.Splitting
import Folio.Reply

/-!
# Bare and fenced texts

A text of an object comes out of `Reply.clean` as it is, whether it was sent bare or in a fence, and
whatever blanks stand around it (`clean_wrapped`). What the text holds inside, backticks included,
plays no part: the search for the closing fence starts at the end, and the last character of an
object closes it. Nor does what follows the closing fence, as long as it holds no backtick
(`fence_transparent`).
-/

set_option autoImplicit false

namespace Folio

namespace Reply

open Text

/-! ## Cleaning -/

/-- The ways to send a text: bare, or in a fence whose opening line may go on behind the backticks.
Blanks may stand at all ends, so that the closing fence may have a line of its own. -/
inductive Wrapped (text : List Char) : List Char → Prop
  | bare {ws ws' : List Char} : Blanks ws → Blanks ws' → Wrapped text (ws ++ text ++ ws')
  | fenced {ws info inner inner' ws' : List Char} : Blanks ws → '\n' ∉ info → Blanks inner →
      Blanks inner' → Blanks ws' →
      Wrapped text
        (ws ++ (fence ++ info ++ '\n' :: (inner ++ text ++ inner' ++ fence)) ++ ws')

/-- A text between the braces of an object. -/
def Braced (text : List Char) : Prop := ∃ body, text = '\x7b' :: body ++ ['\x7d']

theorem Braced.tight {text : List Char} (h : Braced text) : Tight text := by
  obtain ⟨body, rfl⟩ := h
  exact ⟨⟨_, _, rfl, by decide⟩, ⟨_, _, rfl, by decide⟩⟩

/-- A text of an object stands between braces. -/
theorem braced_of_isText {members : Json.Members} {text : List Char}
    (h : Json.IsText (.object members) text) : Braced text := by
  generalize hv : Json.Value.object members = v at h
  rcases h with h | h
  · cases h <;> cases hv
  · cases h with
    | array => cases hv
    | object => exact ⟨_, rfl⟩

/-- The object before a fence is closed by it, on the same line or on the next. -/
theorem closes_braced {text inner : List Char} (h : Braced text) (hi : Blanks inner)
    (before : List Char) : closes (before ++ text ++ inner).reverse = true := by
  obtain ⟨body, rfl⟩ := h
  have hlast : (before ++ ('\x7b' :: body ++ ['\x7d']) ++ inner).reverse.dropWhile isBlank =
      '\x7d' :: (before ++ '\x7b' :: body).reverse := by
    rw [List.reverse_append, ← List.append_assoc before, List.reverse_append,
      List.reverse_singleton, List.singleton_append, dropWhile_blanks hi.reverse (by decide)]
  unfold closes
  split
  · rfl
  · rw [hlast]
    rfl

/-- Without a backtick there is nothing to stop at. -/
theorem beforeFence_append {tail : List Char} (h : '`' ∉ tail) (cs : List Char) :
    beforeFence 0 (tail ++ cs) = beforeFence 0 cs := by
  induction tail with
  | nil => rfl
  | cons c tail ih =>
    simp only [List.mem_cons, not_or] at h
    have hfence : fence.isPrefixOf (c :: (tail ++ cs)) = false := by
      simp [fence, List.isPrefixOf, h.1]
    rw [List.cons_append, beforeFence, hfence, if_neg Bool.false_ne_true, ih h.2]

theorem beforeFence_fence {before after : List Char} (h : closes before.reverse = true)
    (ha : '`' ∉ after) :
    beforeFence 0 (before ++ fence ++ after).reverse = some before.reverse := by
  rw [List.reverse_append, beforeFence_append (by simpa using ha), List.reverse_append]
  simp [fence, beforeFence, h]

theorem afterOpening_fence {info body : List Char} (h : '\n' ∉ info) :
    afterOpening (fence ++ info ++ '\n' :: body) = body := by
  have hd : (fence ++ info ++ '\n' :: body).dropWhile (· != '\n') = '\n' :: body := by
    rw [List.dropWhile_append_of_pos]
    · simp
    · intro c hc
      rcases List.mem_append.1 hc with hc | hc
      · simp only [fence, List.mem_cons, List.not_mem_nil, or_false, or_self] at hc
        subst hc
        decide
      · exact bne_iff_ne.2 fun he => h (he ▸ hc)
  rw [afterOpening, hd]

/-- The ways to put a text in a fence that is closed: behind a line that opens it, or on one line.
Behind the closing fence there may be anything but backticks. -/
inductive Fenced (text : List Char) : List Char → Prop
  | lined {ws info inner inner' after : List Char} : Blanks ws → '\n' ∉ info → Blanks inner →
      Blanks inner' → '`' ∉ after →
      Fenced text
        (ws ++ fence ++ info ++ '\n' :: (inner ++ text ++ inner' ++ fence ++ after))
  | inline {ws inner' after : List Char} : Blanks ws → Blanks inner' → '`' ∉ after →
      '\n' ∉ text → '\n' ∉ inner' → '\n' ∉ after →
      Fenced text (ws ++ fence ++ text ++ inner' ++ fence ++ after)

/-- Of a text behind blanks that begins and ends with a fence, trimming leaves what is between. -/
theorem trim_fence {ws : List Char} (hw : Blanks ws) (between after : List Char) :
    trim (ws ++ fence ++ between ++ fence ++ after) =
      fence ++ between ++ fence ++ trimEnd after := by
  have hsplit : ws ++ fence ++ between ++ fence ++ after =
      ws ++ '`' :: ((['`', '`'] ++ between ++ ['`', '`']) ++ '`' :: after) := by simp [fence]
  have hstart : trimStart (ws ++ fence ++ between ++ fence ++ after) =
      ('`' :: (['`', '`'] ++ between ++ ['`', '`'])) ++ '`' :: after := by
    rw [hsplit, trimStart, dropWhile_blanks hw (by decide)]
    simp
  rw [trim, hstart, trimEnd_append (by decide)]
  simp [fence]

/-- The content of a fence that is opened comes out if the search stops at the fence behind it. -/
theorem clean_closed {text content inner inner' after : List Char} (h : Braced text)
    (hopen : fence.isPrefixOf (trim content) = true)
    (hbody : afterOpening (trim content) = inner ++ text ++ inner' ++ fence ++ after)
    (hi : Blanks inner) (hi' : Blanks inner') (ha : '`' ∉ after) : clean content = text := by
  have hne : (trim content).isEmpty = false := by
    cases ht : trim content with
    | nil =>
      rw [ht] at hopen
      cases hopen
    | cons => rfl
  have hbefore := beforeFence_fence (closes_braced h hi' inner) ha
  simp only [clean, hne, hopen, hbody, hbefore, Bool.false_eq_true, ↓reduceIte,
    List.reverse_reverse, trim_blanks hi hi' h.tight]

/-- In a fence that is closed, a text between braces comes out as it is. -/
theorem clean_fenced {text content : List Char} (h : Braced text) (hf : Fenced text content) :
    clean content = text := by
  cases hf with
  | @lined ws info inner inner' after hws hinfo hi hi' ha =>
    have htrim :
        trim (ws ++ fence ++ info ++ '\n' :: (inner ++ text ++ inner' ++ fence ++ after)) =
          fence ++ info ++ '\n' :: (inner ++ text ++ inner' ++ fence ++ trimEnd after) := by
      simpa using trim_fence hws (info ++ '\n' :: (inner ++ text ++ inner')) after
    have hticks : '`' ∉ trimEnd after := mt mem_of_mem_trimEnd ha
    refine clean_closed h ?_ ?_ hi hi' hticks
    · rw [htrim]
      simp [fence]
    · rw [htrim, afterOpening_fence hinfo]
  | @inline ws inner' after hws hi' ha hn hn' hna =>
    have htrim : trim (ws ++ fence ++ text ++ inner' ++ fence ++ after) =
        fence ++ (text ++ inner' ++ fence ++ trimEnd after) := by
      simpa using trim_fence hws (text ++ inner') after
    have hline : '\n' ∉ fence ++ (text ++ inner' ++ fence ++ trimEnd after) := by
      have hna' := mt mem_of_mem_trimEnd hna
      simp [fence, hn, hn', hna']
    have hbody : afterOpening (fence ++ (text ++ inner' ++ fence ++ trimEnd after)) =
        text ++ inner' ++ fence ++ trimEnd after := by
      obtain ⟨body, rfl⟩ := h
      have hnone : ∀ c ∈ fence ++ ('\x7b' :: body ++ ['\x7d'] ++ inner' ++ fence ++ trimEnd after),
          (c != '\n') = true := fun c hc => bne_iff_ne.2 fun he => hline (he ▸ hc)
      rw [afterOpening, List.dropWhile_eq_nil_iff.2 hnone]
      simp [fence]
    have hnone : Blanks [] := by decide
    have hticks : '`' ∉ trimEnd after := mt mem_of_mem_trimEnd ha
    refine clean_closed h ?_ ?_ hnone hi' hticks
    · rw [htrim]
      simp [fence]
    · rw [htrim, hbody, List.nil_append]

/-- Bare, a text between braces comes out as it is. -/
theorem clean_bare {text ws ws' : List Char} (h : Braced text) (hw : Blanks ws) (hw' : Blanks ws') :
    clean (ws ++ text ++ ws') = text := by
  have htrim := trim_blanks hw hw' h.tight
  obtain ⟨body, rfl⟩ := h
  rw [clean, htrim]
  rfl

/-- Bare or fenced, a text of an object comes out as it is. -/
theorem clean_wrapped {text content : List Char} (h : Braced text) (hw : Wrapped text content) :
    clean content = text := by
  cases hw with
  | bare hws hws' => exact clean_bare h hws hws'
  | @fenced ws info inner inner' ws' hws hinfo hi hi' hws' =>
    have hticks : '`' ∉ ws' := fun hmem => absurd (hws' _ hmem) (by decide)
    refine clean_fenced h ?_
    simpa using Fenced.lined hws hinfo hi hi' hticks

theorem cleaned_bare {text : List Char} (h : Braced text) :
    cleaned (String.ofList text) = String.ofList text := by
  have hnone : Blanks [] := by decide
  have hclean := clean_bare h hnone hnone
  rw [List.nil_append, List.append_nil] at hclean
  rw [cleaned, String.toList_ofList, hclean]

theorem translations_congr_cleaned {content other : String} (h : cleaned content = cleaned other)
    (chunk : Chunk) : translations content chunk = translations other chunk := by
  simp only [translations, object, h]

/-- A fence that is closed is not seen: cleaning takes it off, so that the reply comes to the same
as without it. -/
theorem fence_transparent {text content : List Char} (h : Braced text) (hf : Fenced text content) :
    cleaned (String.ofList content) = String.ofList text ∧
      ∀ chunk, translations (String.ofList content) chunk =
        translations (String.ofList text) chunk := by
  have hfenced : cleaned (String.ofList content) = String.ofList text := by
    rw [cleaned, String.toList_ofList, clean_fenced h hf]
  exact ⟨hfenced, translations_congr_cleaned (hfenced.trans (cleaned_bare h).symm)⟩

/-- A text that quotes fences behind a brace and a bracket. -/
theorem fence_transparent_quoting :
    let text := "\x7b\"1\": \"a\x7d```\",\n\"2\": \"]```b\"\x7d".toList
    let content := " ```json `\n".toList ++ text ++ " ``` as asked:\n\x7d\n".toList
    Braced text ∧ Fenced text content ∧ cleaned (String.ofList content) = String.ofList text ∧
      translations (String.ofList content) [⟨1, "c"⟩, ⟨2, "d"⟩] =
        translations (String.ofList text) [⟨1, "c"⟩, ⟨2, "d"⟩] := by
  intro text content
  have hbraced : Braced text := ⟨"\"1\": \"a\x7d```\",\n\"2\": \"]```b\"".toList, by decide⟩
  have hfenced : Fenced text content := by
    have hcontent : content = " ".toList ++ fence ++ "json `".toList ++
        '\n' :: ([] ++ text ++ " ".toList ++ fence ++ " as asked:\n\x7d\n".toList) := by decide
    rw [hcontent]
    exact .lined (by decide) (by decide) (by decide) (by decide) (by decide)
  obtain ⟨hclean, hsame⟩ := fence_transparent hbraced hfenced
  exact ⟨hbraced, hfenced, hclean, hsame _⟩

end Reply

end Folio
