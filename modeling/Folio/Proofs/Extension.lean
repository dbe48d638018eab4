import Folio.Proofs.Endpoint

/-!
# Addresses that stay addresses

An address with nothing passed over at its end is still an address with the chat path of a provider
behind it (`parseChars_chat`), whatever stands in it. There is one exception: the mark of credentials
alone after the slashes of a scheme without rules of its own. Such a mark may end an address; with
something behind it a host is missing.
-/

set_option autoImplicit false

namespace Folio.Url

/-! ## Authorities -/

theorem splitLastAt_eq {text : List Char} (h : splitLastAt text = some ([], [])) :
    text = ['@'] := by
  unfold splitLastAt at h
  cases hdrop : text.reverse.dropWhile (· != '@') with
  | nil => simp [hdrop] at h
  | cons c before =>
    simp only [hdrop, Option.some.injEq, Prod.mk.injEq, List.reverse_eq_nil_iff] at h
    obtain ⟨hbefore, hafter⟩ := h
    have hat : c = '@' := by
      have hhead := List.head?_dropWhile_not (· != '@') text.reverse
      simpa [hdrop] using hhead
    have hsplit := List.takeWhile_append_dropWhile (p := (· != '@')) (l := text.reverse)
    rw [hdrop, hafter, hbefore, hat] at hsplit
    exact List.reverse_inj.1 hsplit.symm

theorem parseAuthority_followed {scheme text : List Char} {followed : Bool}
    {x : Authority × List Char} (h : parseAuthority scheme text followed = .ok x)
    (hmark : isSpecial scheme = false → followed = false → text ≠ ['@']) :
    parseAuthority scheme text true = .ok x := by
  cases followed with
  | true => exact h
  | false =>
    unfold parseAuthority at h ⊢
    cases hsplit : splitLastAt text with
    | none => rw [hsplit] at h; exact h
    | some parts =>
      obtain ⟨credentials, rest⟩ := parts
      cases credentials with
      | cons c cs => rw [hsplit] at h; exact h
      | nil =>
        cases rest with
        | cons c cs => simpa [hsplit] using h
        | nil =>
          cases hspecial : isSpecial scheme with
          | false => exact absurd (splitLastAt_eq hsplit) (hmark hspecial rfl)
          | true => simp [hsplit, hspecial, hostPart, bind, Except.bind] at h

theorem parseAfterSlashes_isOk {scheme text : List Char} :
    (∃ url, parseAfterSlashes scheme text = .ok url) ↔
      ∃ x, parseAuthority scheme (text.takeWhile (inName (isSpecial scheme)))
        (!(text.dropWhile (inName (isSpecial scheme))).isEmpty) = .ok x := by
  rw [parseAfterSlashes_eq]
  cases parseAuthority scheme (text.takeWhile (inName (isSpecial scheme)))
      (!(text.dropWhile (inName (isSpecial scheme))).isEmpty) with
  | error e => simp [Except.map]
  | ok x => simp [Except.map]

theorem parseAfterSlashes_longer {scheme text : List Char} {segments longer : List (List Char)}
    (hne : longer ≠ []) (hmark : isSpecial scheme = false → text ++ written segments ≠ ['@'])
    (h : ∃ url, parseAfterSlashes scheme (text ++ written segments) = .ok url) :
    ∃ url, parseAfterSlashes scheme (text ++ written longer) = .ok url := by
  obtain ⟨x, hx⟩ := parseAfterSlashes_isOk.1 h
  refine parseAfterSlashes_isOk.2 ⟨x, ?_⟩
  rw [takeWhile_behind (inName_written _ _), dropWhile_behind (inName_written _ _)] at hx ⊢
  have hfollowed :
      (text.dropWhile (inName (isSpecial scheme)) ++ written longer).isEmpty = false := by
    obtain ⟨s, rest, rfl⟩ := List.exists_cons_of_ne_nil hne
    simp
  rw [hfollowed]
  refine parseAuthority_followed hx fun hspecial hlast htake => hmark hspecial ?_
  simp only [Bool.not_eq_false', List.isEmpty_iff, List.append_eq_nil_iff] at hlast
  have hsplit := List.takeWhile_append_dropWhile (p := inName (isSpecial scheme)) (l := text)
  rw [htake, hlast.1, List.append_nil] at hsplit
  rw [hlast.2, List.append_nil, ← hsplit]

/-! ## Files -/

theorem parseFile_isOk {scheme text : List Char} :
    (∃ url, parseFile scheme text = .ok url) ↔ ∃ x, splitFile text = .ok x := by
  unfold parseFile
  cases splitFile text with
  | error e => simp [bind, Except.bind]
  | ok x => simp [bind, Except.bind]

theorem Splits.longer {text : List Char}
    {split : List (List Char) → Except Fault (Host × List Char)} (hsplits : Splits split text)
    {segments : List (List Char)} (h : ∃ x, split segments = .ok x) (longer : List (List Char)) :
    ∃ x, split longer = .ok x := by
  rcases hsplits with ⟨fault, hfault⟩ | ⟨host, rest, -, hwhole | hdropped⟩
  · obtain ⟨x, hx⟩ := h
    rw [hfault] at hx
    cases hx
  · exact ⟨_, hwhole longer⟩
  · exact ⟨_, hdropped longer⟩

theorem splitFile_chat (provider : Provider) {text : List Char} {segments : List (List Char)}
    (h : ∃ x, splitFile (text ++ written segments) = .ok x) :
    ∃ x, splitFile (text ++ written provider.chatSegments) = .ok x := by
  by_cases hlone : text = [] ∨ text = ['/'] ∨ text = ['\\']
  · rcases hlone with rfl | rfl | rfl
    · cases provider with
      | openAi => exact ⟨_, rfl⟩
      | ollama => exact ⟨_, rfl⟩
    · cases provider with
      | openAi => exact ⟨(.domain "chat".toList, "completions".toList), by decide +kernel⟩
      | ollama => exact ⟨(.domain "api".toList, "chat".toList), by decide +kernel⟩
    · cases provider with
      | openAi => exact ⟨(.domain "chat".toList, "completions".toList), by decide +kernel⟩
      | ollama => exact ⟨(.domain "api".toList, "chat".toList), by decide +kernel⟩
  · simp only [not_or] at hlone
    exact (splitFile_splits hlone.1 hlone.2.1 hlone.2.2).longer h provider.chatSegments

/-! ## Other schemes -/

/-- The first segment of the chat path may be a host. -/
theorem parseAuthority_chat (provider : Provider) {scheme : List Char}
    (hspecial : isSpecial scheme = false) :
    ∃ x, parseAuthority scheme (provider.chatSegments.headD []) true = .ok x := by
  unfold parseAuthority
  rw [hspecial]
  cases provider with
  | openAi => exact ⟨(⟨[], [], .domain "chat".toList, none⟩, []), rfl⟩
  | ollama => exact ⟨(⟨[], [], .domain "api".toList, none⟩, []), rfl⟩

theorem parseOther_chat (provider : Provider) {scheme text : List Char}
    {segments : List (List Char)} (hspecial : isSpecial scheme = false)
    (hmark : text ++ written segments ≠ ['/', '/', '@'])
    (h : ∃ url, parseOther scheme (text ++ written segments) = .ok url) :
    ∃ url, parseOther scheme (text ++ written provider.chatSegments) = .ok url := by
  cases text with
  | nil =>
    cases provider with
    | openAi => exact ⟨_, rfl⟩
    | ollama => exact ⟨_, rfl⟩
  | cons c cs =>
    by_cases hc : c = '/'
    · subst hc
      cases cs with
      | nil =>
        obtain ⟨x, hx⟩ := parseAuthority_chat provider hspecial
        cases provider with
        | openAi => exact parseAfterSlashes_isOk.2 ⟨x, by rw [hspecial]; exact hx⟩
        | ollama => exact parseAfterSlashes_isOk.2 ⟨x, by rw [hspecial]; exact hx⟩
      | cons d ds =>
        by_cases hd : d = '/'
        · subst hd
          exact parseAfterSlashes_longer provider.solid_chatSegments.ne_nil
            (fun _ hlone => hmark (by rw [List.cons_append, List.cons_append, hlone])) h
        · exact ⟨_, parseOther_eq scheme (by simp [hd])⟩
    · exact ⟨_, parseOther_eq scheme (by simp [hc])⟩

/-! ## Every scheme -/

theorem parseBehind_chat (provider : Provider) {scheme text : List Char} {k : Nat}
    (hmark : isSpecial scheme = false → text ++ written (blanks k) ≠ ['/', '/', '@'])
    (h : ∃ url, parseBehind scheme (text ++ written (blanks k)) = .ok url) :
    ∃ url, parseBehind scheme (text ++ written provider.chatSegments) = .ok url := by
  unfold parseBehind at h ⊢
  cases hfile : isFile scheme with
  | true =>
    simp only [hfile, if_true, parseFile_isOk] at h ⊢
    exact splitFile_chat provider h
  | false =>
    simp only [hfile, Bool.false_eq_true, if_false] at h ⊢
    cases hspecial : isSpecial scheme with
    | false =>
      simp only [hspecial, Bool.false_eq_true, if_false] at h ⊢
      exact parseOther_chat provider hspecial (hmark hspecial) h
    | true =>
      simp only [hspecial, if_true] at h ⊢
      cases hall : text.all isSlash with
      | false =>
        rw [dropWhile_of_any hall] at h ⊢
        exact parseAfterSlashes_longer provider.solid_chatSegments.ne_nil
          (fun hother => by simp [hspecial] at hother) h
      | true =>
        have hslashes : ∀ c ∈ text ++ written (blanks k), isSlash c = true := by
          intro c hc
          rcases List.mem_append.1 hc with hc | hc
          · exact List.all_eq_true.1 hall c hc
          · rw [written_blanks] at hc
            rw [List.eq_of_mem_replicate hc]
            rfl
        rw [dropWhile_of_all hslashes, parseAfterSlashes_isOk] at h
        obtain ⟨x, hx⟩ := h
        simp [parseAuthority, splitLastAt, hostPart, hspecial, bind, Except.bind] at hx

/-- A base address that is an address with a path behind it too: nothing at its end is passed over,
and without a scheme with rules of its own it is no lone mark of credentials. -/
structure Extensible (base : List Char) : Prop where
  unpadded : ∀ c ∈ base.getLast?, isEdge c = false
  hosted : ∀ parts ∈ splitScheme (normalizeInput base),
    isSpecial parts.1 = false → parts.2 ≠ ['/', '/', '@']

instance (base : List Char) : Decidable (Extensible base) :=
  decidable_of_iff
    ((base.getLast?.all (fun c => !isEdge c) && (splitScheme (normalizeInput base)).all fun parts =>
      isSpecial parts.1 || !(parts.2 == ['/', '/', '@'])) = true)
    ⟨fun h => by
      simp only [Bool.and_eq_true, Option.all_eq_true, Bool.not_eq_true', Bool.or_eq_true,
        beq_eq_false_iff_ne] at h
      exact ⟨h.1, fun parts hparts hspecial =>
        (h.2 parts hparts).resolve_left (by simp [hspecial])⟩,
    fun h => by
      simp only [Bool.and_eq_true, Option.all_eq_true, Bool.not_eq_true', Bool.or_eq_true,
        beq_eq_false_iff_ne]
      refine ⟨h.unpadded, fun parts hparts => ?_⟩
      cases hspecial : isSpecial parts.1 with
      | true => exact .inl rfl
      | false => exact .inr (h.hosted parts hparts hspecial)⟩

theorem parseChars_chat (provider : Provider) {base : List Char} (hbase : Extensible base)
    (h : ∃ url, parseChars base = .ok url) :
    ∃ url, parseChars (withoutSlashes base ++ written provider.chatSegments) = .ok url := by
  obtain ⟨k, hk⟩ := withoutSlashes_spec base
  rw [← written_blanks] at hk
  have hbare : parseChars base = _ :=
    (congrArg parseChars hk).trans (parseChars_written (plain_blanks k) (hk ▸ hbase.unpadded))
  have hsolid := provider.solid_chatSegments
  rw [hbare] at h
  rw [parseChars_written hsolid.plain (getLast_written hsolid.plain hsolid.ne_nil)]
  cases hscheme : splitScheme (front (withoutSlashes base)) with
  | none => simp [hscheme] at h
  | some parts =>
    obtain ⟨scheme, rest⟩ := parts
    rw [hscheme] at h
    refine parseBehind_chat provider (fun hspecial => ?_) h
    refine hbase.hosted (scheme, rest ++ written (blanks k)) ?_ hspecial
    have hbreak : ∀ c ∈ written (blanks k), isBreak c = false :=
      fun c hc => (visible_of_plain (mem_written (plain_blanks k) hc)).2
    have hnormal : normalizeInput base = front (withoutSlashes base) ++ written (blanks k) :=
      (congrArg normalizeInput hk).trans
        (normalizeInput_append (head_written _) hbreak (hk ▸ hbase.unpadded))
    rw [hnormal, splitScheme_append (head_written _), hscheme]
    rfl

end Folio.Url
