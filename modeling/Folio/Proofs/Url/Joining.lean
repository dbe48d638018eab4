import Folio.Proofs.Url.Front
import Folio.Proofs.Url.Segments

/-!
# Addresses with a path behind them

A path that is written behind a base address is read as a path, below that of the base, where three
things hold: nothing at the end of the base is passed over, the base has no query and no fragment,
and it does not end before its host (`Joinable`). The address then has the scheme, the host and the
port of the base (`parseChars_below`).

The base is the same text with slashes in place of the path. So each reader is taken with segments
behind a text, and shown to come to one stem whatever they are (`Stable`): after an authority, for
files, and for schemes without rules of their own.
-/

set_option autoImplicit false

namespace Folio.Url

/-! ## Views -/

/-- The host of an address; an empty host is none. -/
def host? (url : Url) : Option Host :=
  url.authority.bind fun a => if a.host = .domain [] then none else some a.host

def port? (url : Url) : Option Nat :=
  url.authority.bind Authority.port

/-- What an address is made of up to the segments that are written behind a text. -/
structure Stem where
  scheme : List Char
  host : Option Host
  port : Option Nat
  path : List Char

/-- The address is the stem with a text at the end of its path. -/
structure Stem.Ends (stem : Stem) (behind : List Char) (url : Url) : Prop where
  scheme : url.scheme = stem.scheme
  host : url.host? = stem.host
  port : url.port? = stem.port
  path : url.path.text = stem.path ++ behind
  query : url.query = none
  fragment : url.fragment = none

/-- Segments that are read as they are written, the first one not empty. -/
structure Solid (segments : List (List Char)) : Prop where
  plain : ∀ s ∈ segments, Plain s
  head : ∃ c cs rest, segments = (c :: cs) :: rest

/-- What is read with segments behind it and without has one stem: solid segments stand at the end
of the path, and in place of slashes there are slashes, of one slash one. -/
def Stable (read : List (List Char) → Except Fault Url) : Prop :=
  ∀ segments url, Solid segments → read segments = .ok url →
    ∃ stem : Stem, stem.Ends (written segments) url ∧
      ∀ n, ∃ other m, (n = 1 → m = 1) ∧ read (blanks n) = .ok other ∧
        stem.Ends (List.replicate m '/') other

/-- A text without the marks of query and fragment. -/
def Unmarked (text : List Char) : Prop := ∀ c ∈ text, startsQuery c = false

theorem Solid.ne_nil {segments : List (List Char)} (h : Solid segments) : segments ≠ [] := by
  obtain ⟨c, cs, rest, rfl⟩ := h.head
  simp

theorem startsQuery_of_plain {c : Char} (h : c = '/' ∨ inPath c = false) :
    startsQuery c = false := by
  rcases h with rfl | h
  · rfl
  · simp only [inPath, List.contains_cons, Bool.or_eq_false_iff] at h
    simp [startsQuery, h]

theorem Unmarked.append_written {text : List Char} (h : Unmarked text)
    {segments : List (List Char)} (hplain : ∀ s ∈ segments, Plain s) :
    Unmarked (text ++ written segments) := by
  intro c hc
  rcases List.mem_append.1 hc with hc | hc
  · exact h c hc
  · exact startsQuery_of_plain (mem_written hplain hc)

theorem unmarked_nil : Unmarked [] := by simp [Unmarked]

theorem unmarked_written {segments : List (List Char)} (hplain : ∀ s ∈ segments, Plain s) :
    Unmarked (written segments) := unmarked_nil.append_written hplain

theorem Unmarked.takeWhile {text : List Char} (h : Unmarked text) :
    text.takeWhile (fun c => !startsQuery c) = text := by
  have hall : ∀ c ∈ text, (!startsQuery c) = true := fun c hc => by simp [h c hc]
  simpa using @List.takeWhile_append_of_pos _ _ text [] hall

theorem Unmarked.dropWhile {text : List Char} (h : Unmarked text) :
    text.dropWhile (fun c => !startsQuery c) = [] :=
  dropWhile_of_all fun c hc => by simp [h c hc]

@[simp] theorem text_rooted (segments : List (List Char)) :
    (Path.rooted segments).text = written segments := rfl

/-! ## After an authority -/

theorem parseAuthority_unfollowed {scheme text : List Char} {x : Authority × List Char}
    (h : parseAuthority scheme text true = .ok x) (followed : Bool) :
    parseAuthority scheme text followed = .ok x := by
  cases followed with
  | true => exact h
  | false =>
    unfold parseAuthority at h ⊢
    cases hsplit : splitLastAt text with
    | none => rw [hsplit] at h; exact h
    | some parts =>
      obtain ⟨credentials, rest⟩ := parts
      cases credentials with
      | cons c cs => rw [hsplit] at h; exact h
      | nil =>
        cases rest with
        | nil => simp [hsplit, bind, Except.bind] at h
        | cons c cs => simpa [hsplit] using h

theorem inName_written (special : Bool) (segments : List (List Char)) :
    ∀ c ∈ (written segments).head?, inName special c = false := by
  intro c hc
  rw [head_written segments c hc]
  rfl

/-- The path takes all that is behind the authority. -/
theorem parseAfterSlashes_written (scheme : List Char) {text : List Char} (hmarks : Unmarked text)
    {segments : List (List Char)} (hplain : ∀ s ∈ segments, Plain s) :
    let isName := inName (isSpecial scheme)
    parseAfterSlashes scheme (text ++ written segments) =
      (parseAuthority scheme (text.takeWhile isName)
        (!(text.dropWhile isName ++ written segments).isEmpty)).map fun (authority, left) =>
          ⟨scheme, some authority,
            parsePath scheme (left ++ text.dropWhile isName ++ written segments), none, none⟩ := by
  intro isName
  have hhead : ∀ c ∈ (written segments).head?, isName c = false := inName_written _ segments
  have hrest : Unmarked (text.dropWhile isName ++ written segments) :=
    Unmarked.append_written (fun c hc => hmarks c ((List.dropWhile_suffix _).mem hc)) hplain
  rw [parseAfterSlashes_eq, takeWhile_behind hhead, dropWhile_behind hhead]
  simp only [hrest.takeWhile, hrest.dropWhile, List.append_assoc, parseQuery]

theorem parseAfterSlashes_stable (scheme : List Char) {text : List Char} (hmarks : Unmarked text) :
    Stable fun segments => parseAfterSlashes scheme (text ++ written segments) := by
  intro segments url hsolid h
  simp only [parseAfterSlashes_written scheme hmarks hsolid.plain] at h
  have hfollowed (rest : List Char) : (rest ++ written segments).isEmpty = false := by
    obtain ⟨c, cs, more, rfl⟩ := hsolid.head
    simp
  rw [hfollowed, Bool.not_false] at h
  cases hauthority : parseAuthority scheme (text.takeWhile (inName (isSpecial scheme))) true with
  | error e => simp [hauthority, Except.map] at h
  | ok parts =>
    obtain ⟨authority, left⟩ := parts
    simp only [hauthority, Except.map, parsePath_plain hsolid.plain hsolid.ne_nil] at h
    cases h
    let kept := pathKept scheme (left ++ text.dropWhile (inName (isSpecial scheme)))
    let bare : Url := ⟨scheme, some authority, .rooted kept, none, none⟩
    refine ⟨⟨scheme, bare.host?, bare.port?, written kept⟩,
      ⟨rfl, rfl, rfl, written_append _ _, rfl, rfl⟩, fun n => ?_⟩
    obtain ⟨m, hone, hm⟩ :=
      parsePath_slashes scheme (left ++ text.dropWhile (inName (isSpecial scheme))) n
    refine ⟨⟨scheme, some authority, .rooted (kept ++ blanks m), none, none⟩, m, hone, ?_, ?_⟩
    · simp only [parseAfterSlashes_written scheme hmarks (plain_blanks n),
        parseAuthority_unfollowed hauthority, Except.map, hm]
      rfl
    · exact ⟨rfl, rfl, rfl, by rw [text_rooted, written_append, written_blanks], rfl, rfl⟩

/-! ## Of files -/

/-- What a file address is split into keeps its host, and in front of the segments behind it the
text comes to the same ones. -/
structure Carries (scheme : List Char)
    (split : List (List Char) → Except Fault (Host × List Char)) (host : Host)
    (front : List (List Char)) : Prop where
  solid : ∀ segments, Solid segments →
    ∃ t, split segments = .ok (host, t) ∧ Unmarked t ∧ parseSegments scheme t = front ++ segments
  slashes : ∀ n, ∃ t m, (n = 1 → m = 1) ∧
    split (blanks n) = .ok (host, t) ∧ Unmarked t ∧ parseSegments scheme t = front ++ blanks m

section
variable {scheme text : List Char} {host : Host}
  {split : List (List Char) → Except Fault (Host × List Char)}

theorem carries_behind (hmarks : Unmarked text)
    (h : ∀ segments, split segments = .ok (host, text ++ written segments)) :
    Carries scheme split host (kept scheme text) := by
  constructor
  · intro segments hsolid
    exact ⟨_, h segments, hmarks.append_written hsolid.plain,
      parseSegments_plain hsolid.plain scheme text hsolid.ne_nil⟩
  · intro n
    obtain ⟨m, hone, hm⟩ := parseSegments_slashes scheme text n
    exact ⟨_, m, hone, h (blanks n), hmarks.append_written (plain_blanks n), hm⟩

theorem carries_dropped
    (h : ∀ segments, split segments = .ok (host, dropSlash (written segments))) :
    Carries scheme split host [] := by
  constructor
  · intro segments hsolid
    obtain ⟨s, rest, rfl⟩ := List.exists_cons_of_ne_nil hsolid.ne_nil
    obtain ⟨hs, hrest⟩ := List.forall_mem_cons.1 hsolid.plain
    have hmarks : Unmarked (s ++ written rest) :=
      Unmarked.append_written (fun c hc => startsQuery_of_plain (.inr (hs.chars c hc).1)) hrest
    exact ⟨_, h _, hmarks, parseSegments_self hrest hs scheme⟩
  · intro n
    cases n with
    | zero =>
      exact ⟨_, 1, nofun, h (blanks 0), unmarked_nil, parseSegments_nil scheme⟩
    | succ n =>
      have hmarks : Unmarked (written (blanks n)) :=
        unmarked_written (plain_blanks n)
      exact ⟨_, n + 1, id, h _, hmarks, parseSegments_self (plain_blanks n) plain_nil scheme⟩

end

theorem dropSlash_append {text : List Char} (h : text ≠ []) (behind : List Char) :
    dropSlash (text ++ behind) = dropSlash text ++ behind := by
  obtain ⟨c, cs, rfl⟩ := List.exists_cons_of_ne_nil h
  rw [List.cons_append, dropSlash, dropSlash]
  split
  · rfl
  · rfl

theorem Unmarked.dropSlash {text : List Char} (h : Unmarked text) : Unmarked (dropSlash text) := by
  cases text with
  | nil => exact h
  | cons c cs =>
    rw [Url.dropSlash]
    split
    · exact fun x hx => h x (List.mem_cons_of_mem c hx)
    · exact h

/-- What a file address is split into, when segments stand behind its text: a fault, or a host and
what is left of the text with the segments behind it, perhaps without its first slash. -/
def Splits (split : List (List Char) → Except Fault (Host × List Char)) (text : List Char) : Prop :=
  (∃ fault, ∀ segments, split segments = .error fault) ∨
    ∃ host rest, rest <:+ text ∧
      ((∀ segments, split segments = .ok (host, rest ++ written segments)) ∨
        ∀ segments, split segments = .ok (host, dropSlash (rest ++ written segments)))

theorem Splits.carries {text : List Char}
    {split : List (List Char) → Except Fault (Host × List Char)} (h : Splits split text)
    (hmarks : Unmarked text) (scheme : List Char) :
    (∃ fault, ∀ segments, split segments = .error fault) ∨
      ∃ host front, Carries scheme split host front := by
  rcases h with hfault | ⟨host, rest, hsuffix, hwhole | hdropped⟩
  · exact .inl hfault
  · exact .inr ⟨host, _, carries_behind (fun c hc => hmarks c (hsuffix.mem hc)) hwhole⟩
  · refine .inr ⟨host, ?_⟩
    by_cases hnil : rest = []
    · subst hnil
      exact ⟨[], carries_dropped hdropped⟩
    · have hrest : Unmarked rest := fun c hc => hmarks c (hsuffix.mem hc)
      refine ⟨_, carries_behind hrest.dropSlash fun segments => ?_⟩
      rw [hdropped, dropSlash_append hnil]

theorem parseFileHost_splits (text : List Char) :
    Splits (fun segments => parseFileHost (text ++ written segments)) text := by
  have htake (segments : List (List Char)) :
      (text ++ written segments).takeWhile (fun c => !endsAuthority true c) =
        text.takeWhile (inName true) := takeWhile_behind (inName_written true segments)
  have hdrop (segments : List (List Char)) :
      (text ++ written segments).dropWhile (fun c => !endsAuthority true c) =
        text.dropWhile (inName true) ++ written segments :=
    dropWhile_behind (inName_written true segments)
  by_cases hname : (text.takeWhile (inName true)).isEmpty = true ∨
      isDriveLetter (text.takeWhile (inName true)) = true
  · refine .inr ⟨.domain [], text, List.suffix_refl _, .inl fun segments => ?_⟩
    show parseFileHost _ = _
    rw [parseFileHost, htake, if_pos hname]
  · cases hhost : parseHost true (text.takeWhile (inName true)) with
    | error fault =>
      refine .inl ⟨fault, fun segments => ?_⟩
      show parseFileHost _ = _
      rw [parseFileHost, htake, if_neg hname, hhost]
      rfl
    | ok host =>
      refine .inr ?_
      by_cases hlocal : host = .domain "localhost".toList
      · subst hlocal
        refine ⟨.domain [], _, List.dropWhile_suffix (inName true), .inl fun segments => ?_⟩
        show parseFileHost _ = _
        rw [parseFileHost, htake, hdrop, if_neg hname, hhost]
        rfl
      · refine ⟨host, _, List.dropWhile_suffix (inName true), .inr fun segments => ?_⟩
        show parseFileHost _ = _
        rw [parseFileHost, htake, hdrop, if_neg hname, hhost]
        cases host with
        | domain domain =>
          have hdomain : domain ≠ "localhost".toList := fun h => hlocal (by rw [h])
          exact if_neg hdomain
        | ipv4 address => rfl
        | ipv6 groups => rfl

/-- Segments behind a lone slash would start with a host. -/
theorem splitFile_splits {text : List Char} (hnil : text ≠ []) (hslash : text ≠ ['/'])
    (hback : text ≠ ['\\']) :
    Splits (fun segments => splitFile (text ++ written segments)) text := by
  match text with
  | [a] =>
    have ha : a ≠ '/' ∧ a ≠ '\\' := by simpa using And.intro hslash hback
    refine .inr ⟨.domain [], [a], List.suffix_refl _, .inr fun segments => ?_⟩
    cases segments with
    | nil => rfl
    | cons s segments => simp [splitFile, ha]
  | a :: b :: rest =>
    by_cases hboth : ((a == '/' || a == '\\') && (b == '/' || b == '\\')) = true
    · have hsplit (segments : List (List Char)) :
          splitFile (a :: b :: rest ++ written segments) = parseFileHost (rest ++ written segments) :=
        if_pos hboth
      simp only [hsplit]
      have htail : rest <:+ a :: b :: rest := ⟨[a, b], rfl⟩
      rcases parseFileHost_splits rest with hfault | ⟨host, left, hleft, hread⟩
      · exact .inl hfault
      · exact .inr ⟨host, left, hleft.trans htail, hread⟩
    · exact .inr ⟨.domain [], a :: b :: rest, List.suffix_refl _, .inr fun segments => if_neg hboth⟩

theorem splitFile_nil_carries (scheme : List Char) :
    Carries scheme (fun segments => splitFile (written segments)) (.domain []) [] := by
  have hdropped : Carries scheme
      (fun segments => .ok (.domain [], dropSlash (written segments))) (.domain []) [] :=
    carries_dropped fun _ => rfl
  constructor
  · intro segments hsolid
    obtain ⟨t, ht⟩ := hdropped.solid segments hsolid
    obtain ⟨c, cs, rest, rfl⟩ := hsolid.head
    obtain ⟨-, hslash, hback⟩ := (hsolid.plain _ List.mem_cons_self).chars c List.mem_cons_self
    refine ⟨t, ?_, ht.2⟩
    rw [← ht.1]
    simp [splitFile, hslash, hback]
  · intro n
    match n with
    | 0 => exact hdropped.slashes 0
    | 1 => exact hdropped.slashes 1
    | n + 2 =>
      have hname : (written (blanks n)).takeWhile (fun c => !endsAuthority true c) = [] := by
        cases n with
        | zero => rfl
        | succ n => rfl
      refine ⟨written (blanks n), n + 1, by omega, ?_, ?_, ?_⟩
      · show parseFileHost (written (blanks n)) = _
        rw [parseFileHost, hname]
        rfl
      · exact unmarked_written (plain_blanks n)
      · exact parseSegments_self (plain_blanks n) plain_nil scheme

theorem splitFile_carries (scheme : List Char) {text : List Char} (hmarks : Unmarked text)
    (hslash : text ≠ ['/']) (hback : text ≠ ['\\']) :
    (∃ fault, ∀ segments, splitFile (text ++ written segments) = .error fault) ∨
      ∃ host front,
        Carries scheme (fun segments => splitFile (text ++ written segments)) host front := by
  by_cases hnil : text = []
  · subst hnil
    exact .inr ⟨.domain [], [], splitFile_nil_carries scheme⟩
  · exact (splitFile_splits hnil hslash hback).carries hmarks scheme

/-- The path of a file address, from its segments. -/
def filePath (segments : List (List Char)) : Path :=
  match segments.dropWhile List.isEmpty with
  | [] => .rooted [[]]
  | kept => .rooted kept

theorem filePath_solid (front : List (List Char)) {segments : List (List Char)}
    (hsolid : Solid segments) :
    (filePath (front ++ segments)).text =
      written (front.dropWhile List.isEmpty) ++ written segments := by
  obtain ⟨c, cs, rest, rfl⟩ := hsolid.head
  have hhead : ∀ s ∈ ((c :: cs) :: rest).head?, s.isEmpty = false := by simp
  rw [filePath, dropWhile_behind hhead]
  cases front.dropWhile List.isEmpty with
  | nil => rfl
  | cons s kept => exact written_append (s :: kept) _

theorem filePath_slashes (front : List (List Char)) (n : Nat) :
    ∃ m, (n = 1 → m = 1) ∧ (filePath (front ++ blanks n)).text =
      written (front.dropWhile List.isEmpty) ++ List.replicate m '/' := by
  have hblanks : (blanks n).dropWhile List.isEmpty = [] := by simp [blanks]
  rw [filePath, List.dropWhile_append, hblanks]
  cases front.dropWhile List.isEmpty with
  | nil => exact ⟨1, fun _ => rfl, rfl⟩
  | cons s kept =>
    refine ⟨n, id, ?_⟩
    rw [← written_blanks, ← written_append]
    rfl

theorem head_driveLetter (front : List (List Char)) {segments : List (List Char)}
    (hplain : ∀ s ∈ segments, Plain s) :
    (front ++ segments).head?.any isDriveLetter = front.head?.any isDriveLetter := by
  cases front with
  | cons s front => rfl
  | nil =>
    cases segments with
    | nil => rfl
    | cons s segments =>
      have hs := (hplain s List.mem_cons_self).drive
      simp [hs]

theorem parseFile_eq {scheme text t : List Char} {host : Host} {segments : List (List Char)}
    (h : splitFile text = .ok (host, t)) (hmarks : Unmarked t)
    (hsegments : parseSegments scheme t = segments) :
    parseFile scheme text =
      let host := if segments.head?.any isDriveLetter then .domain [] else host
      .ok ⟨scheme, some ⟨[], [], host, none⟩, filePath segments, none, none⟩ := by
  rw [parseFile, h]
  simp only [bind, Except.bind, hmarks.takeWhile, hmarks.dropWhile, hsegments, parseQuery]
  rfl

theorem parseFile_stable (scheme : List Char) {text : List Char} (hmarks : Unmarked text)
    (hslash : text ≠ ['/']) (hback : text ≠ ['\\']) :
    Stable fun segments => parseFile scheme (text ++ written segments) := by
  intro segments url hsolid h
  rcases splitFile_carries scheme hmarks hslash hback with ⟨fault, hfault⟩ | ⟨host, front, hcarries⟩
  · simp [parseFile, hfault, bind, Except.bind] at h
  · obtain ⟨t, hsplit, hunmarked, hsegments⟩ := hcarries.solid segments hsolid
    simp only [parseFile_eq hsplit hunmarked hsegments, head_driveLetter front hsolid.plain] at h
    cases h
    refine ⟨⟨scheme, _, _, written (front.dropWhile List.isEmpty)⟩,
      ⟨rfl, rfl, rfl, filePath_solid front hsolid, rfl, rfl⟩, fun n => ?_⟩
    obtain ⟨t, m, hone, hsplit, hunmarked, hsegments⟩ := hcarries.slashes n
    obtain ⟨m', hone', hm'⟩ := filePath_slashes front m
    refine ⟨_, m', fun h => hone' (hone h), parseFile_eq hsplit hunmarked hsegments, ?_⟩
    rw [head_driveLetter front (plain_blanks m)]
    exact ⟨rfl, rfl, rfl, hm', rfl, rfl⟩

/-! ## Without an authority -/

theorem parseWithoutAuthority_rooted {scheme text : List Char} (hmarks : Unmarked ('/' :: text)) :
    parseWithoutAuthority scheme ('/' :: text) =
      ⟨scheme, none, .rooted (parseSegments scheme text), none, none⟩ := by
  rw [parseWithoutAuthority, hmarks.takeWhile, hmarks.dropWhile]
  rfl

theorem parseWithoutAuthority_plain {scheme text : List Char} (hmarks : Unmarked text)
    (hslash : ∀ c ∈ text.head?, c ≠ '/') :
    parseWithoutAuthority scheme text =
      ⟨scheme, none, .plain (encode isControl text), none, none⟩ := by
  rw [parseWithoutAuthority, hmarks.takeWhile, hmarks.dropWhile]
  cases text with
  | nil => rfl
  | cons c cs => simp [hslash c rfl, parseQuery]

theorem encode_append (chosen : Char → Bool) (a b : List Char) :
    encode chosen (a ++ b) = encode chosen a ++ encode chosen b := List.flatMap_append

theorem encode_written {segments : List (List Char)} (hplain : ∀ s ∈ segments, Plain s) :
    encode isControl (written segments) = written segments := by
  refine encode_plain fun c hc => ?_
  rcases mem_written hplain hc with rfl | hc
  · rfl
  · simp only [inPath, inFragment, Bool.or_eq_false_iff] at hc
    exact hc.1.1

theorem parseOther_eq (scheme : List Char) {text : List Char}
    (h : ∀ rest, text ≠ '/' :: '/' :: rest) :
    parseOther scheme text = .ok (parseWithoutAuthority scheme text) := by
  unfold parseOther
  split
  · exact absurd rfl (h _)
  · rfl

theorem parseOther_slashes (scheme : List Char) (hspecial : isSpecial scheme = false) (n : Nat) :
    ∃ url m, (n = 1 → m = 1) ∧ parseOther scheme (written (blanks n)) = .ok url ∧
      Stem.Ends ⟨scheme, none, none, []⟩ (List.replicate m '/') url := by
  match n with
  | 0 => exact ⟨_, 0, nofun, rfl, rfl, rfl, rfl, rfl, rfl, rfl⟩
  | 1 =>
    have hmarks : Unmarked ['/'] := by simp [Unmarked, startsQuery]
    refine ⟨_, 1, id, congrArg _ (parseWithoutAuthority_rooted hmarks), rfl, rfl, rfl, ?_, rfl, rfl⟩
    rw [text_rooted, parseSegments_nil]
    rfl
  | n + 2 =>
    obtain ⟨m, -, hm⟩ := parsePath_slashes scheme [] n
    have hauthority (followed : Bool) : parseAuthority scheme [] followed =
        .ok (⟨[], [], .domain [], none⟩, []) := by
      simp [parseAuthority, splitLastAt, hostPart, hspecial, parseHost, bracketed?, encode,
        parsePort, portFrom, bind, Except.bind]
    refine ⟨⟨scheme, some ⟨[], [], .domain [], none⟩, .rooted (blanks m), none, none⟩, m,
      by omega, ?_, rfl, rfl, rfl, written_blanks m, rfl, rfl⟩
    show parseAfterSlashes scheme ([] ++ written (blanks n)) = _
    simp only [parseAfterSlashes_written scheme unmarked_nil (plain_blanks n),
      List.takeWhile_nil, List.dropWhile_nil, hauthority, Except.map, List.append_nil, hm]
    rfl

theorem parseOther_nil_stable {scheme : List Char} (hspecial : isSpecial scheme = false) :
    Stable fun segments => parseOther scheme (written segments) := by
  intro segments url hsolid h
  refine ⟨⟨scheme, none, none, []⟩, ?_, parseOther_slashes scheme hspecial⟩
  have hmarks := unmarked_written hsolid.plain
  obtain ⟨c, cs, rest, rfl⟩ := hsolid.head
  obtain ⟨hs, hrest⟩ := List.forall_mem_cons.1 hsolid.plain
  have hc : c ≠ '/' := (hs.chars c List.mem_cons_self).2.1
  have hsegments : parseSegments scheme (c :: cs ++ written rest) = (c :: cs) :: rest :=
    parseSegments_self hrest hs scheme
  simp only at h
  rw [written_cons, List.cons_append] at hmarks h
  rw [parseOther_eq scheme (by simp [hc]), parseWithoutAuthority_rooted hmarks, hsegments] at h
  cases h
  exact ⟨rfl, rfl, rfl, rfl, rfl, rfl⟩

theorem parseOther_rooted_stable (scheme : List Char) {c : Char} {cs : List Char}
    (hmarks : Unmarked ('/' :: c :: cs)) (hc : c ≠ '/') :
    Stable fun segments => parseOther scheme ('/' :: c :: cs ++ written segments) := by
  have hread {segments : List (List Char)} (hplain : ∀ s ∈ segments, Plain s) :
      parseOther scheme ('/' :: c :: cs ++ written segments) =
        .ok ⟨scheme, none, .rooted (parseSegments scheme (c :: cs ++ written segments)), none,
          none⟩ := by
    have hmarks := hmarks.append_written hplain
    rw [List.cons_append] at hmarks ⊢
    rw [parseOther_eq scheme (by simp [hc]), parseWithoutAuthority_rooted hmarks]
  intro segments url hsolid h
  simp only [hread hsolid.plain,
    parseSegments_plain hsolid.plain scheme (c :: cs) hsolid.ne_nil] at h
  cases h
  refine ⟨⟨scheme, none, none, written (kept scheme (c :: cs))⟩,
    ⟨rfl, rfl, rfl, written_append _ _, rfl, rfl⟩, fun n => ?_⟩
  obtain ⟨m, hone, hm⟩ := parseSegments_slashes scheme (c :: cs) n
  refine ⟨_, m, hone, hread (plain_blanks n), rfl, rfl, rfl, ?_, rfl, rfl⟩
  rw [hm, text_rooted, written_append, written_blanks]

theorem parseOther_plain_stable (scheme : List Char) {c : Char} {cs : List Char}
    (hmarks : Unmarked (c :: cs)) (hc : c ≠ '/') :
    Stable fun segments => parseOther scheme (c :: cs ++ written segments) := by
  have hread {segments : List (List Char)} (hplain : ∀ s ∈ segments, Plain s) :
      parseOther scheme (c :: cs ++ written segments) =
        .ok ⟨scheme, none, .plain (encode isControl (c :: cs) ++ written segments), none, none⟩ := by
    rw [parseOther_eq scheme (by simp [hc]),
      parseWithoutAuthority_plain (hmarks.append_written hplain) (by simp [hc]), encode_append,
      encode_written hplain]
  intro segments url hsolid h
  simp only [hread hsolid.plain] at h
  cases h
  refine ⟨⟨scheme, none, none, encode isControl (c :: cs)⟩, ⟨rfl, rfl, rfl, rfl, rfl, rfl⟩,
    fun n => ⟨_, n, id, hread (plain_blanks n), rfl, rfl, rfl, ?_, rfl, rfl⟩⟩
  rw [written_blanks]
  rfl

/-- What comes behind a lone slash would start with a host. -/
theorem parseOther_stable {scheme : List Char} (hspecial : isSpecial scheme = false)
    {text : List Char} (hmarks : Unmarked text) (hslash : text ≠ ['/']) :
    Stable fun segments => parseOther scheme (text ++ written segments) := by
  cases text with
  | nil => exact parseOther_nil_stable hspecial
  | cons c cs =>
    by_cases hc : c = '/'
    · subst hc
      cases cs with
      | nil => exact absurd rfl hslash
      | cons d ds =>
        by_cases hd : d = '/'
        · subst hd
          exact parseAfterSlashes_stable scheme fun c hc =>
            hmarks c (List.mem_cons_of_mem _ (List.mem_cons_of_mem _ hc))
        · exact parseOther_rooted_stable scheme hmarks hd
    · exact parseOther_plain_stable scheme hmarks hc

/-! ## Of every scheme -/

/-- Whether the name of a host is still to come, so that what is put behind the text would be it. -/
def awaitsHost (scheme text : List Char) : Bool :=
  if isFile scheme then text == ['/'] || text == ['\\']
  else if isSpecial scheme then text.all isSlash
  else text == ['/']

theorem parseBehind_stable {scheme text : List Char} (hmarks : Unmarked text)
    (hhost : awaitsHost scheme text = false) :
    Stable fun segments => parseBehind scheme (text ++ written segments) := by
  unfold awaitsHost at hhost
  unfold parseBehind
  cases hfile : isFile scheme with
  | true =>
    simp only [hfile, if_true, Bool.or_eq_false_iff, beq_eq_false_iff_ne] at hhost ⊢
    exact parseFile_stable scheme hmarks hhost.1 hhost.2
  | false =>
    simp only [hfile, Bool.false_eq_true, if_false] at hhost ⊢
    cases hspecial : isSpecial scheme with
    | true =>
      simp only [hspecial, if_true] at hhost ⊢
      simp only [dropWhile_of_any hhost]
      exact parseAfterSlashes_stable scheme fun c hc => hmarks c ((List.dropWhile_suffix _).mem hc)
    | false =>
      simp only [hspecial, Bool.false_eq_true, if_false, beq_eq_false_iff_ne] at hhost ⊢
      exact parseOther_stable hspecial hmarks hhost

/-! ## Below a base address -/

def withoutSlashes (text : List Char) : List Char := (text.reverse.dropWhile (· == '/')).reverse

theorem withoutSlashes_append (text : List Char) (n : Nat) :
    withoutSlashes (text ++ List.replicate n '/') = withoutSlashes text := by
  have hall : ∀ c ∈ List.replicate n '/', (c == '/') = true := by
    intro c hc
    simp [List.eq_of_mem_replicate hc]
  rw [withoutSlashes, List.reverse_append, List.reverse_replicate,
    List.dropWhile_append_of_pos hall, withoutSlashes]

theorem withoutSlashes_spec (text : List Char) :
    ∃ n, text = withoutSlashes text ++ List.replicate n '/' := by
  have hsplit := List.takeWhile_append_dropWhile (p := (· == '/')) (l := text.reverse)
  have hslashes : text.reverse.takeWhile (· == '/') =
      List.replicate (text.reverse.takeWhile (· == '/')).length '/' := by
    refine List.eq_replicate_iff.2 ⟨rfl, fun c hc => ?_⟩
    simpa using List.all_eq_true.1 List.all_takeWhile c hc
  refine ⟨(text.reverse.takeWhile (· == '/')).length, ?_⟩
  rw [← List.reverse_inj, List.reverse_append, withoutSlashes, List.reverse_reverse,
    List.reverse_replicate, ← hslashes, hsplit]

/-- The address asks the server of the base, below its path. Slashes come between the two only where
the base with one slash at its end has a path with more of them at its end. -/
structure Below (base slashed : Url) (behind : List Char) (url : Url) : Prop where
  scheme : url.scheme = base.scheme
  host : url.host? = base.host?
  port : url.port? = base.port?
  path : ∃ n, url.path.text = withoutSlashes base.path.text ++ List.replicate n '/' ++ behind ∧
    slashed.path.text = withoutSlashes base.path.text ++ List.replicate (n + 1) '/'
  query : url.query = none
  fragment : url.fragment = none

/-- A base address that a path can be written behind: nothing at its end is passed over, no query
or fragment takes what is behind it, and it does not end before its host. -/
structure Joinable (base : List Char) : Prop where
  unpadded : ∀ c ∈ base.getLast?, isEdge c = false
  unmarked : Unmarked base
  hosted : ∀ parts ∈ splitScheme (front (withoutSlashes base)), awaitsHost parts.1 parts.2 = false

instance (base : List Char) : Decidable (Joinable base) :=
  decidable_of_iff
    ((base.getLast?.all (fun c => !isEdge c) && base.all (fun c => !startsQuery c) &&
      (splitScheme (front (withoutSlashes base))).all fun parts =>
        !awaitsHost parts.1 parts.2) = true)
    ⟨fun h => by
      simp only [Bool.and_eq_true, Option.all_eq_true, List.all_eq_true, Bool.not_eq_true'] at h
      exact ⟨h.1.1, h.1.2, h.2⟩,
    fun h => by
      simp only [Bool.and_eq_true, Option.all_eq_true, List.all_eq_true, Bool.not_eq_true']
      exact ⟨⟨h.unpadded, h.unmarked⟩, h.hosted⟩⟩

theorem Stem.Ends.below {stem : Stem} {behind : List Char} {base slashed url : Url} {m : Nat}
    (h : stem.Ends behind url) (hbase : stem.Ends (List.replicate m '/') base)
    (hslashed : stem.Ends ['/'] slashed) : Below base slashed behind url := by
  obtain ⟨n, hn⟩ := withoutSlashes_spec stem.path
  refine ⟨h.scheme.trans hbase.scheme.symm, h.host.trans hbase.host.symm,
    h.port.trans hbase.port.symm, ⟨n, ?_, ?_⟩, h.query, h.fragment⟩
  · rw [h.path, hbase.path, withoutSlashes_append, ← hn]
  · rw [hslashed.path, hbase.path, withoutSlashes_append, List.replicate_succ', ← List.append_assoc,
      ← hn]

theorem visible_of_plain {c : Char} (h : c = '/' ∨ inPath c = false) :
    isEdge c = false ∧ isBreak c = false := by
  rcases h with rfl | h
  · exact ⟨rfl, rfl⟩
  · simp only [inPath, inFragment, isControl, List.contains_cons, Bool.or_eq_false_iff,
      decide_eq_false_iff_not, beq_eq_false_iff_ne] at h
    obtain ⟨⟨⟨hcontrol, -⟩, hspace, -⟩, -⟩ := h
    have hvisible : 0x20 < c.toNat := by
      have hne : c.toNat ≠ 0x20 := fun h => hspace (Char.toNat_inj.1 h)
      omega
    constructor
    · simpa [isEdge] using hvisible
    · have hne (b : Char) (hb : b.toNat ≤ 0x20) : c ≠ b := by
        rintro rfl
        omega
      simp [isBreak, hne]

theorem parseChars_written {text : List Char} {segments : List (List Char)}
    (hplain : ∀ s ∈ segments, Plain s)
    (hlast : ∀ c ∈ (text ++ written segments).getLast?, isEdge c = false) :
    parseChars (text ++ written segments) =
      match splitScheme (front text) with
      | none => .error .relativeWithoutBase
      | some (scheme, rest) => parseBehind scheme (rest ++ written segments) :=
  parseChars_append (head_written segments)
    (fun _ hc => (visible_of_plain (mem_written hplain hc)).2) hlast

/-- Behind plain segments nothing is passed over. -/
theorem getLast_written {text : List Char} {segments : List (List Char)}
    (hplain : ∀ s ∈ segments, Plain s) (hne : segments ≠ []) :
    ∀ c ∈ (text ++ written segments).getLast?, isEdge c = false := by
  intro c hc
  obtain ⟨last, hlast⟩ : ∃ last, (written segments).getLast? = some last := by
    obtain ⟨s, rest, rfl⟩ := List.exists_cons_of_ne_nil hne
    exact ⟨_, List.getLast?_cons⟩
  rw [List.getLast?_append, hlast] at hc
  cases hc
  exact (visible_of_plain (mem_written hplain (List.mem_of_getLast? hlast))).1

theorem parseChars_below {base : List Char} (hbase : Joinable base)
    {segments : List (List Char)} (hsolid : Solid segments) {url : Url}
    (h : parseChars (withoutSlashes base ++ written segments) = .ok url) :
    ∃ bare slashed, parseChars base = .ok bare ∧
      parseChars (withoutSlashes base ++ ['/']) = .ok slashed ∧
      Below bare slashed (written segments) url := by
  obtain ⟨k, hk⟩ := withoutSlashes_spec base
  rw [← written_blanks] at hk
  have hone : blanks 1 ≠ [] := by simp [blanks]
  have hbare : parseChars base = _ :=
    (congrArg parseChars hk).trans (parseChars_written (plain_blanks k) (hk ▸ hbase.unpadded))
  have hslashed : parseChars (withoutSlashes base ++ ['/']) = _ :=
    parseChars_written (plain_blanks 1) (getLast_written (plain_blanks 1) hone)
  rw [parseChars_written hsolid.plain (getLast_written hsolid.plain hsolid.ne_nil)] at h
  cases hscheme : splitScheme (front (withoutSlashes base)) with
  | none => simp [hscheme] at h
  | some parts =>
    obtain ⟨scheme, rest⟩ := parts
    rw [hscheme] at h hbare hslashed
    have hmarks : Unmarked rest := by
      intro c hc
      have hmem : c ∈ withoutSlashes base := mem_front ((splitScheme_suffix hscheme).mem hc)
      refine hbase.unmarked c ?_
      rw [hk]
      exact List.mem_append_left _ hmem
    obtain ⟨stem, hurl, hother⟩ :=
      parseBehind_stable hmarks (hbase.hosted _ hscheme) segments url hsolid h
    obtain ⟨bare, m, -, hread, hends⟩ := hother k
    obtain ⟨slashed, m', hm', hread', hends'⟩ := hother 1
    rw [hm' rfl] at hends'
    exact ⟨bare, slashed, hbare.trans hread, hslashed.trans hread', hurl.below hends hends'⟩

end Folio.Url
