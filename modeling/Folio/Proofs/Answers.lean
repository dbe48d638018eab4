import Folio.Proofs.ByteOrder
import Folio.Proofs.Json.Members
import Folio.Proofs.Keys
import Folio.Proofs.Reply
import Mathlib.Data.List.Induction

/-!
# What a reply comes to

`Outcome content chunk result` says what has to come of a reply, without the walk over its members:
an error if the cleaned content is no object, the pages without a key if there are any, and
otherwise one text for each page, from the value that `Counts` for it. `translations` gives that
result (`translations_outcome`). It depends on the members whose keys denote a page of the chunk and
on nothing else, neither on other members nor on the order in which members are written.
-/

set_option autoImplicit false

namespace Folio.Reply

open Json

/-! ## What counts for a page -/

/-- Some key denotes the page. -/
def Answered (members : Members) (n : PageNumber) : Prop := ∃ m ∈ members, Denotes m.1 n

instance (members : Members) (n : PageNumber) : Decidable (Answered members n) :=
  inferInstanceAs (Decidable (∃ m ∈ members, Denotes m.1 n))

/-- Of the values under keys that denote the page, that under the key whose bytes are the greatest
counts. -/
def Counts (members : Members) (n : PageNumber) (value : Value) : Prop :=
  ∃ key, (key, value) ∈ members ∧ Denotes key n ∧
    ∀ other ∈ members, Denotes other.1 n → Text.bytes other.1 ≤ Text.bytes key

theorem answers_eq (members : Members) (n : PageNumber) :
    (answers members).lookup n =
      (members.filterMap fun m => (page? m.1).map (·, m.2)).reverse.lookup n :=
  Sorted.lookup_ofList _ n

/-- A member behind all others counts if its key denotes the page, and else plays no part. -/
theorem lookup_answers_concat (members : Members) (m : String × Value) (n : PageNumber) :
    (answers (members ++ [m])).lookup n =
      if Denotes m.1 n then some m.2 else (answers members).lookup n := by
  rw [answers_eq, answers_eq, List.filterMap_append, List.reverse_append]
  by_cases hm : Denotes m.1 n
  · have hpage := page?_eq_some_iff.2 hm
    simp [hpage, hm]
  · have hpage : page? m.1 ≠ some n := mt page?_eq_some_iff.1 hm
    rw [if_neg hm]
    cases hp : page? m.1 with
    | none => simp [hp]
    | some k =>
      have hk : n ≠ k := fun he => hpage (he ▸ hp)
      simp [hp, Sorted.lookup_cons_ite, hk]

theorem counts_concat {members : Members} {m : String × Value} {n : PageNumber}
    (hm : ¬ Denotes m.1 n) (value : Value) :
    Counts (members ++ [m]) n value ↔ Counts members n value := by
  constructor
  · rintro ⟨key, hmem, hkey, hgreatest⟩
    rcases List.mem_append.1 hmem with hmem | hlast
    · exact ⟨key, hmem, hkey, fun other ho => hgreatest other (List.mem_append_left _ ho)⟩
    · rw [← List.mem_singleton.1 hlast] at hm
      exact absurd hkey hm
  · rintro ⟨key, hmem, hkey, hgreatest⟩
    refine ⟨key, List.mem_append_left _ hmem, hkey, fun other ho hother => ?_⟩
    rcases List.mem_append.1 ho with ho | hlast
    · exact hgreatest other ho hother
    · rw [List.mem_singleton.1 hlast] at hother
      exact absurd hother hm

/-- Members are walked over in the order of their keys, so the greatest key has the last word. -/
theorem lookup_answers_eq_some_iff {members : Members} (h : Sorted.Ascending members)
    {n : PageNumber} {value : Value} :
    (answers members).lookup n = some value ↔ Counts members n value := by
  induction members using List.reverseRecOn with
  | nil => simp [answers, Sorted.ofList, Counts]
  | append_singleton members m ih =>
    obtain ⟨hascending, -, hbelow⟩ := List.pairwise_append.1 h
    have hlast (other : String × Value) (ho : other ∈ members) : other.1 < m.1 :=
      hbelow other ho m List.mem_cons_self
    rw [lookup_answers_concat]
    split
    · rename_i hm
      constructor
      · rintro ⟨⟩
        refine ⟨m.1, List.mem_append_right _ List.mem_cons_self, hm, fun other ho _ => ?_⟩
        rw [Text.bytes_le_bytes_iff]
        rcases List.mem_append.1 ho with ho | ho
        · exact Std.le_of_lt (hlast other ho)
        · obtain rfl := List.mem_singleton.1 ho
          exact Std.le_refl _
      · rintro ⟨key, hmem, -, hgreatest⟩
        have hle := hgreatest m (List.mem_append_right _ List.mem_cons_self) hm
        rw [Text.bytes_le_bytes_iff] at hle
        rcases List.mem_append.1 hmem with hmem | hmem
        · exact absurd (hlast _ hmem) (String.not_lt.2 hle)
        · rw [← List.mem_singleton.1 hmem]
    · rename_i hm
      rw [ih hascending, counts_concat hm]

theorem lookup_answers_isSome_iff {members : Members} {n : PageNumber} :
    ((answers members).lookup n).isSome ↔ Answered members n := by
  rw [answers_eq, List.lookup_isSome_iff]
  constructor
  · rintro ⟨answer, hanswer, hn⟩
    obtain ⟨m, hm, hmap⟩ := List.mem_filterMap.1 (List.mem_reverse.1 hanswer)
    obtain ⟨k, hk, rfl⟩ := Option.map_eq_some_iff.1 hmap
    have hnk : n = k := eq_of_beq hn
    exact ⟨m, hm, page?_eq_some_iff.1 (hnk ▸ hk)⟩
  · rintro ⟨m, hm, hn⟩
    have hanswer : (page? m.1).map (·, m.2) = some (n, m.2) := by
      rw [page?_eq_some_iff.2 hn]
      rfl
    exact ⟨(n, m.2), List.mem_reverse.2 (List.mem_filterMap.2 ⟨m, hm, hanswer⟩), beq_self_eq_true n⟩

/-! ## The outcome -/

/-- How a value is shown: nothing as no text, a text as itself, and all else as compact JSON. -/
inductive Shows : Value → String → Prop
  | null : Shows .null ""
  | string (text : String) : Shows (.string text) text
  | compact {value : Value} : value ≠ .null → value.string? = none → Shows value value.text

theorem shows_text (value : Value) : Shows value (text value) := by
  cases value with
  | null => exact .null
  | string text => exact .string text
  | bool b => exact .compact (by simp) rfl
  | number n => exact .compact (by simp) rfl
  | array items => exact .compact (by simp) rfl
  | object members => exact .compact (by simp) rfl

inductive Outcome (content : String) (chunk : Chunk) :
    Except TranslationError (List (PageNumber × String)) → Prop
  | unreadable {e : ReadError} (read : parse (cleaned content) = .error e) :
      Outcome content chunk
        (.error (.protocol s!"Assistant content was not valid JSON: {e.message}"))
  | shapeless {value : Value} (read : parse (cleaned content) = .ok value)
      (shape : value.object? = none) :
      Outcome content chunk (.error (.protocol "Assistant content was not a JSON object"))
  | incomplete {members : Members} {missing : List PageNumber}
      (read : parse (cleaned content) = .ok (.object members))
      (unanswered : missing.Perm (chunk.numbers.filter fun n => ¬ Answered members n))
      (ascending : missing.Pairwise (· ≤ ·)) (some : missing ≠ []) :
      Outcome content chunk (.error (.missingPages missing))
  | complete {members : Members} {entries : List (PageNumber × String)}
      (read : parse (cleaned content) = .ok (.object members))
      (answered : ∀ n ∈ chunk.numbers, Answered members n)
      (ascending : Sorted.Ascending entries)
      (keys : ∀ n, n ∈ entries.map Prod.fst ↔ n ∈ chunk.numbers)
      (texts : ∀ e ∈ entries, ∃ value, Counts members e.1 value ∧ Shows value e.2) :
      Outcome content chunk (.ok entries)

theorem object_of_parse {content : String} {members : Members}
    (h : parse (cleaned content) = .ok (.object members)) : object content = .ok members := by
  rw [object, h]

theorem isNone_lookup_answers (members : Members) (n : PageNumber) :
    ((answers members).lookup n).isNone = decide (¬ Answered members n) := by
  rw [← Option.not_isSome, decide_not]
  exact congrArg not (Bool.eq_iff_iff.2 (lookup_answers_isSome_iff.trans decide_eq_true_iff.symm))

theorem outcome_of_missing {content : String} {chunk : Chunk} {members : Members}
    (hread : parse (cleaned content) = .ok (.object members))
    (hmissing : missing (answers members) chunk ≠ []) :
    Outcome content chunk (.error (.missingPages (missing (answers members) chunk))) := by
  refine .incomplete hread ?_ (sortNumbers_ascending _) hmissing
  simp only [missing, isNone_lookup_answers]
  exact sortNumbers_perm _

theorem outcome_of_answers {content : String} {chunk : Chunk} {members : Members}
    (hread : parse (cleaned content) = .ok (.object members))
    (hall : ∀ page ∈ chunk, ((answers members).lookup page.number).isSome) :
    Outcome content chunk (.ok (Sorted.ofList
      (chunk.map fun page => (page.number, textIn (answers members) page)))) := by
  refine .complete hread (fun n hn => ?_) (Sorted.ascending_ofList _) (fun n => ?_) (fun e he => ?_)
  · obtain ⟨page, hp, rfl⟩ := List.mem_map.1 hn
    exact lookup_answers_isSome_iff.1 (hall page hp)
  · rw [Sorted.mem_keys_ofList, List.map_map]
    rfl
  · obtain ⟨page, hp, rfl⟩ := List.mem_map.1 (Sorted.mem_of_mem_ofList he)
    obtain ⟨value, hvalue⟩ := Option.isSome_iff_exists.1 (hall page hp)
    refine ⟨value, (lookup_answers_eq_some_iff (ascending_of_parse hread)).1 hvalue, ?_⟩
    rw [textIn, hvalue]
    exact shows_text value

theorem outcome_translations (content : String) (chunk : Chunk) :
    Outcome content chunk (translations content chunk) := by
  cases hread : parse (cleaned content) with
  | error e =>
    rw [translations_of_unreadable hread]
    exact .unreadable hread
  | ok value =>
    cases hshape : value.object? with
    | none =>
      have herror : translations content chunk =
          .error (.protocol "Assistant content was not a JSON object") := by
        cases value with
        | object members => cases hshape
        | _ => simp only [translations, object, hread, bind, Except.bind]
      rw [herror]
      exact .shapeless hread hshape
    | some members =>
      obtain rfl : value = .object members := by
        cases value with
        | object => rw [Option.some.inj hshape]
        | _ => cases hshape
      rw [translations_of_object (object_of_parse hread)]
      split
      · rename_i hnone
        exact outcome_of_answers hread (missing_eq_nil_iff.1 (List.isEmpty_iff.1 hnone))
      · rename_i hsome
        exact outcome_of_missing hread (mt List.isEmpty_iff.2 hsome)

/-! ## What plays no part -/

/-- The members whose keys denote pages of the chunk. -/
def concerning (chunk : Chunk) (ms : List (String × Value)) : List (String × Value) :=
  ms.filter fun m => ∃ n ∈ chunk.numbers, Denotes m.1 n

section
variable {chunk : Chunk} {n : PageNumber} (hn : n ∈ chunk.numbers)
include hn

theorem lookup_concerning {key : String} (hkey : Denotes key n) (ms : List (String × Value)) :
    (concerning chunk ms).lookup key = ms.lookup key := by
  induction ms with
  | nil => rfl
  | cons m ms ih =>
    obtain ⟨k, v⟩ := m
    unfold concerning at ih ⊢
    rw [List.filter_cons, Sorted.lookup_cons_ite]
    split
    · rw [Sorted.lookup_cons_ite, ih]
    · rename_i hforeign
      have hk : key ≠ k := by
        rintro rfl
        exact hforeign (decide_eq_true ⟨n, hn, hkey⟩)
      rw [if_neg hk, ih]

theorem mem_ofList_concerning {key : String} (hkey : Denotes key n) (ms : List (String × Value))
    (value : Value) :
    (key, value) ∈ Members.ofList (concerning chunk ms) ↔ (key, value) ∈ Members.ofList ms := by
  have hlookup : (concerning chunk ms).reverse.lookup key = ms.reverse.lookup key := by
    rw [← lookup_concerning hn hkey ms.reverse, concerning, concerning, List.filter_reverse]
  rw [Members.ofList, Members.ofList, ← (Sorted.ascending_ofList _).lookup_eq_some_iff,
    ← (Sorted.ascending_ofList _).lookup_eq_some_iff, Sorted.lookup_ofList, Sorted.lookup_ofList,
    hlookup]

theorem counts_concerning (ms : List (String × Value)) (value : Value) :
    Counts (Members.ofList (concerning chunk ms)) n value ↔
      Counts (Members.ofList ms) n value := by
  refine exists_congr fun key => ?_
  constructor
  · rintro ⟨hmem, hkey, hgreatest⟩
    refine ⟨(mem_ofList_concerning hn hkey ms value).1 hmem, hkey, fun other ho hother => ?_⟩
    exact hgreatest other ((mem_ofList_concerning hn hother ms other.2).2 ho) hother
  · rintro ⟨hmem, hkey, hgreatest⟩
    refine ⟨(mem_ofList_concerning hn hkey ms value).2 hmem, hkey, fun other ho hother => ?_⟩
    exact hgreatest other ((mem_ofList_concerning hn hother ms other.2).1 ho) hother

end

theorem translations_of_concerning {content other : String} {chunk : Chunk}
    {ms ms' : List (String × Value)} (h : Writes (cleaned content) ms)
    (h' : Writes (cleaned other) ms')
    (hsame : Members.ofList (concerning chunk ms) = Members.ofList (concerning chunk ms')) :
    translations other chunk = translations content chunk := by
  have hlookup (n : PageNumber) (hn : n ∈ chunk.numbers) :
      (answers (Members.ofList ms')).lookup n = (answers (Members.ofList ms)).lookup n := by
    have hascending (ms : List (String × Value)) : Sorted.Ascending (Members.ofList ms) :=
      Sorted.ascending_ofList ms
    refine Option.ext fun value => ?_
    rw [lookup_answers_eq_some_iff (hascending ms'), lookup_answers_eq_some_iff (hascending ms),
      ← counts_concerning hn ms', ← counts_concerning hn ms, hsame]
  have hmissing : missing (answers (Members.ofList ms')) chunk =
      missing (answers (Members.ofList ms)) chunk :=
    congrArg sortNumbers (List.filter_congr fun n hn => by rw [hlookup n hn])
  have htexts : (chunk.map fun page => (page.number, textIn (answers (Members.ofList ms')) page)) =
      chunk.map fun page => (page.number, textIn (answers (Members.ofList ms)) page) :=
    List.map_congr_left fun page hp => by rw [textIn, textIn, hlookup _ (List.mem_map_of_mem hp)]
  rw [translations_of_object (object_of_parse (parse_eq_object_iff.2 ⟨ms', h', rfl⟩)),
    translations_of_object (object_of_parse (parse_eq_object_iff.2 ⟨ms, h, rfl⟩)), hmissing, htexts]

/-- Entries whose keys differ make one object in whatever order they are written. -/
theorem ofList_eq_of_perm {ms ms' : List (String × Value)} (h : ms.Perm ms')
    (hn : (ms.map Prod.fst).Nodup) : Members.ofList ms = Members.ofList ms' := by
  have hn' : (ms'.map Prod.fst).Nodup := (h.map Prod.fst).nodup_iff.1 hn
  exact Sorted.ofList_eq_of_perm (Sorted.ascending_ofList ms')
    (h.trans (Sorted.ofList_perm hn').symm)

/-- Every reply comes to what its answers make of it. Of two replies that write the same members for
the pages of the chunk, each under a key of its own and in any order, or under any keys but in one
order, both come to the same, whatever else they hold. -/
theorem translations_outcome (content : String) (chunk : Chunk) :
    Outcome content chunk (translations content chunk) ∧
      ∀ (other : String) (ms ms' : List (String × Value)),
        Writes (cleaned content) ms → Writes (cleaned other) ms' →
        ((concerning chunk ms).Perm (concerning chunk ms') ∧
            ((concerning chunk ms).map Prod.fst).Nodup ∨
          concerning chunk ms = concerning chunk ms') →
        translations other chunk = translations content chunk := by
  refine ⟨outcome_translations content chunk, fun other ms ms' h h' hsame => ?_⟩
  rcases hsame with ⟨hperm, hn⟩ | heq
  · exact translations_of_concerning h h' (ofList_eq_of_perm hperm hn)
  · exact translations_of_concerning h h' (congrArg Members.ofList heq)

/-- Two keys for one page, of which the one without a plus counts, and a member for another page. -/
theorem translations_outcome_two_keys :
    let chunk : Chunk := [⟨2, "d"⟩, ⟨1, "c"⟩]
    let content := "\x7b\"1\":\"a\",\"+1\":7,\" 02\":[]\x7d"
    let other := "\x7b\" 02\":[],\"9\":0,\"+1\":7,\"1\":\"a\"\x7d"
    translations content chunk = .ok [(1, "a"), (2, "[]")] ∧
      translations other chunk = translations content chunk := by
  intro chunk content other
  let ms : List (String × Value) :=
    [("1", .string "a"), ("+1", .number (.integer 7)), (" 02", .array [])]
  let ms' : List (String × Value) := [(" 02", .array []), ("9", .number (.integer 0)),
    ("+1", .number (.integer 7)), ("1", .string "a")]
  have hplain : ∀ m ∈ ms, Plain 1 m.2 := by
    simp [ms, Plain, IsWord]
  have hplain' : ∀ m ∈ ms', Plain 1 m.2 := by
    simp [ms', Plain, IsWord]
  have hclean : cleaned content = String.ofList (Value.object ms).compact := by decide
  have hclean' : cleaned other = String.ofList (Value.object ms').compact := by decide
  have hms : Writes (cleaned content) ms := hclean ▸ writes_compact (by decide) hplain
  have hms' : Writes (cleaned other) ms' := hclean' ▸ writes_compact (by decide) hplain'
  have hone : ∃ n ∈ chunk.numbers, Denotes "1" n := by decide
  have hplus : ∃ n ∈ chunk.numbers, Denotes "+1" n := by decide
  have hpadded : ∃ n ∈ chunk.numbers, Denotes " 02" n := by decide
  have hforeign : ¬ ∃ n ∈ chunk.numbers, Denotes "9" n := by decide
  have hsame : concerning chunk ms = ms := by simp [concerning, ms, hone, hplus, hpadded]
  have hreverse : concerning chunk ms' = ms.reverse := by
    simp [concerning, ms, ms', hone, hplus, hpadded, hforeign]
  have hperm : (concerning chunk ms).Perm (concerning chunk ms') := by
    rw [hsame, hreverse]
    exact (List.reverse_perm ms).symm
  have hn : ((concerning chunk ms).map Prod.fst).Nodup := by
    rw [hsame]
    decide
  have hresult : translations content chunk = .ok [(1, "a"), (2, "[]")] := by decide +kernel
  exact ⟨hresult, (translations_outcome content chunk).2 other ms ms' hms hms' (.inl ⟨hperm, hn⟩)⟩

end Folio.Reply
