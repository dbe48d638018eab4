import Folio.Proofs.Recording

/-!
# Every page is committed once

Whatever calls of a sink fail, the record of a run is `Disciplined`: each page that was opened is
committed once, with all that was drawn on it and before another page is opened; nothing is opened
or drawn after a failure; and the error that comes out is the one that came first. The main theorem
is `committed_once`, for the lines of one page and for whole documents.
-/

set_option autoImplicit false

namespace Folio

/-! ## Discipline -/

namespace Call

/-- The page that is drawn on or committed. -/
def page? : Call → Option Nat
  | begin _ _ => none
  | draw page _ _ => some page
  | commit page _ _ => some page

/-- The page that is committed. -/
def committed? : Call → Option Nat
  | commit page _ _ => some page
  | _ => none

/-- What is drawn on a page. -/
def strokeOn? (page : Nat) : Call → Option Stroke
  | draw p stroke _ => if p = page then some stroke else none
  | _ => none

end Call

/-- The pages that are committed, in the order of the commits. -/
def committed (calls : List Call) : List Nat := calls.filterMap Call.committed?

/-- What is drawn on a page. -/
def strokesOn (page : Nat) (calls : List Call) : List Stroke :=
  calls.filterMap (Call.strokeOn? page)

/-- The errors of the calls, the first one first. -/
def failures (calls : List Call) : List RenderError := calls.filterMap Call.failure?

/-- The calls behind the first one that fails. -/
def afterFailure (calls : List Call) : List Call :=
  (calls.dropWhile fun call => call.failure?.isNone).tail

/-- What holds of the calls that write pages numbered from `first` on, if they come to an error or
none, and to a log. -/
structure Disciplined (first : Nat) (calls : List Call) (failure : Option RenderError)
    (log : Log) : Prop where
  /-- Each page that is opened is committed once. -/
  once : committed calls = List.range' first (opened calls)
  /-- Before a page is opened, those opened before it are committed. -/
  beforeNext : ∀ before setup outcome after, calls = before ++ .begin setup outcome :: after →
    committed before = List.range' first (opened before)
  /-- A page is committed with all that is drawn on it. -/
  whole : ∀ before page sheet outcome after, calls = before ++ .commit page sheet outcome :: after →
    sheet.strokes = strokesOn page before ∧ strokesOn page after = []
  /-- After a failure no page is opened and nothing is drawn. -/
  stops : ∀ call ∈ afterFailure calls, call.committed?.isSome
  /-- The first error comes out. -/
  failure : failure = (failures calls).head?
  /-- Any other one is only reported. -/
  log : log = (failures calls).tail.flatMap fun e => abandonLog (some e)
  numbered : ∀ call ∈ calls, ∀ page ∈ call.page?, first ≤ page ∧ page < first + opened calls

/-! ## Lists of calls -/

section
variable (a b : List Call)

@[simp] theorem committed_append : committed (a ++ b) = committed a ++ committed b :=
  List.filterMap_append

@[simp] theorem strokesOn_append (page : Nat) :
    strokesOn page (a ++ b) = strokesOn page a ++ strokesOn page b :=
  List.filterMap_append

@[simp] theorem failures_append : failures (a ++ b) = failures a ++ failures b :=
  List.filterMap_append

variable {a b}

theorem failures_eq_nil_iff : failures a = [] ↔ ∀ call ∈ a, call.failure? = none :=
  List.filterMap_eq_nil_iff

/-- Calls that do not fail do not matter. -/
theorem afterFailure_append (h : failures a = []) : afterFailure (a ++ b) = afterFailure b := by
  rw [afterFailure, afterFailure, List.dropWhile_append_of_pos]
  exact fun call hc => by rw [failures_eq_nil_iff.1 h call hc]; rfl

theorem mem_afterFailure_append {call : Call} (h : call ∈ afterFailure (a ++ b)) :
    call ∈ afterFailure a ∨ call ∈ b := by
  rw [afterFailure, List.dropWhile_append] at h
  split at h
  · exact .inr ((List.dropWhile_sublist _).subset (List.mem_of_mem_tail h))
  · rename_i hne
    rw [List.tail_append_of_ne_nil (by simpa using hne)] at h
    exact List.mem_append.1 h

theorem strokesOn_eq_nil {page : Nat} (h : ∀ call ∈ a, ∀ p ∈ call.page?, p ≠ page) :
    strokesOn page a = [] := by
  refine List.filterMap_eq_nil_iff.2 fun call hc => ?_
  cases call with
  | draw p stroke outcome => exact if_neg (h _ hc p rfl)
  | _ => rfl

end

section
variable (page : Nat) (strokes : List Stroke)

@[simp] theorem committed_drawn : committed (drawn page strokes) = [] := by
  simp [committed, drawn, List.filterMap_map, Function.comp_def, Call.committed?]

@[simp] theorem strokesOn_drawn : strokesOn page (drawn page strokes) = strokes := by
  simp [strokesOn, drawn, List.filterMap_map, Function.comp_def, Call.strokeOn?]

@[simp] theorem failures_drawn : failures (drawn page strokes) = [] := by
  simp [failures, drawn, List.filterMap_map, Function.comp_def, Call.failure?]

end

/-- An element that is alone of its kind splits a list in one way. -/
theorem split_unique {α : Type} {p : α → Prop} {a b c d : List α} {x y : α}
    (ha : ∀ z ∈ a, ¬ p z) (hb : ∀ z ∈ b, ¬ p z) (hy : p y) (h : a ++ x :: b = c ++ y :: d) :
    a = c ∧ x = y ∧ b = d := by
  induction a generalizing c with
  | nil =>
    cases c with
    | nil => simpa using h
    | cons z c =>
      obtain ⟨-, rfl⟩ := List.cons.inj h
      exact absurd hy (hb y (by simp))
  | cons z a ih =>
    cases c with
    | nil =>
      obtain ⟨rfl, -⟩ := List.cons.inj h
      exact absurd hy (ha z List.mem_cons_self)
    | cons w c =>
      obtain ⟨rfl, htail⟩ := List.cons.inj h
      obtain ⟨rfl, rfl, rfl⟩ := ih (fun z hz => ha z (List.mem_cons_of_mem _ hz)) htail
      exact ⟨rfl, rfl, rfl⟩

/-- A place in two lists one after the other is a place in one of them. -/
theorem append_eq_split {α : Type} {a b c d : List α} {x : α} (h : a ++ b = c ++ x :: d) :
    (∃ d', a = c ++ x :: d' ∧ d = d' ++ b) ∨ ∃ c', c = a ++ c' ∧ b = c' ++ x :: d := by
  rcases List.append_eq_append_iff.1 h with ⟨c', rfl, rfl⟩ | ⟨d', rfl, hd⟩
  · exact .inr ⟨c', rfl, rfl⟩
  · cases d' with
    | nil => exact .inr ⟨[], by simp, by simpa using hd.symm⟩
    | cons y d' =>
      obtain ⟨rfl, rfl⟩ := List.cons.inj hd
      exact .inl ⟨d', rfl, rfl⟩

/-! ## One page -/

section
variable {fails : Prop} {first : Nat} {sheet : Sheet} {calls : List Call}
  {failure : Option RenderError} {log : Log}

theorem disciplined_nil (first : Nat) : Disciplined first [] none [] where
  once := rfl
  beforeNext := by simp
  whole := by simp
  stops := by simp [afterFailure]
  failure := rfl
  log := rfl
  numbered := by simp

theorem disciplined_refused (setup : PageSetup) (e : RenderError) :
    Disciplined first [.begin setup (some e)] (some e) [] where
  once := rfl
  beforeNext before setup' outcome after h := by
    obtain ⟨rfl, -, -⟩ := split_unique (p := fun _ => True) (a := []) (b := [])
      (by simp) (by simp) trivial h
    rfl
  whole before page sheet outcome after h := by simp [List.singleton_eq_append_iff] at h
  stops := by simp [afterFailure, Call.failure?]
  failure := rfl
  log := rfl
  numbered := by simp [Call.page?]

/-- A page that is opened, drawn on and committed, where of the drawing at most the end fails. -/
theorem disciplined_page (setup : PageSetup) {draws : List Call} (outcome : Option RenderError)
    (hd : ∀ call ∈ draws, ∃ stroke o, call = .draw first stroke o)
    (hstops : afterFailure draws = [])
    (hfailure : failure = (failures draws ++ outcome.toList).head?)
    (hlog : log = (failures draws ++ outcome.toList).tail.flatMap fun e => abandonLog (some e)) :
    Disciplined first (.begin setup none ::
      (draws ++ [.commit first ⟨setup, strokesOn first draws⟩ outcome])) failure log := by
  have hcommitted : committed draws = [] := List.filterMap_eq_nil_iff.2 fun call hc => by
    obtain ⟨stroke, o, rfl⟩ := hd call hc
    rfl
  have hopened : opened draws = 0 := List.countP_eq_zero.2 fun call hc => by
    obtain ⟨stroke, o, rfl⟩ := hd call hc
    simp [Call.opens]
  have hfailures (sheet : Sheet) : failures (.begin setup none :: (draws ++
      [.commit first sheet outcome])) = failures draws ++ outcome.toList := by
    rw [← List.singleton_append, failures_append, failures_append]
    cases outcome <;> rfl
  constructor
  case once =>
    rw [← List.singleton_append, committed_append, committed_append, hcommitted, opened_append,
      opened_append, hopened]
    rfl
  case beforeNext =>
    intro before setup' o after h
    have hnone : ∀ call ∈ draws ++ [Call.commit first ⟨setup, strokesOn first draws⟩ outcome],
        ¬ call.page? = none := fun call hc => by
      rcases List.mem_append.1 hc with hc | hc
      · obtain ⟨stroke, o, rfl⟩ := hd call hc
        simp [Call.page?]
      · cases List.mem_singleton.1 hc
        simp [Call.page?]
    obtain ⟨rfl, -, -⟩ := split_unique (a := []) (by simp) hnone rfl h
    rfl
  case whole =>
    intro before page sheet o after h
    have hnone : ∀ call ∈ Call.begin setup none :: draws, ¬ call.committed?.isSome = true :=
      List.forall_mem_cons.2 ⟨by simp [Call.committed?], fun call hc => by
        obtain ⟨stroke, o, rfl⟩ := hd call hc
        simp [Call.committed?]⟩
    rw [← List.cons_append] at h
    obtain ⟨rfl, hcommit, rfl⟩ := split_unique (b := []) hnone (by simp) rfl h
    cases hcommit
    exact ⟨rfl, rfl⟩
  case stops =>
    intro call hc
    rw [← List.singleton_append, afterFailure_append rfl] at hc
    rcases mem_afterFailure_append hc with hc | hc
    · simp [hstops] at hc
    · cases List.mem_singleton.1 hc
      rfl
  case failure => rw [hfailure, hfailures]
  case log => rw [hlog, hfailures]
  case numbered =>
    have hone : opened (.begin setup none :: (draws ++
        [.commit first ⟨setup, strokesOn first draws⟩ outcome])) = 1 := by
      rw [← List.singleton_append, opened_append, opened_append, hopened]
      rfl
    intro call hc page hp
    have hfirst : page = first := by
      rcases List.mem_cons.1 hc with rfl | hc
      · cases hp
      · rcases List.mem_append.1 hc with hc | hc
        · obtain ⟨stroke, o, rfl⟩ := hd call hc
          exact (Option.some.inj hp).symm
        · cases List.mem_singleton.1 hc
          exact (Option.some.inj hp).symm
    omega

theorem mem_drawn {page : Nat} {strokes : List Stroke} {call : Call} :
    call ∈ drawn page strokes → ∃ stroke o, call = .draw page stroke o := fun h => by
  obtain ⟨stroke, -, rfl⟩ := List.mem_map.1 h
  exact ⟨stroke, none, rfl⟩

theorem WrotePage.disciplined (h : WrotePage fails first sheet calls failure log) :
    Disciplined first calls failure log := by
  cases h with
  | refused e => exact disciplined_refused sheet.setup e
  | begun h =>
    generalize hs : sheet.strokes = strokes at h
    cases h with
    | closed failure =>
      have hstops : afterFailure (drawn first strokes) = [] := by
        simpa [afterFailure] using afterFailure_append (b := []) (failures_drawn first strokes)
      have hp := disciplined_page sheet.setup failure (fun _ => mem_drawn) hstops rfl rfl
      cases failure <;> simpa using hp
    | @interrupted made rest stroke e failure =>
      have hdraws : ∀ call ∈ drawn first made ++ [.draw first stroke (some e)],
          ∃ stroke o, call = .draw first stroke o := fun call hc => by
        rcases List.mem_append.1 hc with hc | hc
        · exact mem_drawn hc
        · exact ⟨stroke, some e, List.mem_singleton.1 hc⟩
      have hp := disciplined_page sheet.setup failure hdraws
        (by rw [afterFailure_append (failures_drawn first made)]; rfl) rfl rfl
      have hstroke : strokesOn first [.draw first stroke (some e)] = [stroke] := by
        simp [strokesOn, Call.strokeOn?]
      have hfailure : failures [.draw first stroke (some e)] = [e] := rfl
      cases failure <;> simpa [hstroke, hfailure, abandonLog] using hp

/-! ## One page after the other -/

/-- What is written without an error may be followed by what is written to the next pages. -/
theorem Disciplined.append {more : List Call} (ha : Disciplined first calls none [])
    (hb : Disciplined (first + opened calls) more failure log) :
    Disciplined first (calls ++ more) failure log := by
  have hnone : failures calls = [] := List.head?_eq_none_iff.1 ha.failure.symm
  have hbelow {page : Nat} (hp : page < first + opened calls) : strokesOn page more = [] :=
    strokesOn_eq_nil fun call hc p hpage => by
      have := hb.numbered call hc p hpage
      omega
  have habove {page : Nat} (hp : first + opened calls ≤ page) : strokesOn page calls = [] :=
    strokesOn_eq_nil fun call hc p hpage => by
      have := ha.numbered call hc p hpage
      omega
  constructor
  case once =>
    rw [committed_append, opened_append, ha.once, hb.once, List.range'_append_1]
  case beforeNext =>
    intro before setup outcome after h
    rcases append_eq_split h with ⟨after', hs, rfl⟩ | ⟨before', rfl, hs⟩
    · exact ha.beforeNext _ _ _ _ hs
    · rw [committed_append, opened_append, ha.once, hb.beforeNext _ _ _ _ hs, List.range'_append_1]
  case whole =>
    intro before page sheet outcome after h
    rcases append_eq_split h with ⟨after', hs, rfl⟩ | ⟨before', rfl, hs⟩
    · obtain ⟨hbefore, hafter⟩ := ha.whole _ _ _ _ _ hs
      have hp := ha.numbered (.commit page sheet outcome) (by simp [hs]) page rfl
      exact ⟨hbefore, by rw [strokesOn_append, hafter, hbelow hp.2]; rfl⟩
    · obtain ⟨hbefore, hafter⟩ := hb.whole _ _ _ _ _ hs
      have hp := hb.numbered (.commit page sheet outcome) (by simp [hs]) page rfl
      rw [strokesOn_append, habove hp.1]
      exact ⟨hbefore, hafter⟩
  case stops =>
    rw [afterFailure_append hnone]
    exact hb.stops
  case failure => rw [failures_append, hnone, List.nil_append, hb.failure]
  case log => rw [failures_append, hnone, List.nil_append, ← hb.log]
  case numbered =>
    intro call hc page hp
    rw [opened_append]
    rcases List.mem_append.1 hc with hc | hc
    · have := ha.numbered call hc page hp
      omega
    · have := hb.numbered call hc page hp
      omega

theorem Wrote.disciplined {sheets : List Sheet} (h : Wrote fails first sheets calls failure log) :
    Disciplined first calls failure log := by
  induction h with
  | nil page => exact disciplined_nil page
  | next h _ ih => exact h.disciplined.append (h.opened_of_none ▸ ih)
  | stop h => exact h.disciplined

end

/-! ## Runs -/

/-- `record` is what `run` becomes over the recorded sink: it comes to the same, and its calls are
disciplined. -/
structure Drawn.IsDisciplined {σ α : Type} (run : Drawn σ α) (record : Drawn (Recording σ) α) :
    Prop where
  result : record.result = run.result
  log : record.log = run.log
  state : record.state.inner = run.state
  calls : Disciplined 0 record.state.calls (failureOf run.result) (warnings run.log)

/-- Whatever calls of a sink fail, every page that is opened is committed once, be it that the lines
of a source page are written or that a whole document is rendered. -/
theorem committed_once {σ κ : Type} (sink : Sink σ κ) (state : σ) :
    (∀ (setup : PageSetup) (lines : List Line) (header : Nat → Line),
      (sink.writeLines setup lines header state).IsDisciplined
        (sink.recorded.writeLines setup lines header ⟨state, []⟩)) ∧
    ∀ (renderer : Renderer) (pages : List Page) (translations : Translations)
      (sizes : List (Option PageSize)),
      (renderer.render sink pages translations sizes state).IsDisciplined
        (renderer.render sink.recorded pages translations sizes ⟨state, []⟩) := by
  constructor
  · intro setup lines header
    obtain ⟨calls, hrec, hw, -⟩ := sink.writeLines_recorded setup lines header ⟨state, []⟩
    rw [hrec]
    have hd := hw.disciplined
    rw [← hw.warnings] at hd
    exact ⟨rfl, rfl, rfl, hd⟩
  · intro renderer pages translations sizes
    obtain ⟨calls, hrec, hw, -⟩ :=
      renderer.renderSorted_recorded sink translations sizes (Page.sort pages) ⟨state, []⟩
    rw [Renderer.render, Renderer.render, hrec]
    exact ⟨rfl, rfl, rfl, hw.disciplined⟩

end Folio
