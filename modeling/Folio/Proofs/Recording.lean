import Folio.Renderer

/-!
# Recording what is done to a sink

`Sink.recorded` is a sink that does what another one does and keeps a record of all calls. What is
written to it comes to the same result, log and inner state (`writeLines_recorded`,
`renderSorted_recorded`), and its record keeps the grammar `Wrote`: pages are opened, drawn and
closed one after the other as they were meant, up to the first call that fails; if that was drawing,
the page is committed as it is, and nothing else follows.
-/

set_option autoImplicit false

namespace Folio

/-! ## Records -/

/-- What is drawn on a page: text, or the step to the next line. -/
inductive Stroke where
  | text (line : Line)
  | lineBreak
deriving DecidableEq

/-- An output page: how it is set up, and what is drawn on it. -/
structure Sheet where
  setup : PageSetup
  strokes : List Stroke
deriving DecidableEq

/-- A call of a sink, with the error that it ended in, if any. Opened pages are numbered from zero,
and a commit tells all that was drawn on its canvas. -/
inductive Call where
  | begin (setup : PageSetup) (failure : Option RenderError)
  | draw (page : Nat) (stroke : Stroke) (failure : Option RenderError)
  | commit (page : Nat) (sheet : Sheet) (failure : Option RenderError)
deriving DecidableEq

namespace Call

def failure? : Call → Option RenderError
  | begin _ failure => failure
  | draw _ _ failure => failure
  | commit _ _ failure => failure

/-- Whether a page was opened. -/
def opens : Call → Bool
  | begin _ none => true
  | _ => false

end Call

/-- How many pages were opened. -/
def opened (calls : List Call) : Nat := calls.countP Call.opens

@[simp] theorem opened_append (a b : List Call) : opened (a ++ b) = opened a + opened b :=
  List.countP_append

/-- The error that a result is. -/
def failureOf {α : Type} : Except RenderError α → Option RenderError
  | .ok _ => none
  | .error e => some e

@[simp] theorem failureOf_map {α β : Type} (f : α → β) (result : Except RenderError α) :
    failureOf (result.map f) = failureOf result := by
  cases result <;> rfl

theorem map_eq_ok {ε α β : Type} {f : α → β} {result : Except ε α} {b : β}
    (h : result.map f = .ok b) : ∃ a, result = .ok a ∧ f a = b := by
  cases result with
  | error e => cases h
  | ok a => exact ⟨a, rfl, Except.ok.inj h⟩

/-- The state of a sink with the record of its calls, oldest first. -/
structure Recording (σ : Type) where
  inner : σ
  calls : List Call

/-- A canvas with the number of its page and what happened to it. -/
structure Tracked (κ : Type) where
  inner : κ
  page : Nat
  sheet : Sheet

variable {σ κ : Type}

/-- The record goes on with calls that lead to a state. -/
def Recording.after (recording : Recording σ) (state : σ) (calls : List Call) : Recording σ :=
  ⟨state, recording.calls ++ calls⟩

/-- More was drawn on a canvas. -/
def Tracked.after (canvas : Tracked κ) (inner : κ) (strokes : List Stroke) : Tracked κ :=
  ⟨inner, canvas.page, ⟨canvas.sheet.setup, canvas.sheet.strokes ++ strokes⟩⟩

/-- A run, where the state has the record of its calls. -/
def Drawn.recorded {α : Type} (run : Drawn σ α) (recording : Recording σ) (calls : List Call) :
    Drawn (Recording σ) α :=
  ⟨run.result, run.log, recording.after run.state calls⟩

namespace Sink

/-- The sink that does what `sink` does and keeps a record of it. -/
def recorded (sink : Sink σ κ) : Sink (Recording σ) (Tracked κ) where
  beginPage setup recording :=
    let (result, state) := sink.beginPage setup recording.inner
    (result.map (⟨·, opened recording.calls, ⟨setup, []⟩⟩),
      recording.after state [.begin setup (failureOf result)])
  showText line canvas recording :=
    let (result, inner, state) := sink.showText line canvas.inner recording.inner
    (result, canvas.after inner [.text line],
      recording.after state [.draw canvas.page (.text line) (failureOf result)])
  newLine canvas recording :=
    let (result, inner, state) := sink.newLine canvas.inner recording.inner
    (result, canvas.after inner [.lineBreak],
      recording.after state [.draw canvas.page .lineBreak (failureOf result)])
  commitPage canvas recording :=
    let (result, state) := sink.commitPage canvas.inner recording.inner
    (result, recording.after state [.commit canvas.page canvas.sheet (failureOf result)])

/-- No call of the sink fails. -/
structure Reliable (sink : Sink σ κ) : Prop where
  beginPage : ∀ setup state, failureOf (sink.beginPage setup state).1 = none
  showText : ∀ line canvas state, failureOf (sink.showText line canvas state).1 = none
  newLine : ∀ canvas state, failureOf (sink.newLine canvas state).1 = none
  commitPage : ∀ canvas state, failureOf (sink.commitPage canvas state).1 = none

end Sink

/-! ## The grammar of a record -/

/-- What is drawn for a line. -/
def strokesOf (line : Line) : List Stroke :=
  if line.isEmpty then [.lineBreak] else [.text line, .lineBreak]

/-- What is drawn for a header; for a blank one, nothing is. -/
def headerStrokes (header : Line) : List Stroke :=
  if header.isEmpty then [] else strokesOf header

/-- The output page that is meant with a header and lines. -/
def PageSetup.sheet (setup : PageSetup) (header : Line) (lines : List Line) : Sheet :=
  ⟨setup, headerStrokes header ++ lines.flatMap strokesOf⟩

/-- The output pages that are meant with the lines of each and a header by index. -/
def PageSetup.sheets (setup : PageSetup) (header : Nat → Line) (segment : Nat)
    (pages : List (List Line)) : List Sheet :=
  (pages.zipIdx segment).map fun (lines, i) => setup.sheet (header i) lines

theorem PageSetup.sheets_cons (setup : PageSetup) (header : Nat → Line) (segment : Nat)
    (lines : List Line) (pages : List (List Line)) :
    setup.sheets header segment (lines :: pages) =
      setup.sheet (header segment) lines :: setup.sheets header (segment + 1) pages := rfl

/-- Strokes that are drawn on a page. -/
def drawn (page : Nat) (strokes : List Stroke) : List Call :=
  strokes.map fun stroke => .draw page stroke none

/-- What is reported about a page that is committed as it is. -/
def abandonLog : Option RenderError → Log
  | none => []
  | some e => Log.warn ("Failed to commit page after an interrupted write: " ++ e.message)

/-- The calls that finish a page on which `before` is drawn and `strokes` are to follow, with the
error and the log that they come to. Where something fails, `fails` must hold. -/
inductive Finished (fails : Prop) (page : Nat) (setup : PageSetup) (before : List Stroke) :
    List Stroke → List Call → Option RenderError → Log → Prop
  | closed {strokes : List Stroke} (failure : Option RenderError) (h : failure ≠ none → fails) :
      Finished fails page setup before strokes
        (drawn page strokes ++ [.commit page ⟨setup, before ++ strokes⟩ failure]) failure []
  | interrupted {made rest : List Stroke} {stroke : Stroke} {e : RenderError}
      (failure : Option RenderError) (h : fails) :
      Finished fails page setup before (made ++ stroke :: rest)
        (drawn page made ++ [.draw page stroke (some e),
          .commit page ⟨setup, before ++ (made ++ [stroke])⟩ failure]) (some e) (abandonLog failure)

/-- The calls that write a page. -/
inductive WrotePage (fails : Prop) (page : Nat) (sheet : Sheet) :
    List Call → Option RenderError → Log → Prop
  | refused (e : RenderError) (h : fails) :
      WrotePage fails page sheet [.begin sheet.setup (some e)] (some e) []
  | begun {calls : List Call} {failure : Option RenderError} {log : Log}
      (h : Finished fails page sheet.setup [] sheet.strokes calls failure log) :
      WrotePage fails page sheet (.begin sheet.setup none :: calls) failure log

/-- The calls that write pages one after the other, numbered from `page` on, up to the first that
fails. -/
inductive Wrote (fails : Prop) : Nat → List Sheet → List Call → Option RenderError → Log → Prop
  | nil (page : Nat) : Wrote fails page [] [] none []
  | next {page : Nat} {sheet : Sheet} {sheets : List Sheet} {calls more : List Call}
      {failure : Option RenderError} {log : Log} (h : WrotePage fails page sheet calls none [])
      (hs : Wrote fails (page + 1) sheets more failure log) :
      Wrote fails page (sheet :: sheets) (calls ++ more) failure log
  | stop {page : Nat} {sheet : Sheet} {sheets : List Sheet} {calls : List Call} {e : RenderError}
      {log : Log} (h : WrotePage fails page sheet calls (some e) log) :
      Wrote fails page (sheet :: sheets) calls (some e) log

section
variable {fails : Prop} {page : Nat} {setup : PageSetup} {before strokes more : List Stroke}
  {calls : List Call} {failure : Option RenderError} {log : Log}

/-- What is drawn first belongs to what finishes a page. -/
theorem Finished.after_drawn
    (h : Finished fails page setup (before ++ more) strokes calls failure log) :
    Finished fails page setup before (more ++ strokes) (drawn page more ++ calls) failure log := by
  cases h with
  | closed failure h =>
    have hc : Finished fails page setup before (more ++ strokes)
        (drawn page (more ++ strokes) ++
          [.commit page ⟨setup, before ++ (more ++ strokes)⟩ failure])
        failure [] := .closed failure h
    simpa [drawn] using hc
  | @interrupted made rest stroke e failure h =>
    have hi : Finished fails page setup before (more ++ made ++ stroke :: rest)
        (drawn page (more ++ made) ++ [.draw page stroke (some e),
          .commit page ⟨setup, before ++ (more ++ made ++ [stroke])⟩ failure])
        (some e) (abandonLog failure) := .interrupted failure h
    simpa [drawn] using hi

/-- Drawing that was interrupted would have been, whatever was to follow. -/
theorem Finished.or_more {e : RenderError} (made rest : List Stroke) (stroke : Stroke) (h : fails)
    (hs : strokes = made ++ stroke :: rest) :
    Finished fails page setup before (strokes ++ more)
      (drawn page made ++ [.draw page stroke (some e),
        .commit page ⟨setup, before ++ (made ++ [stroke])⟩ failure]) (some e)
      (abandonLog failure) := by
  subst hs
  rw [List.append_assoc, List.cons_append]
  exact .interrupted failure h

theorem Finished.of_none (h : Finished fails page setup before strokes calls none log) :
    calls = drawn page strokes ++ [.commit page ⟨setup, before ++ strokes⟩ none] ∧ log = [] := by
  cases h with
  | closed => exact ⟨rfl, rfl⟩

/-- A page without an error is opened, drawn as it was meant and committed. -/
theorem WrotePage.of_none {sheet : Sheet} (h : WrotePage fails page sheet calls none log) :
    calls = .begin sheet.setup none :: (drawn page sheet.strokes ++ [.commit page sheet none]) ∧
      log = [] := by
  cases h with
  | begun h =>
    obtain ⟨rfl, rfl⟩ := h.of_none
    exact ⟨rfl, rfl⟩

@[simp] theorem opened_drawn : opened (drawn page strokes) = 0 := by
  simp [opened, drawn, List.countP_eq_zero, Call.opens]

theorem WrotePage.opened_of_none {sheet : Sheet} (h : WrotePage fails page sheet calls none log) :
    opened calls = 1 := by
  rw [h.of_none.1, ← List.singleton_append, opened_append, opened_append, opened_drawn]
  rfl

theorem Wrote.of_none {sheets : List Sheet} (h : Wrote fails page sheets calls none log) :
    opened calls = sheets.length ∧ log = [] := by
  generalize hf : (none : Option RenderError) = failure at h
  induction h with
  | nil => exact ⟨rfl, rfl⟩
  | next h hs ih =>
    rw [opened_append, h.opened_of_none, (ih hf).1, List.length_cons]
    exact ⟨Nat.add_comm _ _, (ih hf).2⟩
  | stop => cases hf

/-- Pages that are written without an error may be followed by others. -/
theorem Wrote.append {sheets others : List Sheet} {later : List Call}
    (h : Wrote fails page sheets calls none [])
    (ho : Wrote fails (page + sheets.length) others later failure log) :
    Wrote fails page (sheets ++ others) (calls ++ later) failure log := by
  generalize hf : (none : Option RenderError) = none' at h
  generalize hl : ([] : Log) = log' at h
  induction h with
  | nil => exact ho
  | next h hs ih =>
    rw [List.cons_append, List.append_assoc]
    refine .next h (ih ?_ hf hl)
    rwa [List.length_cons, Nat.add_comm _ 1, ← Nat.add_assoc] at ho
  | stop => cases hf

/-- Pages that were meant to follow an error do not matter. -/
theorem Wrote.or_more {sheets : List Sheet} {e : RenderError}
    (h : Wrote fails page sheets calls (some e) log) (others : List Sheet) :
    Wrote fails page (sheets ++ others) calls (some e) log := by
  generalize hf : some e = failure at h
  induction h with
  | nil => cases hf
  | next h hs ih => exact .next h (ih hf)
  | stop h => exact .stop h

end

/-! ## What is recorded -/

namespace Sink

variable (sink : Sink σ κ)

theorem not_reliable_of_newLine {canvas inner : κ} {state state' : σ} {e : RenderError}
    (h : sink.newLine canvas state = (.error e, inner, state')) : ¬ sink.Reliable := fun hr => by
  simpa [h, failureOf] using hr.newLine canvas state

/-- A line is drawn with the strokes that are meant, or with the first ones, of which the last
fails. -/
theorem drawLine_recorded (line : Line) (canvas : Tracked κ) (r : Recording σ) :
    ∃ inner state,
      (sink.drawLine line canvas.inner r.inner = (.ok (), inner, state) ∧
        sink.recorded.drawLine line canvas r =
          (.ok (), canvas.after inner (strokesOf line),
            r.after state (drawn canvas.page (strokesOf line)))) ∨
      ∃ e made stroke rest, ¬ sink.Reliable ∧ strokesOf line = made ++ stroke :: rest ∧
        sink.drawLine line canvas.inner r.inner = (.error e, inner, state) ∧
        sink.recorded.drawLine line canvas r =
          (.error e, canvas.after inner (made ++ [stroke]),
            r.after state (drawn canvas.page made ++ [.draw canvas.page stroke (some e)])) := by
  unfold drawLine strokesOf
  by_cases hl : line.isEmpty
  · rcases hn : sink.newLine canvas.inner r.inner with ⟨_ | u, inner, state⟩
    · rename_i e
      refine ⟨inner, state, .inr ⟨e, [], .lineBreak, [], sink.not_reliable_of_newLine hn, ?_⟩⟩
      simp [hl, recorded, hn, failureOf, drawn]
    · exact ⟨inner, state, .inl (by simp [hl, recorded, hn, failureOf, drawn])⟩
  · rcases ht : sink.showText line canvas.inner r.inner with ⟨_ | u, inner, state⟩
    · rename_i e
      have hr : ¬ sink.Reliable := fun hr => by
        simpa [ht, failureOf] using hr.showText line canvas.inner r.inner
      refine ⟨inner, state, .inr ⟨e, [], .text line, [.lineBreak], hr, ?_⟩⟩
      simp [hl, recorded, ht, failureOf, drawn]
    · rcases hn : sink.newLine inner state with ⟨_ | u, inner', state'⟩
      · rename_i e
        refine ⟨inner', state', .inr ⟨e, [.text line], .lineBreak, [],
          sink.not_reliable_of_newLine hn, ?_⟩⟩
        simp [hl, recorded, ht, hn, failureOf, drawn, Tracked.after, Recording.after]
      · refine ⟨inner', state', .inl ?_⟩
        simp [hl, recorded, ht, hn, failureOf, drawn, Tracked.after, Recording.after]

theorem abandonPage_recorded (canvas : Tracked κ) (r : Recording σ) :
    ∃ failure state, sink.abandonPage canvas.inner r.inner = (abandonLog failure, state) ∧
      sink.recorded.abandonPage canvas r =
        (abandonLog failure, r.after state [.commit canvas.page canvas.sheet failure]) := by
  unfold abandonPage
  rcases hc : sink.commitPage canvas.inner r.inner with ⟨_ | u, state⟩
  · rename_i e
    exact ⟨some e, state, by simp [recorded, hc, failureOf, abandonLog]⟩
  · exact ⟨none, state, by simp [recorded, hc, failureOf, abandonLog]⟩

theorem openPage_recorded (setup : PageSetup) (header : Line) (r : Recording σ) :
    (∃ inner state,
      sink.openPage setup header r.inner = ⟨.ok ⟨inner, setup.firstCursor⟩, [], state⟩ ∧
      sink.recorded.openPage setup header r =
        ⟨.ok ⟨⟨inner, opened r.calls, ⟨setup, headerStrokes header⟩⟩, setup.firstCursor⟩, [],
          r.after state (.begin setup none :: drawn (opened r.calls) (headerStrokes header))⟩) ∨
    ∃ e calls log state, sink.openPage setup header r.inner = ⟨.error e, log, state⟩ ∧
      sink.recorded.openPage setup header r = ⟨.error e, log, r.after state calls⟩ ∧
      ∀ more, WrotePage (¬ sink.Reliable) (opened r.calls) ⟨setup, headerStrokes header ++ more⟩
        calls (some e) log := by
  unfold openPage
  rcases hb : sink.beginPage setup r.inner with ⟨_ | inner, state⟩
  · rename_i e
    have hr : ¬ sink.Reliable := fun hr => by
      simpa [hb, failureOf] using hr.beginPage setup r.inner
    refine .inr ⟨e, [.begin setup (some e)], [], state, rfl, ?_, fun more => .refused e hr⟩
    simp [recorded, hb, failureOf, Except.map]
  · have hbegin : sink.recorded.beginPage setup r =
        (.ok ⟨inner, opened r.calls, ⟨setup, []⟩⟩, r.after state [.begin setup none]) := by
      simp [recorded, hb, failureOf, Except.map]
    rw [hbegin]
    by_cases hh : header.isEmpty
    · exact .inl ⟨inner, state, by simp [hh, headerStrokes, drawn]⟩
    · rcases sink.drawLine_recorded header ⟨inner, opened r.calls, ⟨setup, []⟩⟩
        (r.after state [.begin setup none]) with ⟨inner', state', hd | hd⟩
      · obtain ⟨hd, hrec⟩ := hd
        refine .inl ⟨inner', state', ?_⟩
        simp only [Recording.after] at hd
        simp only [hh, Bool.false_eq_true, ↓reduceIte, headerStrokes, hd, hrec]
        simp [Recording.after, Tracked.after]
      · obtain ⟨e, made, stroke, rest, hr, hs, hd, hrec⟩ := hd
        simp only [Recording.after] at hd
        obtain ⟨failure, state'', ha, harec⟩ := sink.abandonPage_recorded
          (Tracked.after ⟨inner, opened r.calls, ⟨setup, []⟩⟩ inner' (made ++ [stroke]))
          ((r.after state [.begin setup none]).after state'
            (drawn (opened r.calls) made ++ [.draw (opened r.calls) stroke (some e)]))
        simp only [Recording.after, Tracked.after] at ha
        refine .inr ⟨e, .begin setup none :: (drawn (opened r.calls) made ++
          [.draw (opened r.calls) stroke (some e),
            .commit (opened r.calls) ⟨setup, [] ++ (made ++ [stroke])⟩ failure]),
          abandonLog failure, state'', ?_, ?_, fun more => .begun ?_⟩
        · simp [hh, hd, ha]
        · simp only [hh, Bool.false_eq_true, ↓reduceIte, hrec, harec]
          simp [Recording.after, Tracked.after]
        · simp only [headerStrokes, hh]
          exact Finished.or_more made rest stroke hr hs

/-- Whatever was drawn before, the lines are drawn and the page is committed, once. -/
theorem finishPage_recorded (setup : PageSetup) (inner : κ) (page : Nat) (before : List Stroke)
    (cursor : Float32) (r : Recording σ) (lines : List Line) :
    let run := sink.finishPage setup ⟨inner, cursor⟩ r.inner lines
    ∃ calls, sink.recorded.finishPage setup ⟨⟨inner, page, ⟨setup, before⟩⟩, cursor⟩ r lines =
        run.recorded r calls ∧
      Finished (¬ sink.Reliable) page setup before (lines.flatMap strokesOf) calls
        (failureOf run.result) run.log := by
  induction lines generalizing inner before cursor r with
  | nil =>
    refine ⟨[.commit page ⟨setup, before⟩
      (failureOf (sink.commitPage inner r.inner).1)], rfl, ?_⟩
    have hc : Finished (¬ sink.Reliable) page setup before [] (drawn page [] ++
        [.commit page ⟨setup, before ++ []⟩ (failureOf (sink.commitPage inner r.inner).1)])
        (failureOf (sink.commitPage inner r.inner).1) [] :=
      .closed _ fun hne hr => hne (hr.commitPage inner r.inner)
    simpa [drawn, finishPage] using hc
  | cons line lines ih =>
    rcases sink.drawLine_recorded line ⟨inner, page, ⟨setup, before⟩⟩ r with
      ⟨inner', state, hd | hd⟩
    · obtain ⟨hd, hrec⟩ := hd
      obtain ⟨calls, hrun, hf⟩ := ih inner' (before ++ strokesOf line) (cursor - setup.leading)
        (r.after state (drawn page (strokesOf line)))
      refine ⟨drawn page (strokesOf line) ++ calls, ?_, ?_⟩
      · simp only [finishPage, writeLine, hd, hrec, Tracked.after]
        rw [hrun]
        simp [Drawn.recorded, Recording.after]
      · simp only [finishPage, writeLine, hd, List.flatMap_cons]
        exact hf.after_drawn
    · obtain ⟨e, made, stroke, rest, hr, hs, hd, hrec⟩ := hd
      obtain ⟨failure, state', ha, harec⟩ := sink.abandonPage_recorded
        (Tracked.after ⟨inner, page, ⟨setup, before⟩⟩ inner' (made ++ [stroke]))
        (r.after state (drawn page made ++ [.draw page stroke (some e)]))
      simp only [Recording.after, Tracked.after] at ha
      refine ⟨drawn page made ++ [.draw page stroke (some e),
        .commit page ⟨setup, before ++ (made ++ [stroke])⟩ failure], ?_, ?_⟩
      · simp only [finishPage, writeLine, hd, hrec, harec, ha]
        simp [Drawn.recorded, Recording.after, Tracked.after]
      · simp only [finishPage, writeLine, hd, ha, List.flatMap_cons]
        exact Finished.or_more made rest stroke hr hs

theorem writePage_recorded (setup : PageSetup) (header : Line) (lines : List Line)
    (r : Recording σ) :
    let run := sink.writePage setup header lines r.inner
    ∃ calls, sink.recorded.writePage setup header lines r = run.recorded r calls ∧
      WrotePage (¬ sink.Reliable) (opened r.calls) (setup.sheet header lines) calls
        (failureOf run.result) run.log := by
  unfold writePage
  rcases sink.openPage_recorded setup header r with ⟨inner, state, ho, hrec⟩ | h
  · obtain ⟨calls, hrun, hf⟩ := sink.finishPage_recorded setup inner (opened r.calls)
      (headerStrokes header) setup.firstCursor
      (r.after state (.begin setup none :: drawn (opened r.calls) (headerStrokes header))) lines
    refine ⟨.begin setup none :: (drawn (opened r.calls) (headerStrokes header) ++ calls), ?_,
      .begun ?_⟩
    · rw [ho, hrec]
      simp only
      rw [hrun]
      simp [Drawn.recorded, Recording.after]
    · simp only [ho, List.nil_append]
      exact Finished.after_drawn hf
  · obtain ⟨e, calls, log, state, ho, hrec, hw⟩ := h
    exact ⟨calls, by simp [ho, hrec, Drawn.recorded], by rw [ho]; exact hw _⟩

theorem writePages_recorded (setup : PageSetup) (header : Nat → Line) (segment : Nat)
    (r : Recording σ) (pages : List (List Line)) :
    let run := sink.writePages setup header segment r.inner pages
    ∃ calls, sink.recorded.writePages setup header segment r pages = run.recorded r calls ∧
      Wrote (¬ sink.Reliable) (opened r.calls) (setup.sheets header segment pages) calls
        (failureOf run.result) run.log := by
  induction pages generalizing segment r with
  | nil => exact ⟨[], by simp [writePages, Drawn.recorded, Recording.after], .nil _⟩
  | cons lines pages ih =>
    obtain ⟨calls, hrec, hw⟩ := sink.writePage_recorded setup (header segment) lines r
    rcases hrun : sink.writePage setup (header segment) lines r.inner with ⟨_ | u, log, state⟩
    · rename_i e
      rw [hrun] at hrec hw
      refine ⟨calls, ?_, ?_⟩
      · simp [writePages, hrec, hrun, Drawn.recorded]
      · simp only [writePages, hrun, PageSetup.sheets_cons]
        exact .stop hw
    · rw [hrun] at hrec hw
      have hlog : log = [] := hw.of_none.2
      have hopened : opened calls = 1 := hw.opened_of_none
      subst hlog
      obtain ⟨more, hrec', hw'⟩ := ih (segment + 1) (r.after state calls)
      refine ⟨calls ++ more, ?_, ?_⟩
      · simp only [writePages, hrec, hrun, Drawn.recorded]
        rw [hrec']
        simp [Drawn.recorded, Recording.after]
      · simp only [writePages, hrun, List.nil_append, PageSetup.sheets_cons]
        simp only [Recording.after, opened_append, hopened] at hw'
        exact .next hw hw'

/-- The lines of a source page are written to as many pages as they are divided among. -/
theorem writeLines_recorded (setup : PageSetup) (lines : List Line) (header : Nat → Line)
    (r : Recording σ) :
    let run := sink.writeLines setup lines header r.inner
    let sheets := setup.sheets header 0 (setup.paginate lines)
    ∃ calls, sink.recorded.writeLines setup lines header r = run.recorded r calls ∧
      Wrote (¬ sink.Reliable) (opened r.calls) sheets calls (failureOf run.result) run.log ∧
      ∀ count, run.result = .ok count → count = sheets.length := by
  obtain ⟨calls, hrec, hw⟩ :=
    sink.writePages_recorded setup header 0 r (setup.paginate lines)
  have hlength : (setup.sheets header 0 (setup.paginate lines)).length =
      (setup.paginate lines).length := by simp [PageSetup.sheets]
  refine ⟨calls, by simp [writeLines, hrec, Drawn.recorded], by simpa [writeLines] using hw,
    fun count hc => ?_⟩
  obtain ⟨-, -, rfl⟩ := map_eq_ok hc
  exact hlength.symm

end Sink

/-! ## Rendering -/

/-- The warnings in a log. -/
def warnings (log : Log) : Log := log.filter (·.level = .warn)

@[simp] theorem warnings_append (a b : Log) : warnings (a ++ b) = warnings a ++ warnings b :=
  List.filter_append _ _

@[simp] theorem warnings_debug (message : String) : warnings (Log.debug message) = [] := rfl

theorem warnings_abandonLog (failure : Option RenderError) :
    warnings (abandonLog failure) = abandonLog failure := by
  cases failure <;> rfl

/-- Writing pages reports nothing but warnings. -/
theorem Wrote.warnings {fails : Prop} {page : Nat} {sheets : List Sheet} {calls : List Call}
    {failure : Option RenderError} {log : Log} (h : Wrote fails page sheets calls failure log) :
    warnings log = log := by
  induction h with
  | nil => rfl
  | next _ _ ih => exact ih
  | stop h =>
    cases h with
    | refused => rfl
    | begun h =>
      generalize hs : (Sheet.strokes _) = strokes at h
      cases h with
      | closed => rfl
      | interrupted failure => exact warnings_abandonLog failure

namespace Renderer

variable (renderer : Renderer) (sink : Sink σ κ) (translations : Translations)
  (sizes : List (Option PageSize))

/-- The output pages that are meant for a source page. -/
def sheetsOf (page : Page) : Checked (List Sheet) := do
  let setup := renderer.setup (sizeOf sizes page.number)
  return setup.sheets (renderer.labels.header page.number) 0
    (setup.paginate (← renderer.layOut translations sizes page))

/-- The output pages that are meant for source pages one after the other, up to the first one that
the program panics at. -/
def sheetsUntilPanic : List Page → List Sheet
  | [] => []
  | page :: pages =>
    match renderer.sheetsOf translations sizes page with
    | .ok sheets => sheets ++ sheetsUntilPanic pages
    | .error _ => []

/-- The number of output pages that are meant for source pages. -/
def sheetCount (pages : List Page) : Checked Nat := do
  return (← pages.mapM (renderer.sheetsOf translations sizes)).flatten.length

variable {renderer translations sizes} {page : Page} {pages : List Page}

theorem sheetsOf_of_panic {panic : Panic}
    (h : renderer.layOut translations sizes page = .error panic) :
    renderer.sheetsOf translations sizes page = .error panic := by
  rw [sheetsOf, h]
  rfl

theorem sheetsOf_of_lines {lines : List Line}
    (h : renderer.layOut translations sizes page = .ok lines) :
    renderer.sheetsOf translations sizes page =
      .ok ((renderer.setup (sizeOf sizes page.number)).sheets (renderer.labels.header page.number)
        0 ((renderer.setup (sizeOf sizes page.number)).paginate lines)) := by
  rw [sheetsOf, h]
  rfl

theorem sheetsUntilPanic_of_ok {sheets : List Sheet}
    (h : renderer.sheetsOf translations sizes page = .ok sheets) :
    renderer.sheetsUntilPanic translations sizes (page :: pages) =
      sheets ++ renderer.sheetsUntilPanic translations sizes pages := by
  rw [sheetsUntilPanic, h]

theorem sheetsUntilPanic_of_panic {panic : Panic}
    (h : renderer.sheetsOf translations sizes page = .error panic) :
    renderer.sheetsUntilPanic translations sizes (page :: pages) = [] := by
  rw [sheetsUntilPanic, h]

theorem sheetCount_of_panic {panic : Panic}
    (h : renderer.sheetsOf translations sizes page = .error panic) :
    renderer.sheetCount translations sizes (page :: pages) = .error panic := by
  rw [sheetCount, List.mapM_cons, h]
  rfl

theorem sheetCount_of_ok {sheets : List Sheet}
    (h : renderer.sheetsOf translations sizes page = .ok sheets) :
    renderer.sheetCount translations sizes (page :: pages) =
      (renderer.sheetCount translations sizes pages).map (sheets.length + ·) := by
  rw [sheetCount, sheetCount, List.mapM_cons, h]
  cases pages.mapM (renderer.sheetsOf translations sizes) with
  | error panic => rfl
  | ok groups => exact congrArg Except.ok List.length_append

/-- Where nothing panics, all pages are counted. -/
theorem length_sheetsUntilPanic {count : Nat}
    (h : renderer.sheetCount translations sizes pages = .ok count) :
    (renderer.sheetsUntilPanic translations sizes pages).length = count := by
  induction pages generalizing count with
  | nil =>
    cases h
    rfl
  | cons page pages ih =>
    cases hsheets : renderer.sheetsOf translations sizes page with
    | error panic => cases (sheetCount_of_panic hsheets).symm.trans h
    | ok sheets =>
      rw [sheetCount_of_ok hsheets] at h
      cases hcount : renderer.sheetCount translations sizes pages with
      | error panic =>
        rw [hcount] at h
        cases h
      | ok later =>
        rw [hcount] at h
        cases h
        rw [sheetsUntilPanic_of_ok hsheets, List.length_append, ih hcount]

theorem error_of_map_length {result : Checked (List Sheet)} {panic : Panic}
    (h : result.map List.length = .error panic) : result = .error panic := by
  cases result with
  | error _ => exact congrArg Except.error (Except.error.inj h)
  | ok sheets => cases h

variable (renderer translations sizes)

theorem exists_sheetsUntilPanic_cons (page : Page) (pages : List Page) :
    ∃ later, renderer.sheetsUntilPanic translations sizes (page :: pages) =
      renderer.sheetsUntilPanic translations sizes [page] ++ later := by
  cases hsheets : renderer.sheetsOf translations sizes page with
  | error panic =>
    exact ⟨[], by rw [sheetsUntilPanic_of_panic hsheets, sheetsUntilPanic_of_panic hsheets]; rfl⟩
  | ok sheets =>
    refine ⟨renderer.sheetsUntilPanic translations sizes pages, ?_⟩
    rw [sheetsUntilPanic_of_ok hsheets, sheetsUntilPanic_of_ok hsheets, sheetsUntilPanic,
      List.append_nil]

theorem renderPage_recorded (page : Page) (r : Recording σ) :
    let run := renderer.renderPage sink translations sizes page r.inner
    ∃ calls, renderer.renderPage sink.recorded translations sizes page r = run.recorded r calls ∧
      Wrote (¬ sink.Reliable) (opened r.calls)
        (renderer.sheetsUntilPanic translations sizes [page]) calls (failureOf run.result)
        (warnings run.log) ∧
      ∀ count, run.result = .ok count →
        count = (renderer.sheetsOf translations sizes page).map List.length := by
  cases hlines : renderer.layOut translations sizes page with
  | error panic =>
    have hsheets := sheetsOf_of_panic hlines
    rw [sheetsUntilPanic_of_panic hsheets, hsheets]
    refine ⟨[], ?_, ?_, fun count hc => ?_⟩
    · simp [renderPage, hlines, Drawn.recorded, Recording.after]
    · simp only [renderPage, hlines]
      exact .nil _
    · simp only [renderPage, hlines] at hc
      exact (Except.ok.inj hc).symm
  | ok lines =>
    obtain ⟨calls, hrec, hw, hcount⟩ := sink.writeLines_recorded
      (renderer.setup (sizeOf sizes page.number)) lines (renderer.labels.header page.number) r
    have hsheets := sheetsOf_of_lines hlines
    rw [sheetsUntilPanic_of_ok hsheets, hsheets, sheetsUntilPanic, List.append_nil]
    refine ⟨calls, ?_, ?_, fun count hc => ?_⟩
    · simp only [renderPage, hlines, hrec, Drawn.recorded]
    · simp only [renderPage, hlines, warnings_append, hw.warnings, failureOf_map]
      split
      · rwa [warnings_debug, List.append_nil]
      · rwa [show warnings [] = [] from rfl, List.append_nil]
    · simp only [renderPage, hlines] at hc
      obtain ⟨written, hwritten, rfl⟩ := map_eq_ok hc
      exact congrArg Except.ok (hcount written hwritten)

theorem renderSorted_recorded (pages : List Page) (r : Recording σ) :
    let run := renderer.renderSorted sink translations sizes r.inner pages
    ∃ calls, renderer.renderSorted sink.recorded translations sizes r pages =
        run.recorded r calls ∧
      Wrote (¬ sink.Reliable) (opened r.calls)
        (renderer.sheetsUntilPanic translations sizes pages) calls (failureOf run.result)
        (warnings run.log) ∧
      ∀ count, run.result = .ok count →
        count = renderer.sheetCount translations sizes pages := by
  induction pages generalizing r with
  | nil =>
    refine ⟨[], by simp [renderSorted, Drawn.recorded, Recording.after], .nil _, fun count hc => ?_⟩
    exact (Except.ok.inj hc).symm
  | cons page pages ih =>
    obtain ⟨calls, hrec, hw, hcount⟩ :=
      renderer.renderPage_recorded sink translations sizes page r
    rcases hrun : renderer.renderPage sink translations sizes page r.inner with
      ⟨_ | _ | count, log, state⟩
    · rename_i e
      rw [hrun] at hrec hw
      obtain ⟨later, hlater⟩ := renderer.exists_sheetsUntilPanic_cons translations sizes page pages
      refine ⟨calls, ?_, ?_, fun count hc => ?_⟩
      · simp only [renderSorted, hrec, hrun, Drawn.recorded]
      · simp only [renderSorted, hrun, hlater]
        exact hw.or_more later
      · simp [renderSorted, hrun] at hc
    · rename_i panic
      rw [hrun] at hrec hw hcount
      have hsheets := error_of_map_length (hcount _ rfl).symm
      rw [sheetsUntilPanic_of_panic hsheets] at hw ⊢
      refine ⟨calls, ?_, ?_, fun count hc => ?_⟩
      · simp only [renderSorted, hrec, hrun, Drawn.recorded]
      · simpa only [renderSorted, hrun] using hw
      · simp only [renderSorted, hrun] at hc
        rw [sheetCount_of_panic hsheets]
        exact (Except.ok.inj hc).symm
    · rw [hrun] at hrec hw hcount
      obtain ⟨hopened, hlog⟩ := Wrote.of_none hw
      obtain ⟨sheets, hsheets, rfl⟩ := map_eq_ok (hcount _ rfl).symm
      rw [sheetsUntilPanic_of_ok hsheets, sheetsUntilPanic, List.append_nil] at hw hopened
      obtain ⟨more, hrec', hw', hcount'⟩ := ih (r.after state calls)
      refine ⟨calls ++ more, ?_, ?_, fun total hc => ?_⟩
      · simp only [renderSorted, hrec, hrun, Drawn.recorded]
        rw [hrec']
        simp [Drawn.recorded, Recording.after]
      · simp only [renderSorted, hrun, warnings_append, failureOf_map,
          sheetsUntilPanic_of_ok hsheets] at hlog ⊢
        rw [hlog] at hw ⊢
        simp only [Recording.after, opened_append, hopened] at hw'
        exact Wrote.append hw (by simpa using hw')
      · simp only [renderSorted, hrun] at hc
        obtain ⟨rest, hrest, rfl⟩ := map_eq_ok hc
        rw [sheetCount_of_ok hsheets, hcount' rest hrest]

end Renderer

end Folio
