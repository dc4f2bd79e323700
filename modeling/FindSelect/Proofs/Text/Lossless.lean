import FindSelect.Proofs.Text.Quotes
import FindSelect.Proofs.Text.Stepwise
import FindSelect.Text.Cursor.Step

namespace FindSelect.Text.Cursor

/-- `d` is the cursor `c` after it has moved over `text`. -/
structure MovesOver (c : Cursor) (text : List Char) (d : Cursor) : Prop where
  moved : d = c.advance text.length
  rest : c.rest = text ++ d.rest

namespace MovesOver

variable {c d : Cursor} {text : List Char}

/-- A cursor that has moved over a text is ahead of where it was. -/
theorem leads (h : MovesOver c text d) : c.Leads d := by
  rw [h.moved]
  exact leads_advance _ c

/-- A text that was ahead of the cursor does not lead out of the input. -/
theorem inside (h : MovesOver c text d) (hc : c.position ≤ c.input.length) :
    d.position ≤ d.input.length := by
  have hlength := Stepwise.position_add_le hc h.rest
  rw [h.moved]
  exact hlength

/-- Two moves, one after the other, are a move over both texts. -/
theorem trans {e : Cursor} {more : List Char} (h : MovesOver c text d) (h' : MovesOver d more e) :
    MovesOver c (text ++ more) e where
  moved := by rw [h'.moved, h.moved, advance_advance, List.length_append, Nat.add_comm]
  rest := by rw [h.rest, h'.rest, List.append_assoc]

/-- The text ahead of the new cursor is the end of the text ahead of the old one. -/
theorem suffix (h : MovesOver c text d) : d.rest <:+ c.rest := by
  rw [h.rest]
  exact List.suffix_append _ _

/-- What stands in the text that a cursor moves over stands in the text ahead of it. -/
theorem isInfix {part : List Char} (h : MovesOver c text d) (hpart : part <:+: text) :
    part <:+: c.rest := by
  rw [h.rest]
  exact hpart.trans (List.prefix_append _ _).isInfix

end MovesOver

/-- One step over the character under the cursor. -/
theorem movesOver_advance {c : Cursor} {ch : Char} (h : c.current? = some ch) :
    MovesOver c [ch] (c.advance 1) :=
  ⟨rfl, rest_of_current? h⟩

/-- Skipping moves over the run of characters that satisfy `p`. -/
theorem movesOver_skipWhile (p : Char → Bool) (c : Cursor) :
    MovesOver c (c.rest.takeWhile p) (c.skipWhile p) where
  moved := rfl
  rest := by rw [rest_skipWhile, List.takeWhile_append_dropWhile]

/-- A token is the text that the cursor moves over. -/
theorem movesOver_takeToken {stops token : List Char} {c d : Cursor}
    (h : c.takeToken stops = some (token, d)) : MovesOver c token d := by
  obtain ⟨-, rfl, rfl⟩ := takeToken_eq_some.1 h
  exact movesOver_skipWhile _ c

/-- A span in brackets is the text that the cursor moves over. -/
theorem movesOver_takeEnclosed {opening closing : Char} {span : List Char} {c d : Cursor}
    (h : c.takeEnclosed opening closing = (.ok span, d)) : MovesOver c span d := by
  obtain ⟨-, n, hn, rfl, rfl⟩ := takeEnclosed_eq_ok.1 h
  obtain ⟨inner, text, hrest, rfl, -⟩ := spanLength_eq_ok hn
  have hlength : (c.rest.take (inner.length + 1)).length = inner.length + 1 := by
    rw [List.length_take, hrest]
    simp
  refine ⟨by rw [hlength], ?_⟩
  rw [rest_advance, List.take_append_drop]

/-- A quoted text is moved over together with its quotes. -/
theorem movesOver_takeQuoted {contents : List Char} {c d : Cursor}
    (h : c.takeQuoted = (.ok contents, d)) :
    ∃ mark, isQuoteMark mark = true ∧ mark ∉ contents ∧
      MovesOver c (mark :: contents ++ [mark]) d := by
  obtain ⟨mark, hmark, hcontents, hrest⟩ := exists_of_takeQuoted h
  obtain ⟨-, hd⟩ := takeQuoted_ok h
  refine ⟨mark, hmark, hcontents, ?_, ?_⟩
  · rw [hd]
    simp
  · rw [hrest]
    simp

/-- A read that fails stays where it is if it could not begin, and else goes to the end. -/
structure Fails (opens : Prop) (c d : Cursor) : Prop where
  stays : ¬ opens → d = c
  ends : opens → c.position < c.input.length ∧ d = { c with position := c.input.length }

theorem Fails.leads {opens : Prop} {c d : Cursor} (h : Fails opens c d) : c.Leads d := by
  by_cases hopens : opens
  · obtain ⟨hlt, rfl⟩ := h.ends hopens
    exact ⟨rfl, Nat.le_of_lt hlt⟩
  · rw [h.stays hopens]
    exact .refl c

/-- A read that fails does not lead out of the input. -/
theorem Fails.inside {opens : Prop} {c d : Cursor} (h : Fails opens c d)
    (hc : c.position ≤ c.input.length) : d.position ≤ d.input.length := by
  by_cases hopens : opens
  · obtain ⟨-, rfl⟩ := h.ends hopens
    exact Nat.le_refl _
  · rw [h.stays hopens]
    exact hc

/-- A quoted text can begin only with a quote, and it fails at the end of the text. -/
theorem fails_takeQuoted {c d : Cursor} {span : OpenSpan} (h : c.takeQuoted = (.error span, d)) :
    Fails (∃ mark, isQuoteMark mark = true ∧ c.current? = some mark) c d := by
  have houtcome := quotedOutcome_takeQuoted c
  rw [h] at houtcome
  cases houtcome with
  | absent hquote =>
    refine ⟨fun _ => rfl, fun hopens => ?_⟩
    obtain ⟨mark, hmark, hcurrent⟩ := hopens
    rw [hcurrent, Option.any_some, hmark] at hquote
    contradiction
  | @unclosed mark text hrest hmark =>
    have hcurrent := current?_of_rest hrest
    exact ⟨fun hnot => absurd ⟨mark, hmark, hcurrent⟩ hnot,
      fun _ => ⟨position_lt_of_current? hcurrent, rfl⟩⟩

/-- A span can begin only with its bracket, and it fails at the end of the text. -/
theorem fails_takeEnclosed {opening closing : Char} {c d : Cursor} {span : OpenSpan}
    (h : c.takeEnclosed opening closing = (.error span, d)) :
    Fails (c.current? = some opening) c d := by
  rcases takeEnclosed_eq_error.1 h with ⟨hcurrent, -, rfl⟩ | ⟨hcurrent, -, rfl⟩
  · exact ⟨fun _ => rfl, fun hopens => absurd hopens hcurrent⟩
  · exact ⟨fun hnot => absurd hcurrent hnot, fun _ => ⟨position_lt_of_current? hcurrent, rfl⟩⟩

namespace Step

/-- The text that a read moves over when it returns `text`: a quoted text is returned without its
    quotes. A mere move returns no text. -/
def Consumes : Step → List Char → List Char → Prop
  | .takeQuoted, text, consumed =>
    ∃ mark, isQuoteMark mark = true ∧ mark ∉ text ∧ consumed = mark :: text ++ [mark]
  | .takeEnclosed _ _, text, consumed => consumed = text
  | .takeToken _, text, consumed => consumed = text
  | _, _, _ => False

/-- The character under the cursor is one with which a span of the step begins. -/
def Opens (c : Cursor) : Step → Prop
  | .takeQuoted => ∃ mark, isQuoteMark mark = true ∧ c.current? = some mark
  | .takeEnclosed opening _ => c.current? = some opening
  | _ => False

/-- The step asks for text past the end. -/
def Overruns (c : Cursor) : Step → Prop
  | .takeToken _ => c.input.length < c.position
  | _ => False

/-- The step only moves the cursor. -/
def isMove : Step → Bool
  | .advance | .skipBlanks | .skipGap => true
  | _ => false

/-- The span that the step reads, if any, does not begin with a quote. -/
def opensPlainly : Step → Bool
  | .takeEnclosed opening _ => !isQuoteMark opening
  | _ => true

/-- The step with every move over a character and every cut of a text checked. -/
def performStepwise (c : Cursor) : Step → Except Breach (Report × Cursor)
  | .advance => .ok (.moved, c.advance 1)
  | .skipBlanks => (Stepwise.skipWhile isBlank c).map fun d => (.moved, d)
  | .skipGap => (Stepwise.skipWhile isSeparator c).map fun d => (.moved, d)
  | .takeQuoted => (Stepwise.takeQuoted c).map fun r => (.ofRead r.1, r.2)
  | .takeEnclosed opening closing =>
    (Stepwise.takeEnclosed opening closing c).map fun r => (.ofRead r.1, r.2)
  | .takeToken stops => (Stepwise.takeToken stops c).map fun r => (.read r.1, r.2)

/-- Under checks a step gives the same result, and a breach only where it gives none. -/
theorem performStepwise_eq {step : Step} (h : step.opensPlainly = true) (c : Cursor) :
    step.performStepwise c = (step.perform c).elim (.error .slice) .ok := by
  cases step with
  | advance => rfl
  | skipBlanks => rw [performStepwise, Stepwise.skipWhile_eq]; rfl
  | skipGap => rw [performStepwise, Stepwise.skipWhile_eq]; rfl
  | takeQuoted => rw [performStepwise, Stepwise.takeQuoted_eq]; rfl
  | takeEnclosed opening closing =>
    have hopening : isQuoteMark opening = false := by simpa [opensPlainly] using h
    rw [performStepwise, Stepwise.takeEnclosed_eq hopening]
    rfl
  | takeToken stops =>
    rw [performStepwise, Stepwise.takeToken_eq, perform]
    cases c.takeToken stops <;> rfl

/-- A step has no result exactly if it asks for text past the end. -/
theorem perform_eq_none_iff {step : Step} {c : Cursor} :
    step.perform c = none ↔ step.Overruns c := by
  cases step with
  | takeToken stops =>
    simp only [perform, Option.map_eq_none_iff, Cursor.takeToken, Overruns]
    split <;> simp <;> omega
  | _ => simp [perform, Overruns]

end Step

/-- What holds of one step from `c` to `d`. -/
structure Keeps (c : Cursor) (step : Step) (report : Report) (d : Cursor) : Prop where
  leads : c.Leads d
  atEnd_iff : d.atEnd = true ↔ d.current? = none
  current?_iff : d.current? = none ↔ d.rest = []
  inside : step ≠ .advance → c.position ≤ c.input.length → d.position ≤ d.input.length
  moved : report = .moved ↔ step.isMove = true
  read : ∀ text, report = .read text → ∃ consumed, step.Consumes text consumed ∧
    c.rest = consumed ++ d.rest
  stays : ∀ span, report = .unclosed span → ¬ step.Opens c → d = c
  ends : ∀ span, report = .unclosed span → step.Opens c → d = { c with position := c.input.length }

theorem atEnd_iff_current? {c : Cursor} : c.atEnd = true ↔ c.current? = none := by
  rw [Cursor.atEnd_iff, current?_eq_none_iff]

namespace Keeps

variable {c d : Cursor} {step : Step}

/-- A step that only moves. -/
theorem of_move (hleads : c.Leads d) (hmove : step.isMove = true)
    (hinside : step ≠ .advance → c.position ≤ c.input.length → d.position ≤ d.input.length) :
    Keeps c step .moved d where
  leads := hleads
  atEnd_iff := atEnd_iff_current?
  current?_iff := current?_eq_none_iff
  inside := hinside
  moved := by simp [hmove]
  read := by simp
  stays := by simp
  ends := by simp

/-- A read that moves over what it consumes. -/
theorem of_read {text consumed : List Char} (hmove : step.isMove = false)
    (hconsumes : step.Consumes text consumed) (hover : MovesOver c consumed d) :
    Keeps c step (.read text) d where
  leads := hover.leads
  atEnd_iff := atEnd_iff_current?
  current?_iff := current?_eq_none_iff
  inside := fun _ => hover.inside
  moved := by simp [hmove]
  read := by
    rintro _ ⟨⟩
    exact ⟨consumed, hconsumes, hover.rest⟩
  stays := by simp
  ends := by simp

/-- A read that fails. -/
theorem of_fails {span : OpenSpan} (hmove : step.isMove = false)
    (hfails : Fails (step.Opens c) c d) : Keeps c step (.unclosed span) d where
  leads := hfails.leads
  atEnd_iff := atEnd_iff_current?
  current?_iff := current?_eq_none_iff
  inside := fun _ => hfails.inside
  moved := by simp [hmove]
  read := by simp
  stays := fun _ _ => hfails.stays
  ends := fun _ _ hopens => (hfails.ends hopens).2

end Keeps

/-- Every step that has a result keeps the text. -/
theorem keeps_perform {c d : Cursor} {step : Step} {report : Report}
    (h : step.perform c = some (report, d)) : Keeps c step report d := by
  cases step with
  | advance =>
    obtain ⟨rfl, rfl⟩ := Prod.mk.inj (Option.some.inj h)
    exact .of_move (leads_advance 1 c) rfl (fun hne => absurd rfl hne)
  | skipBlanks =>
    obtain ⟨rfl, rfl⟩ := Prod.mk.inj (Option.some.inj h)
    exact .of_move (leads_skipWhile _ c) rfl fun _ => (movesOver_skipWhile _ c).inside
  | skipGap =>
    obtain ⟨rfl, rfl⟩ := Prod.mk.inj (Option.some.inj h)
    exact .of_move (leads_skipWhile _ c) rfl fun _ => (movesOver_skipWhile _ c).inside
  | takeQuoted =>
    obtain ⟨rfl, rfl⟩ := Prod.mk.inj (Option.some.inj h)
    rcases hread : c.takeQuoted with ⟨span | contents, d⟩
    · exact .of_fails rfl (fails_takeQuoted hread)
    · obtain ⟨mark, hmark, hcontents, hover⟩ := movesOver_takeQuoted hread
      exact .of_read rfl ⟨mark, hmark, hcontents, rfl⟩ hover
  | takeEnclosed opening closing =>
    obtain ⟨rfl, rfl⟩ := Prod.mk.inj (Option.some.inj h)
    rcases hread : c.takeEnclosed opening closing with ⟨span | text, d⟩
    · exact .of_fails rfl (fails_takeEnclosed hread)
    · exact .of_read rfl rfl (movesOver_takeEnclosed hread)
  | takeToken stops =>
    obtain ⟨⟨token, e⟩, hread, hreport⟩ := Option.map_eq_some_iff.1 h
    obtain ⟨rfl, rfl⟩ := Prod.mk.inj hreport
    exact .of_read rfl rfl (movesOver_takeToken hread)

/-- A run of steps in which each one keeps the text, and which ends early only at a step that asks
    for text past the end. -/
inductive Lossless : Cursor → List Step → List (Option (Report × Cursor)) → Prop
  | done (c : Cursor) : Lossless c [] []
  | overrun {c : Cursor} {step : Step} (steps : List Step) (hover : step.Overruns c) :
    Lossless c (step :: steps) [none]
  | step {c d : Cursor} {step : Step} {steps : List Step} {report : Report}
    {results : List (Option (Report × Cursor))} (hinside : ¬ step.Overruns c)
    (hkeeps : Keeps c step report d) (hrun : Lossless d steps results) :
    Lossless c (step :: steps) (some (report, d) :: results)

/-- A run loses no text, since none of its steps does. -/
theorem lossless_performAll (c : Cursor) (steps : List Step) :
    Lossless c steps (performAll c steps) := by
  induction steps generalizing c with
  | nil => exact .done c
  | cons step steps ih =>
    rw [performAll]
    split
    · rename_i hnone
      exact .overrun steps (Step.perform_eq_none_iff.1 hnone)
    · rename_i report d hsome
      have hinside : ¬ step.Overruns c := by
        rw [← Step.perform_eq_none_iff, hsome]
        simp
      exact .step hinside (keeps_perform hsome) (ih d)

/-- Performs steps in order, each with its moves and cuts checked, up to the first breach. -/
def performAllStepwise (c : Cursor) : List Step → List (Except Breach (Report × Cursor))
  | [] => []
  | step :: steps =>
    match step.performStepwise c with
    | .error breach => [.error breach]
    | .ok result => .ok result :: performAllStepwise result.2 steps

/-- Under checks a run gives the same results, with a breach for the one that is missing. -/
theorem performAllStepwise_eq {steps : List Step} (h : ∀ step ∈ steps, step.opensPlainly = true)
    (c : Cursor) :
    performAllStepwise c steps =
      (performAll c steps).map fun result => result.elim (.error .slice) .ok := by
  induction steps generalizing c with
  | nil => rfl
  | cons step steps ih =>
    have hstep := Step.performStepwise_eq (h step (List.mem_cons_self ..)) c
    rw [performAllStepwise, performAll, hstep]
    cases step.perform c with
    | none => rfl
    | some result =>
      have hrun := ih (fun step' hmem => h step' (List.mem_cons_of_mem _ hmem)) result.2
      exact congrArg (Except.ok result :: ·) hrun

/-- Whatever the steps, a cursor loses no text: every report and every new cursor is that of a
    reading one character at a time, in which only a token asked for past the end is a breach. -/
theorem lossless_run (input : List Char) (steps : List Step)
    (h : ∀ step ∈ steps, step.opensPlainly = true) :
    Lossless (.start input) steps (performAll (.start input) steps) ∧
      performAllStepwise (.start input) steps =
        (performAll (.start input) steps).map fun result => result.elim (.error .slice) .ok :=
  ⟨lossless_performAll _ steps, performAllStepwise_eq h _⟩

/-- Steps with two failed reads in the middle, which end past the text. -/
theorem lossless_run_pastEnd :
    let input := "'x' (\"y)\") [z".toList
    let steps : List Step :=
      [.takeQuoted, .skipBlanks, .takeEnclosed '(' ')', .takeQuoted, .skipGap,
        .takeEnclosed '[' ']', .takeToken [], .advance, .skipGap, .takeToken [], .takeQuoted]
    (∀ step ∈ steps, step.opensPlainly = true) ∧
      (performAll (.start input) steps).map
          (Option.map fun result => (result.1, result.2.position)) =
        [some (.read ['x'], 3), some (.moved, 4), some (.read "(\"y)\")".toList, 10),
          some (.unclosed .quote, 10), some (.moved, 11), some (.unclosed .bracket, 13),
          some (.read [], 13), some (.moved, 14), some (.moved, 14), none] ∧
      Lossless (.start input) steps (performAll (.start input) steps) ∧
      performAllStepwise (.start input) steps =
        (performAll (.start input) steps).map fun result => result.elim (.error .slice) .ok :=
  have hsteps := List.all_eq_true.1 (by decide)
  ⟨hsteps, by decide +kernel, lossless_run _ _ hsteps⟩

end FindSelect.Text.Cursor
