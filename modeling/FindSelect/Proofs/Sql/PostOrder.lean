import FindSelect.Proofs.Find.Faults
import FindSelect.Proofs.Sql.Walk

namespace FindSelect

open Traced

/-- A step of the walk through a condition document: a look at a place, or the end of an entry
    when everything below it has been walked. -/
inductive WalkStep where
  | look (site : Site)
  | complete (key : String) (value : Value)

namespace WalkStep

def site? : WalkStep → Option Site
  | .look site => some site
  | .complete _ _ => none

def entry? : WalkStep → Option (String × Value)
  | .look _ => none
  | .complete key value => some (key, value)

def fault? (step : WalkStep) : Option SelectError := step.site?.bind Site.fault?

end WalkStep

/-- The first fault of a walk. -/
def walkFault? (steps : List WalkStep) : Option SelectError := steps.findSome? WalkStep.fault?

/-- The entries that a walk completes before its first fault. -/
def completedEntries (steps : List WalkStep) : List (String × Value) :=
  (steps.takeWhile fun step => step.fault?.isNone).filterMap WalkStep.entry?

namespace Value

mutual

/-- The walk through a condition document: each entry is looked at, then what is below it is
    walked, and then the entry is complete. -/
def walk : List (String × Value) → List WalkStep
  | [] => []
  | (key, value) :: entries =>
    .look (.entry key value) :: (walkBelow key value ++ .complete key value :: walk entries)

def walkBelow (key : String) : Value → List WalkStep
  | .list operands =>
    match Connective.ofKey? key with
    | some connective => walkOperands connective operands
    -- The look at the entry has found the list at fault.
    | none => []
  | .document operators => (operatorSites operators).map .look
  | _ => []

def walkOperands (connective : Connective) : List Value → List WalkStep
  | [] => []
  | .document entries :: operands =>
    .look (.operand connective (.document entries)) ::
      (walk entries ++ walkOperands connective operands)
  | operand :: operands => .look (.operand connective operand) :: walkOperands connective operands

end

mutual

/-- The entries of a condition document and of the operands of its connectives at any depth, each
    one after those below it. An operator map has no entries of conditions. -/
def postOrder : List (String × Value) → List (String × Value)
  | [] => []
  | (key, value) :: entries => postOrderBelow key value ++ (key, value) :: postOrder entries

def postOrderBelow (key : String) : Value → List (String × Value)
  | .list operands =>
    match Connective.ofKey? key with
    | some _ => postOrderOperands operands
    | none => []
  | _ => []

def postOrderOperands : List Value → List (String × Value)
  | [] => []
  | .document entries :: operands => postOrder entries ++ postOrderOperands operands
  | _ :: operands => postOrderOperands operands

end

mutual

/-- The documents that are operands of connectives, at any depth. -/
def operandDocuments : List (String × Value) → List (List (String × Value))
  | [] => []
  | (key, value) :: entries => operandDocumentsOf key value ++ operandDocuments entries

def operandDocumentsOf (key : String) : Value → List (List (String × Value))
  | .list operands =>
    match Connective.ofKey? key with
    | some _ => documentsAmong operands
    | none => []
  | _ => []

def documentsAmong : List Value → List (List (String × Value))
  | [] => []
  | .document entries :: operands =>
    entries :: (operandDocuments entries ++ documentsAmong operands)
  | _ :: operands => documentsAmong operands

end

/-- All documents whose entries are conditions: a document and the operands in it. -/
def conditionDocuments (entries : List (String × Value)) : List (List (String × Value)) :=
  entries :: operandDocuments entries

end Value

/-- The event that an entry is reported with: its key, and the text of its clause. -/
def Reports (entry : String × Value) (event : Event) : Prop :=
  ∃ clause, Clause.EntryCompiles entry.1 entry.2 clause ∧
    event = .compiledCondition entry.1 clause.render

/-- A walk meets the first fault of the places that it looks at. -/
theorem walkFault?_eq_firstFault? (steps : List WalkStep) :
    walkFault? steps = firstFault? (steps.filterMap WalkStep.site?) := by
  induction steps with
  | nil => rfl
  | cons step steps ih =>
    cases step with
    | look site =>
      have hsites : (WalkStep.look site :: steps).filterMap WalkStep.site? =
          site :: steps.filterMap WalkStep.site? := rfl
      rw [hsites, firstFault?_cons, ← ih, walkFault?, List.findSome?_cons]
      cases h : site.fault? <;> simp [WalkStep.fault?, WalkStep.site?, h, walkFault?]
    | complete key value => exact ih

theorem completedEntries_complete (key : String) (value : Value) (steps : List WalkStep) :
    completedEntries (.complete key value :: steps) = (key, value) :: completedEntries steps := rfl

theorem completedEntries_look {site : Site} (h : site.fault? = none) (steps : List WalkStep) :
    completedEntries (.look site :: steps) = completedEntries steps := by
  have hnone : (WalkStep.look site).fault?.isNone = true := Option.isNone_iff_eq_none.2 h
  rw [completedEntries, List.takeWhile_cons, if_pos hnone]
  rfl

/-- The entries that are complete are the first of those in the walk. -/
theorem completedEntries_prefix (steps : List WalkStep) :
    completedEntries steps <+: steps.filterMap WalkStep.entry? :=
  (List.takeWhile_prefix _).filterMap _

/-- A walk without a fault completes all its entries. -/
theorem completedEntries_of_no_fault {steps : List WalkStep} (h : walkFault? steps = none) :
    completedEntries steps = steps.filterMap WalkStep.entry? := by
  have hnone := List.findSome?_eq_none_iff.1 h
  rw [completedEntries, List.takeWhile_eq_self_iff.2]
  intro step hstep
  rw [hnone step hstep, Option.isNone_none]

/-- A walk without a fault completes its entries, and then goes on. -/
theorem completedEntries_append {steps : List WalkStep} (h : walkFault? steps = none)
    (more : List WalkStep) :
    completedEntries (steps ++ more) = completedEntries steps ++ completedEntries more := by
  have hnone := List.findSome?_eq_none_iff.1 h
  rw [completedEntries_of_no_fault h, completedEntries, List.takeWhile_append_of_pos,
    List.filterMap_append, completedEntries]
  intro step hstep
  rw [hnone step hstep, Option.isNone_none]

/-- Up to its first fault a walk goes as if nothing followed. -/
theorem completedEntries_append_of_fault {steps : List WalkStep} {e : SelectError}
    (h : walkFault? steps = some e) (more : List WalkStep) :
    completedEntries (steps ++ more) = completedEntries steps := by
  obtain ⟨step, hstep, hfault⟩ := List.exists_of_findSome?_eq_some h
  rw [completedEntries, List.takeWhile_append, if_neg, completedEntries]
  intro hlength
  have hself := (List.takeWhile_prefix _).eq_of_length hlength
  have hnone := List.takeWhile_eq_self_iff.1 hself step hstep
  rw [hfault] at hnone
  contradiction

namespace Value

mutual

/-- The walk looks at the places of a document in their order. -/
theorem filterMap_site?_walk : (entries : List (String × Value)) →
    (walk entries).filterMap WalkStep.site? = sites entries
  | [] => rfl
  | (key, value) :: entries => by
    have hbelow := filterMap_site?_walkBelow key value
    have hentries := filterMap_site?_walk entries
    simp [walk, sites, List.filterMap_cons, WalkStep.site?, hbelow, hentries]

theorem filterMap_site?_walkBelow (key : String) : (value : Value) →
    (walkBelow key value).filterMap WalkStep.site? = sitesBelow key value
  | .list operands => by
    rw [walkBelow, sitesBelow]
    cases Connective.ofKey? key with
    | none => rfl
    | some connective => exact filterMap_site?_walkOperands connective operands
  | .document operators => by
    rw [walkBelow, sitesBelow, List.filterMap_map]
    exact List.filterMap_some
  | .null | .boolean _ | .integer _ | .float _ | .string _ => rfl

theorem filterMap_site?_walkOperands (connective : Connective) : (operands : List Value) →
    (walkOperands connective operands).filterMap WalkStep.site? = operandSites connective operands
  | [] => rfl
  | .document entries :: operands => by
    have hentries := filterMap_site?_walk entries
    have hoperands := filterMap_site?_walkOperands connective operands
    simp [walkOperands, operandSites, WalkStep.site?, hentries, hoperands]
  | .null :: operands | .boolean _ :: operands | .integer _ :: operands | .float _ :: operands
  | .string _ :: operands | .list _ :: operands =>
    congrArg (List.cons _) (filterMap_site?_walkOperands connective operands)

end

mutual

/-- The walk completes the entries of a document in post-order. -/
theorem filterMap_entry?_walk : (entries : List (String × Value)) →
    (walk entries).filterMap WalkStep.entry? = postOrder entries
  | [] => rfl
  | (key, value) :: entries => by
    have hbelow := filterMap_entry?_walkBelow key value
    have hentries := filterMap_entry?_walk entries
    simp [walk, postOrder, List.filterMap_cons, WalkStep.entry?, hbelow, hentries]

theorem filterMap_entry?_walkBelow (key : String) : (value : Value) →
    (walkBelow key value).filterMap WalkStep.entry? = postOrderBelow key value
  | .list operands => by
    rw [walkBelow, postOrderBelow]
    cases Connective.ofKey? key with
    | none => rfl
    | some connective => exact filterMap_entry?_walkOperands connective operands
  | .document operators => by
    rw [walkBelow, List.filterMap_map]
    exact List.filterMap_eq_nil_iff.2 fun _ _ => rfl
  | .null | .boolean _ | .integer _ | .float _ | .string _ => rfl

theorem filterMap_entry?_walkOperands (connective : Connective) : (operands : List Value) →
    (walkOperands connective operands).filterMap WalkStep.entry? = postOrderOperands operands
  | [] => rfl
  | .document entries :: operands => by
    have hentries := filterMap_entry?_walk entries
    have hoperands := filterMap_entry?_walkOperands connective operands
    simp [walkOperands, postOrderOperands, List.filterMap_cons, WalkStep.entry?, hentries,
      hoperands]
  | .null :: operands | .boolean _ :: operands | .integer _ :: operands | .float _ :: operands
  | .string _ :: operands | .list _ :: operands =>
    filterMap_entry?_walkOperands connective operands

end

mutual

/-- The post-order lists the entries of all condition documents, each one once. -/
theorem postOrder_perm : (entries : List (String × Value)) →
    (postOrder entries).Perm (conditionDocuments entries).flatten
  | [] => .nil
  | (key, value) :: entries => by
    have hbelow := postOrderBelow_perm key value
    have hentries := postOrder_perm entries
    rw [conditionDocuments, List.flatten_cons] at hentries ⊢
    rw [postOrder, operandDocuments, List.flatten_append, List.cons_append]
    refine List.perm_middle.trans (.cons _ ?_)
    exact (hbelow.append hentries).trans (List.perm_append_comm_assoc _ _ _)

theorem postOrderBelow_perm (key : String) : (value : Value) →
    (postOrderBelow key value).Perm (operandDocumentsOf key value).flatten
  | .list operands => by
    rw [postOrderBelow, operandDocumentsOf]
    cases Connective.ofKey? key with
    | none => exact .nil
    | some connective => exact postOrderOperands_perm operands
  | .null | .boolean _ | .integer _ | .float _ | .string _ | .document _ => .nil

theorem postOrderOperands_perm : (operands : List Value) →
    (postOrderOperands operands).Perm (documentsAmong operands).flatten
  | [] => .nil
  | .document entries :: operands => by
    rw [postOrderOperands, documentsAmong, ← List.cons_append, List.flatten_append]
    exact (postOrder_perm entries).append (postOrderOperands_perm operands)
  | .null :: operands | .boolean _ :: operands | .integer _ :: operands | .float _ :: operands
  | .string _ :: operands | .list _ :: operands => postOrderOperands_perm operands

end

end Value

namespace Clause

/-- The walk through a document meets the fault for which it has no clauses. -/
theorem walkFault?_walk (entries : List (String × Value)) :
    walkFault? (Value.walk entries) = errorOf? (ofEntries entries).result := by
  rw [walkFault?_eq_firstFault?, Value.filterMap_site?_walk, errorOf?_ofEntries]

/-- The walk through an entry meets the fault for which it has no clause. -/
theorem walkFault?_walkBelow (key : String) (value : Value) :
    walkFault? (.look (.entry key value) :: Value.walkBelow key value) =
      errorOf? (ofEntry key value).result := by
  rw [walkFault?_eq_firstFault?, errorOf?_ofEntry, ← Value.filterMap_site?_walkBelow]
  rfl

/-- Nothing is reported while the tests of a column are made. -/
theorem events_ofPlain (key : String) (value : Value) : (ofPlain key value).events = [] := by
  unfold ofPlain
  split <;> rfl

/-- Only operands of a connective are reported before an entry is complete. -/
theorem events_ofEntry_of_not_list {key : String} {value : Value}
    (hvalue : ∀ operands, value ≠ .list operands) : (ofEntry key value).events = [] := by
  cases hkey : Connective.ofKey? key with
  | none => rw [ofEntry_eq_ofPlain hkey, events_ofPlain]
  | some connective => rw [ofEntry_eq_throw hkey hvalue, events_throw]

/-- A connective reports what its operands do. -/
theorem events_ofEntry_group {key : String} {connective : Connective}
    (hkey : Connective.ofKey? key = some connective) (operands : List Value) :
    (ofEntry key (.list operands)).events = (ofOperands connective operands).events := by
  rw [ofEntry, hkey]
  cases operands with
  | nil => rfl
  | cons operand operands => exact events_bind_of_silent fun _ => events_pure _

/-- If a part of the work reports what a walk completes and fails where the walk does, then it can
    be followed by another such part. -/
theorem reports_bind {α β : Type} {x : Traced SelectError α} {f : α → Traced SelectError β}
    {steps more : List WalkStep}
    (hx : List.Forall₂ Reports (completedEntries steps) x.events)
    (hfault : walkFault? steps = errorOf? x.result)
    (hf : ∀ a, x.result = .ok a → List.Forall₂ Reports (completedEntries more) (f a).events) :
    List.Forall₂ Reports (completedEntries (steps ++ more)) (x >>= f).events := by
  cases hresult : x.result with
  | error e =>
    rw [hresult, errorOf?_error] at hfault
    rwa [events_bind_of_error hresult, completedEntries_append_of_fault hfault]
  | ok a =>
    rw [hresult, errorOf?_ok] at hfault
    rw [events_bind_of_ok hresult, completedEntries_append hfault]
    exact List.rel_append hx (hf a hresult)

/-- An entry with no conditions below it has nothing to report before it is complete. -/
theorem reports_of_silent {key : String} {value : Value}
    (hbelow : Value.postOrderBelow key value = []) (hevents : (ofEntry key value).events = []) :
    List.Forall₂ Reports (completedEntries (.look (.entry key value) :: Value.walkBelow key value))
      (ofEntry key value).events := by
  have hcompleted := completedEntries_prefix
    (.look (.entry key value) :: Value.walkBelow key value)
  have hentries : (WalkStep.look (.entry key value) :: Value.walkBelow key value).filterMap
      WalkStep.entry? = [] := (Value.filterMap_entry?_walkBelow key value).trans hbelow
  rw [hentries, List.prefix_nil] at hcompleted
  rw [hcompleted, hevents]
  exact .nil

mutual

/-- The clauses of a document are reported for the entries that the walk completes. The walk recurs
    as the clauses do. -/
theorem reports_ofEntries : (entries : List (String × Value)) →
    List.Forall₂ Reports (completedEntries (Value.walk entries)) (ofEntries entries).events
  | [] => .nil
  | (key, value) :: entries => by
    rw [ofEntries, Value.walk, ← List.cons_append]
    refine reports_bind (reports_ofEntry key value) (walkFault?_walkBelow key value) ?_
    intro clause hresult
    have hclause := (result_ofEntry_eq_ok key value clause).1 hresult
    rw [completedEntries_complete, events_bind_of_ok rfl, events_emit,
      events_bind_of_silent fun _ => events_pure _, List.singleton_append]
    exact .cons ⟨clause, hclause, rfl⟩ (reports_ofEntries entries)

theorem reports_ofEntry (key : String) : (value : Value) →
    List.Forall₂ Reports (completedEntries (.look (.entry key value) :: Value.walkBelow key value))
      (ofEntry key value).events
  | .list operands => by
    cases hkey : Connective.ofKey? key with
    | none =>
      refine reports_of_silent ?_ ?_
      · rw [Value.postOrderBelow, hkey]
      · rw [ofEntry_eq_ofPlain hkey, events_ofPlain]
    | some connective =>
      cases operands with
      | nil =>
        refine reports_of_silent ?_ (events_ofEntry_group hkey [])
        rw [Value.postOrderBelow, hkey]
        rfl
      | cons operand operands =>
        have hoperands := reports_ofOperands connective (operand :: operands)
        have hlook : Site.fault? (.entry key (.list (operand :: operands))) = none := by
          rw [Site.fault?, hkey]
          rfl
        -- Nothing is wrong with the entry itself, so the walk goes on as that of the operands.
        rwa [completedEntries_look hlook, Value.walkBelow, hkey, events_ofEntry_group hkey]
  | .null | .boolean _ | .integer _ | .float _ | .string _ | .document _ =>
    reports_of_silent rfl (events_ofEntry_of_not_list (by simp))

theorem reports_ofOperands (connective : Connective) : (operands : List Value) →
    List.Forall₂ Reports (completedEntries (Value.walkOperands connective operands))
      (ofOperands connective operands).events
  | [] => .nil
  | .document entries :: operands => by
    rw [ofOperands, Value.walkOperands, completedEntries_look rfl]
    refine reports_bind (reports_ofEntries entries) (walkFault?_walk entries) ?_
    intro condition _
    rw [events_bind_of_silent fun _ => events_pure _]
    exact reports_ofOperands connective operands
  -- The walk stops at an operand that is no document, and so does the work.
  | .null :: _ | .boolean _ :: _ | .integer _ :: _ | .float _ :: _ | .string _ :: _
  | .list _ :: _ => .nil

end

/-- The clauses of a document are those that its entries are reported with. -/
theorem reports_of_entriesCompile {entries : List (String × Value)} {clauses : List Clause}
    (h : EntriesCompile entries clauses) :
    List.Forall₂ (fun entry text => Reports entry (.compiledCondition entry.1 text)) entries
      (clauses.map render) := by
  induction clauses generalizing entries with
  | nil =>
    cases h
    exact .nil
  | cons clause clauses ih =>
    obtain _ | ⟨hentry, hentries⟩ := h
    exact .cons ⟨clause, hentry, rfl⟩ (ih hentries)

end Clause

namespace Document

theorem events_toCondition (d : Document) :
    d.toCondition.events = (Clause.ofEntries d.entries).events :=
  events_bind_of_silent fun _ => events_pure _

theorem walkFault?_walk_entries (d : Document) :
    walkFault? (Value.walk d.entries) = errorOf? d.toCondition.result := by
  rw [Clause.walkFault?_walk, Clause.errorOf?_ofEntries, errorOf?_toCondition]

/-- The condition of a document joins the clauses that its own entries are reported with. -/
theorem exists_reports_of_toCondition {d : Document} {condition : String}
    (h : d.toCondition.result = .ok condition) :
    ∃ clauses, List.Forall₂ (fun entry text => Reports entry (.compiledCondition entry.1 text))
        d.entries clauses ∧ condition = " AND ".intercalate clauses := by
  obtain ⟨clauses, hclauses, hcondition⟩ := result_bind_eq_ok.1 h
  have hcompile := (Clause.result_ofEntries_eq_ok d.entries clauses).1 hclauses
  refine ⟨clauses.map Clause.render, Clause.reports_of_entriesCompile hcompile, ?_⟩
  rw [← Except.ok.inj hcondition, Clause.renderCondition, Clause.renderAll_eq_map]

end Document

namespace FindCall

theorem events_receive_of_ok {text : String} {call : FindCall} (h : parse text = .ok call) :
    (receive text).events = [.parsedCall call] := by
  have hresult : ((Traced.of (parse text)).mapError FindError.parse).result = .ok call := by
    rw [result_mapError, result_of, h, mapError_ok]
  rw [receive, events_bind_of_ok hresult]
  rfl

theorem events_receive_of_error {text : String} {e : SyntaxError} (h : parse text = .error e) :
    (receive text).events = [] := by
  have hresult : ((Traced.of (parse text)).mapError FindError.parse).result =
      .error (.parse e) := by
    rw [result_mapError, result_of, h]
    rfl
  rw [receive, events_bind_of_error hresult]
  rfl

/-- The projection of a call reports nothing. -/
theorem events_ofCall (call : FindCall) :
    (Select.ofCall call).events = call.conditions.toCondition.events := by
  rw [Document.events_toCondition, Select.ofCall]
  exact events_bind_of_silent fun _ =>
    (events_bind_of_silent fun _ => events_pure _).trans (events_of _)

/-- A statement is reported after all the entries of its condition. -/
theorem events_toSql_of_ok {call : FindCall} {sql : String} (h : call.toSql.result = .ok sql) :
    call.toSql.events = call.conditions.toCondition.events ++ [.compiledSelect sql] := by
  obtain ⟨select, hselect, hsql⟩ := result_bind_eq_ok.1 h
  obtain rfl := Except.ok.inj hsql
  rw [toSql, events_bind_of_ok hselect, events_ofCall]
  rfl

/-- Where there is no statement, only the entries of the condition are reported. -/
theorem events_toSql_of_error {call : FindCall} {e : SelectError}
    (h : call.toSql.result = .error e) :
    call.toSql.events = call.conditions.toCondition.events := by
  rcases result_bind_eq_error.1 h with hselect | ⟨select, -, hsql⟩
  · rw [toSql, events_bind_of_error hselect, events_ofCall]
  · contradiction

end FindCall

theorem result_findToSql_of_ok {text : String} {call : FindCall}
    (h : FindCall.parse text = .ok call) :
    (findToSql text).result = call.toSql.result.mapError .compile := by
  rw [findToSql, result_bind, FindCall.result_receive, h]
  rfl

/-- A call that was read is reported before what its statement reports. -/
theorem events_findToSql_of_ok {text : String} {call : FindCall}
    (h : FindCall.parse text = .ok call) :
    (findToSql text).events = .parsedCall call :: call.toSql.events := by
  have hresult : (FindCall.receive text).result = .ok call := by
    rw [FindCall.result_receive, h, mapError_ok]
  rw [findToSql, events_bind_of_ok hresult, FindCall.events_receive_of_ok h, events_mapError]
  rfl

/-- Nothing is reported of a text that is no call. -/
theorem events_findToSql_of_error {text : String} {e : SyntaxError}
    (h : FindCall.parse text = .error e) : (findToSql text).events = [] := by
  have hresult : (FindCall.receive text).result = .error (.parse e) := by
    rw [FindCall.result_receive, h]
    rfl
  rw [findToSql, events_bind_of_error hresult, FindCall.events_receive_of_error h]

/-- Events come in post-order. A text that is no call has none. A call is reported first, then its
    conditions, and then its statement, if it has one. The conditions of a document are reported
    entry by entry for what the walk completes before its first fault, which is the error: each
    entry with its key and clause, after those in its operands. Without a fault these are all
    entries of the document and of the operands in it, and its condition joins its own clauses. -/
theorem findToSql_postOrder :
    (∀ text e, FindCall.parse text = .error e → (findToSql text).events = []) ∧
    (∀ text call, FindCall.parse text = .ok call →
      (∀ sql, (findToSql text).result = .ok sql →
        (findToSql text).events =
          .parsedCall call :: (call.conditions.toCondition.events ++ [.compiledSelect sql])) ∧
      (∀ e, (findToSql text).result = .error e →
        (findToSql text).events = .parsedCall call :: call.conditions.toCondition.events)) ∧
    ∀ d : Document,
      List.Forall₂ Reports (completedEntries (Value.walk d.entries)) d.toCondition.events ∧
      completedEntries (Value.walk d.entries) <+: Value.postOrder d.entries ∧
      walkFault? (Value.walk d.entries) = errorOf? d.toCondition.result ∧
      ∀ condition, d.toCondition.result = .ok condition →
        completedEntries (Value.walk d.entries) = Value.postOrder d.entries ∧
        d.toCondition.events.length = (Value.conditionDocuments d.entries).flatten.length ∧
        ∃ clauses, List.Forall₂
            (fun entry text => Reports entry (.compiledCondition entry.1 text))
            d.entries clauses ∧
          condition = " AND ".intercalate clauses := by
  refine ⟨?_, ?_, ?_⟩
  · intro text e h
    exact events_findToSql_of_error h
  · intro text call h
    rw [events_findToSql_of_ok h, result_findToSql_of_ok h]
    refine ⟨?_, ?_⟩
    · intro sql hsql
      rw [FindCall.events_toSql_of_ok (mapError_eq_ok.1 hsql)]
    · intro e he
      obtain ⟨fault, hfault, -⟩ := mapError_eq_error.1 he
      rw [FindCall.events_toSql_of_error hfault]
  · intro d
    have hreports := Clause.reports_ofEntries d.entries
    have hprefix := completedEntries_prefix (Value.walk d.entries)
    rw [Value.filterMap_entry?_walk] at hprefix
    rw [← d.events_toCondition] at hreports
    refine ⟨hreports, hprefix, d.walkFault?_walk_entries, ?_⟩
    intro condition hcondition
    have hfault : walkFault? (Value.walk d.entries) = none := by
      rw [d.walkFault?_walk_entries, hcondition, errorOf?_ok]
    -- The walk of a document that has a condition is never cut short.
    have hall : completedEntries (Value.walk d.entries) = Value.postOrder d.entries := by
      rw [completedEntries_of_no_fault hfault, Value.filterMap_entry?_walk]
    refine ⟨hall, ?_, Document.exists_reports_of_toCondition hcondition⟩
    rw [← hreports.length_eq, hall, (Value.postOrder_perm d.entries).length_eq]

/-- Five entries of conditions in four documents, one of them empty, and an operator map. -/
def operandsInOperands : FindCall where
  table := "t"
  conditions := .ofEntries [
    ("$or", .list [.document [("$and", .list [.document [("a", .integer 1), ("b", .null)]])],
      .document []]),
    ("c", .document [("$gt", .integer 3), ("$lt", .integer 9)])]
  projection := .ofEntries []

/-- The second operand has an unknown operator, after entries of the document and of both operands
    are complete. -/
def faultInOperand : FindCall where
  table := "t"
  conditions := .ofEntries [("a", .integer 1),
    ("$or", .list [.document [("b", .string "x")],
      .document [("c", .null), ("d", .document [("$near", .integer 2)])]]),
    ("e", .integer 3)]
  projection := .ofEntries []

theorem findToSql_operandsInOperands :
    (findToSql "db.t").events = [] ∧
    (findToSql ("db.t.find(\x7b$or: [\x7b$and: [\x7ba: 1, b: null\x7d]\x7d, \x7b\x7d], " ++
        "c: \x7b$gt: 3, $lt: 9\x7d\x7d)")).events =
      .parsedCall operandsInOperands :: (operandsInOperands.conditions.toCondition.events ++
        [.compiledSelect
          "SELECT * FROM t WHERE (((a = 1) AND (b IS NULL)) OR TRUE) AND (c > 3 AND c < 9);"]) ∧
    operandsInOperands.conditions.toCondition.events.length = 5 ∧
    (findToSql ("db.t.find(\x7ba: 1, $or: [\x7bb: 'x'\x7d, " ++
        "\x7bc: null, d: \x7b$near: 2\x7d\x7d], e: 3\x7d)")).events =
      .parsedCall faultInOperand :: faultInOperand.conditions.toCondition.events ∧
    List.Forall₂ Reports [("a", .integer 1), ("b", .string "x"), ("c", .null)]
      faultInOperand.conditions.toCondition.events := by
  obtain ⟨herror, hcall, hdocument⟩ := findToSql_postOrder
  refine ⟨?_, ?_, ?_, ?_, ?_⟩
  · exact herror "db.t" (.invalidCall (.noMethod "db.t")) (by decide +kernel)
  · exact (hcall _ operandsInOperands (by decide +kernel)).1 _ (by decide +kernel)
  · obtain ⟨-, -, -, hok⟩ := hdocument operandsInOperands.conditions
    exact (hok "(((a = 1) AND (b IS NULL)) OR TRUE) AND (c > 3 AND c < 9)"
      (by decide +kernel)).2.1
  · exact (hcall _ faultInOperand (by decide +kernel)).2 (.compile (.unknownOperator "$near"))
      (by decide +kernel)
  · exact (hdocument faultInOperand.conditions).1

end FindSelect
