import FindSelect.Proofs.Sql.Walk

namespace FindSelect

open Traced

/-- An operator that there is a test for, with its operand. -/
inductive SupportedOperator : String → Value → Prop where
  | relation {key : String} {operand : Value} (hkey : key ∈ ["$ne", "$gt", "$gte", "$lt", "$lte"])
      (hoperand : operand.isPrimitive = true) : SupportedOperator key operand
  | members {items : List Value} (hitems : ∀ item ∈ items, item.isPrimitive = true) :
      SupportedOperator "$in" (.list items)

/-- An entry that there is a clause for: a connective over one or more documents of such entries,
    or a column with a primitive or with one or more operators. -/
inductive SupportedEntry : String → Value → Prop where
  | connective {key : String} {documents : List (List (String × Value))}
      (hkey : key = "$and" ∨ key = "$or") (hne : documents ≠ [])
      (hdocuments : ∀ entries ∈ documents, ∀ entry ∈ entries, SupportedEntry entry.1 entry.2) :
      SupportedEntry key (.list (documents.map .document))
  | primitive {key : String} {value : Value} (hkey : key.toList.head? ≠ some '$')
      (hvalue : value.isPrimitive = true) : SupportedEntry key value
  | operators {key : String} {operators : List (String × Value)}
      (hkey : key.toList.head? ≠ some '$') (hne : operators ≠ [])
      (hoperators : ∀ operator ∈ operators, SupportedOperator operator.1 operator.2) :
      SupportedEntry key (.document operators)

/-- A condition document that there is a clause for at every entry. -/
def Supported (entries : List (String × Value)) : Prop :=
  ∀ entry ∈ entries, SupportedEntry entry.1 entry.2

section Places

variable {key : String}

theorem firstFault?_append_eq_none {places more : List Site} :
    firstFault? (places ++ more) = none ↔ firstFault? places = none ∧ firstFault? more = none := by
  rw [firstFault?_append, Option.or_eq_none_iff]

theorem firstFault?_cons_eq_none {site : Site} {places : List Site} :
    firstFault? (site :: places) = none ↔ site.fault? = none ∧ firstFault? places = none := by
  rw [firstFault?_cons, Option.or_eq_none_iff]

/-- Nothing is wrong with a list of primitives. -/
theorem firstFault?_members_eq_none {items : List Value} :
    firstFault? (items.map .member) = none ↔ ∀ item ∈ items, item.isPrimitive = true := by
  rw [firstFault?, List.findSome?_eq_none_iff, List.forall_mem_map]
  simp [Site.fault?]

theorem Connective.ofKey?_key (connective : Connective) :
    ofKey? connective.key = some connective := by
  cases connective <;> rfl

theorem Comparator.ofKey?_key (comparator : Comparator) :
    ofKey? comparator.key = some comparator := by
  cases comparator with
  | oneOf => rfl
  | relation relation => cases relation <;> rfl

theorem Connective.ofKey?_eq_none_iff : ofKey? key = none ↔ key ≠ "$and" ∧ key ≠ "$or" := by
  constructor
  · intro h
    exact ⟨ofKey?_eq_none h .all, ofKey?_eq_none h .any⟩
  · rintro ⟨hand, hor⟩
    cases hkey : ofKey? key with
    | none => rfl
    | some connective =>
      have heq := ofKey?_eq_some hkey
      cases connective with
      | all => exact absurd heq hand
      | any => exact absurd heq hor

theorem Comparator.ofKey?_eq_none_iff :
    ofKey? key = none ↔ key ∉ ["$ne", "$gt", "$gte", "$lt", "$lte", "$in"] := by
  change _ ↔ key ∉ all.map Comparator.key
  rw [ofKey?, List.find?_eq_none]
  simp only [List.mem_map, not_exists, not_and, beq_iff_eq]

theorem Relation.exists_key (h : key ∈ ["$ne", "$gt", "$gte", "$lt", "$lte"]) :
    ∃ relation : Relation, key = relation.key := by
  simp only [List.mem_cons, List.not_mem_nil, or_false] at h
  rcases h with rfl | rfl | rfl | rfl | rfl
  · exact ⟨.notEqual, rfl⟩
  · exact ⟨.greater, rfl⟩
  · exact ⟨.greaterEqual, rfl⟩
  · exact ⟨.less, rfl⟩
  · exact ⟨.lessEqual, rfl⟩

/-- Nothing is wrong at an operator exactly if there is a test for it. -/
theorem supportedOperator_iff {operand : Value} :
    firstFault? (.operator key operand :: operand.memberSites) = none ↔
      SupportedOperator key operand := by
  rw [firstFault?_cons_eq_none, Site.fault?]
  constructor
  · rintro ⟨hfault, hmembers⟩
    cases hkey : Comparator.ofKey? key with
    | none =>
      rw [hkey] at hfault
      contradiction
    | some comparator =>
      rw [hkey, Option.map_eq_none_iff] at hfault
      obtain rfl := Comparator.ofKey?_eq_some hkey
      cases comparator with
      | oneOf =>
        cases operand with
        | list items => exact .members (firstFault?_members_eq_none.1 hmembers)
        | _ => contradiction
      | relation relation =>
        refine .relation (by cases relation <;> simp [Comparator.key, Relation.key]) ?_
        by_contra hnot
        rw [Value.comparedFault?, if_neg hnot] at hfault
        contradiction
  · rintro (⟨hkey, hoperand⟩ | hitems)
    · obtain ⟨relation, rfl⟩ := Relation.exists_key hkey
      have hknown : Comparator.ofKey? relation.key = some (.relation relation) :=
        Comparator.ofKey?_key (.relation relation)
      rw [hknown, Option.map_eq_none_iff]
      refine ⟨if_pos hoperand, ?_⟩
      cases operand with
      | list items => contradiction
      | _ => rfl
    · have hknown : Comparator.ofKey? "$in" = some .oneOf := Comparator.ofKey?_key .oneOf
      rw [hknown]
      exact ⟨rfl, firstFault?_members_eq_none.2 hitems⟩

/-- Nothing is wrong with an operator map exactly if there is a test for each operator. -/
theorem supportedOperators_iff {operators : List (String × Value)} :
    firstFault? (Value.operatorSites operators) = none ↔
      ∀ operator ∈ operators, SupportedOperator operator.1 operator.2 := by
  induction operators with
  | nil => simp [Value.operatorSites, firstFault?]
  | cons operator operators ih =>
    rw [Value.operatorSites, ← List.cons_append, firstFault?_append_eq_none, ih,
      List.forall_mem_cons, supportedOperator_iff]

/-- A column name is no connective. -/
theorem ofKey?_of_column (h : key.toList.head? ≠ some '$') : Connective.ofKey? key = none := by
  rw [Connective.ofKey?_eq_none_iff]
  constructor
  · rintro rfl
    exact h rfl
  · rintro rfl
    exact h rfl

/-- What can be wrong with a connective is its list of operands. -/
theorem fault?_entry_of_connective {connective : Connective}
    (hkey : Connective.ofKey? key = some connective) (value : Value) :
    (Site.entry key value).fault? =
      (value.operandsFault? connective).map .unsupportedCondition := by
  rw [Site.fault?, hkey]

/-- What can be wrong with a column is its value. -/
theorem fault?_entry_of_column (hkey : key.toList.head? ≠ some '$') (value : Value) :
    (Site.entry key value).fault? = (value.columnFault? key).map .unsupportedCondition := by
  rw [Site.fault?, ofKey?_of_column hkey]
  exact if_neg hkey

/-- A list is wrong for every key but a connective. -/
theorem exists_connective_of_fault? {operands : List Value}
    (h : (Site.entry key (.list operands)).fault? = none) :
    ∃ connective, Connective.ofKey? key = some connective := by
  rw [Site.fault?] at h
  cases hkey : Connective.ofKey? key with
  | some connective => exact ⟨connective, rfl⟩
  | none =>
    rw [hkey] at h
    dsimp only at h
    split at h
    · contradiction
    · contradiction

/-- Nothing is wrong with an entry without a list, nor below it, exactly if there is a clause
    for it. -/
theorem supportedEntry_iff_of_not_list {value : Value}
    (hvalue : ∀ operands, value ≠ .list operands) :
    firstFault? (.entry key value :: Value.sitesBelow key value) = none ↔
      SupportedEntry key value := by
  constructor
  · intro h
    obtain ⟨hfault, hbelow⟩ := firstFault?_cons_eq_none.1 h
    have hcolumn : key.toList.head? ≠ some '$' := by
      intro hdollar
      rw [Site.fault?, if_pos hdollar] at hfault
      split at hfault
      · cases value with
        | list operands => exact hvalue operands rfl
        | _ => contradiction
      · contradiction
    rw [fault?_entry_of_column hcolumn, Option.map_eq_none_iff] at hfault
    cases value with
    | list operands => exact absurd rfl (hvalue operands)
    | document operators =>
      refine .operators hcolumn ?_ (supportedOperators_iff.1 hbelow)
      rintro rfl
      contradiction
    | _ => exact .primitive hcolumn rfl
  · rintro (⟨-, -, -⟩ | ⟨hcolumn, hprimitive⟩ | ⟨hcolumn, hne, hoperators⟩)
    · exact absurd rfl (hvalue _)
    · rw [firstFault?_cons_eq_none, fault?_entry_of_column hcolumn]
      cases value with
      | list operands => contradiction
      | document operators => contradiction
      | _ => exact ⟨rfl, rfl⟩
    · rw [firstFault?_cons_eq_none, fault?_entry_of_column hcolumn]
      obtain ⟨operator, operators, rfl⟩ := List.exists_cons_of_ne_nil hne
      exact ⟨rfl, supportedOperators_iff.2 hoperators⟩

end Places

mutual

/-- Nothing is wrong at any place of a document exactly if there is a clause for each entry. -/
theorem supported_iff : (entries : List (String × Value)) →
    (firstFault? (Value.sites entries) = none ↔ Supported entries)
  | [] => by simp [Value.sites, firstFault?, Supported]
  | (key, value) :: entries => by
    rw [Value.sites, ← List.cons_append, firstFault?_append_eq_none,
      supportedEntry_iff key value, supported_iff entries]
    simp only [Supported, List.forall_mem_cons]

/-- Nothing is wrong with an entry or below it exactly if there is a clause for it. -/
theorem supportedEntry_iff (key : String) : (value : Value) →
    (firstFault? (.entry key value :: Value.sitesBelow key value) = none ↔
      SupportedEntry key value)
  | .list operands => by
    have hoperands := supportedOperands_iff operands
    rw [firstFault?_cons_eq_none]
    constructor
    · rintro ⟨hfault, hbelow⟩
      obtain ⟨connective, hkey⟩ := exists_connective_of_fault? hfault
      rw [fault?_entry_of_connective hkey, Option.map_eq_none_iff] at hfault
      rw [Value.sitesBelow, hkey, hoperands] at hbelow
      obtain ⟨documents, rfl, hdocuments⟩ := hbelow
      refine .connective ?_ ?_ hdocuments
      · rw [Connective.ofKey?_eq_some hkey]
        cases connective with
        | all => exact .inl rfl
        | any => exact .inr rfl
      · rintro rfl
        contradiction
    · intro h
      cases h with
      | primitive _ hprimitive => contradiction
      | @connective _ documents hkey hne hdocuments =>
        obtain ⟨connective, hkey⟩ : ∃ connective, Connective.ofKey? key = some connective := by
          rcases hkey with rfl | rfl
          · exact ⟨.all, Connective.ofKey?_key .all⟩
          · exact ⟨.any, Connective.ofKey?_key .any⟩
        rw [fault?_entry_of_connective hkey, Value.sitesBelow, hkey, hoperands]
        refine ⟨?_, documents, rfl, hdocuments⟩
        obtain ⟨entries, documents, rfl⟩ := List.exists_cons_of_ne_nil hne
        rfl
  | .null | .boolean _ | .integer _ | .float _ | .string _ | .document _ =>
    supportedEntry_iff_of_not_list (by simp)

/-- Nothing is wrong with operands exactly if they are documents with a clause at every entry. -/
theorem supportedOperands_iff : (operands : List Value) → (connective : Connective) →
    (firstFault? (Value.operandSites connective operands) = none ↔
      ∃ documents : List (List (String × Value)), operands = documents.map .document ∧
        ∀ entries ∈ documents, Supported entries)
  | [], _ => by simp [Value.operandSites, firstFault?]
  | .document entries :: operands, connective => by
    rw [Value.operandSites, firstFault?_cons_eq_none, firstFault?_append_eq_none,
      supported_iff entries, supportedOperands_iff operands connective]
    constructor
    · rintro ⟨-, hentries, documents, rfl, hdocuments⟩
      exact ⟨entries :: documents, rfl, List.forall_mem_cons.2 ⟨hentries, hdocuments⟩⟩
    · rintro ⟨documents, hoperands, hdocuments⟩
      obtain ⟨first, documents, rfl, hfirst, rfl⟩ := List.map_eq_cons_iff.1 hoperands.symm
      obtain rfl := Value.document.inj hfirst
      rw [List.forall_mem_cons] at hdocuments
      exact ⟨rfl, hdocuments.1, documents, rfl, hdocuments.2⟩
  | .null :: _, _ | .boolean _ :: _, _ | .integer _ :: _, _ | .float _ :: _, _
  | .string _ :: _, _ | .list _ :: _, _ => by
    constructor
    · intro h
      contradiction
    · rintro ⟨documents, hoperands, -⟩
      obtain ⟨first, documents, -, hfirst, -⟩ := List.map_eq_cons_iff.1 hoperands.symm
      contradiction

end

/-- The operator that an error calls unknown is the one at the place of the error. -/
theorem Site.eq_unknownOperator_iff {site : Site} {e : SelectError} (h : site.fault? = some e)
    (key : String) : e = .unknownOperator key ↔ site.unknownOperator? = some key := by
  have hother {fault : ConditionFault} (hfault : .unsupportedCondition fault = e)
      (hnone : site.unknownOperator? = none) :
      e = .unknownOperator key ↔ site.unknownOperator? = some key := by
    rw [← hfault, hnone]
    simp
  cases site with
  | entry name value =>
    cases hname : Connective.ofKey? name with
    | some connective =>
      rw [fault?_entry_of_connective hname] at h
      obtain ⟨fault, -, hfault⟩ := Option.map_eq_some_iff.1 h
      refine hother hfault (if_neg ?_)
      rintro ⟨-, hand, hor⟩
      rw [Connective.ofKey?_eq_none_iff.2 ⟨hand, hor⟩] at hname
      contradiction
    | none =>
      by_cases hdollar : name.toList.head? = some '$'
      · rw [Site.fault?, hname, if_pos hdollar] at h
        obtain rfl := Option.some.inj h
        rw [Site.unknownOperator?, if_pos ⟨hdollar, Connective.ofKey?_eq_none_iff.1 hname⟩]
        simp
      · rw [fault?_entry_of_column hdollar] at h
        obtain ⟨fault, -, hfault⟩ := Option.map_eq_some_iff.1 h
        exact hother hfault (if_neg fun hunknown => hdollar hunknown.1)
  | operand connective value =>
    cases value with
    | document entries => contradiction
    | _ => exact hother (Option.some.inj h) rfl
  | operator name value =>
    rw [Site.fault?] at h
    cases hname : Comparator.ofKey? name with
    | some comparator =>
      rw [hname] at h
      obtain ⟨fault, -, hfault⟩ := Option.map_eq_some_iff.1 h
      refine hother hfault (if_pos ?_)
      by_contra hnot
      rw [Comparator.ofKey?_eq_none_iff.2 hnot] at hname
      contradiction
    | none =>
      rw [hname] at h
      obtain rfl := Option.some.inj h
      rw [Site.unknownOperator?, if_neg (Comparator.ofKey?_eq_none_iff.1 hname)]
      simp
  | member value =>
    rw [Site.fault?] at h
    split at h
    · contradiction
    · exact hother (Option.some.inj h) rfl

/-- The first place of a document in the order of the walk at which something is wrong, with the
    error for it. -/
def FirstFault (entries : List (String × Value)) (site : Site) (e : SelectError) : Prop :=
  ∃ before after, Value.sites entries = before ++ site :: after ∧
    (∀ other ∈ before, other.fault? = none) ∧ site.fault? = some e

/-- There is a condition for exactly the documents whose entries all have a clause. For any other
    document the error is that of the first place of the walk at which something is wrong, and it
    calls an operator unknown exactly if one at that place is. -/
theorem Document.toCondition_firstFault (d : Document) :
    ((∃ text, d.toCondition.result = .ok text) ↔ Supported d.entries) ∧
      ∀ e, d.toCondition.result = .error e ↔ ∃ site, FirstFault d.entries site e ∧
        ∀ key, e = .unknownOperator key ↔ site.unknownOperator? = some key := by
  refine ⟨?_, ?_⟩
  · rw [← supported_iff, ← d.errorOf?_toCondition, errorOf?_eq_none]
  · intro e
    rw [← errorOf?_eq_some, d.errorOf?_toCondition, firstFault?, List.findSome?_eq_some_iff]
    constructor
    · rintro ⟨before, site, after, hsites, hfault, hbefore⟩
      exact ⟨site, ⟨before, after, hsites, hbefore, hfault⟩, site.eq_unknownOperator_iff hfault⟩
    · rintro ⟨site, ⟨before, after, hsites, hbefore, hfault⟩, -⟩
      exact ⟨before, site, after, hsites, hfault, hbefore⟩

end FindSelect
