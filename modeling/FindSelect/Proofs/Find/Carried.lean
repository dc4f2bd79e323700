import FindSelect.Proofs.Document.Carried
import FindSelect.Proofs.Find.Stepwise
import FindSelect.Proofs.Sql.Supported

namespace FindSelect

open Text

namespace FindCall

/-- What a call is refused with points into it, if its shape is not at fault. -/
theorem pointsInto_of_read {text : List Char} {e : SyntaxError} (hne : e ≠ .overrun)
    (hcall : ∀ fault, e ≠ .invalidCall fault) (h : read text = .error e) : e.PointsInto text := by
  unfold read at h
  have hdocument {part : List Char} (hpart : part <:+: text)
      (h : readDocument part = .error e) : e.PointsInto text :=
    (pointsInto_of_readDocument hne _ part (Nat.lt_succ_self _) h).mono hpart
  rcases Parts.read_cases text with ⟨fault, hcases⟩ | ⟨table, arguments, hinside, hcases⟩
  · rw [hcases] at h
    exact absurd (Except.error.inj h).symm (hcall fault)
  rw [hcases] at h
  rcases queryAndProjection_cases arguments with
    ⟨fault, hsplit⟩ | hsplit | ⟨texts, hquery, hprojection, hsplit⟩
  · rw [hsplit] at h
    exact absurd (Except.error.inj h).symm (hcall fault)
  · rw [hsplit] at h
    obtain rfl := Except.error.inj h
    exact ⟨arguments, rfl, hinside, .arguments hsplit⟩
  rw [hsplit] at h
  rcases bind_eq_error.1 h with h | ⟨parts, hparts, h⟩
  · contradiction
  obtain rfl := Except.ok.inj hparts
  rcases bind_eq_error.1 h with h | ⟨conditions, -, h⟩
  · exact hdocument (hquery.trans hinside) h
  rcases bind_eq_error.1 h with h | ⟨projection, -, h⟩
  · exact hdocument (hprojection.trans hinside) h
  · contradiction

end FindCall

namespace Value

/-- A key of a mapping somewhere in a value. -/
inductive HasKey (key : String) : Value → Prop
  | here {entries : List (String × Value)} {value : Value} (h : (key, value) ∈ entries) :
    HasKey key (.document entries)
  | entry {entries : List (String × Value)} {name : String} {value : Value}
    (h : (name, value) ∈ entries) (hkey : HasKey key value) : HasKey key (.document entries)
  | item {items : List Value} {value : Value} (h : value ∈ items) (hkey : HasKey key value) :
    HasKey key (.list items)

variable {key : String}

theorem HasKey.cons_entry {entries : List (String × Value)} (h : HasKey key (.document entries))
    (entry : String × Value) : HasKey key (.document (entry :: entries)) := by
  cases h with
  | here h => exact .here (List.mem_cons_of_mem entry h)
  | entry h hkey => exact .entry (List.mem_cons_of_mem entry h) hkey

theorem HasKey.cons_item {items : List Value} (h : HasKey key (.list items)) (item : Value) :
    HasKey key (.list (item :: items)) := by
  cases h with
  | item h hkey => exact .item (List.mem_cons_of_mem item h) hkey

/-- An unknown operator is the key of an entry or of an operator map. -/
theorem eq_of_unknownOperator? {site : Site} (h : site.unknownOperator? = some key) :
    ∃ value, site = .entry key value ∨ site = .operator key value := by
  cases site with
  | entry name value =>
    obtain ⟨-, hname⟩ := Option.ite_none_right_eq_some.1 h
    exact ⟨value, .inl (by rw [Option.some.inj hname])⟩
  | operator name value =>
    obtain ⟨-, hname⟩ := Option.ite_none_left_eq_some.1 h
    exact ⟨value, .inr (by rw [Option.some.inj hname])⟩
  | _ => contradiction

/-- There are no operators among the members of a list. -/
theorem unknownOperator?_of_memberSites {value : Value} {site : Site}
    (h : site ∈ memberSites value) : site.unknownOperator? = none := by
  cases value with
  | list items =>
    obtain ⟨item, -, rfl⟩ := List.mem_map.1 h
    rfl
  | _ => contradiction

theorem hasKey_of_operatorSites {site : Site} (hsite : site.unknownOperator? = some key)
    {operators : List (String × Value)} (h : site ∈ operatorSites operators) :
    HasKey key (.document operators) := by
  induction operators with
  | nil => contradiction
  | cons operator operators ih =>
    rcases List.mem_cons.1 h with rfl | h
    · obtain ⟨value, h | h⟩ := eq_of_unknownOperator? hsite
      · contradiction
      · obtain ⟨rfl, rfl⟩ := Site.operator.inj h
        exact .here List.mem_cons_self
    rcases List.mem_append.1 h with h | h
    · rw [unknownOperator?_of_memberSites h] at hsite
      contradiction
    · exact (ih h).cons_entry operator

mutual

/-- An operator that is unknown at a place of a document is a key in it. The induction recurs as
    the places do. -/
theorem hasKey_of_sites {site : Site} (hsite : site.unknownOperator? = some key) :
    (entries : List (String × Value)) → site ∈ sites entries → HasKey key (.document entries)
  | [], h => absurd h List.not_mem_nil
  | (name, value) :: entries, h => by
    rw [sites] at h
    rcases List.mem_cons.1 h with rfl | h
    · obtain ⟨value, h | h⟩ := eq_of_unknownOperator? hsite
      · obtain ⟨rfl, rfl⟩ := Site.entry.inj h
        exact .here List.mem_cons_self
      · contradiction
    rcases List.mem_append.1 h with h | h
    · exact .entry List.mem_cons_self (hasKey_of_sitesBelow hsite name value h)
    · exact (hasKey_of_sites hsite entries h).cons_entry _

theorem hasKey_of_sitesBelow {site : Site} (hsite : site.unknownOperator? = some key)
    (name : String) : (value : Value) → site ∈ sitesBelow name value → HasKey key value
  | .list operands, h => by
    rw [sitesBelow] at h
    split at h
    · exact hasKey_of_operandSites hsite _ operands h
    · contradiction
  | .document operators, h => hasKey_of_operatorSites hsite h

/-- An unknown operator among operands is a key in one of them. -/
theorem hasKey_of_operandSites {site : Site} (hsite : site.unknownOperator? = some key)
    (connective : Connective) :
    (operands : List Value) → site ∈ operandSites connective operands →
      HasKey key (.list operands)
  | [], h => absurd h List.not_mem_nil
  | .document entries :: operands, h => by
    rw [operandSites] at h
    rcases List.mem_cons.1 h with rfl | h
    · contradiction
    rcases List.mem_append.1 h with h | h
    · exact .item List.mem_cons_self (hasKey_of_sites hsite entries h)
    · exact (hasKey_of_operandSites hsite connective operands h).cons_item _
  | .null :: operands, h | .boolean _ :: operands, h | .integer _ :: operands, h
  | .float _ :: operands, h | .string _ :: operands, h | .list _ :: operands, h => by
    rcases List.mem_cons.1 h with rfl | h
    · contradiction
    · exact (hasKey_of_operandSites hsite connective operands h).cons_item _

end

end Value

/-- The operator that a document is refused for is a key in it. -/
theorem Document.hasKey_of_unknownOperator {d : Document} {key : String}
    (h : d.toCondition.result = .error (.unknownOperator key)) :
    Value.HasKey key (.document d.entries) := by
  have hfirst : firstFault? (Value.sites d.entries) = some (.unknownOperator key) := by
    rw [← d.errorOf?_toCondition, h, errorOf?_error]
  obtain ⟨site, hsite, hfault⟩ := List.exists_of_findSome?_eq_some hfirst
  have hunknown := (site.eq_unknownOperator_iff hfault key).1 rfl
  exact Value.hasKey_of_sites hunknown d.entries hsite

/-- Errors point into what they are about. What a call is refused with carries a part of its text,
    if its shape is not at fault, and so does what a document, an operator map, a list of documents
    or a list of values is refused with. An unknown operator is a key in the document. -/
theorem SyntaxError.pointsInto_of_parse :
    (∀ text e, FindCall.parse text = .error e → (∀ fault, e ≠ .invalidCall fault) →
      e.PointsInto text.toList) ∧
    (∀ text e, Document.parse text = .error e → e.PointsInto text.toList) ∧
    (∀ text e, Document.parseOperators text = .error e → e.PointsInto text.toList) ∧
    (∀ text e, Document.parseList text = .error e → e.PointsInto text.toList) ∧
    (∀ text e, Value.parseList text = .error e → e.PointsInto text.toList) ∧
    (∀ (d : Document) (key : String), d.toCondition.result = .error (.unknownOperator key) →
      Value.HasKey key (.document d.entries)) := by
  have hguarded (text : List Char) :=
    Stepwise.guarded_readDocument (text.length + 1) text (Nat.lt_succ_self _)
  have hdocument {e : SyntaxError} {text : List Char} (h : readDocument text = .error e) :
      e.PointsInto text :=
    pointsInto_of_readDocument ((hguarded text).ne_of_eq_error h) _ text (Nat.lt_succ_self _) h
  refine ⟨?_, ?_, ?_, ?_, ?_, ?_⟩
  · intro text e h hcall
    have hne := (Stepwise.guarded_readCall text.toList).ne_of_eq_error h
    exact FindCall.pointsInto_of_read hne hcall h
  · intro text e h
    exact hdocument h
  · intro text e h
    have hne := (Stepwise.guarded_readOperators text.toList).ne_of_eq_error h
    exact pointsInto_of_readOperators hne h
  · intro text e h
    have hne := (Stepwise.guarded_readConditions fun span _ => hguarded span).ne_of_eq_error h
    exact pointsInto_of_readConditions hne (fun span _ hspan => hdocument hspan) h
  · intro text e h
    have hne := (Stepwise.guarded_readValues text.toList).ne_of_eq_error h
    exact pointsInto_of_readValues hne h
  · intro d key h
    exact Document.hasKey_of_unknownOperator h

/-- A call whose fault is a member of a list in an operator map in a list of documents. -/
def deepFault : String :=
  "db.t.find(\x7b$or: [\x7ba: 1\x7d, \x7bb: \x7b$in: ['x', 2x ]\x7d\x7d]\x7d);"

/-- A document whose unknown operator stands in an operand of a connective. -/
def unknownInside : Document :=
  .ofEntries [("$or", .list [.document [("a", .document [("$near", .integer 1)])]])]

theorem SyntaxError.pointsInto_deepFault :
    FindCall.parse deepFault = .error (.malformedScalar "2x") ∧
      (SyntaxError.malformedScalar "2x").PointsInto deepFault.toList ∧
      unknownInside.toCondition.result = .error (.unknownOperator "$near") ∧
      Value.HasKey "$near" (.document unknownInside.entries) := by
  obtain ⟨hcall, -, -, -, -, hcondition⟩ := SyntaxError.pointsInto_of_parse
  have hparse : FindCall.parse deepFault = .error (.malformedScalar "2x") := by decide +kernel
  have hunknown : unknownInside.toCondition.result = .error (.unknownOperator "$near") := by
    decide +kernel
  exact ⟨hparse, hcall _ _ hparse nofun, hunknown, hcondition _ _ hunknown⟩

end FindSelect
