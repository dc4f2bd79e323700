import FindSelect.Json
import FindSelect.Proofs.Find.Shape

namespace FindSelect

namespace Json

mutual

/-- The value with the structure of a JSON tree: the members of an object are entries in the same
    order, and every number keeps its kind. -/
def toValue : Json → Value
  | .null => .null
  | .boolean b => .boolean b
  | .integer n => .integer n
  | .float x => .float x
  | .string s => .string s
  | .array items => .list (toItems items)
  | .object members => .document (toEntries members)

def toItems : List Json → List Value
  | [] => []
  | item :: items => toValue item :: toItems items

def toEntries : List (String × Json) → List (String × Value)
  | [] => []
  | (name, value) :: members => (name, toValue value) :: toEntries members

end

mutual

/-- Equality of JSON trees, with numbers of one kind compared as numbers. Objects are equal when
    their members are, in order. -/
def equal : Json → Json → Bool
  | .null, .null => true
  | .boolean a, .boolean b => a == b
  | .integer a, .integer b => a == b
  | .float a, .float b => a.equal b
  | .string a, .string b => a == b
  | .array a, .array b => equalItems a b
  | .object a, .object b => equalMembers a b
  | _, _ => false

def equalItems : List Json → List Json → Bool
  | [], [] => true
  | a :: as, b :: bs => equal a b && equalItems as bs
  | _, _ => false

def equalMembers : List (String × Json) → List (String × Json) → Bool
  | [], [] => true
  | (j, a) :: as, (k, b) :: bs => j == k && equal a b && equalMembers as bs
  | _, _ => false

end

mutual

/-- Trees are equal when the values with their structure are. -/
theorem equal_eq_equal_toValue : (a b : Json) → equal a b = Value.equal a.toValue b.toValue
  | .null, b => by cases b <;> rfl
  | .boolean _, b => by cases b <;> rfl
  | .integer _, b => by cases b <;> rfl
  | .float _, b => by cases b <;> rfl
  | .string _, b => by cases b <;> rfl
  | .array items, b => by
    cases b with
    | array others => exact equalItems_eq_equalItems_toItems items others
    | _ => rfl
  | .object members, b => by
    cases b with
    | object others => exact equalMembers_eq_equalEntries_toEntries members others
    | _ => rfl

theorem equalItems_eq_equalItems_toItems : (a b : List Json) →
    equalItems a b = Value.equalItems (toItems a) (toItems b)
  | [], b => by cases b <;> rfl
  | item :: items, b => by
    cases b with
    | nil => rfl
    | cons other others =>
      rw [equalItems, toItems, toItems, Value.equalItems, equal_eq_equal_toValue item,
        equalItems_eq_equalItems_toItems items]

theorem equalMembers_eq_equalEntries_toEntries : (a b : List (String × Json)) →
    equalMembers a b = Value.equalEntries (toEntries a) (toEntries b)
  | [], b => by cases b <;> rfl
  | (name, value) :: members, b => by
    cases b with
    | nil => rfl
    | cons other others =>
      obtain ⟨name', value'⟩ := other
      rw [equalMembers, toEntries, toEntries, Value.equalEntries, equal_eq_equal_toValue value,
        equalMembers_eq_equalEntries_toEntries members]

end

/-- A member with a new name comes last. -/
theorem addMember_of_not_mem {members : List (String × Json)} {name : String}
    (h : name ∉ members.map Prod.fst) (value : Json) :
    addMember members name value = members ++ [(name, value)] := by
  induction members with
  | nil => rfl
  | cons member members ih =>
    obtain ⟨hne, hrest⟩ := not_or.1 (mt List.mem_cons.2 h)
    rw [addMember, if_neg fun heq => hne heq.symm, ih hrest, List.cons_append]

/-- Members with different names are all kept, in order. -/
theorem foldl_addMember {done members : List (String × Json)}
    (h : ((done ++ members).map Prod.fst).Nodup) :
    members.foldl (fun done member => addMember done member.1 member.2) done = done ++ members := by
  induction members generalizing done with
  | nil => rw [List.foldl_nil, List.append_nil]
  | cons member members ih =>
    have hnew : member.1 ∉ done.map Prod.fst := by
      rw [List.map_append, List.nodup_append] at h
      exact fun hmem => h.2.2 _ hmem _ (List.mem_map_of_mem List.mem_cons_self) rfl
    -- The member joins those that are done, and the names stay the same and distinct.
    rw [List.append_cons] at h
    rw [List.foldl_cons, addMember_of_not_mem hnew, ih h, List.append_cons done member members]

/-- An object keeps members with distinct names, in order. -/
theorem ofMembers_of_nodup {members : List (String × Json)}
    (h : (members.map Prod.fst).Nodup) : ofMembers members = .object members :=
  congrArg Json.object (foldl_addMember h : _ = [] ++ members)

theorem map_fst_ofEntries (entries : List (String × Value)) :
    (ofEntries entries).map Prod.fst = entries.map Prod.fst := by
  induction entries with
  | nil => rfl
  | cons entry entries ih => rw [ofEntries, List.map_cons, ih, List.map_cons]

/-- A document with different keys is an object with its entries as members. -/
theorem ofValue_document {entries : List (String × Value)} (h : (entries.map Prod.fst).Nodup) :
    ofValue (.document entries) = .object (ofEntries entries) := by
  rw [ofValue, ofMembers_of_nodup]
  rwa [map_fst_ofEntries]

theorem toItems_ofItems {items : List Value} (h : ∀ item ∈ items, (ofValue item).toValue = item) :
    toItems (ofItems items) = items := by
  induction items with
  | nil => rfl
  | cons item items ih =>
    rw [List.forall_mem_cons] at h
    rw [ofItems, toItems, h.1, ih h.2]

/-- Entries are read back from their members if their values are. -/
theorem toEntries_ofEntries {entries : List (String × Value)}
    (h : ∀ entry ∈ entries, (ofValue entry.2).toValue = entry.2) :
    toEntries (ofEntries entries) = entries := by
  induction entries with
  | nil => rfl
  | cons entry entries ih =>
    rw [List.forall_mem_cons] at h
    rw [ofEntries, toEntries, h.1, ih h.2]

theorem toValue_ofValue_document {entries : List (String × Value)}
    (hkeys : (entries.map Prod.fst).Nodup)
    (hvalues : ∀ entry ∈ entries, (ofValue entry.2).toValue = entry.2) :
    (ofValue (.document entries)).toValue = .document entries := by
  rw [ofValue_document hkeys, toValue, toEntries_ofEntries hvalues]

theorem toValue_ofValue_of_isScalar {value : Value} (h : IsScalar value) :
    (ofValue value).toValue = value := by
  cases value with
  | list items => exact absurd h (not_isScalar_list items)
  | document entries => exact absurd h (not_isScalar_document entries)
  | float x => rw [ofValue, if_pos (h.2 x rfl), toValue]
  | _ => rfl

/-- The operand of an operator is read back from its JSON tree. -/
theorem toValue_ofValue_of_operandShape {value : Value} (h : OperandShape IsScalar value) :
    (ofValue value).toValue = value := by
  cases h with
  | leaf hleaf => exact toValue_ofValue_of_isScalar hleaf
  | list hitems =>
    rw [ofValue, toValue, toItems_ofItems]
    exact fun item hitem => toValue_ofValue_of_isScalar (hitems item hitem)

/-- The JSON form of a value with the shape of those in documents has its structure. -/
theorem toValue_ofValue {Key : String → Prop} {value : Value}
    (h : ValueShape Key IsScalar value) : (ofValue value).toValue = value := by
  induction h with
  | leaf hleaf => exact toValue_ofValue_of_isScalar hleaf
  | operators hkeys hvalues =>
    refine toValue_ofValue_document hkeys.nodup ?_
    exact fun entry hentry => toValue_ofValue_of_operandShape (hvalues entry hentry)
  | @conditions documents hkeys hvalues ih =>
    rw [ofValue, toValue, toItems_ofItems]
    rw [List.forall_mem_map]
    exact fun entries hentries =>
      toValue_ofValue_document (hkeys entries hentries).nodup (ih entries hentries)

/-- A document that was read is read back from its JSON tree. -/
theorem toEntries_ofEntries_of_readDocument {text : List Char} {d : Document}
    (h : readDocument text = .ok d) : toEntries (ofEntries d.entries) = d.entries := by
  have hshape := documentShape_of_readDocument _ text d (Nat.lt_succ_self _) h
  exact toEntries_ofEntries fun entry hentry => toValue_ofValue (hshape.values entry hentry)

theorem toEntries_ofEntries_of_parse {text : String} {call : FindCall}
    (h : FindCall.parse text = .ok call) :
    toEntries (ofEntries call.conditions.entries) = call.conditions.entries ∧
      toEntries (ofEntries call.projection.entries) = call.projection.entries := by
  obtain ⟨query, projection, hquery, hprojection⟩ := FindCall.exists_documents_of_parse h
  exact ⟨toEntries_ofEntries_of_readDocument hquery,
    toEntries_ofEntries_of_readDocument hprojection⟩

/-- Documents that can be read back from their members are the same if these are. -/
theorem eq_of_ofEntries_eq {d d' : Document} (hd : toEntries (ofEntries d.entries) = d.entries)
    (hd' : toEntries (ofEntries d'.entries) = d'.entries)
    (h : ofEntries d.entries = ofEntries d'.entries) : d = d' := by
  apply Document.ext
  calc d.entries = toEntries (ofEntries d.entries) := hd.symm
    _ = toEntries (ofEntries d'.entries) := by rw [h]
    _ = d'.entries := hd'

/-- No member of the view of a call takes the place of another, since the keys of documents are
    distinct. -/
theorem ofCall_eq_object (call : FindCall) :
    ofCall call = .object [("table", .string call.table),
      ("conditions", .object (ofEntries call.conditions.entries)),
      ("projection", .object (ofEntries call.projection.entries))] := by
  rw [ofCall, ofMembers_of_nodup (by simp), Document.toValue, Document.toValue,
    ofValue_document call.conditions.nodup_keys, ofValue_document call.projection.nodup_keys]

/-- The JSON view of a call that was read loses nothing. It holds the table and the structure of
    both documents, so calls with one view are the same, and views are equal as JSON exactly when
    the calls are equal with numbers compared as numbers. -/
theorem ofCall_lossless {text text' : String} {call call' : FindCall}
    (h : FindCall.parse text = .ok call) (h' : FindCall.parse text' = .ok call') :
    (∃ conditions projection,
      ofCall call = .object [("table", .string call.table), ("conditions", .object conditions),
        ("projection", .object projection)] ∧
      toEntries conditions = call.conditions.entries ∧
      toEntries projection = call.projection.entries) ∧
    (ofCall call = ofCall call' → call = call') ∧
    ((ofCall call).equal (ofCall call') = true ↔
      call.table = call'.table ∧ call.conditions.equal call'.conditions = true ∧
        call.projection.equal call'.projection = true) := by
  obtain ⟨hconditions, hprojection⟩ := toEntries_ofEntries_of_parse h
  obtain ⟨hconditions', hprojection'⟩ := toEntries_ofEntries_of_parse h'
  refine ⟨⟨_, _, ofCall_eq_object call, hconditions, hprojection⟩, ?_, ?_⟩
  · intro heq
    rw [ofCall_eq_object, ofCall_eq_object] at heq
    simp only [object.injEq, List.cons.injEq, Prod.mk.injEq, string.injEq, true_and,
      and_true] at heq
    obtain ⟨htable, hmembers, hmembers'⟩ := heq
    have hconditions := eq_of_ofEntries_eq hconditions hconditions' hmembers
    have hprojection := eq_of_ofEntries_eq hprojection hprojection' hmembers'
    cases call
    cases call'
    rw [FindCall.mk.injEq]
    exact ⟨htable, hconditions, hprojection⟩
  · rw [ofCall_eq_object, ofCall_eq_object]
    simp [equal, equalMembers, equalMembers_eq_equalEntries_toEntries, hconditions, hconditions',
      hprojection, hprojection', Document.equal]

/-- Two calls that differ only in the sign of a zero. -/
def zeroCall (negative : Bool) : FindCall where
  table := "t"
  conditions := .ofEntries [("a", .float ⟨negative, 0⟩),
    ("$or", .list [.document [("b", .string "null")],
      .document [("b", .null), ("c", .document [("$in", .list [.integer 1, .string "1"])])]])]
  projection := .ofEntries [("a", .integer 1)]

def plusZeroText : String :=
  "db.t.find(\x7ba: 0.0, $or: [\x7bb: 'null'\x7d, \x7bb: null, c: \x7b$in: [1, '1']\x7d\x7d]\x7d, \x7ba: 1\x7d)"

def minusZeroText : String :=
  "db.t.find(\x7ba: -0e1 $or: [ \x7bb:'null'\x7d \x7bb:null c: \x7b$in: [1 '1']\x7d\x7d ]\x7d, \x7ba: 01\x7d);"

theorem ofCall_lossless_zeros :
    FindCall.parse plusZeroText = .ok (zeroCall false) ∧
    FindCall.parse minusZeroText = .ok (zeroCall true) ∧
    (zeroCall false).conditions.equal (zeroCall true).conditions = true ∧
    ofCall (zeroCall false) ≠ ofCall (zeroCall true) := by
  have hplus : FindCall.parse plusZeroText = .ok (zeroCall false) := by decide +kernel
  have hminus : FindCall.parse minusZeroText = .ok (zeroCall true) := by decide +kernel
  obtain ⟨-, hsame, hequal⟩ := ofCall_lossless hplus hminus
  refine ⟨hplus, hminus, ?_, ?_⟩
  · exact (hequal.1 (by decide +kernel)).2.1
  · exact mt hsame (by decide +kernel)

end Json

end FindSelect
