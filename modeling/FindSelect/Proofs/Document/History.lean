import Mathlib.Data.Finset.Card
import FindSelect.Proofs.Document.Insertion

namespace FindSelect

/-- The two halves of a document as they stand, with nothing that keeps them in step. -/
structure Store where
  entries : List (String × Value)
  index : Std.TreeMap String Nat

namespace Store

def empty : Store := ⟨[], ∅⟩

/-- One insertion, with the value that it replaces. Where the index knows the key, only the value
    of the entry at that position changes, and there is no outcome if no entry is there. -/
def insert (s : Store) (key : String) (value : Value) : Option (Option Value × Store) :=
  match s.index[key]? with
  | some position => s.entries[position]?.map fun entry =>
    (some entry.2, ⟨s.entries.set position (entry.1, value), s.index⟩)
  | none => some (none, ⟨s.entries ++ [(key, value)], s.index.insert key s.entries.length⟩)

/-- Insertions in order. -/
def insertAll (s : Store) (history : List (String × Value)) : Option Store :=
  history.foldlM (fun s entry => (s.insert entry.1 entry.2).map Prod.snd) s

end Store

section Upsert

variable {key : String} {entries : List (String × Value)}

/-- A key that is there already keeps its place. -/
theorem keys_upsert_of_mem (h : key ∈ entries.map Prod.fst) (value : Value) :
    (upsert key value entries).map Prod.fst = entries.map Prod.fst := by
  induction entries with
  | nil => simp at h
  | cons entry entries ih =>
    rw [upsert]
    split
    · rename_i heq
      rw [List.map_cons, List.map_cons, heq]
    · rename_i hne
      have hmem : key ∈ entries.map Prod.fst := (List.mem_cons.1 h).resolve_left (Ne.symm hne)
      rw [List.map_cons, List.map_cons, ih hmem]

/-- The keys after an insertion are those before it, and the new key at the end if it is one. -/
theorem keys_upsert (key : String) (value : Value) (entries : List (String × Value)) :
    (upsert key value entries).map Prod.fst =
      entries.map Prod.fst ++ [key].removeAll (entries.map Prod.fst) := by
  by_cases hmem : key ∈ entries.map Prod.fst
  · rw [keys_upsert_of_mem hmem]
    simp [List.removeAll, hmem]
  · rw [upsert_of_not_mem hmem, List.map_append]
    simp [List.removeAll, hmem]

theorem lookup_cons_eq (entry : String × Value) (key : String) :
    (entry :: entries).lookup key = if key = entry.1 then some entry.2 else entries.lookup key := by
  obtain ⟨first, value⟩ := entry
  by_cases heq : key = first
  · simp [heq]
  · have hfalse : (key == first) = false := beq_false_of_ne heq
    rw [List.lookup_cons, hfalse, if_neg heq]

/-- A key that was given a value has it, and other keys keep theirs. -/
theorem lookup_upsert (key other : String) (value : Value) (entries : List (String × Value)) :
    (upsert key value entries).lookup other =
      if other = key then some value else entries.lookup other := by
  induction entries with
  | nil => exact lookup_cons_eq (key, value) other
  | cons entry entries ih =>
    rw [upsert]
    split
    · rename_i hentry
      rw [lookup_cons_eq, lookup_cons_eq, hentry]
      split <;> rfl
    · rename_i hentry
      rw [lookup_cons_eq, lookup_cons_eq, ih]
      by_cases heq : other = entry.1
      · have hne : other ≠ key := fun h => hentry (heq.symm.trans h)
        rw [if_pos heq, if_neg hne, if_pos heq]
      · rw [if_neg heq, if_neg heq]

theorem lookup_of_mem {value : Value} (hnodup : (entries.map Prod.fst).Nodup)
    (h : (key, value) ∈ entries) : entries.lookup key = some value := by
  induction entries with
  | nil => simp at h
  | cons entry entries ih =>
    obtain ⟨hfresh, hrest⟩ := List.nodup_cons.1 hnodup
    rw [lookup_cons_eq]
    rcases List.mem_cons.1 h with rfl | h
    · exact if_pos rfl
    · have hne : key ≠ entry.1 := by
        intro heq
        exact hfresh (List.mem_map.2 ⟨(key, value), h, heq⟩)
      rw [if_neg hne, ih hrest h]

end Upsert

namespace Document

def store (d : Document) : Store := ⟨d.entries, d.index⟩

/-- The index sends a key to a position exactly where the key stands there. -/
theorem index_eq_some_iff (d : Document) {key : String} {position : Nat} :
    d.index[key]? = some position ↔ d.keys[position]? = some key := by
  rw [getElem?_index]
  constructor
  · intro h
    split at h
    · rename_i hmem
      obtain rfl := Option.some.inj h
      exact List.getElem?_idxOf hmem
    · contradiction
  · intro h
    obtain ⟨hlt, hget⟩ := List.getElem?_eq_some_iff.1 h
    have hidx : d.keys.idxOf d.keys[position] = position := d.nodup_keys.idxOf_getElem position hlt
    rw [if_pos (hget ▸ List.getElem_mem hlt), ← hget, hidx]

/-- Where the index sends a key, an entry with that key stands. -/
theorem exists_of_index {d : Document} {key : String} {position : Nat}
    (h : d.index[key]? = some position) : ∃ value, d.entries[position]? = some (key, value) := by
  have hkey : (d.entries.map Prod.fst)[position]? = some key := d.index_eq_some_iff.1 h
  rw [List.getElem?_map] at hkey
  obtain ⟨entry, hentry, rfl⟩ := Option.map_eq_some_iff.1 hkey
  exact ⟨entry.2, hentry⟩

/-- The two halves take an insertion in step: the position that the index gives is one of the
    entries, and the entry there has the key. -/
theorem insert_store (d : Document) (key : String) (value : Value) :
    d.store.insert key value = some ((d.insert key value).1, (d.insert key value).2.store) := by
  unfold Store.insert insert
  split
  · rename_i position hposition
    obtain ⟨old, hentry⟩ := exists_of_index hposition
    have hentries : d.store.entries[position]? = some (key, old) := hentry
    split
    · rename_i other hother
      obtain rfl : position = other := Option.some.inj (hposition.symm.trans hother)
      rw [hentries, hentry]
      rfl
    · rename_i hnone
      exact absurd (hposition.symm.trans hnone) (by simp)
  · rename_i hnone
    split
    · rename_i position hposition
      exact absurd (hposition.symm.trans hnone) (by simp)
    · rfl

/-- Insertions into both halves never come out of step. -/
theorem insertAll_store (d : Document) (history : List (String × Value)) :
    d.store.insertAll history = some (d.insertAll history).store := by
  induction history generalizing d with
  | nil => rfl
  | cons entry history ih =>
    have hstep : (d.store.insert entry.1 entry.2).map Prod.snd =
        some (d.insert entry.1 entry.2).2.store := by
      rw [insert_store]
      rfl
    rw [Store.insertAll, List.foldlM_cons, hstep]
    exact ih (d.insert entry.1 entry.2).2

/-- A document answers with the value of the entry that has the key. -/
theorem get?_eq_lookup (d : Document) (key : String) : d.get? key = d.entries.lookup key := by
  rw [get?]
  cases hindex : d.index[key]? with
  | none =>
    have hkey : key ∉ d.keys := by
      intro hmem
      obtain ⟨position, hposition⟩ := List.mem_iff_getElem?.1 hmem
      rw [d.index_eq_some_iff.2 hposition] at hindex
      contradiction
    symm
    rw [Option.bind_none, List.lookup_eq_none_iff]
    intro entry hentry
    rw [bne_iff_ne]
    rintro rfl
    exact hkey (List.mem_map_of_mem hentry)
  | some position =>
    obtain ⟨value, hentry⟩ := exists_of_index hindex
    rw [Option.bind_some, hentry, lookup_of_mem d.nodup_keys (List.mem_of_getElem? hentry)]
    rfl

/-- An insertion hands back the value that the key had. -/
theorem insert_replaced (d : Document) (key : String) (value : Value) :
    (d.insert key value).1 = d.get? key := by
  unfold insert get?
  split
  · rename_i position hposition
    dsimp only
    rw [hposition, Option.bind_some]
  · rename_i hnone
    dsimp only
    rw [hnone, Option.bind_none]

/-- An inserted key has the value that was inserted, and other keys keep theirs. -/
theorem get?_insert (d : Document) (key other : String) (value : Value) :
    (d.insert key value).2.get? other = if other = key then some value else d.get? other := by
  rw [get?_eq_lookup, get?_eq_lookup, entries_insert, lookup_upsert]

/-- Inserting a key adds it at the end of the keys, unless it is one of them. -/
theorem keys_insert (d : Document) (key : String) (value : Value) :
    (d.insert key value).2.keys = d.keys ++ [key].removeAll d.keys := by
  rw [keys, entries_insert, keys_upsert]
  rfl

/-- Every key stays where it is. -/
theorem index_insert {d : Document} {other : String} {position : Nat}
    (h : d.index[other]? = some position) (key : String) (value : Value) :
    (d.insert key value).2.index[other]? = some position := by
  rw [index_eq_some_iff] at h ⊢
  obtain ⟨hlt, -⟩ := List.getElem?_eq_some_iff.1 h
  rw [keys_insert, List.getElem?_append_left hlt, h]

section History

variable (history : List (String × Value))

theorem insertAll_concat (d : Document) (entry : String × Value) :
    d.insertAll (history ++ [entry]) = ((d.insertAll history).insert entry.1 entry.2).2 := by
  rw [insertAll_append]
  rfl

/-- Keys stand in the order in which they first came. -/
theorem keys_insertAll : (empty.insertAll history).keys = (history.map Prod.fst).eraseDups := by
  induction history using List.reverseRecOn with
  | nil => rfl
  | append_singleton history entry ih =>
    have hmem : [entry.1].removeAll (history.map Prod.fst).eraseDups =
        ([entry.1].removeAll (history.map Prod.fst)).eraseDups := by
      by_cases h : entry.1 ∈ history.map Prod.fst
      · simp [List.removeAll, h]
      · simp [List.removeAll, h, List.eraseDups_cons]
    rw [insertAll_concat, keys_insert, ih, hmem, List.map_append, List.eraseDups_append]
    rfl

/-- The last value that was given to a key counts. -/
theorem get?_insertAll (key : String) :
    (empty.insertAll history).get? key = history.reverse.lookup key := by
  induction history using List.reverseRecOn with
  | nil => rfl
  | append_singleton history entry ih =>
    rw [insertAll_concat, get?_insert, ih, List.reverse_append, List.reverse_singleton,
      List.singleton_append, lookup_cons_eq]

/-- A document has as many entries as different keys were inserted. -/
theorem size_insertAll :
    (empty.insertAll history).size = (history.map Prod.fst).toFinset.card := by
  have hkeys : (empty.insertAll history).keys.toFinset = (history.map Prod.fst).toFinset := by
    ext key
    rw [keys_insertAll, List.mem_toFinset, List.mem_toFinset, List.mem_eraseDups]
  have hnodup : (empty.insertAll history).keys.Nodup := (empty.insertAll history).nodup_keys
  rw [← hkeys, List.toFinset_card_of_nodup hnodup, keys, List.length_map, size]

end History

/-- What a document says of the insertions that made it. The two halves have taken them in step,
    the index finds every key and no other, keys stand in the order in which they first came, and
    the last value of a key counts. -/
structure Records (d : Document) (history : List (String × Value)) : Prop where
  store : Store.empty.insertAll history = some d.store
  index : ∀ (key : String) (position : Nat),
    d.index[key]? = some position ↔ d.keys[position]? = some key
  nodup : d.keys.Nodup
  keys : d.keys = (history.map Prod.fst).eraseDups
  get : ∀ key, d.get? key = history.reverse.lookup key
  size : d.size = (history.map Prod.fst).toFinset.card

theorem records_insertAll (history : List (String × Value)) :
    (empty.insertAll history).Records history where
  store := insertAll_store empty history
  index _ _ := index_eq_some_iff _
  nodup := (empty.insertAll history).nodup_keys
  keys := keys_insertAll history
  get := get?_insertAll history
  size := size_insertAll history

/-- What the next insertion does. The position that the index gives is one of the entries, the
    value that the key had is handed back, and other keys keep their values, as all keep their
    positions. -/
structure TakesEntry (d : Document) (key : String) (value : Value) : Prop where
  store : d.store.insert key value = some (d.get? key, (d.insert key value).2.store)
  replaced : (d.insert key value).1 = d.get? key
  bound : ∀ position, d.index[key]? = some position → position < d.entries.length
  get : ∀ other,
    (d.insert key value).2.get? other = if other = key then some value else d.get? other
  positions : ∀ (other : String) (position : Nat), d.index[other]? = some position →
    (d.insert key value).2.index[other]? = some position

theorem takesEntry (d : Document) (key : String) (value : Value) : d.TakesEntry key value where
  store := by rw [insert_store, insert_replaced]
  replaced := insert_replaced d key value
  bound position h := by
    obtain ⟨old, hentry⟩ := exists_of_index h
    exact (List.getElem?_eq_some_iff.1 hentry).1
  get other := get?_insert d key other value
  positions _ _ h := index_insert h key value

end Document

/-- Equality of two indexes: as many keys, each at the same position. -/
def sameIndex (a b : Std.TreeMap String Nat) : Bool :=
  a.size == b.size && a.toList.all fun entry => b[entry.1]? == some entry.2

theorem sameIndex_self (index : Std.TreeMap String Nat) : sameIndex index index = true := by
  rw [sameIndex, beq_self_eq_true, Bool.true_and, List.all_eq_true]
  intro entry hentry
  rw [beq_iff_eq]
  exact Std.TreeMap.mem_toList_iff_getElem?_eq_some.1 hentry

namespace Value

mutual

/-- Equality of values in which the indexes of documents, at any depth, are compared too. A nested
    document has the index that its entries make. -/
def equalIndexed : Value → Value → Bool
  | .list a, .list b => equalItemsIndexed a b
  | .document a, .document b =>
    equalEntriesIndexed a b && sameIndex (Document.ofEntries a).index (Document.ofEntries b).index
  | a, b => a.equal b

def equalItemsIndexed : List Value → List Value → Bool
  | [], [] => true
  | a :: as, b :: bs => equalIndexed a b && equalItemsIndexed as bs
  | _, _ => false

def equalEntriesIndexed : List (String × Value) → List (String × Value) → Bool
  | [], [] => true
  | (j, a) :: as, (k, b) :: bs => j == k && equalIndexed a b && equalEntriesIndexed as bs
  | _, _ => false

end

/-- Entries that are equal have the same keys, in the same order. -/
theorem keys_eq_of_equalEntries {a b : List (String × Value)} (h : equalEntries a b = true) :
    a.map Prod.fst = b.map Prod.fst := by
  induction a generalizing b with
  | nil =>
    cases b with
    | nil => rfl
    | cons => simp [equalEntries] at h
  | cons entry a ih =>
    cases b with
    | nil => simp [equalEntries] at h
    | cons entry' b =>
      simp only [equalEntries, Bool.and_eq_true, beq_iff_eq] at h
      obtain ⟨⟨hkey, -⟩, hrest⟩ := h
      rw [List.map_cons, List.map_cons, hkey, ih hrest]

end Value

/-- Documents with the same keys have the same index. -/
theorem Document.index_eq_of_keys {d e : Document} (h : d.keys = e.keys) : d.index = e.index := by
  rw [d.index_eq, e.index_eq]
  exact congrArg indexOf h

namespace Value

/-- Documents with equal entries have the same index. -/
theorem sameIndex_of_equalEntries {a b : List (String × Value)} (h : equalEntries a b = true) :
    sameIndex (Document.ofEntries a).index (Document.ofEntries b).index = true := by
  have hkeys : (Document.ofEntries a).keys = (Document.ofEntries b).keys := by
    rw [Document.ofEntries_eq_insertAll, Document.ofEntries_eq_insertAll, Document.keys_insertAll,
      Document.keys_insertAll, keys_eq_of_equalEntries h]
  rw [Document.index_eq_of_keys hkeys, sameIndex_self]

mutual

/-- Comparing the indexes too makes no difference. -/
theorem equalIndexed_eq : (a b : Value) → equalIndexed a b = equal a b
  | .null, b => by cases b <;> rfl
  | .boolean _, b => by cases b <;> rfl
  | .integer _, b => by cases b <;> rfl
  | .float _, b => by cases b <;> rfl
  | .string _, b => by cases b <;> rfl
  | .list items, b => by cases b <;> simp [equalIndexed, equal, equalItemsIndexed_eq items]
  | .document entries, b => by
    cases b with
    | document other =>
      rw [equalIndexed, equal, equalEntriesIndexed_eq entries other]
      cases h : equalEntries entries other with
      | false => rfl
      | true => rw [sameIndex_of_equalEntries h, Bool.and_self]
    | _ => rfl

theorem equalItemsIndexed_eq : (a b : List Value) → equalItemsIndexed a b = equalItems a b
  | [], b => by cases b <;> rfl
  | item :: items, b => by
    cases b <;>
      simp [equalItemsIndexed, equalItems, equalIndexed_eq item, equalItemsIndexed_eq items]

theorem equalEntriesIndexed_eq :
    (a b : List (String × Value)) → equalEntriesIndexed a b = equalEntries a b
  | [], b => by cases b <;> rfl
  | (key, value) :: entries, b => by
    cases b with
    | nil => rfl
    | cons entry rest =>
      obtain ⟨key', value'⟩ := entry
      simp [equalEntriesIndexed, equalEntries, equalIndexed_eq value,
        equalEntriesIndexed_eq entries]

end

end Value

namespace Document

/-- Equality of documents by both halves. -/
def equalIndexed (d e : Document) : Bool :=
  Value.equalEntriesIndexed d.entries e.entries && sameIndex d.index e.index

/-- The indexes of documents with equal entries need not be compared. -/
theorem equalIndexed_eq (d e : Document) :
    d.equalIndexed e = Value.equalEntries d.entries e.entries := by
  rw [equalIndexed, Value.equalEntriesIndexed_eq]
  cases h : Value.equalEntries d.entries e.entries with
  | false => rfl
  | true => rw [index_eq_of_keys (Value.keys_eq_of_equalEntries h), sameIndex_self, Bool.and_self]

/-- A document is an ordered association list, whatever was inserted into it from the start or
    after it was made of pairs. Two documents are equal when their entries are, index or not. -/
theorem records_history (pairs more pairs' more' : List (String × Value)) (key : String)
    (value : Value) :
    ((ofEntries pairs).insertAll more).Records (pairs ++ more) ∧
    ((ofEntries pairs).insertAll more).TakesEntry key value ∧
    ((ofEntries pairs).insertAll more).equalIndexed ((ofEntries pairs').insertAll more') =
      Value.equalEntries ((ofEntries pairs).insertAll more).entries
        ((ofEntries pairs').insertAll more').entries := by
  refine ⟨?_, takesEntry _ key value, equalIndexed_eq _ _⟩
  rw [ofEntries_eq_insertAll, ← insertAll_append]
  exact records_insertAll (pairs ++ more)

end Document
end FindSelect
