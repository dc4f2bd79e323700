import Mathlib.Data.List.Induction
import FindSelect.Document.Basic

namespace FindSelect

/-- Gives a key a value in a list of entries: in place of the first entry with that key, and
    at the end if there is none. -/
def upsert (key : String) (value : Value) : List (String × Value) → List (String × Value)
  | [] => [(key, value)]
  | entry :: entries =>
    if entry.1 = key then (key, value) :: entries else entry :: upsert key value entries

section Upsert

variable {key : String} {entries : List (String × Value)}

/-- A new key comes last. -/
theorem upsert_of_not_mem (h : key ∉ entries.map Prod.fst) (value : Value) :
    upsert key value entries = entries ++ [(key, value)] := by
  induction entries with
  | nil => rfl
  | cons entry entries ih =>
    rw [List.map_cons, List.mem_cons, not_or] at h
    rw [upsert, if_neg (Ne.symm h.1), ih h.2, List.cons_append]

/-- A key that is there keeps its position. -/
theorem upsert_of_mem (h : key ∈ entries.map Prod.fst) (value : Value) :
    upsert key value entries = entries.set ((entries.map Prod.fst).idxOf key) (key, value) := by
  induction entries with
  | nil => simp at h
  | cons entry entries ih =>
    rw [List.map_cons, List.idxOf_cons, upsert]
    by_cases heq : entry.1 = key
    · rw [if_pos heq, beq_iff_eq.2 heq, cond_true, List.set_cons_zero]
    · rw [List.map_cons, List.mem_cons] at h
      have hmem : key ∈ entries.map Prod.fst := h.resolve_left (Ne.symm heq)
      rw [if_neg heq, beq_false_of_ne heq, cond_false, List.set_cons_succ, ih hmem]

theorem mem_upsert {value : Value} {entry : String × Value}
    (h : entry ∈ upsert key value entries) : entry = (key, value) ∨ entry ∈ entries := by
  induction entries with
  | nil => exact .inl (List.mem_singleton.1 h)
  | cons first entries ih =>
    rw [upsert] at h
    split at h
    · exact (List.mem_cons.1 h).imp_right (List.mem_cons_of_mem first)
    · rcases List.mem_cons.1 h with rfl | h
      · exact .inr List.mem_cons_self
      · exact (ih h).imp_right (List.mem_cons_of_mem first)

theorem mem_keys_upsert (key : String) (value : Value) (entries : List (String × Value)) :
    key ∈ (upsert key value entries).map Prod.fst := by
  induction entries with
  | nil => simp [upsert]
  | cons entry entries ih =>
    rw [upsert]
    split
    · exact List.mem_cons_self
    · exact List.mem_cons_of_mem _ ih

/-- The keys that were there stay. -/
theorem mem_keys_upsert_of_mem {other : String} (h : key ∈ entries.map Prod.fst) (value : Value) :
    key ∈ (upsert other value entries).map Prod.fst := by
  induction entries with
  | nil => simp at h
  | cons entry entries ih =>
    rw [List.map_cons, List.mem_cons] at h
    rw [upsert]
    split
    · rename_i heq
      rw [List.map_cons, List.mem_cons, ← heq]
      exact h
    · rw [List.map_cons, List.mem_cons]
      exact h.imp_right ih

/-- The last value of a key counts. -/
theorem upsert_upsert_self (key : String) (first second : Value)
    (entries : List (String × Value)) :
    upsert key second (upsert key first entries) = upsert key second entries := by
  induction entries with
  | nil => simp [upsert]
  | cons entry entries ih =>
    by_cases heq : entry.1 = key
    · simp [upsert, heq]
    · simp [upsert, heq, ih]

/-- A key that is there has its position, so its value may as well be given first. -/
theorem upsert_comm {other : String} (h : key ∈ entries.map Prod.fst) (hne : other ≠ key)
    (value value' : Value) :
    upsert key value (upsert other value' entries) =
      upsert other value' (upsert key value entries) := by
  induction entries with
  | nil => simp at h
  | cons entry entries ih =>
    by_cases hkey : entry.1 = key
    · simp [upsert, hkey, hne.symm]
    · rw [List.map_cons, List.mem_cons] at h
      have hmem : key ∈ entries.map Prod.fst := h.resolve_left (Ne.symm hkey)
      by_cases hother : entry.1 = other
      · simp [upsert, hother, hne]
      · simp [upsert, hkey, hother, ih hmem]

end Upsert

/-- Gives every key of a list its value, in order. -/
def upsertAll (base entries : List (String × Value)) : List (String × Value) :=
  entries.foldl (fun base entry => upsert entry.1 entry.2 base) base

section UpsertAll

variable {base entries : List (String × Value)}

/-- Entries with other keys may as well come after. -/
theorem upsert_upsertAll {key : String} (h : key ∈ base.map Prod.fst)
    (hkey : key ∉ entries.map Prod.fst) (value : Value) :
    upsert key value (upsertAll base entries) = upsertAll (upsert key value base) entries := by
  induction entries generalizing base with
  | nil => rfl
  | cons entry entries ih =>
    rw [List.map_cons, List.mem_cons, not_or] at hkey
    change upsert key value (upsertAll (upsert entry.1 entry.2 base) entries) =
      upsertAll (upsert entry.1 entry.2 (upsert key value base)) entries
    rw [ih (mem_keys_upsert_of_mem h entry.2) hkey.2, upsert_comm h (Ne.symm hkey.1)]

/-- One more entry may be put into the list of distinct keys before that list is inserted. -/
theorem upsertAll_upsert (hnodup : (entries.map Prod.fst).Nodup) (key : String) (value : Value) :
    upsertAll base (upsert key value entries) = upsert key value (upsertAll base entries) := by
  induction entries generalizing base with
  | nil => rfl
  | cons entry entries ih =>
    obtain ⟨hfresh, hrest⟩ := List.nodup_cons.1 hnodup
    change upsertAll base (upsert key value (entry :: entries)) =
      upsert key value (upsertAll (upsert entry.1 entry.2 base) entries)
    rw [upsert]
    split
    · rename_i heq
      subst heq
      rw [upsert_upsertAll (mem_keys_upsert entry.1 entry.2 base) hfresh, upsert_upsert_self]
      rfl
    · exact ih hrest

/-- Entries with different keys are all kept, in order. -/
theorem upsertAll_of_nodup (h : ((base ++ entries).map Prod.fst).Nodup) :
    upsertAll base entries = base ++ entries := by
  induction entries generalizing base with
  | nil => exact (List.append_nil base).symm
  | cons entry entries ih =>
    have hfresh : entry.1 ∉ base.map Prod.fst := by
      rw [List.map_append, List.nodup_append] at h
      intro hmem
      exact h.2.2 entry.1 hmem entry.1 (by simp) rfl
    have hassoc : base ++ entry :: entries = (base ++ [entry]) ++ entries := by simp
    rw [hassoc] at h ⊢
    rw [← ih h, ← upsert_of_not_mem hfresh entry.2]
    rfl

/-- Giving keys their values makes no entries of its own. -/
theorem mem_upsertAll {entry : String × Value} (h : entry ∈ upsertAll base entries) :
    entry ∈ base ∨ entry ∈ entries := by
  induction entries generalizing base with
  | nil => exact .inl h
  | cons first entries ih =>
    rcases ih h with h | h
    · rcases mem_upsert h with rfl | h
      · exact .inr List.mem_cons_self
      · exact .inl h
    · exact .inr (List.mem_cons_of_mem first h)

end UpsertAll

namespace Document

/-- The entries of a document after an insertion. -/
theorem entries_insert (d : Document) (key : String) (value : Value) :
    (d.insert key value).2.entries = upsert key value d.entries := by
  unfold insert
  split
  · rename_i position h
    rw [getElem?_index] at h
    split at h
    · rename_i hmem
      obtain rfl := Option.some.inj h
      exact (upsert_of_mem hmem value).symm
    · contradiction
  · rename_i h
    rw [getElem?_index] at h
    split at h
    · contradiction
    · rename_i hmem
      exact (upsert_of_not_mem hmem value).symm

/-- Inserts entries in order. -/
def insertAll (d : Document) (entries : List (String × Value)) : Document :=
  entries.foldl (fun d entry => (d.insert entry.1 entry.2).2) d

theorem ofEntries_eq_insertAll (entries : List (String × Value)) :
    ofEntries entries = empty.insertAll entries := rfl

/-- Insertions give the keys their values, in order. -/
theorem entries_insertAll (d : Document) (entries : List (String × Value)) :
    (d.insertAll entries).entries = upsertAll d.entries entries := by
  induction entries generalizing d with
  | nil => rfl
  | cons entry entries ih =>
    change ((d.insert entry.1 entry.2).2.insertAll entries).entries =
      upsertAll (upsert entry.1 entry.2 d.entries) entries
    rw [ih, entries_insert]

/-- The entries of a document are entries that were inserted. -/
theorem mem_of_mem_ofEntries {entries : List (String × Value)} {entry : String × Value}
    (h : entry ∈ (ofEntries entries).entries) : entry ∈ entries := by
  rw [ofEntries_eq_insertAll, entries_insertAll] at h
  exact (mem_upsertAll h).resolve_left (by simp [empty])

/-- A document made of entries with different keys has these entries. -/
theorem entries_ofEntries {entries : List (String × Value)} (h : (entries.map Prod.fst).Nodup) :
    (ofEntries entries).entries = entries := by
  rw [ofEntries_eq_insertAll, entries_insertAll]
  exact upsertAll_of_nodup h

/-- A document is what its own entries make. -/
theorem ofEntries_entries (d : Document) : ofEntries d.entries = d :=
  ext (entries_ofEntries d.nodup_keys)

theorem insertAll_append (d : Document) (a b : List (String × Value)) :
    d.insertAll (a ++ b) = (d.insertAll a).insertAll b :=
  List.foldl_append

/-- Entries and the document that they make are inserted with the same result. The induction
    is on the entries from the last one back: what is overwritten keeps its place. -/
theorem insertAll_ofEntries (d : Document) (entries : List (String × Value)) :
    d.insertAll (ofEntries entries).entries = d.insertAll entries := by
  induction entries using List.reverseRecOn with
  | nil => rfl
  | append_singleton entries entry ih =>
    have hlast : (ofEntries (entries ++ [entry])).entries =
        upsert entry.1 entry.2 (ofEntries entries).entries := by
      rw [ofEntries_eq_insertAll, insertAll_append, ← ofEntries_eq_insertAll]
      exact entries_insert _ _ _
    apply ext
    rw [hlast, insertAll_append, ← ih, entries_insertAll,
      upsertAll_upsert (ofEntries entries).nodup_keys, ← entries_insertAll]
    exact (entries_insert _ _ _).symm

end Document
end FindSelect
