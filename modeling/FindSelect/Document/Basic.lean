import Std.Data.TreeMap
import FindSelect.Document.Value

namespace FindSelect

/-- Adds keys to an index of positions, the first of them at position `n`. -/
def indexFrom (index : Std.TreeMap String Nat) (n : Nat) : List String → Std.TreeMap String Nat
  | [] => index
  | key :: keys => indexFrom (index.insert key n) (n + 1) keys

/-- The position of every key of a list without repetitions. -/
def indexOf (keys : List String) : Std.TreeMap String Nat := indexFrom ∅ 0 keys

theorem indexFrom_concat (index : Std.TreeMap String Nat) (n : Nat) (keys : List String)
    (key : String) :
    indexFrom index n (keys ++ [key]) = (indexFrom index n keys).insert key (n + keys.length) := by
  induction keys generalizing index n with
  | nil => rfl
  | cons k keys ih =>
    simp only [List.cons_append, indexFrom, ih, List.length_cons]
    congr 1
    omega

/-- An index knows the keys that were added to it at their positions, and the
    keys that it knew before. -/
theorem getElem?_indexFrom (index : Std.TreeMap String Nat) (n : Nat) {keys : List String}
    (hnodup : keys.Nodup) (key : String) :
    (indexFrom index n keys)[key]? =
      if key ∈ keys then some (n + keys.idxOf key) else index[key]? := by
  induction keys generalizing index n with
  | nil => simp [indexFrom]
  | cons k keys ih =>
    obtain ⟨hk, hkeys⟩ := List.nodup_cons.1 hnodup
    rw [indexFrom, ih _ _ hkeys, Std.TreeMap.getElem?_insert]
    by_cases heq : k = key
    · subst heq
      simp [hk]
    · have hne : key ≠ k := fun h => heq h.symm
      have hcmp : compare k key ≠ .eq := fun h => heq (Std.LawfulEqOrd.eq_of_compare h)
      by_cases hmem : key ∈ keys
      · have hidx : (k :: keys).idxOf key = keys.idxOf key + 1 := by
          rw [List.idxOf_cons, beq_false_of_ne heq, cond_false]
        simp only [hmem, if_true, List.mem_cons, or_true, hidx, Option.some.injEq]
        omega
      · simp [hmem, hne, hcmp]

theorem getElem?_indexOf {keys : List String} (hnodup : keys.Nodup) (key : String) :
    (indexOf keys)[key]? = if key ∈ keys then some (keys.idxOf key) else none := by
  rw [indexOf, getElem?_indexFrom ∅ 0 hnodup]
  simp

/-- A mapping from distinct keys to values that keeps its entries in the order in
    which their keys first came. An index finds the position of a key; the
    entries determine it. -/
structure Document where
  entries : List (String × Value)
  index : Std.TreeMap String Nat
  nodup_keys : (entries.map Prod.fst).Nodup
  index_eq : index = indexOf (entries.map Prod.fst)

namespace Document

def keys (d : Document) : List String := d.entries.map Prod.fst

/-- Documents with the same entries are the same. -/
@[ext] theorem ext {d e : Document} (h : d.entries = e.entries) : d = e := by
  obtain ⟨entries, index, _, hindex⟩ := d
  obtain ⟨entries', index', _, hindex'⟩ := e
  obtain rfl : entries = entries' := h
  obtain rfl : index = index' := hindex.trans hindex'.symm
  rfl

/-- The index answers with the position of a key among the keys. -/
theorem getElem?_index (d : Document) (key : String) :
    d.index[key]? = if key ∈ d.keys then some (d.keys.idxOf key) else none := by
  rw [d.index_eq]
  exact getElem?_indexOf d.nodup_keys key

instance : DecidableEq Document := fun d e =>
  decidable_of_iff (d.entries = e.entries) ⟨ext, fun h => h ▸ rfl⟩

def empty : Document := ⟨[], ∅, List.nodup_nil, rfl⟩

instance : Inhabited Document := ⟨empty⟩

/-- The value of a key. -/
def get? (d : Document) (key : String) : Option Value :=
  d.index[key]?.bind fun position => d.entries[position]?.map Prod.snd

/-- Replacing an entry by one with the same key leaves the keys alone. -/
private theorem keys_set_of_index {d : Document} {key : String} {position : Nat}
    (h : d.index[key]? = some position) (value : Value) :
    (d.entries.set position (key, value)).map Prod.fst = d.entries.map Prod.fst := by
  rw [getElem?_index] at h
  split at h
  · rename_i hmem
    obtain rfl := Option.some.inj h
    have hlt : d.keys.idxOf key < d.keys.length := List.idxOf_lt_length_of_mem hmem
    have hget : d.keys[d.keys.idxOf key] = key := List.getElem_idxOf hlt
    rw [List.map_set]
    calc d.keys.set (d.keys.idxOf key) key
        = d.keys.set (d.keys.idxOf key) d.keys[d.keys.idxOf key] := by rw [hget]
      _ = d.keys := List.set_getElem_self hlt
  · contradiction

private theorem nodup_concat_of_index {d : Document} {key : String}
    (h : d.index[key]? = none) (value : Value) :
    ((d.entries ++ [(key, value)]).map Prod.fst).Nodup := by
  rw [getElem?_index] at h
  split at h
  · contradiction
  · rename_i hmem
    rw [List.map_append, List.nodup_append]
    refine ⟨d.nodup_keys, by simp, ?_⟩
    intro k hk k' hk' heq
    simp only [List.map_cons, List.map_nil, List.mem_singleton] at hk'
    exact hmem (by rw [← hk', ← heq]; exact hk)

/-- Gives a key a value. A present key keeps its position and hands back the
    value that is replaced; a new key comes last. -/
def insert (d : Document) (key : String) (value : Value) : Option Value × Document :=
  match h : d.index[key]? with
  | some position =>
    (d.entries[position]?.map Prod.snd,
      { entries := d.entries.set position (key, value)
        index := d.index
        nodup_keys := by rw [keys_set_of_index h]; exact d.nodup_keys
        index_eq := by rw [keys_set_of_index h]; exact d.index_eq })
  | none =>
    (none,
      { entries := d.entries ++ [(key, value)]
        index := d.index.insert key d.entries.length
        nodup_keys := nodup_concat_of_index h value
        index_eq := by
          rw [List.map_append, d.index_eq]
          simp [indexOf, indexFrom_concat] })

/-- The document that results when entries are inserted in order. -/
def ofEntries (entries : List (String × Value)) : Document :=
  entries.foldl (fun d (key, value) => (d.insert key value).2) empty

def size (d : Document) : Nat := d.entries.length

def isEmpty (d : Document) : Bool := d.entries.isEmpty

/-- The document as a value. -/
def toValue (d : Document) : Value := .document d.entries

/-- Equality of documents, with numbers compared as numbers. -/
def equal (d e : Document) : Bool := Value.equalEntries d.entries e.entries

/-- The text of a document. -/
def display (d : Document) : String := d.toValue.display

end Document
end FindSelect
