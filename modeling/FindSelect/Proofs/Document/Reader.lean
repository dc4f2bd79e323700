import FindSelect.Document.Reader
import FindSelect.Proofs.Outcome
import FindSelect.Proofs.Text.Trimming

namespace FindSelect

open Text

namespace Cut

variable {α β ε : Type}

/-- Pieces that are read one by one are read in a row. -/
theorem readAll_of_forall₂ {pieces : List α} {ofFault : CutFault → ε} {f : α → Except ε β}
    {results : List β}
    (h : List.Forall₂ (fun piece result => f piece = .ok result) pieces results) :
    readAll ⟨pieces, none⟩ ofFault f = .ok results := by
  rw [readAll, mapM_eq_ok.2 h]
  rfl

/-- Reading succeeds only if the whole text was cut, and each piece was read. -/
theorem readAll_eq_ok {cut : Cut α} {ofFault : CutFault → ε} {f : α → Except ε β}
    {results : List β} (h : cut.readAll ofFault f = .ok results) :
    cut.fault = none ∧
      List.Forall₂ (fun piece result => f piece = .ok result) cut.pieces results := by
  obtain ⟨read, hread, h⟩ := bind_eq_ok.1 h
  cases hfault : cut.fault with
  | none =>
    rw [hfault] at h
    obtain rfl := Except.ok.inj h
    exact ⟨rfl, mapM_eq_ok.1 hread⟩
  | some fault =>
    rw [hfault] at h
    contradiction

/-- What is reported is the error of a piece, or the fault once every piece was read. -/
theorem readAll_eq_error {cut : Cut α} {ofFault : CutFault → ε} {f : α → Except ε β} {e : ε}
    (h : cut.readAll ofFault f = .error e) :
    (∃ piece ∈ cut.pieces, f piece = .error e) ∨
      (∃ fault, cut.fault = some fault ∧ e = ofFault fault) ∧
        ∀ piece ∈ cut.pieces, ∃ result, f piece = .ok result := by
  rcases bind_eq_error.1 h with h | ⟨results, hresults, h⟩
  · exact .inl (exists_of_mapM_eq_error h)
  · refine .inr ⟨?_, ?_⟩
    · cases hfault : cut.fault with
      | none =>
        rw [hfault] at h
        contradiction
      | some fault =>
        rw [hfault] at h
        exact ⟨fault, rfl, (Except.error.inj h).symm⟩
    · intro piece hpiece
      obtain ⟨result, -, hresult⟩ := exists_of_mem_left (mapM_eq_ok.1 hresults) hpiece
      exact ⟨result, hresult⟩

end Cut

/-- The text in the braces of a mapping is cut into entries, whose values are read. -/
theorem readMap_of_unwrap {kind : Mapping} {text inner : List Char}
    (h : unwrap? '{' '}' (trim text) = some inner) (read : Piece → Except SyntaxError Value) :
    readMap kind text (fun piece _ => read piece) =
      ((cutEntries kind (.start inner)).readAll (kind.ofFault (trim text)) fun entry => do
        return (entry.1, ← read entry.2)).map Document.ofEntries := by
  unfold readMap
  split
  · rename_i hnone
    rw [h] at hnone
    contradiction
  · rename_i other hother
    obtain rfl : inner = other := Option.some.inj (h.symm.trans hother)
    rw [Cut.read_eq_readAll]
    rfl

/-- A text that is not in braces is no mapping, as the error for its kind says. -/
theorem readMap_of_not_unwrap {kind : Mapping} {text : List Char}
    (h : unwrap? '{' '}' (trim text) = none) (read : Piece → Except SyntaxError Value) :
    readMap kind text (fun piece _ => read piece) = .error (kind.unclosed (trim text)) := by
  unfold readMap
  split
  · rfl
  · rename_i hother
    rw [h] at hother
    contradiction

theorem readValues_of_not_unwrap {text : List Char} (h : unwrap? '[' ']' (trim text) = none) :
    readValues text = .error (.unbalancedList (String.ofList (trim text))) := by
  rw [readValues, h]

/-- The text in the brackets of a list of primitives is cut into items. -/
theorem readValues_of_unwrap {text inner : List Char}
    (h : unwrap? '[' ']' (trim text) = some inner) :
    readValues text = (cutItems (.start inner)).readAll (itemsFault (trim text)) readItem := by
  rw [readValues, h]

/-- A text that is not in brackets is no list. -/
theorem readConditions_of_not_unwrap {text : List Char} (h : unwrap? '[' ']' (trim text) = none) :
    readConditions text = .error (.unbalancedList (String.ofList (trim text))) := by
  unfold readConditions readConditionsWith
  split
  · rfl
  · rename_i hother
    rw [h] at hother
    contradiction

/-- The text in the brackets of a list of documents is cut into the documents. -/
theorem readConditions_of_unwrap {text inner : List Char}
    (h : unwrap? '[' ']' (trim text) = some inner) :
    readConditions text =
      (cutConditions (.start inner)).readAll (conditionsFault (trim text)) readDocument := by
  unfold readConditions readConditionsWith
  split
  · rename_i hnone
    rw [h] at hnone
    contradiction
  · rename_i other hother
    obtain rfl : inner = other := Option.some.inj (h.symm.trans hother)
    rw [Cut.read_eq_readAll]

section Trimmed

variable (text : List Char)

/-- White space around a token makes no difference. -/
theorem readScalar_trim : readScalar (trim text) = readScalar text := by
  simp only [readScalar, trim_trim]

/-- White space around a mapping makes no difference, not even to its errors. -/
theorem readMap_trim (kind : Mapping) (read : Piece → Except SyntaxError Value) :
    readMap kind (trim text) (fun piece _ => read piece) =
      readMap kind text fun piece _ => read piece := by
  cases hunwrap : unwrap? '{' '}' (trim text) with
  | none =>
    have htrim : unwrap? '{' '}' (trim (trim text)) = none := by rw [trim_trim, hunwrap]
    rw [readMap_of_not_unwrap hunwrap, readMap_of_not_unwrap htrim, trim_trim]
  | some inner =>
    have htrim : unwrap? '{' '}' (trim (trim text)) = some inner := by rw [trim_trim, hunwrap]
    rw [readMap_of_unwrap hunwrap, readMap_of_unwrap htrim, trim_trim]

theorem readOperators_trim : readOperators (trim text) = readOperators text := by
  rw [readOperators, readMap_trim, readOperators]

/-- White space around a document makes no difference. -/
theorem readDocument_trim : readDocument (trim text) = readDocument text := by
  rw [readDocument_eq, readMap_trim, trim_trim, readDocument_eq]

theorem readValues_trim : readValues (trim text) = readValues text := by
  unfold readValues
  rw [trim_trim]

theorem readConditions_trim : readConditions (trim text) = readConditions text := by
  cases hunwrap : unwrap? '[' ']' (trim text) with
  | none =>
    have htrim : unwrap? '[' ']' (trim (trim text)) = none := by rw [trim_trim, hunwrap]
    rw [readConditions_of_not_unwrap hunwrap, readConditions_of_not_unwrap htrim, trim_trim]
  | some inner =>
    have htrim : unwrap? '[' ']' (trim (trim text)) = some inner := by rw [trim_trim, hunwrap]
    rw [readConditions_of_unwrap hunwrap, readConditions_of_unwrap htrim, trim_trim]

end Trimmed

end FindSelect
