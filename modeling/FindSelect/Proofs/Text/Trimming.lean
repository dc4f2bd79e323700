import FindSelect.Proofs.Text.Nesting

namespace FindSelect.Text

variable {text before after : List Char}

/-- White space at the end makes no difference to what is left of a text there. -/
theorem trimEnd_append_blank (hafter : ∀ c ∈ after, isBlank c = true) (text : List Char) :
    trimEnd (text ++ after) = trimEnd text := by
  have hreverse : ∀ c ∈ after.reverse, isBlank c = true := by
    intro c hc
    exact hafter c (List.mem_reverse.1 hc)
  rw [trimEnd, List.reverse_append, List.dropWhile_append_of_pos hreverse, trimEnd]

/-- White space in front makes no difference to what trimming leaves. -/
theorem trim_blank_append (hbefore : ∀ c ∈ before, isBlank c = true) (text : List Char) :
    trim (before ++ text) = trim text := by
  rw [trim, trimStart, List.dropWhile_append_of_pos hbefore, trim, trimStart]

/-- White space at the end makes no difference to what trimming leaves. -/
theorem trim_append_blank (hafter : ∀ c ∈ after, isBlank c = true) (text : List Char) :
    trim (text ++ after) = trim text := by
  rw [trim, trimStart, List.dropWhile_append]
  split
  · rename_i hempty
    rw [trim, trimStart, List.isEmpty_iff.1 hempty, List.dropWhile_eq_nil_iff.2 hafter]
  · rw [trimEnd_append_blank hafter, trim, trimStart]

/-- White space around a text makes no difference to what trimming leaves of it. -/
theorem trim_padded (hbefore : ∀ c ∈ before, isBlank c = true)
    (hafter : ∀ c ∈ after, isBlank c = true) (text : List Char) :
    trim (before ++ text ++ after) = trim text := by
  rw [trim_append_blank hafter, trim_blank_append hbefore]

/-- A text that has been trimmed is left as it is. -/
theorem trim_trim (text : List Char) : trim (trim text) = trim text := by
  obtain ⟨before, after, htext, hbefore, hafter⟩ := exists_of_trim text
  have hpadded := trim_padded hbefore hafter (trim text)
  rw [← htext] at hpadded
  exact hpadded.symm

theorem trim_trimEnd (text : List Char) : trim (trimEnd text) = trim text := by
  have hafter : ∀ c ∈ (text.reverse.takeWhile isBlank).reverse, isBlank c = true := by
    intro c hc
    exact List.mem_takeWhile_imp (List.mem_reverse.1 hc)
  have htext : trimEnd text ++ (text.reverse.takeWhile isBlank).reverse = text := by
    rw [trimEnd, ← List.reverse_append, List.takeWhile_append_dropWhile, List.reverse_reverse]
  have hpadded := trim_append_blank hafter (trimEnd text)
  rw [htext] at hpadded
  exact hpadded.symm

/-- Nothing is trimmed off at the end up to a character that is not blank. -/
theorem trimEnd_concat_append {last : Char} (hlast : isBlank last = false)
    (text after : List Char) :
    trimEnd (text ++ [last] ++ after) = text ++ [last] ++ trimEnd after := by
  have hstops : StopsBefore isBlank (text ++ [last]).reverse := by
    rw [List.reverse_append]
    exact stopsBefore_cons hlast _
  rw [trimEnd, List.reverse_append, dropWhile_append_stop hstops, List.reverse_append,
    List.reverse_reverse, trimEnd]

/-- Nothing is trimmed off up to a last character that is not blank, if the first is not
    either. -/
theorem trim_ends_append {first last : Char} (hfirst : isBlank first = false)
    (hlast : isBlank last = false) (text after : List Char) :
    trim (first :: text ++ [last] ++ after) = first :: text ++ [last] ++ trimEnd after := by
  have hstart : trimStart (first :: text ++ [last] ++ after) = first :: text ++ [last] ++ after :=
    List.dropWhile_cons_of_neg (by simp [hfirst])
  rw [trim, hstart, trimEnd_concat_append hlast]

/-- What trimming leaves stands in the text. -/
theorem trim_isInfix (text : List Char) : trim text <:+: text := by
  obtain ⟨before, after, htext, -⟩ := exists_of_trim text
  exact ⟨before, after, htext.symm⟩

theorem trimEnd_isPrefix (text : List Char) : trimEnd text <+: text := by
  have hsuffix := List.dropWhile_suffix (l := text.reverse) isBlank
  rw [← List.reverse_prefix, List.reverse_reverse] at hsuffix
  exact hsuffix

/-- What stood between brackets stands in the text. -/
theorem infix_of_unwrap? {opening closing : Char} {inner : List Char}
    (h : unwrap? opening closing text = some inner) : inner <:+: text := by
  rw [eq_of_unwrap? h]
  exact ⟨[opening], [closing], rfl⟩

/-- What is left without its last character is the text again with it. -/
theorem eq_of_dropLast? {closing : Char} {front : List Char}
    (h : dropLast? closing text = some front) : text = front ++ [closing] := by
  unfold dropLast? at h
  split at h
  · rename_i hlast
    obtain ⟨start, rfl⟩ := List.getLast?_eq_some_iff.1 hlast
    rw [List.dropLast_concat] at h
    rw [Option.some.inj h]
  · contradiction

theorem dropLast?_concat (closing : Char) (text : List Char) :
    dropLast? closing (text ++ [closing]) = some text := by
  rw [dropLast?, if_pos List.getLast?_concat, List.dropLast_concat]

/-- What is split at the first mark is put together again with it. -/
theorem eq_of_splitAt? {mark : Char} {front back : List Char}
    (h : splitAt? mark text = some (front, back)) : text = front ++ mark :: back := by
  unfold splitAt? at h
  have hparts := @List.takeWhile_append_dropWhile _ (· != mark) text
  have hfirst := List.head?_dropWhile_not (· != mark) text
  split at h
  · contradiction
  · rename_i first rest hdrop
    rw [hdrop] at hparts hfirst
    obtain rfl : first = mark := by simpa using hfirst
    obtain ⟨rfl, rfl⟩ := Prod.mk.inj (Option.some.inj h)
    exact hparts.symm

/-- A text is split at the first mark in it. -/
theorem splitAt?_append {mark : Char} {front : List Char} (h : mark ∉ front) (back : List Char) :
    splitAt? mark (front ++ mark :: back) = some (front, back) := by
  have hrun := bne_of_not_mem h
  have hstop := stopsBefore_mark mark back
  rw [splitAt?, dropWhile_append_of_stops hrun hstop, takeWhile_append_of_stops hrun hstop]

end FindSelect.Text
