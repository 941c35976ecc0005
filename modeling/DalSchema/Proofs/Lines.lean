import DalSchema.Proofs.Counting

/-!
# Lines and positions

The line that an offset is on is what stands between the line feeds around it. Its part before the
offset is as long as the column says: `Text.getElem?_lines`. On one line columns differ as offsets
do: `Text.column_sub_column`.
-/

namespace DalSchema.Text

theorem partsAt_eq_cons (separator : Char) (cs : List Char) :
    ∃ others, partsAt separator cs = cs.takeWhile (· != separator) :: others := by
  induction cs with
  | nil => exact ⟨[], rfl⟩
  | cons c rest ih =>
    obtain ⟨others, hrest⟩ := ih
    by_cases h : c = separator
    · exact ⟨partsAt separator rest, by simp [partsAt, h]⟩
    · exact ⟨others, by simp [partsAt, h, hrest]⟩

theorem lastLine_of_notMem {cs : List Char} (h : '\n' ∉ cs) : lastLine cs = cs :=
  (lastLine_append_of_notMem h : lastLine ([] ++ cs) = lastLine [] ++ cs)

theorem lastLine_lineFeed_cons (cs : List Char) : lastLine ('\n' :: cs) = lastLine cs := by
  rw [← List.singleton_append]
  by_cases h : '\n' ∈ cs
  · exact lastLine_append_of_mem h
  · rw [lastLine_append_of_notMem h, lastLine_of_notMem h]
    rfl

theorem getElem?_lines (before after : List Char) :
    (lines (before ++ after))[before.count '\n']? =
      some (lastLine before ++ after.takeWhile (· != '\n')) := by
  induction before with
  | nil =>
    obtain ⟨others, hparts⟩ := partsAt_eq_cons '\n' after
    simp [lines, hparts, lastLine]
  | cons c before ih =>
    rw [lines] at ih ⊢
    by_cases hc : c = '\n'
    · subst hc
      rw [lastLine_lineFeed_cons, List.count_cons_self]
      simpa [partsAt] using ih
    · obtain ⟨others, hparts⟩ := partsAt_eq_cons '\n' (before ++ after)
      rw [hparts] at ih
      rw [List.count_cons_of_ne hc]
      simp only [List.cons_append, partsAt, hparts, beq_eq_false_iff_ne.mpr hc]
      by_cases hmem : '\n' ∈ before
      · -- The first line ends before the offset.
        obtain ⟨n, hn⟩ :=
          Nat.exists_eq_succ_of_ne_zero (mt List.count_eq_zero.mp (not_not.mpr hmem))
        rw [hn] at ih ⊢
        rw [show c :: before = [c] ++ before from rfl, lastLine_append_of_mem hmem]
        exact ih
      · have hcons : '\n' ∉ c :: before := by simp [hmem, Ne.symm hc]
        rw [List.count_eq_zero.mpr hmem] at ih ⊢
        rw [lastLine_of_notMem hmem] at ih
        rw [lastLine_of_notMem hcons]
        simpa using ih

theorem line_positionAfter_append (before text : List Char) :
    (positionAfter (before ++ text)).line = (positionAfter before).line + text.count '\n' := by
  simp only [positionAfter, List.count_append]
  omega

theorem column_positionAfter_append {before text : List Char} (h : '\n' ∉ text) :
    (positionAfter (before ++ text)).column = (positionAfter before).column + text.length := by
  rw [column_positionAfter, column_positionAfter, lastLine_append_of_notMem h, List.length_append]
  omega

theorem positionAt_eq {source : List Char} {k : Nat} (h : k ≤ source.length) :
    positionAt source k = positionAfter (source.take k) := by
  rw [positionAt, clampOffset, Int.toNat_natCast, Nat.min_eq_left h]

theorem column_eq_of_line_eq {source : List Char} {k e : Nat} (hke : k ≤ e)
    (he : e ≤ source.length)
    (h : (positionAfter (source.take e)).line = (positionAfter (source.take k)).line) :
    (positionAfter (source.take e)).column = (positionAfter (source.take k)).column + (e - k) := by
  have hsplit : source.take e = source.take k ++ (source.drop k).take (e - k) := by
    rw [← List.take_add, Nat.add_sub_cancel' hke]
  rw [hsplit, line_positionAfter_append] at h
  have hmem : '\n' ∉ (source.drop k).take (e - k) := List.count_eq_zero.mp (by omega)
  rw [hsplit, column_positionAfter_append hmem, List.length_take, List.length_drop]
  omega

theorem column_sub_column {source : List Char} {k e : Nat} (hk : k ≤ source.length)
    (he : e ≤ source.length)
    (h : (positionAfter (source.take e)).line = (positionAfter (source.take k)).line) :
    (positionAfter (source.take e)).column - (positionAfter (source.take k)).column = e - k := by
  rcases Nat.le_total k e with hke | hek
  · rw [column_eq_of_line_eq hke he h]
    omega
  · rw [column_eq_of_line_eq hek hk h.symm]
    omega

theorem trimReturns_append_cons {c : Char} (hc : c ≠ '\r') (front back : List Char) :
    trimReturns (front ++ c :: back) = front ++ c :: trimReturns back := by
  have hdrop (ds : List Char) : (ds ++ c :: front.reverse).dropWhile (· == '\r') =
      ds.dropWhile (· == '\r') ++ c :: front.reverse := by
    induction ds with
    | nil => simp [hc]
    | cons d ds ih =>
      rw [List.cons_append, List.dropWhile_cons, List.dropWhile_cons]
      split
      · exact ih
      · rfl
  have hreverse : (front ++ c :: back).reverse = back.reverse ++ c :: front.reverse := by simp
  rw [trimReturns, hreverse, hdrop, trimReturns]
  simp

theorem lineText_positionAfter (before after : List Char) :
    lineText (before ++ after) (positionAfter before).line =
      trimReturns (lastLine before ++ after.takeWhile (· != '\n')) := by
  simp [lineText, positionAfter, getElem?_lines]

end DalSchema.Text
