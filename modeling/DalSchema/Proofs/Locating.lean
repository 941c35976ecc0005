import Mathlib.Algebra.Ring.Nat
import Mathlib.Data.Prod.Lex
import Mathlib.Data.Set.Function
import Mathlib.Order.Monotone.Defs
import DalSchema.Proofs.Lines

/-!
# Offsets and positions

The offsets of a text, its end included, and the positions on its lines are the same in number and
in order: each position belongs to one offset, which is the length of the lines before it, their
line feeds counted, and of the part of its own line before it. Offsets outside the text have the
position of its start or of its end. All this is `Text.positionAt_orderIso`.
-/

namespace DalSchema.Text

/-! ## Lines with their ends -/

/-- Lines, each with its line feed. -/
def endedLines (texts : List (List Char)) : List Char := texts.flatMap fun text => text ++ ['\n']

theorem endedLines_cons (text : List Char) (texts : List (List Char)) :
    endedLines (text :: texts) = text ++ '\n' :: endedLines texts := by
  simp [endedLines]

theorem length_endedLines (texts : List (List Char)) :
    (endedLines texts).length = (texts.map fun text => text.length + 1).sum := by
  simp [endedLines, List.length_flatMap]

theorem lastLine_endedLines (texts : List (List Char)) : lastLine (endedLines texts) = [] := by
  induction texts with
  | nil => rfl
  | cons text texts ih =>
    rw [endedLines_cons, lastLine_append_of_mem List.mem_cons_self, lastLine_lineFeed_cons, ih]

theorem count_endedLines {texts : List (List Char)} (h : ∀ text ∈ texts, '\n' ∉ text) :
    (endedLines texts).count '\n' = texts.length := by
  induction texts with
  | nil => rfl
  | cons text texts ih =>
    obtain ⟨htext, htexts⟩ := List.forall_mem_cons.mp h
    rw [endedLines_cons, List.count_append, List.count_eq_zero.mpr htext, List.count_cons_self,
      ih htexts, List.length_cons, Nat.zero_add]

theorem positionAfter_endedLines {texts : List (List Char)} {text : List Char}
    (htexts : ∀ text ∈ texts, '\n' ∉ text) (htext : '\n' ∉ text) :
    positionAfter (endedLines texts ++ text) = ⟨texts.length + 1, text.length + 1⟩ := by
  have hline : (positionAfter (endedLines texts ++ text)).line = texts.length + 1 := by
    rw [line_positionAfter_append, List.count_eq_zero.mpr htext, positionAfter,
      count_endedLines htexts]
  have hcolumn : (positionAfter (endedLines texts ++ text)).column = text.length + 1 := by
    rw [column_positionAfter_append htext, column_positionAfter, lastLine_endedLines]
    exact Nat.add_comm _ _
  rw [← hline, ← hcolumn]

theorem notMem_of_mem_partsAt {separator : Char} {cs text : List Char}
    (h : text ∈ partsAt separator cs) : separator ∉ text := by
  induction cs generalizing text with
  | nil => simp_all [partsAt]
  | cons c rest ih =>
    rw [partsAt] at h
    split at h
    · rcases List.mem_cons.mp h with rfl | h
      · exact List.not_mem_nil
      · exact ih h
    · next hc =>
      obtain ⟨others, hparts⟩ := partsAt_eq_cons separator rest
      rw [hparts] at h ih
      rcases List.mem_cons.mp h with rfl | h
      · rw [List.mem_cons, not_or]
        exact ⟨fun heq => hc (beq_iff_eq.mpr heq.symm), ih List.mem_cons_self⟩
      · exact ih (List.mem_cons_of_mem _ h)

/-- Before a line stand the lines above it with their ends. -/
theorem exists_eq_endedLines {source text : List Char} {k : Nat}
    (h : (lines source)[k]? = some text) :
    ∃ back, source = endedLines ((lines source).take k) ++ (text ++ back) := by
  induction source generalizing text k with
  | nil =>
    cases k with
    | zero =>
      cases h
      exact ⟨[], rfl⟩
    | succ k => cases h
  | cons c rest ih =>
    rw [lines, partsAt] at h ⊢
    split at h
    · next hc =>
      rw [if_pos hc, beq_iff_eq.mp hc]
      cases k with
      | zero =>
        cases h
        exact ⟨'\n' :: rest, rfl⟩
      | succ k =>
        obtain ⟨back, hback⟩ := ih h
        refine ⟨back, ?_⟩
        rw [List.take_succ_cons, endedLines_cons]
        exact congrArg ('\n' :: ·) hback
    · next hc =>
      obtain ⟨others, hparts⟩ := partsAt_eq_cons '\n' rest
      rw [if_neg hc]
      rw [lines, hparts] at ih
      rw [hparts] at h ⊢
      -- The first line goes on into the rest of the text.
      cases k with
      | zero =>
        cases h
        obtain ⟨back, hback⟩ := ih (k := 0) rfl
        exact ⟨back, congrArg (c :: ·) hback⟩
      | succ k =>
        obtain ⟨back, hback⟩ := ih (k := k + 1) h
        refine ⟨back, ?_⟩
        rw [List.take_succ_cons, endedLines_cons] at hback ⊢
        exact congrArg (c :: ·) hback

/-! ## Positions in a text -/

/-- The place of a position in the order of reading. -/
def Position.key (p : Position) : ℕ ×ₗ ℕ := toLex (p.line, p.column)

/-- Where a line begins: behind the lines above it, each with its line feed. -/
def lineStart (source : List Char) (line : Nat) : Nat :=
  (((lines source).take (line - 1)).map fun text => text.length + 1).sum

/-- On one of the lines of a text, before one of its characters or at its end. -/
structure Position.InText (source : List Char) (p : Position) : Prop where
  one_le_line : 1 ≤ p.line
  line_le : p.line ≤ (lines source).length
  one_le_column : 1 ≤ p.column
  column_le : ∀ text, (lines source)[p.line - 1]? = some text → p.column ≤ text.length + 1

variable {source : List Char}

theorem inText_positionAt {k : Nat} (h : k ≤ source.length) :
    (positionAt source k).InText source := by
  have hsource := List.take_append_drop k source
  have hline := getElem?_lines (source.take k) (source.drop k)
  rw [hsource] at hline
  rw [positionAt_eq h]
  refine ⟨Nat.le_add_left _ _, ?_, Nat.le_add_left _ _, fun text htext => ?_⟩
  · exact (List.getElem?_eq_some_iff.mp hline).1
  · cases hline.symm.trans htext
    rw [column_positionAfter, List.length_append]
    omega

/-- Behind the lines above and a part of its own line stands the position that counts them. -/
theorem positionAt_lineStart_add {text : List Char} {k j : Nat}
    (h : (lines source)[k]? = some text) (hj : j ≤ text.length) :
    lineStart source (k + 1) + j ≤ source.length ∧
      positionAt source ↑(lineStart source (k + 1) + j) = ⟨k + 1, j + 1⟩ := by
  obtain ⟨back, hback⟩ := exists_eq_endedLines h
  have hlines : ∀ t ∈ (lines source).take k, '\n' ∉ t :=
    fun t ht => notMem_of_mem_partsAt (List.mem_of_mem_take ht)
  have htext : '\n' ∉ text.take j :=
    mt List.mem_of_mem_take (notMem_of_mem_partsAt (List.mem_of_getElem? h))
  have hposition := positionAfter_endedLines hlines htext
  have hlength : (endedLines ((lines source).take k) ++ text.take j).length =
      lineStart source (k + 1) + j := by
    rw [List.length_append, length_endedLines, List.length_take_of_le hj]
    rfl
  have hsplit : source =
      endedLines ((lines source).take k) ++ text.take j ++ (text.drop j ++ back) := by
    rw [List.append_assoc, ← List.append_assoc (text.take j), List.take_append_drop]
    exact hback
  have hk : k < (lines source).length := (List.getElem?_eq_some_iff.mp h).1
  rw [List.length_take_of_le hk.le, List.length_take_of_le hj] at hposition
  -- Only the length and the position of what stands before the offset matter from here on.
  generalize endedLines ((lines source).take k) ++ text.take j = before at *
  have htake : source.take before.length = before :=
    (congrArg (List.take before.length) hsplit).trans List.take_left
  have hle : before.length ≤ source.length := htake ▸ List.length_take_le' _ _
  rw [← hlength]
  exact ⟨hle, by rw [positionAt_eq hle, htake, hposition]⟩

/-- The offset of a position in a text. -/
def offsetOf (source : List Char) (p : Position) : Nat := lineStart source p.line + p.column - 1

theorem Position.InText.positionAt_offsetOf {p : Position} (h : p.InText source) :
    offsetOf source p ≤ source.length ∧ positionAt source (offsetOf source p) = p := by
  obtain ⟨line, column⟩ := p
  obtain ⟨hline, hlines, hcolumn, hwithin⟩ := h
  obtain ⟨k, rfl⟩ := Nat.exists_eq_add_of_le' hline
  obtain ⟨j, rfl⟩ := Nat.exists_eq_add_of_le' hcolumn
  obtain ⟨text, htext⟩ : ∃ text, (lines source)[k]? = some text :=
    ⟨_, List.getElem?_eq_getElem hlines⟩
  exact positionAt_lineStart_add htext (Nat.le_of_succ_le_succ (hwithin text htext))

theorem strictMonoOn_positionAt (source : List Char) :
    StrictMonoOn (fun k : Nat => (positionAt source k).key) (Set.Iic source.length) := by
  intro k hk e he hke
  have hsplit : source.take e = source.take k ++ (source.drop k).take (e - k) := by
    rw [← List.take_add, Nat.add_sub_cancel' hke.le]
  have hlength : ((source.drop k).take (e - k)).length = e - k := by
    rw [List.length_take, List.length_drop]
    exact Nat.min_eq_left (Nat.sub_le_sub_right he k)
  simp only [positionAt_eq (Set.mem_Iic.mp hk), positionAt_eq (Set.mem_Iic.mp he), hsplit,
    Position.key, Prod.Lex.toLex_lt_toLex]
  generalize (source.drop k).take (e - k) = text at hlength
  rw [line_positionAfter_append]
  -- Either a line feed stands between the two offsets or they are on one line.
  by_cases hmem : '\n' ∈ text
  · have hcount : 0 < text.count '\n' := List.count_pos_iff.mpr hmem
    exact .inl (by omega)
  · rw [List.count_eq_zero.mpr hmem, column_positionAfter_append hmem]
    exact .inr ⟨rfl, by omega⟩

theorem injOn_positionAt (source : List Char) :
    Set.InjOn (fun k : Nat => positionAt source k) (Set.Iic source.length) :=
  fun _ hk _ he h => (strictMonoOn_positionAt source).injOn hk he (congrArg Position.key h)

theorem bijOn_positionAt (source : List Char) :
    Set.BijOn (fun k : Nat => positionAt source k) (Set.Iic source.length)
      {p | p.InText source} :=
  ⟨fun _ hk => inText_positionAt hk, injOn_positionAt source,
    fun p hp => ⟨offsetOf source p, Position.InText.positionAt_offsetOf hp⟩⟩

theorem offsetOf_positionAt {k : Nat} (h : k ≤ source.length) :
    offsetOf source (positionAt source k) = k := by
  obtain ⟨hle, hposition⟩ := (inText_positionAt h).positionAt_offsetOf
  exact injOn_positionAt source hle h hposition

/-- Positions run through the lines of a text as offsets run through its characters, in the same
order and without gaps; an offset outside the text counts as its nearer end. -/
theorem positionAt_orderIso (source : List Char) :
    (∀ offset : Int,
      positionAt source offset = positionAt source (max 0 (min offset source.length))) ∧
    (∀ k : Nat, k ≤ source.length → ∀ p, positionAt source k = p →
      1 ≤ p.line ∧ p.line ≤ (lines source).length ∧
      (∃ text, (lines source)[p.line - 1]? = some text ∧
        1 ≤ p.column ∧ p.column ≤ text.length + 1) ∧
      k = (((lines source).take (p.line - 1)).map fun text => text.length + 1).sum +
        p.column - 1) ∧
    Set.BijOn (fun k : Nat => positionAt source k) (Set.Iic source.length)
      {p | p.InText source} ∧
    StrictMonoOn (fun k : Nat => (positionAt source k).key) (Set.Iic source.length) := by
  refine ⟨fun offset => ?_, ?_, bijOn_positionAt source, strictMonoOn_positionAt source⟩
  · have hclamp : clampOffset source (max 0 (min offset source.length)) =
        clampOffset source offset := by
      simp only [clampOffset]
      omega
    rw [positionAt, positionAt, hclamp]
  · rintro k hk p rfl
    obtain ⟨hline, hlines, hcolumn, hwithin⟩ := inText_positionAt hk
    have htext := List.getElem?_eq_getElem (Nat.sub_one_lt_of_le hline hlines)
    exact ⟨hline, hlines, ⟨_, htext, hcolumn, hwithin _ htext⟩, (offsetOf_positionAt hk).symm⟩

/-- Behind a line feed at the end of a text there is one more line, which is empty. -/
theorem positionAt_orderIso_trailing :
    let source := ['a', 'b', '\n']
    3 ≤ source.length ∧ positionAt source 3 = ⟨2, 1⟩ ∧ (lines source)[1]? = some [] ∧
      3 = (((lines source).take 1).map fun text => text.length + 1).sum + 1 - 1 := by
  intro source
  have hend : positionAt source 3 = ⟨2, 1⟩ := rfl
  obtain ⟨-, -, -, hoffset⟩ := (positionAt_orderIso source).2.1 3 le_rfl _ hend
  exact ⟨le_rfl, hend, rfl, hoffset⟩

end DalSchema.Text
