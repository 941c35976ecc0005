import DalSchema.Diagnostic.Snippet
import DalSchema.Proofs.Lines

/-!
# Labels in their lines

A snippet shows the line of a label and underlines the label below it. The two lines have the same
gutter, and what stands before the label in the line is as long as the blanks before the underline;
so the underline begins below the first character of the label: `Diagnostic.render_underlines`.
-/

namespace DalSchema

open Text

/-- What is displayed of a line from an offset on. -/
def Text.displayedFrom (source : List Char) (k : Nat) : List Char :=
  trimReturns ((source.drop k).takeWhile (· != '\n'))

/-! ## Lines with markers -/

/-- The first marker of a line is at `i`, with `count` markers in a row; before it are a bar and
blanks. -/
structure MarkedAt (text : List Char) (marker : Char) (i count : Nat) : Prop where
  first : text[i]? = some marker ∧ ∀ k < i, text[k]? ≠ some marker
  blank : ∃ bar < i, text[bar]? = some '|' ∧ ∀ k < i, k ≠ bar → text[k]? = some ' '
  run : (text.drop i).takeWhile (· == marker) = List.replicate count marker

theorem markedAt_of_eq {text rest : List Char} {marker : Char} {m n count : Nat}
    (htext : text = List.replicate m ' ' ++ '|' :: (List.replicate n ' ' ++
      (List.replicate count marker ++ rest)))
    (hmarker : marker ≠ ' ' ∧ marker ≠ '|') (hcount : 0 < count)
    (hrest : rest.head? ≠ some marker) :
    MarkedAt text marker (m + 1 + n) count := by
  have hbefore : ∀ k < m + 1 + n, text[k]? = some (if k = m then '|' else ' ') := by
    intro k hk
    subst htext
    grind
  have hdrop : text.drop (m + 1 + n) = List.replicate count marker ++ rest := by
    have hlength : (List.replicate m ' ' ++ '|' :: List.replicate n ' ').length = m + 1 + n := by
      simp only [List.length_append, List.length_cons, List.length_replicate]
      omega
    rw [htext, ← List.cons_append, ← List.append_assoc, ← hlength, List.drop_left]
  refine ⟨⟨?_, ?_⟩, ⟨m, by omega, ?_, ?_⟩, ?_⟩
  · rw [← List.head?_drop, hdrop]
    simp [List.head?_replicate, Nat.ne_of_gt hcount]
  · intro k hk
    rw [hbefore k hk]
    split
    · exact fun heq => hmarker.2 (Option.some.inj heq).symm
    · exact fun heq => hmarker.1 (Option.some.inj heq).symm
  · rw [hbefore m (by omega), if_pos rfl]
  · intro k hk hne
    rw [hbefore k hk, if_neg hne]
  · have hmarks : ∀ c ∈ List.replicate count marker, (c == marker) = true := by simp
    have hstop : rest.takeWhile (· == marker) = [] := by
      cases rest with
      | nil => rfl
      | cons d rest => simpa using hrest
    rw [hdrop, List.takeWhile_append_of_pos hmarks, hstop, List.append_nil]

theorem LabelStyle.marker_ne (style : LabelStyle) : style.marker ≠ ' ' ∧ style.marker ≠ '|' := by
  cases style <;> decide

/-! ## Gutters -/

theorem length_padNumber {width n : Nat} (h : (toString n).length ≤ width) :
    (padNumber width n).toList.length = width := by
  simp only [padNumber, String.length_toList, String.length_append, String.length_ofList,
    List.length_replicate]
  omega

theorem le_foldl_max {α : Type} (f : α → Nat) (xs : List α) (w : Nat) :
    w ≤ xs.foldl (fun w x => max w (f x)) w ∧
      ∀ x ∈ xs, f x ≤ xs.foldl (fun w x => max w (f x)) w := by
  induction xs generalizing w with
  | nil => exact ⟨le_rfl, by simp⟩
  | cons x xs ih =>
    obtain ⟨hw, hxs⟩ := ih (max w (f x))
    rw [List.foldl_cons]
    exact ⟨(Nat.le_max_left w (f x)).trans hw,
      List.forall_mem_cons.mpr ⟨(Nat.le_max_right w (f x)).trans hw, hxs⟩⟩

theorem Diagnostic.length_le_gutter {d : Diagnostic} {l : Label} (hl : l ∈ d.labels)
    (source : List Char) :
    (toString (positionAt source l.span.start).line).length ≤ d.gutter source := by
  rw [gutter]
  split
  · next hnil =>
    rw [hnil] at hl
    cases hl
  · exact (le_foldl_max (fun l : Label =>
      (toString (positionAt source l.span.start).line).length) d.labels 0).2 l hl

/-! ## The line of a label -/

section

variable {source before rest : List Char} {c : Char} (hsource : source = before ++ c :: rest)

include hsource

theorem Text.displayedFrom_eq (hline : c ≠ '\n') (hreturn : c ≠ '\r') :
    displayedFrom source before.length = c :: trimReturns (rest.takeWhile (· != '\n')) := by
  have htake : (c :: rest).takeWhile (· != '\n') = c :: rest.takeWhile (· != '\n') := by
    simp [hline]
  rw [displayedFrom, hsource, List.drop_left, htake]
  exact trimReturns_append_cons hreturn [] _

theorem Text.lineText_eq (hline : c ≠ '\n') (hreturn : c ≠ '\r') :
    lineText source (positionAfter before).line =
      lastLine before ++ displayedFrom source before.length := by
  have htake : (c :: rest).takeWhile (· != '\n') = c :: rest.takeWhile (· != '\n') := by
    simp [hline]
  rw [displayedFrom_eq hsource hline hreturn, hsource, lineText_positionAfter, htake,
    trimReturns_append_cons hreturn]

namespace Label

variable {l : Label} (hstart : l.span.start = before.length)

include hstart

theorem positionAt_start : positionAt source l.span.start = positionAfter before := by
  have hle : before.length ≤ source.length := by simp [hsource]
  rw [hstart, positionAt_eq hle, hsource, List.take_left]

theorem width_eq (hline : c ≠ '\n') (hreturn : c ≠ '\r') :
    l.width source =
      if (positionAt source l.span.stop).line = (positionAt source l.span.start).line then
        max 1 (clampOffset source l.span.stop - before.length)
      else (displayedFrom source before.length).length := by
  have hk : before.length ≤ source.length := by simp [hsource]
  have htake : source.take before.length = before := by rw [hsource, List.take_left]
  simp only [width, positionAt_start hsource hstart]
  split
  · next hsame =>
    -- On one line a difference of columns is one of offsets.
    rw [positionAt, ← htake] at hsame
    have hstop : clampOffset source l.span.stop ≤ source.length := Nat.min_le_right _ _
    have hcolumns := column_sub_column hk hstop hsame
    rw [htake] at hcolumns
    rw [positionAt, hcolumns]
  · rw [lineText_eq hsource hline hreturn, column_positionAfter,
      displayedFrom_eq hsource hline hreturn]
    simp only [List.length_append, List.length_cons]
    omega

theorem toList_underlined (gutter : Nat) :
    (spaces gutter ++ " | " ++ String.ofList (l.underline source)).toList =
      List.replicate (gutter + 1) ' ' ++ '|' :: (List.replicate (positionAfter before).column ' ' ++
        (List.replicate (l.width source) l.style.marker ++
          if l.note.isEmpty then [] else ' ' :: l.note.toList)) := by
  have hcolumn : List.replicate (positionAfter before).column ' ' =
      ' ' :: List.replicate ((positionAfter before).column - 1) ' ' := rfl
  rw [hcolumn, List.replicate_succ']
  simp [spaces, underline, positionAt_start hsource hstart]

theorem getElem?_shown (hline : c ≠ '\n') (hreturn : c ≠ '\r') {gutter : Nat}
    (hgutter : (toString (positionAt source l.span.start).line).length ≤ gutter) :
    (padNumber gutter (positionAt source l.span.start).line ++ " | " ++
        String.ofList (lineText source (positionAt source l.span.start).line)).toList[
      gutter + 1 + 1 + (positionAfter before).column]? = some c := by
  have hpad := length_padNumber hgutter
  rw [positionAt_start hsource hstart] at hpad ⊢
  -- The gutter, the bar and what stands before the label are as long as the index.
  have hlength : gutter + 1 + 1 + (positionAfter before).column =
      ((padNumber gutter (positionAfter before).line).toList ++ " | ".toList ++
        lastLine before).length := by
    have hbar : " | ".toList.length = 3 := rfl
    simp only [List.length_append, hpad, hbar, column_positionAfter]
    omega
  simp only [String.toList_append, String.toList_ofList, lineText_eq hsource hline hreturn,
    displayedFrom_eq hsource hline hreturn]
  rw [← List.append_assoc, hlength, List.getElem?_append_right le_rfl, Nat.sub_self]
  rfl

theorem markedAt_underlined (hline : c ≠ '\n') (hreturn : c ≠ '\r') (gutter : Nat) :
    MarkedAt (spaces gutter ++ " | " ++ String.ofList (l.underline source)).toList l.style.marker
      (gutter + 1 + 1 + (positionAfter before).column)
      (if (positionAt source l.span.stop).line = (positionAt source l.span.start).line then
        max 1 (clampOffset source l.span.stop - before.length)
      else (displayedFrom source before.length).length) := by
  rw [← width_eq hsource hstart hline hreturn]
  refine markedAt_of_eq (toList_underlined hsource hstart gutter) l.style.marker_ne ?_ ?_
  · exact Nat.lt_of_lt_of_le Nat.zero_lt_one (Nat.le_max_left 1 _)
  · split
    · simp
    · intro heq
      exact l.style.marker_ne.1 (Option.some.inj heq).symm

end Label

end

/-! ## Whole diagnostics -/

namespace Diagnostic

/-- The first primary label, or the first of all if none is primary. -/
def IsMain (d : Diagnostic) (m : Label) : Prop :=
  ∃ before after, d.labels = before ++ m :: after ∧
    (m.style = .primary ∧ (∀ x ∈ before, x.style ≠ .primary) ∨
      before = [] ∧ ∀ x ∈ d.labels, x.style ≠ .primary)

theorem exists_mainLabel {d : Diagnostic} (h : d.labels ≠ []) :
    ∃ m, d.mainLabel? = some m ∧ d.IsMain m := by
  rw [mainLabel?]
  cases hfind : d.labels.find? fun l => l.style == .primary with
  | some m =>
    obtain ⟨hm, before, after, hlabels, hbefore⟩ := List.find?_eq_some_iff_append.mp hfind
    refine ⟨m, rfl, before, after, hlabels, .inl ⟨beq_iff_eq.mp hm, ?_⟩⟩
    intro x hx
    simpa using hbefore x hx
  | none =>
    obtain ⟨m, rest, hlabels⟩ := List.exists_cons_of_ne_nil h
    refine ⟨m, by rw [hlabels]; rfl, [], rest, hlabels, .inr ⟨rfl, ?_⟩⟩
    intro x hx
    simpa using List.find?_eq_none.mp hfind x hx

/-- The place of the main label is told. In the snippet of a label whose first character is
displayed, the underline begins below this character; it has a marker for each character up to the
end of the label, or else for each that is displayed up to the end of the line. -/
theorem render_underlines (d : Diagnostic) (source : List Char) (fileName : String)
    {earlier later : List Label} {l : Label} (hlabels : d.labels = earlier ++ l :: later)
    {start : Nat} (hstart : l.span.start = start) {c : Char} (hc : source[start]? = some c)
    (hline : c ≠ '\n') (hreturn : c ≠ '\r') :
    ∃ (m : Label) (opening shown underlined : String) (i : Nat),
      d.IsMain m ∧ l.snippet source (d.gutter source) = [opening, shown, underlined] ∧
      d.render source fileName = "\n".intercalate
        ([d.severity.word ++ ": " ++ d.message,
          spaces (d.gutter source) ++ "--> " ++ fileName ++ ":" ++
            toString (positionAt source m.span.start).line ++ ":" ++
            toString (positionAt source m.span.start).column] ++
        earlier.flatMap (fun l => l.snippet source (d.gutter source)) ++
        [opening, shown, underlined] ++
        later.flatMap (fun l => l.snippet source (d.gutter source)) ++
        d.notes.map fun note => spaces (d.gutter source) ++ " = note: " ++ note) ∧
      shown.toList[i]? = some c ∧
      MarkedAt underlined.toList l.style.marker i
        (if (positionAt source l.span.stop).line = (positionAt source l.span.start).line then
          max 1 (clampOffset source l.span.stop - start)
        else (displayedFrom source start).length) := by
  obtain ⟨hlt, hget⟩ := List.getElem?_eq_some_iff.mp hc
  have hsource : source = source.take start ++ c :: source.drop (start + 1) := by
    rw [← hget, ← List.drop_eq_getElem_cons hlt, List.take_append_drop]
  have hlength : (source.take start).length = start := List.length_take_of_le hlt.le
  have hbefore : l.span.start = (source.take start).length := by rw [hstart, hlength]
  have hl : l ∈ d.labels := by simp [hlabels]
  obtain ⟨m, hm, hmain⟩ := exists_mainLabel (List.ne_nil_of_mem hl)
  have hmarked := Label.markedAt_underlined hsource hbefore hline hreturn (d.gutter source)
  rw [hlength] at hmarked
  refine ⟨m, _, _, _, _, hmain, rfl, ?_, ?_, hmarked⟩
  · rw [render, pointer, hm, hlabels, List.flatMap_append, List.flatMap_cons]
    simp only [Label.snippet, List.cons_append, List.nil_append, List.append_assoc]
  · exact Label.getElem?_shown hsource hbefore hline hreturn (length_le_gutter hl source)

/-- The first label goes on to the next line and the tenth line ends with a carriage return; the
main label is the second one. -/
theorem render_underlines_tenth_line :
    let source := List.replicate 9 '\n' ++ "ab\r\nc".toList
    let l : Label := ⟨0, ⟨9, 14⟩, "here", .secondary⟩
    let main : Label := ⟨0, ⟨0, 0⟩, "", .primary⟩
    let d : Diagnostic := ⟨.error, "", [l, main], []⟩
    d.IsMain main ∧ ∃ (opening shown underlined : String) (i : Nat),
      l.snippet source 2 = [opening, shown, underlined] ∧
      d.render source "x" = "\n".intercalate
        (["error: ", "  --> x:1:1"] ++ [opening, shown, underlined] ++ main.snippet source 2) ∧
      shown.toList[i]? = some 'a' ∧ MarkedAt underlined.toList '-' i 2 := by
  intro source l main d
  have hmain : d.IsMain main := ⟨[l], [], rfl, .inl ⟨rfl, by simp [l]⟩⟩
  have hlabels : d.labels = [] ++ l :: [main] := rfl
  have hstart : l.span.start = (9 : Nat) := rfl
  have hc : source[9]? = some 'a' := rfl
  obtain ⟨m, opening, shown, underlined, i, hm, hsnippet, hrender, hshown, hmarked⟩ :=
    d.render_underlines source "x" hlabels hstart hc (by decide) (by decide)
  have heq : m = main := by
    obtain ⟨before, after, hlabels, ⟨hprimary, -⟩ | ⟨-, hnone⟩⟩ := hm
    · rcases before with _ | ⟨x, before⟩
      · cases hlabels
        cases hprimary
      · rcases before with _ | ⟨y, before⟩
        · cases hlabels
          rfl
        · cases before <;> cases hlabels
    · exact absurd rfl (hnone main (by simp [d]))
  subst heq
  have hgutter : d.gutter source = 2 := by decide +kernel
  have hheadline : d.severity.word ++ ": " ++ d.message = "error: " := by decide +kernel
  have harrow : spaces 2 ++ "--> " ++ "x" ++ ":" ++
      toString (positionAt source main.span.start).line ++ ":" ++
      toString (positionAt source main.span.start).column = "  --> x:1:1" := by decide +kernel
  have hnotes : d.notes = [] := rfl
  have hcount :
      (if (positionAt source l.span.stop).line = (positionAt source l.span.start).line then
        max 1 (clampOffset source l.span.stop - 9)
      else (displayedFrom source 9).length) = 2 := by
    decide +kernel
  rw [hgutter] at hsnippet hrender
  rw [hheadline, harrow, hnotes] at hrender
  rw [hcount] at hmarked
  refine ⟨hmain, opening, shown, underlined, i, hsnippet, ?_, hshown, hmarked⟩
  simpa using hrender

end Diagnostic

end DalSchema
