import DalSchema.Proofs.Building
import DalSchema.Proofs.Rejecting

/-!
# Where problems point

A text that cannot be read leaves one diagnostic with one label. The label covers, in the text, just
what the problem names: `parse_error_pointsTo`. The offsets come from the scanner where it rejects a
text and from the tree where an action is invalid; both are those of the characters.
-/

namespace DalSchema

def Span.Within (source : List Char) (s : Span) : Prop :=
  0 ≤ s.start ∧ s.start ≤ s.stop ∧ s.stop ≤ source.length

/-- The span covers what the problem names. A problem that is not about a text covers nothing. -/
def Problem.PointsTo (source : List Char) (s : Span) : Problem → Prop
  | .endOfStream => s = .point source.length
  | .unexpectedPair text found =>
    found = s ∧ s.start < s.stop ∧ text.toList = s.slice source
  | .invalidAction phrase => phrase.toList = s.slice source
  | .grammar _ _ _ found _ =>
    s.stop = s.start + 1 ∧ ∃ c, found = some (String.ofList [c]) ∧ s.slice source = [c]
  | _ => False

section

variable {source text : List Char} {start : Nat}

theorem Span.slice_of_isPrefix (h : text <+: source.drop start) :
    Span.slice source ⟨start, start + text.length⟩ = text := by
  have hlength : ((start : Int) + text.length).toNat - (start : Int).toNat = text.length := by omega
  rw [Span.slice, hlength, Int.toNat_natCast]
  exact (List.prefix_iff_eq_take.mp h).symm

theorem Span.within_of_isPrefix (h : text <+: source.drop start) (hstart : start ≤ source.length) :
    Span.Within source ⟨start, start + text.length⟩ := by
  have hlength := h.length_le
  rw [List.length_drop] at hlength
  refine ⟨?_, ?_, ?_⟩
  · exact Int.natCast_nonneg start
  · simp only
    omega
  · simp only
    omega

end

theorem Rejection.pointsTo {source : List Char} {r : Rejection} (h : lexemes source = .error r) :
    r.notice.span.Within source ∧ (r.problem source).PointsTo source r.notice.span := by
  obtain ⟨hle, hfits⟩ := fits_of_lexemes h
  cases r with
  | endOfInput offset expected =>
    have hend : offset = source.length := le_antisymm hle (List.drop_eq_nil_iff.mp hfits)
    subst hend
    exact ⟨⟨Int.natCast_nonneg _, le_rfl, le_rfl⟩, rfl⟩
  | token text start expected =>
    obtain ⟨hne, htext⟩ := hfits
    refine ⟨Span.within_of_isPrefix htext hle, rfl, ?_, ?_⟩
    · have hpos := List.length_pos_iff.mpr hne
      simp only [notice]
      omega
    · rw [String.toList_ofList]
      exact (Span.slice_of_isPrefix htext).symm
  | character found offset expected =>
    exact ⟨Span.within_of_isPrefix hfits hle, rfl, found, rfl, Span.slice_of_isPrefix hfits⟩

theorem isPrefix_of_lexemes {source : List Char} {ls : List Lexeme}
    (h : lexemes source = .ok ls) : ∀ l ∈ ls, l.text ≠ [] ∧ l.text <+: source.drop l.start := by
  obtain ⟨b, hreads, _⟩ := lexemes_eq_ok_iff.mp h
  intro l hl
  obtain ⟨c, tail, htext, _⟩ := Terminal.begins_of_mem (hreads.mem_language l hl)
  exact ⟨by simp [htext], hreads.text_isPrefix rfl l hl⟩

theorem Lexeme.actionFault_pointsTo {source : List Char} {ls : List Lexeme} {l : Lexeme}
    (h : lexemes source = .ok ls) (hl : l ∈ ls) :
    l.span.Within source ∧ l.actionFault.problem.PointsTo source l.span := by
  obtain ⟨hne, htext⟩ := isPrefix_of_lexemes h l hl
  have hspan : l.span = ⟨l.start, l.start + l.text.length⟩ := by
    rw [Lexeme.span, Lexeme.stop, Int.natCast_add]
  have hstart : l.start ≤ source.length := by
    by_contra hlt
    rw [List.drop_eq_nil_of_le (Nat.le_of_not_le hlt)] at htext
    exact hne (List.prefix_nil.mp htext)
  rw [hspan]
  refine ⟨Span.within_of_isPrefix htext hstart, ?_⟩
  exact (String.toList_ofList).trans (Span.slice_of_isPrefix htext).symm

/-- What stops reading is a rejection or the fault of an invalid action. -/
theorem Ledger.parse_eq_error {ledger after : Ledger} {source : List Char} {fault : Fault}
    (h : ledger.parse source = (.error fault, after)) :
    after = ledger.record fault.notice? ∧
      ((∃ r, lexemes source = .error r ∧ fault = .rejected r) ∨
        ∃ ls l, lexemes source = .ok ls ∧ l ∈ ls ∧ fault = .misshapen l.actionFault) := by
  cases hlexemes : lexemes source with
  | error r =>
    rw [ledger.parse_of_error hlexemes] at h
    cases h
    exact ⟨rfl, .inl ⟨r, rfl, rfl⟩⟩
  | ok ls =>
    obtain ⟨parts, rfl⟩ := lexemes_eq_written hlexemes
    rw [ledger.parse_written hlexemes] at h
    cases hfault : actionFault? (Written.lexemes parts) with
    | none =>
      rw [judged_of_none hfault] at h
      cases h
    | some found =>
      rw [judged_of_some hfault] at h
      cases h
      obtain ⟨before, l, rest, heq, _, _, rfl⟩ := actionFault?_eq_some hfault
      exact ⟨rfl, .inr ⟨_, l, rfl, by simp [heq], rfl⟩⟩

/-- A text that cannot be read leaves one diagnostic, whose label lies in the text and covers what
the problem names. -/
theorem parse_error_pointsTo {ledger after : Ledger} {source : List Char} {fault : Fault}
    (h : ledger.parse source = (.error fault, after)) :
    ∃ d label, after = { ledger with entries := ledger.entries ++ [d] } ∧ d.labels = [label] ∧
      label.span.Within source ∧ (fault.problem source).PointsTo source label.span := by
  obtain ⟨rfl, ⟨r, hlexemes, rfl⟩ | ⟨ls, l, hlexemes, hl, rfl⟩⟩ := Ledger.parse_eq_error h
  · exact ⟨_, _, rfl, rfl, Rejection.pointsTo hlexemes⟩
  · exact ⟨_, _, rfl, rfl, Lexeme.actionFault_pointsTo hlexemes hl⟩

/-- A text of two lines behind a comment that is not in ASCII. -/
theorem parse_error_pointsTo_two_lines :
    let source := "// é\n'a\nb' c".toList
    ∃ fault d label, ({} : Ledger).parse source = (.error fault, { entries := [d] }) ∧
      d.labels = [label] ∧ label.span = ⟨5, 10⟩ ∧ label.span.Within source ∧
      fault.problem source = .unexpectedPair "'a\nb'" ⟨5, 10⟩ ∧
      (fault.problem source).PointsTo source label.span := by
  intro source
  have hlexemes : lexemes source =
      .error (.token "'a\nb'".toList 5 [.ident, .comment, .rightBrace]) :=
    scan_of_scanWithin (n := 2) (by decide +kernel +zetaReduce)
  obtain ⟨fault, after, hparse, hproblem⟩ : ∃ fault after,
      ({} : Ledger).parse source = (.error fault, after) ∧
        fault.problem source = .unexpectedPair "'a\nb'" ⟨5, 10⟩ := by
    rw [Ledger.parse_of_error _ hlexemes]
    exact ⟨_, _, rfl, rfl⟩
  obtain ⟨d, label, rfl, hlabels, hwithin, hpoints⟩ := parse_error_pointsTo hparse
  have hspan : label.span = ⟨5, 10⟩ := by
    rw [hproblem] at hpoints
    exact hpoints.1.symm
  exact ⟨fault, d, label, hparse, hlabels, hspan, hwithin, hproblem, hpoints⟩

end DalSchema
