import DalSchema.Proofs.Pointing

/-!
# Lines counted while reading

The tally of a reader and a new count of the characters before it agree, since no line feed stands
in a text where none is looked for: `Tally.counts_whenStopped`. A character is rejected as such just
where it is white space that is no blank, and then the position told is that of the character:
`parseTree_character_iff`.
-/

namespace DalSchema

open Lexeme Pattern
open scoped Computability

/-- The end of a text behind its last line feed; all of it if there is none. -/
def Text.lastLine (cs : List Char) : List Char := (cs.reverse.takeWhile (· != '\n')).reverse

namespace Text

theorem lastLine_append_of_notMem {cs text : List Char} (h : '\n' ∉ text) :
    lastLine (cs ++ text) = lastLine cs ++ text := by
  have hall : ∀ c ∈ text.reverse, (c != '\n') = true := by
    intro c hc
    have hne : c ≠ '\n' := fun heq => h (heq ▸ List.mem_reverse.mp hc)
    simpa using hne
  rw [lastLine, List.reverse_append, List.takeWhile_append_of_pos hall]
  simp [lastLine]

theorem lastLine_append_of_mem {cs text : List Char} (h : '\n' ∈ text) :
    lastLine (cs ++ text) = lastLine text := by
  have hstop : (text.reverse.takeWhile (· != '\n')).length ≠ text.reverse.length := by
    intro heq
    have hself : text.reverse.takeWhile (· != '\n') = text.reverse :=
      (List.takeWhile_prefix _).eq_of_length heq
    have hline := List.takeWhile_eq_self_iff.mp hself '\n' (List.mem_reverse.mpr h)
    simp at hline
  rw [lastLine, List.reverse_append, List.takeWhile_append, if_neg hstop]
  rfl

theorem length_lastLine_le (cs : List Char) : (lastLine cs).length ≤ cs.length := by
  have hprefix := (List.takeWhile_prefix (· != '\n') (l := cs.reverse)).length_le
  rw [List.length_reverse] at hprefix
  rw [lastLine, List.length_reverse]
  exact hprefix

theorem column_positionAfter (cs : List Char) :
    (positionAfter cs).column = (lastLine cs).length + 1 := by
  simp [positionAfter, lastLine]

end Text

namespace Pattern

theorem notMem_of_run {first more : Char → Bool} {text : List Char} {d : Char}
    (hfirst : first d = false) (hmore : more d = false) (h : text ∈ run first more) :
    d ∉ text := by
  obtain ⟨c, tail, rfl, hc, htail⟩ := mem_run.mp h
  intro hd
  rcases List.mem_cons.mp hd with rfl | hd
  · rw [hfirst] at hc
    cases hc
  · have htrue := htail d hd
    rw [hmore] at htrue
    cases htrue

theorem notMem_of_nextWords {text : List Char} (h : text ∈ nextWord∗) : '\n' ∉ text := by
  apply kstar_induction (motive := fun text => '\n' ∉ text) h
  · simp
  · intro a b ha _ hb
    obtain ⟨_, rfl, word, hword, rfl⟩ := Language.mem_mul.mp ha
    have hletters : '\n' ∉ word := notMem_of_run (by decide) (by decide) hword
    simp [hletters, hb]

end Pattern

/-- Where no line feed is looked for, there is none. -/
theorem Terminal.notMem_of_mayBreak {t : Terminal} {text : List Char} (ht : t.mayBreak = false)
    (h : text ∈ t.language) : '\n' ∉ text := by
  cases t
  case ident => exact notMem_of_run (by decide) (by decide) h
  case action =>
    obtain ⟨word, hword, others, hothers, rfl⟩ := Language.mem_mul.mp h
    have hfirst : '\n' ∉ word := notMem_of_run (by decide) (by decide) hword
    simp [hfirst, notMem_of_nextWords hothers]
  case columnType | defaultValue | comment | blanks => cases ht
  case endOfInput => exact absurd h (Language.notMem_zero _)
  all_goals
    rw [mem_exactly.mp h]
    decide

namespace Tally

/-- The tally is that of the characters `before`. -/
structure Counts (n : Tally) (before : List Char) : Prop where
  offset_eq : n.offset = before.length
  line_eq : n.line = before.count '\n' + 1
  lineStart_eq : n.lineStart + (Text.lastLine before).length = before.length

theorem Counts.start : Counts {} [] := ⟨rfl, rfl, rfl⟩

theorem Counts.position_eq {n : Tally} {before : List Char} (h : n.Counts before) :
    n.position = Text.positionAfter before := by
  obtain ⟨hoffset, hline, hstart⟩ := h
  have hcolumn : n.offset - n.lineStart + 1 = (Text.positionAfter before).column := by
    rw [Text.column_positionAfter]
    omega
  rw [position, hline, hcolumn]
  rfl

theorem Counts.feed {n : Tally} {before text : List Char} {t : Terminal} (h : n.Counts before)
    (ht : t.mayBreak = false → '\n' ∉ text) : (n.feed t text).Counts (before ++ text) := by
  obtain ⟨hoffset, hline, hstart⟩ := h
  have hbreaks : (if t.mayBreak then text.count '\n' else 0) = text.count '\n' := by
    cases hbreak : t.mayBreak with
    | true => rfl
    | false => exact (List.count_eq_zero.mpr (ht hbreak)).symm
  constructor
  · simp [Tally.feed, hoffset]
  · simp only [Tally.feed, hbreaks, hline, List.count_append]
    omega
  · simp only [Tally.feed, hbreaks, List.length_append]
    by_cases hmem : '\n' ∈ text
    · have hcount : text.count '\n' ≠ 0 := fun heq => List.count_eq_zero.mp heq hmem
      have hle := Text.length_lastLine_le text
      rw [if_neg hcount, Text.lastLine_append_of_mem hmem]
      rw [Text.lastLine, List.length_reverse] at hle ⊢
      omega
    · rw [if_pos (List.count_eq_zero.mpr hmem), Text.lastLine_append_of_notMem hmem,
        List.length_append]
      omega

end Tally

/-- The blanks that a step skips are all there are before the lexeme. -/
theorem Reader.Step.takeWhile_isBlank {a b : Reader} {l : Lexeme} (h : a.Step l b) :
    a.rest = a.rest.takeWhile Text.isBlank ++ (l.text ++ b.rest) ∧
      l.start = a.offset + (a.rest.takeWhile Text.isBlank).length := by
  obtain ⟨gap, hgap, hrest, hstart, _, ⟨t, ht, hmem, _, _⟩, _⟩ := Reader.step_iff.mp h
  have hclear : Clear Text.isBlank (l.text ++ b.rest) := by
    obtain ⟨c, tail, htext, hc⟩ := Terminal.begins_of_mem hmem
    rw [htext]
    rintro d ⟨⟩
    exact Place.not_isBlank_of_begins ht hc
  have htake : a.rest.takeWhile Text.isBlank = gap := by
    rw [hrest]
    exact (takeWhile_append_of_clear hgap hclear).1
  rw [htake]
  exact ⟨hrest, hstart⟩

namespace Tally

theorem Counts.skipBlanks {n : Tally} {before : List Char} (h : n.Counts before)
    (cs : List Char) : (n.skipBlanks cs).Counts (before ++ cs.takeWhile Text.isBlank) :=
  h.feed nofun

/-- Reading from a place on keeps the tally up to where it stops. -/
theorem counts_whenStopped {p : Place} {n : Tally} {before cs : List Char} {r : Rejection}
    (hn : n.Counts before) (h : Reader.Fails ⟨p, n.offset, cs⟩ r) :
    (whenStopped p n cs).Counts ((before ++ cs).take r.offset) := by
  fun_induction whenStopped p n cs generalizing before with
  | case1 p n cs l q rest hstep ih =>
    have head : Reader.Step ⟨p, n.offset, cs⟩ l ⟨q, l.stop, rest⟩ := ⟨hstep, rfl⟩
    obtain ⟨hcs, hstart⟩ := head.takeWhile_isBlank
    have hlines : l.terminal.mayBreak = false → '\n' ∉ l.text := by
      intro hbreak
      obtain ⟨_, _, _, _, _, htakes, _⟩ := Reader.step_iff.mp head
      exact Terminal.notMem_of_mayBreak hbreak htakes.mem_language
    have hnext := (hn.skipBlanks cs).feed hlines
    have hoffset : ((n.skipBlanks cs).feed l.terminal l.text).offset = l.stop := by
      simp only at hstart
      rw [hnext.offset_eq, Lexeme.stop, hstart, hn.offset_eq]
      simp only [List.length_append]
    have hsplit : before ++ cs = before ++ cs.takeWhile Text.isBlank ++ l.text ++ rest := by
      simp only at hcs
      rw [List.append_assoc, List.append_assoc, ← hcs]
    rw [hsplit]
    apply ih hnext
    rw [hoffset]
    exact (Reader.fails_iff_of_step head).mp h
  | case2 p n cs hstep =>
    have hfinished : Reader.Finished ⟨p, n.offset, cs⟩ := Place.step_eq_finished_iff.mp hstep
    exact absurd h (hfinished.not_fails r)
  | case3 p n cs rejection hstep =>
    have hstuck : Reader.Stuck ⟨p, n.offset, cs⟩ rejection := hstep
    have hr : r = rejection := (Reader.fails_iff_of_stuck hstuck).mp h
    subst hr
    obtain ⟨gap, rest, hgap, hclear, rfl, hrefuses⟩ := Place.refuses_of_step hstep
    have hcounts := hn.skipBlanks (gap ++ rest)
    rw [(takeWhile_append_of_clear hgap hclear).1] at hcounts
    rw [hrefuses.fits.1, hn.offset_eq, ← List.length_append, ← List.append_assoc, List.take_left]
    exact hcounts

end Tally

/-- The position told where reading stops is that of a new count from the start of the text. -/
theorem stopPosition_eq {source : List Char} {r : Rejection} (h : lexemes source = .error r) :
    stopPosition source = Text.positionAt source r.offset := by
  have hcounts := Tally.counts_whenStopped .start (lexemes_eq_error_iff.mp h)
  rw [stopPosition, hcounts.position_eq, Text.positionAt, Text.clampOffset, Int.toNat_natCast,
    Nat.min_eq_left (fits_of_lexemes h).1]
  rfl

theorem isSpace_of_isIdentStart {c : Char} (h : isIdentStart c = true) :
    Text.isSpace c = false := by
  rw [isIdentStart] at h
  delta Char.isAlpha Char.isUpper Char.isLower at h
  simp only [Bool.or_eq_true, Bool.and_eq_true, decide_eq_true_eq, beq_iff_eq,
    UInt32.le_iff_toNat_le] at h
  rcases h with (⟨hge, hle⟩ | ⟨hge, hle⟩) | rfl
  · simp [Text.isSpace] at hge hle ⊢
    omega
  · simp [Text.isSpace] at hge hle ⊢
    omega
  · decide

theorem Place.isSpace_of_begins {p : Place} {t : Terminal} (ht : t ∈ p.trial) {c : Char}
    (hc : t.begins c = true) : Text.isSpace c = false := by
  have hblanks : t ≠ .blanks := fun heq => p.blanks_notMem_trial (heq ▸ ht)
  cases t
  case ident | columnType | action => exact isSpace_of_isIdentStart hc
  case defaultValue =>
    have hbare : isBareChar c = true := hc
    simp only [isBareChar, Bool.not_eq_true', Bool.or_eq_false_iff] at hbare
    exact hbare.1.1.1
  case blanks => exact absurd rfl hblanks
  case endOfInput => cases hc
  all_goals
    rw [← beq_iff_eq.mp hc]
    decide

theorem defaultValue?_eq_none_iff (c : Char) (rest : List Char) :
    defaultValue? (c :: rest) = none ↔ isBareChar c = false := by
  constructor
  · intro h
    obtain ⟨_, h⟩ := Option.or_eq_none_iff.mp h
    obtain ⟨_, hbare⟩ := Option.or_eq_none_iff.mp h
    simpa [bare?, run?] using hbare
  · intro h
    cases hvalue : defaultValue? (c :: rest) with
    | none => rfl
    | some found =>
      have hlex : Terminal.defaultValue.lex? (c :: rest) = some found := hvalue
      obtain ⟨d, hd, hbegins⟩ := Terminal.begins_of_lex? hlex
      cases hd
      have hbare : isBareChar c = true := hbegins
      rw [h] at hbare
      cases hbare

/-- What is no white space is reported as a text. -/
theorem strayText?_eq_none_iff (c : Char) (rest : List Char) :
    strayText? (c :: rest) = none ↔ Text.isSpace c = true := by
  cases hvalue : defaultValue? (c :: rest) with
  | some found =>
    have hbare : isBareChar c = true := by
      rw [← Bool.not_eq_false, ← defaultValue?_eq_none_iff c rest, hvalue]
      rintro ⟨⟩
    simp only [isBareChar, Bool.not_eq_true', Bool.or_eq_false_iff] at hbare
    simp [strayText?, hvalue, hbare.1.1.1]
  | none =>
    have hbare := (defaultValue?_eq_none_iff c rest).mp hvalue
    simp only [isBareChar, Bool.not_eq_false', Bool.or_eq_true, beq_iff_eq] at hbare
    rcases hbare with ((hspace | rfl) | rfl) | rfl
    · have hmarks : c ≠ ',' ∧ c ≠ '[' ∧ c ≠ ']' := by
        refine ⟨?_, ?_, ?_⟩ <;> rintro rfl <;> revert hspace <;> decide
      simp [strayText?, hvalue, hmarks, hspace]
    all_goals
      simp only [strayText?, hvalue]
      decide

theorem Place.Refuses.isSpace {p : Place} {start : Nat} {c : Char} {rest : List Char}
    {r : Rejection} (h : p.Refuses start (c :: rest) r) :
    (Text.isSpace c = true ∧ r = .character c start p.trial) ∨
      (Text.isSpace c = false ∧ ∃ text expected, r = .token text start expected) := by
  cases h with
  | ended hcs => cases hcs
  | unmatched hcs hnone =>
    cases hcs
    rw [Place.reject]
    cases hstray : strayText? (c :: rest) with
    | none => exact .inl ⟨(strayText?_eq_none_iff c rest).mp hstray, rfl⟩
    | some text =>
      refine .inr ⟨?_, text, p.trial, rfl⟩
      rw [← Bool.not_eq_true, ← strayText?_eq_none_iff c rest, hstray]
      rintro ⟨⟩
  | disallowed ht hlex =>
    obtain ⟨d, hd, hbegins⟩ := Terminal.begins_of_lex? hlex
    cases hd
    exact .inr ⟨Place.isSpace_of_begins ht hbegins, _, _, rfl⟩

theorem Rejection.problem_eq_endOfStream_iff {source : List Char} {r : Rejection}
    (h : lexemes source = .error r) :
    r.problem source = .endOfStream ↔ r.offset = source.length := by
  obtain ⟨hle, hfits⟩ := fits_of_lexemes h
  -- Where something stands at the offset, the text goes on behind it.
  have hlt : ∀ {text : List Char}, text ≠ [] → text <+: source.drop r.offset →
      r.offset ≠ source.length := by
    intro text hne hprefix heq
    have hlength := hprefix.length_le
    have hpos := List.length_pos_iff.mpr hne
    rw [List.length_drop] at hlength
    omega
  cases r with
  | endOfInput offset expected =>
    exact ⟨fun _ => le_antisymm hle (List.drop_eq_nil_iff.mp hfits), fun _ => rfl⟩
  | token text start expected => exact ⟨nofun, fun heq => absurd heq (hlt hfits.1 hfits.2)⟩
  | character found offset expected =>
    exact ⟨nofun, fun heq => absurd heq (hlt (List.cons_ne_nil _ _) hfits)⟩

/-- A rejection before the end of the text is one of a character if that is white space but no
blank, and one of a text otherwise; the position of such a character is told. -/
theorem parseTree_character_iff {ledger after : Ledger} {source : List Char} {r : Rejection}
    (h : ledger.parseTree source = (.error r, after)) :
    ∃ (d : Diagnostic) (label : Label) (p : Nat),
      after = { ledger with entries := ledger.entries ++ [d] } ∧ d.labels = [label] ∧
      label.span.start = p ∧ (r.problem source = .endOfStream ↔ p = source.length) ∧
      ∀ c, source[p]? = some c →
        ((r.problem source).kind = "GrammarError" ↔
          Text.isSpace c = true ∧ Text.isBlank c = false) ∧
        ((r.problem source).kind ≠ "GrammarError" →
          (r.problem source).kind = "UnexpectedPair") ∧
        ((r.problem source).kind = "GrammarError" →
          label.span = ⟨p, p + 1⟩ ∧ ∃ expected, r.problem source =
            .grammar "Unexpected character" (some (Text.positionAt source p).line)
              (some (Text.positionAt source p).column) (some (String.ofList [c]))
              (some expected)) := by
  obtain ⟨hlexemes, rfl⟩ := parseTree_eq_error_iff.mp h
  refine ⟨_, _, r.offset, rfl, rfl, ?_, Rejection.problem_eq_endOfStream_iff hlexemes, ?_⟩
  · cases r <;> rfl
  · intro c hc
    obtain ⟨hlt, hget⟩ := List.getElem?_eq_some_iff.mp hc
    have hdrop : source.drop r.offset = c :: source.drop (r.offset + 1) := by
      rw [List.drop_eq_getElem_cons hlt, hget]
    obtain ⟨_, b, _, _, _, hclear, _, _, hrefuses⟩ := refuses_of_lexemes hlexemes
    rw [hdrop] at hclear hrefuses
    have hblank : Text.isBlank c = false := hclear c rfl
    rcases hrefuses.isSpace with ⟨hspace, hr⟩ | ⟨hspace, text, expected, hr⟩
    · cases r with
      | endOfInput _ _ | token _ _ _ => cases hr
      | character found offset expected =>
        cases hr
        refine ⟨⟨fun _ => ⟨hspace, hblank⟩, fun _ => rfl⟩, fun hne => absurd rfl hne, fun _ => ?_⟩
        refine ⟨rfl, Terminal.describeAll b.place.trial, ?_⟩
        rw [Rejection.problem, stopPosition_eq hlexemes]
    · cases r with
      | endOfInput _ _ | character _ _ _ => cases hr
      | token found start listed =>
        cases hr
        have hkind : (Rejection.problem source (.token text start expected)).kind =
            "UnexpectedPair" := rfl
        rw [hkind, hspace]
        exact ⟨by simp, fun _ => rfl, fun heq => absurd heq (by decide)⟩

/-- A column type of two lines, and a no-break space behind it. -/
theorem parseTree_character_iff_two_lines :
    let source := "table t\x7ba b(1,\n2) \u00a0\x7d".toList
    ∃ r d, ({} : Ledger).parseTree source = (.error r, { entries := [d] }) ∧
      d.labels.map Label.span = [⟨18, 19⟩] ∧ ∃ expected, r.problem source =
        .grammar "Unexpected character" (some 2) (some 4) (some "\u00a0") (some expected) := by
  intro source
  have hlexemes : lexemes source = .error (.character '\u00a0' 18 Place.afterType.trial) :=
    scan_of_scanWithin (n := 6) (by decide +kernel +zetaReduce)
  have hparse : ({} : Ledger).parseTree source = (.error _, _) :=
    parseTree_eq_error_iff.mpr ⟨hlexemes, rfl⟩
  obtain ⟨d, label, p, hafter, hlabels, hstart, _, hchar⟩ := parseTree_character_iff hparse
  have hd : ({} : Ledger).entry .error (Rejection.notice (.character _ 18 _)) = d :=
    List.singleton_inj.mp (congrArg Ledger.entries hafter)
  subst hd
  cases hlabels
  have hp : p = 18 := (Int.natCast_inj.mp hstart).symm
  subst hp
  obtain ⟨_, _, hgrammar⟩ := hchar '\u00a0' (by decide +kernel +zetaReduce)
  obtain ⟨_, expected, hproblem⟩ := hgrammar rfl
  exact ⟨_, _, hparse, rfl, expected, hproblem⟩

end DalSchema
