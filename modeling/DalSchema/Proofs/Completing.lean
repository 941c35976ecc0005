import DalSchema.Proofs.Pointing
import DalSchema.Proofs.Truncating

/-!
# Endings

From every place some text leads to the end of a schema text: `Place.exists_completes_ending`. It
begins with a line feed and holds no quotes, so it can be put behind what was read and leaves that
as it was. Hence nothing before a rejection is wrong: what stands before it is the beginning of a
complete text, `parseTree_viablePrefix`.
-/

namespace DalSchema

open Lexeme

theorem Lexeme.Harmless.newLine {cs : List Char} (h : '\x27' ∉ '\n' :: cs ∧ '"' ∉ '\n' :: cs) :
    Harmless ('\n' :: cs) := by
  constructor
  · rintro c ⟨⟩
    rfl
  · rintro c hc (rfl | rfl)
    · exact h.1 hc
    · exact h.2 hc

namespace Place

/-- A text that completes a schema text from the place, but for the line feed in front. -/
def ending : Place → String
  | top _ => ""
  | declName _ => "a\x7b\x7d"
  | declHead _ | bodyStart _ => "\x7b\x7d"
  | existsWord _ => "exists]\x7b\x7d"
  | existsEnd _ => "]\x7b\x7d"
  | body _ _ | afterType | afterNull | afterGroup => "\x7d"
  | columnType => "a\x7d"
  | modifier => "unique]\x7d"
  | afterModifier | afterRef => "]\x7d"
  | defaultColon => ":0]\x7d"
  | defaultValue => "0]\x7d"
  | primaryKey => "key]\x7d"
  | refColon => ":a.a]\x7d"
  | refTable => "a.a]\x7d"
  | refDot => ".a]\x7d"
  | refColumn => "a]\x7d"
  | actionKind => "delete:a)]\x7d"
  | actionColon => ":a)]\x7d"
  | actionPhrase => "a)]\x7d"
  | afterAction => ")]\x7d"

def endingLine (p : Place) : List Char := '\n' :: p.ending.toList

theorem harmless_endingLine (p : Place) : Harmless p.endingLine := by
  have hall : ∀ p ∈ all, '\x27' ∉ p.endingLine ∧ '"' ∉ p.endingLine := by decide +kernel
  exact .newLine (hall p p.mem_all)

end Place

namespace Reader

theorem Completes.shift {a : Reader} {ls : List Lexeme} (h : a.Completes ls) (n : Nat) :
    (a.shift n).Completes (ls.map (Lexeme.shift n)) := by
  obtain ⟨b, hreads, hfinished⟩ := h
  exact ⟨b.shift n, hreads.shift n, hfinished⟩

theorem exists_completes_of_scanWithin {n : Nat} {p : Place} {cs : List Char}
    (h : (scanWithin n p 0 cs).any Except.isOk = true) (offset : Nat) :
    ∃ ls, Completes ⟨p, offset, cs⟩ ls := by
  obtain ⟨r, hr, hok⟩ := (Option.any_eq_true _ _).mp h
  cases r with
  | error rejection => cases hok
  | ok ls =>
    have hzero := (scan_eq_ok_iff.mp (scan_of_scanWithin hr)).shift offset
    rw [Reader.shift, Nat.zero_add] at hzero
    exact ⟨_, hzero⟩

/-- Blanks are skipped. -/
theorem completes_append_iff {p : Place} {offset : Nat} {gap cs : List Char} {ls : List Lexeme}
    (hgap : Text.Blank gap) :
    Completes ⟨p, offset, gap ++ cs⟩ ls ↔ Completes ⟨p, offset + gap.length, cs⟩ ls := by
  have hstep : p.step offset (gap ++ cs) = p.step (offset + gap.length) cs := by
    rw [Place.step, Place.step, List.dropWhile_append_of_pos hgap,
      List.takeWhile_append_of_pos hgap, List.length_append, List.length_append, Nat.add_assoc,
      Nat.add_assoc]
  constructor
  · rintro ⟨b, hreads, hfinished⟩
    cases hreads with
    | refl =>
      exact ⟨_, .refl _, hfinished.1, fun c hc => hfinished.2 c (List.mem_append_right gap hc)⟩
    | cons head rest => exact ⟨b, .cons ⟨hstep ▸ head.1, head.2⟩ rest, hfinished⟩
  · rintro ⟨b, hreads, hfinished⟩
    cases hreads with
    | refl => exact ⟨_, .refl _, hfinished.1, List.forall_mem_append.mpr ⟨hgap, hfinished.2⟩⟩
    | cons head rest => exact ⟨b, .cons ⟨hstep ▸ head.1, head.2⟩ rest, hfinished⟩

end Reader

theorem Place.exists_completes_ending (p : Place) (offset : Nat) :
    ∃ ls, Reader.Completes ⟨p, offset, p.endingLine⟩ ls := by
  have hall : ∀ p ∈ all, (scanWithin 9 p 0 p.endingLine).any Except.isOk = true := by
    decide +kernel
  exact Reader.exists_completes_of_scanWithin (hall p p.mem_all) offset

/-- Reading comes to the offset with `ls` read, and stands at `q` there. -/
def Reaches (source : List Char) (k : Nat) (ls : List Lexeme) (q : Place) : Prop :=
  ∃ offset rest gap, Reader.Reads ⟨.top false, 0, source⟩ ls ⟨q, offset, rest⟩ ∧
    Reader.Gap ⟨q, offset, rest⟩ k gap

namespace Reaches

variable {source : List Char} {k : Nat} {ls : List Lexeme} {q : Place}

theorem le_length (h : Reaches source k ls q) : k ≤ source.length := by
  obtain ⟨offset, rest, gap, hreads, _, hahead, hoffset⟩ := h
  have hlength : offset + rest.length = 0 + source.length := hreads.length_eq
  have hgap : gap.length ≤ rest.length := hahead.length_le
  simp only at hoffset
  omega

/-- What was read stays read when the text goes on with a new line in another way and no quote that
was open is closed; what comes then is read from the place that was reached. -/
theorem lexemes_take_append_iff (h : Reaches source k ls q) {tail : List Char}
    (htail : OnNewLine tail)
    (hquotes : ∀ l ∈ ls, l.terminal = .defaultValue → Unquoted (source.drop l.start) →
      Unquoted ((source.take k ++ tail).drop l.start)) {found : List Lexeme} :
    lexemes (source.take k ++ tail) = .ok found ↔
      ∃ ms, found = ls ++ ms ∧ Reader.Completes ⟨q, k, tail⟩ ms := by
  have hle := h.le_length
  obtain ⟨offset, rest, gap, hreads, hgap⟩ := h
  have hcut := hreads.cut hle htail rfl hgap hquotes
  rw [hgap.on_eq hle (hreads.rest_eq_drop rfl)] at hcut
  have hoffset : offset + gap.length = k := hgap.offset_eq
  rw [lexemes_eq_ok_iff]
  refine (Reader.completes_iff_of_reads hcut).trans (exists_congr fun ms => ?_)
  rw [Reader.completes_append_iff hgap.blank, hoffset]

theorem lexemes_of_harmless (h : Reaches source k ls q) {tail : List Char}
    (htail : Harmless tail) {ms : List Lexeme} (hms : Reader.Completes ⟨q, k, tail⟩ ms) :
    lexemes (source.take k ++ tail) = .ok (ls ++ ms) := by
  refine (h.lexemes_take_append_iff htail.line ?_).mpr ⟨ms, rfl, hms⟩
  intro l hl _
  have hle := h.le_length
  obtain ⟨_, _, _, hreads, hgap⟩ := h
  exact htail.unquoted_drop hle (hreads.start_le hgap l hl)

end Reaches

theorem reaches_of_error {source : List Char} {r : Rejection} (h : lexemes source = .error r) :
    ∃ ls q, Reaches source r.offset ls q ∧ q.Refuses r.offset (source.drop r.offset) r := by
  obtain ⟨ls, b, gap, hreads, hgap, _, hrest, hoffset, hrefuses⟩ := refuses_of_lexemes h
  exact ⟨ls, b.place, ⟨b.offset, b.rest, gap, hreads, hgap, ⟨_, hrest.symm⟩, hoffset⟩, hrefuses⟩

theorem exists_completion {source : List Char} {r : Rejection} (h : lexemes source = .error r) :
    ∃ t ls, lexemes (source.take r.offset ++ t) = .ok ls := by
  obtain ⟨ls, q, hreaches, _⟩ := reaches_of_error h
  obtain ⟨ms, hms⟩ := q.exists_completes_ending r.offset
  exact ⟨q.endingLine, _, hreaches.lexemes_of_harmless q.harmless_endingLine hms⟩

theorem Rejection.start_notice (r : Rejection) : r.notice.span.start = r.offset := by
  cases r <;> rfl

/-- The text up to the label of a rejection is the beginning of some complete text. -/
theorem parseTree_viablePrefix {ledger after : Ledger} {source : List Char} {r : Rejection}
    (h : ledger.parseTree source = (.error r, after)) :
    ∃ (d : Diagnostic) (label : Label) (p : Nat),
      after = { ledger with entries := ledger.entries ++ [d] } ∧ d.labels = [label] ∧
        (r.problem source).PointsTo source label.span ∧ label.span.start = p ∧
        p ≤ source.length ∧
        ∃ t tree, ledger.parseTree (source.take p ++ t) = (.ok tree, ledger) := by
  obtain ⟨hlexemes, rfl⟩ := parseTree_eq_error_iff.mp h
  obtain ⟨t, ls, hls⟩ := exists_completion hlexemes
  exact ⟨_, _, r.offset, rfl, rfl, (Rejection.pointsTo hlexemes).2, r.start_notice,
    (fits_of_lexemes hlexemes).1, t, _, ledger.parseTree_of_ok hls⟩

/-- A bracket that is not closed ends the column type before it. -/
theorem parseTree_viablePrefix_open_bracket :
    let source := "table t\x7ba b(1".toList
    ∃ r d, ({} : Ledger).parseTree source = (.error r, { entries := [d] }) ∧
      d.labels.map Label.span = [⟨11, 13⟩] ∧
      ∃ t tree, ({} : Ledger).parseTree (source.take 11 ++ t) = (.ok tree, {}) := by
  intro source
  have hlexemes : lexemes source = .error (.token "(1".toList 11 Place.afterType.trial) :=
    scan_of_scanWithin (n := 6) (by decide +kernel +zetaReduce)
  have hparse : ({} : Ledger).parseTree source = (.error _, _) :=
    parseTree_eq_error_iff.mpr ⟨hlexemes, rfl⟩
  obtain ⟨d, label, p, hafter, hlabels, hpoints, hp, _, t, tree, htree⟩ :=
    parseTree_viablePrefix hparse
  rw [hafter] at hparse
  have hspan : label.span = ⟨11, 13⟩ := hpoints.1.symm
  have hstart : p = 11 := by
    rw [hspan] at hp
    exact (Int.natCast_inj.mp hp).symm
  subst hstart
  exact ⟨_, d, hparse, by rw [hlabels, List.map_singleton, hspan], t, tree, htree⟩

end DalSchema
