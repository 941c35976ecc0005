import DalSchema.Proofs.Deriving
import DalSchema.Proofs.Rejecting

/-!
# Texts that are cut off

The lexemes before an offset are read as they were when the text is cut off there, and also when it
goes on with a new line in another way, as long as no lexeme is cut in two and no quote that was
open is closed: `Reader.Reads.cut`. A harmless text closes none. So the beginning of a complete text
is complete, or it ends too early, and nothing else can be wrong with it: `parseTree_take`.
-/

namespace DalSchema

open Lexeme Pattern
open scoped Computability

namespace Lexeme

/-- Nothing, or a text that begins a new line: it carries no lexeme on. -/
def OnNewLine (tail : List Char) : Prop := ∀ c ∈ tail.head?, c = '\n'

/-- What may follow any lexeme without carrying it on, and closes no quote that is open before. -/
structure Harmless (tail : List Char) : Prop where
  line : OnNewLine tail
  unquoted : ∀ c ∈ tail, ¬IsQuote c

theorem Harmless.nil : Harmless [] := ⟨nofun, nofun⟩

theorem OnNewLine.clear {tail : List Char} (h : OnNewLine tail) {p : Char → Bool}
    (hp : p '\n' = false) : Clear p tail := fun c hc => h c hc ▸ hp

theorem Clear.cut {p : Char → Bool} {rest tail : List Char} (h : Clear p rest)
    (hp : p '\n' = false) (htail : OnNewLine tail) (n : Nat) : Clear p (rest.take n ++ tail) := by
  cases n with
  | zero => exact htail.clear hp
  | succ n =>
    cases rest with
    | nil => exact htail.clear hp
    | cons c rest =>
      rintro d ⟨⟩
      exact h c rfl

theorem last_of_quoted {quote : Char} {text : List Char} (h : text ∈ quoted quote) :
    ∃ init, text = init ++ [quote] := by
  obtain ⟨first, _, _, hrest, rfl⟩ := Language.mem_mul.mp h
  obtain ⟨body, _, _, ⟨c, hc, rfl⟩, rfl⟩ := Language.mem_mul.mp hrest
  exact ⟨first ++ body, by rw [beq_iff_eq.mp hc, List.append_assoc]⟩

/-- A quote that is open in a text stays open in its beginnings. -/
theorem Unquoted.cut {front back tail : List Char} (h : Unquoted (front ++ back))
    (htail : Harmless tail) : Unquoted (front ++ tail) := by
  intro quote hquote
  by_contra hsome
  obtain ⟨⟨text, rest⟩, hfound⟩ := Option.ne_none_iff_exists'.mp hsome
  obtain ⟨heq, htext⟩ := (quoted?_eq_some_iff hquote.ne_backslash).mp hfound
  -- Closed in the beginning, the quote would be closed in the whole text too.
  have hclosed : ∀ more, front ≠ text ++ more := by
    rintro more rfl
    have hwhole := (quoted?_eq_some_iff hquote.ne_backslash).mpr
      ⟨List.append_assoc text more back, htext⟩
    rw [h quote hquote] at hwhole
    cases hwhole
  rcases List.append_eq_append_iff.mp heq with ⟨more, rfl, rfl⟩ | ⟨more, hfront, _⟩
  · obtain ⟨init, hinit⟩ := last_of_quoted htext
    rcases List.eq_nil_or_concat' more with rfl | ⟨before, c, rfl⟩
    · exact hclosed [] (by simp)
    · rw [← List.append_assoc] at hinit
      have hlast : c = quote := List.singleton_inj.mp (List.append_inj_right' hinit rfl)
      exact htail.unquoted c (by simp) (hlast ▸ hquote)
  · exact hclosed more hfront

end Lexeme

theorem Terminal.Ends.cut {t : Terminal} {text rest tail : List Char} (h : t.Ends text rest)
    (ht : t ≠ .blanks) (htail : OnNewLine tail) {n : Nat}
    (hparen : t = .columnType → n = 0 ∨ ∀ c ∈ rest.head?, c ≠ '(')
    (hquotes : t = .defaultValue → Unquoted (text ++ rest) →
      Unquoted (text ++ (rest.take n ++ tail))) :
    t.Ends text (rest.take n ++ tail) := by
  cases t
  case ident => exact Clear.cut h (by decide) htail n
  case columnType =>
    intro htext
    refine ⟨(h htext).1.cut (by decide) htail n, group?_of_ne ?_⟩
    rcases hparen rfl with rfl | hhead
    · intro c hc
      rw [htail c hc]
      decide
    · have hclear : Clear (· == '(') rest := fun c hc => by simpa using hhead c hc
      exact fun c hc => by simpa using hclear.cut (by decide) htail n c hc
  case defaultValue =>
    exact h.imp_right fun ⟨hclear, hopen⟩ =>
      ⟨hclear.cut (by decide) htail n, hquotes rfl hopen⟩
  case action =>
    have htailEnds : (phraseTail tail).1 = [] := by
      cases tail with
      | nil => rfl
      | cons c tail =>
        rw [htail c rfl]
        exact phraseTail_eq_nil_iff.mpr ⟨by decide, nofun⟩
    cases n with
    | zero => exact htailEnds
    | succ n =>
      cases rest with
      | nil => exact htailEnds
      | cons c rest =>
        obtain ⟨hc, hnext⟩ := phraseTail_eq_nil_iff.mp h
        exact phraseTail_eq_nil_iff.mpr
          ⟨hc, fun hspace => Clear.cut (hnext hspace) (by decide) htail n⟩
  case comment => exact Clear.cut h (by decide) htail n
  case blanks => exact absurd rfl ht
  all_goals exact trivial

theorem drop_cut {source : List Char} (tail : List Char) {k n : Nat} (hk : k ≤ source.length)
    (hn : n ≤ k) : (source.take k ++ tail).drop n = (source.drop n).take (k - n) ++ tail := by
  have hlength : n ≤ (source.take k).length := by rwa [List.length_take_of_le hk]
  rw [List.drop_append_of_le_length hlength, List.drop_take]

/-- A harmless text closes no quote that was open before it. -/
theorem Lexeme.Harmless.unquoted_drop {source tail : List Char} (htail : Harmless tail) {k n : Nat}
    (hk : k ≤ source.length) (hn : n ≤ k) (h : Unquoted (source.drop n)) :
    Unquoted ((source.take k ++ tail).drop n) := by
  rw [← List.take_append_drop (k - n) (source.drop n)] at h
  rw [drop_cut tail hk hn]
  exact h.cut htail

theorem Text.Blank.ne_paren {gap rest : List Char} (h : Text.Blank gap) (hgap : gap ≠ []) :
    ∀ c ∈ (gap ++ rest).head?, c ≠ '(' := by
  cases gap with
  | nil => exact absurd rfl hgap
  | cons d gap =>
    rintro c ⟨⟩ rfl
    exact absurd (h '(' List.mem_cons_self) (by decide)

namespace Reader

/-- Between the reader and the offset there is nothing but blanks. -/
structure Gap (a : Reader) (k : Nat) (gap : List Char) : Prop where
  blank : Text.Blank gap
  ahead : gap <+: a.rest
  offset_eq : a.offset + gap.length = k

theorem Step.ne_paren {a b : Reader} {l : Lexeme} (h : a.Step l b) (ha : a.place = .afterType) :
    ∀ c ∈ a.rest.head?, c ≠ '(' := by
  obtain ⟨gap, c, rest, hahead⟩ := h.ahead (k := l.start + 1) (by omega) (by omega)
  rw [hahead.rest_eq]
  cases gap with
  | nil =>
    rintro d ⟨⟩
    exact hahead.ne_paren ha
  | cons e gap => exact hahead.blank.ne_paren (List.cons_ne_nil e gap)

theorem Gap.ne_paren {a : Reader} {k : Nat} {gap : List Char} (h : a.Gap k gap) :
    a.offset = k ∨ ∀ c ∈ a.rest.head?, c ≠ '(' := by
  cases gap with
  | nil => exact .inl h.offset_eq
  | cons e gap =>
    obtain ⟨rest, hrest⟩ := h.ahead
    rw [← hrest]
    exact .inr (h.blank.ne_paren (List.cons_ne_nil e gap))

section

variable {source tail : List Char} {k : Nat} (hk : k ≤ source.length)
include hk

theorem Gap.on_eq {b : Reader} {gap : List Char} (h : b.Gap k gap)
    (hb : b.rest = source.drop b.offset) :
    b.on (source.take k ++ tail) = ⟨b.place, b.offset, gap ++ tail⟩ := by
  obtain ⟨_, ⟨rest, hrest⟩, rfl⟩ := h
  rw [Reader.on, drop_cut tail hk (Nat.le_add_right _ _), ← hb, ← hrest, Nat.add_sub_cancel_left,
    List.take_left]

variable (htail : OnNewLine tail)
include htail

theorem Step.cut {a b : Reader} {l : Lexeme} (h : a.Step l b)
    (ha : a.rest = source.drop a.offset) (hb : b.offset ≤ k)
    (hparen : b.place = .afterType → b.offset = k ∨ ∀ c ∈ b.rest.head?, c ≠ '(')
    (hquotes : l.terminal = .defaultValue → Unquoted (source.drop l.start) →
      Unquoted ((source.take k ++ tail).drop l.start)) :
    (a.on (source.take k ++ tail)).Step l (b.on (source.take k ++ tail)) := by
  obtain ⟨gap, hgap, hrest, hstart, hoffset, ⟨t, ht, hmem, hends, hclass⟩, hnext⟩ := step_iff.mp h
  have hbrest : (source.take k ++ tail).drop b.offset = b.rest.take (k - b.offset) ++ tail := by
    rw [drop_cut tail hk hb, ← (h.rest_eq_drop ha).2]
  have harest : (source.take k ++ tail).drop a.offset =
      gap ++ (l.text ++ (b.rest.take (k - b.offset) ++ tail)) := by
    have hle : a.offset ≤ k := by
      obtain ⟨hle, hlt⟩ := h.offsets
      omega
    have hlength : k - a.offset = gap.length + (l.text.length + (k - b.offset)) := by
      rw [Lexeme.stop] at hoffset
      omega
    rw [drop_cut tail hk hle, ← ha, hrest, hlength, List.take_length_add_append,
      List.take_length_add_append]
    simp
  have hterminal : t ≠ .ident → l.terminal = t := fun hne =>
    hclass.symm.trans (Place.classify_of_ne hne l.text)
  refine step_iff.mpr ⟨gap, hgap, ?_, hstart, hoffset, ⟨t, ht, hmem, ?_, hclass⟩, hnext⟩
  · rw [Reader.on, Reader.on, hbrest, harest]
  · rw [Reader.on, hbrest]
    refine hends.cut (fun heq => a.place.blanks_notMem_trial (heq ▸ ht)) htail ?_ ?_
    · rintro rfl
      rw [hterminal (by decide)] at hnext
      exact (hparen (Place.next_columnType hnext)).imp_left fun heq => by omega
    · rintro rfl
      have hnew : (source.take k ++ tail).drop l.start =
          l.text ++ (b.rest.take (k - b.offset) ++ tail) := by
        rw [hstart, ← List.drop_drop, harest, List.drop_left]
      rw [← hnew, ← (h.rest_eq_drop ha).1]
      exact hquotes (hterminal (by decide))

theorem Reads.cut {a b : Reader} {ls : List Lexeme} (h : a.Reads ls b)
    (ha : a.rest = source.drop a.offset) {gap : List Char} (hb : b.Gap k gap)
    (hquotes : ∀ l ∈ ls, l.terminal = .defaultValue → Unquoted (source.drop l.start) →
      Unquoted ((source.take k ++ tail).drop l.start)) :
    (a.on (source.take k ++ tail)).Reads ls (b.on (source.take k ++ tail)) := by
  induction h with
  | refl => exact .refl _
  | @cons a m b l ls head rest ih =>
    obtain ⟨hl, hls⟩ := List.forall_mem_cons.mp hquotes
    have hle : m.offset ≤ k := by
      have hgap := hb.offset_eq
      have hoffsets := rest.offsets.1
      omega
    have hparen : m.place = .afterType → m.offset = k ∨ ∀ c ∈ m.rest.head?, c ≠ '(' := by
      intro hplace
      cases rest with
      | refl => exact hb.ne_paren
      | cons next _ => exact .inr (next.ne_paren hplace)
    exact .cons (head.cut hk htail ha hle hparen hl) (ih (head.rest_eq_drop ha).2 hb hls)

end

theorem Reads.start_le {a b : Reader} {ls : List Lexeme} (h : a.Reads ls b) {k : Nat}
    {gap : List Char} (hb : b.Gap k gap) : ∀ l ∈ ls, l.start ≤ k := by
  intro l hl
  have hlt := (h.offsets.2 l hl).2
  have hle := hb.offset_eq
  omega

theorem Reads.stop_le {a b : Reader} {ls : List Lexeme} (h : a.Reads ls b) :
    ∀ l ∈ ls, l.stop ≤ b.offset := by
  induction h with
  | refl => exact nofun
  | cons head tail ih => exact List.forall_mem_cons.mpr ⟨head.2 ▸ tail.offsets.1, ih⟩

/-- Blanks that go over the offset go up to it. -/
theorem gap_of_le {a : Reader} {gap rest : List Char} (hgap : Text.Blank gap)
    (hrest : a.rest = gap ++ rest) {k : Nat} (ha : a.offset ≤ k)
    (hk : k ≤ a.offset + gap.length) : a.Gap k (gap.take (k - a.offset)) := by
  refine ⟨fun c hc => hgap c (List.mem_of_mem_take hc), ?_, ?_⟩
  · have htake : gap.take (k - a.offset) <+: gap := List.take_prefix _ _
    rw [hrest]
    exact htake.trans (List.prefix_append _ _)
  · rw [List.length_take_of_le (by omega)]
    omega

/-- Where no lexeme is cut in two, the lexemes that end before the cut lead up to it. -/
theorem Reads.exists_gap {a b : Reader} {ls : List Lexeme} (h : a.Reads ls b)
    (hb : Text.Blank b.rest) {k : Nat} (ha : a.offset ≤ k) (hk : k ≤ b.offset + b.rest.length)
    (hls : ∀ l ∈ ls, ¬(l.start < k ∧ k < l.stop)) :
    ∃ c gap, a.Reads (ls.filter fun l => l.stop ≤ k) c ∧ c.Gap k gap := by
  induction h with
  | refl a => exact ⟨a, _, .refl a, gap_of_le hb (List.append_nil _).symm ha hk⟩
  | @cons a m b l ls head rest ih =>
    obtain ⟨hl, hrest⟩ := List.forall_mem_cons.mp hls
    obtain ⟨gap, hgap, harest, hstart, hoffset, _⟩ := step_iff.mp head
    by_cases hlk : l.stop ≤ k
    · obtain ⟨c, gap, hreads, hc⟩ := ih hb (hoffset ▸ hlk) hk hrest
      rw [List.filter_cons_of_pos (by simpa using hlk)]
      exact ⟨c, gap, .cons head hreads, hc⟩
    · -- The cut is in the gap before `l`, and all that follows ends behind it.
      have hnone : (l :: ls).filter (fun x => x.stop ≤ k) = [] := by
        refine List.filter_eq_nil_iff.mpr (List.forall_mem_cons.mpr ⟨by simpa using hlk, ?_⟩)
        intro x hx
        have hle := (rest.offsets.2 x hx).1
        have hstop : x.start ≤ x.stop := Nat.le_add_right _ _
        simp only [decide_eq_true_eq]
        omega
      rw [hnone]
      exact ⟨a, _, .refl a, gap_of_le hgap harest ha (by omega)⟩

end Reader

theorem lexemes_take {source : List Char} {ls : List Lexeme} (h : lexemes source = .ok ls)
    {k : Nat} (hk : k ≤ source.length) (hls : ∀ l ∈ ls, ¬(l.start < k ∧ k < l.stop)) :
    ∃ p, (Place.top false).follow (ls.filter fun l => l.stop ≤ k) = some p ∧
      lexemes (source.take k) =
        if p.accepting then .ok (ls.filter fun l => l.stop ≤ k)
        else .error (.endOfInput k p.trial) := by
  obtain ⟨b, hreads, _, hblank⟩ := lexemes_eq_ok_iff.mp h
  have hlength : k ≤ b.offset + b.rest.length := by simpa [hreads.length_eq] using hk
  obtain ⟨c, gap, hbefore, hc⟩ := hreads.exists_gap hblank (Nat.zero_le k) hlength hls
  have hcut := hbefore.cut hk Harmless.nil.line rfl hc fun l hl _ =>
    Harmless.nil.unquoted_drop hk (hbefore.start_le hc l hl)
  rw [hc.on_eq hk (hbefore.rest_eq_drop rfl), List.append_nil, List.append_nil] at hcut
  refine ⟨c.place, hbefore.follow, ?_⟩
  split
  · rename_i hplace
    exact lexemes_eq_ok_iff.mpr ⟨_, hcut, hplace, hc.blank⟩
  · rename_i hplace
    have hstep := Place.step_of_blank (Bool.eq_false_iff.mpr hplace) c.offset hc.blank
    rw [hc.offset_eq] at hstep
    exact lexemes_eq_error_iff.mpr ⟨_, _, hcut, hstep⟩

theorem filter_stop_le_of_lexemes {source : List Char} {ls : List Lexeme}
    (h : lexemes source = .ok ls) {k : Nat} (hk : source.length ≤ k) :
    ls.filter (fun l => l.stop ≤ k) = ls := by
  obtain ⟨b, hreads, _⟩ := lexemes_eq_ok_iff.mp h
  have hlength : b.offset + b.rest.length = source.length := by simpa using hreads.length_eq
  refine List.filter_eq_self.mpr fun l hl => ?_
  have hstop := hreads.stop_le l hl
  simp only [decide_eq_true_eq]
  omega

/-- The beginning of a complete text, up to an offset that is not inside a lexeme, has the tree of
the lexemes in it or ends too early. -/
theorem parseTree_take {ledger : Ledger} {source : List Char} {tree : Node}
    (h : (ledger.parseTree source).1 = .ok tree) :
    ∃ ls, lexemes source = .ok ls ∧ tree = Node.ofLexemes ls ∧
      ∀ k, (∀ l ∈ ls, ¬(l.start < k ∧ k < l.stop)) →
        ledger.parseTree (source.take k) =
          (.ok (Node.ofLexemes (ls.filter fun l => l.stop ≤ k)), ledger) ∨
        ∃ r d, ledger.parseTree (source.take k) =
            (.error r, { ledger with entries := ledger.entries ++ [d] }) ∧
          r.problem (source.take k) = .endOfStream ∧ d.severity = .error ∧
          d.labels.map Label.span = [.point k] := by
  obtain ⟨ls, hls, rfl⟩ := parseTree_eq_ok_iff.mp h
  refine ⟨ls, hls, rfl, fun k hk => ?_⟩
  -- A cut behind the end of the text is one at its end.
  rcases Nat.le_total k source.length with hle | hle
  · obtain ⟨p, _, htake⟩ := lexemes_take hls hle hk
    split at htake
    · exact .inl (ledger.parseTree_of_ok htake)
    · exact .inr ⟨_, _, parseTree_eq_error_iff.mpr ⟨htake, rfl⟩, rfl, rfl, rfl⟩
  · rw [List.take_of_length_le hle, filter_stop_le_of_lexemes hls hle]
    exact .inl (ledger.parseTree_of_ok hls)

/-- A cut inside an open quote, directly behind the default value that it begins. -/
theorem parseTree_take_open_quote :
    let source := "table t\x7ba b[default:'x]\x7d".toList
    (∃ tree, (({} : Ledger).parseTree source).1 = .ok tree) ∧
      ∃ r d, ({} : Ledger).parseTree (source.take 22) = (.error r, { entries := [d] }) ∧
        r.problem (source.take 22) = .endOfStream ∧ d.labels.map Label.span = [.point 22] := by
  intro source
  let ls : List Lexeme :=
    [⟨.tableWord, "table".toList, 0⟩, ⟨.ident, ['t'], 6⟩, ⟨.leftBrace, ['{'], 7⟩,
      ⟨.ident, ['a'], 8⟩, ⟨.columnType, ['b'], 10⟩, ⟨.leftBracket, ['['], 11⟩,
      ⟨.defaultWord, "default".toList, 12⟩, ⟨.colon, [':'], 19⟩,
      ⟨.defaultValue, "'x".toList, 20⟩, ⟨.rightBracket, [']'], 22⟩, ⟨.rightBrace, ['}'], 23⟩]
  have hlexemes : lexemes source = .ok ls :=
    scan_of_scanWithin (n := 12) (by decide +kernel +zetaReduce)
  have htree : (({} : Ledger).parseTree source).1 = .ok (Node.ofLexemes ls) :=
    parseTree_eq_ok_iff.mpr ⟨ls, hlexemes, rfl⟩
  obtain ⟨found, hfound, _, hcut⟩ := parseTree_take htree
  rw [hlexemes] at hfound
  cases hfound
  refine ⟨⟨_, htree⟩, ?_⟩
  rcases hcut 22 (by decide +kernel +zetaReduce) with hok | ⟨r, d, herror, heos, _, hspan⟩
  · have htake : lexemes (source.take 22) = .error (.endOfInput 22 [.comma, .rightBracket]) :=
      scan_of_scanWithin (n := 12) (by decide +kernel +zetaReduce)
    rw [parseTree_eq_error_iff.mpr ⟨htake, rfl⟩] at hok
    cases hok
  · exact ⟨r, d, herror, heos, hspan⟩

end DalSchema
