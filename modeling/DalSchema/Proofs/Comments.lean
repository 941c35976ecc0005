import DalSchema.Proofs.Building
import DalSchema.Proofs.Reserving

/-!
# Comments before declarations and members

A comment line may be put where a declaration, a member or the end of a body begins. It changes what
is read there: behind a comment the words `enum` and `table` are keywords and names in one, so a
member of that name is refused, and a declaration whose keyword has no end of its own is too. And a
quote in the comment may close one that an earlier default value begins with. In all other cases the
schema is the same: `parse_insertComment`.
-/

namespace DalSchema

open Lexeme

/-- The text with a comment line at an offset. -/
def insertComment (source : List Char) (k : Nat) (comment : List Char) : List Char :=
  source.take k ++ ('/' :: '/' :: (comment ++ '\n' :: source.drop k))

/-- The word at an offset, as far as it goes, is reserved if a declaration begins there and only
then. -/
def WordKept (source : List Char) (k : Nat) (b : Boundary) : Prop :=
  b = .declaration ↔ Reserved ((source.drop k).takeWhile isIdentChar)

/-- No quote that is open behind a default value before the offset is closed by the other text. -/
def QuotesKept (source other : List Char) (k : Nat) : Prop :=
  ∀ ls, lexemes source = .ok ls → ∀ l ∈ ls, l.start < k → l.terminal = .defaultValue →
    Unquoted (source.drop l.start) → Unquoted (other.drop l.start)

section

variable {source : List Char} (comment : List Char) {k : Nat}

theorem take_insertComment (hk : k ≤ source.length) :
    (insertComment source k comment).take k = source.take k := by
  rw [insertComment, List.take_left']
  exact List.length_take_of_le hk

theorem drop_insertComment (hk : k ≤ source.length) :
    (insertComment source k comment).drop k =
      '/' :: '/' :: (comment ++ '\n' :: source.drop k) := by
  rw [insertComment, List.drop_left']
  exact List.length_take_of_le hk

end

def commentWord (k : Nat) {comment : List Char} (h : '\n' ∉ comment) : Word .comment :=
  ⟨'/' :: '/' :: comment, k, by
    refine Language.append_mem_mul (a := ['/', '/']) rfl (Pattern.mem_one_kstar.mpr fun c hc => ?_)
    have hne : c ≠ '\n' := fun heq => h (heq ▸ hc)
    simpa using hne⟩

/-- A text with a boundary at `k`: the lexeme there and the lexemes before and after it, the readers
that have read up to it and over it, and the place behind a comment before it. -/
structure Split (source : List Char) (b : Boundary) (k : Nat) (ls : List Lexeme) (l : Lexeme)
    (ms : List Lexeme) (q : Place) (a c : Reader) : Prop where
  before : Reader.Reads ⟨.top false, 0, source⟩ ls a
  fits : b.Fits a.place q l.terminal
  step : a.Step l c
  start : l.start = k
  after : c.Completes ms

theorem Written.Cut.split {source : List Char} {parts : List Part} {b : Boundary} {k : Nat}
    {ls ms : List Lexeme} {l : Lexeme} {p q : Place} (cut : Cut parts b k ls l ms p q)
    (h : DalSchema.lexemes source = .ok (lexemes parts)) :
    ∃ a c : Reader, Split source b k ls l ms q a c := by
  obtain ⟨e, hreads, hfinished⟩ := lexemes_eq_ok_iff.mp h
  rw [cut.lexemes_eq] at hreads
  obtain ⟨a, hbefore, htail⟩ := Reader.reads_append_iff.mp hreads
  obtain ⟨c, hstep, hafter⟩ := Reader.reads_cons_iff.mp htail
  have hplace : a.place = p := Option.some.inj (hbefore.follow.symm.trans cut.follow)
  exact ⟨a, c, hbefore, hplace ▸ cut.fits, hstep, cut.start, e, hafter, hfinished⟩

namespace Split

variable {source : List Char} {b : Boundary} {k : Nat} {ls ms : List Lexeme} {l : Lexeme}
  {q : Place} {a c : Reader} (s : Split source b k ls l ms q a c)
include s

theorem lexemes_eq : lexemes source = .ok (ls ++ l :: ms) :=
  lexemes_eq_ok_iff.mpr ((Reader.completes_iff_of_reads s.before).mpr
    ⟨l :: ms, rfl, (Reader.completes_iff_of_step s.step).mpr ⟨ms, rfl, s.after⟩⟩)

theorem rest_eq_drop : a.rest = source.drop a.offset := s.before.rest_eq_drop rfl

theorem drop_eq : source.drop k = l.text ++ c.rest :=
  s.start ▸ (s.step.rest_eq_drop s.rest_eq_drop).1

theorem takes : a.place.Takes l.terminal l.text c.rest := by
  obtain ⟨_, _, _, _, _, htakes, _⟩ := Reader.step_iff.mp s.step
  exact htakes

theorem text_eq : ∃ d tail, l.text = d :: tail ∧ Text.isBlank d = false := by
  obtain ⟨t, ht, hmem, _⟩ := s.takes
  obtain ⟨d, tail, htext, hd⟩ := Terminal.begins_of_mem hmem
  exact ⟨d, tail, htext, Place.not_isBlank_of_begins ht hd⟩

theorem le_length : k ≤ source.length := by
  by_contra hlt
  have hnil := s.drop_eq
  obtain ⟨d, tail, htext, _⟩ := s.text_eq
  rw [List.drop_eq_nil_of_le (Nat.le_of_not_le hlt), htext] at hnil
  cases hnil

theorem ahead : ∃ gap d rest, a.Ahead k gap d rest := by
  refine s.step.ahead s.start.le fun hplace => ?_
  have hnext := s.fits.next_comment
  rw [hplace] at hnext
  cases hnext

theorem mem_of_lt {m : Lexeme} (hm : m ∈ ls ++ l :: ms) (hlt : m.start < k) : m ∈ ls := by
  rcases List.mem_append.mp hm with hm | hm
  · exact hm
  exfalso
  obtain ⟨e, hafter, _⟩ := s.after
  have hstop := s.start ▸ s.step.offsets.2
  rcases List.mem_cons.mp hm with rfl | hm
  · exact hlt.ne s.start
  · have hle := (hafter.offsets.2 m hm).1
    omega

theorem quotesKept_iff {other : List Char} : QuotesKept source other k ↔
    ∀ m ∈ ls, m.terminal = .defaultValue → Unquoted (source.drop m.start) →
      Unquoted (other.drop m.start) := by
  constructor
  · intro h m hm
    obtain ⟨gap, d, rest, hahead⟩ := s.ahead
    have hlt : m.start < k :=
      (s.before.offsets.2 m hm).2.trans_le (Nat.le_of_add_right_le hahead.le)
    exact h _ s.lexemes_eq m (List.mem_append_left _ hm) hlt
  · intro h found hfound m hm hlt
    rw [s.lexemes_eq] at hfound
    cases hfound
    exact h m (s.mem_of_lt hm hlt)

variable {comment : List Char}

/-- If a quote is not kept, a default value takes in the comment. -/
theorem overrun (hquotes : ¬QuotesKept source (insertComment source k comment) k)
    {found : List Lexeme} (h : lexemes (insertComment source k comment) = .ok found) :
    ∃ m ∈ found, m.terminal = .defaultValue ∧ m.start < k ∧ k < m.stop := by
  rw [s.quotesKept_iff] at hquotes
  push Not at hquotes
  obtain ⟨x, c, hreads, m, hm, hover⟩ := s.before.overrun (take_insertComment comment s.le_length)
    (drop_insertComment comment s.le_length) rfl s.ahead hquotes
  obtain ⟨ns, rfl, _⟩ := (Reader.completes_iff_of_reads hreads).mp (lexemes_eq_ok_iff.mp h)
  exact ⟨m, List.mem_append_left _ hm, hover⟩

variable (hcomment : '\n' ∉ comment)
include hcomment

/-- If the quotes are kept, the comment is read where the boundary was. -/
theorem reads_comment (hquotes : QuotesKept source (insertComment source k comment) k) :
    Reader.Reads ⟨.top false, 0, insertComment source k comment⟩
      (ls ++ [(commentWord k hcomment).lexeme])
      ⟨q, (commentWord k hcomment).lexeme.stop, '\n' :: source.drop k⟩ := by
  have htake := take_insertComment comment s.le_length
  have hdrop := drop_insertComment comment s.le_length
  have hbefore := s.before.on htake hdrop rfl s.ahead (s.quotesKept_iff.mp hquotes)
  obtain ⟨gap, hgap, hrest, hstart, _⟩ := Reader.step_iff.mp s.step
  have hk : a.offset + gap.length = k := hstart.symm.trans s.start
  refine Reader.reads_append_iff.mpr ⟨_, hbefore, .cons ?_ (.refl _)⟩
  refine Reader.step_iff.mpr ⟨gap, hgap, ?_, hk.symm, rfl, ?_, s.fits.next_comment⟩
  · rw [Reader.on, drop_of_take_eq htake (s.rest_eq_drop.symm.trans hrest) hk.le, hk, hdrop]
    rfl
  · have htrial : .comment ∈ a.place.trial := by
      have hall : ∀ p ∈ Place.all, (p.next .comment).isSome = true → .comment ∈ p.trial := by
        decide
      exact hall _ a.place.mem_all (by rw [s.fits.next_comment]; rfl)
    refine ⟨.comment, htrial, (commentWord k hcomment).fits, ?_, Place.classify_of_ne (by decide) _⟩
    rintro d ⟨⟩
    rfl

/-- If the word is kept as well, all that follows is read as before. -/
theorem lexemes_insertComment (hquotes : QuotesKept source (insertComment source k comment) k)
    (hword : WordKept source k b) :
    lexemes (insertComment source k comment) = .ok (ls ++
      (commentWord k hcomment).lexeme :: (l :: ms).map (Lexeme.shift (comment.length + 3))) := by
  have hreads := s.reads_comment hcomment hquotes
  obtain ⟨gap, hgap, hrest, hstart, hoffset, htakes, hnext⟩ := Reader.step_iff.mp s.step
  have hfirst : Reader.Step ⟨q, (commentWord k hcomment).lexeme.stop, '\n' :: source.drop k⟩
      (l.shift (comment.length + 3)) (c.shift (comment.length + 3)) := by
    rw [WordKept, s.drop_eq] at hword
    refine Reader.step_iff.mpr ⟨['\n'], by simp [Text.Blank, Text.isBlank], ?_, ?_, ?_,
      s.fits.takes htakes hword, s.fits.next_eq.trans hnext⟩
    · rw [s.drop_eq]
      rfl
    · simp only [Lexeme.shift, s.start, Lexeme.stop, Word.lexeme, commentWord, List.length_cons,
        List.length_nil]
      omega
    · simp only [Lexeme.shift, Reader.shift, hoffset, Lexeme.stop]
      omega
  obtain ⟨e, hafter, hfinished⟩ := s.after
  refine lexemes_eq_ok_iff.mpr ((Reader.completes_iff_of_reads hreads).mpr
    ⟨(l :: ms).map (Lexeme.shift (comment.length + 3)), by simp, ?_⟩)
  exact (Reader.completes_iff_of_step hfirst).mpr ⟨_, rfl, _, hafter.shift _, hfinished⟩

/-- If the quotes are kept and the text has lexemes, the word is kept. -/
theorem wordKept_of_lexemes (hquotes : QuotesKept source (insertComment source k comment) k)
    {found : List Lexeme} (h : lexemes (insertComment source k comment) = .ok found) :
    WordKept source k b := by
  obtain ⟨ns, _, e, hreads, hfinished⟩ := (Reader.completes_iff_of_reads
    (s.reads_comment hcomment hquotes)).mp (lexemes_eq_ok_iff.mp h)
  rw [s.drop_eq] at hreads
  rw [WordKept, s.drop_eq]
  cases hreads with
  | refl =>
    obtain ⟨d, tail, htext, hd⟩ := s.text_eq
    have hblank : Text.isBlank d = true := hfinished.2 d (by simp [htext])
    rw [hd] at hblank
    cases hblank
  | cons head _ => exact s.fits.word_of_step s.takes head

end Split

/-- A comment line where something begins leaves the schema as it is, if the quotes before it and
the word behind it are kept. If the word is not kept, the text is refused. If a quote is not kept,
the comment is none: it is taken into a default value, in case the text is read at all. -/
theorem parse_insertComment {ledger after : Ledger} {source : List Char} {schema : Schema}
    (hparse : ledger.parse source = (.ok schema, after)) {tree : Node}
    (htree : (ledger.parseTree source).1 = .ok tree) {b : Boundary} {k : Nat}
    (hk : tree.Begins k b) {comment : List Char} (hcomment : '\n' ∉ comment) :
    let other := insertComment source k comment
    (QuotesKept source other k → WordKept source k b →
      ledger.parse other = (.ok schema, ledger)) ∧
    (QuotesKept source other k → ¬WordKept source k b →
      ∃ fault reported, ledger.parse other = (.error fault, reported)) ∧
    (¬QuotesKept source other k → ∀ ls, lexemes other = .ok ls →
      ∃ l ∈ ls, l.terminal = .defaultValue ∧ l.start < k ∧ k < l.stop) := by
  obtain ⟨rfl, parts, hlexemes, hnone, rfl⟩ := Ledger.parse_eq_ok_iff.mp hparse
  obtain ⟨_, hls, rfl⟩ := parseTree_eq_ok_iff.mp htree
  rw [hlexemes] at hls
  cases hls
  obtain ⟨ls, l, ms, p, q, hcut⟩ := Written.exists_cut hk
  obtain ⟨a, c, hsplit⟩ := hcut.split hlexemes
  refine ⟨fun hquotes hword => ?_, fun hquotes hword => ?_, fun hquotes found hfound => ?_⟩
  · -- The lexemes are the old ones with a comment between them, those behind it further on.
    have hother := hsplit.lexemes_insertComment hcomment hquotes hword
    obtain ⟨commented, hcommented, hschema⟩ := hcut.insert (commentWord k hcomment)
    rw [← hschema]
    refine after.parse_of_tokens hother ?_ ?_
    · rw [hcommented]
      simp [Lexeme.token, Lexeme.shift]
    · rw [hcut.lexemes_eq, actionFault?_append] at hnone
      rw [hcommented, actionFault?_append, actionFault?_cons _ (by decide), hnone]
  · cases hresult : after.parse (insertComment source k comment) with
    | mk result reported =>
      cases result with
      | error fault => exact ⟨fault, reported, rfl⟩
      | ok schema =>
        obtain ⟨_, _, hother, _⟩ := Ledger.parse_eq_ok_iff.mp hresult
        exact absurd (hsplit.wordKept_of_lexemes hcomment hquotes hother) hword
  · exact hsplit.overrun hquotes hfound

/-- Behind an open quote a comment is harmless unless it closes the quote. -/
theorem parse_insertComment_open_quote :
    let source := "table t\x7ba b[default:'x]\x7d".toList
    let ls : List Lexeme :=
      [⟨.tableWord, "table".toList, 0⟩, ⟨.ident, ['t'], 6⟩, ⟨.leftBrace, ['{'], 7⟩,
        ⟨.ident, ['a'], 8⟩, ⟨.columnType, ['b'], 10⟩, ⟨.leftBracket, ['['], 11⟩,
        ⟨.defaultWord, "default".toList, 12⟩, ⟨.colon, [':'], 19⟩,
        ⟨.defaultValue, "'x".toList, 20⟩, ⟨.rightBracket, [']'], 22⟩, ⟨.rightBrace, ['}'], 23⟩]
    (({} : Ledger).parseTree source).1 = .ok (Node.ofLexemes ls) ∧
      (Node.ofLexemes ls).Begins 23 .closing ∧
      ∃ schema, ({} : Ledger).parse source = (.ok schema, {}) ∧
        ({} : Ledger).parse (insertComment source 23 "c".toList) = (.ok schema, {}) ∧
        ∃ ms, lexemes (insertComment source 23 "']".toList) = .ok ms ∧
          ∃ l ∈ ms, l.terminal = .defaultValue ∧ l.start < 23 ∧ 23 < l.stop := by
  intro source ls
  have hlexemes : lexemes source = .ok ls :=
    scan_of_scanWithin (n := 12) (by decide +kernel +zetaReduce)
  have htree : (({} : Ledger).parseTree source).1 = .ok (Node.ofLexemes ls) :=
    parseTree_eq_ok_iff.mpr ⟨ls, hlexemes, rfl⟩
  have hfirst : (ls.foldl Draft.push .empty).items.reverse.head?.map
      (fun d => (d.category, d.stop)) = some (.declTable, 24) := by decide +kernel +zetaReduce
  obtain ⟨d, hd, heq⟩ := Option.map_eq_some_iff.mp hfirst
  obtain ⟨hcategory, hstop⟩ := Prod.mk.inj heq
  have hk : (Node.ofLexemes ls).Begins 23 .closing :=
    ⟨d, ⟨⟨_, rfl, List.mem_of_head? hd⟩, .inr hcategory⟩, hstop⟩
  obtain ⟨parts, hparts⟩ := lexemes_eq_written hlexemes
  have hnone : actionFault? ls = none := by decide +kernel +zetaReduce
  have hparse : ({} : Ledger).parse source = (.ok (Written.schema parts), {}) :=
    Ledger.parse_eq_ok_iff.mpr ⟨rfl, parts, hparts ▸ hlexemes, hparts ▸ hnone, rfl⟩
  have hkept : QuotesKept source (insertComment source 23 "c".toList) 23 := by
    intro found hfound
    rw [hlexemes] at hfound
    cases hfound
    decide +kernel +zetaReduce
  have hword : WordKept source 23 .closing := by
    refine iff_of_false nofun ?_
    rintro ⟨kind, hkind⟩
    rcases mem_word_iff.mp hkind with ⟨_, heq⟩ | ⟨_, heq⟩ <;> cases heq
  have hopen : ¬QuotesKept source (insertComment source 23 "']".toList) 23 := by
    intro h
    have hclosed := h ls hlexemes ⟨.defaultValue, "'x".toList, 20⟩
    revert hclosed
    decide +kernel +zetaReduce
  have hother : lexemes (insertComment source 23 "']".toList) = .ok (ls.take 8 ++
      [⟨.defaultValue, "'x]//'".toList, 20⟩, ⟨.rightBracket, [']'], 26⟩,
        ⟨.rightBrace, ['}'], 28⟩]) :=
    scan_of_scanWithin (n := 12) (by decide +kernel +zetaReduce)
  obtain ⟨hsame, _, _⟩ := parse_insertComment hparse htree hk (by decide : '\n' ∉ "c".toList)
  obtain ⟨_, _, hover⟩ := parse_insertComment hparse htree hk (by decide : '\n' ∉ "']".toList)
  exact ⟨htree, hk, _, hparse, hsame hkept hword, _, hother, hover hopen _ hother⟩

/-- A variant may be named `table`, but not behind a comment. -/
theorem parse_insertComment_reserved_variant :
    let source := "enum E\x7btable\x7d".toList
    ({} : Ledger).parse source = (.ok ⟨[.enum ⟨"E", false, ["table"]⟩]⟩, {}) ∧
      (∃ tree, (({} : Ledger).parseTree source).1 = .ok tree ∧ tree.Begins 7 .member) ∧
      ∃ fault reported,
        ({} : Ledger).parse (insertComment source 7 []) = (.error fault, reported) := by
  intro source
  let variant : Word .ident :=
    ⟨"table".toList, 7, mem_identifier_of_word (mem_word_iff.mpr (.inr ⟨rfl, rfl⟩))⟩
  let d : Written.Declaration .enum :=
    { word := ⟨"enum".toList, 0, rfl⟩
      name := ⟨['E'], 5, Pattern.mem_run.mpr ⟨'E', [], rfl, by decide, nofun⟩⟩
      mark := none
      opening := ⟨['{'], 6, rfl⟩
      members := [.entry variant]
      closing := ⟨['}'], 12, rfl⟩ }
  have hlexemes : lexemes source = .ok (Written.lexemes [.declaration .enum d]) :=
    scan_of_scanWithin (n := 6) (by decide +kernel +zetaReduce)
  have hother : lexemes (insertComment source 7 []) =
      .error (.token "table".toList 10 [.ident, .comment, .rightBrace]) :=
    scan_of_scanWithin (n := 6) (by decide +kernel +zetaReduce)
  refine ⟨?_, ⟨_, parseTree_eq_ok_iff.mpr ⟨_, hlexemes, rfl⟩, ?_⟩, ?_⟩
  · exact Ledger.parse_eq_ok_iff.mpr ⟨rfl, _, hlexemes, by decide +kernel +zetaReduce, rfl⟩
  · rw [Written.ofLexemes_lexemes]
    exact ⟨d.node, ⟨⟨_, rfl, List.mem_cons_self⟩, .inl rfl⟩, _, rfl, _,
      List.mem_cons_of_mem _ List.mem_cons_self, .inl rfl, rfl⟩
  · exact ⟨_, _, Ledger.parse_of_error _ hother⟩

end DalSchema
