import DalSchema.Proofs.Completing
import DalSchema.Proofs.Outline

/-!
# What is expected where reading stops

A rejection lists terminals as expected: those the place allows if something that is tried there
matches, otherwise all that are tried. Behind a name and behind a comment more is tried than the
place allows, and there the list is too long. Each terminal in it with which the place goes on can
follow on a new line, and the others cannot: `parseTree_expected`.
-/

namespace DalSchema

open Lexeme Pattern

namespace Terminal

theorem describe_injective : Function.Injective describe := by
  have hall : ∀ t ∈ all, ∀ u ∈ all, t.describe = u.describe → t = u := by decide +kernel
  intro t u
  exact hall t t.mem_all u u.mem_all

theorem mem_describeAll_iff {t : Terminal} {ts : List Terminal} :
    t.describe ∈ describeAll ts ↔ t ∈ ts := by
  rw [describeAll, sortedTexts, List.mem_mergeSort, List.mem_eraseDups]
  exact List.mem_map_of_injective describe_injective

end Terminal

/-- The terminals that a rejection lists. -/
def Rejection.expected : Rejection → List Terminal
  | endOfInput _ expected | token _ _ expected | character _ _ expected => expected

namespace Place

/-- The place goes on with the terminal. Where words are reserved it also goes on with what could be
a name, since that may be one of the words. -/
def Continues (q : Place) (t : Terminal) : Prop :=
  (q.next t).isSome = true ∨ q.reservesWords = true ∧ t = .ident

instance (q : Place) (t : Terminal) : Decidable (q.Continues t) :=
  inferInstanceAs (Decidable (_ ∨ _))

/-- A text of the terminal with which the place goes on. -/
def sample : Place → Terminal → List Char
  | top _, .ident => ['e', 'n', 'u', 'm']
  | _, .ident | _, .columnType | _, .action => ['a']
  | _, .defaultValue => ['0']
  | _, .comment => ['/', '/']
  | _, t => (t.literal?.getD "").toList

/-- What completes a schema text behind the sample. -/
def afterSample (q : Place) (t : Terminal) : List Char :=
  ((q.next (q.classify t (q.sample t))).map endingLine).getD []

def sampleLine (q : Place) (t : Terminal) : List Char := '\n' :: (q.sample t ++ q.afterSample t)

theorem sample_mem {q : Place} {t : Terminal} (h : q.Continues t) : q.sample t ∈ t.language := by
  have hall : ∀ q ∈ all, ∀ t ∈ Terminal.all, q.Continues t →
      t.lex? (q.sample t) = some (q.sample t, []) := by decide +kernel
  exact (Terminal.lex?_eq_some_iff.mp (hall q q.mem_all t t.mem_all h)).2.1

theorem harmless_sampleLine (q : Place) (t : Terminal) : Harmless (q.sampleLine t) := by
  have hall : ∀ q ∈ all, ∀ t ∈ Terminal.all,
      '\x27' ∉ q.sampleLine t ∧ '"' ∉ q.sampleLine t := by decide +kernel
  exact .newLine (hall q q.mem_all t t.mem_all)

theorem exists_completes_sampleLine {q : Place} {t : Terminal} (h : q.Continues t) (offset : Nat) :
    ∃ ls, Reader.Completes ⟨q, offset, q.sampleLine t⟩ ls := by
  have hall : ∀ q ∈ all, ∀ t ∈ Terminal.all, q.Continues t →
      (scanWithin 12 q 0 (q.sampleLine t)).any Except.isOk = true := by decide +kernel
  exact Reader.exists_completes_of_scanWithin (hall q q.mem_all t t.mem_all h) offset

/-- If a text of a terminal that is tried begins the rest, then the place goes on with it. -/
theorem continues_of_completes {q : Place} {t : Terminal} (ht : t ∈ q.trial) {x text : List Char}
    (hx : x ∈ t.language) {offset : Nat} {ms : List Lexeme}
    (h : Reader.Completes ⟨q, offset, '\n' :: (x ++ text)⟩ ms) : q.Continues t := by
  obtain ⟨b, hreads, hfinished⟩ := h
  cases hreads with
  | refl =>
    obtain ⟨c, tail, rfl, hc⟩ := Terminal.begins_of_mem hx
    have hblank := hfinished.2 c (by simp)
    rw [not_isBlank_of_begins ht hc] at hblank
    cases hblank
  | @cons _ b _ l _ head _ =>
    obtain ⟨_, _, _, hclass⟩ := head.newLine ht hx
    obtain ⟨_, _, _, _, _, _, hnext⟩ := Reader.step_iff.mp head
    -- Only a name may have been read as something else.
    by_cases hident : q.reservesWords = true ∧ t = .ident
    · exact .inr hident
    · have hterminal : q.classify t l.text = t := by
        rw [classify, if_neg]
        simpa using hident
      rw [← hclass, hterminal] at hnext
      exact .inl (by simp [hnext])

/-- A terminal that is tried where the place does not go on with it is one that follows names or
comments elsewhere. -/
theorem next_of_not_continues {p q : Place} {u : Terminal} (hnext : p.next u = some q)
    {t : Terminal} (ht : t ∈ q.trial) (h : ¬q.Continues t) : u = .ident ∨ u = .comment := by
  have hall : ∀ p ∈ all, ∀ u ∈ Terminal.all, ∀ q ∈ p.next u, ∀ t ∈ q.trial, ¬q.Continues t →
      u = .ident ∨ u = .comment := by decide +kernel
  exact hall p p.mem_all u u.mem_all q hnext t ht h

theorem Refuses.expected_eq {q : Place} {start : Nat} {cs : List Char} {r : Rejection}
    (h : q.Refuses start cs r) : r.expected = q.trial ∨ r.expected = q.allowed := by
  cases h with
  | ended _ => exact .inl rfl
  | unmatched _ _ =>
    rw [reject]
    split <;> exact .inl rfl
  | disallowed _ _ => exact .inr rfl

theorem continues_of_mem_allowed {q : Place} {t : Terminal} (ht : t ≠ .endOfInput)
    (h : t ∈ q.allowed) : q.Continues t := by
  have hnext := (List.mem_filter.mp h).2
  simp only [ht, Bool.or_eq_true, Bool.and_eq_true, beq_iff_eq, and_false, or_false] at hnext
  exact .inl hnext

end Place

/-- Some text of the terminal can stand on a new line behind the first `k` characters: a complete
text goes on with it there. -/
def CanFollow (source : List Char) (k : Nat) (t : Terminal) : Prop :=
  ∃ x ∈ t.language, ∃ text tree,
    (({} : Ledger).parseTree (source.take k ++ '\n' :: (x ++ text))).1 = .ok tree

/-- Each default value that begins with a quote is in quotes. -/
def Sealed (ls : List Lexeme) : Prop :=
  ∀ l ∈ ls, l.terminal = .defaultValue → Outline.IsLiteral l.text

/-- A sealed default value has no open quote that a later text could close. -/
theorem Outline.IsLiteral.unquoted_drop {source text : List Char} {n : Nat}
    (h : IsLiteral text) (htext : text <+: source.drop n) (hopen : Unquoted (source.drop n))
    {k : Nat} (hk : k ≤ source.length) (hn : n < k) (tail : List Char) :
    Unquoted ((source.take k ++ tail).drop n) := by
  obtain ⟨rest, hrest⟩ := htext
  rcases h with ⟨quote, hquote, hquoted⟩ | ⟨hbare, hfirst⟩
  · have hsome := (quoted?_eq_some_iff hquote.ne_backslash).mpr ⟨hrest.symm, hquoted⟩
    rw [hopen quote hquote] at hsome
    cases hsome
  · obtain ⟨c, more, rfl, _⟩ := mem_run.mp hbare
    obtain ⟨m, hm⟩ : ∃ m, k - n = m + 1 := ⟨k - n - 1, by omega⟩
    rw [drop_cut tail hk hn.le, ← hrest, hm]
    exact unquoted_of_first hfirst

namespace Reader

theorem Gap.le_start {a b : Reader} {k : Nat} {gap : List Char} (h : a.Gap k gap) {l : Lexeme}
    (hstep : a.Step l b) : k ≤ l.start := by
  obtain ⟨between, _, hrest, hstart, _, ⟨t, ht, hmem, _, _⟩, _⟩ := step_iff.mp hstep
  obtain ⟨c, tail, htext, hc⟩ := Terminal.begins_of_mem hmem
  have hgap := h.offset_eq
  by_contra hlt
  -- The first character of the lexeme would be one of the blanks.
  have hfront : between ++ [c] <+: gap := by
    refine List.prefix_of_prefix_length_le ?_ h.ahead ?_
    · rw [hrest, htext]
      simp
    · rw [List.length_append, List.length_singleton]
      omega
  have hblank := h.blank c (hfront.subset (by simp))
  rw [Place.not_isBlank_of_begins ht hc] at hblank
  cases hblank

theorem Reads.unique_of_gap {a b c : Reader} {ls ms : List Lexeme} {k : Nat}
    {gap gap' : List Char} (hb : a.Reads ls b) (hgap : b.Gap k gap) (hc : a.Reads ms c)
    (hgap' : c.Gap k gap') : ls = ms ∧ b = c := by
  induction hb generalizing ms with
  | refl =>
    cases hc with
    | refl => exact ⟨rfl, rfl⟩
    | cons head tail =>
      have hstart := hgap.le_start head
      have hstop := head.offsets.2
      have hle := tail.offsets.1
      have hoffset := hgap'.offset_eq
      omega
  | cons head tail ih =>
    cases hc with
    | refl =>
      have hstart := hgap'.le_start head
      have hstop := head.offsets.2
      have hle := tail.offsets.1
      have hoffset := hgap.offset_eq
      omega
    | cons head' tail' =>
      obtain ⟨rfl, rfl⟩ := head.unique head'
      obtain ⟨rfl, rfl⟩ := ih hgap tail'
      exact ⟨rfl, rfl⟩

end Reader

namespace Reaches

variable {source : List Char} {k : Nat} {ls : List Lexeme} {q : Place} {t : Terminal}

theorem unique {ms : List Lexeme} {p : Place} (h : Reaches source k ls q)
    (hother : Reaches source k ms p) : ls = ms ∧ q = p := by
  obtain ⟨_, _, _, hreads, hgap⟩ := h
  obtain ⟨_, _, _, hreads', hgap'⟩ := hother
  obtain ⟨hls, hreader⟩ := hreads.unique_of_gap hgap hreads' hgap'
  exact ⟨hls, congrArg Reader.place hreader⟩

theorem canFollow (h : Reaches source k ls q) (ht : q.Continues t) : CanFollow source k t := by
  obtain ⟨ms, hms⟩ := q.exists_completes_sampleLine ht k
  have hlexemes := h.lexemes_of_harmless (q.harmless_sampleLine t) hms
  exact ⟨q.sample t, Place.sample_mem ht, q.afterSample t, _,
    parseTree_eq_ok_iff.mpr ⟨_, hlexemes, rfl⟩⟩

theorem continues_of_canFollow (h : Reaches source k ls q) (hsealed : Sealed ls)
    (ht : t ∈ q.trial) (hfollow : CanFollow source k t) : q.Continues t := by
  obtain ⟨x, hx, text, tree, htree⟩ := hfollow
  obtain ⟨found, hfound, _⟩ := parseTree_eq_ok_iff.mp htree
  have hline : OnNewLine ('\n' :: (x ++ text)) := by
    rintro c ⟨⟩
    rfl
  have hquotes : ∀ l ∈ ls, l.terminal = .defaultValue → Unquoted (source.drop l.start) →
      Unquoted ((source.take k ++ '\n' :: (x ++ text)).drop l.start) := by
    intro l hl hdefault hopen
    have hle := h.le_length
    obtain ⟨_, _, _, hreads, hgap⟩ := h
    have hlt : l.start < k := by
      have hstart := (hreads.offsets.2 l hl).2
      have hoffset := hgap.offset_eq
      omega
    exact (hsealed l hl hdefault).unquoted_drop (hreads.text_isPrefix rfl l hl) hopen hle hlt _
  obtain ⟨ms, _, hms⟩ := (h.lexemes_take_append_iff hline hquotes).mp hfound
  exact Place.continues_of_completes ht hx hms

/-- The list is too long only right behind a name or a comment. -/
theorem last_of_not_continues (h : Reaches source k ls q) (ht : t ∈ q.trial)
    (hnot : ¬q.Continues t) :
    ∃ l, ls.getLast? = some l ∧ (l.terminal = .ident ∨ l.terminal = .comment) := by
  obtain ⟨_, _, _, hreads, _⟩ := h
  have hfollow : (Place.top false).follow ls = some q := hreads.follow
  rcases List.eq_nil_or_concat' ls with rfl | ⟨before, l, rfl⟩
  · cases hfollow
    have hall : ∀ t ∈ (Place.top false).trial, (Place.top false).Continues t := by decide
    exact absurd (hall t ht) hnot
  · rw [Place.follow_append, Option.bind_eq_some_iff] at hfollow
    obtain ⟨p, _, hlast⟩ := hfollow
    obtain ⟨q', hnext, hq⟩ := Option.bind_eq_some_iff.mp hlast
    cases hq
    exact ⟨l, List.getLast?_concat, Place.next_of_not_continues hnext ht hnot⟩

end Reaches

/-- A terminal that is listed before the end of the text can follow if the place that was reached
goes on with it. Otherwise it is listed right behind a name or a comment, where nothing that is
tried there matches, and it cannot follow, unless by closing a quote that is open before. -/
theorem parseTree_expected {ledger after : Ledger} {source : List Char} {r : Rejection}
    (h : ledger.parseTree source = (.error r, after)) (hr : r.problem source ≠ .endOfStream) :
    ∃ (d : Diagnostic) (label : Label) (found : String) (p : Nat) (ls : List Lexeme) (q : Place),
      after = { ledger with entries := ledger.entries ++ [d] } ∧ d.labels = [label] ∧
      label.note = "expected " ++ expectedPhrase r.expected ++ found ∧ label.span.start = p ∧
      Reaches source p ls q ∧
      (∀ t, t ≠ .endOfInput → t.describe ∈ Terminal.describeAll r.expected →
        (q.Continues t → CanFollow source p t) ∧
        (¬q.Continues t →
          r.expected = q.trial ∧
          (∃ l, ls.getLast? = some l ∧ (l.terminal = .ident ∨ l.terminal = .comment)) ∧
          (Sealed ls → ¬CanFollow source p t))) ∧
      (q.reservesWords = false → ∀ t, (q.next t).isSome = true →
        t.describe ∈ Terminal.describeAll r.expected) := by
  obtain ⟨hlexemes, rfl⟩ := parseTree_eq_error_iff.mp h
  obtain ⟨ls, q, hreaches, hrefuses⟩ := reaches_of_error hlexemes
  obtain ⟨found, hnote⟩ : ∃ found,
      r.notice.note = "expected " ++ expectedPhrase r.expected ++ found := by
    cases r with
    | endOfInput _ _ => exact absurd rfl hr
    | token text _ _ =>
      exact ⟨", found `" ++ String.ofList text ++ "`",
        by simp only [Rejection.notice, Rejection.expected, String.append_assoc]⟩
    | character _ _ _ => exact ⟨"", String.append_empty.symm⟩
  refine ⟨_, _, found, r.offset, ls, q, rfl, rfl, hnote, r.start_notice, hreaches, ?_, ?_⟩
  · intro t hend ht
    rw [Terminal.mem_describeAll_iff] at ht
    refine ⟨hreaches.canFollow, fun hnot => ?_⟩
    rcases hrefuses.expected_eq with htrial | hallowed
    · rw [htrial] at ht
      exact ⟨htrial, hreaches.last_of_not_continues ht hnot,
        fun hsealed hfollow => hnot (hreaches.continues_of_canFollow hsealed ht hfollow)⟩
    · rw [hallowed] at ht
      exact absurd (Place.continues_of_mem_allowed hend ht) hnot
  · intro hwords t hsome
    obtain ⟨next, hnext⟩ := Option.isSome_iff_exists.mp hsome
    rw [Terminal.mem_describeAll_iff]
    rcases hrefuses.expected_eq with htrial | hallowed
    · rw [htrial]
      exact Place.mem_trial_of_next hwords hnext
    · rw [hallowed]
      exact Place.mem_allowed_of_next hnext

/-- Between declarations a comment may be followed by what could be a name, but not by a brace. -/
theorem parseTree_expected_behind_comment :
    let source := "// c\n@".toList
    ∃ r d, ({} : Ledger).parseTree source = (.error r, { entries := [d] }) ∧
      r.problem source ≠ .endOfStream ∧ d.labels.map Label.span = [⟨5, 6⟩] ∧
      Terminal.ident.describe ∈ Terminal.describeAll r.expected ∧ CanFollow source 5 .ident ∧
      Terminal.rightBrace.describe ∈ Terminal.describeAll r.expected ∧
      ¬CanFollow source 5 .rightBrace := by
  intro source
  have hlexemes : lexemes source = .error (.token ['@'] 5 (Place.top true).trial) :=
    scan_of_scanWithin (n := 2) (by decide +kernel +zetaReduce)
  have hparse : ({} : Ledger).parseTree source = (.error _, _) :=
    parseTree_eq_error_iff.mpr ⟨hlexemes, rfl⟩
  have hproblem : Rejection.problem source (.token ['@'] 5 (Place.top true).trial) ≠
      .endOfStream := by
    rintro ⟨⟩
  have hreaches : Reaches source 5 [⟨.comment, "// c".toList, 0⟩] (.top true) := by
    refine ⟨4, ['\n', '@'], ['\n'], .cons ⟨by decide +kernel +zetaReduce, rfl⟩ (.refl _), ?_, ?_,
      rfl⟩
    · simp [Text.Blank, Text.isBlank]
    · exact ⟨['@'], rfl⟩
  obtain ⟨d, label, found, p, ls, q, hafter, hlabels, _, hstart, hq, hlisted, _⟩ :=
    parseTree_expected hparse hproblem
  have hd : ({} : Ledger).entry .error (Rejection.notice (.token ['@'] 5 _)) = d :=
    List.singleton_inj.mp (congrArg Ledger.entries hafter)
  subst hd
  cases hlabels
  have hp : p = 5 := (Int.natCast_inj.mp hstart).symm
  subst hp
  obtain ⟨rfl, rfl⟩ := hq.unique hreaches
  have hident : Terminal.ident.describe ∈ Terminal.describeAll (Place.top true).trial :=
    Terminal.mem_describeAll_iff.mpr (by decide)
  have hbrace : Terminal.rightBrace.describe ∈ Terminal.describeAll (Place.top true).trial :=
    Terminal.mem_describeAll_iff.mpr (by decide)
  have hsealed : Sealed [⟨.comment, "// c".toList, 0⟩] := by simp [Sealed]
  refine ⟨_, _, hparse, hproblem, rfl, hident, ?_, hbrace, ?_⟩
  · exact (hlisted _ (by decide) hident).1 (by decide)
  · exact ((hlisted _ (by decide) hbrace).2 (by decide)).2.2 hsealed

/-- Behind the name of an enum a bracket is listed, and there is no text that goes on with one. -/
theorem listed_paren_not_canFollow :
    let source := "enum A @".toList
    ∃ r d, ({} : Ledger).parseTree source = (.error r, { entries := [d] }) ∧
      r.problem source = .unexpectedPair "@" ⟨7, 8⟩ ∧
      d.labels.map (fun label => (label.span, label.note)) =
        [(⟨7, 8⟩, "expected " ++ expectedPhrase r.expected ++ ", found `" ++ "@" ++ "`")] ∧
      Terminal.leftParen.describe ∈ Terminal.describeAll r.expected ∧
      ¬CanFollow source 7 .leftParen := by
  intro source
  have hlexemes : lexemes source = .error (.token ['@'] 7 (Place.declHead .enum).trial) :=
    scan_of_scanWithin (n := 3) (by decide +kernel +zetaReduce)
  have hreaches : Reaches source 7 [⟨.enumWord, "enum".toList, 0⟩, ⟨.ident, ['A'], 5⟩]
      (.declHead .enum) := by
    refine ⟨6, [' ', '@'], [' '], .cons (b := ⟨.declName .enum, 4, " A @".toList⟩) ?_
      (.cons ?_ (.refl _)), ?_, ?_, rfl⟩
    · exact ⟨by decide +kernel +zetaReduce, rfl⟩
    · exact ⟨by decide +kernel +zetaReduce, rfl⟩
    · simp [Text.Blank, Text.isBlank]
    · exact ⟨['@'], rfl⟩
  have hsealed : Sealed [⟨.enumWord, "enum".toList, 0⟩, ⟨.ident, ['A'], 5⟩] := by simp [Sealed]
  have hlisted : Terminal.leftParen.describe ∈ Terminal.describeAll (Place.declHead .enum).trial :=
    Terminal.mem_describeAll_iff.mpr (by decide)
  refine ⟨_, _, parseTree_eq_error_iff.mpr ⟨hlexemes, rfl⟩, rfl, rfl, hlisted, ?_⟩
  intro hfollow
  have hcontinues := hreaches.continues_of_canFollow hsealed (by decide) hfollow
  revert hcontinues
  decide

end DalSchema
