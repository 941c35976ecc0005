import DalSchema.Proofs.Scanning

/-!
# Reading two texts that begin alike

Two texts that agree up to some offset are read alike up to there, if at that offset a lexeme begins
in the one and a slash in the other. There is one exception: a default value that begins with a
quote is a different one if the quote is closed in only one of the texts, however far behind the
offset. Behind the offset, what is read does not depend on where it stands.
-/

namespace DalSchema

open Lexeme Pattern

theorem Lexeme.Clear.replace {p : Char → Bool} {gap rest rest' : List Char} {c d : Char}
    (h : Clear p (gap ++ c :: rest)) (hd : d = c ∨ p d = false) : Clear p (gap ++ d :: rest') := by
  cases gap with
  | nil =>
    rintro e ⟨⟩
    rcases hd with rfl | hd
    · exact h d rfl
    · exact hd
  | cons e gap =>
    rintro e ⟨⟩
    exact h e rfl

/-- A text still ends where it did if what follows, up to the first character that is no blank, is
the same or that character becomes a slash. -/
theorem Terminal.Ends.replace {t : Terminal} {text gap rest rest' : List Char} {c d : Char}
    (h : t.Ends text (gap ++ c :: rest)) (hgap : Text.Blank gap) (hc : Text.isBlank c = false)
    (hd : d = c ∨ d = '/' ∧ t ≠ .defaultValue) (hparen : t = .columnType → d ≠ '(')
    (hquotes : t = .defaultValue → Unquoted (text ++ (gap ++ c :: rest)) →
      Unquoted (text ++ (gap ++ d :: rest'))) :
    t.Ends text (gap ++ d :: rest') := by
  have hslash : ∀ p : Char → Bool, p '/' = false → d = c ∨ p d = false := fun p hp =>
    hd.imp_right fun hd => by rw [hd.1, hp]
  cases t
  case ident => exact Clear.replace h (hslash _ (by decide))
  case columnType =>
    intro htext
    refine ⟨(h htext).1.replace (hslash _ (by decide)), group?_of_ne ?_⟩
    cases gap with
    | nil =>
      rintro e ⟨⟩
      exact hparen rfl
    | cons e gap =>
      rintro f ⟨⟩ rfl
      exact absurd (hgap '(' List.mem_cons_self) (by decide)
  case defaultValue =>
    have heq : d = c := hd.resolve_right fun hd => hd.2 rfl
    refine h.imp_right fun hbare => ?_
    exact ⟨hbare.1.replace (.inl heq), hquotes rfl hbare.2⟩
  case action =>
    cases gap with
    | nil =>
      have hletter := (phraseTail_eq_nil_iff.mp h).1
      have hspace : d ≠ ' ' := by
        rintro rfl
        rcases hd with rfl | ⟨hd, _⟩
        · exact absurd hc (by decide)
        · exact absurd hd (by decide)
      refine phraseTail_eq_nil_iff.mpr ⟨?_, fun heq => absurd heq hspace⟩
      rcases hslash isIdentStart (by decide) with rfl | hd
      · exact hletter
      · exact hd
    | cons e gap =>
      obtain ⟨he, hnext⟩ := phraseTail_eq_nil_iff.mp h
      refine phraseTail_eq_nil_iff.mpr ⟨he, fun hspace => ?_⟩
      exact Clear.replace (hnext hspace) (hslash isIdentStart (by decide))
  case comment =>
    cases gap with
    | nil =>
      -- The comment would end at a character that is no line feed.
      have hline : c = '\n' := by simpa using h c rfl
      subst hline
      exact absurd hc (by decide)
    | cons e gap =>
      rintro f ⟨⟩
      exact h e rfl
  case blanks => exact Clear.replace h (hslash _ (by decide))
  all_goals exact trivial

theorem Place.classify_of_ne {p : Place} {t : Terminal} (ht : t ≠ .ident) (text : List Char) :
    p.classify t text = t := by
  rw [classify, if_neg]
  simp [ht]

theorem Place.next_defaultValue {p q : Place} (h : p.next .defaultValue = some q) :
    p = .defaultValue ∧ q = .afterModifier := by
  cases p <;> cases h
  exact ⟨rfl, rfl⟩

theorem Place.next_columnType {p q : Place} (h : p.next .columnType = some q) : q = .afterType := by
  cases p <;> cases h
  rfl

/-- Texts that agree up to `k` hold the same characters before it. -/
theorem drop_of_take_eq {source other word rest : List Char} {k n : Nat}
    (htake : other.take k = source.take k) (h : source.drop n = word ++ rest)
    (hk : n + word.length ≤ k) : other.drop n = word ++ other.drop (n + word.length) := by
  have hsame : other.take (n + word.length) = source.take (n + word.length) := by
    have htakes := congrArg (List.take (n + word.length)) htake
    rwa [List.take_take, List.take_take, Nat.min_eq_left hk] at htakes
  have hword : (other.drop n).take word.length = word := by
    rw [List.take_drop, hsame, ← List.take_drop, h, List.take_left]
  rw [← List.drop_drop]
  nth_rewrite 1 [← List.take_append_drop word.length (other.drop n)]
  rw [hword]

def Lexeme.shift (n : Nat) (l : Lexeme) : Lexeme := { l with start := l.start + n }

namespace Reader

/-- The same place at the same offset of another text. -/
def on (a : Reader) (source : List Char) : Reader := ⟨a.place, a.offset, source.drop a.offset⟩

/-- A lexeme begins at `k` or before. Where it may not be at `k`, and where it may not begin with a
bracket, is known from the place. -/
structure Ahead (a : Reader) (k : Nat) (gap : List Char) (c : Char) (rest : List Char) : Prop where
  rest_eq : a.rest = gap ++ c :: rest
  blank : Text.Blank gap
  not_blank : Text.isBlank c = false
  le : a.offset + gap.length ≤ k
  lt : a.place = .afterModifier → a.offset + gap.length < k
  ne_paren : a.place = .afterType → c ≠ '('

theorem Step.offsets {a b : Reader} {l : Lexeme} (h : a.Step l b) :
    a.offset ≤ l.start ∧ l.start < b.offset := by
  obtain ⟨gap, _, _, hstart, hoffset, htakes, _⟩ := step_iff.mp h
  obtain ⟨c, text, htext, _⟩ := Terminal.begins_of_mem htakes.mem_language
  rw [hoffset, Lexeme.stop, htext, List.length_cons]
  omega

theorem Step.ahead {a b : Reader} {l : Lexeme} (h : a.Step l b) {k : Nat} (hle : l.start ≤ k)
    (hlt : a.place = .afterModifier → l.start < k) : ∃ gap c rest, a.Ahead k gap c rest := by
  obtain ⟨gap, hgap, hrest, hstart, _, ⟨t, ht, hmem, _, _⟩, _⟩ := step_iff.mp h
  obtain ⟨c, tail, htext, hc⟩ := Terminal.begins_of_mem hmem
  refine ⟨gap, c, tail ++ b.rest, ?_, hgap, Place.not_isBlank_of_begins ht hc, hstart ▸ hle,
    hstart ▸ hlt, ?_⟩
  · rw [hrest, htext]
    rfl
  · rintro hplace rfl
    have hall : ∀ u ∈ Place.afterType.trial, u.begins '(' = false := by decide
    rw [hplace] at ht
    rw [hall t ht] at hc
    cases hc

theorem Step.rest_eq_drop {source : List Char} {a b : Reader} {l : Lexeme} (h : a.Step l b)
    (ha : a.rest = source.drop a.offset) :
    source.drop l.start = l.text ++ b.rest ∧ b.rest = source.drop b.offset := by
  obtain ⟨gap, _, hrest, hstart, hoffset, _⟩ := step_iff.mp h
  have hl : source.drop l.start = l.text ++ b.rest := by
    rw [hstart, ← List.drop_drop, ← ha, hrest, List.drop_left]
  refine ⟨hl, ?_⟩
  rw [hoffset, Lexeme.stop, ← List.drop_drop, hl, List.drop_left]

theorem Reads.rest_eq_drop {source : List Char} {a b : Reader} {ls : List Lexeme}
    (h : a.Reads ls b) (ha : a.rest = source.drop a.offset) : b.rest = source.drop b.offset := by
  induction h with
  | refl => exact ha
  | cons head _ ih => exact ih (head.rest_eq_drop ha).2

/-- A lexeme that is read stands in the text where it says. -/
theorem Reads.text_isPrefix {source : List Char} {a b : Reader} {ls : List Lexeme}
    (h : a.Reads ls b) (ha : a.rest = source.drop a.offset) :
    ∀ l ∈ ls, l.text <+: source.drop l.start := by
  induction h with
  | refl => exact nofun
  | cons head _ ih =>
    obtain ⟨hl, hrest⟩ := head.rest_eq_drop ha
    refine List.forall_mem_cons.mpr ⟨?_, ih hrest⟩
    rw [hl]
    exact List.prefix_append _ _

/-- What is ahead is the same in a text that agrees up to `k`, or it is the slash. -/
theorem Ahead.drop_eq {source other : List Char} {k : Nat} (htake : other.take k = source.take k)
    {tail : List Char} (hslash : other.drop k = '/' :: tail) {a : Reader} {gap : List Char}
    {c : Char} {rest : List Char} (h : a.Ahead k gap c rest)
    (ha : a.rest = source.drop a.offset) :
    ∃ d rest', other.drop a.offset = gap ++ d :: rest' ∧
      (d = c ∨ d = '/' ∧ a.offset + gap.length = k) := by
  have hold : source.drop a.offset = gap ++ c :: rest := ha.symm.trans h.rest_eq
  rcases h.le.lt_or_eq with hlt | heq
  · have hword : source.drop a.offset = (gap ++ [c]) ++ rest := by rw [hold]; simp
    have hnew := drop_of_take_eq htake hword (by rw [List.length_append]; exact hlt)
    rw [List.append_assoc, List.singleton_append] at hnew
    exact ⟨c, _, hnew, .inl rfl⟩
  · have hnew := drop_of_take_eq htake hold h.le
    rw [heq, hslash] at hnew
    exact ⟨'/', tail, hnew, .inr ⟨rfl, heq⟩⟩

theorem Step.on {source other : List Char} {k : Nat} (htake : other.take k = source.take k)
    {tail : List Char} (hslash : other.drop k = '/' :: tail) {a b : Reader} {l : Lexeme}
    (h : a.Step l b) (ha : a.rest = source.drop a.offset) {gap : List Char} {c : Char}
    {rest : List Char} (hb : b.Ahead k gap c rest)
    (hquotes : l.terminal = .defaultValue → Unquoted (source.drop l.start) →
      Unquoted (other.drop l.start)) :
    (a.on other).Step l (b.on other) := by
  obtain ⟨hl, hbrest⟩ := h.rest_eq_drop ha
  obtain ⟨before, hbefore, hrest, hstart, hoffset, ⟨t, ht, hmem, hends, hclass⟩, hnext⟩ :=
    step_iff.mp h
  obtain ⟨d, rest', hother, hd⟩ := hb.drop_eq htake hslash hbrest
  have hlstop : l.stop ≤ k := by
    have hle := hb.le
    omega
  have hlother : other.drop l.start = l.text ++ other.drop b.offset := by
    rw [hoffset]
    exact drop_of_take_eq htake hl hlstop
  have hterminal : t ≠ .ident → l.terminal = t := fun hne =>
    hclass.symm.trans (Place.classify_of_ne hne l.text)
  have hnew : t.Ends l.text (other.drop b.offset) := by
    rw [hb.rest_eq] at hends
    rw [hother]
    refine hends.replace hb.blank hb.not_blank ?_ ?_ ?_
    · refine hd.imp_right fun hd => ⟨hd.1, ?_⟩
      rintro rfl
      rw [hterminal (by decide)] at hnext
      exact (hb.lt (Place.next_defaultValue hnext).2).ne hd.2
    · rintro rfl
      rw [hterminal (by decide)] at hnext
      rcases hd with rfl | ⟨rfl, _⟩
      · exact hb.ne_paren (Place.next_columnType hnext)
      · decide
    · rintro rfl
      rw [← hother, ← hlother, ← hb.rest_eq, ← hl]
      exact hquotes (hterminal (by decide))
  have hother' : other.drop a.offset = before ++ (l.text ++ other.drop b.offset) := by
    have hword : source.drop a.offset = before ++ (l.text ++ b.rest) := ha.symm.trans hrest
    have hle : a.offset + before.length ≤ k := by
      rw [← hstart]
      exact le_trans (Nat.le_add_right _ _) hlstop
    rw [drop_of_take_eq htake hword hle, ← hstart, hlother]
  exact step_iff.mpr ⟨before, hbefore, hother', hstart, hoffset, ⟨t, ht, hmem, hnew, hclass⟩, hnext⟩

/-- The lexemes that are read stand between the offsets, each behind the one before. -/
theorem Reads.offsets {a b : Reader} {ls : List Lexeme} (h : a.Reads ls b) :
    a.offset ≤ b.offset ∧ ∀ l ∈ ls, a.offset ≤ l.start ∧ l.start < b.offset := by
  induction h with
  | refl => exact ⟨le_rfl, nofun⟩
  | @cons a m b l ls head tail ih =>
    obtain ⟨hstart, hstop⟩ := head.offsets
    obtain ⟨hle, hall⟩ := ih
    refine ⟨by omega, List.forall_mem_cons.mpr ⟨by omega, fun x hx => ?_⟩⟩
    obtain ⟨hlow, hhigh⟩ := hall x hx
    omega

theorem Reads.ahead {a b : Reader} {ls : List Lexeme} (h : a.Reads ls b) {k : Nat}
    (hb : ∃ gap c rest, b.Ahead k gap c rest) : ∃ gap c rest, a.Ahead k gap c rest := by
  cases h with
  | refl => exact hb
  | cons head tail =>
    obtain ⟨gap, c, rest, hahead⟩ := hb
    have hlt := head.offsets.2
    have hle := tail.offsets.1.trans (Nat.le_of_add_right_le hahead.le)
    exact head.ahead (by omega) fun _ => by omega

section

variable {source other : List Char} {k : Nat} {tail : List Char}

theorem Reads.on (htake : other.take k = source.take k) (hslash : other.drop k = '/' :: tail)
    {a b : Reader} {ls : List Lexeme} (h : a.Reads ls b) (ha : a.rest = source.drop a.offset)
    (hb : ∃ gap c rest, b.Ahead k gap c rest)
    (hquotes : ∀ l ∈ ls, l.terminal = .defaultValue → Unquoted (source.drop l.start) →
      Unquoted (other.drop l.start)) :
    (a.on other).Reads ls (b.on other) := by
  induction h with
  | refl => exact .refl _
  | @cons a m b l ls head rest ih =>
    obtain ⟨hl, hls⟩ := List.forall_mem_cons.mp hquotes
    obtain ⟨gap, c, after, hahead⟩ := rest.ahead hb
    exact .cons (head.on htake hslash ha hahead hl) (ih (head.rest_eq_drop ha).2 hb hls)

/-- A default value whose quote is closed only in the other text takes in the slash there. -/
theorem Step.overrun (htake : other.take k = source.take k) {a b : Reader} {l : Lexeme}
    (h : a.Step l b) (ha : a.rest = source.drop a.offset) (hk : l.start ≤ k)
    (hl : l.terminal = .defaultValue) (hold : Unquoted (source.drop l.start))
    (hnew : ¬Unquoted (other.drop l.start)) :
    ∃ m c, (a.on other).Step m c ∧ m.terminal = .defaultValue ∧ m.start = l.start ∧ k < m.stop := by
  obtain ⟨before, hbefore, hrest, hstart, _, _, hnext⟩ := step_iff.mp h
  rw [hl] at hnext
  simp only [Unquoted, not_forall] at hnew
  obtain ⟨quote, hquote, hsome⟩ := hnew
  obtain ⟨⟨text, rest⟩, hfound⟩ := Option.ne_none_iff_exists'.mp hsome
  obtain ⟨hother, htext⟩ := (quoted?_eq_some_iff hquote.ne_backslash).mp hfound
  refine ⟨⟨.defaultValue, text, l.start⟩, ⟨b.place, l.start + text.length, rest⟩, ?_, rfl, rfl, ?_⟩
  · have htakes : a.place.Takes .defaultValue text rest := by
      have hmem : text ∈ Terminal.defaultValue.language := by
        rcases hquote with rfl | rfl
        · exact .inl (.inl htext)
        · exact .inl (.inr htext)
      rw [(Place.next_defaultValue hnext).1]
      exact ⟨.defaultValue, by decide, hmem, .inl ⟨quote, hquote, htext⟩, rfl⟩
    refine step_iff.mpr ⟨before, hbefore, ?_, hstart, rfl, htakes, hnext⟩
    have hword : source.drop a.offset = before ++ (l.text ++ b.rest) := ha.symm.trans hrest
    have hdrop := drop_of_take_eq htake hword (hstart ▸ hk)
    rw [← hstart, hother] at hdrop
    exact hdrop
  · -- A quote closed before `k` is closed in both texts.
    by_contra hle
    have hclosed := drop_of_take_eq htake.symm hother (Nat.le_of_not_lt hle)
    have hfound := (quoted?_eq_some_iff hquote.ne_backslash).mpr ⟨hclosed, htext⟩
    rw [hold quote hquote] at hfound
    cases hfound

/-- If some quote is closed only in the other text, a default value takes in the slash there. -/
theorem Reads.overrun (htake : other.take k = source.take k) (hslash : other.drop k = '/' :: tail)
    {a b : Reader} {ls : List Lexeme} (h : a.Reads ls b) (ha : a.rest = source.drop a.offset)
    (hb : ∃ gap c rest, b.Ahead k gap c rest)
    (hquotes : ∃ l ∈ ls, l.terminal = .defaultValue ∧ Unquoted (source.drop l.start) ∧
      ¬Unquoted (other.drop l.start)) :
    ∃ ms c, (a.on other).Reads ms c ∧
      ∃ m ∈ ms, m.terminal = .defaultValue ∧ m.start < k ∧ k < m.stop := by
  induction h with
  | refl =>
    obtain ⟨l, hl, _⟩ := hquotes
    cases hl
  | @cons a m b l ls head rest ih =>
    obtain ⟨gap, c, after, hahead⟩ := rest.ahead hb
    have hlt : l.start < k := by
      have hstart := head.offsets.2
      have hle := hahead.le
      omega
    -- Up to the first such default value both texts are read alike.
    by_cases hl : l.terminal = .defaultValue ∧ Unquoted (source.drop l.start) ∧
        ¬Unquoted (other.drop l.start)
    · obtain ⟨x, c, hstep, hx, hstart, hk⟩ := head.overrun htake ha hlt.le hl.1 hl.2.1 hl.2.2
      exact ⟨[x], c, .cons hstep (.refl c), x, List.mem_cons_self, hx, hstart.trans_lt hlt, hk⟩
    · have hkept : l.terminal = .defaultValue → Unquoted (source.drop l.start) →
          Unquoted (other.drop l.start) := by
        intro hterminal hold
        by_contra hnew
        exact hl ⟨hterminal, hold, hnew⟩
      obtain ⟨x, hx, hbad⟩ := hquotes
      have hmem : x ∈ ls := by
        rcases List.mem_cons.mp hx with rfl | hx
        · exact absurd hbad hl
        · exact hx
      obtain ⟨ms, c, hreads, y, hy, hover⟩ := ih (head.rest_eq_drop ha).2 hb ⟨x, hmem, hbad⟩
      exact ⟨l :: ms, c, .cons (head.on htake hslash ha hahead hkept) hreads, y,
        List.mem_cons_of_mem l hy, hover⟩

end

def shift (n : Nat) (a : Reader) : Reader := { a with offset := a.offset + n }

theorem Step.shift {a b : Reader} {l : Lexeme} (h : a.Step l b) (n : Nat) :
    (a.shift n).Step (l.shift n) (b.shift n) := by
  obtain ⟨gap, hgap, hrest, hstart, hoffset, htakes, hnext⟩ := step_iff.mp h
  refine step_iff.mpr ⟨gap, hgap, hrest, ?_, ?_, htakes, hnext⟩
  · simp only [Lexeme.shift, Reader.shift, hstart]
    omega
  · simp only [Lexeme.shift, Reader.shift, hoffset, Lexeme.stop]
    omega

/-- What is read does not depend on where it stands. -/
theorem Reads.shift {a b : Reader} {ls : List Lexeme} (h : a.Reads ls b) (n : Nat) :
    (a.shift n).Reads (ls.map (Lexeme.shift n)) (b.shift n) := by
  induction h with
  | refl => exact .refl _
  | cons head _ ih => exact .cons (head.shift n) ih

end Reader

end DalSchema
