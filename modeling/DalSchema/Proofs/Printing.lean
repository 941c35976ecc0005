import DalSchema.Proofs.Building
import DalSchema.Proofs.Following
import DalSchema.Proofs.Wording

/-!
# Printed outlines are read back

An outline is printed with some blanks between each two of its tokens. No comment stands in it, so
no place in it reserves words, and each token ends at the blanks behind it: `Outline.parse_print`.
-/

namespace DalSchema

open Lexeme Pattern

namespace Outline

/-- What holds of each token of an outline. -/
structure Plain (token : Token) : Prop where
  fits : token.2 ∈ token.1.language
  not_comment : token.1 ≠ .comment
  not_blanks : token.1 ≠ .blanks
  literal : token.1 = .defaultValue → IsLiteral token.2
  action : token.1 = .action → ∃ a : Action, token.2 = a.phrase.toList

@[simp] theorem plain_mark {t : Terminal} (h : t.literal?.isSome = true) : Plain (mark t) where
  fits := mark_mem h
  not_comment := by rintro rfl; cases h
  not_blanks := by rintro rfl; cases h
  literal := by rintro rfl; cases h
  action := by rintro rfl; cases h

@[simp] theorem plain_nameToken (name : Name) : Plain (nameToken name) where
  fits := name.2
  not_comment := nofun
  not_blanks := nofun
  literal := nofun
  action := nofun

def AllPlain (ts : List Token) : Prop := ∀ token ∈ ts, Plain token

@[simp] theorem allPlain_nil : AllPlain [] := List.forall_mem_nil _

@[simp] theorem allPlain_cons {token : Token} {ts : List Token} :
    AllPlain (token :: ts) ↔ Plain token ∧ AllPlain ts := List.forall_mem_cons

@[simp] theorem allPlain_append {ts us : List Token} :
    AllPlain (ts ++ us) ↔ AllPlain ts ∧ AllPlain us := List.forall_mem_append

theorem allPlain_flatMap {α : Type} {tokens : α → List Token} (h : ∀ x, AllPlain (tokens x))
    (xs : List α) : AllPlain (xs.flatMap tokens) := by
  induction xs with
  | nil => exact allPlain_nil
  | cons x xs ih => simp [h, ih]

theorem allPlain_separated {α : Type} {tokens : α → List Token} (h : ∀ x, AllPlain (tokens x))
    (first : α) (others : List α) : AllPlain (separated tokens first others) :=
  allPlain_append.mpr ⟨h first,
    allPlain_flatMap (fun x => allPlain_cons.mpr ⟨plain_mark (by decide), h x⟩) others⟩

theorem allPlain_clauseTokens (clause : Written.ClauseKind × Action) :
    AllPlain (clauseTokens clause) := by
  have hword : clause.1.word.literal?.isSome = true := by cases clause.1 <;> rfl
  have hphrase : Plain (.action, clause.2.phrase.toList) :=
    ⟨phrase_mem clause.2, nofun, nofun, nofun, fun _ => ⟨clause.2, rfl⟩⟩
  simp (disch := decide) [clauseTokens, plain_mark hword, hphrase]

theorem Modifier.allPlain (m : Modifier) : AllPlain m.tokens := by
  cases m with
  | default value =>
    have hvalue : Plain (.defaultValue, value) := ⟨value.mem, nofun, nofun, fun _ => value.2, nofun⟩
    simp (disch := decide) [tokens, hvalue]
  | primaryKey | unique => simp (disch := decide) [tokens]
  | reference table column clauses =>
    cases clauses with
    | nil => simp (disch := decide) [tokens]
    | cons first others =>
      simp (disch := decide) [tokens, allPlain_separated allPlain_clauseTokens]

theorem Group.allPlain (g : Group) : AllPlain g.tokens := by
  simp (disch := decide) [tokens, allPlain_separated Modifier.allPlain]

theorem Column.allPlain (c : Column) : AllPlain c.tokens := by
  have htype : Plain (.columnType, c.type) := ⟨c.type.2, nofun, nofun, nofun, nofun⟩
  have hnull : AllPlain (if c.nullable then [mark .bang] else []) := by
    split <;> simp (disch := decide)
  simp [tokens, htype, hnull, allPlain_flatMap Group.allPlain]

theorem Declaration.allPlain (d : Declaration) : AllPlain d.tokens := by
  have hexists : ∀ ifNotExists, AllPlain (existsTokens ifNotExists) := by
    intro ifNotExists
    cases ifNotExists <;> simp (disch := decide) [existsTokens]
  cases d with
  | enum name ifNotExists variants =>
    have hvariants : AllPlain (variants.map nameToken) := by
      rw [List.map_eq_flatMap]
      exact allPlain_flatMap (by simp) variants
    simp (disch := decide) [tokens, hexists, hvariants]
  | table name ifNotExists columns =>
    simp (disch := decide) [tokens, hexists, allPlain_flatMap Column.allPlain]

/-! ## Layouts -/

abbrev Blanks := { gap : List Char // Text.Blank gap }

/-- Blanks before the first token, behind the last one, and some between each two. -/
structure Layout where
  before : Blanks
  between : Nat → { gap : Blanks // gap.1 ≠ [] }
  behind : Blanks

namespace Layout

def next (layout : Layout) (index : Nat) : List Token → Blanks
  | [] => layout.behind
  | _ :: _ => (layout.between index).1

/-- The text of tokens from an index on, with a gap before the first. -/
def text (layout : Layout) (gap : Blanks) (index : Nat) : List Token → List Char
  | [] => gap
  | token :: ts => gap ++ (token.2 ++ layout.text (layout.next index ts) (index + 1) ts)

def print (layout : Layout) (ts : List Token) : List Char := layout.text layout.before 0 ts

end Layout

/-! ## Reading them -/

theorem not_of_isBlank {c : Char} (h : Text.isBlank c = true) :
    isIdentStart c = false ∧ isIdentChar c = false ∧ isBareChar c = false ∧ c ≠ '(' := by
  simp only [Text.isBlank, Bool.or_eq_true, beq_iff_eq] at h
  rcases h with (((rfl | rfl) | rfl) | rfl) | rfl <;> decide

/-- Blanks, and if there are none then the end of the text. -/
theorem clear_gap {p : Char → Bool} (hp : ∀ c, Text.isBlank c = true → p c = false)
    {gap rest : List Char} (hgap : Text.Blank gap) (hend : gap = [] → rest = []) :
    Clear p (gap ++ rest) := by
  cases gap with
  | nil =>
    rw [hend rfl]
    rintro c ⟨⟩
  | cons d gap =>
    rintro c ⟨⟩
    exact hp d (hgap d List.mem_cons_self)

theorem phraseTail_gap {gap rest : List Char} (hgap : Text.Blank gap) (hend : gap = [] → rest = [])
    (hrest : Clear isIdentStart rest) : (phraseTail (gap ++ rest)).1 = [] := by
  cases gap with
  | nil =>
    rw [hend rfl]
    rfl
  | cons c gap =>
    have hnext : Clear isIdentStart (gap ++ rest) := by
      cases gap with
      | nil => exact hrest
      | cons d gap =>
        rintro e ⟨⟩
        exact (not_of_isBlank (hgap d (by simp))).1
    exact phraseTail_eq_nil_iff.mpr
      ⟨(not_of_isBlank (hgap c List.mem_cons_self)).1, fun _ => hnext⟩

theorem Plain.ends {token : Token} (h : Plain token) {gap rest : List Char}
    (hgap : Text.Blank gap) (hend : gap = [] → rest = [])
    (haction : token.1 = .action → Clear isIdentStart rest) :
    token.1.Ends token.2 (gap ++ rest) := by
  obtain ⟨t, text⟩ := token
  cases t
  case ident => exact clear_gap (fun c hc => (not_of_isBlank hc).2.1) hgap hend
  case columnType =>
    intro _
    refine ⟨clear_gap (fun c hc => (not_of_isBlank hc).2.1) hgap hend, group?_of_ne ?_⟩
    have hclear := clear_gap (p := (· == '('))
      (fun c hc => by simpa using (not_of_isBlank hc).2.2.2) hgap hend
    exact fun c hc => by simpa using hclear c hc
  case defaultValue =>
    rcases h.literal rfl with hquoted | ⟨hbare, hfirst⟩
    · exact .inl hquoted
    · obtain ⟨c, tail, rfl, _⟩ := mem_run.mp hbare
      refine .inr ⟨clear_gap (fun c hc => (not_of_isBlank hc).2.2.1) hgap hend, ?_⟩
      exact unquoted_of_first hfirst
  case action => exact phraseTail_gap hgap hend (haction rfl)
  case comment => exact absurd rfl h.not_comment
  case blanks => exact absurd rfl h.not_blanks
  all_goals exact trivial

theorem clear_of_afterAction {t : Terminal} {q : Place} (h : Place.afterAction.next t = some q)
    {text : List Char} (hfits : text ∈ t.language) (rest : List Char) :
    Clear isIdentStart (text ++ rest) := by
  obtain ⟨c, tail, rfl, hc⟩ := Terminal.begins_of_mem hfits
  rintro d ⟨⟩
  cases t <;> cases h <;> rw [← beq_iff_eq.mp hc] <;> rfl

theorem ends_text (layout : Layout) (index : Nat) {l : Lexeme} {ms : List Lexeme} {p q r : Place}
    (hnext : p.next l.terminal = some q) (hfollow : q.follow ms = some r)
    (hl : Plain l.token) (hms : AllPlain (ms.map token)) :
    l.terminal.Ends l.text
      (layout.text (layout.next index (ms.map token)) (index + 1) (ms.map token)) := by
  cases ms with
  | nil =>
    have hends : l.terminal.Ends l.text (_ ++ []) :=
      hl.ends layout.behind.2 (fun _ => rfl) (fun _ => nofun)
    rwa [List.append_nil] at hends
  | cons m ms =>
    obtain ⟨q', hm, _⟩ := Option.bind_eq_some_iff.mp hfollow
    refine hl.ends (layout.between index).1.2 (fun h => absurd h (layout.between index).2) ?_
    intro haction
    have hq : q = .afterAction := by
      rw [show l.terminal = .action from haction] at hnext
      cases p <;> cases hnext
      rfl
    subst hq
    exact clear_of_afterAction hm (allPlain_cons.mp hms).1.fits _

/-- Tokens that are allowed one after the other are read in any layout. -/
theorem reads_text (layout : Layout) {ms : List Lexeme} {p q : Place}
    (hp : p.reservesWords = false) (hfollow : p.follow ms = some q)
    (hplain : AllPlain (ms.map token)) (gap : Blanks) (index offset : Nat) :
    ∃ ls r, Reader.Reads ⟨p, offset, layout.text gap index (ms.map token)⟩ ls r ∧ r.place = q ∧
      Text.Blank r.rest ∧ ls.map token = ms.map token := by
  induction ms generalizing p gap index offset with
  | nil =>
    cases hfollow
    exact ⟨[], _, .refl _, rfl, gap.2, rfl⟩
  | cons l ms ih =>
    obtain ⟨p', hnext, hrest⟩ := Option.bind_eq_some_iff.mp hfollow
    obtain ⟨hl, hms⟩ := allPlain_cons.mp hplain
    have htakes : p.Takes l.terminal l.text _ := (Place.takes_iff_of_not_reserves hp).mpr
      ⟨Place.mem_trial_of_next hp hnext, hl.fits, ends_text layout index hnext hrest hl hms⟩
    obtain ⟨ls, r, hreads, hr, hblank, htokens⟩ :=
      ih (Place.reservesWords_next hl.not_comment hnext) hrest hms
        (layout.next index (ms.map token)) (index + 1) (offset + gap.1.length + l.text.length)
    refine ⟨⟨l.terminal, l.text, offset + gap.1.length⟩ :: ls, r, .cons ?_ hreads, hr, hblank, ?_⟩
    · exact Reader.step_iff.mpr ⟨gap, gap.2, rfl, rfl, rfl, htakes, hnext⟩
    · rw [List.map_cons, List.map_cons, htokens]
      rfl

theorem actionFault?_of_plain {ls : List Lexeme} (h : AllPlain (ls.map token)) :
    actionFault? ls = none := by
  refine actionFault?_eq_none_iff.mpr ?_
  rintro l hl ⟨hterminal, hinvalid⟩
  obtain ⟨a, ha⟩ := (h l.token (List.mem_map_of_mem hl)).action hterminal
  exact hinvalid a (by rw [show l.text = _ from ha, String.ofList_toList])

/-- Every outline is read back from every text that prints it, and nothing is reported. -/
theorem parse_print (ledger : Ledger) (layout : Layout) (ds : List Declaration) :
    ledger.parse (layout.print (tokens ds)) = (.ok (schema ds), ledger) := by
  let words := ds.map Declaration.words
  have hplain : AllPlain (tokens ds) := allPlain_flatMap Declaration.allPlain ds
  rw [← token_words] at hplain ⊢
  obtain ⟨flag, hfollow⟩ := Written.follow_parts words false
  obtain ⟨ls, r, hreads, hplace, hblank, htokens⟩ :=
    reads_text layout rfl hfollow hplain layout.before 0 0
  have hlexemes : lexemes (layout.print _) = .ok ls :=
    lexemes_eq_ok_iff.mpr ⟨r, hreads, by rw [hplace]; rfl, hblank⟩
  rw [ledger.parse_of_tokens hlexemes htokens (actionFault?_of_plain hplain), schema_words]

end Outline

end DalSchema
