import DalSchema.Grammar.Scan
import DalSchema.Proofs.Lexing
import Mathlib.Data.List.Pairwise

/-!
# Terminals tried at a place

No two terminals tried at a place begin with the same character, so the order in which they are
tried does not matter: `Place.firstMatch?_eq_some_iff`. `Place.Takes` says what is read at a place,
the reserved words included.
-/

namespace DalSchema

open Lexeme Pattern
open scoped Computability

namespace Terminal

/-- The only character a terminal can begin with, if there is just one. -/
def lead? : Terminal → Option Char
  | .comment => some '/'
  | t => (t.literal?.getD "").toList.head?

/-- Whether a text of the terminal can begin with the character. -/
def begins (t : Terminal) (c : Char) : Bool :=
  match t.lead?, t with
  | some d, _ => d == c
  | none, .defaultValue => isBareChar c
  | none, .blanks => Text.isBlank c
  | none, .endOfInput => false
  | none, _ => isIdentStart c

theorem begins_of_run {first more : Char → Bool} {text : List Char} (h : text ∈ run first more) :
    ∃ c tail, text = c :: tail ∧ first c = true := by
  obtain ⟨c, tail, rfl, hc, _⟩ := mem_run.mp h
  exact ⟨c, tail, rfl, hc⟩

theorem begins_of_mul {l m : Language Char} {p : Char → Bool} {text : List Char}
    (hl : ∀ text ∈ l, ∃ c tail, text = c :: tail ∧ p c = true) (h : text ∈ l * m) :
    ∃ c tail, text = c :: tail ∧ p c = true := by
  obtain ⟨head, hhead, more, _, rfl⟩ := Language.mem_mul.mp h
  obtain ⟨c, tail, rfl, hc⟩ := hl head hhead
  exact ⟨c, tail ++ more, rfl, hc⟩

theorem begins_of_quoted {quote : Char} (hquote : IsQuote quote) {text : List Char}
    (h : text ∈ quoted quote) : ∃ c tail, text = c :: tail ∧ isBareChar c = true := by
  refine begins_of_mul ?_ h
  rintro _ ⟨c, hc, rfl⟩
  rw [beq_iff_eq.mp hc]
  rcases hquote with rfl | rfl <;> exact ⟨_, [], rfl, by decide⟩

theorem begins_of_mem {t : Terminal} {text : List Char} (h : text ∈ t.language) :
    ∃ c tail, text = c :: tail ∧ t.begins c = true := by
  cases t
  case ident => exact begins_of_run h
  case columnType => exact begins_of_mul (fun _ => begins_of_run) h
  case action => exact begins_of_mul (fun _ => begins_of_run) h
  case blanks => exact begins_of_run h
  case defaultValue =>
    rcases h with (h | h) | h
    · exact begins_of_quoted (.inl rfl) h
    · exact begins_of_quoted (.inr rfl) h
    · exact begins_of_run h
  case comment =>
    refine begins_of_mul ?_ h
    rintro _ rfl
    exact ⟨'/', ['/'], rfl, by decide⟩
  case endOfInput => exact absurd h (Language.notMem_zero _)
  all_goals
    rw [mem_exactly.mp h]
    exact ⟨_, _, rfl, by decide⟩

theorem begins_of_lex? {t : Terminal} {cs text rest : List Char}
    (h : t.lex? cs = some (text, rest)) : ∃ c, cs.head? = some c ∧ t.begins c = true := by
  obtain ⟨rfl, hmem, _⟩ := lex?_eq_some_iff.mp h
  obtain ⟨c, tail, rfl, hc⟩ := begins_of_mem hmem
  exact ⟨c, rfl, hc⟩

theorem begins_eq_of_lead? {t : Terminal} {d : Char} (h : t.lead? = some d) (c : Char) :
    t.begins c = (d == c) := by
  simp only [begins, h]

end Terminal

namespace Place

def all : List Place :=
  [top false, top true, columnType, afterType, afterNull, modifier, afterModifier, afterGroup,
    defaultColon, defaultValue, primaryKey, refColon, refTable, refDot, refColumn, afterRef,
    actionKind, actionColon, actionPhrase, afterAction] ++
      [DeclKind.enum, DeclKind.table].flatMap fun kind =>
        [declName kind, declHead kind, existsWord kind, existsEnd kind, bodyStart kind,
          body kind false, body kind true]

theorem mem_all (p : Place) : p ∈ all := by
  cases p with
  | top flag => cases flag <;> decide
  | body kind flag => cases kind <;> cases flag <;> decide
  | declName kind | declHead kind | existsWord kind | existsEnd kind | bodyStart kind =>
    cases kind <;> decide
  | _ => decide

/-- Each terminal tried after another has one first character, and the other cannot begin with it.
-/
theorem trial_pairwise (p : Place) :
    p.trial.Pairwise fun t u => u.lead?.any (fun d => !t.begins d) = true := by
  have hall : ∀ p ∈ all,
      p.trial.Pairwise fun t u => u.lead?.any (fun d => !t.begins d) = true := by decide
  exact hall p p.mem_all

theorem eq_of_begins {q : Place} {t u : Terminal} (ht : t ∈ q.trial) (hu : u ∈ q.trial) {c : Char}
    (htc : t.begins c = true) (huc : u.begins c = true) : t = u := by
  by_contra hne
  have hclash : q.trial.Pairwise fun t u => ¬(t.begins c = true ∧ u.begins c = true) := by
    refine q.trial_pairwise.imp ?_
    rintro t u hlead ⟨htc, huc⟩
    obtain ⟨d, hd, hnot⟩ := (Option.any_eq_true _ _).mp hlead
    rw [Terminal.begins_eq_of_lead? hd, beq_iff_eq] at huc
    simp [huc, htc] at hnot
  have hsymm : Std.Symm fun t u : Terminal => ¬(t.begins c = true ∧ u.begins c = true) :=
    ⟨fun _ _ h hswap => h hswap.symm⟩
  exact hclash.forall ht hu hne ⟨htc, huc⟩

theorem firstMatch?_of_mem {cs text rest : List Char} {t : Terminal} {ts : List Terminal}
    (hts : ts.Pairwise fun t u => u.lead?.any (fun d => !t.begins d) = true) (ht : t ∈ ts)
    (hlex : t.lex? cs = some (text, rest)) : firstMatch? cs ts = some (t, text, rest) := by
  induction ts with
  | nil => cases ht
  | cons u others ih =>
    obtain ⟨hu, hothers⟩ := List.pairwise_cons.mp hts
    rw [firstMatch?]
    rcases List.mem_cons.mp ht with rfl | ht
    · rw [hlex]
    · have hnone : u.lex? cs = none := by
        cases hfirst : u.lex? cs with
        | none => rfl
        | some found =>
          obtain ⟨c, hcs, hc⟩ := Terminal.begins_of_lex? hlex
          obtain ⟨d, hds, hd⟩ := Terminal.begins_of_lex? hfirst
          obtain ⟨e, hlead, hclash⟩ := (Option.any_eq_true _ _).mp (hu t ht)
          rw [Terminal.begins_eq_of_lead? hlead, beq_iff_eq] at hc
          rw [hcs, Option.some.injEq] at hds
          simp [hc, hds, hd] at hclash
      rw [hnone]
      exact ih hothers ht

theorem firstMatch?_eq_some_iff {p : Place} {cs text rest : List Char} {t : Terminal} :
    firstMatch? cs p.trial = some (t, text, rest) ↔
      t ∈ p.trial ∧ t.lex? cs = some (text, rest) :=
  ⟨firstMatch?_eq_some, fun h => firstMatch?_of_mem p.trial_pairwise h.1 h.2⟩

theorem mem_trial_of_next {p q : Place} {t : Terminal} (hp : p.reservesWords = false)
    (h : p.next t = some q) : t ∈ p.trial := by
  have hall : ∀ p ∈ all, p.reservesWords = false →
      ∀ u ∈ Terminal.all, (p.next u).isSome = true → u ∈ p.trial := by decide
  exact hall p p.mem_all hp t t.mem_all (by simp [h])

/-- Words are reserved only behind a comment. -/
theorem reservesWords_next {p q : Place} {t : Terminal} (ht : t ≠ .comment)
    (h : p.next t = some q) : q.reservesWords = false := by
  have hall : ∀ p ∈ all, ∀ u ∈ Terminal.all, u ≠ .comment →
      (p.next u).all (fun r => !r.reservesWords) = true := by decide
  simpa [h] using hall p p.mem_all t t.mem_all ht

/-- At `p` the text is read as the terminal `u`, with `rest` after it. -/
def Takes (p : Place) (u : Terminal) (text rest : List Char) : Prop :=
  ∃ t ∈ p.trial, text ∈ t.language ∧ t.Ends text rest ∧ p.classify t text = u

theorem mem_language_of_classify {p : Place} {t : Terminal} {text : List Char}
    (h : text ∈ t.language) : text ∈ (p.classify t text).language := by
  rw [classify]
  split
  · rename_i hreserved
    split
    · rename_i henum
      exact beq_iff_eq.mp henum
    · split
      · rename_i htable
        exact beq_iff_eq.mp htable
      · simp only [Bool.and_eq_true, beq_iff_eq] at hreserved
        exact hreserved.2 ▸ h
  · exact h

theorem Takes.mem_language {p : Place} {u : Terminal} {text rest : List Char}
    (h : p.Takes u text rest) : text ∈ u.language := by
  obtain ⟨t, _, hmem, _, rfl⟩ := h
  exact mem_language_of_classify hmem

theorem takes_iff_of_not_reserves {p : Place} (hp : p.reservesWords = false) {u : Terminal}
    {text rest : List Char} :
    p.Takes u text rest ↔ u ∈ p.trial ∧ text ∈ u.language ∧ u.Ends text rest := by
  have hsame : ∀ t, p.classify t text = t := fun t => by simp [classify, hp]
  constructor
  · rintro ⟨t, ht, hmem, hends, hclass⟩
    rw [hsame] at hclass
    exact hclass ▸ ⟨ht, hmem, hends⟩
  · rintro ⟨ht, hmem, hends⟩
    exact ⟨u, ht, hmem, hends, hsame u⟩

end Place

end DalSchema
