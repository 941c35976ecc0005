import DalSchema.Proofs.Phrases
import DalSchema.Proofs.Quotes

/-!
# Lexing

`Terminal.lex?` takes a text of the terminal off the start of the input, and `Terminal.Ends` says
what may follow it there. The two decide the lexer: `Terminal.lex?_eq_some_iff`.
-/

namespace DalSchema

open Lexeme Pattern
open scoped Computability

/-- The text of a terminal ends where it does: `rest` does not carry it on. -/
def Terminal.Ends (t : Terminal) (text rest : List Char) : Prop :=
  match t with
  | .ident => Clear isIdentChar rest
  | .columnType => text ∈ identifier → Clear isIdentChar rest ∧ group? rest = none
  | .defaultValue =>
    (∃ quote, IsQuote quote ∧ text ∈ quoted quote) ∨
      (Clear isBareChar rest ∧ Unquoted (text ++ rest))
  | .action => (phraseTail rest).1 = []
  | .comment => Clear (· != '\n') rest
  | .blanks => Clear Text.isBlank rest
  | _ => True

/-- A name holds no bracket, so a column type is a bare name or has arguments but not both. -/
theorem Pattern.not_mem_identifier_of_arguments {text : List Char}
    (h : text ∈ identifier * arguments) : text ∉ identifier := by
  intro hident
  obtain ⟨name, hname, group, hgroup, rfl⟩ := Language.mem_mul.mp h
  obtain ⟨inner, rfl, _⟩ := mem_arguments.mp hgroup
  obtain ⟨c, tail, heq, hc, htail⟩ := mem_run.mp hident
  obtain ⟨d, more, rfl, hd, hmore⟩ := mem_run.mp hname
  simp only [List.cons_append, List.cons.injEq] at heq
  have hparen := htail ')' (by rw [← heq.2]; simp)
  revert hparen
  decide

theorem Terminal.lex?_eq_some_iff {t : Terminal} {cs text rest : List Char} :
    t.lex? cs = some (text, rest) ↔
      cs = text ++ rest ∧ text ∈ t.language ∧ t.Ends text rest := by
  cases t
  case ident => exact run?_eq_some_iff
  case columnType =>
    refine columnType?_eq_some_iff.trans (and_congr_right fun _ => ?_)
    rw [language, mul_add, mul_one, Language.mem_add]
    constructor
    · rintro (⟨hident, hclear⟩ | hargs)
      · exact ⟨.inl hident, fun _ => hclear⟩
      · exact ⟨.inr hargs, fun hident => absurd hident (not_mem_identifier_of_arguments hargs)⟩
    · rintro ⟨hident | hargs, hends⟩
      · exact .inl ⟨hident, hends hident⟩
      · exact .inr hargs
  case defaultValue =>
    refine defaultValue?_eq_some_iff.trans (and_congr_right fun hcs => ?_)
    rw [language, Language.mem_add, Language.mem_add, hcs]
    constructor
    · rintro (⟨quote, hquote, htext⟩ | ⟨hbare, hends⟩)
      · refine ⟨.inl ?_, .inl ⟨quote, hquote, htext⟩⟩
        rcases hquote with rfl | rfl
        · exact .inl htext
        · exact .inr htext
      · exact ⟨.inr hbare, .inr hends⟩
    · rintro ⟨(htext | htext) | hbare, hends⟩
      · exact .inl ⟨_, .inl rfl, htext⟩
      · exact .inl ⟨_, .inr rfl, htext⟩
      · exact hends.imp_right fun hends => ⟨hbare, hends⟩
  case action => exact phrase?_eq_some_iff
  case comment => exact comment?_eq_some_iff
  case blanks => exact run?_eq_some_iff
  case endOfInput => simp [lex?, literal?, language]
  all_goals
    refine (literal?_eq_some_iff (by decide)).trans (and_congr_right fun _ => ?_)
    exact (iff_of_eq (and_true _)).symm

end DalSchema
