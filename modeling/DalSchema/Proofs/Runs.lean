import Mathlib.Data.List.TakeWhile
import DalSchema.Proofs.Pattern

/-!
# Names, column types, comments and fixed words

What the readers of `Lexeme` for runs of characters, groups in brackets, comments and fixed texts
take off the start of the input: a text of their pattern, followed by something that does not carry
it on.
-/

namespace DalSchema.Lexeme

open Pattern
open scoped Computability

/-- What follows does not begin with a character of the class. -/
def Clear (p : Char → Bool) (rest : List Char) : Prop := ∀ c ∈ rest.head?, p c = false

theorem clear_dropWhile (p : Char → Bool) (cs : List Char) : Clear p (cs.dropWhile p) := by
  intro c hc
  have hhead := List.head?_dropWhile_not p cs
  rw [Option.mem_def.mp hc] at hhead
  exact hhead

theorem takeWhile_append_of_clear {p : Char → Bool} {body rest : List Char}
    (hbody : ∀ c ∈ body, p c = true) (hrest : Clear p rest) :
    (body ++ rest).takeWhile p = body ∧ (body ++ rest).dropWhile p = rest := by
  rw [List.takeWhile_append_of_pos hbody, List.dropWhile_append_of_pos hbody]
  cases rest with
  | nil => simp
  | cons c rest => simp [hrest c rfl]

theorem run?_eq_some_iff {first more : Char → Bool} {cs text rest : List Char} :
    run? first more cs = some (text, rest) ↔
      cs = text ++ rest ∧ text ∈ run first more ∧ Clear more rest := by
  constructor
  · intro h
    refine ⟨(run?_divides first more h).1.symm, ?_⟩
    cases cs with
    | nil => cases h
    | cons c cs =>
      simp only [run?] at h
      split at h
      · rename_i hc
        cases h
        exact ⟨mem_run.mpr ⟨c, _, rfl, hc, fun d hd => List.mem_takeWhile_imp hd⟩,
          clear_dropWhile more cs⟩
      · cases h
  · rintro ⟨rfl, htext, hrest⟩
    obtain ⟨c, tail, rfl, hc, htail⟩ := mem_run.mp htext
    obtain ⟨htake, hdrop⟩ := takeWhile_append_of_clear htail hrest
    simp [run?, hc, htake, hdrop]

theorem group?_of_ne {cs : List Char} (h : ∀ c ∈ cs.head?, c ≠ '(') : group? cs = none := by
  unfold group?
  split
  · exact absurd rfl (h '(' rfl)
  · rfl

theorem group?_eq_some_iff {cs group rest : List Char} :
    group? cs = some (group, rest) ↔ cs = group ++ rest ∧ group ∈ arguments := by
  constructor
  · intro h
    refine ⟨(group?_divides h).1.symm, ?_⟩
    unfold group? at h
    split at h
    · rename_i inner
      split at h
      · rename_i close after hdrop
        cases h
        have hclose : close = ')' := by
          have hhead := List.head?_dropWhile_not (· != ')') inner
          rw [hdrop] at hhead
          simpa using hhead
        subst hclose
        refine mem_arguments.mpr ⟨_, rfl, fun hmem => ?_⟩
        simpa using List.mem_takeWhile_imp hmem
      · cases h
    · cases h
  · rintro ⟨rfl, hgroup⟩
    obtain ⟨inner, rfl, hinner⟩ := mem_arguments.mp hgroup
    have hbody : ∀ c ∈ inner, (c != ')') = true := by
      intro c hc
      have hne : c ≠ ')' := fun h => hinner (h ▸ hc)
      simpa using hne
    have hclear : Clear (· != ')') (')' :: rest) := by
      intro c hc
      cases hc
      rfl
    obtain ⟨htake, hdrop⟩ := takeWhile_append_of_clear hbody hclear
    simp [group?, htake, hdrop]

theorem columnType?_eq_some_iff {cs text rest : List Char} :
    columnType? cs = some (text, rest) ↔ cs = text ++ rest ∧
      ((text ∈ identifier ∧ Clear isIdentChar rest ∧ group? rest = none) ∨
        text ∈ identifier * arguments) := by
  constructor
  · intro h
    refine ⟨(columnType?_divides h).1.symm, ?_⟩
    obtain ⟨⟨name, after⟩, hname, hrest⟩ := Option.map_eq_some_iff.mp h
    obtain ⟨_, hident, hclear⟩ := run?_eq_some_iff.mp hname
    cases hgroup : group? after with
    | none =>
      simp only [hgroup, Prod.mk.injEq] at hrest
      obtain ⟨rfl, rfl⟩ := hrest
      exact .inl ⟨hident, hclear, hgroup⟩
    | some g =>
      simp only [hgroup, Prod.mk.injEq] at hrest
      obtain ⟨rfl, rfl⟩ := hrest
      exact .inr (Language.append_mem_mul hident (group?_eq_some_iff.mp hgroup).2)
  · rintro ⟨rfl, ⟨hident, hclear, hgroup⟩ | htext⟩
    · have hname : ident? (text ++ rest) = some (text, rest) :=
        run?_eq_some_iff.mpr ⟨rfl, hident, hclear⟩
      simp [columnType?, hname, hgroup]
    · obtain ⟨name, hident, group, hgroup, rfl⟩ := Language.mem_mul.mp htext
      have hclear : Clear isIdentChar (group ++ rest) := by
        obtain ⟨inner, rfl, _⟩ := mem_arguments.mp hgroup
        intro c hc
        cases hc
        rfl
      have hname : ident? (name ++ (group ++ rest)) = some (name, group ++ rest) :=
        run?_eq_some_iff.mpr ⟨rfl, hident, hclear⟩
      have hopen : group? (group ++ rest) = some (group, rest) :=
        group?_eq_some_iff.mpr ⟨rfl, hgroup⟩
      simp [columnType?, List.append_assoc, hname, hopen]

theorem comment?_eq_some_iff {cs text rest : List Char} :
    comment? cs = some (text, rest) ↔ cs = text ++ rest ∧
      text ∈ exactly "//" * (one (· != '\n'))∗ ∧ Clear (· != '\n') rest := by
  constructor
  · intro h
    refine ⟨(comment?_divides h).1.symm, ?_⟩
    unfold comment? at h
    split at h
    · rename_i inner
      cases h
      refine ⟨Language.append_mem_mul (a := ['/', '/']) rfl ?_, clear_dropWhile _ _⟩
      exact mem_one_kstar.mpr fun c hc => List.mem_takeWhile_imp (p := (· != '\n')) hc
    · cases h
  · rintro ⟨rfl, htext, hrest⟩
    obtain ⟨_, rfl, inner, hinner, rfl⟩ := Language.mem_mul.mp htext
    obtain ⟨htake, hdrop⟩ := takeWhile_append_of_clear (mem_one_kstar.mp hinner) hrest
    change comment? ('/' :: '/' :: (inner ++ rest)) = _
    rw [comment?, htake, hdrop]
    rfl

theorem literal?_eq_some_iff {word : String} (hword : word ≠ "") {cs text rest : List Char} :
    literal? word.toList cs = some (text, rest) ↔ cs = text ++ rest ∧ text ∈ exactly word := by
  have hne : word.toList.isEmpty = false := by simpa using hword
  constructor
  · intro h
    refine ⟨(literal?_divides _ h).1.symm, ?_⟩
    simp only [literal?] at h
    split at h
    · cases h
      rfl
    · cases h
  · rintro ⟨rfl, rfl⟩
    have hpre : word.toList.isPrefixOf (word.toList ++ rest) = true :=
      List.isPrefixOf_iff_prefix.mpr (List.prefix_append _ _)
    simp [literal?, hpre, hne]

end DalSchema.Lexeme
