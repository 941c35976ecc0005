import Mathlib.Computability.Language
import DalSchema.Grammar.Lexeme

/-!
# Patterns of the terminals

The texts of a terminal form a regular language over the characters. `Terminal.language` gives it as
the grammar does; what a text in one of these languages looks like is said below it.
-/

namespace DalSchema

open Lexeme
open scoped Computability

namespace Pattern

/-- The texts of one character that satisfies `p`. -/
def one (p : Char → Bool) : Language Char := {text | ∃ c, p c = true ∧ text = [c]}

def exactly (word : String) : Language Char := {text | text = word.toList}

def run (first more : Char → Bool) : Language Char := one first * (one more)∗

/-- `[A-Za-z_][A-Za-z0-9_]*` -/
def identifier : Language Char := run isIdentStart isIdentChar

/-- `\([^)]*\)` -/
def arguments : Language Char := exactly "(" * (one (· != ')'))∗ * exactly ")"

/-- A character of a quoted value: one that is neither the quote nor a backslash, or a backslash
and a character of the same line. -/
def inQuotes (quote : Char) : Language Char :=
  one (fun c => c != quote && c != '\\') + exactly "\\" * one (· != '\n')

def quoted (quote : Char) : Language Char :=
  one (· == quote) * ((inQuotes quote)∗ * one (· == quote))

/-- `[^\s,\[\]]+` -/
def bare : Language Char := run isBareChar isBareChar

/-- `[A-Za-z_]+` -/
def letters : Language Char := run isIdentStart isIdentStart

/-- A further word of a phrase, with the space before it. -/
def nextWord : Language Char := exactly " " * letters

@[simp] theorem mem_one {p : Char → Bool} {text : List Char} :
    text ∈ one p ↔ ∃ c, p c = true ∧ text = [c] := Iff.rfl

@[simp] theorem mem_exactly {word : String} {text : List Char} :
    text ∈ exactly word ↔ text = word.toList := Iff.rfl

theorem append_mem_kstar {l : Language Char} {a b : List Char} (ha : a ∈ l) (hb : b ∈ l∗) :
    a ++ b ∈ l∗ :=
  Set.mem_of_mem_of_subset (Language.append_mem_mul ha hb) (mul_kstar_le_kstar (a := l))

/-- Induction over the parts of a text in a star. -/
theorem kstar_induction {l : Language Char} {motive : List Char → Prop} {text : List Char}
    (h : text ∈ l∗) (nil : motive [])
    (append : ∀ a b, a ∈ l → b ∈ l∗ → motive b → motive (a ++ b)) : motive text := by
  obtain ⟨parts, rfl, hparts⟩ := Language.mem_kstar.mp h
  clear h
  induction parts with
  | nil => exact nil
  | cons part parts ih =>
    have htail : ∀ part ∈ parts, part ∈ l := fun p hp => hparts p (List.mem_cons_of_mem _ hp)
    exact append part parts.flatten (hparts part List.mem_cons_self)
      (Language.join_mem_kstar htail) (ih htail)

theorem mem_one_kstar {p : Char → Bool} {text : List Char} :
    text ∈ (one p)∗ ↔ ∀ c ∈ text, p c = true := by
  constructor
  · intro h
    apply kstar_induction (motive := fun text => ∀ c ∈ text, p c = true) h
    · simp
    · rintro a b ⟨c, hc, rfl⟩ _ hb
      simpa [hc] using hb
  · intro h
    induction text with
    | nil => exact Language.nil_mem_kstar _
    | cons c text ih =>
      have hc : [c] ∈ one p := ⟨c, h c List.mem_cons_self, rfl⟩
      exact append_mem_kstar hc (ih fun d hd => h d (List.mem_cons_of_mem _ hd))

theorem mem_run {first more : Char → Bool} {text : List Char} :
    text ∈ run first more ↔
      ∃ c tail, text = c :: tail ∧ first c = true ∧ ∀ d ∈ tail, more d = true := by
  constructor
  · intro h
    obtain ⟨_, ⟨c, hc, rfl⟩, tail, htail, rfl⟩ := Language.mem_mul.mp h
    exact ⟨c, tail, rfl, hc, mem_one_kstar.mp htail⟩
  · rintro ⟨c, tail, rfl, hc, htail⟩
    exact Language.mem_mul.mpr ⟨[c], ⟨c, hc, rfl⟩, tail, mem_one_kstar.mpr htail, rfl⟩

theorem cons_mem_run {first more : Char → Bool} {c : Char} {tail : List Char} (hc : first c = true)
    (htail : tail.all more = true) : c :: tail ∈ run first more :=
  mem_run.mpr ⟨c, tail, rfl, hc, List.all_eq_true.mp htail⟩

theorem isIdentChar_of_mem_identifier {text : List Char} (h : text ∈ identifier) :
    ∀ c ∈ text, isIdentChar c = true := by
  obtain ⟨c, tail, rfl, hc, htail⟩ := mem_run.mp h
  refine List.forall_mem_cons.mpr ⟨?_, htail⟩
  delta isIdentStart at hc
  delta isIdentChar Char.isAlphanum
  simp only [Bool.or_eq_true] at hc ⊢
  exact hc.imp_left .inl

theorem mem_arguments {text : List Char} :
    text ∈ arguments ↔ ∃ inner, text = '(' :: inner ++ [')'] ∧ ')' ∉ inner := by
  constructor
  · intro h
    obtain ⟨_, hopen, _, rfl, rfl⟩ := Language.mem_mul.mp h
    obtain ⟨_, rfl, inner, hinner, rfl⟩ := Language.mem_mul.mp hopen
    refine ⟨inner, rfl, fun hmem => ?_⟩
    simpa using mem_one_kstar.mp hinner ')' hmem
  · rintro ⟨inner, rfl, hinner⟩
    have hstar : inner ∈ (one (· != ')'))∗ := by
      refine mem_one_kstar.mpr fun c hc => ?_
      have hne : c ≠ ')' := fun h => hinner (h ▸ hc)
      simpa using hne
    exact Language.append_mem_mul (Language.append_mem_mul (a := ['(']) rfl hstar) rfl

end Pattern

open Pattern

/-- The language of a terminal, as the grammar gives its pattern. The end of the input has no text.
-/
def Terminal.language : Terminal → Language Char
  | .ident => identifier
  | .columnType => identifier * (1 + arguments)
  | .defaultValue => quoted '\x27' + quoted '"' + bare
  | .action => letters * nextWord∗
  | .comment => exactly "//" * (one (· != '\n'))∗
  | .blanks => run Text.isBlank Text.isBlank
  | .endOfInput => 0
  | t => exactly (t.literal?.getD "")

end DalSchema
