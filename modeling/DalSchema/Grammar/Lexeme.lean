import DalSchema.Grammar.Terminal
import DalSchema.Text.Spacing

/-!
# Lexemes

A lexeme is a terminal with its text and place in the source. `Terminal.lex?` splits off the text of
a terminal at the start of the input. Its main law is `Terminal.lex?_divides`: the text and the rest
make up the input, and the text is not empty.
-/

namespace DalSchema

structure Lexeme where
  terminal : Terminal
  text : List Char
  start : Nat
  deriving Repr, DecidableEq, Inhabited

/-- The offset after the last character. -/
def Lexeme.stop (l : Lexeme) : Nat := l.start + l.text.length

namespace Lexeme

def isIdentStart (c : Char) : Bool := c.isAlpha || c == '_'

def isIdentChar (c : Char) : Bool := c.isAlphanum || c == '_'

/-- What may stand in a default value that is not quoted. -/
def isBareChar (c : Char) : Bool := !(Text.isSpace c || c == ',' || c == '[' || c == ']')

/-- A non-empty run whose first character satisfies `first` and whose others satisfy `more`. -/
def run? (first more : Char → Bool) : List Char → Option (List Char × List Char)
  | [] => none
  | c :: rest => if first c then some (c :: rest.takeWhile more, rest.dropWhile more) else none

def ident? : List Char → Option (List Char × List Char) := run? isIdentStart isIdentChar

/-- A group in round brackets at the start of the input, up to the first closing bracket. -/
def group? : List Char → Option (List Char × List Char)
  | '(' :: rest =>
    match rest.dropWhile (· != ')') with
    | close :: after => some ('(' :: rest.takeWhile (· != ')') ++ [close], after)
    | [] => none
  | _ => none

/-- An identifier and the group that directly follows it, if one does. -/
def columnType? (cs : List Char) : Option (List Char × List Char) :=
  (ident? cs).map fun (name, rest) =>
    match group? rest with
    | some (group, after) => (name ++ group, after)
    | none => (name, rest)

/-- The inside of a quoted value with its closing quote. A backslash takes the next character with
it, unless that is a line feed. -/
def quotedTail? (quote : Char) : List Char → Option (List Char × List Char)
  | [] => none
  | c :: rest =>
    if c == quote then some ([c], rest)
    else if c == '\\' then
      match rest with
      | d :: rest =>
        if d == '\n' then none else (quotedTail? quote rest).map fun r => (c :: d :: r.1, r.2)
      | [] => none
    else (quotedTail? quote rest).map fun r => (c :: r.1, r.2)

def quoted? (quote : Char) : List Char → Option (List Char × List Char)
  | [] => none
  | c :: rest => if c == quote then (quotedTail? quote rest).map fun r => (c :: r.1, r.2) else none

def bare? : List Char → Option (List Char × List Char) := run? isBareChar isBareChar

/-- A quoted value if the quotes close, otherwise a run of bare characters. -/
def defaultValue? (cs : List Char) : Option (List Char × List Char) :=
  (quoted? '\x27' cs).or ((quoted? '"' cs).or (bare? cs))

/-- The rest of a phrase: letters, and single spaces that a letter follows. -/
def phraseTail : List Char → List Char × List Char
  | [] => ([], [])
  | c :: rest =>
    if isIdentStart c || (c == ' ' && rest.head?.any isIdentStart) then
      let r := phraseTail rest
      (c :: r.1, r.2)
    else ([], c :: rest)

/-- Words of letters with one space between two of them. -/
def phrase? : List Char → Option (List Char × List Char)
  | [] => none
  | c :: rest =>
    if isIdentStart c then
      let r := phraseTail rest
      some (c :: r.1, r.2)
    else none

/-- Two slashes and all up to the end of the line. -/
def comment? : List Char → Option (List Char × List Char)
  | '/' :: '/' :: rest =>
    some ('/' :: '/' :: rest.takeWhile (· != '\n'), rest.dropWhile (· != '\n'))
  | _ => none

/-- A fixed text at the start of the input. -/
def literal? (word cs : List Char) : Option (List Char × List Char) :=
  if word.isPrefixOf cs && !word.isEmpty then some (word, cs.drop word.length) else none

/-- `split` divides its input: text and rest make up the input, and the text is not empty. -/
def Divides (split : List Char → Option (List Char × List Char)) : Prop :=
  ∀ ⦃cs text rest⦄, split cs = some (text, rest) → text ++ rest = cs ∧ text ≠ []

theorem run?_divides (first more : Char → Bool) : Divides (run? first more) := by
  intro cs text rest h
  cases cs with
  | nil => cases h
  | cons c cs =>
    simp only [run?] at h
    split at h
    · cases h; simp
    · cases h

theorem group?_divides : Divides group? := by
  intro cs text rest h
  unfold group? at h
  split at h
  · rename_i inner
    split at h
    · rename_i close after hdrop
      cases h
      have := List.takeWhile_append_dropWhile (p := (· != ')')) (l := inner)
      rw [hdrop] at this
      simp [List.append_assoc, this]
    · cases h
  · cases h

theorem columnType?_divides : Divides columnType? := by
  intro cs text rest h
  obtain ⟨⟨name, after⟩, hname, hrest⟩ := Option.map_eq_some_iff.mp h
  obtain ⟨happend, hne⟩ := run?_divides _ _ hname
  cases hgroup : group? after with
  | none =>
    simp only [hgroup, Prod.mk.injEq] at hrest
    obtain ⟨rfl, rfl⟩ := hrest
    exact ⟨happend, hne⟩
  | some g =>
    obtain ⟨group, final⟩ := g
    simp only [hgroup, Prod.mk.injEq] at hrest
    obtain ⟨rfl, rfl⟩ := hrest
    refine ⟨?_, by simp [hne]⟩
    rw [List.append_assoc, (group?_divides hgroup).1, happend]

theorem quotedTail?_divides (quote : Char) : Divides (quotedTail? quote) := by
  intro cs
  fun_induction quotedTail? quote cs with
  | case1 => simp
  | case2 c rest hc => simp
  | case3 => simp
  | case4 c hc hb d rest hd ih =>
    intro text after h
    obtain ⟨⟨inner, last⟩, htail, hpair⟩ := Option.map_eq_some_iff.mp h
    cases hpair
    simp [(ih htail).1]
  | case5 => simp
  | case6 c rest hc hb ih =>
    intro text after h
    obtain ⟨⟨inner, last⟩, htail, hpair⟩ := Option.map_eq_some_iff.mp h
    cases hpair
    simp [(ih htail).1]

theorem quoted?_divides (quote : Char) : Divides (quoted? quote) := by
  intro cs text rest h
  cases cs with
  | nil => cases h
  | cons c cs =>
    simp only [quoted?] at h
    split at h
    · obtain ⟨⟨inner, last⟩, htail, hpair⟩ := Option.map_eq_some_iff.mp h
      cases hpair
      simp [(quotedTail?_divides quote htail).1]
    · cases h

theorem defaultValue?_divides : Divides defaultValue? := by
  intro cs text rest h
  rcases Option.or_eq_some_iff.mp h with hs | ⟨_, h⟩
  · exact quoted?_divides _ hs
  · rcases Option.or_eq_some_iff.mp h with hd | ⟨_, hb⟩
    · exact quoted?_divides _ hd
    · exact run?_divides _ _ hb

theorem phraseTail_append (cs : List Char) : (phraseTail cs).1 ++ (phraseTail cs).2 = cs := by
  fun_induction phraseTail cs with
  | case1 => rfl
  | case2 c rest hc r ih => simpa using ih
  | case3 => rfl

theorem phrase?_divides : Divides phrase? := by
  intro cs text rest h
  cases cs with
  | nil => cases h
  | cons c cs =>
    simp only [phrase?] at h
    split at h
    · cases h
      simp [phraseTail_append]
    · cases h

theorem comment?_divides : Divides comment? := by
  intro cs text rest h
  unfold comment? at h
  split at h
  · cases h; simp
  · cases h

theorem literal?_divides (word : List Char) : Divides (literal? word) := by
  intro cs text rest h
  simp only [literal?, Bool.and_eq_true, List.isPrefixOf_iff_prefix] at h
  split at h
  · rename_i hp
    obtain ⟨⟨tail, rfl⟩, hne⟩ := hp
    cases h
    simpa using hne
  · cases h

end Lexeme

/-- The text of the terminal at the start of the input, and what follows it. -/
def Terminal.lex? (t : Terminal) (cs : List Char) : Option (List Char × List Char) :=
  match t with
  | .ident => Lexeme.ident? cs
  | .columnType => Lexeme.columnType? cs
  | .defaultValue => Lexeme.defaultValue? cs
  | .action => Lexeme.phrase? cs
  | .comment => Lexeme.comment? cs
  | .blanks => Lexeme.run? Text.isBlank Text.isBlank cs
  | t => (t.literal?).bind fun word => Lexeme.literal? word.toList cs

theorem Terminal.lex?_divides (t : Terminal) : Lexeme.Divides t.lex? := by
  intro cs text rest h
  cases t <;> simp only [Terminal.lex?, Terminal.literal?, Option.bind_some, Option.bind_none] at h
  case ident => exact Lexeme.run?_divides _ _ h
  case columnType => exact Lexeme.columnType?_divides h
  case defaultValue => exact Lexeme.defaultValue?_divides h
  case action => exact Lexeme.phrase?_divides h
  case comment => exact Lexeme.comment?_divides h
  case blanks => exact Lexeme.run?_divides _ _ h
  case endOfInput => cases h
  all_goals exact Lexeme.literal?_divides _ h

theorem Terminal.length_rest_lt {t : Terminal} {cs text rest : List Char}
    (h : t.lex? cs = some (text, rest)) : rest.length < cs.length := by
  obtain ⟨happend, hne⟩ := t.lex?_divides h
  have := List.length_pos_iff.mpr hne
  rw [← happend, List.length_append]
  omega

end DalSchema
