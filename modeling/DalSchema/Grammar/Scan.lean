import DalSchema.Grammar.Lexeme
import DalSchema.Grammar.Place

/-!
# Scanning

`scan` reads a schema text from a place to the end: it skips blanks, splits off the first terminal
that is tried there and matches, and goes on at the next place. Reading stops at the first text that
the place does not allow.
-/

namespace DalSchema

inductive Rejection where
  | endOfInput (offset : Nat) (expected : List Terminal)
  | token (text : List Char) (start : Nat) (expected : List Terminal)
  | character (found : Char) (offset : Nat) (expected : List Terminal)
  deriving Repr, DecidableEq, Inhabited

namespace Place

def classify (p : Place) (t : Terminal) (text : List Char) : Terminal :=
  if p.reservesWords && t == .ident then
    if text == ['e', 'n', 'u', 'm'] then .enumWord
    else if text == ['t', 'a', 'b', 'l', 'e'] then .tableWord
    else .ident
  else t

def firstMatch? (cs : List Char) : List Terminal → Option (Terminal × List Char × List Char)
  | [] => none
  | t :: others =>
    match t.lex? cs with
    | some (text, rest) => some (t, text, rest)
    | none => firstMatch? cs others

theorem firstMatch?_eq_some {cs : List Char} {ts : List Terminal} {t : Terminal}
    {text rest : List Char} (h : firstMatch? cs ts = some (t, text, rest)) :
    t ∈ ts ∧ t.lex? cs = some (text, rest) := by
  induction ts with
  | nil => cases h
  | cons u others ih =>
    rw [firstMatch?] at h
    split at h
    · rename_i found after hlex
      cases h
      exact ⟨List.mem_cons_self, hlex⟩
    · obtain ⟨hmem, hlex⟩ := ih h
      exact ⟨List.mem_cons_of_mem _ hmem, hlex⟩

end Place

/-- The text that is reported where no terminal matches: the longest default value, or one of the
three marks that no default value holds. -/
def strayText? (cs : List Char) : Option (List Char) :=
  match Lexeme.defaultValue? cs, cs with
  | some (text, _), _ => some text
  | none, c :: _ => if c == ',' || c == '[' || c == ']' then some [c] else none
  | none, [] => none

def Place.reject (p : Place) (start : Nat) (c : Char) (rest : List Char) : Rejection :=
  match strayText? (c :: rest) with
  | some text => .token text start p.trial
  | none => .character c start p.trial

/-- What is found at a place: the end of a complete text, or a lexeme with the place after it and
the characters left. -/
inductive Found where
  | finished
  | lexeme (lexeme : Lexeme) (place : Place) (rest : List Char)
  deriving Repr, DecidableEq, Inhabited

/-- One step of reading from place `p`, the characters left being `cs` and the first of them having
offset `offset`. -/
def Place.step (p : Place) (offset : Nat) (cs : List Char) : Except Rejection Found :=
  match cs.dropWhile Text.isBlank with
  | [] => if p.accepting then .ok .finished else .error (.endOfInput (offset + cs.length) p.trial)
  | c :: rest =>
    let start := offset + (cs.takeWhile Text.isBlank).length
    match Place.firstMatch? (c :: rest) p.trial with
    | none => .error (p.reject start c rest)
    | some (t, text, after) =>
      match p.next (p.classify t text) with
      | none => .error (.token text start p.allowed)
      | some q => .ok (.lexeme ⟨p.classify t text, text, start⟩ q after)

theorem Place.step_length_lt {p q : Place} {offset : Nat} {cs rest : List Char} {l : Lexeme}
    (h : p.step offset cs = .ok (.lexeme l q rest)) : rest.length < cs.length := by
  have hblank := (List.dropWhile_suffix Text.isBlank (l := cs)).length_le
  rw [Place.step] at h
  split at h
  · split at h <;> cases h
  · rename_i c tail hcs
    rw [hcs] at hblank
    simp only at h
    split at h
    · cases h
    · rename_i t text after hmatch
      split at h
      · cases h
      · cases h
        have hshort := Terminal.length_rest_lt (Place.firstMatch?_eq_some hmatch).2
        omega

def scan (p : Place) (offset : Nat) (cs : List Char) : Except Rejection (List Lexeme) :=
  match _found : p.step offset cs with
  | .error rejection => .error rejection
  | .ok .finished => .ok []
  | .ok (.lexeme l q rest) =>
    match scan q l.stop rest with
    | .ok others => .ok (l :: others)
    | .error rejection => .error rejection
termination_by cs.length
decreasing_by exact Place.step_length_lt _found

def lexemes (source : List Char) : Except Rejection (List Lexeme) := scan (.top false) 0 source

end DalSchema
