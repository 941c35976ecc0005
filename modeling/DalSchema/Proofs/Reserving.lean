import DalSchema.Proofs.Boundaries
import DalSchema.Proofs.Splicing

/-!
# Reserved words behind a comment

Behind a comment the words `enum` and `table` are keywords also where a name is wanted, and a
keyword ends where a name would. So what begins at a boundary can be read there just if its word, as
far as it goes, is reserved before a declaration and is not reserved before a member.
-/

namespace DalSchema

open Lexeme

/-- The words that begin declarations. -/
def Reserved (word : List Char) : Prop := ∃ kind : DeclKind, word ∈ kind.word.language

theorem takeWhile_name {name rest : List Char} (hname : name ∈ Pattern.identifier)
    (hrest : Clear isIdentChar rest) : (name ++ rest).takeWhile isIdentChar = name :=
  (takeWhile_append_of_clear (Pattern.isIdentChar_of_mem_identifier hname) hrest).1

section

variable {kind : DeclKind} {word rest : List Char}

theorem mem_word_iff : word ∈ kind.word.language ↔
    kind = .enum ∧ word = ['e', 'n', 'u', 'm'] ∨
      kind = .table ∧ word = ['t', 'a', 'b', 'l', 'e'] := by
  cases kind
  · exact ⟨fun h => .inl ⟨rfl, h⟩, fun h => h.elim And.right nofun⟩
  · exact ⟨fun h => .inr ⟨rfl, h⟩, fun h => h.elim nofun And.right⟩

theorem mem_identifier_of_word (h : word ∈ kind.word.language) : word ∈ Pattern.identifier := by
  rcases mem_word_iff.mp h with ⟨rfl, rfl⟩ | ⟨rfl, rfl⟩
  · exact Pattern.cons_mem_run (by decide) (by decide)
  · exact Pattern.cons_mem_run (by decide) (by decide)

/-- No keyword goes on as another. -/
theorem clear_of_reserved (h : word ∈ kind.word.language)
    (hreserved : Reserved ((word ++ rest).takeWhile isIdentChar)) : Clear isIdentChar rest := by
  have hall : ∀ c ∈ word, isIdentChar c = true :=
    Pattern.isIdentChar_of_mem_identifier (mem_identifier_of_word h)
  rw [List.takeWhile_append_of_pos hall] at hreserved
  obtain ⟨other, hother⟩ := hreserved
  have hempty : rest.takeWhile isIdentChar = [] := by
    rcases mem_word_iff.mp h with ⟨_, rfl⟩ | ⟨_, rfl⟩ <;>
      rcases mem_word_iff.mp hother with ⟨_, heq⟩ | ⟨_, heq⟩
    · exact List.append_right_eq_self.mp heq
    · cases heq
    · cases heq
    · exact List.append_right_eq_self.mp heq
  intro d hd
  cases rest with
  | nil => cases hd
  | cons e rest =>
    cases hd
    by_contra hne
    simp [List.takeWhile_cons, hne] at hempty

variable {p : Place} (hp : p.reservesWords = true)
include hp

theorem Place.classify_word (h : word ∈ kind.word.language) :
    p.classify .ident word = kind.word := by
  rcases mem_word_iff.mp h with ⟨rfl, rfl⟩ | ⟨rfl, rfl⟩ <;> simp [classify, hp, DeclKind.word]

theorem Place.classify_name (h : ¬Reserved word) : p.classify .ident word = .ident := by
  have henum : word ≠ ['e', 'n', 'u', 'm'] := fun heq => h ⟨.enum, heq⟩
  have htable : word ≠ ['t', 'a', 'b', 'l', 'e'] := fun heq => h ⟨.table, heq⟩
  simp [classify, hp, henum, htable]

end

/-- Behind a comment a word is read as far as it goes. -/
theorem Place.word_of_step {q : Place} (hq : q.trial = afterCommentTrial) {offset : Nat}
    {word rest : List Char} (hword : word ∈ Pattern.identifier) {m : Lexeme} {c : Reader}
    (h : Reader.Step ⟨q, offset, '\n' :: (word ++ rest)⟩ m c) :
    m.text = (word ++ rest).takeWhile isIdentChar ∧ m.terminal = q.classify .ident m.text := by
  have hident : .ident ∈ q.trial := by
    rw [hq]
    decide
  obtain ⟨hsame, hmem, hends, hclass⟩ := h.newLine hident hword
  rw [hsame, takeWhile_name hmem hends]
  exact ⟨rfl, hclass.symm⟩

namespace Boundary

variable {b : Boundary} {p q : Place} {t : Terminal}

theorem Fits.next_comment (h : b.Fits p q t) : p.next .comment = some q := by
  cases b with
  | declaration =>
    obtain ⟨⟨flag, rfl⟩, rfl, _⟩ := h
    rfl
  | member | closing =>
    obtain ⟨kind, hp, rfl, _⟩ := h
    exact hp.2.1

theorem Fits.reservesWords (h : b.Fits p q t) :
    q.reservesWords = true ∧ q.trial = Place.afterCommentTrial := by
  cases b with
  | declaration =>
    obtain ⟨_, rfl, _⟩ := h
    exact ⟨rfl, rfl⟩
  | member | closing =>
    obtain ⟨kind, _, rfl, _⟩ := h
    exact ⟨rfl, rfl⟩

theorem Fits.next_eq (h : b.Fits p q t) : q.next t = p.next t := by
  cases b with
  | declaration =>
    obtain ⟨⟨flag, rfl⟩, rfl, kind, rfl⟩ := h
    cases kind <;> rfl
  | member =>
    obtain ⟨kind, hp, rfl, rfl⟩ := h
    rw [hp.1]
    cases kind <;> rfl
  | closing =>
    obtain ⟨kind, hp, rfl, rfl⟩ := h
    rw [hp.2.2]
    cases kind <;> rfl

/-- Behind a comment the word is allowed if it is reserved just where a declaration begins. -/
theorem Fits.next_classify (h : b.Fits p q t) (hb : b ≠ .closing) (word : List Char) :
    (q.next (q.classify .ident word)).isSome = true ↔ (b = .declaration ↔ Reserved word) := by
  by_cases hword : Reserved word
  · obtain ⟨kind, hkind⟩ := id hword
    rw [Place.classify_word h.reservesWords.1 hkind]
    cases b with
    | declaration =>
      obtain ⟨_, rfl, _⟩ := h
      exact iff_of_true (by cases kind <;> rfl) (iff_of_true rfl hword)
    | member =>
      obtain ⟨body, _, rfl, _⟩ := h
      refine iff_of_false (by cases kind <;> cases body <;> decide) fun hiff => ?_
      cases hiff.mpr hword
    | closing => exact absurd rfl hb
  · rw [Place.classify_name h.reservesWords.1 hword]
    cases b with
    | declaration =>
      obtain ⟨_, rfl, _⟩ := h
      exact iff_of_false (by decide) fun hiff => hword (hiff.mp rfl)
    | member =>
      obtain ⟨body, _, rfl, _⟩ := h
      exact iff_of_true (by cases body <;> rfl) (iff_of_false nofun hword)
    | closing => exact absurd rfl hb

section

variable {text rest : List Char}

theorem Fits.mem_identifier (h : b.Fits p q t) (hb : b ≠ .closing) (htext : text ∈ t.language) :
    text ∈ Pattern.identifier := by
  cases b with
  | declaration =>
    obtain ⟨_, _, kind, rfl⟩ := h
    exact mem_identifier_of_word htext
  | member =>
    obtain ⟨_, _, _, rfl⟩ := h
    exact htext
  | closing => exact absurd rfl hb

/-- What is read at a boundary is also read behind a comment there if the word is kept. -/
theorem Fits.takes (h : b.Fits p q t) (htakes : p.Takes t text rest)
    (hword : b = .declaration ↔ Reserved ((text ++ rest).takeWhile isIdentChar)) :
    q.Takes t text rest := by
  obtain ⟨hreserves, htrial⟩ := h.reservesWords
  cases b with
  | declaration =>
    obtain ⟨_, _, kind, rfl⟩ := h
    have hmem := htakes.mem_language
    refine ⟨.ident, by rw [htrial]; decide, mem_identifier_of_word hmem,
      clear_of_reserved hmem (hword.mp rfl), Place.classify_word hreserves hmem⟩
  | member =>
    obtain ⟨_, _, _, rfl⟩ := h
    obtain ⟨u, _, hmem, hends, hclass⟩ := htakes
    have hu : u = .ident := by
      by_contra hne
      exact hne ((Place.classify_of_ne hne text).symm.trans hclass)
    subst hu
    rw [takeWhile_name hmem hends] at hword
    exact ⟨.ident, by rw [htrial]; decide, hmem, hends,
      Place.classify_name hreserves fun hreserved => nomatch hword.mpr hreserved⟩
  | closing =>
    obtain ⟨_, _, _, rfl⟩ := h
    exact ⟨.rightBrace, by rw [htrial]; decide, htakes.mem_language, trivial,
      Place.classify_of_ne (by decide) text⟩

/-- If anything is read behind a comment and a line feed, the word is kept. -/
theorem Fits.word_of_step (h : b.Fits p q t) (htakes : p.Takes t text rest) {offset : Nat}
    {m : Lexeme} {c : Reader} (hstep : Reader.Step ⟨q, offset, '\n' :: (text ++ rest)⟩ m c) :
    b = .declaration ↔ Reserved ((text ++ rest).takeWhile isIdentChar) := by
  obtain ⟨_, htrial⟩ := h.reservesWords
  by_cases hb : b = .closing
  · subst hb
    obtain ⟨_, _, _, rfl⟩ := h
    rw [Pattern.mem_exactly.mp htakes.mem_language]
    refine iff_of_false nofun ?_
    rintro ⟨kind, hword⟩
    rcases mem_word_iff.mp hword with ⟨_, heq⟩ | ⟨_, heq⟩ <;> cases heq
  · have hname : text ∈ Pattern.identifier := h.mem_identifier hb htakes.mem_language
    obtain ⟨htext, hclass⟩ := Place.word_of_step htrial hname hstep
    obtain ⟨_, _, _, _, _, _, hnext⟩ := Reader.step_iff.mp hstep
    rw [← htext, ← h.next_classify hb, ← hclass, hnext]
    rfl

end

end Boundary

end DalSchema
