import DalSchema.Proofs.Scanning
import DalSchema.Proofs.Written

/-!
# Accepted lexemes are written parts

The places of the scanner accept just the lexemes of written parts. Each lemma takes the lexemes
that are accepted from a place apart into the first written part there and what is accepted after
it; lists are taken apart by induction on the number of lexemes.
-/

namespace DalSchema

namespace Place

/-- Each lexeme fits its terminal and is allowed where it stands, and the text may end after them.
-/
def Accepts : Place → List Lexeme → Prop
  | p, [] => p.accepting = true
  | p, l :: ls => l.text ∈ l.terminal.language ∧ ∃ q, p.next l.terminal = some q ∧ q.Accepts ls

theorem accepts_iff {p : Place} {ls : List Lexeme} :
    p.Accepts ls ↔ (∀ l ∈ ls, l.text ∈ l.terminal.language) ∧
      ∃ q, p.follow ls = some q ∧ q.accepting = true := by
  induction ls generalizing p with
  | nil => simp [Accepts]
  | cons l ls ih =>
    simp only [Accepts, ih, follow_cons, List.forall_mem_cons, Option.bind_eq_some_iff]
    constructor
    · rintro ⟨hl, q, hnext, hls, r, hfollow, hr⟩
      exact ⟨⟨hl, hls⟩, r, ⟨q, hnext, hfollow⟩, hr⟩
    · rintro ⟨⟨hl, hls⟩, r, ⟨q, hnext, hfollow⟩, hr⟩
      exact ⟨hl, q, hnext, hls, r, hfollow, hr⟩

theorem mem_allowed_of_next {p q : Place} {t : Terminal} (h : p.next t = some q) :
    t ∈ p.allowed :=
  List.mem_filter.mpr ⟨t.mem_all, by simp [h]⟩

/-- Where the text may not end, there is a next word. -/
theorem Accepts.word {p : Place} {ls : List Lexeme} (h : p.Accepts ls)
    (hp : p.accepting = false) :
    ∃ t ∈ p.allowed, ∃ (w : Word t) (q : Place) (rest : List Lexeme),
      ls = w.lexeme :: rest ∧ p.next t = some q ∧ q.Accepts rest := by
  cases ls with
  | nil =>
    rw [Accepts, hp] at h
    cases h
  | cons l ls =>
    obtain ⟨hfits, q, hnext, hrest⟩ := h
    exact ⟨l.terminal, mem_allowed_of_next hnext, ⟨l.text, l.start, hfits⟩, q, ls, rfl, hnext,
      hrest⟩

theorem Accepts.only {p q : Place} {t : Terminal} {ls : List Lexeme} (h : p.Accepts ls)
    (hp : p.accepting = false) (ht : p.allowed = [t]) (hq : p.next t = some q) :
    ∃ (w : Word t) (rest : List Lexeme), ls = w.lexeme :: rest ∧ q.Accepts rest := by
  obtain ⟨u, hu, w, r, rest, rfl, hnext, hrest⟩ := h.word hp
  rw [ht, List.mem_singleton] at hu
  subst hu
  rw [hq] at hnext
  cases hnext
  exact ⟨w, rest, rfl, hrest⟩

end Place

namespace Written

open Place

/-- A list with commas: `item` is the place of its items, `after` the place behind one. -/
theorem accepts_tail {α : Type} {lexemes : α → List Lexeme} {item after q : Place} {t : Terminal}
    (hend : after.accepting = false) (hallowed : after.allowed = [.comma, t])
    (hcomma : after.next .comma = some item) (hclose : after.next t = some q)
    (hitem : ∀ ls, item.Accepts ls → ∃ x rest, ls = lexemes x ++ rest ∧ after.Accepts rest)
    {ls : List Lexeme} (h : after.Accepts ls) :
    ∃ (others : List (Word .comma × α)) (closing : Word t) (rest : List Lexeme),
      ls = Separated.tailLexemes lexemes others ++ closing.lexeme :: rest ∧ q.Accepts rest := by
  -- An item may take any number of lexemes, so the induction is on their number.
  induction hn : ls.length using Nat.strong_induction_on generalizing ls with
  | _ n ih =>
    obtain ⟨u, hu, w, r, ls₁, rfl, hnext, h₁⟩ := h.word hend
    rw [hallowed] at hu
    rcases List.mem_pair.mp hu with rfl | rfl
    · rw [hcomma] at hnext
      cases hnext
      obtain ⟨x, ls₂, rfl, h₂⟩ := hitem _ h₁
      have hshort : ls₂.length < n := by
        rw [← hn, List.length_cons, List.length_append]
        omega
      obtain ⟨others, closing, rest, rfl, h₃⟩ := ih _ hshort h₂ rfl
      exact ⟨(w, x) :: others, closing, rest, by simp [Separated.tailLexemes], h₃⟩
    · rw [hclose] at hnext
      cases hnext
      exact ⟨[], w, ls₁, rfl, h₁⟩

theorem accepts_actionKind {ls : List Lexeme} (h : actionKind.Accepts ls) :
    ∃ (c : Clause) (rest : List Lexeme), ls = c.lexemes ++ rest ∧ afterAction.Accepts rest := by
  obtain ⟨t, ht, word, q, ls₁, rfl, hnext, h₁⟩ := h.word rfl
  have hkind : ∃ kind : ClauseKind, t = kind.word := by
    rw [show actionKind.allowed = [.deleteWord, .updateWord] by decide] at ht
    rcases List.mem_pair.mp ht with rfl | rfl
    · exact ⟨.delete, rfl⟩
    · exact ⟨.update, rfl⟩
  obtain ⟨kind, rfl⟩ := hkind
  have hq : q = actionColon := by cases kind <;> cases hnext <;> rfl
  subst hq
  obtain ⟨colon, ls₂, rfl, h₂⟩ := h₁.only rfl rfl rfl
  obtain ⟨phrase, ls₃, rfl, h₃⟩ := h₂.only rfl rfl rfl
  exact ⟨⟨kind, word, colon, phrase⟩, ls₃, rfl, h₃⟩

theorem accepts_afterAction {ls : List Lexeme} (h : afterAction.Accepts ls) :
    ∃ (others : List (Word .comma × Clause)) (closing : Word .rightParen) (rest : List Lexeme),
      ls = Separated.tailLexemes Clause.lexemes others ++ closing.lexeme :: rest ∧
        afterModifier.Accepts rest :=
  accepts_tail rfl (by decide) rfl rfl (fun _ => accepts_actionKind) h

theorem accepts_leftParen {ls : List Lexeme} (w : Word .leftParen) (h : actionKind.Accepts ls) :
    ∃ (c : Clauses) (rest : List Lexeme), w.lexeme :: ls = c.lexemes ++ rest ∧
      afterModifier.Accepts rest := by
  obtain ⟨first, ls₁, rfl, h₁⟩ := accepts_actionKind h
  obtain ⟨others, closing, rest, rfl, h₂⟩ := accepts_afterAction h₁
  exact ⟨⟨w, ⟨first, others⟩, closing⟩, rest, by simp [Clauses.lexemes, Separated.lexemes], h₂⟩

theorem accepts_afterRef {ls : List Lexeme} (h : afterRef.Accepts ls) :
    ∃ (clauses : Option Clauses) (rest : List Lexeme),
      ls = clauses.toList.flatMap Clauses.lexemes ++ rest ∧ afterModifier.Accepts rest := by
  obtain ⟨t, ht, w, q, ls₁, rfl, hnext, h₁⟩ := h.word rfl
  rw [show afterRef.allowed = [.comma, .leftParen, .rightBracket] by decide] at ht
  simp only [List.mem_cons, List.not_mem_nil, or_false] at ht
  rcases ht with rfl | rfl | rfl <;> cases hnext
  · exact ⟨none, _, rfl, w.fits, _, rfl, h₁⟩
  · obtain ⟨c, rest, heq, h₂⟩ := accepts_leftParen w h₁
    exact ⟨some c, rest, by simpa using heq, h₂⟩
  · exact ⟨none, _, rfl, w.fits, _, rfl, h₁⟩

theorem accepts_modifier {ls : List Lexeme} (h : modifier.Accepts ls) :
    ∃ (m : Modifier) (rest : List Lexeme), ls = m.lexemes ++ rest ∧ afterModifier.Accepts rest := by
  obtain ⟨t, ht, w, q, ls₁, rfl, hnext, h₁⟩ := h.word rfl
  rw [show modifier.allowed = [.defaultWord, .primaryWord, .uniqueWord, .refWord] by decide] at ht
  simp only [List.mem_cons, List.not_mem_nil, or_false] at ht
  rcases ht with rfl | rfl | rfl | rfl <;> cases hnext
  · obtain ⟨colon, ls₂, rfl, h₂⟩ := h₁.only rfl rfl rfl
    obtain ⟨value, ls₃, rfl, h₃⟩ := h₂.only rfl rfl rfl
    exact ⟨.default w colon value, ls₃, rfl, h₃⟩
  · obtain ⟨key, ls₂, rfl, h₂⟩ := h₁.only rfl rfl rfl
    exact ⟨.primary w key, ls₂, rfl, h₂⟩
  · exact ⟨.unique w, ls₁, rfl, h₁⟩
  · obtain ⟨colon, ls₂, rfl, h₂⟩ := h₁.only rfl rfl rfl
    obtain ⟨table, ls₃, rfl, h₃⟩ := h₂.only rfl rfl rfl
    obtain ⟨dot, ls₄, rfl, h₄⟩ := h₃.only rfl rfl rfl
    obtain ⟨column, ls₅, rfl, h₅⟩ := h₄.only rfl rfl rfl
    obtain ⟨clauses, rest, rfl, h₆⟩ := accepts_afterRef h₅
    exact ⟨.reference w colon table dot column clauses, rest, by simp [Modifier.lexemes], h₆⟩

theorem accepts_group {ls : List Lexeme} (w : Word .leftBracket) (h : modifier.Accepts ls) :
    ∃ (g : Group) (rest : List Lexeme), w.lexeme :: ls = g.lexemes ++ rest ∧
      afterGroup.Accepts rest := by
  obtain ⟨first, ls₁, rfl, h₁⟩ := accepts_modifier h
  obtain ⟨others, closing, rest, rfl, h₂⟩ :=
    accepts_tail rfl (t := .rightBracket) (by decide) rfl rfl (fun _ => accepts_modifier) h₁
  exact ⟨⟨w, ⟨first, others⟩, closing⟩, rest, by simp [Group.lexemes, Separated.lexemes], h₂⟩

theorem accepts_afterGroup {ls : List Lexeme} (h : afterGroup.Accepts ls) :
    ∃ (groups : List Group) (rest : List Lexeme), ls = groups.flatMap Group.lexemes ++ rest ∧
      (body .table false).Accepts rest := by
  induction hn : ls.length using Nat.strong_induction_on generalizing ls with
  | _ n ih =>
    obtain ⟨t, ht, w, q, ls₁, rfl, hnext, h₁⟩ := h.word rfl
    rw [show afterGroup.allowed = [.ident, .comment, .rightBrace, .leftBracket] by decide] at ht
    simp only [List.mem_cons, List.not_mem_nil, or_false] at ht
    rcases ht with rfl | rfl | rfl | rfl <;> cases hnext
    · exact ⟨[], _, rfl, w.fits, _, rfl, h₁⟩
    · exact ⟨[], _, rfl, w.fits, _, rfl, h₁⟩
    · exact ⟨[], _, rfl, w.fits, _, rfl, h₁⟩
    · obtain ⟨g, ls₂, heq, h₂⟩ := accepts_group w h₁
      have hshort : ls₂.length < n := by
        rw [← hn, heq, List.length_append, Group.lexemes, List.length_cons]
        omega
      obtain ⟨groups, rest, rfl, h₃⟩ := ih _ hshort h₂ rfl
      exact ⟨g :: groups, rest, by simp [heq], h₃⟩

/-- A group may follow a type as it may follow a group, and a null mark may stand before it. -/
theorem accepts_afterType {ls : List Lexeme} (h : afterType.Accepts ls) :
    ∃ (null : Option (Word .bang)) (rest : List Lexeme),
      ls = null.toList.map Word.lexeme ++ rest ∧ afterGroup.Accepts rest := by
  obtain ⟨t, ht, w, q, ls₁, rfl, hnext, h₁⟩ := h.word rfl
  rw [show afterType.allowed = [.ident, .comment, .bang, .rightBrace, .leftBracket] by decide] at ht
  simp only [List.mem_cons, List.not_mem_nil, or_false] at ht
  rcases ht with rfl | rfl | rfl | rfl | rfl <;> cases hnext
  · exact ⟨none, _, rfl, w.fits, _, rfl, h₁⟩
  · exact ⟨none, _, rfl, w.fits, _, rfl, h₁⟩
  · obtain ⟨u, hu, v, r, ls₂, rfl, hnext, h₂⟩ := h₁.word rfl
    have hsame : afterGroup.next u = some r := by cases u <;> cases hnext <;> rfl
    exact ⟨some w, _, rfl, v.fits, r, hsame, h₂⟩
  · exact ⟨none, _, rfl, w.fits, _, rfl, h₁⟩
  · exact ⟨none, _, rfl, w.fits, _, rfl, h₁⟩

theorem accepts_entry {kind : DeclKind} {ls : List Lexeme} {q : Place} (w : Word .ident)
    (hnext : (body kind false).next .ident = some q) (h : q.Accepts ls) :
    ∃ (e : kind.Entry) (rest : List Lexeme), w.lexeme :: ls = kind.lexemes e ++ rest ∧
      (body kind false).Accepts rest := by
  cases kind with
  | enum =>
    cases hnext
    exact ⟨w, ls, rfl, h⟩
  | table =>
    cases hnext
    obtain ⟨type, ls₁, rfl, h₁⟩ := h.only rfl rfl rfl
    obtain ⟨null, ls₂, rfl, h₂⟩ := accepts_afterType h₁
    obtain ⟨groups, rest, rfl, h₃⟩ := accepts_afterGroup h₂
    exact ⟨(⟨w, type, null, groups⟩ : Column), rest, by simp [DeclKind.lexemes, Column.lexemes], h₃⟩

theorem entry_lexemes_pos {kind : DeclKind} (e : kind.Entry) : 0 < (kind.lexemes e).length := by
  cases kind <;> exact Nat.succ_pos _

theorem accepts_body {kind : DeclKind} {flag : Bool} {ls : List Lexeme}
    (h : (body kind flag).Accepts ls) :
    ∃ (members : List (Member kind)) (closing : Word .rightBrace) (rest : List Lexeme),
      ls = members.flatMap Member.lexemes ++ closing.lexeme :: rest ∧
        (top false).Accepts rest := by
  induction hn : ls.length using Nat.strong_induction_on generalizing flag ls with
  | _ n ih =>
    obtain ⟨t, ht, w, q, ls₁, rfl, hnext, h₁⟩ := h.word rfl
    have hallowed : (body kind flag).allowed = [.ident, .comment, .rightBrace] := by
      cases kind <;> cases flag <;> decide
    rw [hallowed] at ht
    simp only [List.mem_cons, List.not_mem_nil, or_false] at ht
    rcases ht with rfl | rfl | rfl
    · have hentry : (body kind false).next .ident = some q := by cases kind <;> exact hnext
      obtain ⟨e, ls₂, heq, h₂⟩ := accepts_entry w hentry h₁
      have hshort : ls₂.length < n := by
        have hpos := entry_lexemes_pos e
        rw [← hn, heq, List.length_append]
        omega
      obtain ⟨members, closing, rest, rfl, h₃⟩ := ih _ hshort h₂ rfl
      exact ⟨.entry e :: members, closing, rest, by simp [heq, Member.lexemes], h₃⟩
    · have hq : q = body kind true := by cases kind <;> cases hnext <;> rfl
      subst hq
      obtain ⟨members, closing, rest, rfl, h₂⟩ := ih _ (by simp [← hn]) h₁ rfl
      exact ⟨.comment w :: members, closing, rest, by simp [Member.lexemes], h₂⟩
    · have hq : q = top false := by cases kind <;> cases hnext <;> rfl
      subst hq
      exact ⟨[], w, ls₁, rfl, h₁⟩

theorem accepts_declHead {kind : DeclKind} {ls : List Lexeme} (h : (declHead kind).Accepts ls) :
    ∃ (mark : Option Mark) (opening : Word .leftBrace) (rest : List Lexeme),
      ls = mark.toList.flatMap Mark.lexemes ++ opening.lexeme :: rest ∧
        (body kind false).Accepts rest := by
  obtain ⟨t, ht, w, q, ls₁, rfl, hnext, h₁⟩ := h.word rfl
  rw [show (declHead kind).allowed = [.leftBrace, .leftBracket] by cases kind <;> decide] at ht
  rcases List.mem_pair.mp ht with rfl | rfl <;> cases hnext
  · exact ⟨none, w, ls₁, rfl, h₁⟩
  · obtain ⟨word, ls₂, rfl, h₂⟩ := h₁.only rfl rfl rfl
    obtain ⟨closing, ls₃, rfl, h₃⟩ := h₂.only rfl rfl rfl
    obtain ⟨opening, ls₄, rfl, h₄⟩ := h₃.only rfl rfl rfl
    exact ⟨some ⟨w, word, closing⟩, opening, ls₄, by simp [Mark.lexemes], h₄⟩

theorem accepts_declName {kind : DeclKind} {ls : List Lexeme} (w : Word kind.word)
    (h : (declName kind).Accepts ls) :
    ∃ (d : Declaration kind) (rest : List Lexeme), w.lexeme :: ls = d.lexemes ++ rest ∧
      (top false).Accepts rest := by
  obtain ⟨name, ls₁, rfl, h₁⟩ := h.only rfl rfl rfl
  obtain ⟨mark, opening, ls₂, rfl, h₂⟩ := accepts_declHead h₁
  obtain ⟨members, closing, rest, rfl, h₃⟩ := accepts_body h₂
  exact ⟨⟨w, name, mark, opening, members, closing⟩, rest,
    by simp [Declaration.lexemes, Declaration.headLexemes], h₃⟩

theorem accepts_top {flag : Bool} {ls : List Lexeme} (h : (top flag).Accepts ls) :
    ∃ parts : List Part, ls = lexemes parts := by
  induction hn : ls.length using Nat.strong_induction_on generalizing flag ls with
  | _ n ih =>
    cases ls with
    | nil => exact ⟨[], rfl⟩
    | cons l ls₁ =>
      obtain ⟨hfits, q, hnext, h₁⟩ := h
      have hword : l.terminal = .comment ∧ q = top true ∨
          ∃ kind : DeclKind, l.terminal = kind.word ∧ q = declName kind := by
        cases ht : l.terminal <;> rw [ht] at hnext <;> cases hnext
        · exact .inl ⟨rfl, rfl⟩
        · exact .inr ⟨.enum, rfl, rfl⟩
        · exact .inr ⟨.table, rfl, rfl⟩
      obtain ⟨terminal, text, start⟩ := l
      rcases hword with ⟨rfl, rfl⟩ | ⟨kind, rfl, rfl⟩
      · obtain ⟨parts, rfl⟩ := ih _ (by simp [← hn]) h₁ rfl
        exact ⟨.comment ⟨text, start, hfits⟩ :: parts, rfl⟩
      · obtain ⟨d, ls₂, heq, h₂⟩ := accepts_declName ⟨text, start, hfits⟩ h₁
        have hshort : ls₂.length < n := calc
          ls₂.length < d.lexemes.length + ls₂.length := Nat.lt_add_of_pos_left (Nat.succ_pos _)
          _ = n := by rw [← List.length_append, ← heq, ← hn]; rfl
        obtain ⟨parts, rfl⟩ := ih _ hshort h₂ rfl
        exact ⟨.declaration kind d :: parts, heq⟩

end Written

/-- The lexemes of a text are those of written parts. -/
theorem lexemes_eq_written {source : List Char} {ls : List Lexeme} (h : lexemes source = .ok ls) :
    ∃ parts : List Written.Part, ls = Written.lexemes parts := by
  obtain ⟨r, hreads, hfinished⟩ := lexemes_eq_ok_iff.mp h
  exact Written.accepts_top
    (Place.accepts_iff.mpr ⟨hreads.mem_language, _, hreads.follow, hfinished.1⟩)

end DalSchema
