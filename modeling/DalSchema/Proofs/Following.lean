import DalSchema.Proofs.Accepting

/-!
# Written parts are accepted

The converse of taking accepted lexemes apart: from the place where a written part is wanted its
lexemes lead to the place behind it. Several places lie behind a modifier and behind a member of a
body; they are told apart by what else they allow, and the parts that follow do not ask.
-/

namespace DalSchema

namespace Place

/-- Behind a modifier: another one or the end of the group may follow. -/
def BehindModifier (p : Place) : Prop :=
  p.next .comma = some modifier ∧ p.next .rightBracket = some afterGroup

/-- In a body: a member or the end of the body may follow. -/
def InBody (kind : DeclKind) (p : Place) : Prop :=
  p.next .ident = (body kind false).next .ident ∧ p.next .comment = some (body kind true) ∧
    p.next .rightBrace = some (top false)

/-- Behind a part of a column that may be its last: a group may follow too. -/
def BehindColumn (p : Place) : Prop := p.InBody .table ∧ p.next .leftBracket = some modifier

theorem inBody_body (kind : DeclKind) (flag : Bool) : (body kind flag).InBody kind := by
  cases kind <;> exact ⟨rfl, rfl, rfl⟩

end Place

namespace Written

open Place

theorem follow_clause (c : Clause) : actionKind.follow c.lexemes = some afterAction := by
  obtain ⟨kind, word, colon, phrase⟩ := c
  cases kind <;> rfl

/-- A list with commas, each of whose items leads from `item` to a place where `Behind` holds. -/
theorem follow_tail {α : Type} {lexemes : α → List Lexeme} {item : Place} {Behind : Place → Prop}
    (hcomma : ∀ p, Behind p → p.next .comma = some item)
    (hitem : ∀ x, ∃ q, item.follow (lexemes x) = some q ∧ Behind q)
    (others : List (Word .comma × α)) {p : Place} (hp : Behind p) :
    ∃ q, p.follow (Separated.tailLexemes lexemes others) = some q ∧ Behind q := by
  induction others generalizing p with
  | nil => exact ⟨p, rfl, hp⟩
  | cons x others ih =>
    obtain ⟨q, hq, hbehind⟩ := hitem x.2
    obtain ⟨r, hr, hlast⟩ := ih hbehind
    refine ⟨r, ?_, hlast⟩
    rw [Separated.tailLexemes, List.flatMap_cons, follow_append, follow_cons,
      show p.next x.1.lexeme.terminal = _ from hcomma p hp, Option.bind_some, hq, Option.bind_some]
    exact hr

theorem follow_clauses (c : Clauses) : afterRef.follow c.lexemes = some afterModifier := by
  have hcomma : ∀ p, p = afterAction → p.next .comma = some actionKind := fun _ h => h ▸ rfl
  obtain ⟨q, hq, rfl⟩ :=
    follow_tail hcomma (fun c => ⟨_, follow_clause c, rfl⟩) c.list.others rfl
  have hopen : afterRef.next c.opening.lexeme.terminal = some actionKind := rfl
  rw [Clauses.lexemes, Separated.lexemes, follow_cons, hopen, Option.bind_some, follow_append,
    follow_append, follow_clause, Option.bind_some, hq]
  rfl

theorem follow_modifier (m : Modifier) :
    ∃ q, modifier.follow m.lexemes = some q ∧ q.BehindModifier := by
  cases m with
  | default _ _ _ | primary _ _ | unique _ => exact ⟨afterModifier, rfl, rfl, rfl⟩
  | reference word colon table dot column clauses =>
    cases clauses with
    | none => exact ⟨afterRef, rfl, rfl, rfl⟩
    | some c =>
      refine ⟨afterModifier, ?_, rfl, rfl⟩
      calc modifier.follow (Modifier.reference word colon table dot column (some c)).lexemes
          = afterRef.follow (c.lexemes ++ []) := rfl
        _ = some afterModifier := by rw [List.append_nil, follow_clauses]

theorem follow_group (g : Group) {p : Place} (hp : p.next .leftBracket = some modifier) :
    p.follow g.lexemes = some afterGroup := by
  obtain ⟨q, hq, hbehind⟩ := follow_modifier g.list.first
  obtain ⟨r, hr, _, hclose⟩ := follow_tail (fun _ h => h.1) follow_modifier g.list.others hbehind
  have hopen : p.next g.opening.lexeme.terminal = some modifier := hp
  have hend : r.next g.closing.lexeme.terminal = some afterGroup := hclose
  rw [Group.lexemes, Separated.lexemes, follow_cons, hopen, Option.bind_some, follow_append,
    follow_append, hq, Option.bind_some, hr, Option.bind_some, follow_cons, hend]
  rfl

theorem follow_groups (groups : List Group) {p : Place} (hp : p.BehindColumn) :
    ∃ q, p.follow (groups.flatMap Group.lexemes) = some q ∧ q.BehindColumn := by
  induction groups generalizing p with
  | nil => exact ⟨p, rfl, hp⟩
  | cons g groups ih =>
    obtain ⟨q, hq, hbehind⟩ := ih (p := afterGroup) ⟨⟨rfl, rfl, rfl⟩, rfl⟩
    refine ⟨q, ?_, hbehind⟩
    rw [List.flatMap_cons, follow_append, follow_group g hp.2, Option.bind_some, hq]

theorem follow_column (c : Column) {p : Place} (hp : p.InBody .table) :
    ∃ q, p.follow c.lexemes = some q ∧ q.InBody .table := by
  have hnull : ∃ q, afterType.follow (c.null.toList.map Word.lexeme) = some q ∧ q.BehindColumn := by
    cases c.null with
    | none => exact ⟨afterType, rfl, ⟨rfl, rfl, rfl⟩, rfl⟩
    | some w => exact ⟨afterNull, rfl, ⟨rfl, rfl, rfl⟩, rfl⟩
  obtain ⟨q, hq, hbehind⟩ := hnull
  obtain ⟨r, hr, hlast⟩ := follow_groups c.groups hbehind
  refine ⟨r, ?_, hlast.1⟩
  rw [Column.lexemes, follow_cons, show p.next c.name.lexeme.terminal = _ from hp.1]
  calc afterType.follow (c.null.toList.map Word.lexeme ++ c.groups.flatMap Group.lexemes)
      = some r := by rw [follow_append, hq, Option.bind_some, hr]

theorem follow_member {kind : DeclKind} (m : Member kind) {p : Place} (hp : p.InBody kind) :
    ∃ q, p.follow m.lexemes = some q ∧ q.InBody kind := by
  cases m with
  | entry e =>
    cases kind with
    | enum =>
      refine ⟨body .enum false, ?_, inBody_body _ _⟩
      change (p.next .ident).bind _ = _
      rw [hp.1]
      rfl
    | table => exact follow_column e hp
  | comment w =>
    refine ⟨body kind true, ?_, inBody_body _ _⟩
    change (p.next .comment).bind _ = _
    rw [hp.2.1]
    rfl

theorem follow_members {kind : DeclKind} (members : List (Member kind)) {p : Place}
    (hp : p.InBody kind) :
    ∃ q, p.follow (members.flatMap Member.lexemes) = some q ∧ q.InBody kind := by
  induction members generalizing p with
  | nil => exact ⟨p, rfl, hp⟩
  | cons m members ih =>
    obtain ⟨q, hq, hbody⟩ := follow_member m hp
    obtain ⟨r, hr, hlast⟩ := ih hbody
    refine ⟨r, ?_, hlast⟩
    rw [List.flatMap_cons, follow_append, hq, Option.bind_some, hr]

theorem follow_head {kind : DeclKind} (d : Declaration kind) (flag : Bool) :
    (top flag).follow d.headLexemes = some (body kind false) := by
  obtain ⟨word, name, mark, opening, members, closing⟩ := d
  cases kind <;> cases mark <;> rfl

theorem follow_declaration {kind : DeclKind} (d : Declaration kind) (flag : Bool) :
    (top flag).follow d.lexemes = some (top false) := by
  obtain ⟨q, hq, hbody⟩ := follow_members d.members (inBody_body kind false)
  rw [Declaration.lexemes, follow_append, follow_append, follow_head, Option.bind_some, hq,
    Option.bind_some, follow_cons, show q.next d.closing.lexeme.terminal = _ from hbody.2.2]
  rfl

theorem follow_parts (parts : List Part) (flag : Bool) :
    ∃ flag', (top flag).follow (lexemes parts) = some (top flag') := by
  induction parts generalizing flag with
  | nil => exact ⟨flag, rfl⟩
  | cons p parts ih =>
    have hpart : ∃ flag', (top flag).follow p.lexemes = some (top flag') := by
      cases p with
      | declaration kind d => exact ⟨false, follow_declaration d flag⟩
      | comment w => exact ⟨true, rfl⟩
    obtain ⟨middle, hmiddle⟩ := hpart
    obtain ⟨flag', hrest⟩ := ih middle
    refine ⟨flag', ?_⟩
    rw [lexemes, List.flatMap_cons, follow_append, hmiddle]
    exact hrest

end Written

end DalSchema
