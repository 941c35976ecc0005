import DalSchema.Proofs.Accepting
import DalSchema.Proofs.Grammar
import DalSchema.Proofs.Growing
import DalSchema.Proofs.Reporting

/-!
# Trees are derivations of the grammar

Each written part is derived by its rule, and the derivation shows the node of the part. Since the
lexemes of a text are those of written parts, and those grow into the nodes of the parts, the tree
of a text is a derivation of its lexemes with what is not shown left out.
-/

namespace DalSchema

open DalSchema.Derivation

namespace Word

variable {t : Terminal}

theorem yields_none (w : Word t) (h : shows t = false) : Yields (.terminal t) [w.lexeme] [] :=
  Yields.dropped (l := w.lexeme) h

theorem yields_node {r : Rule} {c : Category} (w : Word t) (hbody : r.body = .terminal t)
    (hc : r.category? = some c) (h : shows t = true) :
    Yields (.rule r) [w.lexeme] [w.node c] := by
  have hkept : Yields r.body [w.lexeme] [Draft.leaf w.lexeme] := by
    rw [hbody]
    exact Yields.kept (l := w.lexeme) h
  exact .named hc hkept

end Word

namespace Written

theorem Clause.yields (c : Clause) : Yields (.rule .refActionItem) c.lexemes [c.node] := by
  obtain ⟨kind, word, colon, phrase⟩ := c
  have hphrase : Yields (.rule .action) [phrase.lexeme] [phrase.node .action] :=
    phrase.yields_node rfl rfl rfl
  cases kind with
  | delete =>
    have hbody := ((word.yields_none rfl).seq (colon.yields_none rfl)).seq hphrase
    exact .inlined rfl (.altLeft (.named (r := .refActionDelete) rfl hbody))
  | update =>
    have hbody := ((word.yields_none rfl).seq (colon.yields_none rfl)).seq hphrase
    exact .inlined rfl (.altRight (.named (r := .refActionUpdate) rfl hbody))

theorem Separated.yields_tail {α : Type} {item : Body} {lexemes : α → List Lexeme} {node : α → Node}
    (h : ∀ x, Yields item (lexemes x) [node x]) (others : List (Word .comma × α)) :
    Yields (.star (.terminal .comma ++ item)) (Separated.tailLexemes lexemes others)
      ((others.map Prod.snd).map node) := by
  rw [List.map_map]
  exact .starMap (fun x => (x.1.yields_none rfl).seq (h x.2)) others

theorem Clauses.yields (c : Clauses) : Yields (.rule .refAction) c.lexemes [c.node] := by
  have hbody := (((c.opening.yields_none rfl).seq c.list.first.yields).seq
    (Separated.yields_tail Clause.yields c.list.others)).seq (c.closing.yields_none rfl)
  have hnamed := Yields.named (r := .refAction) rfl hbody
  simpa [Clauses.lexemes, Clauses.node, Separated.lexemes, Separated.items] using hnamed

theorem Modifier.yields (m : Modifier) : Yields (.rule .modifier) m.lexemes [m.node] := by
  refine .inlined rfl ?_
  cases m with
  | default word colon value =>
    have hvalue : Yields (.rule .modifierDefaultValue) _ _ := value.yields_node rfl rfl rfl
    have hbody := ((word.yields_none rfl).seq (colon.yields_none rfl)).seq hvalue
    exact .altLeft (.named (r := .modifierDefault) rfl hbody)
  | primary word key =>
    have hbody := (word.yields_none rfl).seq (key.yields_none rfl)
    exact .altRight (.altLeft (.named (r := .modifierPrimary) rfl hbody))
  | unique word =>
    have hbody := word.yields_none rfl
    exact .altRight (.altRight (.altLeft (.named (r := .modifierUnique) rfl hbody)))
  | reference word colon table dot column clauses =>
    have htable : Yields (.rule .ident) _ _ := table.yields_node rfl rfl rfl
    have hcolumn : Yields (.rule .ident) _ _ := column.yields_node rfl rfl rfl
    have hbody := (((((word.yields_none rfl).seq (colon.yields_none rfl)).seq htable).seq
      (dot.yields_none rfl)).seq hcolumn).seq (Yields.opt Clauses.yields clauses)
    exact .altRight (.altRight (.altRight (.named (r := .modifierRef) rfl hbody)))

theorem Group.yields (g : Group) :
    Yields (.terminal .leftBracket ++ .rule .modifier ++
      .star (.terminal .comma ++ .rule .modifier) ++ .terminal .rightBracket)
      g.lexemes (g.list.items.map Modifier.node) := by
  have hbody := (((g.opening.yields_none rfl).seq g.list.first.yields).seq
    (Separated.yields_tail Modifier.yields g.list.others)).seq (g.closing.yields_none rfl)
  simpa [Group.lexemes, Separated.lexemes, Separated.items] using hbody

/-- The groups of a column are under one node, which is missing if there are none. -/
theorem Column.yields_modifiers (c : Column) :
    Yields (.opt (.rule .modifiers)) (c.groups.flatMap Group.lexemes) c.modifierNodes := by
  obtain ⟨name, type, null, groups⟩ := c
  cases groups with
  | nil => exact .optNone
  | cons g groups =>
    have hnamed := Yields.named (r := .modifiers) rfl (Yields.plus Group.yields g groups)
    simpa [Column.modifierNodes, Column.modifiers, List.map_flatMap] using hnamed.optSome

theorem Column.yields (c : Column) : Yields (.rule .column) c.lexemes [c.node] := by
  have hname : Yields (.rule .ident) _ _ := c.name.yields_node rfl rfl rfl
  have htype : Yields (.rule .columnType) _ _ := c.type.yields_node rfl rfl rfl
  have hnull := Yields.opt (a := .rule .null)
    (fun w : Word .bang => .named rfl (w.yields_none rfl)) c.null
  have hbody := ((hname.seq htype).seq hnull).seq c.yields_modifiers
  have hnamed := Yields.named (r := .column) rfl hbody
  simpa [Column.lexemes, Column.node, List.map_eq_flatMap] using hnamed

theorem Mark.yields (m : Mark) : Yields (.rule .exists_) m.lexemes [m.node] :=
  .named rfl (((m.opening.yields_none rfl).seq (m.word.yields_none rfl)).seq
    (m.closing.yields_none rfl))

end Written

namespace DeclKind

def rule : DeclKind → Rule
  | enum => .declEnum
  | table => .declTable

def memberRule : DeclKind → Rule
  | enum => .enumMember
  | table => .tableMember

theorem body_rule (kind : DeclKind) :
    kind.rule.body = .terminal kind.word ++ .rule .ident ++ .opt (.rule .exists_) ++
      .terminal .leftBrace ++ .star (.rule kind.memberRule) ++ .terminal .rightBrace := by
  cases kind <;> rfl

end DeclKind

namespace Written

variable {kind : DeclKind}

theorem Member.yields (m : Member kind) : Yields (.rule kind.memberRule) m.lexemes [m.node] := by
  cases m with
  | entry e =>
    cases kind with
    | enum =>
      have hvariant : Yields (.rule .variant) _ _ := Word.yields_node (t := .ident) e rfl rfl rfl
      exact .inlined rfl (.altLeft hvariant)
    | table => exact .inlined rfl (.altLeft (Column.yields e))
  | comment w =>
    have hcomment : Yields (.rule .comment) _ _ := w.yields_node rfl rfl rfl
    cases kind <;> exact .inlined rfl (.altRight hcomment)

theorem Declaration.yields (d : Declaration kind) :
    Yields (.rule kind.rule) d.lexemes [d.node] := by
  have hname : Yields (.rule .ident) _ _ := d.name.yields_node rfl rfl rfl
  have hword : Yields (.terminal kind.word) _ _ := d.word.yields_none (by cases kind <;> rfl)
  have hbody := ((((hword.seq hname).seq (.opt Mark.yields d.mark)).seq
    (d.opening.yields_none rfl)).seq (.starMap Member.yields d.members)).seq
      (d.closing.yields_none rfl)
  rw [← DeclKind.body_rule] at hbody
  have hnamed := Yields.named (c := kind.category) (by cases kind <;> rfl) hbody
  simpa [Declaration.lexemes, Declaration.headLexemes, Declaration.node] using hnamed

theorem Part.yields (p : Part) : Yields (.rule .topItem) p.lexemes [p.node] := by
  refine .inlined rfl ?_
  cases p with
  | declaration kind d =>
    cases kind with
    | enum => exact .altLeft d.yields
    | table => exact .altRight (.altLeft d.yields)
  | comment w =>
    have hcomment : Yields (.rule .comment) _ _ := w.yields_node rfl rfl rfl
    exact .altRight (.altRight hcomment)

theorem yields_schema (parts : List Part) :
    Yields (.rule .schema) (lexemes parts) [Node.ofLexemes (lexemes parts)] := by
  rw [ofLexemes_lexemes]
  exact .named rfl (.starMap Part.yields parts)

end Written

/-- From an offset on, the characters are these lexemes, each at its own offset, with nothing but
blanks before, between and after them. -/
inductive Laid : Nat → List Char → List Lexeme → Prop where
  | finish {offset : Nat} {gap : List Char} (blank : Text.Blank gap) : Laid offset gap []
  | lexeme {offset : Nat} {gap rest : List Char} {l : Lexeme} {ls : List Lexeme}
      (blank : Text.Blank gap) (start : l.start = offset + gap.length)
      (tail : Laid l.stop rest ls) : Laid offset (gap ++ (l.text ++ rest)) (l :: ls)

theorem Reader.Reads.laid {a b : Reader} {ls : List Lexeme} (h : a.Reads ls b)
    (hb : Text.Blank b.rest) : Laid a.offset a.rest ls := by
  induction h with
  | refl => exact .finish hb
  | cons head tail ih =>
    obtain ⟨gap, hgap, hrest, hstart, hoffset, _⟩ := Reader.step_iff.mp head
    rw [hrest]
    exact .lexeme hgap hstart (hoffset ▸ ih hb)

theorem Ledger.parseTree_of_ok (ledger : Ledger) {source : List Char} {ls : List Lexeme}
    (h : lexemes source = .ok ls) :
    ledger.parseTree source = (.ok (Node.ofLexemes ls), ledger) := by
  rw [Ledger.parseTree, treeOf_of_ok h]
  rfl

theorem parseTree_eq_ok_iff {ledger : Ledger} {source : List Char} {tree : Node} :
    (ledger.parseTree source).1 = .ok tree ↔
      ∃ ls, lexemes source = .ok ls ∧ tree = Node.ofLexemes ls := by
  cases h : lexemes source with
  | ok ls => simp [ledger.parseTree_of_ok h, eq_comm]
  | error r => simp [Ledger.parseTree, treeOf_of_error h]

theorem parseTree_eq_error_iff {ledger after : Ledger} {source : List Char} {r : Rejection} :
    ledger.parseTree source = (.error r, after) ↔
      lexemes source = .error r ∧ after = ledger.push .error r.notice := by
  cases h : lexemes source with
  | ok ls => simp [ledger.parseTree_of_ok h]
  | error found =>
    rw [Ledger.parseTree, treeOf_of_error h]
    simp only [Prod.mk.injEq, Except.error.injEq]
    constructor
    · rintro ⟨rfl, rfl⟩
      exact ⟨rfl, rfl⟩
    · rintro ⟨rfl, rfl⟩
      exact ⟨rfl, rfl⟩

/-- The tree of a text is what is shown of a derivation of its lexemes. -/
theorem parseTree_derivation {ledger : Ledger} {source : List Char} {tree : Node}
    (h : (ledger.parseTree source).1 = .ok tree) :
    ∃ d : Derivation, Derives (.rule .schema) [d] ∧ Laid 0 source d.lexemes ∧
      (∀ l ∈ d.lexemes, l.text ∈ l.terminal.language) ∧ d.nodes = [tree] := by
  obtain ⟨ls, hlexemes, rfl⟩ := parseTree_eq_ok_iff.mp h
  obtain ⟨b, hreads, hfinished⟩ := lexemes_eq_ok_iff.mp hlexemes
  obtain ⟨parts, rfl⟩ := lexemes_eq_written hlexemes
  obtain ⟨ds, hderives, hls, hns⟩ := Written.yields_schema parts
  -- A rule derives a single node.
  cases hderives with
  | rule body =>
    rename_i ds
    simp only [allLexemes, allNodes, List.append_nil] at hls hns
    refine ⟨.node .schema ds, .rule body, ?_, ?_, hns⟩
    · rw [hls]
      exact hreads.laid hfinished.2
    · rw [hls]
      exact hreads.mem_language

theorem parseTree_derivation_table :
    let source := "table t\x7ba b[unique]//\n\x7d".toList
    let ls : List Lexeme :=
      [⟨.tableWord, "table".toList, 0⟩, ⟨.ident, ['t'], 6⟩, ⟨.leftBrace, ['{'], 7⟩,
        ⟨.ident, ['a'], 8⟩, ⟨.columnType, ['b'], 10⟩, ⟨.leftBracket, ['['], 11⟩,
        ⟨.uniqueWord, "unique".toList, 12⟩, ⟨.rightBracket, [']'], 18⟩,
        ⟨.comment, "//".toList, 19⟩, ⟨.rightBrace, ['}'], 22⟩]
    (({} : Ledger).parseTree source).1 = .ok (Node.ofLexemes ls) ∧
      ∃ d : Derivation, Derives (.rule .schema) [d] ∧ Laid 0 source d.lexemes ∧
        (∀ l ∈ d.lexemes, l.text ∈ l.terminal.language) ∧ d.nodes = [Node.ofLexemes ls] := by
  intro source ls
  have htree : (({} : Ledger).parseTree source).1 = .ok (Node.ofLexemes ls) :=
    parseTree_eq_ok_iff.mpr ⟨ls, scan_of_scanWithin (n := 11) rfl, rfl⟩
  exact ⟨htree, parseTree_derivation htree⟩

end DalSchema
