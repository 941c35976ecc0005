import DalSchema.Proofs.Written

/-!
# Growing a tree from written parts

What the draft of a tree becomes while the lexemes of a written part are pushed: the part's node is
added to the innermost open node. A column and a reference without clauses stay open until the next
lexeme shows that nothing more belongs to them; `Draft.Between` and `Draft.Modified` describe drafts
in which that is still pending.
-/

namespace DalSchema

open Written

namespace Draft

def read (d : Draft) (ls : List Lexeme) : Draft := ls.foldl push d

@[simp] theorem read_nil (d : Draft) : d.read [] = d := rfl

@[simp] theorem read_cons (d : Draft) (l : Lexeme) (ls : List Lexeme) :
    d.read (l :: ls) = (d.push l).read ls := rfl

@[simp] theorem read_append (d : Draft) (ls ms : List Lexeme) :
    d.read (ls ++ ms) = (d.read ls).read ms := List.foldl_append

@[simp] theorem stop_attach (d : Draft) (n : Node) : (d.attach n).stop = d.stop := by
  rw [attach]
  split <;> rfl

@[simp] theorem stop_closeMany (d : Draft) (count : Nat) : (d.closeMany count).stop = d.stop := by
  induction count generalizing d with
  | zero => rfl
  | succ count ih =>
    rw [closeMany, ih, close]
    split
    · rfl
    · rw [stop_attach]

@[simp] theorem stop_push (d : Draft) (l : Lexeme) : (d.push l).stop = l.stop := by
  rw [push, stop_closeMany]

/-- A draft ends where its last lexeme does. -/
theorem spanAll_cons (d : Draft) (l : Lexeme) (ls : List Lexeme) :
    Lexeme.spanAll (l :: ls) = some ⟨l.start, (d.read (l :: ls)).stop⟩ := by
  induction ls using List.reverseRecOn with
  | nil => simp [Lexeme.spanAll]
  | append_singleton ls m _ =>
    rw [← List.cons_append, read_append, read_cons, read_nil, stop_push]
    simp [Lexeme.spanAll]

end Draft

namespace OpenNode

def add (o : OpenNode) (n : Node) : OpenNode := { o with children := n :: o.children }

def addAll (o : OpenNode) (ns : List Node) : OpenNode := ns.foldl add o

def finish (o : OpenNode) (stop : Nat) : Node :=
  .tree o.category (some ⟨o.start, stop⟩) o.children.reverse

@[simp] theorem addAll_cons (o : OpenNode) (n : Node) (ns : List Node) :
    o.addAll (n :: ns) = (o.add n).addAll ns := rfl

@[simp] theorem addAll_append (o : OpenNode) (ns ps : List Node) :
    o.addAll (ns ++ ps) = (o.addAll ns).addAll ps := List.foldl_append

theorem addAll_eq (o : OpenNode) (ns : List Node) :
    o.addAll ns = ⟨o.category, o.start, ns.reverse ++ o.children⟩ := by
  induction ns generalizing o with
  | nil => rfl
  | cons n ns ih => simp [ih, add]

@[simp] theorem finish_addAll (category : Category) (start : Nat) (ns : List Node) (stop : Nat) :
    ((⟨category, start, []⟩ : OpenNode).addAll ns).finish stop =
      .tree category (some ⟨start, stop⟩) ns := by
  simp [addAll_eq, finish]

end OpenNode

namespace Written

section

variable (items : List Node) (inner : OpenNode) (outer : List OpenNode) (stop : Nat)

theorem read_clause (c : Clause) :
    Draft.read ⟨.actionKind, items, inner :: outer, stop⟩ c.lexemes =
      ⟨.afterAction, items, inner.add c.node :: outer, c.phrase.lexeme.stop⟩ := by
  obtain ⟨kind, word, colon, phrase⟩ := c
  cases kind <;> rfl

theorem read_tailClauses (others : List (Word .comma × Clause)) :
    ∃ stop', Draft.read ⟨.afterAction, items, inner :: outer, stop⟩
        (Separated.tailLexemes Clause.lexemes others) =
      ⟨.afterAction, items, inner.addAll (others.map fun x => x.2.node) :: outer, stop'⟩ := by
  induction others generalizing inner stop with
  | nil => exact ⟨stop, rfl⟩
  | cons x others ih =>
    obtain ⟨comma, c⟩ := x
    obtain ⟨stop', hread⟩ := ih (inner.add c.node) c.phrase.lexeme.stop
    have hcomma : Draft.push ⟨.afterAction, items, inner :: outer, stop⟩ comma.lexeme =
        ⟨.actionKind, items, inner :: outer, comma.lexeme.stop⟩ := rfl
    refine ⟨stop', ?_⟩
    rw [Separated.tailLexemes, List.flatMap_cons, List.cons_append, Draft.read_cons,
      Draft.read_append, hcomma, read_clause]
    exact hread

theorem read_clauses (c : Clauses) :
    Draft.read ⟨.afterRef, items, inner :: outer, stop⟩ c.lexemes =
      (Draft.mk .afterModifier items outer c.closing.lexeme.stop).attach
        ((inner.add c.node).finish c.closing.lexeme.stop) := by
  let o : OpenNode := ⟨.refAction, c.opening.lexeme.start, []⟩
  obtain ⟨stop', htail⟩ := read_tailClauses items (o.add c.list.first.node) (inner :: outer)
    c.list.first.phrase.lexeme.stop c.list.others
  have hopen : Draft.push ⟨.afterRef, items, inner :: outer, stop⟩ c.opening.lexeme =
      ⟨.actionKind, items, o :: inner :: outer, c.opening.lexeme.stop⟩ := rfl
  have hnode : (o.addAll (c.list.items.map Clause.node)).finish c.closing.lexeme.stop = c.node := by
    rw [OpenNode.finish_addAll, Clauses.node, Clauses.lexemes]
    simp [Lexeme.spanAll]
  rw [Clauses.lexemes, Draft.read_cons, hopen, Draft.read_append, Separated.lexemes,
    Draft.read_append, read_clause, htail, ← hnode]
  simp only [Separated.items, List.map_cons, List.map_map, OpenNode.addAll_cons]
  rfl

end

end Written

/-- A draft in which a modifier has just been read into the open node `mods`. A reference without
clauses is still open. -/
inductive Draft.Modified (items : List Node) (outer : List OpenNode) : OpenNode → Draft → Prop where
  | closed (mods : OpenNode) (stop : Nat) :
      Modified items outer mods ⟨.afterModifier, items, mods :: outer, stop⟩
  | reference (mods ref : OpenNode) (stop : Nat) :
      Modified items outer (mods.add (ref.finish stop))
        ⟨.afterRef, items, ref :: mods :: outer, stop⟩

namespace Draft.Modified

variable {items : List Node} {outer : List OpenNode} {mods : OpenNode} {d : Draft}

theorem push_comma (h : Modified items outer mods d) (w : Word .comma) :
    d.push w.lexeme = ⟨.modifier, items, mods :: outer, w.lexeme.stop⟩ := by
  cases h <;> rfl

theorem push_rightBracket (h : Modified items outer mods d) (w : Word .rightBracket) :
    d.push w.lexeme = ⟨.afterGroup, items, mods :: outer, w.lexeme.stop⟩ := by
  cases h <;> rfl

end Draft.Modified

namespace Written

section

variable (items : List Node) (mods : OpenNode) (outer : List OpenNode) (stop : Nat)

theorem read_modifier (m : Modifier) :
    Draft.Modified items outer (mods.add m.node)
      (Draft.read ⟨.modifier, items, mods :: outer, stop⟩ m.lexemes) := by
  cases m with
  | default word colon value => exact .closed _ _
  | primary word key => exact .closed _ _
  | unique word => exact .closed _ _
  | reference word colon table dot column clauses =>
    let ref : OpenNode := ⟨.modifierRef, word.lexeme.start, []⟩
    let o : OpenNode := (ref.add (table.node .ident)).add (column.node .ident)
    -- One lexeme at a time: the five together are slow to compare.
    have hword : Draft.push ⟨.modifier, items, mods :: outer, stop⟩ word.lexeme =
        ⟨.refColon, items, ref :: mods :: outer, word.lexeme.stop⟩ := rfl
    have hcolon : Draft.push ⟨.refColon, items, ref :: mods :: outer, word.lexeme.stop⟩
        colon.lexeme = ⟨.refTable, items, ref :: mods :: outer, colon.lexeme.stop⟩ := rfl
    have htable : Draft.push ⟨.refTable, items, ref :: mods :: outer, colon.lexeme.stop⟩
        table.lexeme = ⟨.refDot, items, ref.add (table.node .ident) :: mods :: outer,
          table.lexeme.stop⟩ := rfl
    have hdot : Draft.push ⟨.refDot, items, ref.add (table.node .ident) :: mods :: outer,
        table.lexeme.stop⟩ dot.lexeme = ⟨.refColumn, items,
          ref.add (table.node .ident) :: mods :: outer, dot.lexeme.stop⟩ := rfl
    have hcolumn : Draft.push ⟨.refColumn, items, ref.add (table.node .ident) :: mods :: outer,
        dot.lexeme.stop⟩ column.lexeme =
          ⟨.afterRef, items, o :: mods :: outer, column.lexeme.stop⟩ := rfl
    rw [Modifier.lexemes, Draft.read_append, Draft.read_cons, hword, Draft.read_cons, hcolon,
      Draft.read_cons, htable, Draft.read_cons, hdot, Draft.read_cons, hcolumn, Draft.read_nil]
    cases clauses with
    | none => exact .reference mods o column.lexeme.stop
    | some c =>
      have hnode : (o.add c.node).finish c.closing.lexeme.stop =
          (Modifier.reference word colon table dot column (some c)).node := by
        simp [Modifier.node, Modifier.lexemes, Clauses.lexemes, Lexeme.spanAll, OpenNode.finish,
          OpenNode.add, Modifier.category, Modifier.children, ref, o]
      rw [Option.toList_some, List.flatMap_singleton, read_clauses, hnode]
      exact .closed _ _

end

theorem read_tailModifiers {items : List Node} {outer : List OpenNode} {mods : OpenNode}
    {d : Draft} (h : Draft.Modified items outer mods d) (others : List (Word .comma × Modifier)) :
    Draft.Modified items outer (mods.addAll (others.map fun x => x.2.node))
      (d.read (Separated.tailLexemes Modifier.lexemes others)) := by
  induction others generalizing mods d with
  | nil => exact h
  | cons x others ih =>
    rw [Separated.tailLexemes, List.flatMap_cons, List.cons_append, Draft.read_cons,
      Draft.read_append, h.push_comma]
    exact ih (read_modifier items mods outer x.1.lexeme.stop x.2)

theorem read_group (items : List Node) (mods : OpenNode) (outer : List OpenNode) (stop : Nat)
    (g : Group) :
    Draft.read ⟨.modifier, items, mods :: outer, stop⟩
        (g.list.lexemes Modifier.lexemes ++ [g.closing.lexeme]) =
      ⟨.afterGroup, items, mods.addAll (g.list.items.map Modifier.node) :: outer,
        g.closing.lexeme.stop⟩ := by
  have hfirst := read_modifier items mods outer stop g.list.first
  have htail := read_tailModifiers hfirst g.list.others
  rw [Draft.read_append, Separated.lexemes, Draft.read_append, Draft.read_cons, Draft.read_nil,
    htail.push_rightBracket]
  simp only [Separated.items, List.map_cons, List.map_map, OpenNode.addAll_cons]
  rfl

theorem read_groups (items : List Node) (mods : OpenNode) (outer : List OpenNode) (stop : Nat)
    (groups : List Group) :
    ∃ stop', Draft.read ⟨.afterGroup, items, mods :: outer, stop⟩ (groups.flatMap Group.lexemes) =
      ⟨.afterGroup, items,
        mods.addAll ((groups.flatMap fun g => g.list.items).map Modifier.node) :: outer,
        stop'⟩ := by
  induction groups generalizing mods stop with
  | nil => exact ⟨stop, rfl⟩
  | cons g groups ih =>
    obtain ⟨stop', hread⟩ := ih (mods.addAll (g.list.items.map Modifier.node)) g.closing.lexeme.stop
    have hopen : Draft.push ⟨.afterGroup, items, mods :: outer, stop⟩ g.opening.lexeme =
        ⟨.modifier, items, mods :: outer, g.opening.lexeme.stop⟩ := rfl
    refine ⟨stop', ?_⟩
    rw [List.flatMap_cons, Draft.read_append, Group.lexemes, Draft.read_cons, hopen, read_group,
      hread, List.flatMap_cons, List.map_append, OpenNode.addAll_append]

end Written

/-- A draft between two members of the open declaration `decl`. The last column is still open. -/
inductive Draft.Between (items : List Node) : DeclKind → OpenNode → Draft → Prop where
  | closed (kind : DeclKind) (decl : OpenNode) (flag : Bool) (stop : Nat) :
      Between items kind decl ⟨.body kind flag, items, [decl], stop⟩
  | afterType (decl column : OpenNode) (stop : Nat) :
      Between items .table (decl.add (column.finish stop))
        ⟨.afterType, items, [column, decl], stop⟩
  | afterNull (decl column : OpenNode) (stop : Nat) :
      Between items .table (decl.add (column.finish stop))
        ⟨.afterNull, items, [column, decl], stop⟩
  | afterGroup (decl column mods : OpenNode) (stop : Nat) :
      Between items .table (decl.add ((column.add (mods.finish stop)).finish stop))
        ⟨.afterGroup, items, [mods, column, decl], stop⟩

namespace Draft.Between

variable {items : List Node} {kind : DeclKind} {decl : OpenNode} {d : Draft}

theorem push_comment (h : Between items kind decl d) (w : Word .comment) :
    Between items kind (decl.add (w.node .comment)) (d.push w.lexeme) := by
  cases h with
  | closed kind decl flag stop => cases kind <;> exact .closed _ _ _ _
  | afterType | afterNull | afterGroup => exact .closed _ _ _ _

theorem push_rightBrace (h : Between items kind decl d) (w : Word .rightBrace) :
    d.push w.lexeme =
      ⟨.top false, decl.finish w.lexeme.stop :: items, [], w.lexeme.stop⟩ := by
  cases h with
  | closed kind decl flag stop => cases kind <;> rfl
  | afterType | afterNull | afterGroup => rfl

theorem push_variant (h : Between items .enum decl d) (w : Word .ident) :
    Between items .enum (decl.add (w.node .variant)) (d.push w.lexeme) := by
  cases h with
  | closed kind decl flag stop => exact .closed _ _ _ _

theorem push_columnName (h : Between items .table decl d) (w : Word .ident) :
    d.push w.lexeme = ⟨.columnType, items,
      [⟨.column, w.lexeme.start, [w.node .ident]⟩, decl], w.lexeme.stop⟩ := by
  cases h <;> rfl

end Draft.Between

namespace Written

theorem read_firstGroups (items : List Node) (decl column : OpenNode) (stop : Nat) {p : Place}
    (hp : p = .afterType ∨ p = .afterNull) (c : Column) :
    Draft.Between items .table
      (decl.add ((column.addAll c.modifierNodes).finish
        (Draft.read ⟨p, items, [column, decl], stop⟩ (c.groups.flatMap Group.lexemes)).stop))
      (Draft.read ⟨p, items, [column, decl], stop⟩ (c.groups.flatMap Group.lexemes)) := by
  obtain ⟨name, type, null, groups⟩ := c
  cases groups with
  | nil =>
    rcases hp with rfl | rfl
    · exact .afterType decl column stop
    · exact .afterNull decl column stop
  | cons g groups =>
    let mods : OpenNode := ⟨.modifiers, g.opening.lexeme.start, []⟩
    have hopen : Draft.push ⟨p, items, [column, decl], stop⟩ g.opening.lexeme =
        ⟨.modifier, items, [mods, column, decl], g.opening.lexeme.stop⟩ := by
      rcases hp with rfl | rfl <;> rfl
    obtain ⟨stop', htail⟩ := read_groups items (mods.addAll (g.list.items.map Modifier.node))
      [column, decl] g.closing.lexeme.stop groups
    have hread : Draft.read ⟨p, items, [column, decl], stop⟩
        ((g :: groups).flatMap Group.lexemes) =
        ⟨.afterGroup, items, [mods.addAll (((g :: groups).flatMap fun g => g.list.items).map
          Modifier.node), column, decl], stop'⟩ := by
      rw [List.flatMap_cons, Draft.read_append, Group.lexemes, Draft.read_cons, hopen, read_group,
        htail, List.flatMap_cons, List.map_append, OpenNode.addAll_append]
    have hspan : Lexeme.spanAll ((g :: groups).flatMap Group.lexemes) =
        some ⟨g.opening.lexeme.start, stop'⟩ := by
      have hcons := Draft.spanAll_cons ⟨p, items, [column, decl], stop⟩ g.opening.lexeme
        ((g.list.lexemes Modifier.lexemes ++ [g.closing.lexeme]) ++ groups.flatMap Group.lexemes)
      rw [← List.cons_append, ← Group.lexemes, ← List.flatMap_cons, hread] at hcons
      exact hcons
    have hmods : (mods.addAll (((g :: groups).flatMap fun g => g.list.items).map
        Modifier.node)).finish stop' = .tree .modifiers
          (Lexeme.spanAll ((g :: groups).flatMap Group.lexemes))
          (((g :: groups).flatMap fun g => g.list.items).map Modifier.node) := by
      rw [OpenNode.finish_addAll, hspan]
    have hbetween : Draft.Between items .table _ _ := .afterGroup decl column (mods.addAll
      (((g :: groups).flatMap fun g => g.list.items).map Modifier.node)) stop'
    rw [hmods] at hbetween
    rw [hread]
    exact hbetween

theorem read_column {items : List Node} {decl : OpenNode} {d : Draft}
    (h : Draft.Between items .table decl d) (c : Column) :
    Draft.Between items .table (decl.add c.node) (d.read c.lexemes) := by
  let column : OpenNode :=
    ⟨.column, c.name.lexeme.start, [c.type.node .columnType, c.name.node .ident]⟩
  have htype : (d.push c.name.lexeme).push c.type.lexeme =
      ⟨.afterType, items, [column, decl], c.type.lexeme.stop⟩ := by
    rw [h.push_columnName]
    rfl
  have hspan := Draft.spanAll_cons d c.name.lexeme (c.type.lexeme ::
    (c.null.toList.map Word.lexeme ++ c.groups.flatMap Group.lexemes))
  have hread : d.read c.lexemes = Draft.read ⟨.afterType, items, [column, decl],
      c.type.lexeme.stop⟩ (c.null.toList.map Word.lexeme ++ c.groups.flatMap Group.lexemes) := by
    rw [Column.lexemes, Draft.read_cons, Draft.read_cons, htype]
  -- The node of the column ends where the last of its lexemes does, whichever that is.
  rw [← Column.lexemes, hread, Draft.read_append] at hspan
  rw [hread, Draft.read_append]
  cases hnull : c.null with
  | none =>
    rw [hnull] at hspan
    have hgroups := read_firstGroups items decl column c.type.lexeme.stop (.inl rfl) c
    have hnode : (column.addAll c.modifierNodes).finish (Draft.read ⟨.afterType, items,
        [column, decl], c.type.lexeme.stop⟩ (c.groups.flatMap Group.lexemes)).stop = c.node := by
      rw [Column.node, hspan, hnull, OpenNode.addAll_eq]
      simp [OpenNode.finish, column]
    rw [hnode] at hgroups
    exact hgroups
  | some w =>
    rw [hnull] at hspan
    let null : Node := .tree .null (Lexeme.spanAll [w.lexeme]) []
    have hgroups := read_firstGroups items decl (column.add null) w.lexeme.stop (.inr rfl) c
    have hnode : ((column.add null).addAll c.modifierNodes).finish (Draft.read ⟨.afterNull, items,
        [column.add null, decl], w.lexeme.stop⟩ (c.groups.flatMap Group.lexemes)).stop =
        c.node := by
      rw [Column.node, hspan, hnull, OpenNode.addAll_eq]
      simp only [OpenNode.finish, OpenNode.add, column, null, List.reverse_append,
        List.reverse_reverse, List.reverse_cons, List.reverse_nil, List.nil_append]
      rfl
    rw [hnode] at hgroups
    exact hgroups

theorem read_members {items : List Node} {kind : DeclKind} {decl : OpenNode} {d : Draft}
    (h : Draft.Between items kind decl d) (members : List (Member kind)) :
    Draft.Between items kind (decl.addAll (members.map Member.node))
      (d.read (members.flatMap Member.lexemes)) := by
  induction members generalizing decl d with
  | nil => exact h
  | cons m members ih =>
    rw [List.flatMap_cons, Draft.read_append, List.map_cons, OpenNode.addAll_cons]
    apply ih
    cases m with
    | comment w => exact h.push_comment w
    | entry e =>
      cases kind with
      | enum => exact h.push_variant e
      | table => exact read_column h e

theorem read_head {kind : DeclKind} (decl : Declaration kind) (items : List Node) (flag : Bool)
    (stop : Nat) :
    Draft.read ⟨.top flag, items, [], stop⟩ decl.headLexemes =
      ⟨.body kind false, items, [OpenNode.addAll ⟨kind.category, decl.word.lexeme.start, []⟩
        (decl.name.node .ident :: decl.mark.toList.map Mark.node)], decl.opening.lexeme.stop⟩ := by
  let node : OpenNode := ⟨kind.category, decl.word.lexeme.start, []⟩
  have hword : Draft.push ⟨.top flag, items, [], stop⟩ decl.word.lexeme =
      ⟨.declName kind, items, [node], decl.word.lexeme.stop⟩ := by
    obtain ⟨word, name, mark, opening, members, closing⟩ := decl
    cases kind <;> rfl
  have hname : Draft.push ⟨.declName kind, items, [node], decl.word.lexeme.stop⟩
      decl.name.lexeme = ⟨.declHead kind, items, [node.add (decl.name.node .ident)],
        decl.name.lexeme.stop⟩ := rfl
  rw [Declaration.headLexemes, Draft.read_cons, Draft.read_cons, hword, hname]
  cases decl.mark <;> rfl

theorem read_declaration {kind : DeclKind} (decl : Declaration kind) (items : List Node)
    (flag : Bool) (stop : Nat) :
    Draft.read ⟨.top flag, items, [], stop⟩ decl.lexemes =
      ⟨.top false, decl.node :: items, [], decl.closing.lexeme.stop⟩ := by
  have hhead : Draft.Between items kind _ _ := .closed kind (OpenNode.addAll
    ⟨kind.category, decl.word.lexeme.start, []⟩
    (decl.name.node .ident :: decl.mark.toList.map Mark.node)) false decl.opening.lexeme.stop
  have hmembers := read_members hhead decl.members
  have hspan : Lexeme.spanAll decl.lexemes =
      some ⟨decl.word.lexeme.start, decl.closing.lexeme.stop⟩ := by
    simp [Declaration.lexemes, Declaration.headLexemes, Lexeme.spanAll]
  rw [Declaration.lexemes, Draft.read_append, Draft.read_append, read_head, Draft.read_cons,
    Draft.read_nil, hmembers.push_rightBrace, ← OpenNode.addAll_append, OpenNode.finish_addAll,
    Declaration.node, hspan, List.cons_append]

theorem read_parts (parts : List Part) (items : List Node) (flag : Bool) (stop : Nat) :
    ∃ flag' stop', Draft.read ⟨.top flag, items, [], stop⟩ (lexemes parts) =
      ⟨.top flag', (parts.map Part.node).reverse ++ items, [], stop'⟩ := by
  induction parts generalizing items flag stop with
  | nil => exact ⟨flag, stop, rfl⟩
  | cons part parts ih =>
    rw [lexemes, List.flatMap_cons, Draft.read_append, List.map_cons, List.reverse_cons,
      List.append_assoc]
    cases part with
    | comment w => exact ih (w.node .comment :: items) true w.lexeme.stop
    | declaration kind decl =>
      rw [Part.lexemes, read_declaration]
      exact ih (decl.node :: items) false decl.closing.lexeme.stop

/-- The tree of a written text has the nodes of its parts. -/
theorem ofLexemes_lexemes (parts : List Part) :
    Node.ofLexemes (lexemes parts) =
      .tree .schema (Lexeme.spanAll (lexemes parts)) (parts.map Part.node) := by
  obtain ⟨flag, stop, hread⟩ := read_parts parts [] false 0
  have hitems : ((lexemes parts).foldl Draft.push .empty).items =
      (parts.map Part.node).reverse ++ [] := congrArg Draft.items hread
  rw [Node.ofLexemes, hitems, List.append_nil, List.reverse_reverse]

end Written

end DalSchema
