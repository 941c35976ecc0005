import DalSchema.Tree.Assemble

/-!
# The grammar of schema texts

Rules are given as regular expressions over terminals and rules. A derivation keeps every lexeme and
every rule; its nodes are what remains of it in a syntax tree, where keywords and punctuation are
dropped and the rules that name no category are inlined. `Yields` is what proofs use: some
derivation of a body has these lexemes and these nodes.
-/

namespace DalSchema

inductive Rule where
  | schema | topItem | declEnum | enumMember | variant | declTable | tableMember | exists_
  | column | columnType | null | modifiers | modifier
  | modifierDefault | modifierDefaultValue | modifierPrimary | modifierUnique | modifierRef
  | refAction | refActionItem | refActionDelete | refActionUpdate | action
  | ident | comment
  deriving Repr, DecidableEq, Inhabited

/-- The category of the nodes of a rule. The rules that have none only group others. -/
def Rule.category? : Rule → Option Category
  | schema => some .schema
  | declEnum => some .declEnum
  | variant => some .variant
  | declTable => some .declTable
  | exists_ => some .exists_
  | column => some .column
  | columnType => some .columnType
  | null => some .null
  | modifiers => some .modifiers
  | modifierDefault => some .modifierDefault
  | modifierDefaultValue => some .modifierDefaultValue
  | modifierPrimary => some .modifierPrimary
  | modifierUnique => some .modifierUnique
  | modifierRef => some .modifierRef
  | refAction => some .refAction
  | refActionDelete => some .refActionDelete
  | refActionUpdate => some .refActionUpdate
  | action => some .action
  | ident => some .ident
  | comment => some .comment
  | topItem | enumMember | tableMember | modifier | refActionItem => none

inductive Body where
  | terminal (t : Terminal)
  | rule (r : Rule)
  | seq (a b : Body)
  | alt (a b : Body)
  | opt (a : Body)
  | star (a : Body)
  | plus (a : Body)
  deriving Repr, DecidableEq, Inhabited

instance : Append Body := ⟨Body.seq⟩

instance : OrElse Body := ⟨fun a b => Body.alt a (b ())⟩

open Body in
def Rule.body : Rule → Body
  | schema => star (rule topItem)
  | topItem => rule declEnum <|> rule declTable <|> rule comment
  | declEnum =>
    terminal .enumWord ++ rule ident ++ opt (rule exists_) ++ terminal .leftBrace ++
      star (rule enumMember) ++ terminal .rightBrace
  | enumMember => rule variant <|> rule comment
  | variant => terminal .ident
  | declTable =>
    terminal .tableWord ++ rule ident ++ opt (rule exists_) ++ terminal .leftBrace ++
      star (rule tableMember) ++ terminal .rightBrace
  | tableMember => rule column <|> rule comment
  | exists_ => terminal .leftBracket ++ terminal .existsWord ++ terminal .rightBracket
  | column => rule ident ++ rule columnType ++ opt (rule null) ++ opt (rule modifiers)
  | columnType => terminal .columnType
  | null => terminal .bang
  | modifiers =>
    plus (terminal .leftBracket ++ rule modifier ++ star (terminal .comma ++ rule modifier) ++
      terminal .rightBracket)
  | modifier =>
    rule modifierDefault <|> rule modifierPrimary <|> rule modifierUnique <|> rule modifierRef
  | modifierDefault => terminal .defaultWord ++ terminal .colon ++ rule modifierDefaultValue
  | modifierDefaultValue => terminal .defaultValue
  | modifierPrimary => terminal .primaryWord ++ terminal .keyWord
  | modifierUnique => terminal .uniqueWord
  | modifierRef =>
    terminal .refWord ++ terminal .colon ++ rule ident ++ terminal .dot ++ rule ident ++
      opt (rule refAction)
  | refAction =>
    terminal .leftParen ++ rule refActionItem ++ star (terminal .comma ++ rule refActionItem) ++
      terminal .rightParen
  | refActionItem => rule refActionDelete <|> rule refActionUpdate
  | refActionDelete => terminal .deleteWord ++ terminal .colon ++ rule action
  | refActionUpdate => terminal .updateWord ++ terminal .colon ++ rule action
  | action => terminal .action
  | ident => terminal .ident
  | comment => terminal .comment

/-- A derivation with all its lexemes and all its rules. -/
inductive Derivation where
  | token (l : Lexeme)
  | node (rule : Rule) (children : List Derivation)
  deriving Repr, Inhabited

inductive Derives : Body → List Derivation → Prop where
  | terminal (l : Lexeme) : Derives (.terminal l.terminal) [.token l]
  | rule {r : Rule} {ds : List Derivation} (body : Derives r.body ds) :
      Derives (.rule r) [.node r ds]
  | seq {a b : Body} {ds es : List Derivation} (left : Derives a ds) (right : Derives b es) :
      Derives (a ++ b) (ds ++ es)
  | altLeft {a b : Body} {ds : List Derivation} (left : Derives a ds) : Derives (a <|> b) ds
  | altRight {a b : Body} {ds : List Derivation} (right : Derives b ds) : Derives (a <|> b) ds
  | optNone (a : Body) : Derives (.opt a) []
  | optSome {a : Body} {ds : List Derivation} (some : Derives a ds) : Derives (.opt a) ds
  | starNil (a : Body) : Derives (.star a) []
  | starCons {a : Body} {ds es : List Derivation} (head : Derives a ds)
      (tail : Derives (.star a) es) : Derives (.star a) (ds ++ es)
  | plus {a : Body} {ds es : List Derivation} (head : Derives a ds)
      (tail : Derives (.star a) es) : Derives (.plus a) (ds ++ es)

namespace Derivation

mutual

def lexemes : Derivation → List Lexeme
  | token l => [l]
  | node _ children => allLexemes children

def allLexemes : List Derivation → List Lexeme
  | [] => []
  | d :: ds => d.lexemes ++ allLexemes ds

end

/-- Whether a terminal is shown in a syntax tree: keywords and punctuation are not. -/
def shows (t : Terminal) : Bool := t.literal?.isNone

mutual

/-- What a syntax tree shows of a derivation. -/
def nodes : Derivation → List Node
  | token l => if shows l.terminal then [Draft.leaf l] else []
  | node rule children =>
    match rule.category? with
    | some category => [.tree category (Lexeme.spanAll (allLexemes children)) (allNodes children)]
    | none => allNodes children

def allNodes : List Derivation → List Node
  | [] => []
  | d :: ds => d.nodes ++ allNodes ds

end

@[simp] theorem allLexemes_append (ds es : List Derivation) :
    allLexemes (ds ++ es) = allLexemes ds ++ allLexemes es := by
  induction ds with
  | nil => rfl
  | cons d ds ih => simp [allLexemes, ih]

@[simp] theorem allNodes_append (ds es : List Derivation) :
    allNodes (ds ++ es) = allNodes ds ++ allNodes es := by
  induction ds with
  | nil => rfl
  | cons d ds ih => simp [allNodes, ih]

end Derivation

/-- Some derivation of the body has these lexemes and these nodes. -/
def Yields (body : Body) (ls : List Lexeme) (ns : List Node) : Prop :=
  ∃ ds, Derives body ds ∧ Derivation.allLexemes ds = ls ∧ Derivation.allNodes ds = ns

namespace Yields

variable {a b : Body} {ls ms : List Lexeme} {ns ps : List Node}

theorem dropped {l : Lexeme} (h : Derivation.shows l.terminal = false) :
    Yields (.terminal l.terminal) [l] [] :=
  ⟨_, .terminal l, rfl, by simp [Derivation.allNodes, Derivation.nodes, h]⟩

theorem kept {l : Lexeme} (h : Derivation.shows l.terminal = true) :
    Yields (.terminal l.terminal) [l] [Draft.leaf l] :=
  ⟨_, .terminal l, rfl, by simp [Derivation.allNodes, Derivation.nodes, h]⟩

theorem named {r : Rule} {c : Category} (hc : r.category? = some c) (h : Yields r.body ls ns) :
    Yields (.rule r) ls [.tree c (Lexeme.spanAll ls) ns] := by
  obtain ⟨ds, hderives, rfl, rfl⟩ := h
  refine ⟨_, .rule hderives, ?_, ?_⟩
  · simp [Derivation.allLexemes, Derivation.lexemes]
  · simp [Derivation.allNodes, Derivation.nodes, hc]

theorem inlined {r : Rule} (hc : r.category? = none) (h : Yields r.body ls ns) :
    Yields (.rule r) ls ns := by
  obtain ⟨ds, hderives, rfl, rfl⟩ := h
  refine ⟨_, .rule hderives, ?_, ?_⟩
  · simp [Derivation.allLexemes, Derivation.lexemes]
  · simp [Derivation.allNodes, Derivation.nodes, hc]

theorem seq (ha : Yields a ls ns) (hb : Yields b ms ps) :
    Yields (a ++ b) (ls ++ ms) (ns ++ ps) := by
  obtain ⟨ds, hds, rfl, rfl⟩ := ha
  obtain ⟨es, hes, rfl, rfl⟩ := hb
  exact ⟨ds ++ es, .seq hds hes, by simp, by simp⟩

theorem altLeft (h : Yields a ls ns) : Yields (a <|> b) ls ns := by
  obtain ⟨ds, hds, hls, hns⟩ := h
  exact ⟨ds, .altLeft hds, hls, hns⟩

theorem altRight (h : Yields b ls ns) : Yields (a <|> b) ls ns := by
  obtain ⟨ds, hds, hls, hns⟩ := h
  exact ⟨ds, .altRight hds, hls, hns⟩

theorem optNone : Yields (.opt a) [] [] := ⟨[], .optNone a, rfl, rfl⟩

theorem optSome (h : Yields a ls ns) : Yields (.opt a) ls ns := by
  obtain ⟨ds, hds, hls, hns⟩ := h
  exact ⟨ds, .optSome hds, hls, hns⟩

theorem opt {α : Type} {f : α → List Lexeme} {g : α → Node}
    (h : ∀ x, Yields a (f x) [g x]) (o : Option α) :
    Yields (.opt a) (o.toList.flatMap f) (o.toList.map g) := by
  cases o with
  | none => exact optNone
  | some x => simpa using optSome (h x)

theorem star {α : Type} {f : α → List Lexeme} {g : α → List Node}
    (h : ∀ x, Yields a (f x) (g x)) (xs : List α) :
    Yields (.star a) (xs.flatMap f) (xs.flatMap g) := by
  induction xs with
  | nil => exact ⟨[], .starNil a, rfl, rfl⟩
  | cons x xs ih =>
    obtain ⟨ds, hds, hls, hns⟩ := h x
    obtain ⟨es, hes, hms, hps⟩ := ih
    exact ⟨ds ++ es, .starCons hds hes, by simp [hls, hms], by simp [hns, hps]⟩

theorem starMap {α : Type} {f : α → List Lexeme} {g : α → Node}
    (h : ∀ x, Yields a (f x) [g x]) (xs : List α) :
    Yields (.star a) (xs.flatMap f) (xs.map g) := by
  rw [List.map_eq_flatMap]
  exact star h xs

theorem plus {α : Type} {f : α → List Lexeme} {g : α → List Node}
    (h : ∀ x, Yields a (f x) (g x)) (x : α) (xs : List α) :
    Yields (.plus a) ((x :: xs).flatMap f) ((x :: xs).flatMap g) := by
  obtain ⟨ds, hds, hls, hns⟩ := h x
  obtain ⟨es, hes, hms, hps⟩ := star h xs
  exact ⟨ds ++ es, .plus hds hes, by simp [hls, hms], by simp [hns, hps]⟩

end Yields

end DalSchema
