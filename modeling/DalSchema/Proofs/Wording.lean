import DalSchema.Proofs.Outline

/-!
# Outlines as written parts

Each part of an outline is written with its own words, all at offset zero. The words have the tokens
of the outline and the meaning of the outline.
-/

namespace DalSchema

namespace Outline

open Written (ClauseKind)

theorem mark_mem {t : Terminal} (h : t.literal?.isSome = true) : (mark t).2 ∈ t.language := by
  cases t with
  | ident | columnType | defaultValue | action | comment | blanks | endOfInput => cases h
  | _ => exact rfl

def markWord (t : Terminal) (h : t.literal?.isSome = true := by decide) : Word t :=
  ⟨(mark t).2, 0, mark_mem h⟩

@[simp] theorem token_markWord (t : Terminal) (h : t.literal?.isSome = true) :
    (markWord t h).lexeme.token = mark t := rfl

def Name.word (name : Name) : Word .ident := ⟨name, 0, name.2⟩

@[simp] theorem Name.token_word (name : Name) : name.word.lexeme.token = nameToken name := rfl

theorem phrase_mem (a : Action) : a.phrase.toList ∈ Terminal.action.language := by
  have hlex : Terminal.action.lex? a.phrase.toList = some (a.phrase.toList, []) := by
    cases a <;> decide
  exact (Terminal.lex?_eq_some_iff.mp hlex).2.1

theorem Literal.mem (value : Literal) : value.1 ∈ Terminal.defaultValue.language := by
  rcases value.2 with ⟨quote, rfl | rfl, hquoted⟩ | ⟨hbare, _⟩
  · exact .inl (.inl hquoted)
  · exact .inl (.inr hquoted)
  · exact .inr hbare

def separatedWords {α β : Type} (f : α → β) (first : α) (others : List α) :
    Written.Separated β :=
  ⟨f first, others.map fun x => (markWord .comma, f x)⟩

theorem items_separatedWords {α β : Type} (f : α → β) (first : α) (others : List α) :
    (separatedWords f first others).items = (first :: others).map f := by
  simp [separatedWords, Written.Separated.items, Function.comp_def]

theorem token_separatedWords {α β : Type} {f : α → β} {lexemes : β → List Lexeme}
    {tokens : α → List Token} (h : ∀ x, (lexemes (f x)).map Lexeme.token = tokens x) (first : α)
    (others : List α) :
    ((separatedWords f first others).lexemes lexemes).map Lexeme.token =
      separated tokens first others := by
  have hothers : (Written.Separated.tailLexemes lexemes (separatedWords f first others).others).map
      Lexeme.token = others.flatMap fun x => mark .comma :: tokens x := by
    rw [Written.Separated.tailLexemes, separatedWords, List.flatMap_map, List.map_flatMap]
    simp only [List.map_cons, h]
    rfl
  rw [Written.Separated.lexemes, List.map_append, hothers, separated, ← h]
  rfl

def clauseWords (clause : ClauseKind × Action) : Written.Clause where
  kind := clause.1
  word := markWord clause.1.word (by cases clause.1 <;> rfl)
  colon := markWord .colon
  phrase := ⟨clause.2.phrase.toList, 0, phrase_mem clause.2⟩

def Modifier.words : Modifier → Written.Modifier
  | default value =>
    .default (markWord .defaultWord) (markWord .colon) ⟨value, 0, value.mem⟩
  | primaryKey => .primary (markWord .primaryWord) (markWord .keyWord)
  | unique => .unique (markWord .uniqueWord)
  | reference table column clauses =>
    .reference (markWord .refWord) (markWord .colon) table.word (markWord .dot)
      column.word
      (match clauses with
      | [] => none
      | first :: others => some ⟨markWord .leftParen, separatedWords clauseWords first others,
          markWord .rightParen⟩)

theorem Modifier.token_words (m : Modifier) : m.words.lexemes.map Lexeme.token = m.tokens := by
  cases m with
  | default _ | primaryKey | unique => rfl
  | reference table column clauses =>
    cases clauses with
    | nil => rfl
    | cons first others =>
      have hclauses : ((separatedWords clauseWords first others).lexemes
          Written.Clause.lexemes).map Lexeme.token = separated clauseTokens first others :=
        token_separatedWords (fun _ => rfl) first others
      simp [words, tokens, Written.Modifier.lexemes, Written.Clauses.lexemes, hclauses]

def Group.words (g : Group) : Written.Group where
  opening := markWord .leftBracket
  list := separatedWords Modifier.words g.first g.others
  closing := markWord .rightBracket

theorem Group.token_words (g : Group) : g.words.lexemes.map Lexeme.token = g.tokens := by
  have hlist := token_separatedWords Modifier.token_words g.first g.others
  simp [words, tokens, Written.Group.lexemes, hlist]

def Column.words (c : Column) : Written.Column where
  name := c.name.word
  type := ⟨c.type, 0, c.type.2⟩
  null := if c.nullable then some (markWord .bang) else none
  groups := c.groups.map Group.words

theorem Column.token_words (c : Column) : c.words.lexemes.map Lexeme.token = c.tokens := by
  have hgroups : (c.words.groups.flatMap Written.Group.lexemes).map Lexeme.token =
      c.groups.flatMap Group.tokens := by
    simp only [words, List.flatMap_map, List.map_flatMap, Group.token_words]
  have hnull : (c.words.null.toList.map Word.lexeme).map Lexeme.token =
      if c.nullable then [mark .bang] else [] := by
    rw [words]
    cases c.nullable <;> rfl
  rw [Written.Column.lexemes, List.map_cons, List.map_cons, List.map_append, hnull, hgroups]
  rfl

def existsWords (ifNotExists : Bool) : Option Written.Mark :=
  if ifNotExists then
    some ⟨markWord .leftBracket, markWord .existsWord, markWord .rightBracket⟩
  else none

def Declaration.words : Declaration → Written.Part
  | enum name ifNotExists variants =>
    .declaration .enum
      { word := markWord .enumWord
        name := name.word
        mark := existsWords ifNotExists
        opening := markWord .leftBrace
        members := variants.map fun v => .entry v.word
        closing := markWord .rightBrace }
  | table name ifNotExists columns =>
    .declaration .table
      { word := markWord .tableWord
        name := name.word
        mark := existsWords ifNotExists
        opening := markWord .leftBrace
        members := columns.map fun c => .entry c.words
        closing := markWord .rightBrace }

theorem token_existsWords (ifNotExists : Bool) :
    ((existsWords ifNotExists).toList.flatMap Written.Mark.lexemes).map Lexeme.token =
      existsTokens ifNotExists := by
  cases ifNotExists <;> rfl

theorem Declaration.token_words (d : Declaration) :
    d.words.lexemes.map Lexeme.token = d.tokens := by
  cases d with
  | enum name ifNotExists variants =>
    have hmembers : ((variants.map fun v => (.entry v.word : Written.Member .enum)).flatMap
        Written.Member.lexemes).map Lexeme.token = variants.map nameToken := by
      rw [List.flatMap_map, List.map_flatMap, List.map_eq_flatMap]
      rfl
    simp only [words, Written.Part.lexemes, Written.Declaration.lexemes,
      Written.Declaration.headLexemes, List.map_append, List.map_cons, List.map_nil, hmembers,
      token_existsWords, List.cons_append, List.append_assoc, List.nil_append]
    rfl
  | table name ifNotExists columns =>
    have hmembers : ((columns.map fun c => (.entry c.words : Written.Member .table)).flatMap
        Written.Member.lexemes).map Lexeme.token = columns.flatMap Column.tokens := by
      rw [List.flatMap_map, List.map_flatMap]
      exact List.flatMap_congr fun c _ => c.token_words
    simp only [words, Written.Part.lexemes, Written.Declaration.lexemes,
      Written.Declaration.headLexemes, List.map_append, List.map_cons, List.map_nil, hmembers,
      token_existsWords, List.cons_append, List.append_assoc, List.nil_append]
    rfl

theorem token_words (ds : List Declaration) :
    (Written.lexemes (ds.map Declaration.words)).map Lexeme.token = tokens ds := by
  rw [Written.lexemes, tokens, List.flatMap_map, List.map_flatMap]
  exact List.flatMap_congr fun d _ => d.token_words

/-- Of several clauses of a kind the last one counts. -/
theorem foldl_apply (clauses : List (ClauseKind × Action)) :
    clauses.foldl ClauseKind.apply (.noAction, .noAction) =
      (lastAction .delete clauses, lastAction .update clauses) := by
  induction clauses using List.reverseRecOn with
  | nil => rfl
  | append_singleton clauses clause ih =>
    obtain ⟨kind, action⟩ := clause
    rw [List.foldl_concat, ih]
    cases kind <;> simp [ClauseKind.apply, lastAction]

def Modifier.value : Modifier → DalSchema.Modifier
  | default value => .default (.ofText (String.ofList value))
  | primaryKey => .primaryKey
  | unique => .unique
  | reference table column clauses =>
    .reference table.string column.string (lastAction .delete clauses) (lastAction .update clauses)

theorem value_clauseWords (clause : ClauseKind × Action) : (clauseWords clause).value = clause := by
  simp [clauseWords, Written.Clause.value, Word.string]

theorem Modifier.value_words (m : Modifier) : m.words.value = m.value := by
  cases m with
  | default _ | primaryKey | unique => rfl
  | reference table column clauses =>
    cases clauses with
    | nil => rfl
    | cons first others =>
      have hclauses : (separatedWords clauseWords first others).items.map Written.Clause.value =
          first :: others := by
        rw [items_separatedWords, List.map_map]
        exact (List.map_congr_left fun c _ => value_clauseWords c).trans (List.map_id _)
      have hactions : Written.Clauses.actions ⟨markWord .leftParen,
          separatedWords clauseWords first others, markWord .rightParen⟩ =
            (lastAction .delete (first :: others), lastAction .update (first :: others)) := by
        rw [Written.Clauses.actions, hclauses]
        exact foldl_apply (first :: others)
      simp only [words, Written.Modifier.value, Option.map_some, Option.getD_some, hactions]
      rfl

theorem Group.map_value_words (g : Group) :
    g.words.list.items.map Written.Modifier.value = (g.first :: g.others).map Modifier.value := by
  rw [words, items_separatedWords, List.map_map]
  exact List.map_congr_left fun m _ => m.value_words

namespace Column

variable (c : Column)

theorem value_words : c.words.value =
    ⟨c.name.string, .ofText (String.ofList c.type), c.nullable,
      c.modifiers.map Modifier.value⟩ := by
  have hnull : c.words.null.isSome = c.nullable := by
    rw [words]
    cases c.nullable <;> rfl
  have hmodifiers : c.words.modifiers.map Written.Modifier.value =
      c.modifiers.map Modifier.value := by
    rw [Written.Column.map_modifiers, words, List.map_map, modifiers, List.map_flatMap,
      List.flatMap_def]
    exact congrArg _ (List.map_congr_left fun g _ => g.map_value_words)
  rw [Written.Column.value, hnull, hmodifiers]
  rfl

/-- Of several defaults the last one counts. -/
theorem default_value : c.words.value.default = c.default := by
  rw [value_words, ColumnEntry.default, default, List.filterMap_map, ← List.getLast?_map,
    List.map_filterMap]
  congr 3
  funext m
  cases m <;> rfl

theorem toColumn_value : c.words.value.toColumn = c.toColumn := by
  rw [ColumnEntry.toColumn, default_value, value_words]
  rfl

theorem primaryKeys_value : c.words.value.primaryKeys = c.primaryKeys := by
  rw [value_words, ColumnEntry.primaryKeys, primaryKeys, List.filterMap_map]
  congr 1
  funext m
  cases m <;> rfl

theorem uniqueKeys_value : c.words.value.uniqueKeys = c.uniqueKeys := by
  rw [value_words, ColumnEntry.uniqueKeys, uniqueKeys, List.filterMap_map]
  congr 1
  funext m
  cases m <;> rfl

theorem foreignKeys_value : c.words.value.foreignKeys = c.foreignKeys := by
  rw [value_words, ColumnEntry.foreignKeys, foreignKeys, List.filterMap_map]
  congr 1
  funext m
  cases m <;> rfl

end Column

theorem isSome_existsWords (ifNotExists : Bool) :
    (existsWords ifNotExists).isSome = ifNotExists := by
  cases ifNotExists <;> rfl

theorem Declaration.value_words (d : Declaration) : d.words.value? = some d.item := by
  cases d with
  | enum name ifNotExists variants =>
    have hmembers : (variants.map fun v => (.entry v.word : Written.Member .enum)).filterMap
        Written.Member.value? = variants.map Name.string := by
      rw [List.filterMap_map]
      exact congrFun (List.filterMap_eq_map (f := Name.string)) variants
    simp only [words, Written.Part.value?, Written.Declaration.value, hmembers, isSome_existsWords]
    rfl
  | table name ifNotExists columns =>
    have hmembers : (columns.map fun c => (.entry c.words : Written.Member .table)).filterMap
        Written.Member.value? = columns.map fun c => c.words.value := by
      rw [List.filterMap_map]
      exact congrFun (List.filterMap_eq_map (f := fun c => c.words.value)) columns
    have htable : TableDecl.ofEntries name.string ifNotExists (columns.map fun c => c.words.value) =
        { name := name.string
          ifNotExists := ifNotExists
          columns := columns.map Column.toColumn
          primaryKeys := columns.flatMap Column.primaryKeys
          foreignKeys := columns.flatMap Column.foreignKeys
          uniqueKeys := columns.flatMap Column.uniqueKeys } := by
      simp only [TableDecl.ofEntries, List.map_map, List.flatMap_map, Column.primaryKeys_value,
        Column.foreignKeys_value, Column.uniqueKeys_value, Function.comp_def, Column.toColumn_value]
    simp only [words, Written.Part.value?, Written.Declaration.value, hmembers, isSome_existsWords]
    exact congrArg (some ∘ Item.table) htable

theorem schema_words (ds : List Declaration) :
    Written.schema (ds.map Declaration.words) = schema ds := by
  rw [Written.schema, schema, List.filterMap_map]
  have hitems : Written.Part.value? ∘ Declaration.words = some ∘ Declaration.item :=
    funext Declaration.value_words
  rw [hitems, List.filterMap_eq_map]

end Outline

end DalSchema
