import DalSchema.Proofs.Written

/-!
# Moving written parts

What a written part means does not depend on where its words stand: lexemes with the same terminals
and texts at other offsets are those of a part with the same value.
-/

namespace DalSchema

/-- A terminal with a text, wherever it stands. -/
abbrev Token := Terminal × List Char

def Lexeme.token (l : Lexeme) : Token := (l.terminal, l.text)

/-- Parts can be moved without changing their value, whatever follows them. -/
def Movable {α β : Type} (lexemes : α → List Lexeme) (value : α → β) : Prop :=
  ∀ (x : α) (ls : List Lexeme) (rest : List Token),
    ls.map Lexeme.token = (lexemes x).map Lexeme.token ++ rest →
      ∃ y ms, ls = lexemes y ++ ms ∧ value y = value x ∧ ms.map Lexeme.token = rest

theorem Word.moved {t : Terminal} (w : Word t) {ls : List Lexeme} {rest : List Token}
    (h : ls.map Lexeme.token = w.lexeme.token :: rest) :
    ∃ (v : Word t) (ms : List Lexeme), ls = v.lexeme :: ms ∧ v.string = w.string ∧
      ms.map Lexeme.token = rest := by
  obtain ⟨l, ms, rfl, htoken, hrest⟩ := List.map_eq_cons_iff.mp h
  obtain ⟨terminal, text, start⟩ := l
  cases htoken
  exact ⟨⟨w.text, start, w.fits⟩, ms, rfl, rfl, hrest⟩

theorem Word.movable {t : Terminal} : Movable (fun w : Word t => [w.lexeme]) Word.string := by
  intro w ls rest hls
  obtain ⟨v, ms, rfl, hv, hms⟩ := w.moved hls
  exact ⟨v, ms, rfl, hv, hms⟩

namespace Movable

variable {α β : Type} {lexemes : α → List Lexeme} {value : α → β}

theorem list (h : Movable lexemes value) : Movable (List.flatMap lexemes) (List.map value) := by
  intro xs
  induction xs with
  | nil =>
    intro ls rest hls
    exact ⟨[], ls, rfl, rfl, hls⟩
  | cons x xs ih =>
    intro ls rest hls
    rw [List.flatMap_cons, List.map_append, List.append_assoc] at hls
    obtain ⟨y, ms, rfl, hy, hms⟩ := h x ls _ hls
    obtain ⟨ys, ns, rfl, hys, hns⟩ := ih ms rest hms
    exact ⟨y :: ys, ns, by simp, by simp [hy, hys], hns⟩

theorem option (h : Movable lexemes value) :
    Movable (fun o : Option α => o.toList.flatMap lexemes) (Option.map value) := by
  intro o ls rest hls
  cases o with
  | none => exact ⟨none, ls, rfl, rfl, hls⟩
  | some x =>
    obtain ⟨y, ms, rfl, hy, hms⟩ := h x ls rest (by simpa using hls)
    exact ⟨some y, ms, by simp, congrArg some hy, hms⟩

theorem separated (h : Movable lexemes value) :
    Movable (Written.Separated.lexemes lexemes) (fun s => s.items.map value) := by
  have hnext : Movable (fun x : Word .comma × α => x.1.lexeme :: lexemes x.2)
      (value ∘ Prod.snd) := by
    intro x ls rest hls
    obtain ⟨comma, ms, rfl, _, hms⟩ := x.1.moved hls
    obtain ⟨y, ns, rfl, hy, hns⟩ := h x.2 ms rest hms
    exact ⟨(comma, y), ns, rfl, hy, hns⟩
  intro s ls rest hls
  rw [Written.Separated.lexemes, List.map_append, List.append_assoc] at hls
  obtain ⟨first, ms, rfl, hfirst, hms⟩ := h s.first ls _ hls
  obtain ⟨others, ns, rfl, hothers, hns⟩ := hnext.list s.others ms rest hms
  refine ⟨⟨first, others⟩, ns, ?_, ?_, hns⟩
  · simp [Written.Separated.lexemes, Written.Separated.tailLexemes]
  · simpa [Written.Separated.items, hfirst] using hothers

end Movable

namespace Written

theorem Clause.movable : Movable Clause.lexemes Clause.value := by
  intro c ls rest hls
  obtain ⟨kind, word, colon, phrase⟩ := c
  obtain ⟨word', ms, rfl, _, hms⟩ := word.moved hls
  obtain ⟨colon', ns, rfl, _, hns⟩ := colon.moved hms
  obtain ⟨phrase', ps, rfl, hphrase, hps⟩ := phrase.moved hns
  exact ⟨⟨kind, word', colon', phrase'⟩, ps, rfl, by simp [value, hphrase], hps⟩

theorem Clauses.movable : Movable Clauses.lexemes Clauses.actions := by
  intro c ls rest hls
  rw [Clauses.lexemes, List.map_cons, List.map_append, List.cons_append, List.append_assoc] at hls
  obtain ⟨opening, ms, rfl, _, hms⟩ := c.opening.moved hls
  obtain ⟨list, ns, rfl, hlist, hns⟩ := Clause.movable.separated c.list ms _ hms
  obtain ⟨closing, ps, rfl, _, hps⟩ := c.closing.moved hns
  refine ⟨⟨opening, list, closing⟩, ps, by simp [Clauses.lexemes], ?_, hps⟩
  exact congrArg (List.foldl ClauseKind.apply _) hlist

theorem Modifier.movable : Movable Modifier.lexemes Modifier.value := by
  intro m ls rest hls
  cases m with
  | default word colon value =>
    obtain ⟨word', ms, rfl, _, hms⟩ := word.moved hls
    obtain ⟨colon', ns, rfl, _, hns⟩ := colon.moved hms
    obtain ⟨value', ps, rfl, hvalue, hps⟩ := value.moved hns
    exact ⟨.default word' colon' value', ps, rfl, by simp [Modifier.value, hvalue], hps⟩
  | primary word key =>
    obtain ⟨word', ms, rfl, _, hms⟩ := word.moved hls
    obtain ⟨key', ns, rfl, _, hns⟩ := key.moved hms
    exact ⟨.primary word' key', ns, rfl, rfl, hns⟩
  | unique word =>
    obtain ⟨word', ms, rfl, _, hms⟩ := word.moved hls
    exact ⟨.unique word', ms, rfl, rfl, hms⟩
  | reference word colon table dot column clauses =>
    obtain ⟨word', ms₁, rfl, _, h₁⟩ := word.moved hls
    obtain ⟨colon', ms₂, rfl, _, h₂⟩ := colon.moved h₁
    obtain ⟨table', ms₃, rfl, htable, h₃⟩ := table.moved h₂
    obtain ⟨dot', ms₄, rfl, _, h₄⟩ := dot.moved h₃
    obtain ⟨column', ms₅, rfl, hcolumn, h₅⟩ := column.moved h₄
    obtain ⟨clauses', ms₆, rfl, hclauses, h₆⟩ := Clauses.movable.option clauses _ _ h₅
    refine ⟨.reference word' colon' table' dot' column' clauses', ms₆, ?_, ?_, h₆⟩
    · simp [Modifier.lexemes]
    · simp [Modifier.value, htable, hcolumn, hclauses]

theorem Group.movable : Movable Group.lexemes fun g => g.list.items.map Modifier.value := by
  intro g ls rest hls
  rw [Group.lexemes, List.map_cons, List.map_append, List.cons_append, List.append_assoc] at hls
  obtain ⟨opening, ms, rfl, _, hms⟩ := g.opening.moved hls
  obtain ⟨list, ns, rfl, hlist, hns⟩ := Modifier.movable.separated g.list ms _ hms
  obtain ⟨closing, ps, rfl, _, hps⟩ := g.closing.moved hns
  exact ⟨⟨opening, list, closing⟩, ps, by simp [Group.lexemes], hlist, hps⟩

theorem Column.map_modifiers (c : Column) :
    c.modifiers.map Modifier.value =
      (c.groups.map fun g => g.list.items.map Modifier.value).flatten := by
  rw [Column.modifiers, List.map_flatMap, List.flatMap_def]

theorem Column.movable : Movable Column.lexemes Column.value := by
  intro c ls rest hls
  rw [Column.lexemes, List.map_cons, List.map_cons, List.map_append, List.cons_append,
    List.cons_append, List.append_assoc, List.map_eq_flatMap (f := Word.lexeme)] at hls
  obtain ⟨name, ms₁, rfl, hname, h₁⟩ := c.name.moved hls
  obtain ⟨type, ms₂, rfl, htype, h₂⟩ := c.type.moved h₁
  obtain ⟨null, ms₃, rfl, hnull, h₃⟩ := Word.movable.option c.null _ _ h₂
  obtain ⟨groups, ms₄, rfl, hgroups, h₄⟩ := Group.movable.list c.groups _ _ h₃
  refine ⟨⟨name, type, null, groups⟩, ms₄, ?_, ?_, h₄⟩
  · simp [Column.lexemes, List.map_eq_flatMap]
  · have hisSome : null.isSome = c.null.isSome := by
      simpa using congrArg Option.isSome hnull
    simp only [Column.value, Column.map_modifiers, hname, htype, hisSome, hgroups]

theorem Mark.movable : Movable Mark.lexemes fun _ => () := by
  intro m ls rest hls
  obtain ⟨opening, ms, rfl, _, hms⟩ := m.opening.moved hls
  obtain ⟨word, ns, rfl, _, hns⟩ := m.word.moved hms
  obtain ⟨closing, ps, rfl, _, hps⟩ := m.closing.moved hns
  exact ⟨⟨opening, word, closing⟩, ps, rfl, rfl, hps⟩

variable {kind : DeclKind}

theorem Member.movable : Movable (Member.lexemes : Member kind → List Lexeme) Member.value? := by
  intro m ls rest hls
  cases m with
  | entry e =>
    have hentry : Movable kind.lexemes kind.value := by
      cases kind with
      | enum => exact Word.movable
      | table => exact Column.movable
    obtain ⟨e', ms, rfl, he, hms⟩ := hentry e ls rest hls
    exact ⟨.entry e', ms, rfl, congrArg some he, hms⟩
  | comment w =>
    obtain ⟨v, ms, rfl, _, hms⟩ := w.moved hls
    exact ⟨.comment v, ms, rfl, rfl, hms⟩

theorem Declaration.movable :
    Movable (Declaration.lexemes : Declaration kind → List Lexeme) Declaration.value := by
  intro d ls rest hls
  simp only [Declaration.lexemes, Declaration.headLexemes, List.cons_append, List.append_assoc,
    List.map_cons, List.map_append, List.nil_append] at hls
  obtain ⟨word, ms₁, rfl, _, h₁⟩ := d.word.moved hls
  obtain ⟨name, ms₂, rfl, hname, h₂⟩ := d.name.moved h₁
  obtain ⟨mark, ms₃, rfl, hmark, h₃⟩ := Mark.movable.option d.mark _ _ h₂
  obtain ⟨opening, ms₄, rfl, _, h₄⟩ := d.opening.moved h₃
  obtain ⟨members, ms₅, rfl, hmembers, h₅⟩ := Member.movable.list d.members _ _ h₄
  obtain ⟨closing, ms₆, rfl, _, h₆⟩ := d.closing.moved h₅
  refine ⟨⟨word, name, mark, opening, members, closing⟩, ms₆, ?_, ?_, h₆⟩
  · simp [Declaration.lexemes, Declaration.headLexemes]
  · have hisSome : mark.isSome = d.mark.isSome := by
      simpa using congrArg Option.isSome hmark
    have hvalues : members.filterMap Member.value? = d.members.filterMap Member.value? := by
      simpa using congrArg (List.filterMap id) hmembers
    simp only [Declaration.value, hname, hisSome, hvalues]

theorem Part.movable : Movable Part.lexemes Part.value? := by
  intro p ls rest hls
  cases p with
  | declaration kind d =>
    obtain ⟨d', ms, rfl, hd, hms⟩ := Declaration.movable d ls rest hls
    exact ⟨.declaration kind d', ms, rfl, congrArg some hd, hms⟩
  | comment w =>
    obtain ⟨v, ms, rfl, _, hms⟩ := w.moved hls
    exact ⟨.comment v, ms, rfl, rfl, hms⟩

/-- Lexemes with the tokens of a whole text stand for the same schema. -/
theorem exists_moved {parts : List Part} {ls : List Lexeme}
    (h : ls.map Lexeme.token = (lexemes parts).map Lexeme.token) :
    ∃ moved, lexemes moved = ls ∧ schema moved = schema parts := by
  obtain ⟨moved, ms, rfl, hvalues, hms⟩ :=
    Part.movable.list parts ls [] (h.trans (List.append_nil _).symm)
  refine ⟨moved, ?_, ?_⟩
  · rw [List.map_eq_nil_iff.mp hms, List.append_nil]
    rfl
  · have hitems : moved.filterMap Part.value? = parts.filterMap Part.value? := by
      simpa using congrArg (List.filterMap id) hvalues
    rw [schema, schema, hitems]

end Written

end DalSchema
