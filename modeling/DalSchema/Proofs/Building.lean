import DalSchema.Proofs.Deriving
import DalSchema.Proofs.Moving

/-!
# Schemas from trees of texts

The nodes of written parts have the shapes that building a schema asks for, so the only fault it can
find in the tree of a text is a phrase that is no referential action. `judged` says so for one part:
its value, unless there is such a phrase among its lexemes, and then the fault of the first one,
reported.
-/

namespace DalSchema

theorem Action.ofPhrase?_eq_none_iff {words : String} :
    ofPhrase? words = none ↔ ∀ a : Action, words ≠ a.phrase := by
  have hall : ∀ a : Action, a ∈ all := by
    intro a
    cases a <;> decide
  simp only [ofPhrase?, List.find?_eq_none, beq_iff_eq]
  exact ⟨fun h a heq => h a (hall a) heq.symm, fun h a _ heq => h a heq.symm⟩

namespace Lexeme

/-- An action is wanted here and the phrase is none of them. -/
def InvalidAction (l : Lexeme) : Prop :=
  l.terminal = .action ∧ ∀ a : Action, String.ofList l.text ≠ a.phrase

instance : DecidablePred InvalidAction := fun l =>
  decidable_of_iff (l.terminal = .action ∧ Action.ofPhrase? (String.ofList l.text) = none)
    (and_congr_right fun _ => Action.ofPhrase?_eq_none_iff)

def span (l : Lexeme) : Span := ⟨l.start, l.stop⟩

def actionFault (l : Lexeme) : ShapeFault := .invalidAction (String.ofList l.text) l.span

end Lexeme

/-- The fault of the first invalid action. -/
def actionFault? (ls : List Lexeme) : Option ShapeFault :=
  (ls.find? fun l => l.InvalidAction).map Lexeme.actionFault

/-- A value, unless there is an invalid action among the lexemes. -/
def judged {α : Type} (ls : List Lexeme) (value : α) : Recorder ShapeFault α :=
  match actionFault? ls with
  | none => pure value
  | some fault => fault.raised

section

variable {α β : Type} {ls ms : List Lexeme} {v : α} {w : β}

@[simp] theorem actionFault?_nil : actionFault? [] = none := rfl

@[simp] theorem actionFault?_append :
    actionFault? (ls ++ ms) = (actionFault? ls).or (actionFault? ms) := by
  rw [actionFault?, List.find?_append, Option.map_or]
  rfl

@[simp] theorem actionFault?_cons {t : Terminal} (x : Word t) (ht : t ≠ .action) :
    actionFault? (x.lexeme :: ls) = actionFault? ls := by
  have hvalid : ¬x.lexeme.InvalidAction := fun h => ht h.1
  rw [actionFault?, List.find?_cons_of_neg (by simpa using hvalid)]
  rfl

theorem actionFault?_eq_none_iff : actionFault? ls = none ↔ ∀ l ∈ ls, ¬l.InvalidAction := by
  simp [actionFault?]

/-- The fault that is found is that of the first invalid action. -/
theorem actionFault?_eq_some {fault : ShapeFault} (h : actionFault? ls = some fault) :
    ∃ before l rest, ls = before ++ l :: rest ∧ (∀ m ∈ before, ¬m.InvalidAction) ∧
      l.InvalidAction ∧ fault = l.actionFault := by
  obtain ⟨l, hfind, rfl⟩ := Option.map_eq_some_iff.mp h
  obtain ⟨hl, before, rest, rfl, hbefore⟩ := List.find?_eq_some_iff_append.mp hfind
  exact ⟨before, l, rest, rfl, by simpa using hbefore, by simpa using hl, rfl⟩

theorem judged_congr (h : actionFault? ls = actionFault? ms) : judged ls v = judged ms v := by
  rw [judged, judged, h]

theorem judged_of_none (h : actionFault? ls = none) : judged ls v = pure v := by
  rw [judged, h]

theorem judged_of_some {fault : ShapeFault} (h : actionFault? ls = some fault) :
    judged ls v = fault.raised := by
  rw [judged, h]

theorem judged_bind {next : α → Recorder ShapeFault β} (h : next v = judged ms w) :
    (judged ls v >>= next) = judged (ls ++ ms) w := by
  rw [judged, judged, actionFault?_append]
  cases hls : actionFault? ls with
  | none => exact h
  | some fault => rfl

theorem judged_map (f : α → β) : (judged ls v >>= fun x => pure (f x)) = judged ls (f v) := by
  rw [judged, judged]
  cases actionFault? ls <;> rfl

theorem mapM_judged {γ : Type} {node : γ → α} {f : α → Recorder ShapeFault β}
    {lexemes : γ → List Lexeme} {value : γ → β} (h : ∀ x, f (node x) = judged (lexemes x) (value x))
    (xs : List γ) : (xs.map node).mapM f = judged (xs.flatMap lexemes) (xs.map value) := by
  induction xs with
  | nil => rfl
  | cons x xs ih =>
    rw [List.map_cons, List.mapM_cons, h, ih, List.flatMap_cons]
    exact judged_bind (judged_map _)

end

namespace Written

open Node

variable {source : List Char}

theorem leafText_node {t : Terminal} (category : Category) (w : Word t) :
    (w.node category).leafText = w.string := rfl

theorem toAction_node (w : Word .action) :
    (w.node .action).toAction =
      judged [w.lexeme] ((Action.ofPhrase? w.string).getD .noAction) := by
  rw [toAction, leafText_node, judged, actionFault?]
  cases hphrase : Action.ofPhrase? w.string with
  | none =>
    have hinvalid : w.lexeme.InvalidAction := ⟨rfl, Action.ofPhrase?_eq_none_iff.mp hphrase⟩
    rw [List.find?_cons_of_pos (by simpa using hinvalid)]
    rfl
  | some action =>
    have hvalid : ¬w.lexeme.InvalidAction := by
      rintro ⟨_, hnone⟩
      cases hphrase.symm.trans (Action.ofPhrase?_eq_none_iff.mpr hnone)
    rw [List.find?_cons_of_neg (by simpa using hvalid)]
    rfl

theorem toActions_clause (onDelete onUpdate : Action) (c : Clause) (others : List Node) :
    toActions source onDelete onUpdate (c.node :: others) =
      (c.phrase.node .action).toAction >>= fun action =>
        match c.kind with
        | .delete => toActions source action onUpdate others
        | .update => toActions source onDelete action others := by
  obtain ⟨kind, word, colon, phrase⟩ := c
  cases kind <;> rfl

theorem toActions_clauses (actions : Action × Action) (cs : List Clause) :
    toActions source actions.1 actions.2 (cs.map Clause.node) =
      judged (cs.flatMap Clause.lexemes)
        ((cs.map Clause.value).foldl ClauseKind.apply actions) := by
  induction cs generalizing actions with
  | nil => rfl
  | cons c cs ih =>
    have hphrase : judged [c.phrase.lexeme] c.value.2 = judged c.lexemes c.value.2 := by
      have hword : c.kind.word ≠ .action := by cases c.kind <;> decide
      exact judged_congr (by simp [Clause.lexemes, hword])
    rw [List.map_cons, toActions_clause, toAction_node]
    refine (congrArg (· >>= _) hphrase).trans ?_
    rw [List.flatMap_cons, List.map_cons, List.foldl_cons]
    refine judged_bind ?_
    rw [← ih]
    obtain ⟨kind, word, colon, phrase⟩ := c
    cases kind <;> rfl

@[simp] theorem Separated.actionFault?_lexemes {α : Type} (lexemes : α → List Lexeme)
    (s : Separated α) :
    actionFault? (s.lexemes lexemes) = actionFault? (s.items.flatMap lexemes) := by
  have htail : actionFault? (Separated.tailLexemes lexemes s.others) =
      actionFault? ((s.others.map Prod.snd).flatMap lexemes) := by
    induction s.others with
    | nil => rfl
    | cons x others ih => simpa [Separated.tailLexemes] using congrArg _ ih
  simp [Separated.lexemes, Separated.items, htail]

theorem toActions_node (c : Clauses) :
    toActions source .noAction .noAction (c.list.items.map Clause.node) =
      judged c.lexemes c.actions := by
  rw [toActions_clauses (.noAction, .noAction)]
  exact judged_congr (by simp [Clauses.lexemes])

theorem toReference_node (word : Word .refWord) (colon : Word .colon) (table : Word .ident)
    (dot : Word .dot) (column : Word .ident) (clauses : Option Clauses) :
    let m := Modifier.reference word colon table dot column clauses
    toReference source m.node = judged m.lexemes m.value := by
  intro m
  cases clauses with
  | none => exact (judged_of_none (by simp [m, Modifier.lexemes])).symm
  | some c =>
    have hjudged : judged m.lexemes m.value = judged c.lexemes m.value :=
      judged_congr (by simp [m, Modifier.lexemes])
    rw [hjudged]
    calc toReference source m.node
        = (toActions source .noAction .noAction (c.list.items.map Clause.node) >>= fun actions =>
            pure (.reference table.string column.string actions.1 actions.2)) := rfl
      _ = judged c.lexemes m.value := by
        rw [toActions_node]
        exact judged_map _

theorem toModifier_node (m : Modifier) : toModifier source m.node = judged m.lexemes m.value := by
  cases m with
  | default word colon value => exact (judged_of_none (by simp [Modifier.lexemes])).symm
  | primary word key => exact (judged_of_none (by simp [Modifier.lexemes])).symm
  | unique word => exact (judged_of_none (by simp [Modifier.lexemes])).symm
  | reference word colon table dot column clauses =>
    exact toReference_node word colon table dot column clauses

@[simp] theorem actionFault?_groups (groups : List Group) :
    actionFault? (groups.flatMap Group.lexemes) =
      actionFault? ((groups.flatMap fun g => g.list.items).flatMap Modifier.lexemes) := by
  induction groups with
  | nil => rfl
  | cons g groups ih => simp [Group.lexemes, ih]

theorem toColumnEntry_node (c : Column) :
    toColumnEntry source c.node = judged c.lexemes c.value := by
  have hlexemes : actionFault? c.lexemes = actionFault? (c.modifiers.flatMap Modifier.lexemes) := by
    cases hnull : c.null <;> simp [Column.lexemes, Column.modifiers, hnull]
  rw [judged_congr hlexemes]
  obtain ⟨name, type, null, groups⟩ := c
  cases groups with
  | nil => cases null <;> rfl
  | cons g groups =>
    calc toColumnEntry source (Column.node ⟨name, type, null, g :: groups⟩)
        = ((Column.modifiers ⟨name, type, null, g :: groups⟩).map Modifier.node).mapM
            (toModifier source) >>= fun modifiers =>
              pure ⟨name.string, .ofText type.string, null.isSome, modifiers⟩ := by
          cases null <;> rfl
      _ = _ := by
        rw [mapM_judged toModifier_node]
        exact judged_map _

theorem foldlM_addMember_nodes (lists : TableLists) (members : List (Member .table)) :
    (members.map Member.node).foldlM (addMember source) lists =
      judged (members.flatMap Member.lexemes)
        ((members.filterMap Member.value?).foldl TableLists.addColumn lists) := by
  induction members generalizing lists with
  | nil => rfl
  | cons m members ih =>
    rw [List.map_cons, List.foldlM_cons]
    cases m with
    | entry e =>
      change Column at e
      have hstep : addMember source lists (.entry e : Member .table).node =
          judged e.lexemes (lists.addColumn e.value) := by
        calc addMember source lists e.node
            = toColumnEntry source e.node >>= fun entry => pure (lists.addColumn entry) := rfl
          _ = _ := by
            rw [toColumnEntry_node]
            exact judged_map _
      rw [hstep]
      exact judged_bind (ih _)
    | comment w =>
      have hcomment : actionFault? ((Member.comment w :: members).flatMap Member.lexemes) =
          actionFault? (members.flatMap Member.lexemes) := by
        simp [Member.lexemes]
      rw [judged_congr hcomment]
      exact ih lists

theorem foldlM_addVariant_nodes (variants : List String) (members : List (Member .enum)) :
    (members.map Member.node).foldlM (addVariant source) variants =
      judged (members.flatMap Member.lexemes)
        (variants.append (members.filterMap Member.value?)) := by
  induction members generalizing variants with
  | nil => exact congrArg pure (List.append_nil variants).symm
  | cons m members ih =>
    have hmember : actionFault? ((m :: members).flatMap Member.lexemes) =
        actionFault? (members.flatMap Member.lexemes) := by
      cases m with
      | entry e => exact actionFault?_cons (t := .ident) e (by decide)
      | comment w => exact actionFault?_cons w (by decide)
    rw [judged_congr hmember]
    cases m with
    | entry e =>
      exact (ih (variants ++ [Word.string e])).trans
        (congrArg (judged _) (List.append_assoc variants [Word.string e] _))
    | comment w => exact ih variants

theorem accept_mark {kind : DeclKind} (mark : Option Mark) (members : List (Member kind)) :
    accept .exists_ (mark.toList.map Mark.node ++ members.map Member.node) =
      (mark.isSome, members.map Member.node) := by
  cases mark with
  | some m => rfl
  | none =>
    cases members with
    | nil => rfl
    | cons m members =>
      have hmember : m.node.category ≠ .exists_ := by
        cases m with
        | entry e => cases kind <;> nofun
        | comment w => nofun
      simp [accept, hmember]

theorem toEnum_node (d : Declaration .enum) :
    toEnum source d.node = judged (d.members.flatMap Member.lexemes)
      ⟨d.name.string, d.mark.isSome, d.members.filterMap Member.value?⟩ := by
  let found := accept .exists_ (d.mark.toList.map Mark.node ++ d.members.map Member.node)
  calc toEnum source d.node
      = found.2.foldlM (addVariant source) [] >>= fun variants =>
          pure ⟨d.name.string, found.1, variants⟩ := rfl
    _ = _ := by
      rw [show found = _ from accept_mark d.mark d.members, foldlM_addVariant_nodes]
      exact judged_map _

theorem toTable_node (d : Declaration .table) :
    toTable source d.node = judged (d.members.flatMap Member.lexemes)
      (.ofEntries d.name.string d.mark.isSome (d.members.filterMap Member.value?)) := by
  let found := accept .exists_ (d.mark.toList.map Mark.node ++ d.members.map Member.node)
  calc toTable source d.node
      = found.2.foldlM (addMember source) {} >>= fun lists =>
          pure (lists.toTable d.name.string found.1) := rfl
    _ = judged (d.members.flatMap Member.lexemes) (((d.members.filterMap Member.value?).foldl
          TableLists.addColumn {}).toTable d.name.string d.mark.isSome) := by
      rw [show found = _ from accept_mark d.mark d.members, foldlM_addMember_nodes]
      exact judged_map _
    _ = _ := congrArg (judged _) (TableLists.toTable_foldl_addColumn _ _ _)

theorem toItem?_declaration {kind : DeclKind} (d : Declaration kind) :
    toItem? source d.node = judged d.lexemes (some d.value) := by
  have hword : kind.word ≠ .action := by cases kind <;> decide
  have hlexemes : actionFault? d.lexemes = actionFault? (d.members.flatMap Member.lexemes) := by
    cases hmark : d.mark <;>
      simp [Declaration.lexemes, Declaration.headLexemes, Mark.lexemes, hmark, hword]
  rw [judged_congr hlexemes]
  cases kind with
  | enum =>
    calc toItem? source d.node
        = toEnum source d.node >>= fun decl => pure (some (.enum decl)) := rfl
      _ = _ := by
        rw [toEnum_node]
        exact judged_map _
  | table =>
    calc toItem? source d.node
        = toTable source d.node >>= fun decl => pure (some (.table decl)) := rfl
      _ = _ := by
        rw [toTable_node]
        exact judged_map _

theorem toItem?_node (p : Part) : toItem? source p.node = judged p.lexemes p.value? := by
  cases p with
  | declaration kind d => exact toItem?_declaration d
  | comment w => exact (judged_of_none (by simp [Part.lexemes])).symm

/-- The walk over a text ends at the first invalid action, and without one it reads all. -/
theorem ofNodes_nodes (source : List Char) (parts : List Part) :
    ∃ w : Walk, (∀ l, (Walk.ofNodes source (parts.map Part.node)).run l = (w, l.record w.notice?)) ∧
      w.fault = actionFault? (lexemes parts) ∧
      (w.fault = none → w.items = parts.filterMap Part.value?) := by
  induction parts with
  | nil => exact ⟨⟨[], none⟩, fun _ => rfl, rfl, fun _ => rfl⟩
  | cons p parts ih =>
    obtain ⟨w, hrun, hfault, hitems⟩ := ih
    have hlexemes : lexemes (p :: parts) = p.lexemes ++ lexemes parts := List.flatMap_cons
    have hnode : toItem? source p.node = judged p.lexemes p.value? := toItem?_node p
    rw [List.map_cons, hlexemes, actionFault?_append]
    rw [judged] at hnode
    cases hpart : actionFault? p.lexemes with
    | some fault =>
      rw [hpart] at hnode
      exact ⟨⟨[], some fault⟩, Walk.ofNodes_cons_of_raised hnode, rfl, nofun⟩
    | none =>
      rw [hpart] at hnode
      cases hvalue : p.value? with
      | none =>
        rw [hvalue] at hnode
        rw [List.filterMap_cons_none hvalue, Walk.ofNodes_cons_of_none hnode]
        exact ⟨w, hrun, hfault, hitems⟩
      | some item =>
        rw [hvalue] at hnode
        rw [List.filterMap_cons_some hvalue, Walk.ofNodes_cons_of_some hnode]
        refine ⟨⟨item :: w.items, w.fault⟩, fun l => ?_, hfault, fun h => congrArg _ (hitems h)⟩
        rw [StateT.run_map, hrun l]
        rfl

/-- The walk over a text gives its schema, or reports the first invalid action. -/
theorem result_nodes (source : List Char) (parts : List Part) (l : Ledger) :
    ∃ w : Walk, (Walk.ofNodes source (parts.map Part.node)).run l = (w, l.record w.notice?) ∧
      (w.result, l.record w.notice?) = (judged (lexemes parts) (schema parts)).runOn l := by
  obtain ⟨w, hrun, hfault, hitems⟩ := ofNodes_nodes source parts
  refine ⟨w, hrun l, ?_⟩
  rw [judged, Walk.result, Walk.notice?, hfault]
  cases hnone : actionFault? (lexemes parts) with
  | some fault => rfl
  | none =>
    rw [hitems (hfault.trans hnone)]
    rfl

end Written

theorem Walk.ofTree_written (source : List Char) (parts : List Written.Part) :
    Walk.ofTree source (Node.ofLexemes (Written.lexemes parts)) =
      Walk.ofNodes source (parts.map Written.Part.node) := by
  rw [Written.ofLexemes_lexemes]
  rfl

theorem Ledger.build_written (ledger : Ledger) (source : List Char) (parts : List Written.Part) :
    ledger.build source (Node.ofLexemes (Written.lexemes parts)) =
      (judged (Written.lexemes parts) (Written.schema parts)).runOn ledger := by
  obtain ⟨w, hrun, hresult⟩ := Written.result_nodes source parts ledger
  rw [Ledger.build, Walk.ofTree_written, hrun]
  exact hresult

theorem Ledger.parse_written (ledger : Ledger) {source : List Char} {parts : List Written.Part}
    (h : lexemes source = .ok (Written.lexemes parts)) :
    ledger.parse source =
      (((judged (Written.lexemes parts) (Written.schema parts)).runOn ledger).1.mapError .misshapen,
        ((judged (Written.lexemes parts) (Written.schema parts)).runOn ledger).2) := by
  obtain ⟨w, hrun, hresult⟩ := Written.result_nodes source parts ledger
  rw [Ledger.parse, Reading.ofSource_of_ok h, StateT.run_map, Walk.ofTree_written, hrun, ← hresult]
  change ((Reading.ofWalk w).result, _) = _
  rw [Reading.ofWalk, Reading.result, Walk.result]
  cases w.fault <;> rfl

/-- A text is read if it has the lexemes of written parts without an invalid action. -/
theorem Ledger.parse_eq_ok_iff {ledger after : Ledger} {source : List Char} {schema : Schema} :
    ledger.parse source = (.ok schema, after) ↔
      after = ledger ∧ ∃ parts, lexemes source = .ok (Written.lexemes parts) ∧
        actionFault? (Written.lexemes parts) = none ∧ Written.schema parts = schema := by
  constructor
  · intro h
    cases hlexemes : lexemes source with
    | error rejection =>
      rw [ledger.parse_of_error hlexemes] at h
      cases h
    | ok ls =>
      obtain ⟨parts, rfl⟩ := lexemes_eq_written hlexemes
      rw [ledger.parse_written hlexemes, judged] at h
      cases hnone : actionFault? (Written.lexemes parts) with
      | some fault =>
        rw [hnone] at h
        cases h
      | none =>
        rw [hnone] at h
        cases h
        exact ⟨rfl, parts, rfl, hnone, rfl⟩
  · rintro ⟨rfl, parts, hlexemes, hnone, rfl⟩
    rw [after.parse_written hlexemes, judged_of_none hnone]
    rfl

theorem actionFault?_eq_none_of_tokens {ls ms : List Lexeme}
    (h : ls.map Lexeme.token = ms.map Lexeme.token) (hms : actionFault? ms = none) :
    actionFault? ls = none := by
  rw [actionFault?_eq_none_iff] at hms ⊢
  intro l hl hinvalid
  have htoken : l.token ∈ ms.map Lexeme.token := h ▸ List.mem_map_of_mem hl
  obtain ⟨m, hm, heq⟩ := List.mem_map.mp htoken
  obtain ⟨hterminal, htext⟩ := Prod.mk.inj heq
  refine hms m hm ?_
  rw [Lexeme.InvalidAction, hterminal, htext]
  exact hinvalid

/-- A text with the tokens of written parts stands for the schema of these parts. -/
theorem Ledger.parse_of_tokens (ledger : Ledger) {source : List Char} {ls : List Lexeme}
    {parts : List Written.Part} (hlexemes : lexemes source = .ok ls)
    (htokens : ls.map Lexeme.token = (Written.lexemes parts).map Lexeme.token)
    (hnone : actionFault? (Written.lexemes parts) = none) :
    ledger.parse source = (.ok (Written.schema parts), ledger) := by
  obtain ⟨moved, rfl, hschema⟩ := Written.exists_moved htokens
  exact Ledger.parse_eq_ok_iff.mpr
    ⟨rfl, moved, hlexemes, actionFault?_eq_none_of_tokens htokens hnone, hschema⟩

/-- The characters a span covers. -/
def Span.slice (source : List Char) (s : Span) : List Char :=
  (source.drop s.start.toNat).take (s.stop.toNat - s.start.toNat)

theorem Lexeme.slice_span (l : Lexeme) (source : List Char) :
    l.span.slice source = (source.drop l.start).take l.text.length := by
  have hlength : (l.span.stop.toNat - l.span.start.toNat) = l.text.length := by
    simp only [span, stop]
    omega
  rw [Span.slice, hlength]
  rfl

/-- The span of a lexeme covers its text. -/
theorem Laid.slice {offset : Nat} {cs : List Char} {ls : List Lexeme} (h : Laid offset cs ls)
    (before : List Char) (hbefore : before.length = offset) :
    ∀ l ∈ ls, l.span.slice (before ++ cs) = l.text := by
  induction h generalizing before with
  | finish => simp
  | @lexeme offset gap rest l ls _ hstart _ ih =>
    have hlength : l.start = (before ++ gap).length := by rw [hstart, List.length_append, hbefore]
    refine List.forall_mem_cons.mpr ⟨?_, ?_⟩
    · rw [Lexeme.slice_span, hlength, ← List.append_assoc, List.drop_left, List.take_left]
    · have htail := ih (before ++ gap ++ l.text) (by rw [List.length_append, Lexeme.stop, hlength])
      simpa using htail

/-- Building a schema from the tree of a text fails at the first invalid action and nowhere else. -/
theorem build_of_parseTree {ledger after : Ledger} {source : List Char} {tree : Node}
    (h : ledger.parseTree source = (.ok tree, after)) :
    ∃ ls, lexemes source = .ok ls ∧ Laid 0 source ls ∧
      ((∃ schema, after.build source tree = (.ok schema, after)) ↔ ∀ l ∈ ls, ¬l.InvalidAction) ∧
      ((∃ l ∈ ls, l.InvalidAction) → ∃ before l rest d,
        ls = before ++ l :: rest ∧ (∀ m ∈ before, ¬m.InvalidAction) ∧ l.InvalidAction ∧
          after.build source tree =
            (.error (.invalidAction (String.ofList l.text) l.span),
              { after with entries := after.entries ++ [d] }) ∧
          d.severity = .error ∧ d.labels.map Label.span = [l.span] ∧
          l.span.slice source = l.text) := by
  obtain ⟨ls, hlexemes, rfl⟩ := parseTree_eq_ok_iff.mp (congrArg Prod.fst h)
  obtain ⟨r, hreads, hfinished⟩ := lexemes_eq_ok_iff.mp hlexemes
  obtain ⟨parts, rfl⟩ := lexemes_eq_written hlexemes
  have hlaid : Laid 0 source (Written.lexemes parts) := hreads.laid hfinished.2
  have hslice := hlaid.slice [] rfl
  have hbuild := after.build_written source parts
  refine ⟨_, hlexemes, hlaid, ?_, ?_⟩
  · rw [hbuild, ← actionFault?_eq_none_iff, judged]
    cases hfault : actionFault? (Written.lexemes parts) with
    | none => exact ⟨fun _ => rfl, fun _ => ⟨_, rfl⟩⟩
    | some fault =>
      refine ⟨?_, nofun⟩
      rintro ⟨schema, hschema⟩
      cases congrArg Prod.fst hschema
  · intro hinvalid
    cases hfault : actionFault? (Written.lexemes parts) with
    | none =>
      obtain ⟨l, hl, hbad⟩ := hinvalid
      exact absurd hbad (actionFault?_eq_none_iff.mp hfault l hl)
    | some fault =>
      obtain ⟨before, l, rest, heq, hbefore, hl, rfl⟩ := actionFault?_eq_some hfault
      obtain ⟨notice, hnotice, hspan⟩ : ∃ n, l.actionFault.notice? = some n ∧ n.span = l.span :=
        ⟨_, rfl, rfl⟩
      refine ⟨before, l, rest, after.entry .error notice, heq, hbefore, hl, ?_, rfl, ?_,
        hslice l (by simp [heq])⟩
      · rw [hbuild, judged_of_some hfault, ShapeFault.runOn_raised, hnotice]
        rfl
      · simp [Ledger.entry, hspan]

theorem build_of_parseTree_two_clauses :
    let source := "table t\x7ba b[ref:c.d(delete:cascade,update:x)]\x7d".toList
    let x : Lexeme := ⟨.action, ['x'], 42⟩
    let ls : List Lexeme :=
      [⟨.tableWord, "table".toList, 0⟩, ⟨.ident, ['t'], 6⟩, ⟨.leftBrace, ['{'], 7⟩,
        ⟨.ident, ['a'], 8⟩, ⟨.columnType, ['b'], 10⟩, ⟨.leftBracket, ['['], 11⟩,
        ⟨.refWord, "ref".toList, 12⟩, ⟨.colon, [':'], 15⟩, ⟨.ident, ['c'], 16⟩, ⟨.dot, ['.'], 17⟩,
        ⟨.ident, ['d'], 18⟩, ⟨.leftParen, ['('], 19⟩, ⟨.deleteWord, "delete".toList, 20⟩,
        ⟨.colon, [':'], 26⟩, ⟨.action, "cascade".toList, 27⟩, ⟨.comma, [','], 34⟩,
        ⟨.updateWord, "update".toList, 35⟩, ⟨.colon, [':'], 41⟩, x, ⟨.rightParen, [')'], 43⟩,
        ⟨.rightBracket, [']'], 44⟩, ⟨.rightBrace, ['}'], 45⟩]
    ({} : Ledger).parseTree source = (.ok (Node.ofLexemes ls), {}) ∧
      ∃ d, ({} : Ledger).build source (Node.ofLexemes ls) =
        (.error (.invalidAction "x" ⟨42, 43⟩), { entries := [d] }) := by
  intro source x ls
  have hlexemes : lexemes source = .ok ls := scan_of_scanWithin (n := 23) rfl
  have htree : ({} : Ledger).parseTree source = (.ok (Node.ofLexemes ls), {}) :=
    Ledger.parseTree_of_ok _ hlexemes
  obtain ⟨ms, hms, _, _, hinvalid⟩ := build_of_parseTree htree
  rw [hlexemes] at hms
  cases hms
  obtain ⟨before, l, rest, d, heq, _, hl, hbuild, _⟩ := hinvalid ⟨x, by decide, by decide⟩
  have hx : l = x := by
    have hmem : l ∈ ls.filter fun m => m.InvalidAction :=
      List.mem_filter.mpr ⟨by rw [heq]; simp, by simpa using hl⟩
    rw [show ls.filter (fun m => m.InvalidAction) = [x] by decide] at hmem
    exact List.mem_singleton.mp hmem
  subst hx
  exact ⟨htree, d, hbuild⟩

end DalSchema
