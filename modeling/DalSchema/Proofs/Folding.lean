import DalSchema.Proofs.Gathering
import DalSchema.Proofs.Walking

/-!
# Folding modifiers into a table

A table declaration can be read off its tree in one go: a column for each node of a column, a key
for each mark of one, the last default and the last actions. The walk goes from left to right and
keeps lists and a current default instead. What the lists hold after some members is what these
members give when they are read in one go: `Node.foldlM_addMember_eq_pure`. So the walk gives the
same table, `Node.toTable_eq_tableOf`, if only the children that it looks at are read.
-/

namespace DalSchema

namespace Node

/-- The children of a node; a token has none. -/
def childList : Node → List Node
  | token _ _ _ _ => []
  | tree _ _ children => children

/-- The children of a node that the walk looks at. -/
def looked (n : Node) : List Node := n.category.seen n.childList

def ofCategory (category : Category) (ns : List Node) : List Node :=
  ns.filter fun n => n.category = category

section Reading

-- what counts as the children of a node
variable (kids : Node → List Node)

def texts (category : Category) (n : Node) : List String :=
  (ofCategory category (kids n)).map leafText

def nameOf (n : Node) : String := (texts kids .ident n).headD ""

def actionOf (clause : Node) : Action :=
  ((texts kids .action clause).head?.bind Action.ofPhrase?).getD .noAction

/-- The action of the last clause of the category. -/
def lastAction (category : Category) (reference : Node) : Action :=
  ((ofCategory category ((ofCategory .refAction (kids reference)).flatMap kids)).map
    (actionOf kids)).getLast?.getD .noAction

def valueOf (n : Node) : DefaultValue := .ofText ((texts kids .modifierDefaultValue n).headD "")

def lastDefault (ms : List Node) : DefaultValue :=
  ((ofCategory .modifierDefault ms).map (valueOf kids)).getLast?.getD .none

def modifiersOf (column : Node) : List Node :=
  (ofCategory .modifiers (kids column)).flatMap kids

def columnOf (column : Node) : Column where
  name := nameOf kids column
  type := .ofText ((texts kids .columnType column).headD "")
  nullable := !(ofCategory .null (kids column)).isEmpty
  default := lastDefault kids (modifiersOf kids column)

/-- The name of the column, once for each modifier of the category. -/
def keysOf (category : Category) (column : Node) : List String :=
  List.replicate (ofCategory category (modifiersOf kids column)).length (nameOf kids column)

def foreignKeyOf (name : String) (reference : Node) : ForeignKey where
  localColumn := name
  table := nameOf kids reference
  foreignColumn := (texts kids .ident reference).getD 1 ""
  onDelete := lastAction kids .refActionDelete reference
  onUpdate := lastAction kids .refActionUpdate reference

def foreignKeysOf (column : Node) : List ForeignKey :=
  (ofCategory .modifierRef (modifiersOf kids column)).map
    (foreignKeyOf kids (nameOf kids column))

def tableOf (n : Node) : TableDecl where
  name := nameOf kids n
  ifNotExists := !(ofCategory .exists_ (kids n)).isEmpty
  columns := (ofCategory .column (kids n)).map (columnOf kids)
  primaryKeys := (ofCategory .column (kids n)).flatMap (keysOf kids .modifierPrimary)
  foreignKeys := (ofCategory .column (kids n)).flatMap (foreignKeysOf kids)
  uniqueKeys := (ofCategory .column (kids n)).flatMap (keysOf kids .modifierUnique)

def shareOf (column : Node) : Share where
  column := columnOf kids column
  primaryKeys := keysOf kids .modifierPrimary column
  foreignKeys := foreignKeysOf kids column
  uniqueKeys := keysOf kids .modifierUnique column

theorem tableOf_eq_toTable (n : Node) :
    tableOf kids n =
      (TableLists.ofShares ((ofCategory .column (kids n)).map (shareOf kids))).toTable
        (nameOf kids n) (!(ofCategory .exists_ (kids n)).isEmpty) := by
  simp only [tableOf, TableLists.toTable, TableLists.ofShares, List.map_map, List.flatMap_map]
  rfl

/-- The reading of a modifier. -/
def modifierOf (n : Node) : Modifier :=
  match n.category with
  | .modifierDefault => .default (valueOf kids n)
  | .modifierPrimary => .primaryKey
  | .modifierRef =>
    let key := foreignKeyOf kids "" n
    .reference key.table key.foreignColumn key.onDelete key.onUpdate
  | _ => .unique

/-- Wherever the walk comes to, these are the children that it looks at. -/
def Agrees (n : Node) : Prop :=
  ∀ m, n.Visits m → m.category.shape?.isSome → kids m = m.looked

end Reading

theorem childList_of_children {n : Node} {ns : List Node} (h : n.children = .ok ns) :
    n.childList = ns := by
  cases n with
  | token => cases h
  | tree => exact Except.ok.inj h

theorem seen_nil (category : Category) : category.seen [] = [] := by
  cases category <;> rfl

theorem sees_of_mem_looked {n m : Node} (h : m ∈ n.looked) : n.Sees m := by
  cases n with
  | token category =>
    change m ∈ category.seen [] at h
    rw [seen_nil] at h
    cases h
  | tree category span ns => exact ⟨ns, rfl, h⟩

variable {kids : Node → List Node}

namespace Agrees

variable {n m : Node}

theorem kids_eq (h : Agrees kids n) {category : Category} (hn : n.category = category)
    (hshape : category.shape?.isSome) {ns : List Node} (hns : n.children = .ok ns) :
    kids n = category.seen ns := by
  rw [h n .refl (hn ▸ hshape), looked, childList_of_children hns, hn]

theorem of_mem (h : Agrees kids n) (hshape : n.category.shape?.isSome) (hm : m ∈ kids n) :
    Agrees kids m := by
  rw [h n .refl hshape] at hm
  exact fun k hk => h k (.head (sees_of_mem_looked hm) hk)

end Agrees

theorem agrees_looked (n : Node) : Agrees looked n := fun _ _ _ => rfl

/-- No child is left over where the walk comes to. -/
def Tidy (n : Node) : Prop := ∀ m, n.Visits m → ¬m.HasSurplus

theorem Tidy.agrees {n : Node} (h : n.Tidy) : Agrees childList n := by
  intro m hm hshape
  by_contra hne
  cases m with
  | token category => exact hne (seen_nil category).symm
  | tree category span ns => exact h _ hm ⟨hshape, ns, rfl, fun heq => hne heq.symm⟩

theorem tidy_of_looked {n : Node} (hall : n.category.shape?.isSome → n.looked = n.childList)
    (h : ∀ m ∈ n.looked, m.Tidy) : n.Tidy := by
  intro k hk
  rcases Relation.ReflTransGen.cases_head hk with rfl | ⟨m, ⟨ns, hns, hm⟩, hmk⟩
  · rintro ⟨hsome, ns, hns, hne⟩
    have heq := hall hsome
    rw [looked, childList_of_children hns] at heq
    exact hne heq
  · refine h m ?_ k hmk
    rwa [looked, childList_of_children hns]

theorem tidy_of_shape_eq_none {n : Node} (h : n.category.shape? = none) : n.Tidy := by
  have hnone : n.looked = [] := by
    rw [looked]
    revert h
    cases n.category <;> simp [Category.shape?, Category.seen]
  exact tidy_of_looked (by simp [h]) (by simp [hnone])

theorem tidy_tree {category : Category} {span : Option Span} {ns : List Node}
    (hall : category.seen ns = ns) (h : ∀ m ∈ ns, m.Tidy) : (tree category span ns).Tidy :=
  tidy_of_looked (fun _ => hall) fun m hm => h m (hall ▸ hm)

@[simp] theorem ofCategory_nil (category : Category) : ofCategory category [] = [] := rfl

@[simp] theorem ofCategory_cons (category : Category) (n : Node) (ns : List Node) :
    ofCategory category (n :: ns) =
      if n.category = category then n :: ofCategory category ns else ofCategory category ns := by
  simp [ofCategory, List.filter_cons]

theorem ofCategory_eq_nil {category : Category} {ns : List Node}
    (h : ∀ n ∈ ns, n.category ≠ category) : ofCategory category ns = [] := by
  simpa [ofCategory] using h

/-! ## References -/

section

variable {source : List Char} {n : Node}

theorem toAction_eq_pure {action : Action} (h : n.toAction = pure action) :
    Action.ofPhrase? n.leafText = some action := by
  rw [toAction] at h
  split at h
  · next heq => rw [heq, pure_inj.mp h]
  · exact absurd h (raised_ne_pure (.invalidAction n.leafText n.span) action)

/-- A clause with an action hands it on. -/
theorem clause_eq_pure {category : Category} {wanted : String} {clause : Node}
    {next : Action → Recorder ShapeFault (Action × Action)} {actions : Action × Action}
    (hkids : Agrees kids clause) (hclause : clause.category = category)
    (hshape : category.shape?.isSome) (hseen : ∀ ns, category.seen ns = ns.take 1)
    (h : (do
      let (phrase, _) ← expect source clause .action wanted (← clause.children)
      next (← phrase.toAction) : Recorder ShapeFault (Action × Action)) = pure actions) :
    next (actionOf kids clause) = pure actions := by
  simp only [(disciplined_children _).bind_eq_pure_iff, (disciplined_expect _ _).bind_eq_pure_iff,
    (disciplined_toAction _).bind_eq_pure_iff, children_eq_pure_iff, Prod.exists,
    expect_eq_pure_iff] at h
  obtain ⟨_, hns, phrase, rest, ⟨rfl, hphrase⟩, action, haction, hnext⟩ := h
  have hone : kids clause = [phrase] := by
    rw [hkids.kids_eq hclause hshape hns, hseen, List.take_succ_cons, List.take_zero]
  have heq : actionOf kids clause = action := by
    simp [actionOf, texts, hone, hphrase, toAction_eq_pure haction]
  rwa [heq]

theorem toActions_eq_pure {onDelete onUpdate : Action} {clauses : List Node}
    {actions : Action × Action} (hkids : ∀ clause ∈ clauses, Agrees kids clause)
    (h : toActions source onDelete onUpdate clauses = pure actions) :
    actions =
      (((ofCategory .refActionDelete clauses).map (actionOf kids)).getLast?.getD onDelete,
        ((ofCategory .refActionUpdate clauses).map (actionOf kids)).getLast?.getD onUpdate) := by
  induction clauses generalizing onDelete onUpdate with
  | nil => exact (pure_inj.mp h).symm
  | cons clause rest ih =>
    obtain ⟨hclause, hrest⟩ := List.forall_mem_cons.mp hkids
    rw [toActions] at h
    split at h
    case _ hcategory =>
      have h := ih hrest (clause_eq_pure hclause hcategory rfl (fun _ => rfl) h)
      simpa [hcategory, List.getLast?_cons] using h
    case _ hcategory =>
      have h := ih hrest (clause_eq_pure hclause hcategory rfl (fun _ => rfl) h)
      simpa [hcategory, List.getLast?_cons] using h
    case _ => exact absurd h (raised_ne_pure _ actions)

theorem toReference_eq_pure {m : Modifier} (hkids : Agrees kids n)
    (hn : n.category = .modifierRef) (h : n.toReference source = pure m) :
    m = modifierOf kids n := by
  have hshape : n.category.shape?.isSome := hn ▸ rfl
  simp only [toReference, (disciplined_children _).bind_eq_pure_iff,
    disciplined_expectIdent.bind_eq_pure_iff, children_eq_pure_iff, Prod.exists,
    expectIdent_eq_pure_iff] at h
  obtain ⟨_, hns, _, _, ⟨table, rfl, htable, rfl⟩, _, rest, ⟨column, rfl, hcolumn, rfl⟩, h⟩ := h
  have hthree := hkids.kids_eq hn rfl hns
  cases rest with
  | nil =>
    rw [← pure_inj.mp h]
    simp [modifierOf, hn, foreignKeyOf, nameOf, texts, lastAction, hthree, Category.seen, htable,
      hcolumn]
  | cons clauses rest =>
    have hclauses : kids n = [table, column, clauses] := hthree
    dsimp only at h
    split at h
    case isFalse => exact absurd h (raised_ne_pure _ m)
    case isTrue hcategory =>
      simp only [(disciplined_children _).bind_eq_pure_iff,
        (disciplined_toActions _ _ _).bind_eq_pure_iff, children_eq_pure_iff, Prod.exists,
        pure_inj] at h
      obtain ⟨ns, hclausesNs, onDelete, onUpdate, hactions, rfl⟩ := h
      have hbelow : Agrees kids clauses := hkids.of_mem hshape (by simp [hclauses])
      have hall : kids clauses = ns := hbelow.kids_eq hcategory rfl hclausesNs
      have heq := toActions_eq_pure
        (fun clause hm => hbelow.of_mem (hcategory ▸ rfl) (hall ▸ hm)) hactions
      cases heq
      simp [modifierOf, hn, foreignKeyOf, nameOf, texts, lastAction, hclauses, hall, htable,
        hcolumn, hcategory]

/-! ## Modifiers -/

theorem toModifier_eq_pure {m : Modifier} (hkids : Agrees kids n)
    (h : n.toModifier source = pure m) : m = modifierOf kids n := by
  rw [toModifier] at h
  split at h
  case _ hn =>
    simp only [(disciplined_children _).bind_eq_pure_iff,
      (disciplined_expect _ _).bind_eq_pure_iff, children_eq_pure_iff, Prod.exists,
      expect_eq_pure_iff, pure_inj] at h
    obtain ⟨_, hns, value, rest, ⟨rfl, hvalue⟩, rfl⟩ := h
    have hone : kids n = [value] := hkids.kids_eq hn rfl hns
    simp [modifierOf, hn, valueOf, texts, hone, hvalue]
  case _ hn =>
    rw [← pure_inj.mp h]
    simp [modifierOf, hn]
  case _ hn => exact toReference_eq_pure hkids hn h
  case _ hn =>
    rw [← pure_inj.mp h]
    simp [modifierOf, hn]
  case _ => exact absurd h (raised_ne_pure _ m)

def IsModifier (n : Node) : Prop :=
  n.category ∈ [.modifierDefault, .modifierPrimary, .modifierUnique, .modifierRef]

theorem modifierOf_cases (kids : Node → List Node) (h : n.IsModifier) :
    n.category = .modifierDefault ∧ modifierOf kids n = .default (valueOf kids n) ∨
    n.category = .modifierPrimary ∧ modifierOf kids n = .primaryKey ∨
    n.category = .modifierUnique ∧ modifierOf kids n = .unique ∨
    n.category = .modifierRef ∧ modifierOf kids n =
      .reference (nameOf kids n) ((texts kids .ident n).getD 1 "")
        (lastAction kids .refActionDelete n) (lastAction kids .refActionUpdate n) := by
  simp only [IsModifier, List.mem_cons, List.not_mem_nil, or_false] at h
  rcases h with h | h | h | h <;> simp [modifierOf, foreignKeyOf, h]

end

section

variable (name : String) (type : ColumnType) (nullable : Bool) {ms : List Node}

theorem filterMap_map_modifierOf {α : Type} {f : Modifier → Option α} {g : Node → α}
    {category : Category} (hms : ∀ m ∈ ms, m.IsModifier)
    (hf : ∀ m : Node, m.IsModifier →
      f (modifierOf kids m) = if m.category = category then some (g m) else none) :
    (ms.map (modifierOf kids)).filterMap f = (ofCategory category ms).map g := by
  induction ms with
  | nil => rfl
  | cons m ms ih =>
    obtain ⟨hm, hms⟩ := List.forall_mem_cons.mp hms
    rw [List.map_cons, List.filterMap_cons, hf m hm, ih hms, ofCategory_cons]
    split_ifs <;> rfl

theorem primaryKeys_map_modifierOf (hms : ∀ m ∈ ms, m.IsModifier) :
    (ColumnEntry.mk name type nullable (ms.map (modifierOf kids))).primaryKeys =
      List.replicate (ofCategory .modifierPrimary ms).length name := by
  rw [← List.map_const']
  refine filterMap_map_modifierOf hms fun m hm => ?_
  rcases modifierOf_cases kids hm with ⟨hc, heq⟩ | ⟨hc, heq⟩ | ⟨hc, heq⟩ | ⟨hc, heq⟩ <;>
    simp [hc, heq, Modifier.primaryKey?]

theorem uniqueKeys_map_modifierOf (hms : ∀ m ∈ ms, m.IsModifier) :
    (ColumnEntry.mk name type nullable (ms.map (modifierOf kids))).uniqueKeys =
      List.replicate (ofCategory .modifierUnique ms).length name := by
  rw [← List.map_const']
  refine filterMap_map_modifierOf hms fun m hm => ?_
  rcases modifierOf_cases kids hm with ⟨hc, heq⟩ | ⟨hc, heq⟩ | ⟨hc, heq⟩ | ⟨hc, heq⟩ <;>
    simp [hc, heq, Modifier.uniqueKey?]

theorem foreignKeys_map_modifierOf (hms : ∀ m ∈ ms, m.IsModifier) :
    (ColumnEntry.mk name type nullable (ms.map (modifierOf kids))).foreignKeys =
      (ofCategory .modifierRef ms).map (foreignKeyOf kids name) := by
  refine filterMap_map_modifierOf hms fun m hm => ?_
  rcases modifierOf_cases kids hm with ⟨hc, heq⟩ | ⟨hc, heq⟩ | ⟨hc, heq⟩ | ⟨hc, heq⟩ <;>
    simp [hc, heq, Modifier.foreignKey?, foreignKeyOf]

theorem default_map_modifierOf (hms : ∀ m ∈ ms, m.IsModifier) :
    (ColumnEntry.mk name type nullable (ms.map (modifierOf kids))).default =
      lastDefault kids ms := by
  have hvalues : (ms.map (modifierOf kids)).filterMap Modifier.default? =
      (ofCategory .modifierDefault ms).map (valueOf kids) := by
    refine filterMap_map_modifierOf hms fun m hm => ?_
    rcases modifierOf_cases kids hm with ⟨hc, heq⟩ | ⟨hc, heq⟩ | ⟨hc, heq⟩ | ⟨hc, heq⟩ <;>
      simp [hc, heq, Modifier.default?]
  rw [ColumnEntry.default, hvalues, lastDefault]

end

/-! ## Columns -/

section

variable {source : List Char} {n : Node} {e : ColumnEntry}

theorem toModifiers_eq_pure {ms : List Modifier} (hkids : Agrees kids n)
    (hn : n.category = .modifiers) (h : n.toModifiers source = pure ms) :
    (∀ m ∈ kids n, m.IsModifier) ∧ ms = (kids n).map (modifierOf kids) := by
  obtain ⟨ns, hns, h⟩ := (disciplined_children n).bind_eq_pure_iff.mp h
  have hall : kids n = ns := hkids.kids_eq hn rfl (children_eq_pure_iff.mp hns)
  rw [hall]
  constructor
  · intro m hm
    have hok := (succeeds_mapM_iff disciplined_toModifier).mp ⟨ms, h⟩ m hm
    exact (succeeds_toModifier_iff.mp hok).1
  · have hread : ∀ m ∈ ns, ∀ x, m.toModifier source = pure x → id x = modifierOf kids m := by
      intro m hm x hx
      exact toModifier_eq_pure (hkids.of_mem (hn ▸ rfl) (hall ▸ hm)) hx
    rw [← map_eq_map_of_mapM disciplined_toModifier hread h, List.map_id]

theorem last_eq_pure_iff {make : List Modifier → ColumnEntry} {wanted : String}
    {rest : List Node} :
    (match rest with
      | [] => pure (make [])
      | m :: _ =>
        if m.category = .modifiers then do return make (← m.toModifiers source)
        else do throw (← m.unexpected source wanted) : Recorder ShapeFault ColumnEntry) = pure e ↔
      (∀ m ∈ rest.head?, m.category = .modifiers) ∧
        ∃ ms, rest.head?.elim (pure []) (toModifiers source) = pure ms ∧ e = make ms := by
  cases rest with
  | nil => simp [pure_inj, eq_comm]
  | cons m rest =>
    by_cases h : m.category = .modifiers
    · simp only [if_pos h, (disciplined_toModifiers m).bind_eq_pure_iff, List.head?_cons,
        Option.elim_some, pure_inj]
      simp [h, eq_comm]
    · simp [h, unexpected_throw, raised_ne_pure]

theorem toColumnEntry_eq_pure_iff :
    n.toColumnEntry source = pure e ↔ ∃ name type rest,
      n.children = .ok (name :: type :: rest) ∧ name.category = .ident ∧
      type.category = .columnType ∧
      (∀ m ∈ (accept .null rest).2.head?, m.category = .modifiers) ∧
      ∃ ms, (accept .null rest).2.head?.elim (pure []) (toModifiers source) = pure ms ∧
        e = ⟨name.leafText, .ofText type.leafText, (accept .null rest).1, ms⟩ := by
  simp only [toColumnEntry, (disciplined_children _).bind_eq_pure_iff,
    disciplined_expectIdent.bind_eq_pure_iff, (disciplined_expect _ _).bind_eq_pure_iff,
    children_eq_pure_iff, Prod.exists, expectIdent_eq_pure_iff, expect_eq_pure_iff]
  constructor
  · rintro ⟨_, hns, _, _, ⟨name, rfl, hname, rfl⟩, type, rest, ⟨rfl, htype⟩, h⟩
    exact ⟨name, type, rest, hns, hname, htype, last_eq_pure_iff.mp h⟩
  · rintro ⟨name, type, rest, hns, hname, htype, h⟩
    exact ⟨_, hns, _, _, ⟨name, rfl, hname, rfl⟩, type, rest, ⟨rfl, htype⟩, last_eq_pure_iff.mpr h⟩

theorem toColumnEntry_eq_pure (hkids : Agrees kids n) (hn : n.category = .column)
    (h : n.toColumnEntry source = pure e) :
    (∀ m ∈ modifiersOf kids n, m.IsModifier) ∧
      e = ⟨nameOf kids n, .ofText ((texts kids .columnType n).headD ""),
        !(ofCategory .null (kids n)).isEmpty, (modifiersOf kids n).map (modifierOf kids)⟩ := by
  have hshape : n.category.shape?.isSome := hn ▸ rfl
  obtain ⟨name, type, rest, hns, hname, htype, hmodifiers, ms, hms, rfl⟩ :=
    toColumnEntry_eq_pure_iff.mp h
  have hall := hkids.kids_eq hn rfl hns
  rw [seen_column] at hall
  -- the list of modifiers, if there is one, is the only node of its category that is looked at
  rcases accept_eq .null rest with ⟨mark, more, rfl, hmark, heq⟩ | ⟨hnone, heq⟩ <;>
    rw [heq] at hall hmodifiers hms ⊢
  · cases more with
    | nil =>
      rw [← pure_inj.mp hms]
      simp [modifiersOf, nameOf, texts, hall, hname, htype, hmark]
    | cons list more =>
      have hlist := hmodifiers list rfl
      have hread := toModifiers_eq_pure (hkids.of_mem hshape (by simp [hall])) hlist hms
      simpa [modifiersOf, nameOf, texts, hall, hname, htype, hmark, hlist] using hread
  · cases rest with
    | nil =>
      rw [← pure_inj.mp hms]
      simp [modifiersOf, nameOf, texts, hall, hname, htype]
    | cons list rest =>
      have hlist := hmodifiers list rfl
      have hread := toModifiers_eq_pure (hkids.of_mem hshape (by simp [hall])) hlist hms
      simpa [modifiersOf, nameOf, texts, hall, hname, htype, hlist] using hread

theorem share_eq_shareOf (hkids : Agrees kids n) (hn : n.category = .column)
    (h : n.toColumnEntry source = pure e) : e.share = shareOf kids n := by
  obtain ⟨hms, rfl⟩ := toColumnEntry_eq_pure hkids hn h
  rw [ColumnEntry.share, ColumnEntry.toColumn, default_map_modifierOf _ _ _ hms,
    primaryKeys_map_modifierOf _ _ _ hms, foreignKeys_map_modifierOf _ _ _ hms,
    uniqueKeys_map_modifierOf _ _ _ hms]
  rfl

end

/-! ## Tables -/

section

variable {source : List Char} {n : Node} {t : TableDecl} {lists after : TableLists}

theorem addMember_of_comment (h : n.category = .comment) :
    addMember source lists n = pure lists := by
  rw [addMember, h]

theorem addMember_of_column {e : ColumnEntry} (h : n.category = .column)
    (he : n.toColumnEntry source = pure e) :
    addMember source lists n = pure (lists.add e.share) := by
  rw [addMember, h, ← TableLists.addColumn_eq_add]
  simp only [he, pure_bind]

/-- One member adds its share if it is a column, and nothing if it is a comment. -/
theorem addMember_eq_pure (hkids : Agrees kids n) (h : addMember source lists n = pure after) :
    after = TableLists.add lists (shareOf kids n) ∧ n.category = .column ∨
      after = lists ∧ n.category = .comment := by
  have hcategory := (succeeds_addMember_iff.mp ⟨after, h⟩).1
  simp only [List.mem_cons, List.not_mem_nil, or_false] at hcategory
  rcases hcategory with hn | hn
  · obtain ⟨e, he⟩ : Succeeds (n.toColumnEntry source) := by
      rw [addMember, hn] at h
      obtain ⟨e, he, -⟩ := (disciplined_toColumnEntry n).bind_eq_pure_iff.mp h
      exact ⟨e, he⟩
    rw [addMember_of_column hn he, share_eq_shareOf hkids hn he] at h
    exact .inl ⟨(pure_inj.mp h).symm, hn⟩
  · rw [addMember_of_comment hn] at h
    exact .inr ⟨(pure_inj.mp h).symm, hn⟩

/-- If the lists hold what the columns so far give, they hold it after more members too. -/
theorem foldlM_addMember_eq_pure (shares : List Share) {members : List Node}
    (hkids : ∀ m ∈ members, Agrees kids m)
    (h : members.foldlM (addMember source) (.ofShares shares) = pure after) :
    after = .ofShares (shares ++ (ofCategory .column members).map (shareOf kids)) := by
  induction members generalizing shares with
  | nil =>
    rw [← pure_inj.mp h]
    simp
  | cons m members ih =>
    obtain ⟨hm, hmembers⟩ := List.forall_mem_cons.mp hkids
    rw [List.foldlM_cons, (disciplined_addMember _ m).bind_eq_pure_iff] at h
    obtain ⟨next, hnext, h⟩ := h
    rcases addMember_eq_pure hm hnext with ⟨rfl, hcolumn⟩ | ⟨rfl, hcomment⟩
    · rw [TableLists.add_ofShares] at h
      simpa [hcolumn] using ih _ hmembers h
    · simpa [hcomment] using ih shares hmembers h

theorem toTable_eq_pure_iff :
    n.toTable source = pure t ↔ ∃ name rest lists, n.children = .ok (name :: rest) ∧
      name.category = .ident ∧
      (accept .exists_ rest).2.foldlM (addMember source) {} = pure lists ∧
      t = lists.toTable name.leafText (accept .exists_ rest).1 := by
  simp only [toTable, (disciplined_children _).bind_eq_pure_iff,
    disciplined_expectIdent.bind_eq_pure_iff,
    (disciplined_foldlM disciplined_addMember _ _).bind_eq_pure_iff, children_eq_pure_iff,
    Prod.exists, expectIdent_eq_pure_iff, pure_inj]
  constructor
  · rintro ⟨_, hns, _, rest, ⟨name, rfl, hname, rfl⟩, lists, hlists, rfl⟩
    exact ⟨name, rest, lists, hns, hname, hlists, rfl⟩
  · rintro ⟨name, rest, lists, hns, hname, hlists, rfl⟩
    exact ⟨_, hns, _, rest, ⟨name, rfl, hname, rfl⟩, lists, hlists, rfl⟩

theorem toTable_eq_tableOf (hkids : Agrees kids n) (hn : n.category = .declTable)
    (h : n.toTable source = pure t) : t = tableOf kids n := by
  obtain ⟨name, rest, lists, hns, hname, hlists, rfl⟩ := toTable_eq_pure_iff.mp h
  have hall : kids n = name :: rest := hkids.kids_eq hn rfl hns
  have hmembers : ∀ m ∈ (accept .exists_ rest).2, m.category ∈ [.column, .comment] := fun m hm =>
    ((succeeds_foldlM_iff disciplined_addMember fun _ _ => succeeds_addMember_iff).mp
      ⟨lists, hlists⟩ m hm).1
  have hmark : (accept .exists_ rest).1 = !(ofCategory .exists_ (kids n)).isEmpty := by
    have hnone : ofCategory .exists_ (accept .exists_ rest).2 = [] :=
      ofCategory_eq_nil fun m hm heq => by simpa [heq] using hmembers m hm
    rcases accept_eq .exists_ rest with ⟨mark, more, rfl, hmark, heq⟩ | ⟨-, heq⟩ <;>
      rw [heq] at hnone ⊢ <;> simp_all
  have hcolumns : ofCategory .column (accept .exists_ rest).2 = ofCategory .column (kids n) := by
    rcases accept_eq .exists_ rest with ⟨mark, more, rfl, hmark, heq⟩ | ⟨-, heq⟩ <;>
      simp_all
  have hbelow : ∀ m ∈ (accept .exists_ rest).2, Agrees kids m := by
    intro m hm
    refine hkids.of_mem (hn ▸ rfl) (hall ▸ List.mem_cons_of_mem _ ?_)
    rcases accept_eq .exists_ rest with ⟨mark, more, rfl, -, heq⟩ | ⟨-, heq⟩ <;>
      rw [heq] at hm
    · exact List.mem_cons_of_mem _ hm
    · exact hm
  have hfirst : nameOf kids n = name.leafText := by simp [nameOf, texts, hall, hname]
  have hgathered := foldlM_addMember_eq_pure [] hbelow hlists
  rw [hgathered, List.nil_append, hcolumns, hmark, ← hfirst, tableOf_eq_toTable]

end

end Node

end DalSchema
