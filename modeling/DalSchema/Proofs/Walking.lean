import DalSchema.Proofs.Reporting
import DalSchema.Proofs.Shapes

/-!
# Walking a tree

Each function of the walk succeeds just if the nodes it comes to fit, in so far as it looks at them.
The walk of a whole tree is put together from these: `build_eq_ok_iff`. Where a node has children
that are not looked at, they are lost without a fault; `build_twoLists` is a primary key that is.
-/

namespace DalSchema

open Shape
open scoped Computability

namespace Node

variable {source : List Char} {parent : Node}

theorem children_eq_pure_iff {n : Node} {ns : List Node} :
    (liftM n.children : Recorder ShapeFault (List Node)) = pure ns ↔ n.children = .ok ns := by
  cases n with
  | token => exact iff_of_false (raised_ne_pure .childless ns) (by simp [Node.children])
  | tree _ _ children =>
    have hlift : (liftM (Except.ok children : Except ShapeFault (List Node)) :
        Recorder ShapeFault (List Node)) = pure children := rfl
    rw [Node.children, hlift, pure_inj, Except.ok.injEq]

theorem expect_eq_pure_iff {category : Category} {wanted : String} {ns : List Node}
    {n : Node} {rest : List Node} : expect source parent category wanted ns = pure (n, rest) ↔
      ns = n :: rest ∧ n.category = category := by
  cases ns with
  | nil => exact iff_of_false (raised_ne_pure (.missing parent.stop) _) (by simp)
  | cons m others =>
    rw [expect]
    split
    · rw [pure_inj]
      grind
    · rw [unexpected_throw]
      refine iff_of_false (raised_ne_pure _ _) ?_
      grind

theorem expectIdent_eq_pure_iff {ns : List Node} {name : String} {rest : List Node} :
    expectIdent source parent ns = pure (name, rest) ↔
      ∃ n, ns = n :: rest ∧ n.category = .ident ∧ name = n.leafText := by
  simp only [expectIdent, (disciplined_expect _ _).bind_eq_pure_iff, Prod.exists,
    expect_eq_pure_iff, pure_inj]
  constructor
  · rintro ⟨n, _, ⟨rfl, hn⟩, heq⟩
    cases heq
    exact ⟨n, rfl, hn, rfl⟩
  · rintro ⟨n, rfl, hn, rfl⟩
    exact ⟨n, rest, ⟨rfl, hn⟩, rfl⟩

theorem succeeds_toAction_iff {n : Node} (h : n.category = .action) :
    Succeeds n.toAction ↔ n.Sound := by
  rw [sound_action_iff h, toAction]
  cases Action.ofPhrase? n.leafText with
  | none => exact iff_of_false (not_succeeds_raised (.invalidAction n.leafText n.span)) (by simp)
  | some action => simp

theorem succeeds_clause_iff {clause : Node} {category : Category} {wanted : String} {p : Prop}
    {next : Action → Recorder ShapeFault (Action × Action)} (h : clause.category = category)
    (hshape : category.shape? = some (single .action))
    (hseen : ∀ ns, category.seen ns = ns.take 1)
    (hnext : ∀ action, Succeeds (next action) ↔ p) :
    Succeeds (do
      let (phrase, _) ← expect source clause .action wanted (← clause.children)
      next (← phrase.toAction)) ↔ clause.Sound ∧ p := by
  simp only [(disciplined_children _).succeeds_bind_iff, (disciplined_expect _ _).succeeds_bind_iff,
    (disciplined_toAction _).succeeds_bind_iff, children_eq_pure_iff, Prod.exists,
    expect_eq_pure_iff, hnext]
  rw [sound_iff_of_single h hshape hseen]
  constructor
  · rintro ⟨_, hns, phrase, rest, ⟨rfl, hphrase⟩, action, haction, hp⟩
    have hsound := (succeeds_toAction_iff hphrase).mp ⟨action, haction⟩
    exact ⟨⟨phrase, rest, hns, hphrase, hsound⟩, hp⟩
  · rintro ⟨⟨phrase, rest, hns, hphrase, hsound⟩, hp⟩
    obtain ⟨action, haction⟩ := (succeeds_toAction_iff hphrase).mpr hsound
    exact ⟨_, hns, phrase, rest, ⟨rfl, hphrase⟩, action, haction, hp⟩

theorem succeeds_unexpected_iff {α : Type} {n : Node} {categories : List Category}
    {wanted : String} (h : n.category ∉ categories) :
    Succeeds (do throw (← n.unexpected source wanted) : Recorder ShapeFault α) ↔
      n.category ∈ categories ∧ n.Sound := by
  rw [unexpected_throw]
  exact iff_of_false (not_succeeds_raised _) fun hn => h hn.1

theorem succeeds_toActions_iff {onDelete onUpdate : Action} {clauses : List Node} :
    Succeeds (toActions source onDelete onUpdate clauses) ↔ ∀ clause ∈ clauses,
      clause.category ∈ [.refActionDelete, .refActionUpdate] ∧ clause.Sound := by
  induction clauses generalizing onDelete onUpdate with
  | nil => simp [toActions]
  | cons clause rest ih =>
    rw [toActions, List.forall_mem_cons]
    split
    case _ h =>
      rw [succeeds_clause_iff h rfl (fun _ => rfl) fun _ => ih]
      simp [h]
    case _ h =>
      rw [succeeds_clause_iff h rfl (fun _ => rfl) fun _ => ih]
      simp [h]
    case _ hdelete hupdate =>
      have hnone : clause.category ∉ [.refActionDelete, .refActionUpdate] := by
        simpa using ⟨hdelete, hupdate⟩
      rw [succeeds_unexpected_iff hnone]
      simp only [hnone, false_and]

theorem succeeds_last_iff {α : Type} {category : Category} {wanted : String} {x : α}
    {f : Node → Recorder ShapeFault α} {rest : List Node}
    (hf : ∀ m : Node, m.category = category → (Succeeds (f m) ↔ m.Sound)) :
    Succeeds (match rest with
      | [] => pure x
      | m :: _ => if m.category = category then f m else do throw (← m.unexpected source wanted)) ↔
      ∀ m ∈ rest.head?, m.category = category ∧ m.Sound := by
  cases rest with
  | nil => simp
  | cons m rest =>
    by_cases h : m.category = category
    · simp [h, hf m h]
    · simp [h, unexpected_throw]

theorem succeeds_clauses_iff {α : Type} {clauses : Node} {next : Action × Action → α}
    (h : clauses.category = .refAction) :
    Succeeds (do
      let actions ← toActions source .noAction .noAction (← clauses.children)
      return next actions) ↔ clauses.Sound := by
  rw [sound_iff_of_kstar h rfl fun _ => rfl]
  simp only [(disciplined_children _).succeeds_bind_iff, children_eq_pure_iff,
    (disciplined_toActions _ _ _).succeeds_map_iff, succeeds_toActions_iff]

theorem succeeds_toReference_iff {n : Node} (h : n.category = .modifierRef) :
    Succeeds (n.toReference source) ↔ n.Sound := by
  rw [sound_ref_iff h]
  simp only [toReference, (disciplined_children _).succeeds_bind_iff,
    disciplined_expectIdent.succeeds_bind_iff, children_eq_pure_iff, Prod.exists,
    expectIdent_eq_pure_iff]
  constructor
  · rintro ⟨_, hns, _, _, ⟨table, rfl, htable, -⟩, _, rest, ⟨column, rfl, hcolumn, -⟩, hok⟩
    exact ⟨table, column, rest, hns, htable, hcolumn,
      (succeeds_last_iff fun m => succeeds_clauses_iff).mp hok⟩
  · rintro ⟨table, column, rest, hns, htable, hcolumn, hrest⟩
    exact ⟨_, hns, _, _, ⟨table, rfl, htable, rfl⟩, _, rest, ⟨column, rfl, hcolumn, rfl⟩,
      (succeeds_last_iff fun m => succeeds_clauses_iff).mpr hrest⟩

theorem succeeds_toModifier_iff {n : Node} :
    Succeeds (n.toModifier source) ↔
      n.category ∈ [.modifierDefault, .modifierPrimary, .modifierUnique, .modifierRef] ∧
        n.Sound := by
  rw [toModifier]
  split
  case _ h =>
    rw [sound_iff_of_single h rfl fun _ => rfl]
    simp only [(disciplined_children _).succeeds_bind_iff,
      (disciplined_expect _ _).succeeds_bind_iff, children_eq_pure_iff, Prod.exists,
      expect_eq_pure_iff, succeeds_pure, and_true]
    constructor
    · rintro ⟨_, hns, value, rest, rfl, hvalue⟩
      exact ⟨by simp [h], value, rest, hns, hvalue, sound_of_leaf hvalue (by decide)⟩
    · rintro ⟨-, value, rest, hns, hvalue, -⟩
      exact ⟨_, hns, value, rest, rfl, hvalue⟩
  case _ h => simp [h, sound_of_leaf h (by decide)]
  case _ h => simp [h, succeeds_toReference_iff h]
  case _ h => simp [h, sound_of_leaf h (by decide)]
  case _ hdefault hprimary href hunique =>
    refine succeeds_unexpected_iff ?_
    simpa using ⟨hdefault, hprimary, hunique, href⟩

theorem succeeds_toModifiers_iff {n : Node} (h : n.category = .modifiers) :
    Succeeds (n.toModifiers source) ↔ n.Sound := by
  rw [sound_iff_of_kstar h rfl fun _ => rfl]
  simp only [toModifiers, (disciplined_children _).succeeds_bind_iff, children_eq_pure_iff,
    succeeds_mapM_iff disciplined_toModifier, succeeds_toModifier_iff]

theorem succeeds_toColumnEntry_iff {n : Node} (h : n.category = .column) :
    Succeeds (n.toColumnEntry source) ↔ n.Sound := by
  rw [sound_column_iff h]
  simp only [toColumnEntry, (disciplined_children _).succeeds_bind_iff,
    disciplined_expectIdent.succeeds_bind_iff, (disciplined_expect _ _).succeeds_bind_iff,
    children_eq_pure_iff, Prod.exists, expectIdent_eq_pure_iff, expect_eq_pure_iff]
  have hmodifiers : ∀ m : Node, m.category = .modifiers → ∀ name type nullable,
      Succeeds (do return ColumnEntry.mk name type nullable (← m.toModifiers source)) ↔
        m.Sound := by
    intro m hm name type nullable
    rw [(disciplined_toModifiers m).succeeds_map_iff, succeeds_toModifiers_iff hm]
  constructor
  · rintro ⟨_, hns, _, _, ⟨name, rfl, hname, -⟩, type, rest, ⟨rfl, htype⟩, hok⟩
    exact ⟨name, type, rest, hns, hname, htype,
      (succeeds_last_iff fun m hm => hmodifiers m hm _ _ _).mp hok⟩
  · rintro ⟨name, type, rest, hns, hname, htype, hrest⟩
    exact ⟨_, hns, _, _, ⟨name, rfl, hname, rfl⟩, type, rest, ⟨rfl, htype⟩,
      (succeeds_last_iff fun m hm => hmodifiers m hm _ _ _).mpr hrest⟩

theorem succeeds_addMember_iff {lists : TableLists} {m : Node} :
    Succeeds (addMember source lists m) ↔ m.category ∈ [.column, .comment] ∧ m.Sound := by
  rw [addMember]
  split
  case _ h => simp [h, sound_of_leaf h (by decide)]
  case _ h =>
    rw [(disciplined_toColumnEntry m).succeeds_map_iff, succeeds_toColumnEntry_iff h]
    simp [h]
  case _ hcomment hcolumn =>
    refine succeeds_unexpected_iff ?_
    simpa using ⟨hcolumn, hcomment⟩

theorem succeeds_addVariant_iff {variants : List String} {m : Node} :
    Succeeds (addVariant source variants m) ↔ m.category ∈ [.variant, .comment] ∧ m.Sound := by
  rw [addVariant]
  split
  case _ h => simp [h, sound_of_leaf h (by decide)]
  case _ h => simp [h, sound_of_leaf h (by decide)]
  case _ hcomment hvariant =>
    refine succeeds_unexpected_iff ?_
    simpa using ⟨hvariant, hcomment⟩

theorem succeeds_declaration_iff {α β : Type} {n : Node} {category : Category}
    {categories : List Category} {add : α → Node → Recorder ShapeFault α} {start : α}
    {make : String → Bool → α → β} (h : n.category = category)
    (hshape : category.shape? = some (single .ident * (perhaps .exists_ * (oneOf categories)∗)))
    (hseen : ∀ ns, category.seen ns = ns) (hmark : .exists_ ∉ categories)
    (hadd : ∀ a m, Disciplined (add a m))
    (hmember : ∀ a m, Succeeds (add a m) ↔ m.category ∈ categories ∧ m.Sound) :
    Succeeds (do
      let (name, rest) ← expectIdent source n (← n.children)
      let (ifNotExists, members) := accept .exists_ rest
      let all ← members.foldlM add start
      return make name ifNotExists all) ↔ n.Sound := by
  rw [sound_iff_of_declaration h hshape hseen hmark]
  simp only [(disciplined_children _).succeeds_bind_iff, disciplined_expectIdent.succeeds_bind_iff,
    (disciplined_foldlM hadd _ _).succeeds_map_iff, succeeds_foldlM_iff hadd hmember,
    children_eq_pure_iff, Prod.exists, expectIdent_eq_pure_iff]
  constructor
  · rintro ⟨_, hns, _, rest, ⟨name, rfl, hname, -⟩, hrest⟩
    exact ⟨name, rest, hns, hname, hrest⟩
  · rintro ⟨name, rest, hns, hname, hrest⟩
    exact ⟨_, hns, _, rest, ⟨name, rfl, hname, rfl⟩, hrest⟩

theorem succeeds_toTable_iff {n : Node} (h : n.category = .declTable) :
    Succeeds (n.toTable source) ↔ n.Sound :=
  succeeds_declaration_iff h rfl (fun _ => rfl) (by decide) disciplined_addMember
    fun _ _ => succeeds_addMember_iff

theorem succeeds_toEnum_iff {n : Node} (h : n.category = .declEnum) :
    Succeeds (n.toEnum source) ↔ n.Sound :=
  succeeds_declaration_iff h rfl (fun _ => rfl) (by decide) disciplined_addVariant
    fun _ _ => succeeds_addVariant_iff

theorem succeeds_toItem?_iff {n : Node} :
    Succeeds (n.toItem? source) ↔ n.category ∈ [.declEnum, .declTable, .comment] ∧ n.Sound := by
  rw [toItem?]
  split
  case _ h =>
    rw [(disciplined_toEnum n).succeeds_map_iff, succeeds_toEnum_iff h]
    simp [h]
  case _ h =>
    rw [(disciplined_toTable n).succeeds_map_iff, succeeds_toTable_iff h]
    simp [h]
  case _ h => simp [h, sound_of_leaf h (by decide)]
  case _ henum htable hcomment =>
    refine succeeds_unexpected_iff ?_
    simpa using ⟨henum, htable, hcomment⟩

end Node

open Node

theorem Walk.fault_ofNodes_iff {source : List Char} {ns : List Node} (l : Ledger) :
    ((Walk.ofNodes source ns).run l).1.fault = none ↔ ∀ n ∈ ns, Succeeds (n.toItem? source) := by
  induction ns with
  | nil => exact iff_of_true rfl (by simp)
  | cons n rest ih =>
    rw [List.forall_mem_cons, ← ih]
    rcases n.disciplined_toItem? source with ⟨_ | item, hitem⟩ | ⟨f, hfault⟩
    · rw [ofNodes_cons_of_none hitem]
      exact (and_iff_right ⟨none, hitem⟩).symm
    · rw [ofNodes_cons_of_some hitem]
      exact (and_iff_right ⟨some item, hitem⟩).symm
    · rw [ofNodes_cons_of_raised hfault, hfault]
      simp

theorem Walk.fault_ofTree_iff {source : List Char} {root : Node} (l : Ledger) :
    ((Walk.ofTree source root).run l).1.fault = none ↔ root.category = .schema ∧ root.Sound := by
  rw [Walk.ofTree]
  split
  case isTrue h =>
    rw [sound_iff_of_kstar h rfl fun _ => rfl]
    cases root with
    | token => exact iff_of_false (by rintro ⟨⟩) (by simp [Node.children])
    | tree =>
      simp only [Node.children, Walk.fault_ofNodes_iff, succeeds_toItem?_iff, h, true_and]
      simp
  case isFalse h => exact iff_of_false (by rintro ⟨⟩) fun hroot => h hroot.1

theorem Walk.result_eq_ok_iff {w : Walk} : (∃ schema, w.result = .ok schema) ↔ w.fault = none := by
  rw [Walk.result]
  cases w.fault <;> simp

/-- A schema is built just if the root is one and every node the walk comes to fits in what is
looked at of it; all of its children fit just if none is left over. -/
theorem build_eq_ok_iff (ledger : Ledger) (source : List Char) (tree : Node) :
    ((∃ schema, (ledger.build source tree).1 = .ok schema) ↔ tree.category = .schema ∧
      ∀ n, tree.Visits n → n.FitsSeen ∧ n.PhraseKnown) ∧
    ∀ n : Node, n.Fits ↔ n.FitsSeen ∧ ¬n.HasSurplus := by
  refine ⟨?_, fun n => Node.fits_iff⟩
  rw [Ledger.build_fst, Walk.result_eq_ok_iff, Walk.fault_ofTree_iff]
  rfl

/-- A column `id int` with two lists of modifiers, where the grammar has one. -/
def twoLists : Node :=
  .tree .column none
    [.tree .ident none [.token (.other "IDENT") "id" none none],
      .tree .columnType none [.token (.other "COLUMN_TYPE") "int" none none],
      .tree .modifiers none [.tree .modifierUnique none []],
      .tree .modifiers none [.tree .modifierPrimary none []]]

/-- The schema is built without the primary key of the second list. -/
theorem build_twoLists :
    let tree : Node := .tree .schema none
      [.tree .declTable none [.tree .ident none [.token (.other "IDENT") "t" none none], twoLists]]
    (({} : Ledger).build [] tree).1 = .ok ⟨[.table
      { name := "t", ifNotExists := false, columns := [⟨"id", .ofText "int", false, .none⟩],
        primaryKeys := [], foreignKeys := [], uniqueKeys := ["id"] }]⟩ ∧
      tree.Visits twoLists ∧ ¬twoLists.Fits := by
  intro tree
  refine ⟨by decide +kernel, ?_, ?_⟩
  · refine .head (b := .tree .declTable none _) ⟨_, rfl, List.mem_cons_self⟩ (.single ⟨_, rfl, ?_⟩)
    exact List.mem_cons_of_mem _ List.mem_cons_self
  · intro h
    refine (Node.fits_iff.mp h).2 ⟨rfl, _, rfl, ?_⟩
    intro hseen
    cases congrArg List.length hseen

end DalSchema
