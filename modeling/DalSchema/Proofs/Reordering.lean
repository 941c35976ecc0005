import DalSchema.Proofs.Folding

/-!
# Order of modifiers

A list of modifiers may be replaced by another one that gives the same share to the table, and so
may a column. Lists with the same modifiers are of this kind if their defaults come in the same
order, and their references too: `Node.toTable_folds`.
-/

namespace DalSchema.Node

variable {kids : Node → List Node}

/-- The same modifiers in another order, defaults and references each in the same order. -/
structure Reordered (ms ms' : List Node) : Prop where
  perm : ms.Perm ms'
  defaults : ofCategory .modifierDefault ms = ofCategory .modifierDefault ms'
  references : ofCategory .modifierRef ms = ofCategory .modifierRef ms'

section

variable {source : List Char} {ms ms' : List Node}

theorem Reordered.length_eq (h : Reordered ms ms') (category : Category) :
    (ofCategory category ms).length = (ofCategory category ms').length :=
  (h.perm.filter _).length_eq

theorem Reordered.isModifier (h : Reordered ms ms') (hms : ∀ m ∈ ms, m.IsModifier) :
    ∀ m ∈ ms', m.IsModifier :=
  fun m hm => hms m (h.perm.mem_iff.mpr hm)

theorem Reordered.share_eq (h : Reordered ms ms') (hms : ∀ m ∈ ms, m.IsModifier)
    (name : String) (type : ColumnType) (nullable : Bool) :
    (ColumnEntry.mk name type nullable (ms'.map (modifierOf kids))).share =
      (ColumnEntry.mk name type nullable (ms.map (modifierOf kids))).share := by
  have hms' := h.isModifier hms
  simp only [ColumnEntry.share, ColumnEntry.toColumn, default_map_modifierOf _ _ _ hms,
    default_map_modifierOf _ _ _ hms', primaryKeys_map_modifierOf _ _ _ hms,
    primaryKeys_map_modifierOf _ _ _ hms', foreignKeys_map_modifierOf _ _ _ hms,
    foreignKeys_map_modifierOf _ _ _ hms', uniqueKeys_map_modifierOf _ _ _ hms,
    uniqueKeys_map_modifierOf _ _ _ hms', lastDefault, h.length_eq, h.defaults, h.references]

theorem toModifiers_reordered (h : Reordered ms ms') {span : Option Span} {xs : List Modifier}
    (hxs : (tree .modifiers span ms).toModifiers source = pure xs) :
    ∃ xs', (tree .modifiers span ms').toModifiers source = pure xs' ∧
      ∀ name type nullable, (ColumnEntry.mk name type nullable xs').share =
        (ColumnEntry.mk name type nullable xs).share := by
  obtain ⟨hms, rfl⟩ := toModifiers_eq_pure (agrees_looked _) rfl hxs
  have hok : ∀ m ∈ ms', Succeeds (m.toModifier source) := by
    intro m hm
    exact (succeeds_mapM_iff disciplined_toModifier).mp ⟨_, hxs⟩ m (h.perm.mem_iff.mpr hm)
  obtain ⟨xs', hxs'⟩ : Succeeds ((tree .modifiers span ms').toModifiers source) :=
    (succeeds_mapM_iff disciplined_toModifier).mpr hok
  obtain ⟨-, rfl⟩ := toModifiers_eq_pure (n := tree .modifiers span ms') (agrees_looked _) rfl hxs'
  exact ⟨_, hxs', h.share_eq hms⟩

/-- A node that is not accepted may be replaced by one of its category. -/
theorem accept_replace {category other : Category} (hother : other ≠ category) {m m' : Node}
    (hm : m.category = other) (hm' : m'.category = other) (before after : List Node) :
    ∃ found kept, accept category (before ++ m :: after) = (found, kept ++ m :: after) ∧
      accept category (before ++ m' :: after) = (found, kept ++ m' :: after) := by
  cases before with
  | nil => exact ⟨false, [], if_neg (hm ▸ hother), if_neg (hm' ▸ hother)⟩
  | cons first before =>
    by_cases h : first.category = category
    · exact ⟨true, before, if_pos h, if_pos h⟩
    · exact ⟨false, first :: before, if_neg h, if_neg h⟩

theorem toColumnEntry_replace {l l' : Node} (hl : l.category = .modifiers)
    (hl' : l'.category = .modifiers)
    (h : ∀ xs, l.toModifiers source = pure xs → ∃ xs', l'.toModifiers source = pure xs' ∧
      ∀ name type nullable, (ColumnEntry.mk name type nullable xs').share =
        (ColumnEntry.mk name type nullable xs).share)
    {span : Option Span} {front back : List Node} {e : ColumnEntry}
    (he : (tree .column span (front ++ l :: back)).toColumnEntry source = pure e) :
    ∃ e', (tree .column span (front ++ l' :: back)).toColumnEntry source = pure e' ∧
      e'.share = e.share := by
  obtain ⟨name, type, rest, hns, hname, htype, hmodifiers, xs, hxs, rfl⟩ :=
    toColumnEntry_eq_pure_iff.mp he
  have hns : front ++ l :: back = name :: type :: rest := Except.ok.inj hns
  -- a list of modifiers is neither the name nor the type
  rcases front with _ | ⟨first, _ | ⟨second, front⟩⟩ <;>
    simp only [List.nil_append, List.cons_append, List.cons.injEq] at hns
  · simp [← hns.1, hl] at hname
  · simp [← hns.2.1, hl] at htype
  obtain ⟨rfl, rfl, rfl⟩ := hns
  obtain ⟨found, kept, heq, heq'⟩ :=
    accept_replace (by decide : Category.modifiers ≠ .null) hl hl' front back
  have hbuild : ∀ xs', (∀ m ∈ (kept ++ l' :: back).head?, m.category = .modifiers) →
      (kept ++ l' :: back).head?.elim (pure []) (toModifiers source) = pure xs' →
      (tree .column span (first :: second :: front ++ l' :: back)).toColumnEntry source =
        pure ⟨first.leafText, .ofText second.leafText, found, xs'⟩ := by
    intro xs' hhead hxs'
    refine toColumnEntry_eq_pure_iff.mpr
      ⟨first, second, front ++ l' :: back, rfl, hname, htype, ?_⟩
    rw [heq']
    exact ⟨hhead, xs', hxs', rfl⟩
  rw [heq] at hmodifiers hxs ⊢
  cases kept with
  | nil =>
    obtain ⟨xs', hxs', hshare⟩ := h xs hxs
    exact ⟨_, hbuild xs' (by simp [hl']) hxs', hshare _ _ _⟩
  | cons list kept =>
    -- the list that is read is another one
    exact ⟨_, hbuild xs hmodifiers hxs, rfl⟩

theorem addMember_replace {c c' : Node} (hc : c.category = .column) (hc' : c'.category = .column)
    (h : ∀ e, c.toColumnEntry source = pure e →
      ∃ e', c'.toColumnEntry source = pure e' ∧ e'.share = e.share)
    {lists next : TableLists} (hnext : addMember source lists c = pure next) :
    addMember source lists c' = pure next := by
  obtain ⟨e, he, -⟩ : ∃ e, c.toColumnEntry source = pure e ∧ _ := by
    rw [addMember, hc] at hnext
    exact (disciplined_toColumnEntry c).bind_eq_pure_iff.mp hnext
  obtain ⟨e', he', hshare⟩ := h e he
  rw [addMember_of_column hc' he', hshare, ← addMember_of_column hc he, hnext]

theorem foldlM_addMember_replace {c c' : Node}
    (h : ∀ lists next, addMember source lists c = pure next →
      addMember source lists c' = pure next)
    {before rest : List Node} {lists after : TableLists}
    (hafter : (before ++ c :: rest).foldlM (addMember source) lists = pure after) :
    (before ++ c' :: rest).foldlM (addMember source) lists = pure after := by
  simp only [List.foldlM_append, List.foldlM_cons,
    (disciplined_foldlM disciplined_addMember _ _).bind_eq_pure_iff,
    (disciplined_addMember _ _).bind_eq_pure_iff] at hafter ⊢
  obtain ⟨middle, hmiddle, next, hnext, hafter⟩ := hafter
  exact ⟨middle, hmiddle, next, h middle next hnext, hafter⟩

theorem toTable_replace {c c' : Node} (hc : c.category = .column) (hc' : c'.category = .column)
    (h : ∀ e, c.toColumnEntry source = pure e →
      ∃ e', c'.toColumnEntry source = pure e' ∧ e'.share = e.share)
    {span : Option Span} {before after : List Node} {t : TableDecl}
    (ht : (tree .declTable span (before ++ c :: after)).toTable source = pure t) :
    (tree .declTable span (before ++ c' :: after)).toTable source = pure t := by
  obtain ⟨name, rest, lists, hns, hname, hlists, rfl⟩ := toTable_eq_pure_iff.mp ht
  have hns : before ++ c :: after = name :: rest := Except.ok.inj hns
  rcases before with _ | ⟨first, before⟩ <;>
    simp only [List.nil_append, List.cons_append, List.cons.injEq] at hns
  · simp [← hns.1, hc] at hname
  obtain ⟨rfl, rfl⟩ := hns
  obtain ⟨found, kept, heq, heq'⟩ :=
    accept_replace (by decide : Category.column ≠ .exists_) hc hc' before after
  rw [heq] at hlists ⊢
  refine toTable_eq_pure_iff.mpr
    ⟨first, before ++ c' :: after, lists, rfl, hname, ?_, ?_⟩ <;> rw [heq']
  exact foldlM_addMember_replace (fun _ _ => addMember_replace hc hc' h) hlists

end

/-- A node with one token. -/
def leaf (category : Category) (text : String) : Node :=
  tree category none [token (.other "TEXT") text none none]

/-- A table with one column `id int`. -/
def oneColumn (ms : List Node) : Node :=
  tree .declTable none [leaf .ident "t",
    tree .column none [leaf .ident "id", leaf .columnType "int", tree .modifiers none ms]]

def defaulting (text : String) : Node :=
  tree .modifierDefault none [leaf .modifierDefaultValue text]

def marking : Node := tree .modifierPrimary none []

/-- A reference with two actions on delete. -/
def referring : Node :=
  tree .modifierRef none [leaf .ident "b", leaf .ident "key", tree .refAction none
    [tree .refActionDelete none [leaf .action "cascade"],
      tree .refActionDelete none [leaf .action "restrict"]]]

theorem tidy_leaf {category : Category} (h : category.shape? = none) (text : String) :
    (leaf category text).Tidy :=
  tidy_of_shape_eq_none h

theorem tidy_defaulting (text : String) : (defaulting text).Tidy := by
  refine tidy_tree rfl ?_
  simpa using tidy_leaf rfl text

theorem tidy_referring : referring.Tidy := by
  have hclause : ∀ phrase, (tree .refActionDelete none [leaf .action phrase]).Tidy := by
    intro phrase
    refine tidy_tree rfl ?_
    simpa using tidy_leaf rfl phrase
  refine tidy_tree rfl (List.forall_mem_cons.mpr ⟨tidy_leaf rfl _, ?_⟩)
  refine List.forall_mem_cons.mpr ⟨tidy_leaf rfl _, List.forall_mem_singleton.mpr ?_⟩
  refine tidy_tree rfl ?_
  simp only [List.forall_mem_cons, hclause, List.not_mem_nil, IsEmpty.forall_iff, implies_true,
    and_self]

theorem tidy_oneColumn {ms : List Node} (h : ∀ m ∈ ms, m.Tidy) : (oneColumn ms).Tidy := by
  refine tidy_tree rfl (List.forall_mem_cons.mpr ⟨tidy_leaf rfl _, ?_⟩)
  refine List.forall_mem_singleton.mpr (tidy_tree rfl ?_)
  refine List.forall_mem_cons.mpr ⟨tidy_leaf rfl _, ?_⟩
  refine List.forall_mem_cons.mpr ⟨tidy_leaf rfl _, ?_⟩
  exact List.forall_mem_singleton.mpr (tidy_tree rfl h)

variable {source : List Char} {n : Node} {t : TableDecl} {ledger : Ledger}

/-- A table that is built is read off the children that are looked at, so off all children if none
is left over; and it stays the same when the modifiers of a column are reordered. -/
theorem toTable_folds (hn : n.category = .declTable)
    (ht : ((n.toTable source).runOn ledger).1 = .ok t) :
    t = tableOf looked n ∧
    (n.Tidy → t = tableOf childList n) ∧
    ∀ tspan cspan mspan before front ms ms' back after,
      n = tree .declTable tspan
        (before ++ tree .column cspan (front ++ tree .modifiers mspan ms :: back) :: after) →
      Reordered ms ms' →
      ∀ l, ((tree .declTable tspan
        (before ++ tree .column cspan (front ++ tree .modifiers mspan ms' :: back) ::
          after)).toTable source).runOn l = (.ok t, l) := by
  have ht := (disciplined_toTable n).eq_pure ht
  refine ⟨toTable_eq_tableOf (agrees_looked n) hn ht,
    fun h => toTable_eq_tableOf h.agrees hn ht, ?_⟩
  rintro tspan cspan mspan before front ms ms' back after rfl h l
  rw [toTable_replace rfl rfl
    (fun _ => toColumnEntry_replace rfl rfl fun _ => toModifiers_reordered h) ht]
  rfl

theorem toTable_folds_oneColumn :
    let n := oneColumn [defaulting "1", marking, defaulting "2", referring]
    let t : TableDecl :=
      { name := "t", columns := [⟨"id", .ofText "int", false, .ofText "2"⟩], primaryKeys := ["id"],
        foreignKeys := [⟨"id", "b", "key", .restrict, .noAction⟩] }
    ((n.toTable []).runOn {}).1 = .ok t ∧ t = tableOf looked n ∧ t = tableOf childList n ∧
      ∀ l, ((oneColumn [marking, defaulting "1", referring, defaulting "2"]).toTable []).runOn l =
        (.ok t, l) := by
  intro n t
  have ht : ((n.toTable []).runOn {}).1 = .ok t := by decide +kernel
  obtain ⟨hlooked, hall, hreorder⟩ := toTable_folds rfl ht
  have htidy : n.Tidy := tidy_oneColumn (by
    simp [tidy_defaulting, tidy_referring, tidy_of_shape_eq_none (n := marking) rfl])
  refine ⟨ht, hlooked, hall htidy, ?_⟩
  refine hreorder none none none [leaf .ident "t"] [leaf .ident "id", leaf .columnType "int"]
    _ _ [] [] rfl ⟨?_, rfl, rfl⟩
  exact (List.Perm.swap _ _ _).trans ((List.Perm.swap _ _ _).cons _ |>.cons _)

/-- The primary key of a second list is lost. -/
theorem toTable_twoLists :
    let n := tree .declTable none [leaf .ident "t", twoLists]
    (n.toTable []).runOn {} = (.ok
      { name := "t", columns := [⟨"id", .ofText "int", false, .none⟩], uniqueKeys := ["id"] }, {}) ∧
    tableOf childList n =
      { name := "t", columns := [⟨"id", .ofText "int", false, .none⟩], primaryKeys := ["id"],
        uniqueKeys := ["id"] } := by
  decide +kernel

end DalSchema.Node
