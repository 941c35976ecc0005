import Mathlib.Computability.Language
import Mathlib.Logic.Relation
import DalSchema.Schema.OfTree

/-!
# Shapes of trees

Each rule of the grammar allows certain sequences of children, and a tree made by hand may have any
others. The walk that builds a schema comes to some nodes of a tree and looks at some of their
children. Five kinds of node have room for a bounded number of children, and what stands behind
these is not looked at. `Node.Sound` says that what is looked at fits everywhere.
-/

namespace DalSchema

open scoped Computability

/-- The sequences of nodes that a rule allows. -/
abbrev Shape := Language Node

namespace Shape

def oneOf (categories : List Category) : Shape := {ns | ∃ n, n.category ∈ categories ∧ ns = [n]}

def single (category : Category) : Shape := oneOf [category]

def perhaps (category : Category) : Shape := 1 + single category

theorem mem_oneOf_kstar {categories : List Category} {ns : List Node} :
    ns ∈ (oneOf categories)∗ ↔ ∀ n ∈ ns, n.category ∈ categories := by
  rw [Language.mem_kstar]
  constructor
  · rintro ⟨parts, rfl, hparts⟩ n hn
    obtain ⟨part, hpart, hn⟩ := List.mem_flatten.mp hn
    obtain ⟨m, hm, rfl⟩ := hparts part hpart
    rwa [List.mem_singleton.mp hn]
  · intro h
    refine ⟨ns.map fun n => [n], by simp [← List.flatMap_def], ?_⟩
    intro part hpart
    obtain ⟨n, hn, rfl⟩ := List.mem_map.mp hpart
    exact ⟨n, h n hn, rfl⟩

theorem mem_single {category : Category} {ns : List Node} :
    ns ∈ single category ↔ ∃ n, ns = [n] ∧ n.category = category := by
  constructor
  · rintro ⟨n, hn, rfl⟩
    exact ⟨n, rfl, List.mem_singleton.mp hn⟩
  · rintro ⟨n, rfl, hn⟩
    exact ⟨n, List.mem_singleton.mpr hn, rfl⟩

theorem mem_single_mul {category : Category} {shape : Shape} {ns : List Node} :
    ns ∈ single category * shape ↔
      ∃ n rest, ns = n :: rest ∧ n.category = category ∧ rest ∈ shape := by
  rw [Language.mem_mul]
  constructor
  · rintro ⟨a, ha, rest, hrest, rfl⟩
    obtain ⟨n, rfl, hn⟩ := mem_single.mp ha
    exact ⟨n, rest, rfl, hn, hrest⟩
  · rintro ⟨n, rest, rfl, hn, hrest⟩
    exact ⟨[n], mem_single.mpr ⟨n, rfl, hn⟩, rest, hrest, rfl⟩

theorem mem_perhaps {category : Category} {ns : List Node} :
    ns ∈ perhaps category ↔ ns = [] ∨ ∃ n, ns = [n] ∧ n.category = category := by
  rw [perhaps, Language.mem_add, mem_single, Language.mem_one]

theorem take_one_mem_perhaps {category : Category} {ns : List Node} :
    ns.take 1 ∈ perhaps category ↔ ∀ n ∈ ns.head?, n.category = category := by
  cases ns <;> simp [mem_perhaps]

theorem mem_perhaps_mul {category : Category} {shape : Shape} {ns : List Node} :
    ns ∈ perhaps category * shape ↔
      ns ∈ shape ∨ ∃ n rest, ns = n :: rest ∧ n.category = category ∧ rest ∈ shape := by
  rw [perhaps, add_mul, one_mul, Language.mem_add, mem_single_mul]

end Shape

open Shape

namespace Category

/-- The children that the grammar allows below a node; nothing for a node whose text is all that
counts. -/
def shape? : Category → Option Shape
  | schema => some (oneOf [.declEnum, .declTable, .comment])∗
  | declEnum => some (single .ident * (perhaps .exists_ * (oneOf [.variant, .comment])∗))
  | declTable => some (single .ident * (perhaps .exists_ * (oneOf [.column, .comment])∗))
  | column => some (single .ident * (single .columnType * (perhaps .null * perhaps .modifiers)))
  | modifiers =>
    some (oneOf [.modifierDefault, .modifierPrimary, .modifierUnique, .modifierRef])∗
  | modifierDefault => some (single .modifierDefaultValue)
  | modifierRef => some (single .ident * (single .ident * perhaps .refAction))
  | refAction => some (oneOf [.refActionDelete, .refActionUpdate])∗
  | refActionDelete => some (single .action)
  | refActionUpdate => some (single .action)
  | _ => none

/-- The children that are looked at when a node of the category is walked. -/
def seen (children : List Node) : Category → List Node
  | schema | declEnum | declTable | modifiers | refAction => children
  | column => children.take (if (children.map Node.category)[2]? = some null then 4 else 3)
  | modifierRef => children.take 3
  | modifierDefault | refActionDelete | refActionUpdate => children.take 1
  | _ => []

end Category

namespace Node

/-- The children of the node are what the grammar allows. -/
def Fits (n : Node) : Prop :=
  ∀ shape, n.category.shape? = some shape → ∃ ns, n.children = .ok ns ∧ ns ∈ shape

/-- The children of the node that are looked at are what the grammar allows. -/
def FitsSeen (n : Node) : Prop :=
  ∀ shape, n.category.shape? = some shape →
    ∃ ns, n.children = .ok ns ∧ n.category.seen ns ∈ shape

/-- The node has children that count and are not looked at. -/
def HasSurplus (n : Node) : Prop :=
  n.category.shape?.isSome ∧ ∃ ns, n.children = .ok ns ∧ n.category.seen ns ≠ ns

def PhraseKnown (n : Node) : Prop :=
  n.category = .action → (Action.ofPhrase? n.leafText).isSome

/-- `m` is a child that is looked at when `n` is walked. -/
def Sees (n m : Node) : Prop := ∃ ns, n.children = .ok ns ∧ m ∈ n.category.seen ns

/-- The walk of `root` comes to the node. -/
def Visits (root n : Node) : Prop := Relation.ReflTransGen Sees root n

/-- No node that the walk comes to is a reason to stop. -/
def Sound (root : Node) : Prop := ∀ n, root.Visits n → n.FitsSeen ∧ n.PhraseKnown

theorem sound_iff {n : Node} :
    n.Sound ↔ (n.FitsSeen ∧ n.PhraseKnown) ∧ ∀ m, n.Sees m → m.Sound := by
  constructor
  · intro h
    refine ⟨h n .refl, ?_⟩
    intro m hm k hk
    exact h k (.head hm hk)
  · rintro ⟨hn, hrest⟩ k hk
    rcases Relation.ReflTransGen.cases_head hk with rfl | ⟨m, hm, hmk⟩
    · exact hn
    · exact hrest m hm k hmk

section

variable {n : Node} {category : Category}

theorem sound_iff_of_shape {shape : Shape} (h : n.category = category)
    (hshape : category.shape? = some shape) :
    n.Sound ↔ ∃ ns, n.children = .ok ns ∧ category.seen ns ∈ shape ∧
      ∀ m ∈ category.seen ns, m.Sound := by
  subst h
  have hphrase : n.PhraseKnown := by
    intro haction
    rw [haction] at hshape
    cases hshape
  rw [sound_iff]
  constructor
  · rintro ⟨⟨hfits, -⟩, hrest⟩
    obtain ⟨ns, hns, hmem⟩ := hfits shape hshape
    exact ⟨ns, hns, hmem, fun m hm => hrest m ⟨ns, hns, hm⟩⟩
  · rintro ⟨ns, hns, hmem, hrest⟩
    refine ⟨⟨?_, hphrase⟩, ?_⟩
    · intro other hother
      cases hshape.symm.trans hother
      exact ⟨ns, hns, hmem⟩
    · rintro m ⟨others, hothers, hm⟩
      cases hns.symm.trans hothers
      exact hrest m hm

/-- The categories of nodes that are not walked. -/
def leaves : List Category :=
  [.comment, .ident, .exists_, .variant, .columnType, .null, .modifierDefaultValue,
    .modifierPrimary, .modifierUnique]

theorem sound_of_leaf (h : n.category = category) (hleaf : category ∈ leaves) : n.Sound := by
  have hplain : category.shape? = none ∧ category ≠ .action ∧ ∀ ns, category.seen ns = [] := by
    simp only [leaves, List.mem_cons, List.not_mem_nil, or_false] at hleaf
    rcases hleaf with rfl | rfl | rfl | rfl | rfl | rfl | rfl | rfl | rfl <;>
      exact ⟨rfl, by decide, fun _ => rfl⟩
  obtain ⟨hnone, haction, hseen⟩ := hplain
  refine sound_iff.mpr ⟨⟨?_, fun hphrase => absurd (h.symm.trans hphrase) haction⟩, ?_⟩
  · intro shape hshape
    rw [h, hnone] at hshape
    cases hshape
  · rintro m ⟨ns, -, hm⟩
    rw [h, hseen] at hm
    cases hm

theorem sound_action_iff (h : n.category = .action) :
    n.Sound ↔ (Action.ofPhrase? n.leafText).isSome := by
  rw [sound_iff]
  constructor
  · rintro ⟨⟨-, hphrase⟩, -⟩
    exact hphrase h
  · intro hphrase
    refine ⟨⟨?_, fun _ => hphrase⟩, ?_⟩
    · intro shape hshape
      rw [h] at hshape
      cases hshape
    · rintro m ⟨ns, -, hm⟩
      rw [h] at hm
      cases hm

theorem sound_iff_of_kstar {categories : List Category} (h : n.category = category)
    (hshape : category.shape? = some (oneOf categories)∗) (hseen : ∀ ns, category.seen ns = ns) :
    n.Sound ↔ ∃ ns, n.children = .ok ns ∧ ∀ m ∈ ns, m.category ∈ categories ∧ m.Sound := by
  rw [sound_iff_of_shape h hshape]
  simp only [hseen, mem_oneOf_kstar, forall_and]

theorem sound_iff_of_single {c : Category} (h : n.category = category)
    (hshape : category.shape? = some (single c)) (hseen : ∀ ns, category.seen ns = ns.take 1) :
    n.Sound ↔ ∃ m rest, n.children = .ok (m :: rest) ∧ m.category = c ∧ m.Sound := by
  rw [sound_iff_of_shape h hshape]
  constructor
  · rintro ⟨ns, hns, hfits, hsound⟩
    rw [hseen] at hfits hsound
    obtain ⟨m, hm, hcategory⟩ := mem_single.mp hfits
    cases ns with
    | nil => cases hm
    | cons only rest =>
      cases hm
      exact ⟨m, rest, hns, hcategory, hsound m List.mem_cons_self⟩
  · rintro ⟨m, rest, hns, hcategory, hsound⟩
    refine ⟨m :: rest, hns, ?_, ?_⟩ <;> rw [hseen]
    · exact mem_single.mpr ⟨m, rfl, hcategory⟩
    · simpa using hsound

theorem accept_eq (category : Category) (ns : List Node) :
    (∃ n rest, ns = n :: rest ∧ n.category = category ∧ accept category ns = (true, rest)) ∨
      (∀ n ∈ ns.head?, n.category ≠ category) ∧ accept category ns = (false, ns) := by
  cases ns with
  | nil => exact .inr ⟨by simp, rfl⟩
  | cons n rest =>
    by_cases h : n.category = category
    · exact .inl ⟨n, rest, rfl, h, if_pos h⟩
    · exact .inr ⟨by simpa using h, if_neg h⟩

theorem sound_iff_of_declaration {categories : List Category} (h : n.category = category)
    (hshape : category.shape? = some (single .ident * (perhaps .exists_ * (oneOf categories)∗)))
    (hseen : ∀ ns, category.seen ns = ns) (hmark : .exists_ ∉ categories) :
    n.Sound ↔ ∃ name rest, n.children = .ok (name :: rest) ∧ name.category = .ident ∧
      ∀ m ∈ (accept .exists_ rest).2, m.category ∈ categories ∧ m.Sound := by
  rw [sound_iff_of_shape h hshape]
  simp only [hseen, mem_single_mul, mem_perhaps_mul, mem_oneOf_kstar]
  constructor
  · rintro ⟨_, hns, ⟨name, rest, rfl, hname, hrest⟩, hsound⟩
    refine ⟨name, rest, hns, hname, ?_⟩
    have hsound : ∀ m ∈ rest, m.Sound := fun m hm => hsound m (List.mem_cons_of_mem _ hm)
    -- the mark is accepted just where the shape has it, as it cannot be one of the members
    rcases accept_eq .exists_ rest with ⟨mark, members, rfl, hc, heq⟩ | ⟨hnone, heq⟩ <;> rw [heq]
    · rcases hrest with hrest | ⟨_, _, hcons, -, hrest⟩
      · exact absurd (hc ▸ hrest mark List.mem_cons_self) hmark
      · cases hcons
        exact fun m hm => ⟨hrest m hm, hsound m (List.mem_cons_of_mem _ hm)⟩
    · rcases hrest with hrest | ⟨_, _, rfl, hc, -⟩
      · exact fun m hm => ⟨hrest m hm, hsound m hm⟩
      · exact absurd hc (hnone _ rfl)
  · rintro ⟨name, rest, hns, hname, hmembers⟩
    have hident : name.Sound := sound_of_leaf hname (by decide)
    rcases accept_eq .exists_ rest with ⟨mark, members, rfl, hc, heq⟩ | ⟨-, heq⟩ <;>
      rw [heq] at hmembers
    · have hmark : mark.Sound := sound_of_leaf hc (by decide)
      refine ⟨_, hns, ⟨name, _, rfl, hname, .inr ⟨mark, members, rfl, hc, ?_⟩⟩, ?_⟩
      · exact fun m hm => (hmembers m hm).1
      · refine List.forall_mem_cons.mpr ⟨hident, List.forall_mem_cons.mpr ⟨hmark, ?_⟩⟩
        exact fun m hm => (hmembers m hm).2
    · refine ⟨_, hns, ⟨name, rest, rfl, hname, .inl fun m hm => (hmembers m hm).1⟩, ?_⟩
      exact List.forall_mem_cons.mpr ⟨hident, fun m hm => (hmembers m hm).2⟩

theorem sound_ref_iff (h : n.category = .modifierRef) :
    n.Sound ↔ ∃ table column rest, n.children = .ok (table :: column :: rest) ∧
      table.category = .ident ∧ column.category = .ident ∧
      ∀ m ∈ rest.head?, m.category = .refAction ∧ m.Sound := by
  rw [sound_iff_of_shape h rfl]
  simp only [Category.seen, mem_single_mul]
  constructor
  · rintro ⟨ns, hns, ⟨table, _, htake, htable, column, rest, rfl, hcolumn, hrest⟩, hsound⟩
    rcases ns with _ | ⟨a, _ | ⟨b, more⟩⟩ <;> cases htake
    refine ⟨table, column, more, hns, htable, hcolumn, ?_⟩
    intro m hm
    exact ⟨take_one_mem_perhaps.mp hrest m hm, hsound m (by simp_all [List.take_one])⟩
  · rintro ⟨table, column, rest, hns, htable, hcolumn, hrest⟩
    refine ⟨_, hns, ⟨table, _, rfl, htable, column, rest.take 1, rfl, hcolumn, ?_⟩, ?_⟩
    · exact take_one_mem_perhaps.mpr fun m hm => (hrest m hm).1
    · have hidents : table.Sound ∧ column.Sound :=
        ⟨sound_of_leaf htable (by decide), sound_of_leaf hcolumn (by decide)⟩
      simpa [List.take_one, hidents] using fun m hm => (hrest m hm).2

/-- Behind the type of a column the mark, if there is one, and one more node are looked at. -/
theorem seen_column (name type : Node) (rest : List Node) :
    Category.seen (name :: type :: rest) .column =
      name :: type :: rest.take (if (accept .null rest).1 = true then 2 else 1) := by
  cases rest with
  | nil => rfl
  | cons mark rest =>
    by_cases hmark : mark.category = .null <;> simp [Category.seen, accept, hmark]

theorem take_mem_marks {rest : List Node} :
    rest.take (if (accept .null rest).1 = true then 2 else 1) ∈ perhaps .null * perhaps .modifiers ↔
      ∀ m ∈ (accept .null rest).2.head?, m.category = .modifiers := by
  rw [mem_perhaps_mul]
  rcases accept_eq .null rest with ⟨mark, more, rfl, hmark, heq⟩ | ⟨hnone, heq⟩ <;> rw [heq]
  · constructor
    · rintro (h | ⟨_, _, hcons, -, h⟩)
      -- a mark is not a node of modifiers
      · have hfirst : mark.category = .modifiers := by
          rcases mem_perhaps.mp h with h | ⟨_, h, hcategory⟩
          · cases h
          · exact (List.cons.inj h).1 ▸ hcategory
        rw [hmark] at hfirst
        cases hfirst
      · cases hcons
        exact take_one_mem_perhaps.mp h
    · intro h
      exact .inr ⟨mark, more.take 1, rfl, hmark, take_one_mem_perhaps.mpr h⟩
  · rw [← take_one_mem_perhaps]
    refine or_iff_left ?_
    rintro ⟨m, more, hcons, hm, -⟩
    cases rest with
    | nil => cases hcons
    | cons first rest =>
      cases hcons
      exact hnone _ rfl hm

theorem take_sound {rest : List Node} :
    (∀ m ∈ rest.take (if (accept .null rest).1 = true then 2 else 1), m.Sound) ↔
      ∀ m ∈ (accept .null rest).2.head?, m.Sound := by
  rcases accept_eq .null rest with ⟨mark, more, rfl, hmark, heq⟩ | ⟨-, heq⟩ <;> rw [heq]
  · have hsound : mark.Sound := sound_of_leaf hmark (by decide)
    simp [List.take_one, hsound]
  · simp [List.take_one]

theorem sound_column_iff (h : n.category = .column) :
    n.Sound ↔ ∃ name type rest, n.children = .ok (name :: type :: rest) ∧
      name.category = .ident ∧ type.category = .columnType ∧
      ∀ m ∈ (accept .null rest).2.head?, m.category = .modifiers ∧ m.Sound := by
  rw [sound_iff_of_shape h rfl]
  simp only [mem_single_mul]
  constructor
  · rintro ⟨ns, hns, ⟨name, _, htake, hname, type, rest, rfl, htype, hrest⟩, hsound⟩
    rcases ns with _ | ⟨a, _ | ⟨b, more⟩⟩
    · simp [Category.seen] at htake
    · simp [Category.seen] at htake
    rw [seen_column] at htake hsound
    cases htake
    have hmore := take_sound.mp (List.forall_mem_cons.mp (List.forall_mem_cons.mp hsound).2).2
    exact ⟨name, type, more, hns, hname, htype,
      fun m hm => ⟨take_mem_marks.mp hrest m hm, hmore m hm⟩⟩
  · rintro ⟨name, type, rest, hns, hname, htype, hrest⟩
    refine ⟨_, hns, ⟨name, _, seen_column name type rest, hname, type, _, rfl, htype, ?_⟩, ?_⟩
    · exact take_mem_marks.mpr fun m hm => (hrest m hm).1
    · rw [seen_column]
      refine List.forall_mem_cons.mpr ⟨sound_of_leaf hname (by decide), ?_⟩
      refine List.forall_mem_cons.mpr ⟨sound_of_leaf htype (by decide), ?_⟩
      exact take_sound.mpr fun m hm => (hrest m hm).2

end

end Node

namespace Category

/-- A sequence that the grammar allows is looked at as a whole. -/
theorem seen_of_mem {category : Category} {shape : Shape} {ns : List Node}
    (h : category.shape? = some shape) (hns : ns ∈ shape) : category.seen ns = ns := by
  cases category with
  | schema | declEnum | declTable | modifiers | refAction => rfl
  | modifierDefault | refActionDelete | refActionUpdate =>
    cases h
    obtain ⟨n, rfl, -⟩ := mem_single.mp hns
    rfl
  | modifierRef =>
    cases h
    obtain ⟨table, _, rfl, -, hrest⟩ := mem_single_mul.mp hns
    obtain ⟨column, rest, rfl, -, hlast⟩ := mem_single_mul.mp hrest
    rcases mem_perhaps.mp hlast with rfl | ⟨n, rfl, -⟩ <;> rfl
  | column =>
    cases h
    obtain ⟨name, _, rfl, -, hrest⟩ := mem_single_mul.mp hns
    obtain ⟨type, rest, rfl, -, hlast⟩ := mem_single_mul.mp hrest
    rcases mem_perhaps_mul.mp hlast with hlast | ⟨mark, rest, rfl, hmark, hlast⟩
    · rcases mem_perhaps.mp hlast with rfl | ⟨n, rfl, hn⟩
      · rfl
      · simp [seen, hn]
    · rcases mem_perhaps.mp hlast with rfl | ⟨n, rfl, -⟩ <;> simp [seen, hmark]
  | _ => cases h

end Category

theorem Node.fits_iff {n : Node} : n.Fits ↔ n.FitsSeen ∧ ¬n.HasSurplus := by
  constructor
  · intro h
    constructor
    · intro shape hshape
      obtain ⟨ns, hns, hmem⟩ := h shape hshape
      exact ⟨ns, hns, (Category.seen_of_mem hshape hmem).symm ▸ hmem⟩
    · rintro ⟨hsome, ns, hns, hne⟩
      obtain ⟨shape, hshape⟩ := Option.isSome_iff_exists.mp hsome
      obtain ⟨_, hns', hmem⟩ := h shape hshape
      cases hns.symm.trans hns'
      exact hne (Category.seen_of_mem hshape hmem)
  · rintro ⟨h, hnone⟩ shape hshape
    obtain ⟨ns, hns, hmem⟩ := h shape hshape
    have hall : n.category.seen ns = ns := by
      by_contra hne
      exact hnone ⟨by rw [hshape]; rfl, ns, hns, hne⟩
    exact ⟨ns, hns, hall ▸ hmem⟩

end DalSchema
