import DalSchema.Proofs.Following
import DalSchema.Proofs.Growing

/-!
# Where declarations and members begin

Before a declaration, before a member of a body and before the end of a body a comment may be
written without changing the schema. At such an offset the lexemes of a text can be cut in two.
-/

namespace DalSchema

/-- What begins at an offset of a text. -/
inductive Boundary where
  | declaration
  | member
  | closing
  deriving Repr, DecidableEq, Inhabited

namespace Node

/-- A declaration at the top of a tree. -/
def Declares (tree d : Node) : Prop :=
  (∃ ds, tree.children = .ok ds ∧ d ∈ ds) ∧ (d.category = .declEnum ∨ d.category = .declTable)

/-- At the offset begins a declaration, a variant or a column, or the brace that ends a body. -/
def Begins (tree : Node) (k : Nat) : Boundary → Prop
  | .declaration => ∃ d, tree.Declares d ∧ d.start = k
  | .member => ∃ d, tree.Declares d ∧ ∃ ms, d.children = .ok ms ∧
      ∃ m ∈ ms, (m.category = .variant ∨ m.category = .column) ∧ m.start = k
  | .closing => ∃ d, tree.Declares d ∧ d.stop = k + 1

end Node

/-- What is read before and at a boundary: the place before it, the place behind a comment there,
and the terminal at it. -/
def Boundary.Fits (p q : Place) (t : Terminal) : Boundary → Prop
  | .declaration => (∃ flag, p = .top flag) ∧ q = .top true ∧ ∃ kind : DeclKind, t = kind.word
  | .member => ∃ kind, p.InBody kind ∧ q = .body kind true ∧ t = .ident
  | .closing => ∃ kind, p.InBody kind ∧ q = .body kind true ∧ t = .rightBrace

namespace Written

/-- The lexemes of the parts are cut at `k`, where a comment leaves their schema as it is. -/
structure Cut (parts : List Part) (b : Boundary) (k : Nat) (before : List Lexeme) (l : Lexeme)
    (after : List Lexeme) (p q : Place) : Prop where
  lexemes_eq : lexemes parts = before ++ l :: after
  start : l.start = k
  follow : (Place.top false).follow before = some p
  fits : b.Fits p q l.terminal
  insert : ∀ w : Word .comment, ∃ parts', lexemes parts' = before ++ w.lexeme :: l :: after ∧
    schema parts' = schema parts

section

variable {kind : DeclKind}

theorem spanAll_declaration (d : Declaration kind) :
    Lexeme.spanAll d.lexemes = some ⟨d.word.start, d.closing.start + 1⟩ := by
  have htext : d.closing.text = ['}'] := d.closing.fits
  simp [Declaration.lexemes, Declaration.headLexemes, Lexeme.spanAll, Word.lexeme, Lexeme.stop,
    htext]

theorem start_declaration (d : Declaration kind) : d.node.start = d.word.start := by
  rw [Declaration.node, spanAll_declaration, Node.start]

theorem stop_declaration (d : Declaration kind) : d.node.stop = d.closing.start + 1 := by
  rw [Declaration.node, spanAll_declaration, Node.stop]

theorem exists_lexemes_entry (e : kind.Entry) :
    ∃ (w : Word .ident) (rest : List Lexeme), kind.lexemes e = w.lexeme :: rest ∧
      (kind.node e).start = w.start := by
  cases kind with
  | enum =>
    change Word .ident at e
    exact ⟨e, [], rfl, by simp [DeclKind.node, Word.node, Lexeme.spanAll, Node.start, Word.lexeme]⟩
  | table =>
    change Column at e
    refine ⟨e.name, _, rfl, ?_⟩
    simp [DeclKind.node, Column.node, Column.lexemes, Lexeme.spanAll, Node.start, Word.lexeme]

end

theorem exists_declaration {parts : List Part} {d : Node}
    (h : (Node.ofLexemes (lexemes parts)).Declares d) :
    ∃ (first : List Part) (kind : DeclKind) (dd : Declaration kind) (last : List Part),
      parts = first ++ .declaration kind dd :: last ∧ d = dd.node := by
  obtain ⟨⟨ds, hchildren, hd⟩, hcategory⟩ := h
  rw [ofLexemes_lexemes] at hchildren
  cases hchildren
  obtain ⟨part, hpart, rfl⟩ := List.mem_map.mp hd
  cases part with
  | comment w => rcases hcategory with h | h <;> cases h
  | declaration kind dd =>
    obtain ⟨first, last, rfl⟩ := List.append_of_mem hpart
    exact ⟨first, kind, dd, last, rfl, rfl⟩

theorem exists_entry {kind : DeclKind} {d : Declaration kind} {ms : List Node} {m : Node}
    (hchildren : d.node.children = .ok ms) (hm : m ∈ ms)
    (hcategory : m.category = .variant ∨ m.category = .column) :
    ∃ (e : kind.Entry) (left right : List (Member kind)),
      d.members = left ++ .entry e :: right ∧ m = kind.node e := by
  cases hchildren
  rcases List.mem_cons.mp hm with rfl | hm
  · rcases hcategory with h | h <;> cases h
  rcases List.mem_append.mp hm with hm | hm
  · obtain ⟨mark, _, rfl⟩ := List.mem_map.mp hm
    rcases hcategory with h | h <;> cases h
  · obtain ⟨member, hmember, rfl⟩ := List.mem_map.mp hm
    cases member with
    | comment w => rcases hcategory with h | h <;> cases h
    | entry e =>
      obtain ⟨left, right, heq⟩ := List.append_of_mem hmember
      exact ⟨e, left, right, heq, rfl⟩

theorem cut_declaration {kind : DeclKind} (first last : List Part) (d : Declaration kind) :
    ∃ before l after p q,
      Cut (first ++ .declaration kind d :: last) .declaration d.word.start before l after p q := by
  obtain ⟨flag, hfollow⟩ := follow_parts first false
  obtain ⟨rest, hrest⟩ : ∃ rest, d.lexemes = d.word.lexeme :: rest := ⟨_, rfl⟩
  refine ⟨lexemes first, d.word.lexeme, rest ++ lexemes last, .top flag, .top true,
    { lexemes_eq := ?_, start := rfl, follow := hfollow, fits := ?_, insert := ?_ }⟩
  · simp [lexemes, Part.lexemes, hrest]
  · exact ⟨⟨flag, rfl⟩, rfl, kind, rfl⟩
  · intro w
    refine ⟨first ++ .comment w :: .declaration kind d :: last, ?_, ?_⟩
    · simp [lexemes, Part.lexemes, hrest]
    · simp [schema, List.filterMap_cons, Part.value?]

/-- A cut in the body of a declaration, between two of its members or at its end. -/
theorem cut_body {kind : DeclKind} (first last : List Part) (d : Declaration kind) (b : Boundary)
    (left right : List (Member kind)) (hmembers : d.members = left ++ right) {l : Lexeme}
    {rest : List Lexeme}
    (hright : right.flatMap Member.lexemes ++ [d.closing.lexeme] = l :: rest)
    (hfits : ∀ p : Place, p.InBody kind → b.Fits p (.body kind true) l.terminal) :
    ∃ before after p q,
      Cut (first ++ .declaration kind d :: last) b l.start before l after p q := by
  obtain ⟨flag, hfirst⟩ := follow_parts first false
  obtain ⟨p, hfollow, hbody⟩ := follow_members left (Place.inBody_body kind false)
  have hlexemes : d.lexemes = d.headLexemes ++ left.flatMap Member.lexemes ++ l :: rest := by
    rw [Declaration.lexemes, hmembers, List.flatMap_append, ← hright]
    simp
  refine ⟨lexemes first ++ (d.headLexemes ++ left.flatMap Member.lexemes),
    rest ++ lexemes last, p, .body kind true,
    { lexemes_eq := ?_, start := rfl, follow := ?_, fits := hfits p hbody, insert := ?_ }⟩
  · simp [lexemes, Part.lexemes, hlexemes]
  · rw [Place.follow_append, hfirst, Option.bind_some, Place.follow_append, follow_head,
      Option.bind_some, hfollow]
  · intro w
    let d' : Declaration kind := { d with members := left ++ .comment w :: right }
    have hhead : d'.headLexemes = d.headLexemes := rfl
    have hlexemes' : d'.lexemes =
        d.headLexemes ++ left.flatMap Member.lexemes ++ w.lexeme :: l :: rest := by
      rw [Declaration.lexemes, hhead, ← hright]
      simp [d', Member.lexemes]
    have hvalue : d'.value = d.value := by
      have hvalues : d'.members.filterMap Member.value? = d.members.filterMap Member.value? := by
        rw [hmembers]
        simp [d', List.filterMap_cons, Member.value?]
      rw [Declaration.value, hvalues]
      rfl
    refine ⟨first ++ .declaration kind d' :: last, ?_, ?_⟩
    · simp [lexemes, Part.lexemes, hlexemes']
    · simp [schema, Part.value?, hvalue]

/-- Where something begins in the tree of a text, its lexemes are cut. -/
theorem exists_cut {parts : List Part} {b : Boundary} {k : Nat}
    (h : (Node.ofLexemes (lexemes parts)).Begins k b) :
    ∃ before l after p q, Cut parts b k before l after p q := by
  cases b with
  | declaration =>
    obtain ⟨d, hd, hk⟩ := h
    obtain ⟨first, kind, dd, last, rfl, rfl⟩ := exists_declaration hd
    rw [start_declaration, Int.natCast_inj] at hk
    subst hk
    exact cut_declaration first last dd
  | member =>
    obtain ⟨d, hd, ms, hchildren, m, hm, hcategory, hk⟩ := h
    obtain ⟨first, kind, dd, last, rfl, rfl⟩ := exists_declaration hd
    obtain ⟨e, left, right, hmembers, rfl⟩ := exists_entry hchildren hm hcategory
    obtain ⟨w, rest, hlexemes, hstart⟩ := exists_lexemes_entry e
    rw [hstart, Int.natCast_inj] at hk
    subst hk
    have hright : (.entry e :: right).flatMap Member.lexemes ++ [dd.closing.lexeme] =
        w.lexeme :: (rest ++ right.flatMap Member.lexemes ++ [dd.closing.lexeme]) := by
      simp [Member.lexemes, hlexemes]
    obtain ⟨before, after, p, q, hcut⟩ := cut_body first last dd .member left (.entry e :: right)
      hmembers hright fun p hp => ⟨kind, hp, rfl, rfl⟩
    exact ⟨before, _, after, p, q, hcut⟩
  | closing =>
    obtain ⟨d, hd, hk⟩ := h
    obtain ⟨first, kind, dd, last, rfl, rfl⟩ := exists_declaration hd
    have hstart : dd.closing.start = k := by
      rw [stop_declaration] at hk
      omega
    subst hstart
    obtain ⟨before, after, p, q, hcut⟩ := cut_body first last dd .closing dd.members []
      (List.append_nil _).symm rfl fun p hp => ⟨kind, hp, rfl, rfl⟩
    exact ⟨before, _, after, p, q, hcut⟩

end Written

end DalSchema
