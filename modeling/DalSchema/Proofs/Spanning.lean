import DalSchema.Proofs.Deriving
import DalSchema.Proofs.Pointing

/-!
# Spans of nodes

A node has the span of all its own lexemes, those that are not shown included. The lexemes of a part
of a derivation stand together in the text, and those of two parts one after the other; so spans are
nested as the nodes are, and follow each other as the nodes do: `parseTree_spans`.

Which lexemes can begin and end a part is read off the rules. `Rule.first` and `Rule.last` are what
the rules say about that, and only a schema can be empty.
-/

namespace DalSchema

open DalSchema.Derivation

/-! ## What rules begin and end with -/

namespace Rule

/-- The terminals that can begin a part. -/
def first : Rule → List Terminal
  | schema | topItem => [.enumWord, .tableWord, .comment]
  | declEnum => [.enumWord]
  | declTable => [.tableWord]
  | enumMember | tableMember => [.ident, .comment]
  | variant | column | ident => [.ident]
  | exists_ | modifiers => [.leftBracket]
  | columnType => [.columnType]
  | null => [.bang]
  | modifier => [.defaultWord, .primaryWord, .uniqueWord, .refWord]
  | modifierDefault => [.defaultWord]
  | modifierDefaultValue => [.defaultValue]
  | modifierPrimary => [.primaryWord]
  | modifierUnique => [.uniqueWord]
  | modifierRef => [.refWord]
  | refAction => [.leftParen]
  | refActionItem => [.deleteWord, .updateWord]
  | refActionDelete => [.deleteWord]
  | refActionUpdate => [.updateWord]
  | action => [.action]
  | comment => [.comment]

/-- The terminals that can end a part. -/
def last : Rule → List Terminal
  | schema | topItem => [.rightBrace, .comment]
  | declEnum | declTable => [.rightBrace]
  | enumMember => [.ident, .comment]
  | tableMember => [.columnType, .bang, .rightBracket, .comment]
  | variant | ident => [.ident]
  | exists_ | modifiers => [.rightBracket]
  | column => [.columnType, .bang, .rightBracket]
  | columnType => [.columnType]
  | null => [.bang]
  | modifier => [.defaultValue, .keyWord, .uniqueWord, .ident, .rightParen]
  | modifierDefault | modifierDefaultValue => [.defaultValue]
  | modifierPrimary => [.keyWord]
  | modifierUnique => [.uniqueWord]
  | modifierRef => [.ident, .rightParen]
  | refAction => [.rightParen]
  | refActionItem | refActionDelete | refActionUpdate | action => [.action]
  | comment => [.comment]

end Rule

namespace Body

/-- Whether no lexeme at all is enough. -/
def nullable : Body → Bool
  | terminal _ => false
  | rule r => r == .schema
  | seq a b => a.nullable && b.nullable
  | alt a b => a.nullable || b.nullable
  | opt _ | star _ => true
  | plus a => a.nullable

def first : Body → List Terminal
  | terminal t => [t]
  | rule r => r.first
  | seq a b => if a.nullable then a.first ++ b.first else a.first
  | alt a b => a.first ++ b.first
  | opt a | star a | plus a => a.first

def last : Body → List Terminal
  | terminal t => [t]
  | rule r => r.last
  | seq a b => if b.nullable then a.last ++ b.last else b.last
  | alt a b => a.last ++ b.last
  | opt a | star a | plus a => a.last

/-- Whether a schema is asked for somewhere in a schema. -/
def mentionsSchema : Body → Bool
  | terminal _ => false
  | rule r => r == .schema
  | seq a b | alt a b => a.mentionsSchema || b.mentionsSchema
  | opt a | star a | plus a => a.mentionsSchema

end Body

namespace Rule

theorem nullable_body (r : Rule) : r.body.nullable = (r == .schema) := by cases r <;> rfl

theorem first_body_subset (r : Rule) : r.body.first ⊆ r.first := by cases r <;> decide

theorem last_body_subset (r : Rule) : r.body.last ⊆ r.last := by cases r <;> decide

theorem mentionsSchema_body (r : Rule) : r.body.mentionsSchema = false := by cases r <;> rfl

end Rule

/-- What the lexemes of a body begin and end with. -/
structure Body.Bounds (b : Body) (ls : List Lexeme) : Prop where
  nullable : ls = [] → b.nullable = true
  first : ∀ l ∈ ls.head?, l.terminal ∈ b.first
  last : ∀ l ∈ ls.getLast?, l.terminal ∈ b.last

namespace Body.Bounds

variable {a b : Body} {ls ms : List Lexeme}

theorem mem_head?_append {l : Lexeme} (h : l ∈ (ls ++ ms).head?) :
    l ∈ ls.head? ∨ ls = [] ∧ l ∈ ms.head? := by
  cases ls with
  | nil => exact .inr ⟨rfl, h⟩
  | cons _ _ => exact .inl h

theorem mem_getLast?_append {l : Lexeme} (h : l ∈ (ls ++ ms).getLast?) :
    l ∈ ms.getLast? ∨ ms = [] ∧ l ∈ ls.getLast? := by
  by_cases hms : ms = []
  · subst hms
    rw [List.append_nil] at h
    exact .inr ⟨rfl, h⟩
  · rw [List.getLast?_append_of_ne_nil _ hms] at h
    exact .inl h

theorem seq (ha : a.Bounds ls) (hb : b.Bounds ms) : (a ++ b).Bounds (ls ++ ms) := by
  change (Body.seq a b).Bounds (ls ++ ms)
  constructor
  · intro hnil
    obtain ⟨hls, hms⟩ := List.append_eq_nil_iff.mp hnil
    rw [Body.nullable, ha.nullable hls, hb.nullable hms]
    rfl
  · intro l hl
    rw [Body.first]
    rcases mem_head?_append hl with hl | ⟨hls, hl⟩
    · split
      · exact List.mem_append_left _ (ha.first l hl)
      · exact ha.first l hl
    · rw [if_pos (ha.nullable hls)]
      exact List.mem_append_right _ (hb.first l hl)
  · intro l hl
    rw [Body.last]
    rcases mem_getLast?_append hl with hl | ⟨hms, hl⟩
    · split
      · exact List.mem_append_right _ (hb.last l hl)
      · exact hb.last l hl
    · rw [if_pos (hb.nullable hms)]
      exact List.mem_append_left _ (ha.last l hl)

theorem altLeft (h : a.Bounds ls) : (a <|> b).Bounds ls := by
  change (Body.alt a b).Bounds ls
  constructor
  · intro hnil
    rw [Body.nullable, h.nullable hnil, Bool.true_or]
  · exact fun l hl => List.mem_append_left _ (h.first l hl)
  · exact fun l hl => List.mem_append_left _ (h.last l hl)

theorem altRight (h : b.Bounds ls) : (a <|> b).Bounds ls := by
  change (Body.alt a b).Bounds ls
  constructor
  · intro hnil
    rw [Body.nullable, h.nullable hnil, Bool.or_true]
  · exact fun l hl => List.mem_append_right _ (h.first l hl)
  · exact fun l hl => List.mem_append_right _ (h.last l hl)

theorem starNil : (Body.star a).Bounds [] := ⟨fun _ => rfl, by rintro l ⟨⟩, by rintro l ⟨⟩⟩

theorem starCons (ha : a.Bounds ls) (hstar : (Body.star a).Bounds ms) :
    (Body.star a).Bounds (ls ++ ms) := by
  constructor
  · exact fun _ => rfl
  · intro l hl
    rcases mem_head?_append hl with hl | ⟨-, hl⟩
    · exact ha.first l hl
    · exact hstar.first l hl
  · intro l hl
    rcases mem_getLast?_append hl with hl | ⟨-, hl⟩
    · exact hstar.last l hl
    · exact ha.last l hl

theorem plus (ha : a.Bounds ls) (hstar : (Body.star a).Bounds ms) :
    (Body.plus a).Bounds (ls ++ ms) := by
  obtain ⟨-, hfirst, hlast⟩ := ha.starCons hstar
  exact ⟨fun hnil => ha.nullable (List.append_eq_nil_iff.mp hnil).1, hfirst, hlast⟩

end Body.Bounds

theorem Derives.bounds {b : Body} {ds : List Derivation} (h : Derives b ds) :
    b.Bounds (allLexemes ds) := by
  induction h with
  | terminal l =>
    constructor
    · rintro ⟨⟩
    · rintro _ ⟨⟩
      exact List.mem_singleton_self _
    · rintro _ ⟨⟩
      exact List.mem_singleton_self _
  | @rule r ds _ ih =>
    simp only [allLexemes, Derivation.lexemes, List.append_nil]
    refine ⟨fun hnil => ?_, fun l hl => ?_, fun l hl => ?_⟩
    · exact (r.nullable_body).symm.trans (ih.nullable hnil)
    · exact r.first_body_subset (ih.first l hl)
    · exact r.last_body_subset (ih.last l hl)
  | seq _ _ ihleft ihright =>
    rw [allLexemes_append]
    exact ihleft.seq ihright
  | altLeft _ ih => exact ih.altLeft
  | altRight _ ih => exact ih.altRight
  | optNone => exact ⟨fun _ => rfl, by rintro l ⟨⟩, by rintro l ⟨⟩⟩
  | optSome _ ih => exact ⟨fun _ => rfl, ih.first, ih.last⟩
  | starNil => exact .starNil
  | starCons _ _ ihhead ihtail =>
    rw [allLexemes_append]
    exact ihhead.starCons ihtail
  | plus _ _ ihhead ihtail =>
    rw [allLexemes_append]
    exact ihhead.plus ihtail

/-! ## Nodes and their own lexemes -/

namespace Lexeme

theorem spanAll_eq_none_iff {ls : List Lexeme} : spanAll ls = none ↔ ls = [] := by
  cases ls <;> simp [spanAll]

theorem spanAll_eq_some_iff {ls : List Lexeme} {s : Span} :
    spanAll ls = some s ↔ ∃ first last, ls.head? = some first ∧ ls.getLast? = some last ∧
      s = ⟨first.start, last.stop⟩ := by
  cases ls with
  | nil => simp [spanAll]
  | cons l ls => simp [spanAll, List.getLast?_eq_some_getLast, eq_comm]

def InOrder (ls : List Lexeme) : Prop := ls.Pairwise fun a b => a.stop ≤ b.start

theorem start_le_stop (l : Lexeme) : l.start ≤ l.stop := Nat.le_add_right _ _

theorem InOrder.start_le {ls : List Lexeme} (h : InOrder ls) {first l : Lexeme}
    (hfirst : ls.head? = some first) (hl : l ∈ ls) : first.start ≤ l.start := by
  obtain ⟨rest, rfl⟩ := List.head?_eq_some_iff.mp hfirst
  rcases List.mem_cons.mp hl with rfl | hl
  · exact le_rfl
  · exact first.start_le_stop.trans ((List.pairwise_cons.mp h).1 l hl)

theorem InOrder.stop_le {ls : List Lexeme} (h : InOrder ls) {last l : Lexeme}
    (hlast : ls.getLast? = some last) (hl : l ∈ ls) : l.stop ≤ last.stop := by
  obtain ⟨front, rfl⟩ := List.getLast?_eq_some_iff.mp hlast
  rcases List.mem_append.mp hl with hl | hl
  · have hbefore := (List.pairwise_append.mp h).2.2 l hl last (List.mem_singleton_self last)
    exact hbefore.trans last.start_le_stop
  · rw [List.mem_singleton.mp hl]

end Lexeme

open Lexeme

/-- The nodes have lexemes of their own among these, in the same order; each has the span of its
lexemes. -/
inductive Owned : List Node → List Lexeme → Prop where
  | nil : Owned [] []
  | skip {ns : List Node} {l : Lexeme} {ls : List Lexeme} (rest : Owned ns ls) : Owned ns (l :: ls)
  | cons {n : Node} {ns : List Node} {own ls : List Lexeme} (span : spanAll own = some n.span)
      (rest : Owned ns ls) : Owned (n :: ns) (own ++ ls)

namespace Owned

variable {ns ps : List Node} {ls ms : List Lexeme}

theorem append (hns : Owned ns ls) (hps : Owned ps ms) : Owned (ns ++ ps) (ls ++ ms) := by
  induction hns with
  | nil => exact hps
  | skip _ ih => exact .skip ih
  | cons span _ ih =>
    rw [List.append_assoc]
    exact .cons span ih

theorem singleton {n : Node} (h : spanAll ls = some n.span) : Owned [n] ls :=
  List.append_nil ls ▸ .cons h .nil

theorem exists_edges (h : Owned ns ls) {n : Node} (hn : n ∈ ns) :
    ∃ first ∈ ls, ∃ last ∈ ls, n.start = first.start ∧ n.stop = last.stop := by
  induction h with
  | nil => cases hn
  | skip _ ih =>
    obtain ⟨first, hfirst, last, hlast, hspan⟩ := ih hn
    exact ⟨first, .tail _ hfirst, last, .tail _ hlast, hspan⟩
  | cons span _ ih =>
    rcases List.mem_cons.mp hn with rfl | hn
    · obtain ⟨first, last, hfirst, hlast, hspan⟩ := spanAll_eq_some_iff.mp span
      refine ⟨first, ?_, last, ?_, congrArg Span.start hspan, congrArg Span.stop hspan⟩
      · exact List.mem_append_left _ (List.mem_of_mem_head? hfirst)
      · exact List.mem_append_left _ (List.mem_of_mem_getLast? hlast)
    · obtain ⟨first, hfirst, last, hlast, hspan⟩ := ih hn
      exact ⟨first, List.mem_append_right _ hfirst, last, List.mem_append_right _ hlast, hspan⟩

theorem eq_nil (h : Owned ns []) : ns = [] := by
  rw [List.eq_nil_iff_forall_not_mem]
  intro n hn
  obtain ⟨first, hfirst, _⟩ := h.exists_edges hn
  cases hfirst

theorem pairwise (h : Owned ns ls) (hls : InOrder ls) :
    ns.Pairwise fun a b => a.stop ≤ b.start := by
  induction h with
  | nil => exact .nil
  | skip _ ih => exact ih (List.pairwise_cons.mp hls).2
  | @cons n ns own ls span rest ih =>
    obtain ⟨-, hrest, hbefore⟩ := List.pairwise_append.mp hls
    refine .cons (fun m hm => ?_) (ih hrest)
    obtain ⟨_, last, _, hlast, hspan⟩ := spanAll_eq_some_iff.mp span
    obtain ⟨first, hfirst, _, _, hstart, _⟩ := rest.exists_edges hm
    have hstop : n.stop = last.stop := congrArg Span.stop hspan
    rw [hstop, hstart]
    exact_mod_cast hbefore last (List.mem_of_mem_getLast? hlast) first hfirst

theorem within (h : Owned ns ls) (hls : InOrder ls) {first last : Lexeme}
    (hfirst : ls.head? = some first) (hlast : ls.getLast? = some last) {n : Node} (hn : n ∈ ns) :
    (first.start : Int) ≤ n.start ∧ n.stop ≤ last.stop := by
  obtain ⟨l, hl, m, hm, hstart, hstop⟩ := h.exists_edges hn
  rw [hstart, hstop]
  exact_mod_cast And.intro (hls.start_le hfirst hl) (hls.stop_le hlast hm)

end Owned

theorem Derives.owned {b : Body} {ds : List Derivation} (h : Derives b ds)
    (hb : b.mentionsSchema = false) : Owned (allNodes ds) (allLexemes ds) := by
  induction h with
  | terminal l =>
    simp only [allNodes, allLexemes, nodes, Derivation.lexemes, List.append_nil]
    split
    · exact .singleton rfl
    · exact .skip .nil
  | @rule r ds body ih =>
    simp only [allNodes, allLexemes, nodes, Derivation.lexemes, List.append_nil]
    split
    · -- Only a schema has no lexemes, and this is none.
      have hne : allLexemes ds ≠ [] := by
        intro hnil
        have hnullable := r.nullable_body.symm.trans (body.bounds.nullable hnil)
        rw [Body.mentionsSchema, hnullable] at hb
        cases hb
      obtain ⟨l, ls, hls⟩ := List.exists_cons_of_ne_nil hne
      apply Owned.singleton
      rw [hls]
      rfl
    · exact ih r.mentionsSchema_body
  | seq _ _ ihleft ihright =>
    obtain ⟨ha, hb⟩ := Bool.or_eq_false_iff.mp hb
    rw [allNodes_append, allLexemes_append]
    exact (ihleft ha).append (ihright hb)
  | altLeft _ ih => exact ih (Bool.or_eq_false_iff.mp hb).1
  | altRight _ ih => exact ih (Bool.or_eq_false_iff.mp hb).2
  | optNone | starNil => exact .nil
  | optSome _ ih => exact ih hb
  | starCons _ _ ihhead ihtail | plus _ _ ihhead ihtail =>
    rw [allNodes_append, allLexemes_append]
    exact (ihhead hb).append (ihtail hb)

/-! ## Nodes anywhere in a tree -/

inductive Node.Contains : Node → Node → Prop where
  | self (n : Node) : Contains n n
  | child {category : Category} {span : Option Span} {children : List Node} {m n : Node}
      (mem : m ∈ children) (below : Contains m n) : Contains (.tree category span children) n

inductive Derivation.Contains : Derivation → Derivation → Prop where
  | self (d : Derivation) : Contains d d
  | child {rule : Rule} {children : List Derivation} {d e : Derivation}
      (mem : d ∈ children) (below : Contains d e) : Contains (.node rule children) e

/-- The node is shown somewhere in the derivations: it is the leaf of a lexeme, or the node of a
part whose lexemes stand together. -/
inductive Derivation.Shown (ds : List Derivation) : Node → Prop where
  | leaf {l : Lexeme} (mem : l ∈ allLexemes ds) : Shown ds (Draft.leaf l)
  | part {d : Derivation} {r : Rule} {es : List Derivation} {category : Category} (mem : d ∈ ds)
      (below : d.Contains (.node r es)) (proper : r ≠ .schema) (named : r.category? = some category)
      (body : Derives r.body es) (together : allLexemes es <:+: allLexemes ds) :
      Shown ds (.tree category (spanAll (allLexemes es)) (allNodes es))

namespace Derivation.Shown

variable {ds es : List Derivation} {m n : Node}

theorem append_right (h : Shown ds n) : Shown (ds ++ es) n := by
  cases h with
  | leaf mem =>
    apply leaf
    rw [allLexemes_append]
    exact List.mem_append_left _ mem
  | part mem below proper named body together =>
    refine part (List.mem_append_left _ mem) below proper named body ?_
    rw [allLexemes_append]
    exact together.trans (List.prefix_append _ _).isInfix

theorem append_left (h : Shown es n) : Shown (ds ++ es) n := by
  cases h with
  | leaf mem =>
    apply leaf
    rw [allLexemes_append]
    exact List.mem_append_right _ mem
  | part mem below proper named body together =>
    refine part (List.mem_append_right _ mem) below proper named body ?_
    rw [allLexemes_append]
    exact together.trans (List.suffix_append _ _).isInfix

theorem append (hds : m ∈ allNodes ds → Shown ds n) (hes : m ∈ allNodes es → Shown es n)
    (hm : m ∈ allNodes (ds ++ es)) : Shown (ds ++ es) n := by
  rw [allNodes_append] at hm
  rcases List.mem_append.mp hm with hm | hm
  · exact (hds hm).append_right
  · exact (hes hm).append_left

theorem inNode {r : Rule} (h : Shown ds n) : Shown [.node r ds] n := by
  have hlexemes : allLexemes [.node r ds] = allLexemes ds := List.append_nil _
  cases h with
  | leaf mem => exact leaf (hlexemes ▸ mem)
  | part mem below proper named body together =>
    exact part (List.mem_singleton_self _) (.child mem below) proper named body
      (hlexemes ▸ together)

end Derivation.Shown

theorem Derives.shown {b : Body} {ds : List Derivation} (h : Derives b ds)
    (hb : b.mentionsSchema = false) {m n : Node} (hm : m ∈ allNodes ds) (hn : m.Contains n) :
    Shown ds n := by
  induction h generalizing m with
  | terminal l =>
    simp only [allNodes, nodes, List.append_nil] at hm
    split at hm
    · cases List.mem_singleton.mp hm
      cases hn
      exact .leaf (List.mem_singleton_self l)
    · cases hm
  | @rule r ds body ih =>
    simp only [allNodes, nodes, List.append_nil] at hm
    split at hm
    · next category hcategory =>
      cases List.mem_singleton.mp hm
      cases hn with
      | self =>
        refine .part (List.mem_singleton_self _) (.self _) (beq_eq_false_iff_ne.mp hb) hcategory
          body ?_
        exact (List.prefix_append _ _).isInfix
      | child mem below => exact (ih r.mentionsSchema_body mem below).inNode
    · -- The rule has no node of its own: its nodes are among those of the part around it.
      exact (ih r.mentionsSchema_body hm hn).inNode
  | seq _ _ ihleft ihright =>
    obtain ⟨hleft, hright⟩ := Bool.or_eq_false_iff.mp hb
    exact .append (ihleft hleft · hn) (ihright hright · hn) hm
  | altLeft _ ih => exact ih (Bool.or_eq_false_iff.mp hb).1 hm hn
  | altRight _ ih => exact ih (Bool.or_eq_false_iff.mp hb).2 hm hn
  | optNone | starNil => cases hm
  | optSome _ ih => exact ih hb hm hn
  | starCons _ _ ihhead ihtail | plus _ _ ihhead ihtail =>
    exact .append (ihhead hb · hn) (ihtail hb · hn) hm

/-! ## The text -/

theorem Laid.inOrder {offset : Nat} {cs : List Char} {ls : List Lexeme} (h : Laid offset cs ls) :
    InOrder ls ∧ ∀ l ∈ ls, offset ≤ l.start := by
  induction h with
  | finish _ => exact ⟨.nil, by simp⟩
  | @lexeme offset gap rest l ls blank start tail ih =>
    obtain ⟨hls, hafter⟩ := ih
    refine ⟨.cons hafter hls, List.forall_mem_cons.mpr ⟨by omega, fun m hm => ?_⟩⟩
    have hm := hafter m hm
    have hl := l.start_le_stop
    omega

theorem Laid.blank {offset : Nat} {cs : List Char} (h : Laid offset cs []) : Text.Blank cs := by
  cases h with
  | finish blank => exact blank

/-- The span is that of the lexemes of a part: it runs from the first character of the first lexeme
to the last character of the last one, and the children lie in it one after the other. -/
structure Rule.Spans (r : Rule) (source : List Char) (own : List Lexeme) (s : Span)
    (children : List Node) : Prop where
  edges : ∃ first last, own.head? = some first ∧ own.getLast? = some last ∧
    s = ⟨first.start, last.stop⟩ ∧ first.terminal ∈ r.first ∧ last.terminal ∈ r.last ∧
    (∃ c, first.text.head? = some c ∧ source[first.start]? = some c) ∧
    ∃ c, last.text.getLast? = some c ∧ source[last.stop - 1]? = some c
  nested : ∀ m ∈ children, s.start ≤ m.start ∧ m.stop ≤ s.stop
  ordered : children.Pairwise fun a b => a.stop ≤ b.start

section

variable {source : List Char} {l : Lexeme} (hne : l.text ≠ [])
  (htext : l.text <+: source.drop l.start)

include hne htext

theorem Lexeme.getElem?_start : ∃ c, l.text.head? = some c ∧ source[l.start]? = some c := by
  obtain ⟨c, rest, hc⟩ := List.exists_cons_of_ne_nil hne
  obtain ⟨more, hmore⟩ := htext
  refine ⟨c, by rw [hc]; rfl, ?_⟩
  rw [hc] at hmore
  rw [← List.head?_drop, ← hmore]
  rfl

theorem Lexeme.getElem?_stop : ∃ c, l.text.getLast? = some c ∧ source[l.stop - 1]? = some c := by
  have hlength := List.length_pos_iff.mpr hne
  refine ⟨l.text.getLast hne, List.getLast?_eq_some_getLast hne, ?_⟩
  obtain ⟨more, hmore⟩ := htext
  have hstop : l.stop - 1 = l.start + (l.text.length - 1) := by
    rw [Lexeme.stop]
    omega
  rw [hstop, ← List.getElem?_drop, ← hmore, List.getElem?_append_left (by omega),
    List.getLast_eq_getElem, List.getElem?_eq_getElem]

end

def Lexeme.Fit (source : List Char) (ls : List Lexeme) : Prop :=
  ∀ l ∈ ls, l.text ≠ [] ∧ l.text <+: source.drop l.start

theorem Derives.spans {source : List Char} {r : Rule} {es : List Derivation}
    (h : Derives r.body es) (hls : InOrder (allLexemes es)) (hfit : Fit source (allLexemes es))
    {s : Span} (hs : spanAll (allLexemes es) = some s) :
    r.Spans source (allLexemes es) s (allNodes es) := by
  obtain ⟨first, last, hfirst, hlast, rfl⟩ := spanAll_eq_some_iff.mp hs
  have howned := h.owned r.mentionsSchema_body
  have hbounds := h.bounds
  constructor
  · obtain ⟨hne, htext⟩ := hfit first (List.mem_of_mem_head? hfirst)
    obtain ⟨hne', htext'⟩ := hfit last (List.mem_of_mem_getLast? hlast)
    exact ⟨first, last, hfirst, hlast, rfl, r.first_body_subset (hbounds.first first hfirst),
      r.last_body_subset (hbounds.last last hlast), first.getElem?_start hne htext,
      last.getElem?_stop hne' htext'⟩
  · exact fun m hm => howned.within hls hfirst hlast hm
  · exact howned.pairwise hls

theorem Lexeme.slice_leaf {source : List Char} {l : Lexeme} (hne : l.text ≠ [])
    (htext : l.text <+: source.drop l.start) :
    l.start < l.stop ∧ l.stop ≤ source.length ∧ l.text = Span.slice source ⟨l.start, l.stop⟩ := by
  have hpos := List.length_pos_iff.mpr hne
  have hle := htext.length_le
  rw [List.length_drop] at hle
  refine ⟨?_, ?_, ?_⟩
  · rw [Lexeme.stop]
    omega
  · rw [Lexeme.stop]
    omega
  · rw [Lexeme.stop, Int.natCast_add, Span.slice_of_isPrefix htext]

theorem exists_derivation {source : List Char} {ls : List Lexeme} (h : lexemes source = .ok ls) :
    ∃ ds, Derives Rule.schema.body ds ∧ allLexemes ds = ls ∧
      Node.ofLexemes ls = .tree .schema (spanAll (allLexemes ds)) (allNodes ds) := by
  obtain ⟨parts, rfl⟩ := lexemes_eq_written h
  obtain ⟨_, hderives, hls, hns⟩ := Written.yields_schema parts
  cases hderives with
  | @rule _ ds body =>
    simp only [allLexemes, Derivation.lexemes, List.append_nil] at hls
    exact ⟨ds, body, hls, (List.singleton_inj.mp hns).symm⟩

/-- Leaves show the text from their start to their end. Every node has a span, unless the text is
blank; it is that of the node's own lexemes, with the children in it one after the other. -/
theorem parseTree_spans {ledger : Ledger} {source : List Char} {tree : Node}
    (h : (ledger.parseTree source).1 = .ok tree) :
    ∃ d : Derivation, Derives (.rule .schema) [d] ∧ Laid 0 source d.lexemes ∧
      (∀ l ∈ d.lexemes, l.text ∈ l.terminal.language) ∧ d.nodes = [tree] ∧
      (∀ category text start stop, tree.Contains (.token category text start stop) →
        ∃ s e : Nat, start = some ↑s ∧ stop = some ↑e ∧ s < e ∧ e ≤ source.length ∧
          text.toList = Span.slice source ⟨s, e⟩) ∧
      ∀ category span children, tree.Contains (.tree category span children) →
        (span = none → tree = .tree category span children ∧ children = [] ∧ Text.Blank source) ∧
        ∀ s, span = some s → ∃ r es, d.Contains (.node r es) ∧ r.category? = some category ∧
          Derives r.body es ∧ allNodes es = children ∧
          r.Spans source (allLexemes es) s children := by
  obtain ⟨ls, hlexemes, rfl⟩ := parseTree_eq_ok_iff.mp h
  obtain ⟨b, hreads, hfinished⟩ := lexemes_eq_ok_iff.mp hlexemes
  have hlaid := hreads.laid hfinished.2
  have hfit : Fit source ls := isPrefix_of_lexemes hlexemes
  obtain ⟨ds, body, rfl, htree⟩ := exists_derivation hlexemes
  rw [htree]
  refine ⟨.node .schema ds, .rule body, hlaid, hreads.mem_language, rfl, ?_, ?_⟩
  · intro category text start stop hcontains
    cases hcontains with
    | child mem below =>
      generalize hn : Node.token category text start stop = n at below
      cases body.shown rfl mem below with
      | leaf hl =>
        cases hn
        obtain ⟨hne, htext⟩ := hfit _ hl
        obtain ⟨hlt, hle, hslice⟩ := Lexeme.slice_leaf hne htext
        exact ⟨_, _, rfl, rfl, hlt, hle, String.toList_ofList.trans hslice⟩
      | part => cases hn
  · intro category span children hcontains
    cases hcontains with
    | self =>
      refine ⟨fun hnone => ?_, fun s hs => ?_⟩
      · -- The root is the only node that may have no lexemes.
        have hnil := spanAll_eq_none_iff.mp hnone
        have howned := body.owned rfl
        rw [hnil] at howned hlaid
        exact ⟨rfl, howned.eq_nil, hlaid.blank⟩
      · exact ⟨.schema, ds, .self _, rfl, body, rfl, body.spans hlaid.inOrder.1 hfit hs⟩
    | child mem below =>
      -- The node is below the root, so it is that of a part, and parts have lexemes.
      generalize hn : Node.tree category span children = n at below
      cases body.shown rfl mem below with
      | leaf => cases hn
      | @part d r es category hd hcontains proper named part together =>
        cases hn
        have hne : spanAll (allLexemes es) ≠ none := by
          intro hnone
          have hnil := spanAll_eq_none_iff.mp hnone
          have hnullable := r.nullable_body.symm.trans (part.bounds.nullable hnil)
          exact proper (beq_iff_eq.mp hnullable)
        refine ⟨fun hnone => absurd hnone hne, fun s hs => ?_⟩
        refine ⟨r, es, .child hd hcontains, named, part, rfl, part.spans ?_ ?_ hs⟩
        · exact hlaid.inOrder.1.sublist together.sublist
        · exact fun l hl => hfit l (together.subset hl)

/-- The node of a declaration reaches from the keyword to the brace, neither of which it shows. -/
theorem parseTree_spans_declaration :
    let source := "\n enum E \x7b\n\x7d\n".toList
    let name : Node := .tree .ident (some ⟨7, 8⟩) [Draft.leaf ⟨.ident, ['E'], 7⟩]
    ∃ (tree : Node) (d : Derivation),
      (({} : Ledger).parseTree source).1 = .ok tree ∧ d.nodes = [tree] ∧
      tree.Contains (.tree .declEnum (some ⟨2, 12⟩) [name]) ∧
      ∃ (r : Rule) (es : List Derivation), d.Contains (.node r es) ∧
        r.category? = some .declEnum ∧ r.Spans source (allLexemes es) ⟨2, 12⟩ [name] := by
  intro source name
  let ls : List Lexeme :=
    [⟨.enumWord, "enum".toList, 2⟩, ⟨.ident, ['E'], 7⟩, ⟨.leftBrace, ['{'], 9⟩,
      ⟨.rightBrace, ['}'], 11⟩]
  have htree : (({} : Ledger).parseTree source).1 = .ok (Node.ofLexemes ls) :=
    parseTree_eq_ok_iff.mpr ⟨ls, scan_of_scanWithin (n := 5) (by decide +kernel +zetaReduce), rfl⟩
  have hcontains : (Node.ofLexemes ls).Contains (.tree .declEnum (some ⟨2, 12⟩) [name]) :=
    .child (.head _) (.self _)
  obtain ⟨d, -, -, -, hnodes, -, hspans⟩ := parseTree_spans htree
  obtain ⟨r, es, hes, hcategory, -, -, hr⟩ := (hspans _ _ _ hcontains).2 _ rfl
  exact ⟨_, d, htree, hnodes, hcontains, r, es, hes, hcategory, hr⟩

end DalSchema
