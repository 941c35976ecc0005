import Mathlib.Data.List.Chain
import DalSchema.Tree.Node

/-!
# Spans of trees made by hand

A tree without a span of its own takes the start of its first child and the stop of its last, and so
in the end those of its first and last tip. A tip is a token, or a tree without children, and the
latter has the offsets zero. Hence the span of a tree goes from its first token to its last just if
no such tree stands before or behind them, or the offsets there are zero as well:
`Node.span_eq_of_isBare`.
-/

namespace DalSchema.Node

def isToken : Node → Bool
  | token _ _ _ _ => true
  | tree _ _ _ => false

mutual

/-- Whether no tree in a node has a span of its own. -/
def isBare : Node → Bool
  | token _ _ _ _ => true
  | tree _ span children => span.isNone && allBare children

def allBare : List Node → Bool
  | [] => true
  | n :: rest => n.isBare && allBare rest

end

mutual

/-- The tokens and the trees without children in a node, from left to right. -/
def tips : Node → List Node
  | token category text start stop => [token category text start stop]
  | tree category span children =>
    if children.isEmpty then [tree category span []] else tipsOf children

def tipsOf : List Node → List Node
  | [] => []
  | n :: rest => n.tips ++ tipsOf rest

end

/-- The tokens in a node, from left to right. -/
def tokens (n : Node) : List Node := n.tips.filter isToken

/-- Whether no tree without children stands before the first token. -/
def beginsWithToken (n : Node) : Bool := n.tips.head?.any isToken

/-- Whether no tree without children stands behind the last token. -/
def endsWithToken (n : Node) : Bool := n.tips.getLast?.any isToken

theorem byChildren {motive : Node → Prop}
    (token : ∀ category text start stop, motive (token category text start stop))
    (tree : ∀ category span children, (∀ m ∈ children, motive m) →
      motive (tree category span children)) : ∀ n, motive n
  | .token category text start stop => token category text start stop
  | .tree category span children => tree category span children fun m _ => byChildren token tree m

theorem allBare_iff {ns : List Node} : allBare ns = true ↔ ∀ n ∈ ns, n.isBare = true := by
  induction ns with
  | nil => simp [allBare]
  | cons n rest ih => simp [allBare, ih]

theorem isBare_tree_iff {category : Category} {span : Option Span} {children : List Node} :
    (tree category span children).isBare = true ↔
      span = none ∧ ∀ m ∈ children, m.isBare = true := by
  rw [isBare, Bool.and_eq_true, Option.isNone_iff_eq_none, allBare_iff]

theorem tipsOf_eq (ns : List Node) : tipsOf ns = ns.flatMap tips := by
  induction ns with
  | nil => rfl
  | cons n rest ih => rw [tipsOf, ih, List.flatMap_cons]

theorem tips_tree_of_ne_nil (category : Category) (span : Option Span) {children : List Node}
    (h : children ≠ []) : (tree category span children).tips = children.flatMap tips := by
  rw [tips, if_neg (by simpa using h), tipsOf_eq]

theorem stopOfLast_append (ns : List Node) (n : Node) : stopOfLast (ns ++ [n]) = n.stop := by
  induction ns with
  | nil => rfl
  | cons m rest ih =>
    cases rest with
    | nil => rfl
    | cons _ _ => exact ih

/-- A node starts where its first tip does. -/
theorem head?_tips {n : Node} (h : n.isBare = true) :
    ∃ tip, n.tips.head? = some tip ∧ n.start = tip.start := by
  induction n using byChildren with
  | token => exact ⟨_, rfl, rfl⟩
  | tree category span children ih =>
    obtain ⟨rfl, hchildren⟩ := isBare_tree_iff.mp h
    cases children with
    | nil => exact ⟨_, rfl, rfl⟩
    | cons m rest =>
      obtain ⟨tip, htip, hstart⟩ := ih m List.mem_cons_self (hchildren m List.mem_cons_self)
      refine ⟨tip, ?_, hstart⟩
      rw [tips_tree_of_ne_nil _ _ (List.cons_ne_nil _ _), List.flatMap_cons, List.head?_append,
        htip]
      rfl

/-- A node stops where its last tip does. -/
theorem getLast?_tips {n : Node} (h : n.isBare = true) :
    ∃ tip, n.tips.getLast? = some tip ∧ n.stop = tip.stop := by
  induction n using byChildren with
  | token => exact ⟨_, rfl, rfl⟩
  | tree category span children ih =>
    obtain ⟨rfl, hchildren⟩ := isBare_tree_iff.mp h
    -- The last tip is in the last child, so the children are taken apart from behind.
    rcases List.eq_nil_or_concat' children with rfl | ⟨rest, m, rfl⟩
    · exact ⟨_, rfl, rfl⟩
    · have hm : m ∈ rest ++ [m] := by simp
      obtain ⟨tip, htip, hstop⟩ := ih m hm (hchildren m hm)
      refine ⟨tip, ?_, ?_⟩
      · rw [tips_tree_of_ne_nil _ _ (by simp), List.flatMap_append, List.flatMap_singleton,
          List.getLast?_append, htip]
        rfl
      · rw [stop, stopOfLast_append, hstop]

/-- A tip that is no token has the offsets zero. -/
theorem offsets_of_mem_tips {n tip : Node} (h : n.isBare = true) (htip : tip ∈ n.tips)
    (htoken : tip.isToken = false) : tip.start = 0 ∧ tip.stop = 0 := by
  induction n using byChildren with
  | token =>
    cases List.mem_singleton.mp htip
    cases htoken
  | tree category span children ih =>
    obtain ⟨rfl, hchildren⟩ := isBare_tree_iff.mp h
    by_cases hnil : children = []
    · subst hnil
      cases List.mem_singleton.mp htip
      exact ⟨rfl, rfl⟩
    · rw [tips_tree_of_ne_nil _ _ hnil] at htip
      obtain ⟨m, hm, htip⟩ := List.mem_flatMap.mp htip
      exact ih m hm (hchildren m hm) htip

section

variable {n first last : Node} (h : n.isBare = true)

include h

theorem start_eq (hfirst : n.tokens.head? = some first) :
    n.start = if n.beginsWithToken then first.start else 0 := by
  obtain ⟨tip, htip, hstart⟩ := head?_tips h
  rw [hstart, beginsWithToken, htip, Option.any_some]
  split
  · next htoken =>
    obtain ⟨rest, hrest⟩ := List.head?_eq_some_iff.mp htip
    rw [tokens, hrest, List.filter_cons_of_pos htoken] at hfirst
    rw [Option.some.inj hfirst]
  · next htoken =>
    exact (offsets_of_mem_tips h (List.mem_of_mem_head? htip) (Bool.not_eq_true _ ▸ htoken)).1

theorem stop_eq (hlast : n.tokens.getLast? = some last) :
    n.stop = if n.endsWithToken then last.stop else 0 := by
  obtain ⟨tip, htip, hstop⟩ := getLast?_tips h
  rw [hstop, endsWithToken, htip, Option.any_some]
  split
  · next htoken =>
    obtain ⟨rest, hrest⟩ := List.getLast?_eq_some_iff.mp htip
    rw [tokens, hrest, List.filter_append, List.filter_cons_of_pos htoken, List.filter_nil,
      List.getLast?_append] at hlast
    rw [(Option.some.inj hlast : tip = last)]
  · next htoken =>
    exact (offsets_of_mem_tips h (List.mem_of_getLast? htip) (Bool.not_eq_true _ ▸ htoken)).2

end

/-- Tokens with their spans one after the other, as they are read. -/
structure InOrder (ts : List Node) : Prop where
  start_le : ∀ t ∈ ts, t.start ≤ t.stop
  apart : ts.IsChain fun a b => a.stop ≤ b.start

theorem InOrder.first_le_last {ts : List Node} {first last : Node} (h : InOrder ts)
    (hfirst : ts.head? = some first) (hlast : ts.getLast? = some last) :
    first.start ≤ last.stop := by
  induction ts generalizing first with
  | nil => cases hfirst
  | cons t rest ih =>
    cases hfirst
    have hspan := h.start_le t List.mem_cons_self
    cases rest with
    | nil =>
      cases hlast
      exact hspan
    | cons u rest =>
      rw [List.getLast?_cons_cons] at hlast
      obtain ⟨hnext, hrest⟩ := List.isChain_cons_cons.mp h.apart
      have hlater := ih ⟨fun v hv => h.start_le v (List.mem_cons_of_mem _ hv), hrest⟩ rfl hlast
      exact Int.le_trans hspan (Int.le_trans hnext hlater)

/-- The span of a tree made by hand, by what stands at its two edges. -/
theorem span_eq_of_isBare {n first last : Node} (h : n.isBare = true)
    (hfirst : n.tokens.head? = some first) (hlast : n.tokens.getLast? = some last)
    (horder : InOrder n.tokens) :
    n.span = ⟨if n.beginsWithToken then first.start else 0,
      if n.endsWithToken then last.stop else 0⟩ ∧
    first.start ≤ last.stop ∧
    (n.span = ⟨first.start, last.stop⟩ ↔
      (n.beginsWithToken = true ∨ first.start = 0) ∧
        (n.endsWithToken = true ∨ last.stop = 0)) := by
  have hspan : n.span = ⟨if n.beginsWithToken then first.start else 0,
      if n.endsWithToken then last.stop else 0⟩ := by
    rw [span, start_eq h hfirst, stop_eq h hlast]
  have hedge (b : Bool) (offset : Int) :
      (if b then offset else 0) = offset ↔ b = true ∨ offset = 0 := by
    cases b <;> simp [eq_comm]
  refine ⟨hspan, horder.first_le_last hfirst hlast, ?_⟩
  rw [hspan, Span.mk.injEq]
  exact and_congr (hedge _ _) (hedge _ _)

/-- The tokens of a table `t` with a column `id int`. -/
def tableTokens : List Node :=
  [token (.other "IDENT") "t" (some 6) (some 7), token (.other "IDENT") "id" (some 10) (some 12),
    token (.other "COLUMN_TYPE") "int" (some 13) (some 16)]

/-- The tree of the table, with further nodes behind the type of the column. -/
def tableTree (behind : List Node) : Node :=
  tree .declTable none
    [tree .ident none [token (.other "IDENT") "t" (some 6) (some 7)],
      tree .column none
        (tree .ident none [token (.other "IDENT") "id" (some 10) (some 12)] ::
          tree .columnType none [token (.other "COLUMN_TYPE") "int" (some 13) (some 16)] :: behind)]

theorem inOrder_tableTokens : InOrder tableTokens where
  start_le := by simp [tableTokens, start, stop]
  apart := by simp [tableTokens, start, stop]

theorem span_eq_of_isBare_table :
    (tableTree []).isBare = true ∧ InOrder (tableTree []).tokens ∧
      (tableTree []).span = ⟨6, 16⟩ := by
  have hbare : (tableTree []).isBare = true := rfl
  exact ⟨hbare, inOrder_tableTokens,
    (span_eq_of_isBare hbare rfl rfl inOrder_tableTokens).1⟩

/-- With a mark for null behind it, the type is no longer the last tip, and the table stops before
it starts. -/
theorem span_null_behind :
    let n := tableTree [tree .null none []]
    n.isBare = true ∧ n.tokens = tableTokens ∧ InOrder n.tokens ∧
      (n.tokens.head?.map start, n.tokens.getLast?.map stop) = (some 6, some 16) ∧
      n.span = ⟨6, 0⟩ :=
  ⟨rfl, rfl, inOrder_tableTokens, rfl, rfl⟩

end DalSchema.Node
