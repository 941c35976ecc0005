import DalSchema.Proofs.Completing
import DalSchema.Proofs.Following

/-!
# Texts one after the other

Two schema texts can be put together with a line feed between them, and the declarations of the one
then come before those of the other: `parse_append`. Two things can go wrong where the first text
ends. Behind a comment the second text would be read at another place than at its own beginning. And
a quote that is open at the end of the first text may be closed in the second. The statement
excludes just these.
-/

namespace DalSchema

open Lexeme

/-- The last node at the top of the tree, if there is any, is a declaration. -/
def Node.EndsDeclaring (tree : Node) : Prop :=
  ∀ ds, tree.children = .ok ds → ∀ d ∈ ds.getLast?,
    d.category = .declEnum ∨ d.category = .declTable

/-- Every default value of the text that begins with a quote is a quoted one. -/
def QuotesClosed (source : List Char) : Prop :=
  ∀ ls, lexemes source = .ok ls → ∀ l ∈ ls, l.terminal = .defaultValue →
    ∀ quote ∈ l.text.head?, IsQuote quote → l.text ∈ Pattern.quoted quote

namespace Written

theorem schema_append (parts others : List Part) :
    schema (parts ++ others) = ⟨(schema parts).items ++ (schema others).items⟩ := by
  rw [schema, List.filterMap_append]
  rfl

/-- Behind a declaration a text goes on as it begins. -/
theorem follow_of_endsDeclaring {parts : List Part}
    (h : (Node.ofLexemes (lexemes parts)).EndsDeclaring) :
    (Place.top false).follow (lexemes parts) = some (.top false) := by
  rcases List.eq_nil_or_concat' parts with rfl | ⟨before, last, rfl⟩
  · rfl
  · obtain ⟨flag, hbefore⟩ := follow_parts before false
    rw [ofLexemes_lexemes] at h
    have hcategory := h _ rfl last.node (by simp)
    cases last with
    | comment w => rcases hcategory with h | h <;> cases h
    | declaration kind d =>
      have hlast : lexemes (before ++ [.declaration kind d]) = lexemes before ++ d.lexemes := by
        simp [lexemes, Part.lexemes]
      rw [hlast, Place.follow_append, hbefore, Option.bind_some, follow_declaration]

end Written

theorem reaches_of_lexemes {source : List Char} {ls : List Lexeme} {q : Place}
    (h : lexemes source = .ok ls) (hq : (Place.top false).follow ls = some q) :
    Reaches source source.length ls q := by
  obtain ⟨⟨place, offset, rest⟩, hreads, _, hblank⟩ := lexemes_eq_ok_iff.mp h
  have hplace : place = q := Option.some.inj (hreads.follow.symm.trans hq)
  subst hplace
  exact ⟨offset, rest, rest, hreads, hblank, List.prefix_rfl, by simpa using hreads.length_eq⟩

/-- A quoted default value stays what it is, and one without a quote cannot become quoted. -/
theorem QuotesClosed.unquoted_drop {source : List Char} (h : QuotesClosed source)
    {ls : List Lexeme} (hls : lexemes source = .ok ls) (tail : List Char) {l : Lexeme}
    (hl : l ∈ ls) (hterminal : l.terminal = .defaultValue)
    (hopen : Unquoted (source.drop l.start)) : Unquoted ((source ++ tail).drop l.start) := by
  obtain ⟨b, hreads, _⟩ := lexemes_eq_ok_iff.mp hls
  obtain ⟨rest, hrest⟩ := hreads.text_isPrefix rfl l hl
  obtain ⟨c, text, htext, _⟩ := Terminal.begins_of_mem (hreads.mem_language l hl)
  have hle : l.start ≤ source.length := by
    have hstart := (hreads.offsets.2 l hl).2
    have hlength : b.offset + b.rest.length = source.length := by simpa using hreads.length_eq
    omega
  have hnot : ¬IsQuote c := by
    intro hquote
    have hquoted := h ls hls l hl hterminal c (by simp [htext]) hquote
    have hsome := (quoted?_eq_some_iff hquote.ne_backslash).mpr ⟨hrest.symm, hquoted⟩
    rw [hopen c hquote] at hsome
    cases hsome
  refine unquoted_of_first ?_
  rw [List.drop_append_of_le_length hle, ← hrest, htext]
  rintro d ⟨⟩
  exact hnot

theorem lexemes_append {a b : List Char} {ls ms : List Lexeme} (ha : lexemes a = .ok ls)
    (hb : lexemes b = .ok ms) (hfollow : (Place.top false).follow ls = some (.top false))
    (hquotes : QuotesClosed a) :
    lexemes (a ++ '\n' :: b) = .ok (ls ++ ms.map (Lexeme.shift (a.length + 1))) := by
  have hreaches := reaches_of_lexemes ha hfollow
  have hline : OnNewLine ('\n' :: b) := by
    rintro c ⟨⟩
    rfl
  have hsecond := (lexemes_eq_ok_iff.mp hb).shift (a.length + 1)
  rw [Reader.shift, Nat.zero_add] at hsecond
  have hgap : Text.Blank ['\n'] := by simp [Text.Blank, Text.isBlank]
  have htail : Reader.Completes ⟨.top false, a.length, ['\n'] ++ b⟩ _ :=
    (Reader.completes_append_iff hgap).mpr hsecond
  have hwhole : a.take a.length = a := List.take_length
  have happend := (hreaches.lexemes_take_append_iff hline ?_).mpr ⟨_, rfl, htail⟩
  · rwa [hwhole] at happend
  · intro l hl hterminal
    rw [hwhole]
    exact hquotes.unquoted_drop ha _ hl hterminal

/-- A text behind another one that ends with a declaration and leaves no quote open adds its
declarations to those of the first. -/
theorem parse_append {ledger ledger₁ ledger₂ : Ledger} {a b : List Char} {schema other : Schema}
    (ha : (ledger₁.parse a).1 = .ok schema) (hb : (ledger₂.parse b).1 = .ok other) {tree : Node}
    (htree : (ledger₁.parseTree a).1 = .ok tree) (hlast : tree.EndsDeclaring)
    (hquotes : QuotesClosed a) :
    ledger.parse (a ++ '\n' :: b) = (.ok ⟨schema.items ++ other.items⟩, ledger) := by
  obtain ⟨_, parts, hls, hnone, rfl⟩ := Ledger.parse_eq_ok_iff.mp (Prod.ext ha rfl)
  obtain ⟨_, others, hms, hnone', rfl⟩ := Ledger.parse_eq_ok_iff.mp (Prod.ext hb rfl)
  obtain ⟨_, hfound, rfl⟩ := parseTree_eq_ok_iff.mp htree
  rw [hls] at hfound
  cases hfound
  have hlexemes := lexemes_append hls hms (Written.follow_of_endsDeclaring hlast) hquotes
  have hparts : Written.lexemes (parts ++ others) =
      Written.lexemes parts ++ Written.lexemes others := List.flatMap_append
  rw [← Written.schema_append]
  refine ledger.parse_of_tokens hlexemes ?_ ?_
  · rw [hparts]
    simp [Lexeme.token, Lexeme.shift]
  · rw [hparts, actionFault?_append, hnone, hnone']
    rfl

/-- A quoted default value over two lines, and behind it a text with a quote of its own. -/
theorem parse_append_quotes :
    let a := "table t\x7ba b[default:'\n//']\x7d".toList
    let b := "// '\nenum table\x7benum\x7d".toList
    let column : Column := ⟨"a", .raw "b", false, .raw "'\n//'"⟩
    let t : TableDecl := { name := "t", columns := [column] }
    let e : EnumDecl := { name := "table", variants := ["enum"] }
    (({} : Ledger).parse a).1 = .ok ⟨[.table t]⟩ ∧ (({} : Ledger).parse b).1 = .ok ⟨[.enum e]⟩ ∧
      (∃ tree, (({} : Ledger).parseTree a).1 = .ok tree ∧ tree.EndsDeclaring) ∧ QuotesClosed a ∧
      ({} : Ledger).parse (a ++ '\n' :: b) = (.ok ⟨[.table t, .enum e]⟩, {}) := by
  intro a b column t e
  let ls : List Lexeme :=
    [⟨.tableWord, "table".toList, 0⟩, ⟨.ident, ['t'], 6⟩, ⟨.leftBrace, ['{'], 7⟩,
      ⟨.ident, ['a'], 8⟩, ⟨.columnType, ['b'], 10⟩, ⟨.leftBracket, ['['], 11⟩,
      ⟨.defaultWord, "default".toList, 12⟩, ⟨.colon, [':'], 19⟩,
      ⟨.defaultValue, "'\n//'".toList, 20⟩, ⟨.rightBracket, [']'], 25⟩, ⟨.rightBrace, ['}'], 26⟩]
  let ms : List Lexeme :=
    [⟨.comment, "// '".toList, 0⟩, ⟨.enumWord, "enum".toList, 5⟩, ⟨.ident, "table".toList, 10⟩,
      ⟨.leftBrace, ['{'], 15⟩, ⟨.ident, "enum".toList, 16⟩, ⟨.rightBrace, ['}'], 20⟩]
  have hls : lexemes a = .ok ls := scan_of_scanWithin (n := 12) (by decide +kernel +zetaReduce)
  have hms : lexemes b = .ok ms := scan_of_scanWithin (n := 7) (by decide +kernel +zetaReduce)
  have ha : (({} : Ledger).parse a).1 = .ok ⟨[.table t]⟩ := by
    rw [Ledger.parse, Reading.ofSource_of_ok hls]
    decide +kernel +zetaReduce
  have hb : (({} : Ledger).parse b).1 = .ok ⟨[.enum e]⟩ := by
    rw [Ledger.parse, Reading.ofSource_of_ok hms]
    decide +kernel +zetaReduce
  have htree : (({} : Ledger).parseTree a).1 = .ok (Node.ofLexemes ls) :=
    parseTree_eq_ok_iff.mpr ⟨ls, hls, rfl⟩
  have hlast : (Node.ofLexemes ls).EndsDeclaring := by
    intro ds hds d hd
    have hcategory : (ls.foldl Draft.push .empty).items.reverse.getLast?.map Node.category =
        some .declTable := by decide +kernel +zetaReduce
    rw [Except.ok.inj hds, Option.mem_def.mp hd] at hcategory
    exact .inr (Option.some.inj hcategory)
  have hquotes : QuotesClosed a := by
    intro found hfound l hl hterminal quote hquote _
    rw [hls] at hfound
    cases hfound
    have hdefault : ∀ m ∈ ls, m.terminal = .defaultValue → m.text = "'\n//'".toList := by
      decide +kernel +zetaReduce
    rw [hdefault l hl hterminal] at hquote ⊢
    cases hquote
    have hquoted : quoted? '\x27' "'\n//'".toList = some ("'\n//'".toList, []) := by
      decide +kernel
    exact ((quoted?_eq_some_iff (by decide)).mp hquoted).2
  exact ⟨ha, hb, ⟨_, htree, hlast⟩, hquotes, parse_append ha hb htree hlast hquotes⟩

end DalSchema
