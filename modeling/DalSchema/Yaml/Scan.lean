import DalSchema.Yaml.ScalarText
import DalSchema.Yaml.Token

/-!
# From text to tokens

Outside brackets the structure of a document is its indentation: a collection begins when an item or
a key stands further to the right than the collection around it, and ends when a token stands
further to the left. That a scalar is a key is known only at the colon after it, so the places where
a key could have begun are kept until then.
-/

namespace DalSchema.Yaml

structure PossibleKey where
  depth : Nat
  tokenIndex : Nat
  /-- Whether anything but a key is an error there. -/
  required : Bool
  index : Nat
  line : Nat
  column : Nat

structure Scanner where
  cursor : Cursor
  tokens : List Token := []
  indent : Int := -1
  outer : List Int := []
  depth : Nat := 0
  keyAllowed : Bool := true
  keys : List PossibleKey := []

namespace Scanner

def emit (s : Scanner) (t : Token) : Scanner := { s with tokens := s.tokens ++ [t] }

def insertAt (s : Scanner) (n : Nat) (ts : List Token) : Scanner :=
  { s with tokens := s.tokens.take n ++ ts ++ s.tokens.drop n }

def closeTo (column : Int) : Nat → Scanner → Scanner
  | 0, s => s
  | fuel + 1, s =>
    if column < s.indent then
      match s.outer with
      | [] => ({ s with indent := -1 }).emit .blockEnd
      | indent :: outer => closeTo column fuel (({ s with indent, outer }).emit .blockEnd)
    else s

/-- Inside brackets indentation means nothing. -/
def unwind (s : Scanner) (column : Int) : Scanner :=
  if s.depth == 0 then closeTo column (s.outer.length + 1) s else s

def deepen (s : Scanner) (column : Int) : Option Scanner :=
  if s.indent < column then some { s with indent := column, outer := s.indent :: s.outer } else none

def forgetKey (s : Scanner) : Except Fault Scanner :=
  if s.keys.any fun key => key.depth == s.depth && key.required then .error .malformed
  else .ok { s with keys := s.keys.filter fun key => key.depth != s.depth }

def rememberKey (s : Scanner) : Except Fault Scanner :=
  if s.keyAllowed then do
    let s ← s.forgetKey
    let key : PossibleKey :=
      { depth := s.depth
        tokenIndex := s.tokens.length
        required := s.depth == 0 && s.indent == s.cursor.column
        index := s.cursor.index
        line := s.cursor.line
        column := s.cursor.column }
    return { s with keys := key :: s.keys }
  else .ok s

/-- Forgets the possible keys that are too far away: a key ends on its line and is short. -/
def forgetStaleKeys (s : Scanner) : Except Fault Scanner :=
  let stale (key : PossibleKey) : Bool :=
    key.line != s.cursor.line || 1024 < s.cursor.index - key.index
  if s.keys.any fun key => stale key && key.required then .error .malformed
  else .ok { s with keys := s.keys.filter fun key => !stale key }

/-- Moves over spaces, comments and line breaks. A new line outside brackets may begin with a key.
-/
def skipToToken : Nat → Scanner → Scanner
  | 0, s => s
  | fuel + 1, s =>
    let k := (s.cursor.skip (· == ' ')).skipComment
    match k.lineBreak? with
    | some (_, k) =>
      skipToToken fuel { s with cursor := k, keyAllowed := s.keyAllowed || s.depth == 0 }
    | none => { s with cursor := k }

def atTopLevel (s : Scanner) (t : Token) (after : Cursor) : Except Fault Scanner := do
  let s ← (s.unwind (-1)).forgetKey
  return ({ s with keyAllowed := false, cursor := after }).emit t

def openBracket (s : Scanner) (t : Token) : Except Fault Scanner := do
  let s ← s.rememberKey
  return ({ s with depth := s.depth + 1, keyAllowed := true, cursor := s.cursor.forward }).emit t

def closeBracket (s : Scanner) (t : Token) : Except Fault Scanner := do
  let s ← s.forgetKey
  if s.depth == 0 then throw .malformed
  return ({ s with depth := s.depth - 1, keyAllowed := false, cursor := s.cursor.forward }).emit t

def comma (s : Scanner) : Except Fault Scanner := do
  let s ← ({ s with keyAllowed := true }).forgetKey
  return ({ s with cursor := s.cursor.forward }).emit .comma

def beginHere (s : Scanner) (start : Token) : Except Fault Scanner :=
  if s.depth != 0 then .ok s
  else if !s.keyAllowed then .error .malformed
  else
    match s.deepen s.cursor.column with
    | some deeper => .ok (deeper.emit start)
    | none => .ok s

def item (s : Scanner) : Except Fault Scanner := do
  let s ← s.beginHere .listStart
  let s ← ({ s with keyAllowed := true }).forgetKey
  return ({ s with cursor := s.cursor.forward }).emit .item

def markedKey (s : Scanner) : Except Fault Scanner := do
  let s ← s.beginHere .recordStart
  let s ← ({ s with keyAllowed := s.depth == 0 }).forgetKey
  return ({ s with cursor := s.cursor.forward }).emit .key

/-- At a colon: what began at the possible key of this depth is a key. -/
def colon (s : Scanner) : Except Fault Scanner := do
  let s ← match s.keys.find? fun key => key.depth == s.depth with
    | some key =>
      let s := { s with
        keys := s.keys.filter (fun other => other.depth != s.depth)
        keyAllowed := false }
      match if s.depth == 0 then s.deepen key.column else none with
      | some deeper => pure (deeper.insertAt key.tokenIndex [.recordStart, .key])
      | none => pure (s.insertAt key.tokenIndex [.key])
    | none => do
      let s ← s.beginHere .recordStart
      ({ s with keyAllowed := s.depth == 0 }).forgetKey
  return ({ s with cursor := s.cursor.forward }).emit .value

def keyPart (s : Scanner) (read : Cursor → Except Fault (Token × Cursor)) :
    Except Fault Scanner := do
  let s ← s.rememberKey
  let (token, after) ← read s.cursor
  return ({ s with keyAllowed := false, cursor := after }).emit token

def anchored (mark : String → Token) (k : Cursor) : Except Fault (Token × Cursor) := do
  let (name, k) ← anchorName k.forward
  return (mark name, k)

def quoted (quote : Char) (k : Cursor) : Except Fault (Token × Cursor) := do
  let (text, k) ← quotedFrom quote (k.rest.length + 1) k.forward
  return (.scalar (String.ofList text) false, k)

def plain (s : Scanner) : Except Fault Scanner := do
  let s ← s.rememberKey
  let read := plainScalar (s.depth != 0) (s.indent + 1) s.cursor
  return ({ s with keyAllowed := read.newLine, cursor := read.after }).emit
    (.scalar (String.ofList read.text) true)

def block (s : Scanner) (fold : Bool) : Except Fault Scanner := do
  let s ← ({ s with keyAllowed := true }).forgetKey
  let (text, after) ← blockScalar fold s.indent s.cursor.forward
  return ({ s with cursor := after }).emit (.scalar (String.ofList text) false)

def beginsPlain (flow : Bool) (c : Char) (next : Option Char) : Bool :=
  !(separates (some c) || "-?:,[]\x7b\x7d#&*!|>'\"%@`".toList.contains c) ||
    (!separates next && (c == '-' || (!flow && (c == '?' || c == ':'))))

def token (s : Scanner) (c : Char) : Except Fault Scanner :=
  let k := s.cursor
  let next := k.peekAt 1
  let flow := s.depth != 0
  if k.column == 0 && c == '%' then do
    let (token, after) ← directiveToken k
    s.atTopLevel token after
  else if k.column == 0 && k.seesMark '-' then s.atTopLevel .documentStart (k.advance 3)
  else if k.column == 0 && k.seesMark '.' then s.atTopLevel .documentEnd (k.advance 3)
  else match c with
    | '[' => s.openBracket .openList
    | '\x7b' => s.openBracket .openRecord
    | ']' => s.closeBracket .closeList
    | '\x7d' => s.closeBracket .closeRecord
    | ',' => s.comma
    | '*' => s.keyPart (anchored .alias)
    | '&' => s.keyPart (anchored .anchor)
    | '!' => s.keyPart tagToken
    | '\x27' | '"' => s.keyPart (quoted c)
    | _ =>
      if c == '-' && separates next then s.item
      else if c == '?' && (flow || separates next) then s.markedKey
      else if c == ':' && (flow || separates next) then s.colon
      else if (c == '|' || c == '>') && !flow then s.block (c == '>')
      else if beginsPlain flow c next then s.plain
      else .error .malformed

def step (s : Scanner) : Except Fault (Option Scanner) := do
  let s ← (skipToToken (s.cursor.rest.length + 1) s).forgetStaleKeys
  let s := s.unwind s.cursor.column
  match s.cursor.peek with
  | none => return none
  | some c => return some (← s.token c)

def finish (s : Scanner) : Except Fault Scanner := do
  let s ← (skipToToken (s.cursor.rest.length + 1) s).forgetStaleKeys
  (s.unwind (-1)).forgetKey

/-- Stops at a fault. What may be a key cannot be told before its end, so it is left out. -/
def stopped (s : Scanner) (fault : Fault) : Scanned :=
  let known := s.keys.foldl (fun n key => min n key.tokenIndex) s.tokens.length
  ⟨s.tokens.take known, some fault⟩

/-- The tokens from here on. Each step moves the cursor, so the length of the text bounds them. -/
def run : Nat → Scanner → Scanned
  | 0, s => s.stopped .malformed
  | fuel + 1, s =>
    match s.forgetStaleKeys with
    | .error fault => s.stopped fault
    | .ok s =>
      match s.step with
      | .error fault => s.stopped fault
      | .ok (some s) => run fuel s
      | .ok none =>
        match s.finish with
        | .error fault => s.stopped fault
        | .ok s => ⟨s.tokens, none⟩

end Scanner

def tokens (text : List Char) : Scanned :=
  if text.all isAllowed then
    let k : Cursor := { rest := text }
    let k := if k.sees '\ufeff' then k.forward else k
    Scanner.run (text.length + 1) { cursor := k }
  else ⟨[], some .malformed⟩

end DalSchema.Yaml
