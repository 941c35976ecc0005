import DalSchema.Value.Numeral
import DalSchema.Yaml.Cursor

/-!
# The text of scalars

A scalar is written between quotes, plainly, or as an indented block. A line break inside a quoted
or a plain scalar is read as a space, and each empty line after it as a line feed.
-/

namespace DalSchema.Yaml

abbrev Read := List Char × Cursor

def folded (first : Char) (breaks : List Char) : List Char :=
  if first != '\n' then first :: breaks else if breaks.isEmpty then [' '] else breaks

/-! ## Quoted -/

def quotedBreaks : Nat → Cursor → Except Fault Read
  | 0, _ => .error .malformed
  | fuel + 1, k =>
    if k.seesDocumentMark then .error .malformed
    else
      let k := k.skip isBlankOrTab
      match k.lineBreak? with
      | none => .ok ([], k)
      | some (c, k) => do
        let (breaks, k) ← quotedBreaks fuel k
        return (c :: breaks, k)

def escapeOf : Char → Option Char
  | '0' => some '\x00'
  | 'a' => some '\x07'
  | 'b' => some '\x08'
  | 't' | '\t' => some '\t'
  | 'n' => some '\n'
  | 'v' => some '\x0b'
  | 'f' => some '\x0c'
  | 'r' => some '\r'
  | 'e' => some '\x1b'
  | ' ' => some ' '
  | '"' => some '"'
  | '\\' => some '\\'
  | '/' => some '/'
  | 'N' => some '\x85'
  | '_' => some '\xa0'
  | 'L' => some '\u2028'
  | 'P' => some '\u2029'
  | _ => none

def codeLength : Char → Option Nat
  | 'x' => some 2
  | 'u' => some 4
  | 'U' => some 8
  | _ => none

def escape (k : Cursor) : Except Fault Read :=
  match k.peek with
  | none => .error .malformed
  | some c =>
    match escapeOf c, codeLength c with
    | some e, _ => .ok ([e], k.forward)
    | none, some n =>
      let digits := k.forward.rest.take n
      if digits.length == n && digits.all fun d => (Numeral.digitValue? d).isSome then
        let code := Numeral.value 16 digits
        if code ≤ 0x10ffff then .ok ([Char.ofNat code], k.forward.advance n)
        else .error (if code < 0x80000000 then .outOfRange else .tooLarge)
      else .error .malformed
    | none, none =>
      match k.lineBreak? with
      | some (_, k) => quotedBreaks (k.rest.length + 1) k
      | none => .error .malformed

def quotedSpace (k : Cursor) : Except Fault Read :=
  let blanks := k.run isBlankOrTab
  let k := k.skip isBlankOrTab
  match k.peek, k.lineBreak? with
  | none, _ => .error .malformed
  | some _, none => .ok (blanks, k)
  | some _, some (c, k) => do
    let (breaks, k) ← quotedBreaks (k.rest.length + 1) k
    return (folded c breaks, k)

/-- Reads on to the closing quote. A single quote is doubled between single quotes; only between
double quotes does a backslash escape. -/
def quotedFrom (quote : Char) : Nat → Cursor → Except Fault Read
  | 0, _ => .error .malformed
  | fuel + 1, k =>
    match k.peek with
    | none => .error .malformed
    | some c =>
      if c == quote then
        if quote == '\x27' && k.peekAt 1 == some quote then do
          let (text, k) ← quotedFrom quote fuel (k.advance 2)
          return (quote :: text, k)
        else .ok ([], k.forward)
      else do
        let (part, k) ←
          if quote == '"' && c == '\\' then escape k.forward
          else if separates (some c) then quotedSpace k
          else .ok ([c], k.forward)
        let (text, k) ← quotedFrom quote fuel k
        return (part ++ text, k)

/-! ## Plain -/

def isFlowMark (c : Char) : Bool := c == ',' || c == '[' || c == ']' || c == '\x7b' || c == '\x7d'

/-- The part of a plain scalar that stands on one line and holds no blank. A colon belongs to it
unless what follows shows that it ends a key. -/
def plainWord (flow : Bool) : List Char → List Char
  | [] => []
  | c :: rest =>
    if separates (some c) || (flow && (isFlowMark c || c == '?')) ||
        (c == ':' && (separates rest.head? || (flow && rest.head?.any isFlowMark)))
    then []
    else c :: plainWord flow rest

def plainBreaks : Nat → Cursor → Option (List Char) × Cursor
  | 0, k => (none, k)
  | fuel + 1, k =>
    if k.seesDocumentMark then (none, k)
    else
      let k := k.skip (· == ' ')
      match k.lineBreak? with
      | none => (some [], k)
      | some (c, k) =>
        let (breaks, k) := plainBreaks fuel k
        (breaks.map (c :: ·), k)

/-- What stands between two words of a plain scalar, where the next word would begin, and whether a
line ended on the way. -/
structure PlainGap where
  text : List Char
  after : Cursor
  newLine : Bool

def plainGap (k : Cursor) : PlainGap :=
  let blanks := k.run (· == ' ')
  let k := k.skip (· == ' ')
  match k.lineBreak? with
  | none => ⟨blanks, k, false⟩
  | some (c, k) =>
    match plainBreaks (k.rest.length + 1) k with
    | (none, k) => ⟨[], k, true⟩
    | (some breaks, k) => ⟨folded c breaks, k, true⟩

/-- Reads words as long as they belong to the scalar: a word on a later line must be indented by at
least `indent`. -/
def plainFrom (flow : Bool) (indent : Int) : Nat → PlainGap → PlainGap
  | 0, gap => ⟨[], gap.after, gap.newLine⟩
  | fuel + 1, gap =>
    let word := plainWord flow gap.after.rest
    if gap.after.sees '#' || word.isEmpty then ⟨[], gap.after, gap.newLine⟩
    else
      let next := plainGap (gap.after.advance word.length)
      let stop := next.text.isEmpty || (!flow && next.after.column < indent)
      let more := if stop then ⟨[], next.after, next.newLine⟩ else plainFrom flow indent fuel next
      ⟨gap.text ++ word ++ more.text, more.after, more.newLine⟩

def plainScalar (flow : Bool) (indent : Int) (k : Cursor) : PlainGap :=
  plainFrom flow indent (k.rest.length + 1) ⟨[], k, false⟩

/-! ## Block -/

inductive Chomping where
  | strip | clip | keep
  deriving Repr, DecidableEq, Inhabited

def Chomping.ofMark? : Char → Option Chomping
  | '-' => some .strip
  | '+' => some .keep
  | _ => none

structure BlockHeader where
  chomping : Chomping := .clip
  indent : Option Nat := none

def blockIndent (k : Cursor) : Except Fault (Option Nat × Cursor) :=
  match k.peek with
  | some c =>
    if '1' ≤ c && c ≤ '9' then .ok (Numeral.digitValue? c, k.forward)
    else if c == '0' then .error .malformed
    else .ok (none, k)
  | none => .ok (none, k)

def blockChomping (k : Cursor) : Option Chomping × Cursor :=
  match k.peek.bind Chomping.ofMark? with
  | some chomping => (some chomping, k.forward)
  | none => (none, k)

def blockHeader (k : Cursor) : Except Fault (BlockHeader × Cursor) := do
  let (early, k) := blockChomping k
  let (indent, k) ← blockIndent k
  let (late, k) := if early.isSome || indent.isNone then (none, k) else blockChomping k
  if !endsWord k.peek then throw .malformed
  let k := (k.skip (· == ' ')).skipComment
  if !endsLine k.peek then throw .malformed
  return (⟨(early <|> late).getD .clip, indent⟩, k.skipBreak)

def toColumn (indent : Nat) : Nat → Cursor → Cursor
  | 0, k => k
  | fuel + 1, k => if k.column < indent && k.sees ' ' then toColumn indent fuel k.forward else k

def blockBreaks (indent : Nat) : Nat → Cursor → Read
  | 0, k => ([], k)
  | fuel + 1, k =>
    let k := toColumn indent indent k
    match k.lineBreak? with
    | none => ([], k)
    | some (c, k) =>
      let (breaks, k) := blockBreaks indent fuel k
      (c :: breaks, k)

/-- The breaks of the empty lines before the first line of a block, the deepest column reached on
the way, and the place after them. -/
def blockLead : Nat → Nat → Cursor → List Char × Nat × Cursor
  | 0, deepest, k => ([], deepest, k)
  | fuel + 1, deepest, k =>
    let k := k.skip (· == ' ')
    let deepest := max deepest k.column
    match k.lineBreak? with
    | none => ([], deepest, k)
    | some (c, k) =>
      let (breaks, deepest, k) := blockLead fuel deepest k
      (c :: breaks, deepest, k)

/-- The lines of a block, from one whose text begins here. `breaks` are the empty lines before it.
-/
def blockLines (fold : Bool) (chomping : Chomping) (indent : Nat) :
    Nat → List Char → Cursor → Read
  | 0, _, k => ([], k)
  | fuel + 1, breaks, k =>
    let line := k.run fun c => !isBreak c
    let flush := !k.peek.any isBlankOrTab
    let k := k.skip fun c => !isBreak c
    let (ending, k) := match k.lineBreak? with
      | some (c, k) => ([c], k)
      | none => ([], k)
    let (after, k) := blockBreaks indent (k.rest.length + 1) k
    if k.column == indent && k.peek.isSome then
      let joint :=
        if fold && ending == ['\n'] && flush && !k.peek.any isBlankOrTab then
          if after.isEmpty then [' '] else []
        else ending
      let (text, k) := blockLines fold chomping indent fuel after k
      (breaks ++ line ++ joint ++ text, k)
    else
      let tail := match chomping with
        | .strip => []
        | .clip => ending
        | .keep => ending ++ after
      (breaks ++ line ++ tail, k)

def blockScalar (fold : Bool) (parent : Int) (k : Cursor) : Except Fault Read := do
  let (header, k) ← blockHeader k
  let least := (max 1 (parent + 1)).toNat
  let (breaks, indent, k) := match header.indent with
    | some n =>
      let indent := least + n - 1
      let (breaks, k) := blockBreaks indent (k.rest.length + 1) k
      (breaks, indent, k)
    | none =>
      let (breaks, deepest, k) := blockLead (k.rest.length + 1) 0 k
      (breaks, max least deepest, k)
  if k.column == indent && k.peek.isSome then
    return blockLines fold header.chomping indent (k.rest.length + 1) breaks k
  else
    return (if header.chomping == .keep then breaks else [], k)

end DalSchema.Yaml
