import DalSchema.Value.Numeral
import DalSchema.Yaml.Cursor

/-!
# Tokens

The marks and scalars of a document. The start and the end of an indented collection are tokens too,
although nothing is written for them.
-/

namespace DalSchema.Yaml

inductive Directive where
  | version (major : Nat)
  | tag (handle lead : String)
  | other
  deriving Repr, DecidableEq, Inhabited

inductive Token where
  | directive (d : Directive)
  | documentStart
  | documentEnd
  | listStart
  | recordStart
  | blockEnd
  | openList
  | closeList
  | openRecord
  | closeRecord
  /-- The mark before an item of an indented list. -/
  | item
  | comma
  | key
  | value
  | alias (name : String)
  | anchor (name : String)
  | tag (handle : Option String) (suffix : String)
  | scalar (text : String) (plain : Bool)
  deriving Repr, DecidableEq, Inhabited

/-- The tokens of a text, and what is wrong with the text where they stop. -/
structure Scanned where
  tokens : List Token
  fault : Option Fault := none
  deriving Repr, DecidableEq, Inhabited

def isNameChar (c : Char) : Bool := c.isAlphanum || c == '-' || c == '_'

def isTagChar (c : Char) : Bool := c.isAlphanum || "-;/?:@&=+$,_.!~*'()[]".toList.contains c

def anchorName (k : Cursor) : Except Fault (String × Cursor) :=
  let name := k.run isNameChar
  let k := k.skip isNameChar
  let closed := match k.peek with
    | none => true
    | some c => separates (some c) || "?:,]\x7d%@`".toList.contains c
  if name.isEmpty || !closed then .error .malformed else .ok (String.ofList name, k)

def escapedBytes : Nat → Cursor → Except Fault (List UInt8 × Cursor)
  | 0, _ => .error .malformed
  | fuel + 1, k =>
    if k.sees '%' then
      match (k.peekAt 1).bind Numeral.digitValue?, (k.peekAt 2).bind Numeral.digitValue? with
      | some m, some n => do
        let (bytes, k) ← escapedBytes fuel (k.advance 3)
        return (UInt8.ofNat (m * 16 + n) :: bytes, k)
      | _, _ => .error .malformed
    else .ok ([], k)

/-- Reads the characters of a tag. Escaped bytes have to be those of characters. -/
def tagText : Nat → Cursor → Except Fault (List Char × Cursor)
  | 0, _ => .error .malformed
  | fuel + 1, k =>
    match k.peek with
    | some '%' => do
      let (bytes, k) ← escapedBytes (k.rest.length + 1) k
      match String.fromUTF8? ⟨bytes.toArray⟩ with
      | none => throw .malformed
      | some escaped =>
        let (text, k) ← tagText fuel k
        return (escaped.toList ++ text, k)
    | some c =>
      if isTagChar c then do
        let (text, k) ← tagText fuel k.forward
        return (c :: text, k)
      else .ok ([], k)
    | none => .ok ([], k)

def tagSuffix (k : Cursor) : Except Fault (String × Cursor) := do
  let (text, k) ← tagText (k.rest.length + 1) k
  if text.isEmpty then throw .malformed
  return (String.ofList text, k)

/-- Reads a tag handle: one mark, or a name between two. -/
def tagHandle (k : Cursor) : Except Fault (String × Cursor) :=
  if !k.sees '!' then .error .malformed
  else
    let name := k.forward.run isNameChar
    let after := k.forward.skip isNameChar
    if after.sees '!' then .ok (String.ofList ('!' :: name ++ ['!']), after.forward)
    else if name.isEmpty && after.sees ' ' then .ok ("!", after)
    else .error .malformed

def tagToken (k : Cursor) : Except Fault (Token × Cursor) := do
  let (token, k) ←
    if k.peekAt 1 == some '<' then do
      let (suffix, k) ← tagSuffix (k.advance 2)
      if !k.sees '>' then throw .malformed
      pure (Token.tag none suffix, k.forward)
    else if separates (k.peekAt 1) then pure (Token.tag none "!", k.forward)
    else
      let word := k.forward.run fun c => c != ' ' && !isBreak c
      let (handle, k) ← if word.contains '!' then tagHandle k else pure ("!", k.forward)
      let (suffix, k) ← tagSuffix k
      pure (Token.tag (some handle) suffix, k)
  if !endsWord k.peek then throw .malformed
  return (token, k)

def decimalNumber (k : Cursor) : Except Fault (Nat × Cursor) :=
  let digits := k.run Char.isDigit
  if digits.isEmpty then .error .malformed
  else .ok (digits.foldl (fun n c => n * 10 + (c.toNat - '0'.toNat)) 0, k.skip Char.isDigit)

def directiveToken (k : Cursor) : Except Fault (Token × Cursor) := do
  let k := k.forward
  let name := k.run isNameChar
  let k := k.skip isNameChar
  if name.isEmpty || !endsWord k.peek then throw .malformed
  let (directive, k) ← match String.ofList name with
    | "YAML" => do
      let (major, k) ← decimalNumber (k.skip (· == ' '))
      if !k.sees '.' then throw .malformed
      let (_, k) ← decimalNumber k.forward
      if !endsWord k.peek then throw .malformed
      pure (Directive.version major, k)
    | "TAG" => do
      let (handle, k) ← tagHandle (k.skip (· == ' '))
      if !k.sees ' ' then throw .malformed
      let (lead, k) ← tagSuffix (k.skip (· == ' '))
      if !endsWord k.peek then throw .malformed
      pure (Directive.tag handle lead, k)
    | _ => pure (Directive.other, k.skip fun c => !isBreak c)
  let k := (k.skip (· == ' ')).skipComment
  if !endsLine k.peek then throw .malformed
  return (.directive directive, k.skipBreak)

end DalSchema.Yaml
