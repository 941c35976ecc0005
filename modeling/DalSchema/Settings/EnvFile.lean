import DalSchema.Text.Spacing

/-!
# Variable files

A variable file has a binding on each line: a name, an equals sign and a value, which may stand
between quotes and then go on over several lines. A name alone binds nothing. What cannot be read is
left out to the end of its line. A value may refer to earlier names and to the environment.
-/

namespace DalSchema.EnvFile

/-- A name with its value; a name without a value hides an earlier one. -/
structure Binding where
  name : String
  value : Option String
  deriving Repr, DecidableEq, Inhabited

def isGap (c : Char) : Bool := Text.isSpace c && c != '\n' && c != '\r'

def isLineEnd (c : Char) : Bool := c == '\n' || c == '\r'

def trimEnd (cs : List Char) : List Char := (cs.reverse.dropWhile Text.isSpace).reverse

/-! ## Values -/

/-- Reads to the closing quote. A quote after a backslash does not close the value, unless no other
one does. -/
def toQuote (quote : Char) : List Char → Option (List Char × List Char)
  | [] => none
  | '\\' :: c :: rest =>
    if c == quote then
      match toQuote quote rest with
      | some (text, after) => some ('\\' :: c :: text, after)
      | none => some (['\\'], rest)
    else (toQuote quote (c :: rest)).map fun (text, after) => ('\\' :: text, after)
  | c :: rest =>
    if c == quote then some ([], rest)
    else (toQuote quote rest).map fun (text, after) => (c :: text, after)

def singleEscape : Char → Option Char
  | '\\' => some '\\'
  | '\x27' => some '\x27'
  | _ => none

def doubleEscape : Char → Option Char
  | '\\' => some '\\'
  | '\x27' => some '\x27'
  | '"' => some '"'
  | 'a' => some '\x07'
  | 'b' => some '\x08'
  | 'f' => some '\x0c'
  | 'n' => some '\n'
  | 'r' => some '\r'
  | 't' => some '\t'
  | 'v' => some '\x0b'
  | _ => none

def unescape (escape : Char → Option Char) : List Char → List Char
  | [] => []
  | '\\' :: c :: rest =>
    match escape c with
    | some e => e :: unescape escape rest
    | none => '\\' :: unescape escape (c :: rest)
  | c :: rest => c :: unescape escape rest

def cutComment (afterSpace : Bool) : List Char → List Char
  | [] => []
  | c :: rest =>
    if c == '#' && afterSpace then [] else c :: cutComment (Text.isSpace c) rest

def value? : List Char → Option (List Char × List Char)
  | '\x27' :: rest =>
    (toQuote '\x27' rest).map fun (text, after) => (unescape singleEscape text, after)
  | '"' :: rest => (toQuote '"' rest).map fun (text, after) => (unescape doubleEscape text, after)
  | cs =>
    let line := cs.takeWhile (!isLineEnd ·)
    some (trimEnd (cutComment false line), cs.dropWhile (!isLineEnd ·))

/-! ## Bindings -/

def dropExport (cs : List Char) : List Char :=
  if cs.take 6 == "export".toList && (cs.drop 6).head?.any isGap then (cs.drop 6).dropWhile isGap
  else cs

def name? : List Char → Except (List Char) (Option (List Char) × List Char)
  | '#' :: rest => .ok (none, '#' :: rest)
  | '\x27' :: rest =>
    let name := rest.takeWhile (· != '\x27')
    match rest.dropWhile (· != '\x27') with
    | _ :: after => if name.isEmpty then .error ('\x27' :: rest) else .ok (some name, after)
    | [] => .error ('\x27' :: rest)
  | cs =>
    let inName (c : Char) : Bool := c != '=' && c != '#' && !Text.isSpace c
    let name := cs.takeWhile inName
    if name.isEmpty then .error cs else .ok (some name, cs.dropWhile inName)

def lineEnd? (cs : List Char) : Except (List Char) (List Char) :=
  let cs := match cs.dropWhile isGap with
    | '#' :: rest => rest.dropWhile (!isLineEnd ·)
    | _ => cs
  match cs.dropWhile isGap with
  | [] => .ok []
  | c :: rest => if isLineEnd c then .ok rest else .error cs

/-- Reads one binding, or the comment or end in its place. The error is the rest from where the text
could not be read. -/
def binding? (cs : List Char) : Except (List Char) (Option Binding × List Char) := do
  match cs.dropWhile Text.isSpace with
  | [] => return (none, [])
  | cs =>
    let (name, cs) ← name? (dropExport cs)
    let (value, cs) ← match cs.dropWhile isGap with
      | '=' :: rest =>
        let rest := rest.dropWhile isGap
        match value? rest with
        | some (text, after) => pure (some (String.ofList text), after)
        | none => throw rest
      | cs => pure (none, cs)
    let cs ← lineEnd? cs
    return (name.map fun n => ⟨String.ofList n, value⟩, cs)

def nextLine (cs : List Char) : List Char := (cs.dropWhile (!isLineEnd ·)).drop 1

structure Contents where
  bindings : List Binding := []
  broken : List Nat := []
  deriving Repr, DecidableEq, Inhabited

/-- Reads bindings from a line on. Each step moves on, so the length of the text bounds them. -/
def contentsFrom : Nat → Nat → List Char → Contents
  | 0, _, _ => {}
  | fuel + 1, line, cs =>
    if cs.isEmpty then {}
    else
      let lineAfter (rest : List Char) : Nat :=
        line + (cs.count '\n' - rest.count '\n')
      match binding? cs with
      | .ok (found, rest) =>
        let more := contentsFrom fuel (lineAfter rest) rest
        { more with bindings := found.toList ++ more.bindings }
      | .error stuck =>
        let rest := nextLine stuck
        let more := contentsFrom fuel (lineAfter rest) rest
        { more with broken := line :: more.broken }

def contents (text : List Char) : Contents := contentsFrom (text.length + 1) 1 text

/-! ## References -/

def assign (b : Binding) : List Binding → List Binding
  | [] => [b]
  | old :: rest => if old.name == b.name then b :: rest else old :: assign b rest

/-- A reference at the start of a text: its name, what stands for a name that is not set, and the
rest. -/
def reference? : List Char → Option (String × String × List Char)
  | '$' :: '\x7b' :: cs =>
    let stops (c : Char) : Bool := c == '\x7d' || c == ':'
    let name := String.ofList (cs.takeWhile (!stops ·))
    match cs.dropWhile (!stops ·) with
    | '\x7d' :: rest => some (name, "", rest)
    | ':' :: '-' :: rest =>
      match rest.dropWhile (· != '\x7d') with
      | _ :: after => some (name, String.ofList (rest.takeWhile (· != '\x7d')), after)
      | [] => none
    | _ => none
  | _ => none

def meaning (environment : List (String × String)) (earlier : List Binding)
    (name fallback : String) : String :=
  match earlier.find? fun b => b.name == name with
  | some b => b.value.getD ""
  | none => (environment.lookup name).getD fallback

def expand (meaning : String → String → String) : Nat → List Char → List Char
  | 0, _ => []
  | fuel + 1, cs =>
    match reference? cs, cs with
    | some (name, fallback, rest), _ => (meaning name fallback).toList ++ expand meaning fuel rest
    | none, [] => []
    | none, c :: rest => c :: expand meaning fuel rest

def resolve (environment : List (String × String)) (bindings : List Binding) : List Binding :=
  bindings.foldl
    (fun earlier b =>
      let value := b.value.map fun text =>
        String.ofList (expand (meaning environment earlier) (text.toList.length + 1) text.toList)
      assign { b with value } earlier)
    []

end DalSchema.EnvFile
