import DalSchema.Command.Argument
import DalSchema.Text.Digits
import DalSchema.Text.Quoted

/-!
# Reading a command line

First every word is told apart on its own: a word that names an argument, one that looks like a name
but is none, and one that is a value. A long name may be shortened as long as only one argument is
meant, and a value may be joined to a name. Then the words are taken in order; an argument that
wants a value takes the next word, which has to be one. What nothing takes is refused at the end.
-/

namespace DalSchema.Command

inductive Word where
  | value (text : String)
  | separator
  /-- A word that looks like a name and is none. -/
  | unknown (text : String)
  /-- A name, whether it is a short one, and the value joined to it. -/
  | name (argument : Argument) (short : Bool) (joined : Option (List Char))
  deriving Repr, DecidableEq, Inhabited

inductive Stop where
  | help
  | refused (message : String)
  deriving Repr, DecidableEq, Inhabited

def Word.isShortName (name : String) : Bool := name.length == 2 && name != "--"

def splitEquals (cs : List Char) : String × Option (List Char) :=
  let name := String.ofList (cs.takeWhile (· != '='))
  match cs.dropWhile (· != '=') with
  | [] => (name, none)
  | _ :: text => (name, some text)

def isNumber (cs : List Char) : Bool :=
  match cs.dropWhile Text.isDecimal with
  | [] => !cs.isEmpty
  | '.' :: fraction => !fraction.isEmpty && fraction.all Text.isDecimal
  | _ => false

def isNegativeNumber : List Char → Bool
  | '-' :: cs => isNumber (if cs.getLast? == some '\n' then cs.dropLast else cs)
  | _ => false

/-- The names that a word may be meant for: long ones that it begins, or the short one it begins
with. -/
def candidates (cs : List Char) : List (String × Word) :=
  match cs with
  | '-' :: '-' :: _ =>
    let (start, joined) := splitEquals cs
    Argument.table.filterMap fun (name, a) =>
      if start.toList.isPrefixOf name.toList then some (name, .name a false joined) else none
  | '-' :: c :: rest =>
    let short := String.ofList ['-', c]
    (Argument.ofName? short).toList.map fun a => (short, .name a true (some rest))
  | _ => []

def Word.ofDashed (text : String) : Except Stop Word :=
  let cs := text.toList
  let (start, joined) := splitEquals cs
  match Argument.ofName? start, joined with
  | some a, some _ => .ok (.name a (isShortName start) joined)
  | _, _ =>
    match candidates cs with
    | [(_, word)] => .ok word
    | [] => .ok (if isNegativeNumber cs || cs.contains ' ' then .value text else .unknown text)
    | several =>
      .error (.refused ("ambiguous option: " ++ text ++ " could match " ++
        ", ".intercalate (several.map Prod.fst)))

def Word.ofText (text : String) : Except Stop Word :=
  match Argument.ofName? text with
  | some a => .ok (.name a (isShortName text) none)
  | none =>
    match text.toList with
    | '-' :: _ :: _ => ofDashed text
    | _ => .ok (.value text)

def words : List String → Except Stop (List Word)
  | [] => .ok []
  | text :: rest =>
    if text == "--" then .ok (.separator :: rest.map .value)
    else do
      let word ← Word.ofText text
      return word :: (← words rest)

structure Draft where
  /-- The input, if the argument was given; it may have been given without a value. -/
  input : Option (Option String) := none
  output : Option String := none
  format : Option String := none
  check : Bool := false
  serde : Bool := false
  juniper : Bool := false
  sqlite : Bool := false
  logLevel : Option String := none
  left : List String := []
  deriving Repr, DecidableEq, Inhabited

namespace Draft

def leave (d : Draft) (text : String) : Draft := { d with left := d.left ++ [text] }

end Draft

def Argument.refuse (a : Argument) (message : String) : Stop :=
  .refused ("argument " ++ a.title ++ ": " ++ message)

def Argument.take (d : Draft) : Argument → Except Stop Draft
  | help => .error .help
  | check => .ok { d with check := true }
  | serde => .ok { d with serde := true }
  | juniper => .ok { d with juniper := true }
  | sqlite => .ok { d with sqlite := true }
  | input | output | format | logLevel => .ok d

def Argument.accepts (a : Argument) (text : String) : Except Stop Unit :=
  match a.choices with
  | none => .ok ()
  | some choices =>
    if choices.contains text then .ok ()
    else .error (a.refuse ("invalid choice: " ++ Text.quoted text ++ " (choose from " ++
      ", ".intercalate (choices.map Text.quoted) ++ ")"))

/-- Takes an argument with a value. The last value counts, and the separator joined to a name is no
value at all. -/
def Argument.takeWith (d : Draft) (text : String) (a : Argument) : Except Stop Draft := do
  let value := if text == "--" then none else some text
  if let some text := value then a.accepts text
  match a with
  | input => return { d with input := some value }
  | output => return { d with output := value }
  | format => return { d with format := value }
  | logLevel => return { d with logLevel := value }
  | help | check | serde | juniper | sqlite => return d

structure Cluster where
  flags : List Argument := []
  /-- The argument at the end that has a value, or wants one. -/
  last : Option (Argument × Option (List Char)) := none

def Cluster.ofArgument (a : Argument) : Cluster :=
  if a.takesValue then { last := some (a, none) } else { flags := [a] }

def Argument.ignored (a : Argument) (text : List Char) : Stop :=
  a.refuse ("ignored explicit argument " ++ Text.quoted (String.ofList text))

/-- Reads an argument with a text joined to it that begins with `c`. After a short name that takes
no value, `c` is a short name as well, and `more` reads on from it. -/
def clusterAt (a : Argument) (short : Bool) (c : Char) (text : List Char)
    (more : Argument → Except Stop Cluster) : Except Stop Cluster :=
  if a.takesValue then .ok { last := some (a, some text) }
  else if !short then .error (a.ignored text)
  else
    match Argument.ofName? (String.ofList ['-', c]) with
    | none => .error (a.ignored text)
    | some next => do
      let found ← more next
      return { found with flags := a :: found.flags }

def cluster (a : Argument) (short : Bool) : List Char → Except Stop Cluster
  | [] => if a.takesValue then .ok { last := some (a, some []) } else .error (a.ignored [])
  | [c] => clusterAt a short c [c] fun next => .ok (.ofArgument next)
  | c :: d :: rest => clusterAt a short c (c :: d :: rest) fun next => cluster next true (d :: rest)

def takeFlags : Draft → List Argument → Except Stop Draft
  | d, [] => .ok d
  | d, a :: rest => do takeFlags (← a.take d) rest

def takeWords : Draft → List Word → Except Stop Draft
  | d, [] => .ok d
  | d, .value text :: rest => takeWords (d.leave text) rest
  | d, .separator :: rest => takeWords (d.leave "--") rest
  | d, .unknown text :: rest => takeWords (d.leave text) rest
  | d, .name a short joined :: rest => do
    let found ← match joined with
      | none => pure (.ofArgument a)
      | some text => cluster a short text
    match found.last with
    | none => do takeWords (← takeFlags d found.flags) rest
    | some (last, some text) => do
      let d ← last.takeWith (← takeFlags d found.flags) (String.ofList text)
      takeWords d rest
    | some (last, none) =>
      match rest with
      | .value text :: rest => do
        let d ← last.takeWith (← takeFlags d found.flags) text
        takeWords d rest
      | _ => .error (last.refuse "expected one argument")

structure Invocation where
  input : Option String
  output : Option String := none
  format : Option String := none
  check : Bool := false
  serde : Bool := false
  juniper : Bool := false
  sqlite : Bool := false
  logLevel : Option String := none
  deriving Repr, DecidableEq, Inhabited

namespace Invocation

def isGiven (text : Option String) : Bool := text.any fun t => !t.isEmpty

/-- A draft is complete if it has an input and no word is left; a check writes nothing. -/
def ofDraft (d : Draft) : Except Stop Invocation :=
  match d.input with
  | none => .error (.refused ("the following arguments are required: " ++ Argument.input.title))
  | some input =>
    if !d.left.isEmpty then .error (.refused ("unrecognized arguments: " ++ " ".intercalate d.left))
    else if d.check && (isGiven d.output || isGiven d.format) then
      .error (.refused "--check cannot be combined with --output or --format")
    else
      .ok
        { input
          output := d.output
          format := d.format
          check := d.check
          serde := d.serde
          juniper := d.juniper
          sqlite := d.sqlite
          logLevel := d.logLevel }

def ofWords (texts : List String) : Except Stop Invocation := do
  ofDraft (← takeWords {} (← words texts))

end Invocation

end DalSchema.Command
