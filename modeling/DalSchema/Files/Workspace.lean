import DalSchema.Failure
import DalSchema.Files.Path
import DalSchema.Log.Layout
import DalSchema.Problem
import DalSchema.Text.Position

/-!
# Workspace

A run has a working directory, the environment's variables and the place where the program is
installed. It reads whole files as text: the bytes have to be UTF-8, and every line end is read as a
line feed. Where making a directory fails, those made on the way to it stay.
-/

namespace DalSchema

structure Workspace where
  here : Location
  /-- Where the program is installed. -/
  home : Path
  store : Store
  /-- Files that the system refuses to remove. -/
  locked : List Location := []
  environment : List (String × String) := []
  stamp : Log.Stamp
  surroundings : Surroundings := {}

namespace Workspace

def start (w : Workspace) (p : Path) : Location := if p.isAbsolute then [] else w.here

def about {α : Type} (path : String) : Except SystemError α → Except Failure α
  | .ok a => .ok a
  | .error e => .error (.system e path)

/-- No path may hold the character that ends names. -/
def isUsable (path : String) : Bool := !path.toList.contains '\x00'

def locate (w : Workspace) (p : Path) : Except SystemError Location :=
  w.store.locate (w.start p) p.parts

def holds (w : Workspace) (p : Path) : Except Failure Bool :=
  if !isUsable p.text then .ok false
  else
    match w.locate p with
    | .ok l => .ok (w.store.get? l).isSome
    | .error .nameTooLong => .error (.system .nameTooLong p.text)
    | .error _ => .ok false

def holdsDirectory (w : Workspace) (p : Path) : Bool :=
  match w.locate p with
  | .ok l => w.store.get? l == some .directory
  | .error _ => false

def readBytes (w : Workspace) (p : Path) : Except Failure (List UInt8) :=
  if !isUsable p.text then .error .unusablePath
  else about p.text do w.store.contentAt (← w.locate p)

def encode (text : String) : List UInt8 := text.toUTF8.toList

def decode (bytes : List UInt8) : Except Failure (List Char) :=
  match String.fromUTF8? ⟨bytes.toArray⟩ with
  | some text => .ok (Text.unifyLineEnds text.toList)
  | none => .error .notText

def readText (w : Workspace) (p : Path) : Except Failure (List Char) := do
  decode (← w.readBytes p)

/-- Where a file that is to be written goes. The path is taken as it is written: one that ends with
a slash names a directory. -/
def target (w : Workspace) (path : String) : Except Failure Location :=
  if !isUsable path then .error .unusablePath
  else about path do
    let pieces := Path.pieces path
    let l ← w.store.locate (w.start (.ofText path)) pieces
    let namesDirectory := w.store.get? l == some .directory || path.toList.getLast? == some '/'
    if namesDirectory then throw .isDirectory
    return l

def writeText (w : Workspace) (path text : String) : Except Failure Workspace := do
  let l ← w.target path
  return { w with store := w.store.put l (.file (encode text)) }

def makeDirectory (w : Workspace) (p : Path) : Except SystemError Workspace := do
  let l ← w.locate p
  match w.store.get? l with
  | some _ => throw .occupied
  | none => return { w with store := w.store.put l .directory }

/-- What the attempt to make a directory comes to: one that is there already is left alone. -/
def settled (w : Workspace) (p : Path) :
    Except SystemError Workspace → Except Failure Unit × Workspace
  | .ok made => (.ok (), made)
  | .error e =>
    if e != .missing && w.holdsDirectory p then (.ok (), w) else (.error (.system e p.text), w)

/-- Makes the directory of some parts, and the ones on the way to it. The parts are given from the
last one. -/
def makeDirectories (w : Workspace) (lead : String) :
    List String → Except Failure Unit × Workspace
  | [] => w.settled ⟨lead, []⟩ (w.makeDirectory ⟨lead, []⟩)
  | part :: above =>
    let p : Path := ⟨lead, (part :: above).reverse⟩
    match w.makeDirectory p with
    | .error .missing =>
      match w.makeDirectories lead above with
      | (.ok (), w) => w.settled p (w.makeDirectory p)
      | failed => failed
    | result => w.settled p result

def makeParent (w : Workspace) (p : Path) : Except Failure Unit × Workspace :=
  w.makeDirectories p.lead p.parent.parts.reverse

def removeFile (w : Workspace) (p : Path) : Except Failure Workspace := do
  if ← w.holds p then
    about p.text do
      let l ← w.locate p
      if w.store.get? l == some .directory then throw .isDirectory
      if w.locked.contains l then throw .denied
      return { w with store := w.store.remove l }
  else return w

end Workspace

end DalSchema
