import DalSchema.Text.Parts

/-!
# Paths

A path is shown without empty parts and without parts that stay where they are; a step up is kept,
since it means something else after a link. The path without parts is the working directory itself.
-/

namespace DalSchema

structure Path where
  /-- What an absolute path begins with: one slash, or exactly two. Empty for a relative path. -/
  lead : String := ""
  parts : List String
  deriving Repr, DecidableEq, Inhabited

namespace Path

def pieces (text : String) : List String :=
  ((Text.partsAt '/' text.toList).filter fun part => !part.isEmpty).map String.ofList

def leadOf (text : String) : String :=
  match text.toList with
  | '/' :: '/' :: '/' :: _ => "/"
  | '/' :: '/' :: _ => "//"
  | '/' :: _ => "/"
  | _ => ""

def ofText (text : String) : Path where
  lead := leadOf text
  parts := (pieces text).filter fun part => part != "."

def isAbsolute (p : Path) : Bool := !p.lead.isEmpty

def text (p : Path) : String :=
  if p.lead.isEmpty && p.parts.isEmpty then "." else p.lead ++ "/".intercalate p.parts

def name (p : Path) : String := p.parts.getLastD ""

def join (base p : Path) : Path :=
  if p.isAbsolute then p else { base with parts := base.parts ++ p.parts }

def parent (p : Path) : Path := { p with parts := p.parts.dropLast }

/-- The parts of an absolute path with each step up carried out on the text alone. -/
def collapse (parts : List String) : List String :=
  parts.foldl (fun done part => if part == ".." then done.dropLast else done ++ [part]) []

def collapsed (p : Path) : Path := { p with parts := collapse p.parts }

end Path

end DalSchema
