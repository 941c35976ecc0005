import DalSchema.Diagnostic.Basic
import DalSchema.Text.Position

/-!
# Diagnostics as text

A diagnostic is shown as a headline, the place of its main label, a snippet for each label with the
labelled text underlined, and its notes. The underline stops at the end of the first line of the
span and is never empty. Line numbers stand in a gutter as wide as the longest of them.
-/

namespace DalSchema

open Text

namespace Label

/-- How many characters are underlined: up to the end of the span if that is on the same line, else
up to the end of the displayed line. -/
def width (l : Label) (source : List Char) : Nat :=
  let first := positionAt source l.span.start
  let last := positionAt source l.span.stop
  let lastColumn :=
    if last.line = first.line then last.column else (lineText source first.line).length + 1
  max 1 (lastColumn - first.column)

def underline (l : Label) (source : List Char) : List Char :=
  List.replicate ((positionAt source l.span.start).column - 1) ' ' ++
    List.replicate (l.width source) l.style.marker ++
    if l.note.isEmpty then [] else ' ' :: l.note.toList

end Label

def padNumber (width n : Nat) : String :=
  let digits := toString n
  String.ofList (List.replicate (width - digits.length) ' ') ++ digits

def spaces (n : Nat) : String := String.ofList (List.replicate n ' ')

def Label.snippet (l : Label) (source : List Char) (gutter : Nat) : List String :=
  let line := (positionAt source l.span.start).line
  [spaces gutter ++ " |",
    padNumber gutter line ++ " | " ++ String.ofList (lineText source line),
    spaces gutter ++ " | " ++ String.ofList (l.underline source)]

namespace Diagnostic

def gutter (d : Diagnostic) (source : List Char) : Nat :=
  match d.labels with
  | [] => 1
  | labels =>
    labels.foldl (fun w l => max w (toString (positionAt source l.span.start).line).length) 0

def pointer (d : Diagnostic) (source : List Char) (fileName : String) : List String :=
  match d.mainLabel? with
  | none => []
  | some l =>
    let p := positionAt source l.span.start
    [spaces (d.gutter source) ++ "--> " ++ fileName ++ ":" ++ toString p.line ++ ":" ++
      toString p.column]

def render (d : Diagnostic) (source : List Char) (fileName : String) : String :=
  "\n".intercalate
    ((d.severity.word ++ ": " ++ d.message) ::
      (d.pointer source fileName ++
        d.labels.flatMap (fun l => l.snippet source (d.gutter source)) ++
        d.notes.map fun note => spaces (d.gutter source) ++ " = note: " ++ note))

def renderAll (ds : List Diagnostic) (source : List Char) (fileName : String) : String :=
  "\n\n".intercalate (ds.map fun d => d.render source fileName)

end Diagnostic

end DalSchema
