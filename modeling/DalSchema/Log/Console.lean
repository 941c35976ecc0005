import DalSchema.Files.Workspace

/-!
# Logging of a run

A console has a threshold and handlers. One handler writes to the error stream, and one may write to
a file as well. Setting logging up replaces all handlers. Before that, a warning or worse goes to
the error stream as its bare message. A record that has no level is never written.

A handler keeps its file open: once the file has been removed, what the handler writes is lost. A
file that the system refuses to remove stays, with a warning.
-/

namespace DalSchema

namespace Log

/-- Characters that are no capitals by themselves and become letters of level names. -/
def specialCapitals : List (Char × String) :=
  [('ß', "SS"), ('ı', "I"), ('ſ', "S"), ('ﬀ', "FF"), ('ﬁ', "FI"), ('ﬂ', "FL"), ('ﬃ', "FFI"),
    ('ﬄ', "FFL"), ('ﬅ', "ST"), ('ﬆ', "ST")]

def inCapitals (name : String) : String :=
  String.join (name.toList.map fun c => (specialCapitals.lookup c).getD c.toUpper.toString)

/-- The level of a name in any letter case; an unknown name means information. Two names are taken
by something else. -/
def Level.ofName (name : String) : Except Failure Level :=
  match inCapitals name with
  | "WARN" => .ok warning
  | "FATAL" => .ok critical
  | "BASIC_FORMAT" => .error .levelIsText
  | "_STYLES" => .error .levelIsTable
  | word => .ok ((named.lookup word).getD info)

inductive Outlet where
  | stream
  /-- A file; `linked` says whether what the handler has open is still the file there. -/
  | file (place : Location) (linked : Bool)
  deriving Repr, DecidableEq, Inhabited

structure Handler where
  outlet : Outlet
  threshold : Level
  layout : Layout
  deriving Repr, DecidableEq, Inhabited

structure Setup where
  level : String := "INFO"
  layout : Layout := .detailed
  toFile : Bool := false
  file : Option String := none
  clearFirst : Bool := false
  deriving Repr, DecidableEq, Inhabited

def defaultFile : String := "logs/dalgen.log"

/-- The path of a log file: a relative one starts where the program is installed. -/
def filePath (w : Workspace) (file : Option String) : Path :=
  w.home.join (.ofText (file.getD defaultFile))

end Log

open Log

structure Console where
  threshold : Level := .warning
  handlers : List Handler := []
  deriving Repr, DecidableEq, Inhabited

namespace Console

def named (r : Record) : Record := if r.logger.isEmpty then { r with logger := "root" } else r

def handle (w : Workspace) (r : Record) (h : Handler) : String × Workspace :=
  if r.level.reaches h.threshold then
    let text := h.layout.line w.stamp (named r)
    match h.outlet with
    | .stream => (text, w)
    | .file place true => ("", { w with store := w.store.append place (Workspace.encode text) })
    | .file _ false => ("", w)
  else ("", w)

def handleAll (r : Record) : Workspace → List Handler → String × Workspace
  | w, [] => ("", w)
  | w, h :: rest =>
    let (text, w) := handle w r h
    let (more, w) := handleAll r w rest
    (text ++ more, w)

def admits (c : Console) (l : Level) : Bool := 0 < l.rank && l.reaches c.threshold

def log (c : Console) (w : Workspace) (r : Record) : String × Workspace :=
  if !c.admits r.level then ("", w)
  else if c.handlers.isEmpty then
    (if r.level.reaches .warning then r.message ++ "\n" else "", w)
  else handleAll r w c.handlers

def unlink (c : Console) (place : Location) : Console :=
  { c with handlers := c.handlers.map fun h =>
      match h.outlet with
      | .file p _ => if p == place then { h with outlet := .file p false } else h
      | .stream => h }

/-- What a change to logging came to. A failure may leave it half done. -/
structure Change where
  console : Console
  workspace : Workspace
  stderr : String := ""
  failure : Option Failure := none

def lockedRecord (p : Path) : Record :=
  ⟨.warning, setupLogger,
    "Cannot clear log file " ++ p.text ++ " - file is locked. Continuing without clearing."⟩

def clear (c : Console) (w : Workspace) (file : Option String) : Change :=
  let p := filePath w file
  match w.makeParent p with
  | (.error f, w) => { console := c, workspace := w, failure := some f }
  | (.ok (), w) =>
    match w.removeFile p with
    | .error (.system .denied _) =>
      let (stderr, w) := c.log w (lockedRecord p)
      { console := c, workspace := w, stderr }
    | .error f => { console := c, workspace := w, failure := some f }
    | .ok cleared =>
      match w.locate p with
      | .ok place => { console := c.unlink place, workspace := cleared }
      | .error _ => { console := c, workspace := cleared }

def openFile (w : Workspace) (file : Option String) : Except Failure Location × Workspace :=
  let p := filePath w file
  match w.makeParent p with
  | (.error f, w) => (.error f, w)
  | (.ok (), w) =>
    match w.target p.collapsed.text with
    | .error f => (.error f, w)
    | .ok place => (.ok place, { w with store := w.store.append place [] })

def handlersFor (t : Level) (layout : Layout) (place : Option Location) : List Handler :=
  ⟨.stream, t, layout⟩ :: (place.map fun l => ⟨.file l true, t, layout⟩).toList

def install (c : Console) (w : Workspace) (s : Setup) : Change :=
  match Level.ofName s.level with
  | .error f => { console := c, workspace := w, failure := some f }
  | .ok t =>
    if s.toFile then
      match openFile w s.file with
      | (.error f, w) =>
        { console := ⟨t, handlersFor t s.layout none⟩, workspace := w, failure := some f }
      | (.ok place, w) => { console := ⟨t, handlersFor t s.layout (some place)⟩, workspace := w }
    else { console := ⟨t, handlersFor t s.layout none⟩, workspace := w }

def setup (c : Console) (w : Workspace) (s : Setup) : Change :=
  if s.clearFirst && s.toFile then
    let cleared := c.clear w s.file
    match cleared.failure with
    | some _ => cleared
    | none => { cleared.console.install cleared.workspace s with stderr := cleared.stderr }
  else c.install w s

end Console

end DalSchema
