/-!
# Files and directories

A store says what is at each location: a directory, a file with its bytes, or nothing. The root is
always a directory. A path is followed part by part, and every part but the last has to lead to a
directory.
-/

namespace DalSchema

abbrev Location := List String

inductive Entry where
  | directory
  | file (content : List UInt8)
  deriving Repr, DecidableEq, Inhabited

inductive SystemError where
  | missing | denied | occupied | notDirectory | isDirectory | nameTooLong
  deriving Repr, DecidableEq, Inhabited

namespace SystemError

def code : SystemError → Nat
  | missing => 2
  | denied => 13
  | occupied => 17
  | notDirectory => 20
  | isDirectory => 21
  | nameTooLong => 36

def phrase : SystemError → String
  | missing => "No such file or directory"
  | denied => "Permission denied"
  | occupied => "File exists"
  | notDirectory => "Not a directory"
  | isDirectory => "Is a directory"
  | nameTooLong => "File name too long"

end SystemError

structure Store where
  entries : List (Location × Entry) := []
  deriving Inhabited

namespace Store

def get? (s : Store) (place : Location) : Option Entry :=
  if place.isEmpty then some .directory else s.entries.lookup place

def setEntry (place : Location) (e : Entry) : List (Location × Entry) → List (Location × Entry)
  | [] => [(place, e)]
  | (l, old) :: rest => if place == l then (l, e) :: rest else (l, old) :: setEntry place e rest

def put (s : Store) (place : Location) (e : Entry) : Store := ⟨setEntry place e s.entries⟩

def remove (s : Store) (place : Location) : Store :=
  ⟨s.entries.filter fun entry => entry.1 != place⟩

theorem lookup_setEntry (place l : Location) (e : Entry) (entries : List (Location × Entry)) :
    (setEntry place e entries).lookup l = if l = place then some e else entries.lookup l := by
  induction entries with
  | nil =>
    by_cases h : l = place
    · simp [setEntry, h]
    · simp [setEntry, List.lookup_cons, beq_eq_false_iff_ne.mpr h, h]
  | cons entry rest ih =>
    obtain ⟨l', old⟩ := entry
    by_cases hl : place = l'
    · subst hl
      by_cases h : l = place
      · simp [setEntry, h]
      · simp [setEntry, List.lookup_cons, beq_eq_false_iff_ne.mpr h, h]
    · by_cases h : l = l'
      · subst h
        have hne : ¬ l = place := fun hc => hl hc.symm
        simp [setEntry, hl, hne]
      · simp [setEntry, List.lookup_cons, hl, beq_eq_false_iff_ne.mpr h, ih]

/-- Putting an entry changes what is at its own location and nothing else. -/
theorem get?_put {s : Store} {place l : Location} {e : Entry} (h : place ≠ []) :
    (s.put place e).get? l = if l = place then some e else s.get? l := by
  by_cases hl : l = []
  · subst hl
    have hne : ¬ [] = place := fun hc => h hc.symm
    simp [get?, hne]
  · simp [get?, put, hl, lookup_setEntry]

/-- Follows parts from a location. What is at the end need not exist. -/
def locate (s : Store) : Location → List String → Except SystemError Location
  | l, [] => .ok l
  | l, part :: rest =>
    match s.get? l with
    | none => .error .missing
    | some (.file _) => .error .notDirectory
    | some .directory =>
      if part == "." then s.locate l rest
      else if part == ".." then s.locate l.dropLast rest
      else if 255 < part.utf8ByteSize then .error .nameTooLong
      else s.locate (l ++ [part]) rest

def contentAt (s : Store) (place : Location) : Except SystemError (List UInt8) :=
  match s.get? place with
  | none => .error .missing
  | some .directory => .error .isDirectory
  | some (.file content) => .ok content

/-- Adds bytes at the end of a file, which is made if it is not there. -/
def append (s : Store) (place : Location) (more : List UInt8) : Store :=
  match s.get? place with
  | some (.file content) => s.put place (.file (content ++ more))
  | _ => s.put place (.file more)

end Store

end DalSchema
