import DalSchema.Log.Console
import Mathlib.Data.List.Infix

/-!
# What stays as it is

Two relations say what has become of the files of a workspace, given a site: locations of files, and
locations of directories. `Keeps` allows for any change to these files and for these directories to
be new. `Grows` allows for no change at all to what was there, only for new directories and for new
empty files at the site. Making directories and opening a log file let a workspace grow; logging
keeps all but the log file.

A path leads to one location, if to any, whatever else is in the store: `Workspace.named`. The
directories that are made for a path are on the way to it: `Workspace.ways`.
-/

namespace DalSchema

open Log

/-- A chain of steps gives a result just if each of them does. -/
theorem bind_eq_ok_iff {ε α β : Type} {x : Except ε α} {f : α → Except ε β} {b : β} :
    (x >>= f) = .ok b ↔ ∃ a, x = .ok a ∧ f a = .ok b := by
  constructor
  · intro h
    cases x with
    | error e => cases h
    | ok a => exact ⟨a, rfl, h⟩
  · rintro ⟨a, rfl, h⟩
    exact h

namespace Store

/-- The location that parts lead to by their names alone. -/
def walk (l : Location) : List String → Location
  | [] => l
  | part :: rest =>
    if part == "." then walk l rest
    else if part == ".." then walk l.dropLast rest
    else walk (l ++ [part]) rest

theorem eq_walk_of_locate {s : Store} {l place : Location} {parts : List String}
    (h : s.locate l parts = .ok place) : place = walk l parts := by
  fun_induction s.locate l parts with
  | case1 l =>
    cases h
    rfl
  | case2 => cases h
  | case3 => cases h
  | case4 l part rest hdir hstay ih => simpa [walk, hstay] using ih h
  | case5 l part rest hdir hstay hup ih => simpa [walk, hstay, hup] using ih h
  | case6 => cases h
  | case7 l part rest hdir hstay hup hshort ih => simpa [walk, hstay, hup] using ih h

/-- Where files may change, and where directories may be made. -/
structure Site where
  files : List Location := []
  directories : List Location := []

def Site.Within (site larger : Site) : Prop :=
  site.files ⊆ larger.files ∧ site.directories ⊆ larger.directories

/-- Outside of the files of a site everything is as it was, but for directories of the site. -/
def Keeps (site : Site) (s t : Store) : Prop :=
  ∀ l, l ∉ site.files → t.get? l = s.get? l ∨
    l ∈ site.directories ∧ s.get? l = none ∧ t.get? l = some .directory

/-- Everything is as it was, but for directories and empty files of a site. -/
def Grows (site : Site) (s t : Store) : Prop :=
  ∀ l, t.get? l = s.get? l ∨
    s.get? l = none ∧ (l ∈ site.directories ∧ t.get? l = some .directory ∨
      l ∈ site.files ∧ t.get? l = some (.file []))

section

variable {site : Site} {s t u : Store} {l place : Location} {e : Entry}

theorem get?_put_of_ne (h : l ≠ place) : (s.put place e).get? l = s.get? l := by
  simp [get?, put, lookup_setEntry, h]

theorem get?_append_of_ne (h : l ≠ place) (more : List UInt8) :
    (s.append place more).get? l = s.get? l := by
  rw [append]
  split <;> exact get?_put_of_ne h

theorem Keeps.refl : s.Keeps site s := fun _ _ => .inl rfl

theorem Keeps.trans (hst : s.Keeps site t) (htu : t.Keeps site u) : s.Keeps site u := by
  intro l hl
  rcases htu l hl with heq | ⟨hmem, hnone, hdir⟩
  · rw [heq]
    exact hst l hl
  · rcases hst l hl with heq | ⟨-, -, hdir'⟩
    · exact .inr ⟨hmem, heq ▸ hnone, hdir⟩
    · rw [hnone] at hdir'
      cases hdir'

theorem Keeps.mono {larger : Site} (h : s.Keeps site t) (hlarger : site.Within larger) :
    s.Keeps larger t := by
  intro l hl
  rcases h l fun hmem => hl (hlarger.1 hmem) with heq | ⟨hmem, hnew⟩
  · exact .inl heq
  · exact .inr ⟨hlarger.2 hmem, hnew⟩

theorem keeps_put (h : place ∈ site.files) : s.Keeps site (s.put place e) :=
  fun _ hl => .inl (get?_put_of_ne fun heq => hl (heq ▸ h))

theorem keeps_append (h : place ∈ site.files) (more : List UInt8) :
    s.Keeps site (s.append place more) := by
  intro l hl
  have hne : l ≠ place := fun heq => hl (heq ▸ h)
  exact .inl (get?_append_of_ne hne more)

theorem Grows.keeps (h : s.Grows site t) : s.Keeps site t := by
  intro l hl
  rcases h l with heq | ⟨hnone, ⟨hmem, hdir⟩ | ⟨hmem, -⟩⟩
  · exact .inl heq
  · exact .inr ⟨hmem, hnone, hdir⟩
  · exact absurd hmem hl

theorem Grows.refl : s.Grows site s := fun _ => .inl rfl

theorem Grows.trans (hst : s.Grows site t) (htu : t.Grows site u) : s.Grows site u := by
  intro l
  rcases htu l with heq | ⟨hnone, hnew⟩
  · rw [heq]
    exact hst l
  · rcases hst l with heq | ⟨-, ⟨-, hdir⟩ | ⟨-, hfile⟩⟩
    · exact .inr ⟨heq ▸ hnone, hnew⟩
    · rw [hnone] at hdir
      cases hdir
    · rw [hnone] at hfile
      cases hfile

theorem ne_nil_of_get? (h : s.get? place ≠ some .directory) : place ≠ [] := by
  rintro rfl
  exact h rfl

theorem grows_put_directory (hmem : place ∈ site.directories) (h : s.get? place = none) :
    s.Grows site (s.put place .directory) := by
  have hne : s.get? place ≠ some .directory := by simp [h]
  intro l
  rw [get?_put (ne_nil_of_get? hne)]
  split
  · next heq => exact .inr ⟨heq ▸ h, .inl ⟨heq ▸ hmem, rfl⟩⟩
  · exact .inl rfl

theorem grows_append_nil (hmem : place ∈ site.files) (h : s.get? place ≠ some .directory) :
    s.Grows site (s.append place []) := by
  intro l
  by_cases hl : l = place
  · subst hl
    cases hentry : s.get? l with
    | none =>
      refine .inr ⟨rfl, .inr ⟨hmem, ?_⟩⟩
      simp [append, hentry, get?_put (ne_nil_of_get? h)]
    | some entry =>
      cases entry with
      | directory => exact absurd hentry h
      -- adding nothing to a file that is there leaves it as it is
      | file content => simp [append, hentry, get?_put (ne_nil_of_get? h)]
  · exact .inl (get?_append_of_ne hl [])

theorem exists_get?_append (h : s.get? place ≠ some .directory) (more : List UInt8) :
    ∃ content, (s.append place more).get? place = some (.file content) := by
  have hne : place ≠ [] := ne_nil_of_get? h
  rw [append]
  split <;> simp [get?_put hne]

end

end Store

open Store

namespace Workspace

/-- The location that a path names. -/
def named (w : Workspace) (path : String) : Location :=
  Store.walk (w.start (.ofText path)) (Path.pieces path)

/-- The directories on the way to a path, by their names alone. -/
def ways (w : Workspace) (p : Path) : List Location :=
  p.parent.parts.inits.map (Store.walk (w.start p))

def Keeps (site : Site) (w v : Workspace) : Prop :=
  v = { w with store := v.store } ∧ w.store.Keeps site v.store

def Grows (site : Site) (w v : Workspace) : Prop :=
  v = { w with store := v.store } ∧ w.store.Grows site v.store

section

variable {site : Site} {w v u : Workspace}

theorem Keeps.refl : w.Keeps site w := ⟨rfl, .refl⟩

theorem Keeps.trans (hwv : w.Keeps site v) (hvu : v.Keeps site u) : w.Keeps site u := by
  refine ⟨?_, hwv.2.trans hvu.2⟩
  rw [hvu.1, hwv.1]

theorem Keeps.mono {larger : Site} (h : w.Keeps site v) (hlarger : site.Within larger) :
    w.Keeps larger v :=
  ⟨h.1, h.2.mono hlarger⟩

theorem Keeps.get?_of_file (h : w.Keeps site v) {l : Location} (hl : l ∉ site.files)
    {content : List UInt8} (hfile : w.store.get? l = some (.file content)) :
    v.store.get? l = some (.file content) := by
  rcases h.2 l hl with heq | ⟨-, hnone, -⟩
  · rw [heq, hfile]
  · rw [hnone] at hfile
    cases hfile

theorem Keeps.named_eq (h : w.Keeps site v) (path : String) : v.named path = w.named path := by
  rw [h.1]
  rfl

theorem Grows.keeps (h : w.Grows site v) : w.Keeps site v := ⟨h.1, h.2.keeps⟩

theorem Grows.refl : w.Grows site w := ⟨rfl, .refl⟩

theorem Grows.trans (hwv : w.Grows site v) (hvu : v.Grows site u) : w.Grows site u := by
  refine ⟨?_, hwv.2.trans hvu.2⟩
  rw [hvu.1, hwv.1]

theorem Grows.start_eq (h : w.Grows site v) (p : Path) : v.start p = w.start p := by
  rw [h.1]
  rfl

theorem about_eq_ok_iff {α : Type} {path : String} {x : Except SystemError α} {a : α} :
    about path x = .ok a ↔ x = .ok a := by
  cases x <;> simp [about]

theorem eq_named_of_target {path : String} {l : Location} (h : w.target path = .ok l) :
    l = w.named path ∧ w.store.get? l ≠ some .directory := by
  rw [target] at h
  split at h
  · cases h
  · obtain ⟨place, hplace, h⟩ := bind_eq_ok_iff.mp (about_eq_ok_iff.mp h)
    dsimp only at h
    split at h
    · cases h
    · next hfile =>
      cases h
      refine ⟨Store.eq_walk_of_locate hplace, ?_⟩
      intro hdir
      simp [hdir] at hfile

theorem keeps_writeText {path text : String} (h : w.writeText path text = .ok v) :
    w.Keeps ⟨[w.named path], []⟩ v ∧
      v.store.get? (w.named path) = some (.file (encode text)) := by
  obtain ⟨l, hl, h⟩ := bind_eq_ok_iff.mp h
  cases h
  obtain ⟨hplace, hfile⟩ := eq_named_of_target hl
  rw [← hplace]
  refine ⟨⟨rfl, Store.keeps_put (List.mem_singleton_self l)⟩, ?_⟩
  rw [Store.get?_put (Store.ne_nil_of_get? hfile), if_pos rfl]

theorem grows_makeDirectory {p : Path} (hp : walk (w.start p) p.parts ∈ site.directories)
    (h : w.makeDirectory p = .ok v) : w.Grows site v := by
  obtain ⟨l, hl, h⟩ := bind_eq_ok_iff.mp h
  rw [← Store.eq_walk_of_locate hl] at hp
  split at h
  · cases h
  · next hnone =>
    cases h
    exact ⟨rfl, Store.grows_put_directory hp hnone⟩

theorem grows_settled {p : Path} (hp : walk (w.start p) p.parts ∈ site.directories) :
    w.Grows site (w.settled p (w.makeDirectory p)).2 := by
  cases hmade : w.makeDirectory p with
  | ok made => exact grows_makeDirectory hp hmade
  | error e =>
    rw [settled]
    split <;> exact .refl

theorem grows_makeDirectories {lead : String} {parts : List String}
    (h : ∀ tail, tail <:+ parts →
      walk (w.start ⟨lead, tail.reverse⟩) tail.reverse ∈ site.directories) :
    w.Grows site (w.makeDirectories lead parts).2 := by
  induction parts with
  | nil => exact grows_settled (h [] List.suffix_rfl)
  | cons part above ih =>
    have habove := ih fun tail htail => h tail (htail.trans (List.suffix_cons part above))
    have hlast := h (part :: above) List.suffix_rfl
    rw [makeDirectories]
    split
    · split
      · next made hmade =>
        rw [hmade] at habove
        rw [← habove.start_eq] at hlast
        exact habove.trans (grows_settled hlast)
      · exact habove
    · exact grows_settled hlast

theorem grows_makeParent {p : Path} (h : w.ways p ⊆ site.directories) :
    w.Grows site (w.makeParent p).2 := by
  refine grows_makeDirectories fun tail htail => h ?_
  have hinit : tail.reverse ∈ p.parent.parts.inits := by
    rw [List.mem_inits, ← List.reverse_suffix, List.reverse_reverse]
    exact htail
  exact List.mem_map_of_mem hinit

theorem grows_openFile (w : Workspace) (file : Option String) :
    w.Grows ⟨[w.named (filePath w file).collapsed.text], w.ways (filePath w file)⟩
        (Console.openFile w file).2 ∧
      ∀ place, (Console.openFile w file).1 = .ok place →
        place = w.named (filePath w file).collapsed.text ∧
        ∃ content, (Console.openFile w file).2.store.get? place = some (.file content) := by
  have hgrows : w.Grows ⟨[w.named (filePath w file).collapsed.text], w.ways (filePath w file)⟩
      (w.makeParent (filePath w file)).2 := grows_makeParent (List.Subset.refl _)
  rw [Console.openFile]
  split
  · next f made hmade =>
    rw [hmade] at hgrows
    exact ⟨hgrows, by rintro place ⟨⟩⟩
  · next made hmade =>
    rw [hmade] at hgrows
    split
    · exact ⟨hgrows, by rintro place ⟨⟩⟩
    · next place hplace =>
      obtain ⟨heq, hfile⟩ := eq_named_of_target hplace
      rw [hgrows.keeps.named_eq] at heq
      refine ⟨hgrows.trans ⟨rfl, Store.grows_append_nil (by simp [heq]) hfile⟩, ?_⟩
      rintro _ ⟨⟩
      exact ⟨heq, Store.exists_get?_append hfile []⟩

end

end Workspace

/-- Where a log file goes, if one is to be written. -/
def Log.site (w : Workspace) (toFile : Bool) (file : Option String) : Site :=
  if toFile then ⟨[w.named (filePath w file).collapsed.text], w.ways (filePath w file)⟩ else {}

namespace Console

/-- The files that handlers write to belong to a site. -/
def WritesTo (site : Site) (c : Console) : Prop :=
  ∀ h ∈ c.handlers, ∀ place linked, h.outlet = .file place linked → place ∈ site.files

variable {site : Site}

theorem keeps_handle {h : Handler} (hplaces : ∀ place linked, h.outlet = .file place linked →
    place ∈ site.files) (w : Workspace) (r : Record) : w.Keeps site (handle w r h).2 := by
  rw [handle]
  split
  · dsimp only
    split
    · exact .refl
    · next place hplace => exact ⟨rfl, Store.keeps_append (hplaces place true hplace) _⟩
    · exact .refl
  · exact .refl

theorem keeps_handleAll {hs : List Handler} (hplaces : ∀ h ∈ hs, ∀ place linked,
    h.outlet = .file place linked → place ∈ site.files) (w : Workspace) (r : Record) :
    w.Keeps site (handleAll r w hs).2 := by
  induction hs generalizing w with
  | nil => exact .refl
  | cons h rest ih =>
    obtain ⟨hfirst, hrest⟩ := List.forall_mem_cons.mp hplaces
    exact (keeps_handle hfirst w r).trans (ih hrest _)

theorem keeps_log {c : Console} (hc : c.WritesTo site) (w : Workspace) (r : Record) :
    w.Keeps site (c.log w r).2 := by
  rw [log]
  split
  · exact .refl
  · split
    · exact .refl
    · exact keeps_handleAll hc w r

theorem log_of_handlers_nil {c : Console} (hc : c.handlers = []) (w : Workspace) (r : Record) :
    (c.log w r).2 = w := by
  simp only [log, hc, List.isEmpty_nil, if_true]
  split <;> rfl

theorem writesTo_handlersFor {place : Option Location} (hplace : ∀ l ∈ place, l ∈ site.files)
    (t : Level) (layout : Layout) : WritesTo site ⟨t, handlersFor t layout place⟩ := by
  intro h hh l linked houtlet
  rcases List.mem_cons.mp hh with rfl | hh
  · cases houtlet
  · cases place with
    | none => cases hh
    | some place =>
      cases List.mem_singleton.mp hh
      cases houtlet
      exact hplace _ rfl

/-- Setting logging up makes room for the log file, if there is to be one, and changes nothing that
is there. -/
theorem grows_setup (w : Workspace) {s : Setup} (hclear : s.clearFirst = false) :
    w.Grows (Log.site w s.toFile s.file) (setup {} w s).workspace ∧
      (setup {} w s).console.WritesTo (Log.site w s.toFile s.file) := by
  have hnone (t : Level) : WritesTo (Log.site w s.toFile s.file)
      ⟨t, handlersFor t s.layout none⟩ := writesTo_handlersFor (by rintro l ⟨⟩) t s.layout
  rw [setup, hclear, Bool.false_and, if_neg Bool.false_ne_true, install]
  split
  · refine ⟨.refl, ?_⟩
    rintro h ⟨⟩
  · next t ht =>
    split
    · next hfile =>
      obtain ⟨hgrows, hplace⟩ := Workspace.grows_openFile w s.file
      have hsite : Log.site w s.toFile s.file = _ := if_pos hfile
      split
      · next f v hopen =>
        rw [hopen] at hgrows
        exact ⟨hsite ▸ hgrows, hnone t⟩
      · next place v hopen =>
        rw [hopen] at hgrows hplace
        rw [hsite]
        refine ⟨hgrows, writesTo_handlersFor ?_ t s.layout⟩
        rintro l ⟨⟩
        exact List.mem_singleton.mpr (hplace place rfl).1
    · exact ⟨.refl, hnone t⟩

end Console

end DalSchema
