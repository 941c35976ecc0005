import DalSchema.Proofs.Compiling
import DalSchema.Proofs.Running

/-!
# How a run ends

With the settings and the configuration that come with the program, and with a place for the output
that can be written to, only the input decides how a run ends: `run_ending`. A file that is not
there, a directory and a text that cannot be read are answered with status one. A file whose bytes
are no text is not answered; the failure to decode it goes through.

A command line that is accepted names a level and a format that exist, if it names any. So logging
can be set up and the format is found.
-/

namespace DalSchema

namespace Config

/-- What the configuration says that comes with the program. -/
def shipped : Value :=
  record
    [("output", record [("default_format", .text "postgres")]),
     ("rust", record [("serde", .flag false), ("juniper", .flag false), ("sqlite", .flag false)])]

def isShipped : Except Failure Value → Bool
  | .ok (.record [(.text "output", .record [(.text "default_format", .text "postgres")]),
      (.text "rust", .record [(.text "serde", .flag false), (.text "juniper", .flag false),
        (.text "sqlite", .flag false)])]) => true
  | _ => false

theorem eq_of_isShipped {x : Except Failure Value} (h : isShipped x = true) : x = .ok shipped := by
  unfold isShipped at h
  split at h
  · rfl
  · cases h

end Config

namespace Command

open Log

/-! ## Choices of a command line -/

/-- The values that were taken are among those offered. -/
structure Draft.Chosen (d : Draft) : Prop where
  format : ∀ f ∈ d.format, f ∈ Format.choices
  logLevel : ∀ l ∈ d.logLevel, l ∈ Level.all.map Level.word

section

variable {d e : Draft}

theorem Argument.mem_of_accepts {a : Argument} {choices : List String} {text : String}
    (hchoices : a.choices = some choices) (h : a.accepts text = .ok ()) : text ∈ choices := by
  rw [accepts, hchoices] at h
  dsimp only at h
  split at h
  · next hmem => exact List.contains_iff_mem.mp hmem
  · cases h

theorem Draft.Chosen.take (hd : d.Chosen) {a : Argument} (h : a.take d = .ok e) : e.Chosen := by
  cases a <;> cases h <;> exact ⟨hd.format, hd.logLevel⟩

theorem Draft.Chosen.takeWith (hd : d.Chosen) {a : Argument} {text : String}
    (h : a.takeWith d text = .ok e) : e.Chosen := by
  unfold Argument.takeWith at h
  by_cases hseparator : (text == "--") = true
  · -- A separator is dropped, and nothing is left for a value.
    simp only [hseparator, if_true] at h
    cases a with
    | format =>
      cases h
      exact ⟨by rintro f ⟨⟩, hd.logLevel⟩
    | logLevel =>
      cases h
      exact ⟨hd.format, by rintro l ⟨⟩⟩
    | _ =>
      cases h
      exact ⟨hd.format, hd.logLevel⟩
  · simp only [hseparator] at h
    obtain ⟨_, haccepts, h⟩ := bind_eq_ok_iff.mp h
    cases a with
    | format =>
      cases h
      refine ⟨?_, hd.logLevel⟩
      rintro f ⟨⟩
      exact Argument.mem_of_accepts rfl haccepts
    | logLevel =>
      cases h
      refine ⟨hd.format, ?_⟩
      rintro l ⟨⟩
      exact Argument.mem_of_accepts rfl haccepts
    | _ =>
      cases h
      exact ⟨hd.format, hd.logLevel⟩

theorem Draft.Chosen.takeFlags (hd : d.Chosen) {flags : List Argument}
    (h : Command.takeFlags d flags = .ok e) : e.Chosen := by
  induction flags generalizing d with
  | nil =>
    cases h
    exact hd
  | cons a rest ih =>
    obtain ⟨next, hnext, h⟩ := bind_eq_ok_iff.mp h
    exact ih (hd.take hnext) h

theorem takeWords_cons {word : Word} {rest : List Word} (h : takeWords d (word :: rest) = .ok e) :
    ∃ next left, left.length ≤ rest.length ∧ takeWords next left = .ok e ∧
      (d.Chosen → next.Chosen) := by
  cases word with
  | value text => exact ⟨d.leave text, rest, le_rfl, h, fun hd => ⟨hd.format, hd.logLevel⟩⟩
  | separator => exact ⟨d.leave "--", rest, le_rfl, h, fun hd => ⟨hd.format, hd.logLevel⟩⟩
  | unknown text => exact ⟨d.leave text, rest, le_rfl, h, fun hd => ⟨hd.format, hd.logLevel⟩⟩
  | name a short joined =>
    unfold takeWords at h
    dsimp only at h
    split at h
    all_goals
      obtain ⟨found, -, h⟩ := bind_eq_ok_iff.mp h
      split at h
      · obtain ⟨next, hnext, h⟩ := bind_eq_ok_iff.mp h
        exact ⟨next, rest, le_rfl, h, fun hd => hd.takeFlags hnext⟩
      · obtain ⟨flagged, hflagged, h⟩ := bind_eq_ok_iff.mp h
        obtain ⟨next, hnext, h⟩ := bind_eq_ok_iff.mp h
        exact ⟨next, rest, le_rfl, h, fun hd => (hd.takeFlags hflagged).takeWith hnext⟩
      · split at h
        · obtain ⟨flagged, hflagged, h⟩ := bind_eq_ok_iff.mp h
          obtain ⟨next, hnext, h⟩ := bind_eq_ok_iff.mp h
          exact ⟨next, _, Nat.le_succ _, h, fun hd => (hd.takeFlags hflagged).takeWith hnext⟩
        · cases h

theorem Draft.Chosen.takeWords (hd : d.Chosen) {words : List Word}
    (h : Command.takeWords d words = .ok e) : e.Chosen := by
  -- The induction is on how many words are left, as a name may take the next word with it.
  induction hn : words.length using Nat.strong_induction_on generalizing d words with
  | _ n ih =>
    cases words with
    | nil =>
      cases h
      exact hd
    | cons word rest =>
      obtain ⟨next, left, hleft, h, hnext⟩ := takeWords_cons h
      refine ih left.length ?_ (hnext hd) h rfl
      rw [← hn, List.length_cons]
      omega

end

theorem Invocation.chosen {arguments : List String} {i : Invocation}
    (h : ofWords arguments = .ok i) :
    (∀ f ∈ i.format, f ∈ Format.choices) ∧ ∀ l ∈ i.logLevel, l ∈ Level.all.map Level.word := by
  obtain ⟨words, -, h⟩ := bind_eq_ok_iff.mp h
  obtain ⟨d, hd, h⟩ := bind_eq_ok_iff.mp h
  have hempty : ({} : Draft).Chosen := ⟨by rintro f ⟨⟩, by rintro l ⟨⟩⟩
  have hchosen := hempty.takeWords hd
  rw [ofDraft] at h
  split at h
  · cases h
  · split at h
    · cases h
    · split at h
      · cases h
      · cases h
        exact ⟨hchosen.format, hchosen.logLevel⟩

/-! ## Logging to the error stream alone -/

/-- Nothing has been written to files, and logging will not do so. -/
structure Progress.Steady (w : Workspace) (p : Progress) : Prop where
  workspace_eq : p.workspace = w
  stream : ∀ h ∈ p.console.handlers, h.outlet = .stream

section

variable {w : Workspace} {p : Progress}

theorem handleAll_stream {handlers : List Handler} (h : ∀ h ∈ handlers, h.outlet = .stream)
    (r : Record) (w : Workspace) : (Console.handleAll r w handlers).2 = w := by
  induction handlers with
  | nil => rfl
  | cons first rest ih =>
    obtain ⟨hfirst, hrest⟩ := List.forall_mem_cons.mp h
    have hhandle : (Console.handle w r first).2 = w := by
      rw [Console.handle, hfirst]
      split <;> rfl
    rw [Console.handleAll]
    dsimp only
    rw [hhandle]
    exact ih hrest

theorem Progress.Steady.log (h : p.Steady w) (r : Record) : (p.log r).Steady w := by
  refine ⟨?_, h.stream⟩
  change (p.console.log p.workspace r).2 = w
  rw [Console.log, h.workspace_eq]
  split
  · rfl
  · split
    · rfl
    · exact handleAll_stream h.stream r w

theorem Progress.Steady.logAll (h : p.Steady w) (records : List Record) :
    (p.logAll records).Steady w := by
  induction records generalizing p with
  | nil => exact h
  | cons r rest ih => exact ih (h.log r)

theorem exists_ofName_word {name : String} (h : name ∈ Level.all.map Level.word) :
    ∃ t, Level.ofName name = .ok t := by
  have hall : ∀ name ∈ Level.all.map Level.word, ((Level.ofName name).toOption).isSome = true := by
    decide
  obtain ⟨t, ht⟩ := Option.isSome_iff_exists.mp (hall name h)
  exact ⟨t, toOption_eq_some_iff.mp ht⟩

/-- With the settings of the program, logging can be set up for every command line. -/
theorem setup_default {i : Invocation} (h : ∀ l ∈ i.logLevel, l ∈ Level.all.map Level.word)
    (w : Workspace) : ∃ t, ({} : Console).setup w (loggingSetup i {}) =
      { console := ⟨t, Console.handlersFor t .simple none⟩, workspace := w } := by
  have hlevel : (loggingSetup i {}).level ∈ Level.all.map Level.word := by
    change (i.logLevel.filter fun level => !level.isEmpty).getD "ERROR" ∈ _
    cases hfilter : i.logLevel.filter fun level => !level.isEmpty with
    | none => decide
    | some level => exact h level (Option.filter_eq_some_iff.mp hfilter).1
  obtain ⟨t, ht⟩ := exists_ofName_word hlevel
  refine ⟨t, ?_⟩
  rw [Console.setup, if_neg (by simp [loggingSetup]), Console.install, ht]
  rfl

end

/-! ## Reading the input -/

/-- What is found where the input of a run should be. -/
inductive InputState where
  | noPath
  | unusable
  | absent
  | directory
  | file (bytes : List UInt8)

/-- What is at a path; a path that leads nowhere has nothing at it. -/
def InputState.atPath (w : Workspace) (p : Path) : InputState :=
  if !Workspace.isUsable p.text then unusable
  else
    match w.locate p with
    | .error _ => absent
    | .ok l =>
      match w.store.get? l with
      | none => absent
      | some .directory => directory
      | some (.file bytes) => file bytes

def InputState.of (w : Workspace) (i : Invocation) : InputState :=
  match i.input with
  | none => noPath
  | some input => InputState.atPath w (.ofText input)

def textEnding (source : List Char) : Ending :=
  .status (if (({} : Ledger).parse source).1.isOk then 0 else 1)

/-- How a run ends. Bytes that are no text are not answered. -/
def InputState.ending : InputState → Ending
  | noPath => .failed .noPath
  | unusable => .failed .unusablePath
  | absent | directory => .status 1
  | file bytes =>
    match String.fromUTF8? ⟨bytes.toArray⟩ with
    | none => .failed .notText
    | some text => textEnding (Text.unifyLineEnds text.toList)

section

variable {w : Workspace} {p : Progress} {i : Invocation}

theorem ending_runCheck (p : Progress) (source : List Char) (fileName : String) :
    (runCheck p source fileName).ending = textEnding source := by
  rw [runCheck, textEnding]
  rcases hparse : ({} : Ledger).parse source with ⟨fault | schema, after⟩
  · rw [checkSource_of_error _ _ hparse]
    rfl
  · rw [checkSource_of_ok _ _ hparse]
    rfl

def Invocation.Writable (w : Workspace) (i : Invocation) : Prop :=
  ∀ path ∈ i.output, path ≠ "" → ∃ place, w.target path = .ok place

theorem ending_deliverOutput (hp : p.workspace = w) (hi : i.Writable w) (o : Outcome) :
    (deliverOutput p i o).ending = .status 0 := by
  rw [deliverOutput]
  split
  · rfl
  · next path hpath =>
    obtain ⟨houtput, hne⟩ := Option.filter_eq_some_iff.mp hpath
    obtain ⟨place, hplace⟩ := hi path houtput (by simpa using hne)
    rw [hp, Workspace.writeText, hplace]
    rfl

theorem selectorOf_shipped (i : Invocation) :
    selectorOf Config.shipped i = .ok (i.format.getD "postgres") := by
  rw [selectorOf]
  cases i.format <;> rfl

theorem optionsOf_shipped (i : Invocation) :
    optionsOf Config.shipped i = .ok ⟨i.serde, i.juniper, i.sqlite⟩ := by
  obtain ⟨_, _, _, _, serde, juniper, sqlite, _⟩ := i
  cases serde <;> cases juniper <;> cases sqlite <;> rfl

theorem selection_shipped (hconfig : Config.load w = .ok Config.shipped) (i : Invocation) :
    selection w i = .ok (i.format.getD "postgres", ⟨i.serde, i.juniper, i.sqlite⟩) := by
  rw [selection, hconfig]
  refine bind_eq_ok_iff.mpr ⟨_, rfl, bind_eq_ok_iff.mpr ⟨_, selectorOf_shipped i, ?_⟩⟩
  exact bind_eq_ok_iff.mpr ⟨_, optionsOf_shipped i, rfl⟩

theorem ending_runCompile (hp : p.Steady w) (hconfig : Config.load w = .ok Config.shipped)
    (hchoices : ∀ f ∈ i.format, f ∈ Format.choices) (hi : i.Writable w) (source : List Char)
    (fileName : String) : (runCompile p i source fileName).ending = textEnding source := by
  have hselector : i.format.getD "postgres" ∈ Format.choices := by
    cases hformat : i.format with
    | none => decide
    | some format => exact hchoices format hformat
  obtain ⟨format, hformat⟩ := Format.exists_of_mem_choices hselector
  have hcompile (options : RustOptions) :
      compileSource w.surroundings source (i.format.getD "postgres") fileName options =
        compileAs w.surroundings source (i.format.getD "postgres") format fileName options := by
    rw [compileSource, hformat]
  unfold runCompile
  rw [hp.workspace_eq, selection_shipped hconfig, textEnding]
  dsimp only
  rw [hcompile]
  rcases hparse : ({} : Ledger).parse source with ⟨fault | schema, after⟩
  · obtain ⟨compiled, hcompiled, hvalue⟩ := compileAs_of_error w.surroundings _ fileName hparse
    rw [hcompiled]
    dsimp only
    rw [hvalue]
    rfl
  · obtain ⟨text, htext⟩ := format.exists_render ⟨i.serde, i.juniper, i.sqlite⟩ schema
    obtain ⟨compiled, hcompiled, hvalue⟩ := compileAs_of_ok w.surroundings _ fileName hparse htext
    rw [hcompiled]
    dsimp only
    rw [if_pos (by rw [hvalue])]
    exact ending_deliverOutput (hp.logAll _).workspace_eq hi _

theorem readText_cases (w : Workspace) (path : Path) :
    (InputState.atPath w path = .unusable ∧ w.readText path = .error .unusablePath) ∨
    ((InputState.atPath w path = .absent ∨ InputState.atPath w path = .directory) ∧
      ∃ e, w.readText path = .error (.system e path.text)) ∨
    ∃ bytes, InputState.atPath w path = .file bytes ∧ w.readText path = Workspace.decode bytes := by
  rw [Workspace.readText, Workspace.readBytes, InputState.atPath]
  cases Workspace.isUsable path.text with
  | false => exact .inl ⟨rfl, rfl⟩
  | true =>
    right
    cases w.locate path with
    | error e => exact .inl ⟨.inl rfl, e, rfl⟩
    | ok l =>
      have hbind : (do w.store.contentAt (← (.ok l : Except SystemError Location))) =
          w.store.contentAt l := rfl
      rw [hbind, Store.contentAt]
      dsimp only
      cases w.store.get? l with
      | none => exact .inl ⟨.inl rfl, .missing, rfl⟩
      | some entry =>
        cases entry with
        | directory => exact .inl ⟨.inr rfl, .isDirectory, rfl⟩
        | file bytes => exact .inr ⟨bytes, rfl, rfl⟩

theorem ending_runOn (hp : p.Steady w) (hconfig : Config.load w = .ok Config.shipped)
    (hchoices : ∀ f ∈ i.format, f ∈ Format.choices) (hi : i.Writable w) (path : Path) :
    (runOn p i path).ending = (InputState.atPath w path).ending := by
  unfold runOn
  rw [hp.workspace_eq]
  rcases readText_cases w path with ⟨hstate, hread⟩ | ⟨hstate, e, hread⟩ | ⟨bytes, hstate, hread⟩
  · rw [hread, hstate]
    rfl
  · rw [hread]
    rcases hstate with hstate | hstate
    · rw [hstate]
      rfl
    · rw [hstate]
      rfl
  · rw [hread, hstate, Workspace.decode, InputState.ending]
    cases String.fromUTF8? ⟨bytes.toArray⟩ with
    | none => rfl
    | some text =>
      dsimp only
      split
      · exact ending_runCheck p _ _
      · exact ending_runCompile hp hconfig hchoices hi _ _

end

/-- With the settings and the configuration of the program, and if the output can be written, the
input alone decides how a run ends. -/
theorem run_ending {w : Workspace} {arguments : List String} {i : Invocation}
    (hi : Invocation.ofWords arguments = .ok i) (hsettings : (Settings.load w).value = .ok {})
    (hconfig : Config.load w = .ok Config.shipped) (hwritable : i.Writable w) :
    (run w arguments).ending = (InputState.of w i).ending := by
  obtain ⟨hchoices, hlevels⟩ := Invocation.chosen hi
  -- What the settings have to report is logged before there are handlers.
  obtain ⟨stderr, hunready⟩ := logAll_unready w "" (Settings.load w).records
  obtain ⟨t, hsetup⟩ := setup_default hlevels w
  rw [run, hi]
  dsimp only
  rw [runConfigured, hunready, hsettings]
  dsimp only
  rw [hsetup]
  dsimp only
  rw [runInvocation, InputState.of]
  split
  · next input hinput =>
    rw [hinput]
    have hstream : ∀ h ∈ Console.handlersFor t .simple none, h.outlet = .stream := by
      rintro h hh
      cases List.mem_singleton.mp hh
      rfl
    apply ending_runOn _ hconfig hchoices hwritable
    exact ⟨rfl, hstream⟩
  · next hinput =>
    rw [hinput]
    rfl

/-- A directory with the configuration of the program. Its file is without comments here. -/
def installed : List (Location × Entry) :=
  [(["opt"], .directory), (["opt", "config"], .directory),
    (["opt", "config", "config.yaml"], .file (Workspace.encode ("output:\n" ++
      "  default_format: postgres\nrust:\n  serde: false\n  juniper: false\n  sqlite: false\n")))]

/-- The text breaks off in its second line. -/
theorem run_ending_unreadable :
    let w : Workspace :=
      { here := ["work"]
        home := ⟨"/", ["opt"]⟩
        store := ⟨installed ++ [(["work"], .directory), (["work", "sql"], .directory),
          (["work", "e.dal"], .file (Workspace.encode "enum E \x7b A \x7d\r\nenum \x7b"))]⟩
        stamp := ⟨"", ""⟩ }
    (run w ["-i", "e.dal", "-o", "sql/e.sql"]).ending = .status 1 := by
  intro w
  let i : Invocation := { input := some "e.dal", output := some "sql/e.sql" }
  have hwords : Invocation.ofWords ["-i", "e.dal", "-o", "sql/e.sql"] = .ok i :=
    toOption_eq_some_iff.mp (by decide +kernel)
  have hsettings : (Settings.load w).value = .ok {} :=
    toOption_eq_some_iff.mp (by decide +kernel)
  have hconfig : Config.load w = .ok Config.shipped :=
    Config.eq_of_isShipped (by decide +kernel)
  have hwritable : i.Writable w := by
    rintro path ⟨⟩ -
    exact ⟨["work", "sql", "e.sql"], toOption_eq_some_iff.mp (by decide +kernel)⟩
  have hstate : (InputState.of w i).ending = .status 1 := by decide +kernel
  rw [run_ending hwords hsettings hconfig hwritable, hstate]

/-- The name of the variant is the letter `é` in Latin-1. The run is not answered with a status. -/
theorem run_latin_variant :
    let w : Workspace :=
      { here := ["work"]
        home := ⟨"/", ["opt"]⟩
        store := ⟨installed ++ [(["work"], .directory),
          (["work", "r.dal"], .file (Workspace.encode "enum E \x7b " ++ 0xe9 ::
            Workspace.encode " \x7d"))]⟩
        stamp := ⟨"", ""⟩ }
    (Settings.load w).value.toOption = some {} ∧ Config.load w = .ok Config.shipped ∧
      (run w ["-i", "r.dal", "-f", "postgres"]).ending = .failed .notText := by
  intro w
  exact ⟨by decide +kernel, Config.eq_of_isShipped (by decide +kernel), by decide +kernel⟩

end Command

end DalSchema
