import DalSchema.Command.Run
import DalSchema.Proofs.Compiling
import DalSchema.Proofs.Keeping

/-!
# What a run writes

A run that does not end with status zero has written log lines and messages and nothing else. A run
that compiles and ends with status zero has put what the schema compiles to where it belongs, and
nothing else: `run_writes`. Both are about the workspace that the run was given; the one exception
is the log file, with the directories on the way to it: `logSite`.

The output is only written after everything that may fail has been done, writing itself apart. So
each part of a run passes on that nothing has been written so far, up to the part that delivers.
-/

namespace DalSchema.Command

open Log Store

/-! ## What is to be written -/

/-- Where the log file goes that the settings ask for, if they ask for one. -/
def logSite (w : Workspace) : Site :=
  match (Settings.load w).value with
  | .ok s => Log.site w s.logToFile s.logFile
  | .error _ => {}

/-- The workspace once logging has been set up. -/
def readied (w : Workspace) (i : Invocation) : Workspace :=
  match (Settings.load w).value with
  | .ok s => (({} : Console).setup w (loggingSetup i s)).workspace
  | .error _ => w

/-- A value of a section of the configuration. -/
def configured? (config : Value) (name key : String) (fallback : Value) : Option Value :=
  (do Config.get (← Config.contentOf config name) key fallback).toOption

/-- The format that the command line names, or else the one of the configuration. -/
def selector? (config : Value) (i : Invocation) : Option String :=
  i.format.or ((configured? config "output" "default_format" (.text "postgres")).map Value.plain)

/-- Whether an option is on: it was asked for, or the configuration sets it. -/
def isOn (config : Value) (asked : Bool) (key : String) : Bool :=
  asked || (configured? config "rust" key (.flag false)).any Value.isSet

def options (config : Value) (i : Invocation) : RustOptions :=
  ⟨isOn config i.serde "serde", isOn config i.juniper "juniper", isOn config i.sqlite "sqlite"⟩

/-- What the schema in the input of a run compiles to. -/
def output? (w : Workspace) (i : Invocation) : Option String := do
  let path := Path.ofText (← i.input)
  let source ← (w.readText path).toOption
  let config ← (Config.load w).toOption
  let selector ← selector? config i
  let compiled ←
    (compileSource w.surroundings source selector path.text (options config i)).toOption
  compiled.value.output

/-- Apart from the log file nothing has been written. -/
def Report.WritesNothing (site : Site) (w : Workspace) (r : Report) : Prop :=
  r.stdout = "" ∧ w.Keeps site r.workspace

/-- Apart from the log file only the text has been written: to the file that was named for it, or
else to the output stream. -/
def Report.Delivers (site : Site) (w : Workspace) (i : Invocation) (text : String)
    (r : Report) : Prop :=
  match i.output.filter fun path => !path.isEmpty with
  | none => r.stdout = text ∧ w.Keeps site r.workspace
  | some path =>
    r.stdout = "" ∧ w.Keeps { site with files := w.named path :: site.files } r.workspace ∧
      (w.named path ∉ site.files →
        r.workspace.store.get? (w.named path) = some (.file (Workspace.encode text)))

/-! ## Choices -/

theorem toOption_eq_some_iff {ε α : Type} {x : Except ε α} {a : α} :
    x.toOption = some a ↔ x = .ok a := by
  cases x <;> simp [Except.toOption]

theorem selector?_of_selectorOf {config : Value} {i : Invocation} {selector : String}
    (h : selectorOf config i = .ok selector) : selector? config i = some selector := by
  rw [selectorOf] at h
  rw [selector?]
  cases hformat : i.format with
  | some format =>
    rw [hformat] at h
    cases h
    rfl
  | none =>
    rw [hformat] at h
    obtain ⟨section_, hsection, h⟩ := bind_eq_ok_iff.mp h
    obtain ⟨value, hvalue, h⟩ := bind_eq_ok_iff.mp h
    cases h
    have hconfigured : configured? config "output" "default_format" (.text "postgres") =
        some value :=
      toOption_eq_some_iff.mpr (bind_eq_ok_iff.mpr ⟨section_, hsection, hvalue⟩)
    rw [hconfigured]
    rfl

theorem isOn_of_ok {config rust : Value} {asked on : Bool} {key : String}
    (hrust : Config.contentOf config "rust" = .ok rust)
    (h : (if asked then .ok true else do
      return (← Config.get rust key (.flag false)).isSet : Except Failure Bool) = .ok on) :
    isOn config asked key = on := by
  cases asked with
  | true =>
    cases h
    rfl
  | false =>
    obtain ⟨value, hvalue, h⟩ := bind_eq_ok_iff.mp h
    cases h
    have hconfigured : configured? config "rust" key (.flag false) = some value :=
      toOption_eq_some_iff.mpr (bind_eq_ok_iff.mpr ⟨rust, hrust, hvalue⟩)
    rw [isOn, hconfigured]
    rfl

theorem options_of_optionsOf {config : Value} {i : Invocation} {found : RustOptions}
    (h : optionsOf config i = .ok found) : options config i = found := by
  obtain ⟨rust, hrust, h⟩ := bind_eq_ok_iff.mp h
  obtain ⟨serde, hserde, h⟩ := bind_eq_ok_iff.mp h
  obtain ⟨juniper, hjuniper, h⟩ := bind_eq_ok_iff.mp h
  obtain ⟨sqlite, hsqlite, h⟩ := bind_eq_ok_iff.mp h
  cases h
  rw [options, isOn_of_ok hrust hserde, isOn_of_ok hrust hjuniper, isOn_of_ok hrust hsqlite]

theorem selection_eq_ok {w : Workspace} {i : Invocation} {selector : String} {found : RustOptions}
    (h : selection w i = .ok (selector, found)) :
    ∃ config, Config.load w = .ok config ∧ selector? config i = some selector ∧
      options config i = found := by
  obtain ⟨config, hconfig, h⟩ := bind_eq_ok_iff.mp h
  obtain ⟨_, hselector, h⟩ := bind_eq_ok_iff.mp h
  obtain ⟨_, hoptions, h⟩ := bind_eq_ok_iff.mp h
  cases h
  exact ⟨config, hconfig, selector?_of_selectorOf hselector, options_of_optionsOf hoptions⟩

theorem output_of_success {around : Surroundings} {source : List Char}
    {selector fileName : String} {options : RustOptions} {compiled : Logged Outcome}
    (h : compileSource around source selector fileName options = .ok compiled)
    (hsuccess : compiled.value.success = true) :
    ∃ text, compiled.value.output = some text := by
  rw [compileSource] at h
  split at h
  · cases h
  · next format _ =>
    rcases hparse : ({} : Ledger).parse source with ⟨fault | schema, after⟩
    · obtain ⟨failed, hfailed, hvalue⟩ := compileAs_of_error around selector fileName hparse
      cases hfailed.symm.trans h
      rw [hvalue] at hsuccess
      cases hsuccess
    · obtain ⟨text, htext⟩ := format.exists_render options schema
      obtain ⟨written, hwritten, hvalue⟩ :=
        compileAs_of_ok around selector fileName hparse htext
      cases hwritten.symm.trans h
      exact ⟨text, by rw [hvalue]⟩

/-! ## Nothing has been written so far -/

/-- Apart from the log file nothing has been written so far, and logging will keep it so. -/
structure Progress.Within (site : Site) (w : Workspace) (p : Progress) : Prop where
  keeps : w.Keeps site p.workspace
  writesTo : p.console.WritesTo site

section

variable {site : Site} {w : Workspace} {p : Progress}

theorem Progress.Within.log (h : p.Within site w) (r : Record) : (p.log r).Within site w :=
  ⟨h.keeps.trans (Console.keeps_log h.writesTo p.workspace r), h.writesTo⟩

theorem Progress.Within.logAll (h : p.Within site w) (records : List Record) :
    (p.logAll records).Within site w := by
  induction records generalizing p with
  | nil => exact h
  | cons r rest ih => exact ih (h.log r)

theorem Progress.Within.finish (h : p.Within site w) (ending : Ending) :
    (p.finish ending).WritesNothing site w :=
  ⟨rfl, h.keeps⟩

/-- A report is of a run that has failed and written nothing, or of one that has ended well and,
unless it was a check, delivered the output, with its files read from `v`. -/
def Report.Answers (site : Site) (w v : Workspace) (i : Invocation) (r : Report) :
    Prop :=
  r.ending ≠ .status 0 ∧ r.WritesNothing site w ∨
    r.ending = .status 0 ∧
      (i.check = false → ∃ text, output? v i = some text ∧ r.Delivers site w i text)

theorem Progress.Within.answers (h : p.Within site w) {ending : Ending}
    (hending : ending ≠ .status 0) (v : Workspace) (i : Invocation) :
    (p.finish ending).Answers site w v i :=
  .inl ⟨hending, h.finish ending⟩

theorem Progress.Within.answers_complain (h : p.Within site w) (message : String)
    (v : Workspace) (i : Invocation) : (p.complain message).Answers site w v i :=
  .inl ⟨by rintro ⟨⟩, rfl, h.keeps⟩

theorem answers_deliverOutput (h : p.Within site w) {v : Workspace} {i : Invocation}
    {o : Outcome} {text : String} (htext : o.output = some text)
    (houtput : output? v i = some text) : (deliverOutput p i o).Answers site w v i := by
  rw [deliverOutput, htext, Option.getD_some]
  cases hpath : i.output.filter fun path => !path.isEmpty with
  | none =>
    refine .inr ⟨rfl, fun _ => ⟨text, houtput, ?_⟩⟩
    rw [Report.Delivers, hpath]
    exact ⟨rfl, (h.log _).keeps⟩
  | some path =>
    dsimp only
    split
    · exact h.answers (by rintro ⟨⟩) v i
    · next u hwritten =>
      refine .inr ⟨rfl, fun _ => ⟨text, houtput, ?_⟩⟩
      rw [Report.Delivers, hpath]
      obtain ⟨hkeeps, hfile⟩ := Workspace.keeps_writeText hwritten
      rw [h.keeps.named_eq] at hkeeps hfile
      -- the summary is logged after the output was written, and may only touch the log file
      have hlog := Console.keeps_log h.writesTo u (summaryRecord o)
      refine ⟨rfl, ?_, fun hplace => hlog.get?_of_file hplace hfile⟩
      have hsite : site.Within { site with files := w.named path :: site.files } :=
        ⟨List.subset_cons_self _ _, List.Subset.refl _⟩
      exact ((h.keeps.mono hsite).trans (hkeeps.mono (by simp [Site.Within]))).trans
        (hlog.mono hsite)

theorem answers_runCheck (h : p.Within site w) {i : Invocation} (hcheck : i.check = true)
    (v : Workspace) (source : List Char) (fileName : String) :
    (runCheck p source fileName).Answers site w v i := by
  rw [runCheck]
  split
  · refine .inr ⟨rfl, ?_⟩
    rw [hcheck]
    rintro ⟨⟩
  · exact (h.logAll _).answers_complain _ v i

section

variable {i : Invocation} {input : String} {source : List Char}

theorem output?_eq_some (hinput : i.input = some input)
    (hsource : w.readText (.ofText input) = .ok source) {selector : String}
    {found : RustOptions} (hselection : selection w i = .ok (selector, found))
    {compiled : Logged Outcome}
    (hcompiled : compileSource w.surroundings source selector (Path.ofText input).text found =
      .ok compiled) :
    output? w i = compiled.value.output := by
  obtain ⟨config, hconfig, hselector, rfl⟩ := selection_eq_ok hselection
  simp [output?, hinput, hsource, hconfig, hselector, hcompiled, Except.toOption]

theorem answers_runCompile (h : p.Within site w) (hinput : i.input = some input)
    (hsource : p.workspace.readText (.ofText input) = .ok source) :
    (runCompile p i source (Path.ofText input).text).Answers site w p.workspace i := by
  unfold runCompile
  split
  · exact h.answers_complain _ _ i
  · exact h.answers_complain _ _ i
  · exact h.answers (by rintro ⟨⟩) _ i
  · next selector found hselection =>
    split
    · exact h.answers_complain _ _ i
    · exact h.answers (by rintro ⟨⟩) _ i
    · next compiled hcompiled =>
      dsimp only
      split
      · next hsuccess =>
        obtain ⟨text, htext⟩ := output_of_success hcompiled hsuccess
        have houtput := output?_eq_some hinput hsource hselection hcompiled
        exact answers_deliverOutput (h.logAll _) htext (houtput.trans htext)
      · exact (h.logAll _).answers_complain _ _ i

theorem answers_runInvocation (h : p.Within site w) :
    (runInvocation p i).Answers site w p.workspace i := by
  rw [runInvocation]
  split
  · next input hinput =>
    unfold runOn
    split
    · exact h.answers_complain _ _ i
    · exact h.answers (by rintro ⟨⟩) _ i
    · next source hsource =>
      split
      · next hcheck => exact answers_runCheck h hcheck _ _ _
      · exact answers_runCompile h hinput hsource
  · exact h.answers (by rintro ⟨⟩) _ i

end

end

/-- Before logging is set up, nothing but messages comes of it. -/
theorem logAll_unready (w : Workspace) (stderr : String) (records : List Record) :
    ∃ more, ({ workspace := w, stderr } : Progress).logAll records =
      { workspace := w, stderr := more } := by
  induction records generalizing stderr with
  | nil => exact ⟨stderr, rfl⟩
  | cons r rest ih =>
    have hstep : ({ workspace := w, stderr } : Progress).log r =
        { workspace := (Console.log {} w r).2, stderr := stderr ++ (Console.log {} w r).1 } := rfl
    rw [Console.log_of_handlers_nil rfl] at hstep
    obtain ⟨more, hmore⟩ := ih (stderr ++ (Console.log {} w r).1)
    rw [← hstep] at hmore
    exact ⟨more, hmore⟩

theorem grows_readied (w : Workspace) (i : Invocation) : w.Grows (logSite w) (readied w i) := by
  unfold logSite readied
  split
  · next s hs => exact (Console.grows_setup w (s := loggingSetup i s) rfl).1
  · exact .refl

theorem answers_runConfigured (w : Workspace) (i : Invocation) :
    (runConfigured w i).Answers (logSite w) w (readied w i) i := by
  obtain ⟨stderr, hunready⟩ := logAll_unready w "" (Settings.load w).records
  unfold runConfigured logSite readied
  dsimp only
  rw [hunready]
  cases hs : (Settings.load w).value with
  | error f => exact .inl ⟨by rintro ⟨⟩, rfl, .refl⟩
  | ok s =>
    obtain ⟨hgrows, hwrites⟩ := Console.grows_setup w (s := loggingSetup i s) rfl
    have hwithin : Progress.Within (Log.site w s.logToFile s.logFile) w
        ⟨(Console.setup {} w (loggingSetup i s)).workspace,
          (Console.setup {} w (loggingSetup i s)).console,
          stderr ++ (Console.setup {} w (loggingSetup i s)).stderr⟩ := ⟨hgrows.keeps, hwrites⟩
    dsimp only
    split
    · exact hwithin.answers (by rintro ⟨⟩) _ i
    · exact answers_runInvocation hwithin

/-- A run that does not end with status zero has written nothing; a run that compiles and ends with
status zero has put the output where it belongs, and has written nothing else. -/
theorem run_writes (w : Workspace) (arguments : List String) :
    ((run w arguments).ending ≠ .status 0 → (run w arguments).WritesNothing (logSite w) w) ∧
    ∀ i, Invocation.ofWords arguments = .ok i → i.check = false →
      (run w arguments).ending = .status 0 →
      ∃ text, w.Grows (logSite w) (readied w i) ∧ output? (readied w i) i = some text ∧
        (run w arguments).Delivers (logSite w) w i text := by
  rw [run]
  split
  · next hhelp =>
    refine ⟨fun hending => absurd rfl hending, ?_⟩
    intro i hi
    rw [hhelp] at hi
    cases hi
  · next message hrefused =>
    refine ⟨fun _ => ⟨rfl, .refl⟩, ?_⟩
    intro i hi
    rw [hrefused] at hi
    cases hi
  · next i hi =>
    have hanswers := answers_runConfigured w i
    constructor
    · intro hending
      rcases hanswers with ⟨-, hnothing⟩ | ⟨hzero, -⟩
      · exact hnothing
      · exact absurd hzero hending
    · intro j hj hcheck hending
      cases hi.symm.trans hj
      rcases hanswers with ⟨hne, -⟩ | ⟨-, hdelivers⟩
      · exact absurd hending hne
      · obtain ⟨text, houtput, hdelivered⟩ := hdelivers hcheck
        exact ⟨text, grows_readied w i, houtput, hdelivered⟩

/-- The settings ask for a log file here, so a directory and the file are made for it. The format
is the one of the configuration. -/
theorem run_writes_logged :
    let w : Workspace :=
      { here := ["work"]
        home := ⟨"/", ["opt"]⟩
        store := ⟨[(["opt"], .directory), (["opt", "config"], .directory),
          (["opt", "config", "config.yaml"],
            .file (Workspace.encode "output: \x7bdefault_format: sqlite\x7d")),
          (["work"], .directory),
          (["work", "e.dal"], .file (Workspace.encode "enum E \x7b A \x7d\n"))]⟩
        environment := [("DALGEN_LOG_TO_FILE", "yes"), ("DALGEN_LOG_LEVEL", "INFO")]
        stamp := ⟨"", ""⟩ }
    let i : Invocation := { input := some "e.dal", output := some "e.sql" }
    let r := run w ["-i", "e.dal", "-o", "e.sql"]
    (logSite w).files = [["opt", "logs", "dalgen.log"]] ∧ r.ending = .status 0 ∧
      ∃ text, output? (readied w i) i = some text ∧ r.stdout = "" ∧
        r.workspace.store.get? ["work", "e.sql"] = some (.file (Workspace.encode text)) := by
  intro w i r
  have hplaces : (logSite w).files = [["opt", "logs", "dalgen.log"]] := by decide +kernel
  have hending : r.ending = .status 0 := by decide +kernel
  have hwords : Invocation.ofWords ["-i", "e.dal", "-o", "e.sql"] = .ok i :=
    toOption_eq_some_iff.mp (by decide +kernel)
  have hnamed : w.named "e.sql" = ["work", "e.sql"] := by decide +kernel
  obtain ⟨text, -, houtput, hout, -, hfile⟩ := (run_writes w _).2 i hwords rfl hending
  rw [hnamed, hplaces] at hfile
  exact ⟨hplaces, hending, text, houtput, hout, hfile (by decide)⟩

end DalSchema.Command
