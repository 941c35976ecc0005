import DalSchema.Command.Run
import DalSchema.Proofs.Keeping

/-!
# Logging from step to step

Logging is set up, records are logged and log files are removed, in any order. The last setup alone
decides what becomes of a record: `after_lastSetup`. Handlers of earlier setups are gone, and
removing a file takes no handler away. A record without a level is not logged even where every level
is let through; `notSet_unlogged` is such a record.

A handler has its file open until the file is removed: `Configured` says so with `linked`. As long
as it holds, the file is there, so a line is added to what is in it.
-/

namespace DalSchema

open Log Store

/-! ## Lines -/

namespace Log

theorem Level.newline_not_mem_word (l : Level) : '\n' ∉ l.word.toList := by
  rw [Level.word]
  split
  · next name level hfind =>
    have hnames : ∀ entry ∈ Level.named, '\n' ∉ entry.1.toList := by decide
    exact hnames _ (List.mem_of_find?_eq_some hfind)
  · have hdigits : ∀ n : Nat, '\n' ∉ n.repr.toList := by
      intro n hmem
      rw [Nat.toList_repr] at hmem
      cases Nat.isDigit_of_mem_toDigits (by decide) (by decide) hmem
    rw [String.toList_append, List.mem_append]
    rintro (hmem | hmem)
    · revert hmem
      decide
    · rw [Int.toString_eq_repr] at hmem
      cases hrank : l.rank with
      | ofNat n =>
        rw [hrank] at hmem
        exact hdigits n hmem
      | negSucc n =>
        rw [hrank, Int.repr, String.toList_append, List.mem_append] at hmem
        rcases hmem with hmem | hmem
        · revert hmem
          decide
        · exact hdigits _ hmem

/-- The text of one record: it shows the level, the logger and the message, in this order, and ends
its line. If none of what is put into it has a line end, it is one line. -/
structure Shown (stamp : Stamp) (r : Record) (text : String) : Prop where
  parts : ∃ before between after,
    text = before ++ r.level.word ++ between ++ r.logger ++ after ++ r.message ++ "\n"
  oneLine : (∀ part ∈ [stamp.time, stamp.place, r.logger, r.message], '\n' ∉ part.toList) →
    text.toList.count '\n' = 1

theorem Shown.ne_empty {stamp : Stamp} {r : Record} {text : String} (h : Shown stamp r text) :
    text ≠ "" := by
  obtain ⟨before, between, after, rfl⟩ := h.parts
  intro hempty
  have hend := congrArg String.toList hempty
  simp at hend

theorem Layout.shown_line (stamp : Stamp) (r : Record) (layout : Layout) :
    Shown stamp r (layout.line stamp r) := by
  have hword := List.count_eq_zero.mpr r.level.newline_not_mem_word
  cases layout with
  | simple =>
    refine ⟨⟨"", " | ", " | ", ?_⟩, ?_⟩
    · simp [Layout.line, String.append_assoc]
    · intro h
      simp only [List.forall_mem_cons, ← List.count_eq_zero] at h
      simp [Layout.line, hword, h]
  | detailed =>
    let padding := String.ofList (List.replicate (8 - r.level.word.length) ' ')
    refine ⟨⟨stamp.time ++ " | ", padding ++ " | ", " | " ++ stamp.place ++ " | ", ?_⟩, ?_⟩
    · simp [Layout.line, Layout.padded, padding, String.append_assoc]
    · intro h
      simp only [List.forall_mem_cons, ← List.count_eq_zero] at h
      simp [Layout.line, Layout.padded, List.count_replicate, hword, h]

end Log

/-! ## Files that are removed or added to -/

namespace Store

variable {s : Store} {l place : Location}

theorem lookup_filter_ne (h : l ≠ place) (entries : List (Location × Entry)) :
    (entries.filter fun entry => entry.1 != place).lookup l = entries.lookup l := by
  induction entries with
  | nil => rfl
  | cons entry rest ih =>
    obtain ⟨m, e⟩ := entry
    by_cases hm : m = place
    · have hlm : (l == m) = false := beq_eq_false_iff_ne.mpr (hm ▸ h)
      simp [hm, ih, List.lookup_cons, hm ▸ hlm]
    · simp [hm, ih, List.lookup_cons]

theorem get?_remove_of_ne (h : l ≠ place) : (s.remove place).get? l = s.get? l := by
  rw [get?, get?, remove, lookup_filter_ne h]

theorem get?_append_of_file {content : List UInt8} (h : s.get? place = some (.file content))
    (more : List UInt8) : (s.append place more).get? place = some (.file (content ++ more)) := by
  have hne : place ≠ [] := ne_nil_of_get? (by rw [h]; rintro ⟨⟩)
  rw [append, h]
  simp [get?_put hne]

end Store

/-- The location of a log file. -/
def Log.filePlace (w : Workspace) (file : Option String) : Location :=
  w.named (filePath w file).collapsed.text

namespace Workspace

variable {w v : Workspace}

theorem Grows.filePlace_eq {site : Site} (h : w.Grows site v) : filePlace v = filePlace w := by
  rw [h.1]
  rfl

theorem removeFile_cases {p : Path} (h : w.removeFile p = .ok v) :
    v = w ∨ ∃ l, w.locate p = .ok l ∧ v = { w with store := w.store.remove l } := by
  obtain ⟨there, -, h⟩ := bind_eq_ok_iff.mp h
  cases there with
  | false =>
    cases h
    exact .inl rfl
  | true =>
    obtain ⟨l, hl, h⟩ := bind_eq_ok_iff.mp (about_eq_ok_iff.mp h)
    dsimp only at h
    split at h
    · cases h
    · split at h
      · cases h
      · cases h
        exact .inr ⟨l, hl, rfl⟩

end Workspace

namespace Console

variable {c : Console} {w : Workspace}

theorem filePlace_handle (w : Workspace) (r : Record) (h : Handler) :
    filePlace (handle w r h).2 = filePlace w := by
  rw [handle]
  split
  · dsimp only
    split <;> rfl
  · rfl

theorem filePlace_handleAll (r : Record) (w : Workspace) (hs : List Handler) :
    filePlace (handleAll r w hs).2 = filePlace w := by
  induction hs generalizing w with
  | nil => rfl
  | cons h rest ih => exact (ih _).trans (filePlace_handle w r h)

theorem filePlace_log (c : Console) (w : Workspace) (r : Record) :
    filePlace (c.log w r).2 = filePlace w := by
  rw [log]
  split
  · rfl
  · split
    · rfl
    · exact filePlace_handleAll r w c.handlers

/-- Directories are made first, and they stay. Then the file is removed and no handler has it open
any more, or it is not, with a warning if the system refuses. -/
theorem clear_cases (c : Console) (w : Workspace) (file : Option String) :
    ∃ u, w.Grows ⟨[], w.ways (filePath w file)⟩ u ∧
      ((c.clear w file).console = c ∧
          ((c.clear w file).workspace = u ∨ ∃ r, (c.clear w file).workspace = (c.log u r).2) ∨
        ∃ l, (c.clear w file).console = c.unlink l ∧
          ((c.clear w file).workspace = u ∨
            (c.clear w file).workspace = { u with store := u.store.remove l })) := by
  have hgrows : w.Grows ⟨[], w.ways (filePath w file)⟩ (w.makeParent (filePath w file)).2 :=
    Workspace.grows_makeParent (List.Subset.refl _)
  rw [clear]
  rcases hmade : w.makeParent (filePath w file) with ⟨f | _, u⟩ <;> rw [hmade] at hgrows
  · exact ⟨u, hgrows, .inl ⟨rfl, .inl rfl⟩⟩
  · refine ⟨u, hgrows, ?_⟩
    dsimp only
    split
    · exact .inl ⟨rfl, .inr ⟨_, rfl⟩⟩
    · exact .inl ⟨rfl, .inl rfl⟩
    · next cleared hcleared =>
      rcases Workspace.removeFile_cases hcleared with rfl | ⟨l, hl, rfl⟩
      · split
        · next l _ => exact .inr ⟨l, rfl, .inl rfl⟩
        · exact .inl ⟨rfl, .inl rfl⟩
      · rw [hl]
        exact .inr ⟨l, rfl, .inr rfl⟩

theorem filePlace_clear (c : Console) (w : Workspace) (file : Option String) :
    filePlace (c.clear w file).workspace = filePlace w := by
  obtain ⟨u, hgrows, ⟨-, hv | ⟨r, hv⟩⟩ | ⟨l, -, hv | hv⟩⟩ := c.clear_cases w file <;>
    rw [hv, ← hgrows.filePlace_eq]
  · exact c.filePlace_log u r
  · rfl

theorem install_cases {s : Setup} (h : (c.install w s).failure = none) :
    ∃ t, Level.ofName s.level = .ok t ∧
      (s.toFile = false ∧ (c.install w s).console = ⟨t, handlersFor t s.layout none⟩ ∧
          (c.install w s).workspace = w ∨
        s.toFile = true ∧ ∃ place, (openFile w s.file).1 = .ok place ∧
          (c.install w s).console = ⟨t, handlersFor t s.layout (some place)⟩ ∧
          (c.install w s).workspace = (openFile w s.file).2) := by
  rw [install] at h ⊢
  cases ht : Level.ofName s.level with
  | error f =>
    rw [ht] at h
    cases h
  | ok t =>
    rw [ht] at h
    refine ⟨t, rfl, ?_⟩
    cases hfile : s.toFile with
    | false => exact .inl ⟨rfl, rfl, rfl⟩
    | true =>
      rcases hopen : openFile w s.file with ⟨f | place, v⟩
      · rw [hfile, hopen] at h
        cases h
      · exact .inr ⟨rfl, place, rfl, rfl, rfl⟩

theorem setup_of_clear {s : Setup} (hclear : (s.clearFirst && s.toFile) = true)
    (h : (c.clear w s.file).failure = none) :
    c.setup w s = { (c.clear w s.file).console.install (c.clear w s.file).workspace s with
      stderr := (c.clear w s.file).stderr } := by
  simp only [setup, hclear, h, ite_true]

theorem setup_of_failure {s : Setup} (hclear : (s.clearFirst && s.toFile) = true) {f : Failure}
    (h : (c.clear w s.file).failure = some f) : c.setup w s = c.clear w s.file := by
  simp only [setup, hclear, h, ite_true]

theorem setup_cases {s : Setup} (h : (c.setup w s).failure = none) :
    ∃ (d : Console) (v : Workspace), filePlace v = filePlace w ∧ (d.install v s).failure = none ∧
      (c.setup w s).console = (d.install v s).console ∧
      (c.setup w s).workspace = (d.install v s).workspace := by
  cases hclear : s.clearFirst && s.toFile with
  | false =>
    have hsetup : c.setup w s = c.install w s := by simp [setup, hclear]
    rw [hsetup] at h ⊢
    exact ⟨c, w, rfl, h, rfl, rfl⟩
  | true =>
    cases hfailure : (c.clear w s.file).failure with
    | some f =>
      rw [setup_of_failure hclear hfailure, hfailure] at h
      cases h
    | none =>
      rw [setup_of_clear hclear hfailure] at h ⊢
      have hplace := c.filePlace_clear w s.file
      generalize c.clear w s.file = cleared at h hplace ⊢
      exact ⟨cleared.console, cleared.workspace, hplace, h, rfl, rfl⟩

/-- Logging is done as a setup asks for: a handler writes to the error stream, and one to a file if
the setup says so, all with the level of the setup. -/
structure Configured (s : Setup) (place : Location) (linked : Bool) (c : Console) (w : Workspace) :
    Prop where
  threshold_eq : Level.ofName s.level = .ok c.threshold
  handlers_eq : c.handlers = ⟨.stream, c.threshold, s.layout⟩ ::
    if s.toFile then [⟨.file place linked, c.threshold, s.layout⟩] else []
  file_of_linked : s.toFile = true → linked = true →
    ∃ content, w.store.get? place = some (.file content)

theorem configured_setup {s : Setup} (h : (c.setup w s).failure = none) :
    Configured s (filePlace w s.file) true (c.setup w s).console (c.setup w s).workspace ∧
      filePlace (c.setup w s).workspace = filePlace w := by
  -- Handlers are installed afresh, so nothing is asked of the console they replace.
  obtain ⟨d, v, hplace, hinstalled, hconsole, hworkspace⟩ := setup_cases h
  rw [hconsole, hworkspace, ← hplace]
  obtain ⟨t, ht, ⟨hfile, hc, hv⟩ | ⟨hfile, place, hopen, hc, hv⟩⟩ := install_cases hinstalled
  · rw [hc, hv]
    refine ⟨⟨ht, ?_, ?_⟩, rfl⟩
    · rw [hfile]
      rfl
    · rw [hfile]
      rintro ⟨⟩
  · obtain ⟨hgrows, hopened⟩ := Workspace.grows_openFile v s.file
    obtain ⟨hnamed, hcontent⟩ := hopened place hopen
    have hfilePlace : filePlace v s.file = place := hnamed.symm
    rw [hc, hv, hfilePlace]
    refine ⟨⟨ht, ?_, fun _ _ => hcontent⟩, hgrows.filePlace_eq⟩
    rw [hfile]
    rfl

end Console

def Log.Setup.line (s : Setup) (w : Workspace) (r : Record) : String :=
  s.layout.line w.stamp (Console.named r)

/-! ## What a record comes to -/

namespace Console

/-- What comes of a record when logging is done as a setup asks for: the text for the error stream
and the files after it. The record has to have a level, and one that reaches the level of the setup.
Then it is shown once on the error stream, and once more at the end of the log file if there is one
that is open. No other file changes. -/
structure LogsTo (s : Setup) (t : Level) (place : Location) (linked : Bool) (r : Record)
    (w : Workspace) (text : String) (v : Workspace) : Prop where
  text_eq : text = if 0 < r.level.rank ∧ t.rank ≤ r.level.rank then s.line w r else ""
  line_ne_empty : s.line w r ≠ ""
  shown : Shown w.stamp (named r) (s.line w r)
  added : s.toFile = true → linked = true → 0 < r.level.rank → t.rank ≤ r.level.rank →
    ∃ content, w.store.get? place = some (.file content) ∧
      v.store.get? place = some (.file (content ++ Workspace.encode (s.line w r)))
  unchanged : ∀ l, (l = place → s.toFile = true → linked = true →
      ¬(0 < r.level.rank ∧ t.rank ≤ r.level.rank)) →
    v.store.get? l = w.store.get? l

theorem admits_iff {c : Console} {l : Level} :
    c.admits l = true ↔ 0 < l.rank ∧ c.threshold.rank ≤ l.rank := by
  simp [admits, Level.reaches]

namespace Configured

variable {s : Setup} {place : Location} {linked : Bool} {c : Console} {w : Workspace}

theorem log_eq (h : Configured s place linked c w) (r : Record) :
    c.log w r =
      (if c.admits r.level then s.line w r else "",
        { w with store :=
            if s.toFile && linked && c.admits r.level then
              w.store.append place (Workspace.encode (s.line w r))
            else w.store }) := by
  rw [Console.log, h.handlers_eq]
  cases hadmits : c.admits r.level with
  | false => simp
  | true =>
    have hreaches : r.level.reaches c.threshold = true := (Bool.and_eq_true_iff.mp hadmits).2
    cases s.toFile with
    | false => simp [handleAll, handle, hreaches, Setup.line]
    | true => cases linked <;> simp [handleAll, handle, hreaches, Setup.line]

theorem logsTo (h : Configured s place linked c w) (r : Record) :
    LogsTo s c.threshold place linked r w (c.log w r).1 (c.log w r).2 := by
  have hshown := s.layout.shown_line w.stamp (named r)
  rw [h.log_eq r]
  refine ⟨?_, hshown.ne_empty, hshown, ?_, ?_⟩
  · simp only [admits_iff]
  · intro hfile hlinked hlevel hreaches
    obtain ⟨content, hcontent⟩ := h.file_of_linked hfile hlinked
    have hadmits := admits_iff.mpr ⟨hlevel, hreaches⟩
    refine ⟨content, hcontent, ?_⟩
    dsimp only
    rw [if_pos (by simp [hfile, hlinked, hadmits])]
    exact Store.get?_append_of_file hcontent _
  · intro l hl
    dsimp only
    split
    · next hwrites =>
      simp only [Bool.and_eq_true] at hwrites
      obtain ⟨⟨hfile, hlinked⟩, hadmits⟩ := hwrites
      refine Store.get?_append_of_ne ?_ _
      intro hplace
      exact hl hplace hfile hlinked (admits_iff.mp hadmits)
    · rfl

theorem log (h : Configured s place linked c w) (r : Record) :
    Configured s place linked c (c.log w r).2 := by
  refine ⟨h.threshold_eq, h.handlers_eq, ?_⟩
  intro hfile hlinked
  by_cases hadmits : 0 < r.level.rank ∧ c.threshold.rank ≤ r.level.rank
  · obtain ⟨content, -, hcontent⟩ := (h.logsTo r).added hfile hlinked hadmits.1 hadmits.2
    exact ⟨_, hcontent⟩
  · rw [(h.logsTo r).unchanged place fun _ _ _ => hadmits]
    exact h.file_of_linked hfile hlinked

theorem grow (h : Configured s place linked c w) {site : Site} (hsite : site.files = [])
    {u : Workspace} (hu : w.Grows site u) : Configured s place linked c u := by
  refine ⟨h.threshold_eq, h.handlers_eq, ?_⟩
  intro hfile hlinked
  obtain ⟨content, hcontent⟩ := h.file_of_linked hfile hlinked
  exact ⟨content, hu.keeps.get?_of_file (hsite ▸ List.not_mem_nil) hcontent⟩

theorem unlink (h : Configured s place linked c w) (l : Location) {store : Store}
    (hstore : ∀ m, m ≠ l → store.get? m = w.store.get? m) :
    Configured s place (linked && place != l) (c.unlink l) { w with store } := by
  refine ⟨h.threshold_eq, ?_, ?_⟩
  · dsimp only [Console.unlink]
    rw [h.handlers_eq]
    cases s.toFile with
    | false => rfl
    | true =>
      by_cases hplace : place = l <;> simp [hplace]
  · -- A handler that still has its file open was not meant.
    intro hfile hlinked
    obtain ⟨hlinked, hne⟩ := Bool.and_eq_true_iff.mp hlinked
    obtain ⟨content, hcontent⟩ := h.file_of_linked hfile hlinked
    exact ⟨content, (hstore place (bne_iff_ne.mp hne)).trans hcontent⟩

theorem clear (h : Configured s place linked c w) (file : Option String) :
    ∃ kept, Configured s place kept (c.clear w file).console (c.clear w file).workspace := by
  obtain ⟨u, hu, ⟨hc, hv | ⟨r, hv⟩⟩ | ⟨l, hc, hv | hv⟩⟩ := c.clear_cases w file <;> rw [hc, hv]
  · exact ⟨linked, h.grow rfl hu⟩
  · exact ⟨linked, (h.grow rfl hu).log r⟩
  · exact ⟨_, (h.grow rfl hu).unlink l fun m _ => rfl⟩
  · exact ⟨_, (h.grow rfl hu).unlink l fun m hm => Store.get?_remove_of_ne hm⟩

end Configured

end Console

namespace Command

/-! ## Steps -/

/-- What may be done about logging. -/
inductive LogStep where
  | setup (s : Setup)
  | log (r : Record)
  | clear (file : Option String)

def LogStep.isSetup : LogStep → Bool
  | setup _ => true
  | log _ | clear _ => false

namespace Progress

/-- What is left after a change to logging, also if it was not done in full. -/
def changed (p : Progress) (change : Console.Change) : Progress :=
  ⟨change.workspace, change.console, p.stderr ++ change.stderr⟩

/-- Takes a step. A setup that fails ends the steps, and a file that cannot be removed does not. -/
def step (p : Progress) : LogStep → Except Failure Progress
  | .setup s =>
    let change := p.console.setup p.workspace s
    match change.failure with
    | none => .ok (p.changed change)
    | some f => .error f
  | .log r => .ok (p.log r)
  | .clear file => .ok (p.changed (p.console.clear p.workspace file))

def after (p : Progress) (steps : List LogStep) : Except Failure Progress := steps.foldlM step p

def Configured (s : Setup) (place : Location) (linked : Bool) (p : Progress) : Prop :=
  Console.Configured s place linked p.console p.workspace

section

variable {p q : Progress} {s : Setup} {place : Location} {linked : Bool}

theorem workspace_changed (p : Progress) (change : Console.Change) :
    (p.changed change).workspace = change.workspace := rfl

theorem configured_changed {change : Console.Change}
    (h : Console.Configured s place linked change.console change.workspace) :
    (p.changed change).Configured s place linked := h

theorem configured_setup (h : p.step (.setup s) = .ok q) :
    q.Configured s (filePlace p.workspace s.file) true ∧
      filePlace q.workspace = filePlace p.workspace := by
  rw [step] at h
  cases hfailure : (p.console.setup p.workspace s).failure with
  | some f =>
    simp only [hfailure] at h
    cases h
  | none =>
    simp only [hfailure] at h
    obtain rfl := Except.ok.inj h
    rw [workspace_changed]
    obtain ⟨hconfigured, hplace⟩ := Console.configured_setup hfailure
    exact ⟨configured_changed hconfigured, hplace⟩

theorem filePlace_step {next : LogStep} (h : p.step next = .ok q) :
    filePlace q.workspace = filePlace p.workspace := by
  cases next with
  | setup s => exact (configured_setup h).2
  | log r =>
    cases h
    exact Console.filePlace_log p.console p.workspace r
  | clear file =>
    rw [step] at h
    obtain rfl := Except.ok.inj h
    rw [workspace_changed, Console.filePlace_clear]

theorem after_cons {next : LogStep} {rest : List LogStep} :
    p.after (next :: rest) = .ok q ↔ ∃ m, p.step next = .ok m ∧ m.after rest = .ok q :=
  bind_eq_ok_iff

theorem after_append {steps later : List LogStep} :
    p.after (steps ++ later) = .ok q ↔ ∃ m, p.after steps = .ok m ∧ m.after later = .ok q := by
  rw [after, List.foldlM_append, bind_eq_ok_iff]
  rfl

theorem filePlace_after {steps : List LogStep} (h : p.after steps = .ok q) :
    filePlace q.workspace = filePlace p.workspace := by
  induction steps generalizing p with
  | nil =>
    cases h
    rfl
  | cons next rest ih =>
    obtain ⟨m, hm, hq⟩ := after_cons.mp h
    exact (ih hq).trans (filePlace_step hm)

namespace Configured

theorem step (h : p.Configured s place linked) {next : LogStep} (hnext : next.isSetup = false)
    (hq : p.step next = .ok q) :
    ∃ kept, q.Configured s place kept ∧ ((∀ file, next ≠ .clear file) → kept = linked) := by
  cases next with
  | setup own => cases hnext
  | log r =>
    cases hq
    exact ⟨linked, h.log r, fun _ => rfl⟩
  | clear file =>
    rw [Progress.step] at hq
    obtain rfl := Except.ok.inj hq
    obtain ⟨kept, hkept⟩ := Console.Configured.clear h file
    exact ⟨kept, configured_changed hkept, fun hne => absurd rfl (hne file)⟩

theorem after (h : p.Configured s place linked) {steps : List LogStep}
    (hsteps : ∀ next ∈ steps, next.isSetup = false) (hq : p.after steps = .ok q) :
    ∃ kept, q.Configured s place kept ∧ ((∀ file, .clear file ∉ steps) → kept = linked) := by
  induction steps generalizing p linked with
  | nil =>
    cases hq
    exact ⟨linked, h, fun _ => rfl⟩
  | cons next rest ih =>
    obtain ⟨hnext, hrest⟩ := List.forall_mem_cons.mp hsteps
    obtain ⟨m, hm, hq⟩ := after_cons.mp hq
    obtain ⟨kept, hkept, heq⟩ := h.step hnext hm
    obtain ⟨left, hleft, hclear⟩ := ih hkept hrest hq
    refine ⟨left, hleft, ?_⟩
    intro hnone
    have hkeep : kept = linked := heq fun file hfile => hnone file (hfile ▸ List.mem_cons_self)
    rw [← hkeep]
    exact hclear fun file hmem => hnone file (List.mem_cons_of_mem next hmem)

end Configured

end

/-- After steps in which every setup succeeds, logging is done as the last one says, whatever came
before it and whichever files have been removed. -/
theorem after_lastSetup {p q : Progress} {earlier later : List LogStep} {s : Setup}
    (hlater : ∀ next ∈ later, next.isSetup = false)
    (h : p.after (earlier ++ .setup s :: later) = .ok q) :
    ∃ t linked, Level.ofName s.level = .ok t ∧
      q.Configured s (filePlace p.workspace s.file) linked ∧
      (∀ r, ∃ text, (q.log r).stderr = q.stderr ++ text ∧
        Console.LogsTo s t (filePlace p.workspace s.file) linked r q.workspace text
          (q.log r).workspace) ∧
      ((∀ file, .clear file ∉ later) → linked = true) := by
  obtain ⟨m, hm, h⟩ := after_append.mp h
  obtain ⟨ready, hready, hq⟩ := after_cons.mp h
  have hsetup := (configured_setup hready).1
  rw [filePlace_after hm] at hsetup
  obtain ⟨linked, hlinked, hkept⟩ := hsetup.after hlater hq
  exact ⟨q.console.threshold, linked, hlinked.threshold_eq, hlinked,
    fun r => ⟨_, rfl, hlinked.logsTo r⟩, hkept⟩

/-- The second setup lowers the level and names another file. The first file is removed when no
handler has it open any more. -/
theorem after_lastSetup_two_files :
    let p : Progress := { workspace :=
      { here := ["work"]
        home := ⟨"/", ["opt"]⟩
        store := ⟨[(["opt"], .directory), (["work"], .directory)]⟩
        stamp := ⟨"", ""⟩ } }
    let s : Setup := { level := "warn", toFile := true, file := some "logs/b.log" }
    ∃ q linked, p.after [.setup { level := "ERROR", toFile := true, file := some "/work/a.log" },
        .log ⟨.error, "reader", "no input"⟩, .setup s, .log ⟨.info, "reader", "done"⟩,
        .clear (some "/work/a.log")] = .ok q ∧
      q.Configured s ["opt", "logs", "b.log"] linked ∧
      ∀ r, ∃ text, (q.log r).stderr = q.stderr ++ text ∧
        Console.LogsTo s .warning ["opt", "logs", "b.log"] linked r q.workspace text
          (q.log r).workspace := by
  intro p s
  let earlier : List LogStep :=
    [.setup { level := "ERROR", toFile := true, file := some "/work/a.log" },
      .log ⟨.error, "reader", "no input"⟩]
  let later : List LogStep := [.log ⟨.info, "reader", "done"⟩, .clear (some "/work/a.log")]
  have hok : (p.after (earlier ++ .setup s :: later)).isOk = true := by decide +kernel
  have hplace : filePlace p.workspace s.file = ["opt", "logs", "b.log"] := by decide +kernel
  have hlevel : Level.ofName s.level = .ok .warning := by decide +kernel
  cases hq : p.after (earlier ++ .setup s :: later) with
  | error f =>
    rw [hq] at hok
    cases hok
  | ok q =>
    obtain ⟨t, linked, ht, hlinked, hlogs, -⟩ := after_lastSetup (by decide) hq
    cases hlevel.symm.trans ht
    rw [hplace] at hlinked hlogs
    exact ⟨q, linked, hq, hlinked, hlogs⟩

/-- The level of the record reaches the level of the setup, and the record is not shown. -/
theorem notSet_unlogged :
    let p : Progress := { workspace :=
      { here := [], home := ⟨"/", ["opt"]⟩, store := {}, stamp := ⟨"", ""⟩ } }
    let r : Record := ⟨.notSet, "reader", "no input"⟩
    ∃ q, p.after [.setup { level := "NOTSET", layout := .simple }] = .ok q ∧
      r.level.reaches q.console.threshold = true ∧ (q.log r).stderr = q.stderr := by
  intro p r
  exact ⟨_, rfl, rfl, rfl⟩

end Progress

end Command

end DalSchema
