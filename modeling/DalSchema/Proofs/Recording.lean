import DalSchema.Proofs.Reporting

/-!
# Calls on a ledger

A ledger is handed from call to call: entries are pushed, texts are read and trees are built, in any
order. `Ledger.answer` is one call and `Ledger.after` a run of them. A call that reads has an answer
and at most one notice, and both are the same for every ledger: `Call.exists_answer`, which rests on
how each function of the walk reports. What a run does to the entries, to the errors and to the
answers follows from that: `Ledger.after_accounts`.
-/

namespace DalSchema

inductive Call where
  | push (severity : Severity) (notice : Notice)
  | error (notice : Notice)
  | parse (source : List Char)
  | build (source : List Char) (tree : Node)

inductive Answer where
  | recorded (entry : Diagnostic)
  | built (schema : Schema)
  | failed (problem : Problem)

/-- What a call asks to be recorded. A call that reads asks for nothing. -/
def Call.request? : Call → Option (Severity × Notice)
  | push severity notice => some (severity, notice)
  | error notice => some (.error, notice)
  | parse _ | build _ _ => none

/-- Whether the problem is one of a text or of a tree. -/
def Problem.ofReading : Problem → Bool
  | endOfStream | unexpectedPair _ _ | invalidAction _ | grammar _ _ _ _ _ => true
  | _ => false

def Diagnostic.inFile (fileId : Int) (d : Diagnostic) : Diagnostic :=
  { d with labels := d.labels.map fun label => { label with fileId } }

namespace Ledger

def answer (l : Ledger) : Call → Answer × Ledger
  | .push severity n => (.recorded (l.entry severity n), l.push severity n)
  | .error n => (.recorded (l.entry .error n), l.push .error n)
  | .parse source =>
    match l.parse source with
    | (.ok schema, after) => (.built schema, after)
    | (.error fault, after) => (.failed (fault.problem source), after)
  | .build source tree =>
    match l.build source tree with
    | (.ok schema, after) => (.built schema, after)
    | (.error fault, after) => (.failed fault.problem, after)

def after (l : Ledger) (calls : List Call) : Ledger := calls.foldl (fun l c => (l.answer c).2) l

@[simp] theorem after_nil (l : Ledger) : l.after [] = l := rfl

@[simp] theorem after_cons (l : Ledger) (c : Call) (calls : List Call) :
    l.after (c :: calls) = (l.answer c).2.after calls := rfl

@[simp] theorem after_append (l : Ledger) (calls later : List Call) :
    l.after (calls ++ later) = (l.after calls).after later := List.foldl_append

theorem record_eq (l : Ledger) (n : Option Notice) :
    l.record n = { l with entries := l.entries ++ n.toList.map (l.entry .error) } := by
  cases n with
  | none => simp [record]
  | some n => rfl

end Ledger

/-- The answer and the notice go together: a schema comes without a notice, a problem of a text or
of a tree with one, and without one only a token is walked as if it had children. -/
def Answer.Reports (n : Option Notice) : Answer → Prop
  | recorded _ => False
  | built _ => n = none
  | failed problem =>
    problem.ofReading = true ∧ n.isSome = true ∨ problem = .childless ∧ n = none

theorem ShapeFault.reports (f : ShapeFault) : (Answer.failed f.problem).Reports f.notice? := by
  cases f with
  | misplaced _ _ _ _ | missing _ | invalidAction _ _ => exact .inl ⟨rfl, rfl⟩
  | childless => exact .inr ⟨rfl, rfl⟩

theorem Rejection.reports (r : Rejection) (source : List Char) :
    (Answer.failed (r.problem source)).Reports (some r.notice) := by
  cases r with
  | endOfInput _ _ | token _ _ _ | character _ _ _ => exact .inl ⟨rfl, rfl⟩

theorem Fault.reports (f : Fault) (source : List Char) :
    (Answer.failed (f.problem source)).Reports f.notice? := by
  cases f with
  | rejected r => exact r.reports source
  | misshapen f => exact f.reports

/-- A call that reads gives every ledger the same answer and the same notice. -/
theorem Call.exists_answer {c : Call} (h : c.request? = none) :
    ∃ a n, a.Reports n ∧ ∀ l : Ledger, l.answer c = (a, l.record n) := by
  cases c with
  | push _ _ => cases h
  | error _ => cases h
  | parse source =>
    obtain ⟨r, hr⟩ := Reading.exists_run source
    cases hfault : r.fault with
    | none =>
      refine ⟨.built ⟨r.items⟩, none, rfl, fun l => ?_⟩
      simp [Ledger.answer, Ledger.parse, hr, Reading.result, Reading.notice?, hfault]
    | some fault =>
      refine ⟨.failed (fault.problem source), fault.notice?, fault.reports source, fun l => ?_⟩
      simp [Ledger.answer, Ledger.parse, hr, Reading.result, Reading.notice?, hfault]
  | build source tree =>
    obtain ⟨w, hw⟩ := Walk.exists_run source tree
    cases hfault : w.fault with
    | none =>
      refine ⟨.built ⟨w.items⟩, none, rfl, fun l => ?_⟩
      simp [Ledger.answer, Ledger.build, hw, Walk.result, Walk.notice?, hfault]
    | some fault =>
      refine ⟨.failed fault.problem, fault.notice?, fault.reports, fun l => ?_⟩
      simp [Ledger.answer, Ledger.build, hw, Walk.result, Walk.notice?, hfault]

/-- The diagnostics that a call adds to a ledger of the file are those its answer accounts for. -/
def Call.Accounts (c : Call) (a : Answer) (fileId : Int) (added : List Diagnostic) : Prop :=
  match c.request?, a with
  | some (severity, n), .recorded d =>
    added = [d] ∧
      d = { severity, message := n.message, labels := [{ fileId, span := n.span, note := n.note }] }
  | none, .built _ => added = []
  | none, .failed problem =>
    (problem.ofReading = true ∧ ∃ d label, added = [d] ∧ d.severity = .error ∧
      d.labels = [label] ∧ label.fileId = fileId) ∨
    problem = .childless ∧ added = []
  | _, _ => False

theorem Answer.Reports.accounts {a : Answer} {n : Option Notice} (h : a.Reports n) {c : Call}
    (hc : c.request? = none) (l : Ledger) :
    c.Accounts a l.fileId (n.toList.map (l.entry .error)) := by
  unfold Call.Accounts
  rw [hc]
  cases a with
  | recorded d => exact h.elim
  | built schema =>
    rw [show n = none from h]
    rfl
  | failed problem =>
    rcases h with ⟨hreading, hn⟩ | ⟨hchildless, rfl⟩
    · obtain ⟨notice, rfl⟩ := Option.isSome_iff_exists.mp hn
      exact .inl ⟨hreading, _, _, rfl, rfl, rfl, rfl⟩
    · exact .inr ⟨hchildless, rfl⟩

namespace Ledger

/-- What one call does: it adds the diagnostics its answer accounts for, and nothing else. -/
theorem answer_accounts (l : Ledger) (c : Call) :
    ∃ added, (l.answer c).2 = { l with entries := l.entries ++ added } ∧
      c.Accounts (l.answer c).1 l.fileId added := by
  cases hc : c.request? with
  | some request =>
    cases c with
    | push severity n => exact ⟨[l.entry severity n], rfl, rfl, rfl⟩
    | error n => exact ⟨[l.entry .error n], rfl, rfl, rfl⟩
    | parse _ => cases hc
    | build _ _ => cases hc
  | none =>
    obtain ⟨a, n, hreports, hanswer⟩ := Call.exists_answer hc
    rw [hanswer l]
    exact ⟨_, l.record_eq n, hreports.accounts hc l⟩

theorem fileId_after (l : Ledger) (calls : List Call) : (l.after calls).fileId = l.fileId := by
  induction calls generalizing l with
  | nil => rfl
  | cons c calls ih =>
    obtain ⟨added, hadded, _⟩ := l.answer_accounts c
    rw [after_cons, ih, hadded]

theorem entries_isPrefix_after (l : Ledger) (calls : List Call) :
    l.entries <+: (l.after calls).entries := by
  induction calls generalizing l with
  | nil => exact List.prefix_refl _
  | cons c calls ih =>
    obtain ⟨added, hadded, _⟩ := l.answer_accounts c
    have hstep : l.entries <+: (l.answer c).2.entries := by
      rw [hadded]
      exact List.prefix_append _ _
    exact hstep.trans (ih _)

theorem hasErrors_of_isPrefix {l m : Ledger} (h : l.entries <+: m.entries)
    (hl : l.hasErrors = true) : m.hasErrors = true := by
  obtain ⟨d, hd, hfailure⟩ := List.any_eq_true.mp hl
  exact List.any_eq_true.mpr ⟨d, h.subset hd, hfailure⟩

/-- In every run of calls: each call adds the diagnostics its answer accounts for, what was recorded
stays, so do the errors, and what is read does not depend on what was recorded before. -/
theorem after_accounts (l : Ledger) (calls later : List Call) (c : Call) :
    let now := l.after calls
    (∃ added, l.after (calls ++ [c]) = { now with entries := now.entries ++ added } ∧
      c.Accounts (now.answer c).1 l.fileId added) ∧
    now.entries <+: (l.after (calls ++ later)).entries ∧
    (now.hasErrors = true → (l.after (calls ++ later)).hasErrors = true) ∧
    (c.request? = none → ∀ other : Ledger, (other.answer c).1 = (now.answer c).1 ∧
      ∃ added, (now.answer c).2.entries = now.entries ++ added ∧
        (other.answer c).2.entries =
          other.entries ++ added.map (Diagnostic.inFile other.fileId)) := by
  intro now
  have hkept : now.entries <+: (l.after (calls ++ later)).entries := by
    rw [after_append]
    exact now.entries_isPrefix_after later
  refine ⟨?_, hkept, hasErrors_of_isPrefix hkept, ?_⟩
  · obtain ⟨added, hadded, haccounts⟩ := now.answer_accounts c
    rw [l.fileId_after calls] at haccounts
    exact ⟨added, by rw [after_append, after_cons, after_nil, hadded], haccounts⟩
  · intro hc other
    obtain ⟨a, n, _, hanswer⟩ := Call.exists_answer hc
    rw [hanswer, hanswer, record_eq, record_eq]
    refine ⟨rfl, _, rfl, ?_⟩
    rw [List.map_map]
    rfl

end Ledger

end DalSchema
