import DalSchema.Reading

/-!
# Reports along the walk

A function of the walk has the ledger at hand and may use it as it likes: it may report and go on,
end without a report, or report twice. None does. Each of them gives a result and leaves the ledger
as it was, or ends with a fault that it has reported once: `Disciplined`. There is a lemma of this
for every function of the walk, and from them it follows that a walk and a reading come to the same
end with every ledger: `Walk.exists_run`, `Reading.exists_run`. A token that is walked ends the walk
without a report, as `ShapeFault.notice?` says.
-/

namespace DalSchema

variable {α β : Type}

/-- The ledger with one more error, if there is a notice of one. -/
def Ledger.record (l : Ledger) : Option Notice → Ledger
  | some n => l.push .error n
  | none => l

/-- What has been reported of a fault by the time a walk ends with it. -/
def ShapeFault.notice? : ShapeFault → Option Notice
  | misplaced found wanted _ span =>
    some ⟨"Unexpected token", .point span.start,
      "expected " ++ wanted ++ ", found `" ++ found.word ++ "`"⟩
  | missing offset => some ⟨"Unexpected end of stream", .point offset, "here"⟩
  | invalidAction phrase span =>
    some ⟨"Invalid referential action", span,
      "expected one of " ++ Node.actionPhrases ++ ", found `" ++ phrase ++ "`"⟩
  | childless => none

/-- Ends with a fault that is reported once. -/
def ShapeFault.raised (f : ShapeFault) : Recorder ShapeFault α :=
  fun l => (.error f, l.record f.notice?)

/-- Gives a result and reports nothing, or ends with a fault that is reported once. What becomes of
it does not depend on the ledger. -/
def Disciplined (x : Recorder ShapeFault α) : Prop :=
  (∃ a, x = pure a) ∨ ∃ f : ShapeFault, x = f.raised

section

variable {x : Recorder ShapeFault α} {g : α → Recorder ShapeFault β}

theorem pure_inj {a b : α} : (pure a : Recorder ShapeFault α) = pure b ↔ a = b := by
  constructor
  · intro h
    exact Except.ok.inj (congrArg (fun x => (x.runOn {}).1) h)
  · rintro rfl
    rfl

theorem raised_ne_pure (f : ShapeFault) (a : α) : f.raised ≠ (pure a : Recorder ShapeFault α) := by
  intro h
  cases congrArg (fun x => (x.runOn {}).1) h

theorem ShapeFault.runOn_raised (f : ShapeFault) (l : Ledger) :
    (f.raised : Recorder ShapeFault α).runOn l = (.error f, l.record f.notice?) :=
  rfl

theorem disciplined_pure (a : α) : Disciplined (pure a) := .inl ⟨a, rfl⟩

theorem disciplined_raised (f : ShapeFault) : Disciplined (f.raised : Recorder ShapeFault α) :=
  .inr ⟨f, rfl⟩

theorem Disciplined.bind (hx : Disciplined x) (hg : ∀ a, Disciplined (g a)) :
    Disciplined (x >>= g) := by
  rcases hx with ⟨a, rfl⟩ | ⟨f, rfl⟩
  · rw [pure_bind]
    exact hg a
  · exact disciplined_raised f

theorem Disciplined.bind_eq_pure_iff (hx : Disciplined x) {b : β} :
    x >>= g = pure b ↔ ∃ a, x = pure a ∧ g a = pure b := by
  rcases hx with ⟨a, rfl⟩ | ⟨f, rfl⟩
  · simp only [pure_bind, pure_inj, exists_eq_left']
  · have hnone : (f.raised : Recorder ShapeFault β) ≠ pure b := raised_ne_pure f b
    refine iff_of_false hnone ?_
    rintro ⟨a, ha, -⟩
    exact raised_ne_pure f a ha

/-- A result that is given with one ledger is given with every ledger. -/
theorem Disciplined.eq_pure (hx : Disciplined x) {l : Ledger} {a : α} (h : (x.runOn l).1 = .ok a) :
    x = pure a := by
  rcases hx with ⟨b, rfl⟩ | ⟨f, rfl⟩
  · exact pure_inj.mpr (Except.ok.inj h)
  · cases h

theorem disciplined_mapM {f : α → Recorder ShapeFault β} (hf : ∀ a, Disciplined (f a))
    (xs : List α) : Disciplined (xs.mapM f) := by
  induction xs with
  | nil => exact disciplined_pure []
  | cons x xs ih =>
    rw [List.mapM_cons]
    exact (hf x).bind fun y => ih.bind fun ys => disciplined_pure (y :: ys)

theorem disciplined_foldlM {f : β → α → Recorder ShapeFault β}
    (hf : ∀ b a, Disciplined (f b a)) (start : β) (xs : List α) :
    Disciplined (xs.foldlM f start) := by
  induction xs generalizing start with
  | nil => exact disciplined_pure start
  | cons x xs ih =>
    rw [List.foldlM_cons]
    exact (hf start x).bind ih

/-- Gives a result, and reports nothing. -/
def Succeeds (x : Recorder ShapeFault α) : Prop := ∃ a, x = pure a

@[simp] theorem succeeds_pure (a : α) : Succeeds (pure a) := ⟨a, rfl⟩

@[simp] theorem not_succeeds_raised (f : ShapeFault) :
    ¬Succeeds (f.raised : Recorder ShapeFault α) := by
  rintro ⟨a, ha⟩
  exact raised_ne_pure f a ha

theorem Disciplined.succeeds_bind_iff (hx : Disciplined x) :
    Succeeds (x >>= g) ↔ ∃ a, x = pure a ∧ Succeeds (g a) := by
  constructor
  · rintro ⟨b, hb⟩
    obtain ⟨a, ha, hb⟩ := hx.bind_eq_pure_iff.mp hb
    exact ⟨a, ha, b, hb⟩
  · rintro ⟨a, rfl, hg⟩
    rwa [pure_bind]

theorem Disciplined.succeeds_map_iff (hx : Disciplined x) {f : α → β} :
    Succeeds (x >>= fun a => pure (f a)) ↔ Succeeds x := by
  simp only [hx.succeeds_bind_iff, succeeds_pure, and_true]
  rfl

theorem succeeds_mapM_iff {f : α → Recorder ShapeFault β} (hf : ∀ a, Disciplined (f a))
    {xs : List α} : Succeeds (xs.mapM f) ↔ ∀ x ∈ xs, Succeeds (f x) := by
  induction xs with
  | nil => simp
  | cons x xs ih =>
    rw [List.mapM_cons, (hf x).succeeds_bind_iff, List.forall_mem_cons, ← ih]
    simp only [(disciplined_mapM hf xs).succeeds_map_iff, exists_and_right]
    rfl

/-- What is known of each result is known of the list of them. -/
theorem map_eq_map_of_mapM {γ : Type} {f : α → Recorder ShapeFault β} {g : α → γ} {h : β → γ}
    {xs : List α} {ys : List β} (hf : ∀ a, Disciplined (f a))
    (hresult : ∀ x ∈ xs, ∀ y, f x = pure y → h y = g x) (hys : xs.mapM f = pure ys) :
    ys.map h = xs.map g := by
  induction xs generalizing ys with
  | nil =>
    rw [← pure_inj.mp hys]
    rfl
  | cons x xs ih =>
    obtain ⟨hx, hxs⟩ := List.forall_mem_cons.mp hresult
    rw [List.mapM_cons, (hf x).bind_eq_pure_iff] at hys
    obtain ⟨y, hy, hys⟩ := hys
    obtain ⟨ys, hrest, hcons⟩ := (disciplined_mapM hf xs).bind_eq_pure_iff.mp hys
    rw [← pure_inj.mp hcons, List.map_cons, List.map_cons, hx y hy, ih hxs hrest]

theorem succeeds_foldlM_iff {f : β → α → Recorder ShapeFault β} {p : α → Prop}
    (hf : ∀ b a, Disciplined (f b a)) (hp : ∀ b a, Succeeds (f b a) ↔ p a) {start : β}
    {xs : List α} : Succeeds (xs.foldlM f start) ↔ ∀ x ∈ xs, p x := by
  induction xs generalizing start with
  | nil => simp
  | cons x xs ih =>
    rw [List.foldlM_cons, (hf start x).succeeds_bind_iff, List.forall_mem_cons, ← hp start x]
    simp only [ih, exists_and_right]
    rfl

end

namespace Node

variable {source : List Char} {n parent : Node} {ns : List Node}

theorem unexpected_throw (n : Node) (wanted : String) :
    (do throw (← n.unexpected source wanted) : Recorder ShapeFault α) =
      (ShapeFault.misplaced n.category wanted (n.sourceText source) n.span).raised :=
  rfl

theorem disciplined_unexpected (n : Node) (wanted : String) :
    Disciplined (do throw (← n.unexpected source wanted) : Recorder ShapeFault α) :=
  disciplined_raised (.misplaced n.category wanted (n.sourceText source) n.span)

theorem disciplined_children (n : Node) :
    Disciplined (liftM n.children : Recorder ShapeFault (List Node)) := by
  cases n with
  | token => exact disciplined_raised .childless
  | tree _ _ children => exact disciplined_pure children

theorem disciplined_expect (category : Category) (wanted : String) :
    Disciplined (expect source parent category wanted ns) := by
  cases ns with
  | nil => exact disciplined_raised (.missing parent.stop)
  | cons n rest =>
    rw [expect]
    split
    · exact disciplined_pure (n, rest)
    · exact disciplined_unexpected n wanted

theorem disciplined_expectIdent : Disciplined (expectIdent source parent ns) :=
  (disciplined_expect _ _).bind fun _ => disciplined_pure _

theorem disciplined_toAction (n : Node) : Disciplined n.toAction := by
  rw [toAction]
  split
  · exact disciplined_pure _
  · exact disciplined_raised (.invalidAction n.leafText n.span)

theorem disciplined_clause {clause : Node} {wanted : String} {next : Action → Recorder ShapeFault α}
    (hnext : ∀ action, Disciplined (next action)) :
    Disciplined (do
      let (phrase, _) ← expect source clause .action wanted (← clause.children)
      next (← phrase.toAction)) :=
  (disciplined_children clause).bind fun _ => (disciplined_expect _ _).bind fun _ =>
    (disciplined_toAction _).bind hnext

theorem disciplined_toActions (onDelete onUpdate : Action) (clauses : List Node) :
    Disciplined (toActions source onDelete onUpdate clauses) := by
  induction clauses generalizing onDelete onUpdate with
  | nil => exact disciplined_pure _
  | cons clause rest ih =>
    rw [toActions]
    split
    · exact disciplined_clause fun action => ih action onUpdate
    · exact disciplined_clause fun action => ih onDelete action
    · exact disciplined_unexpected clause _

theorem disciplined_toReference (n : Node) : Disciplined (n.toReference source) := by
  refine (disciplined_children n).bind fun ns => disciplined_expectIdent.bind fun table =>
    disciplined_expectIdent.bind fun column => ?_
  dsimp only
  split
  · exact disciplined_pure _
  · next clauses _ _ =>
    split
    · exact (disciplined_children clauses).bind fun _ =>
        (disciplined_toActions _ _ _).bind fun _ => disciplined_pure _
    · exact disciplined_unexpected clauses _

theorem disciplined_toModifier (n : Node) : Disciplined (n.toModifier source) := by
  rw [toModifier]
  split
  · exact (disciplined_children n).bind fun _ =>
      (disciplined_expect _ _).bind fun _ => disciplined_pure _
  · exact disciplined_pure _
  · exact disciplined_toReference n
  · exact disciplined_pure _
  · exact disciplined_unexpected n _

theorem disciplined_toModifiers (n : Node) : Disciplined (n.toModifiers source) :=
  (disciplined_children n).bind fun ns => disciplined_mapM disciplined_toModifier ns

theorem disciplined_toColumnEntry (n : Node) : Disciplined (n.toColumnEntry source) := by
  refine (disciplined_children n).bind fun ns => disciplined_expectIdent.bind fun name =>
    (disciplined_expect _ _).bind fun type => ?_
  dsimp only
  split
  · exact disciplined_pure _
  · next modifiers _ _ =>
    split
    · exact (disciplined_toModifiers modifiers).bind fun _ => disciplined_pure _
    · exact disciplined_unexpected modifiers _

theorem disciplined_addMember (lists : TableLists) (member : Node) :
    Disciplined (addMember source lists member) := by
  rw [addMember]
  split
  · exact disciplined_pure _
  · exact (disciplined_toColumnEntry member).bind fun _ => disciplined_pure _
  · exact disciplined_unexpected member _

theorem disciplined_addVariant (variants : List String) (member : Node) :
    Disciplined (addVariant source variants member) := by
  rw [addVariant]
  split
  · exact disciplined_pure _
  · exact disciplined_pure _
  · exact disciplined_unexpected member _

theorem disciplined_toTable (n : Node) : Disciplined (n.toTable source) :=
  (disciplined_children n).bind fun _ => disciplined_expectIdent.bind fun _ =>
    (disciplined_foldlM disciplined_addMember _ _).bind fun _ => disciplined_pure _

theorem disciplined_toEnum (n : Node) : Disciplined (n.toEnum source) :=
  (disciplined_children n).bind fun _ => disciplined_expectIdent.bind fun _ =>
    (disciplined_foldlM disciplined_addVariant _ _).bind fun _ => disciplined_pure _

theorem disciplined_toItem? (source : List Char) (n : Node) : Disciplined (n.toItem? source) := by
  rw [toItem?]
  split
  · exact (disciplined_toEnum n).bind fun _ => disciplined_pure _
  · exact (disciplined_toTable n).bind fun _ => disciplined_pure _
  · exact disciplined_pure _
  · exact disciplined_unexpected n _

end Node

namespace Walk

variable {source : List Char} {n : Node} {rest : List Node}

def notice? (w : Walk) : Option Notice := w.fault.bind ShapeFault.notice?

theorem ofNodes_cons_of_none (h : n.toItem? source = pure none) :
    ofNodes source (n :: rest) = ofNodes source rest := by
  rw [ofNodes, h]
  rfl

theorem ofNodes_cons_of_some {item : Item} (h : n.toItem? source = pure (some item)) :
    ofNodes source (n :: rest) =
      (fun w => ⟨item :: w.items, w.fault⟩) <$> ofNodes source rest := by
  rw [ofNodes, h]
  rfl

theorem ofNodes_cons_of_raised {f : ShapeFault} (h : n.toItem? source = f.raised) (l : Ledger) :
    (ofNodes source (n :: rest)).run l = (⟨[], some f⟩, l.record f.notice?) := by
  rw [ofNodes, h]
  rfl

theorem exists_run_ofNodes (source : List Char) (ns : List Node) :
    ∃ w : Walk, ∀ l, (ofNodes source ns).run l = (w, l.record w.notice?) := by
  induction ns with
  | nil => exact ⟨⟨[], none⟩, fun l => rfl⟩
  | cons n rest ih =>
    obtain ⟨w, hw⟩ := ih
    rcases n.disciplined_toItem? source with ⟨_ | item, hitem⟩ | ⟨f, hfault⟩
    · rw [ofNodes_cons_of_none hitem]
      exact ⟨w, hw⟩
    · refine ⟨⟨item :: w.items, w.fault⟩, fun l => ?_⟩
      rw [ofNodes_cons_of_some hitem, StateT.run_map, hw l]
      rfl
    · exact ⟨⟨[], some f⟩, ofNodes_cons_of_raised hfault⟩

/-- A walk comes to the same end with every ledger, and adds to it what is reported of its fault. -/
theorem exists_run (source : List Char) (root : Node) :
    ∃ w : Walk, ∀ l, (ofTree source root).run l = (w, l.record w.notice?) := by
  unfold ofTree
  split
  · cases root with
    | token => exact ⟨⟨[], some .childless⟩, fun l => rfl⟩
    | tree _ _ ns => exact exists_run_ofNodes source ns
  · exact ⟨⟨[], some (.misplaced root.category "`schema`" (root.sourceText source) root.span)⟩,
      fun l => rfl⟩

end Walk

section

variable {source : List Char} {ls : List Lexeme} {r : Rejection}

theorem treeOf_of_ok (h : lexemes source = .ok ls) : treeOf source = pure (.ofLexemes ls) := by
  rw [treeOf, h]

theorem treeOf_of_error (h : lexemes source = .error r) (l : Ledger) :
    (treeOf source).runOn l = (.error r, l.push .error r.notice) := by
  rw [treeOf, h]
  rfl

theorem Reading.ofSource_of_ok (h : lexemes source = .ok ls) :
    ofSource source = ofWalk <$> Walk.ofTree source (.ofLexemes ls) := by
  rw [ofSource, treeOf_of_ok h]
  rfl

theorem Reading.ofSource_of_error (h : lexemes source = .error r) (l : Ledger) :
    (ofSource source).run l = (⟨[], some (.rejected r)⟩, l.push .error r.notice) := by
  rw [ofSource, treeOf, h]
  rfl

end

/-- What has been reported of a fault by the time a reading ends with it. -/
def Fault.notice? : Fault → Option Notice
  | rejected r => some r.notice
  | misshapen f => f.notice?

def Reading.notice? (r : Reading) : Option Notice := r.fault.bind Fault.notice?

/-- A reading comes to the same end with every ledger, and adds to it what is reported of its
fault. -/
theorem Reading.exists_run (source : List Char) :
    ∃ r : Reading, ∀ l, (ofSource source).run l = (r, l.record r.notice?) := by
  cases h : lexemes source with
  | error r => exact ⟨⟨[], some (.rejected r)⟩, ofSource_of_error h⟩
  | ok ls =>
    obtain ⟨w, hw⟩ := Walk.exists_run source (.ofLexemes ls)
    refine ⟨ofWalk w, fun l => ?_⟩
    rw [ofSource_of_ok h, StateT.run_map, hw l]
    change (ofWalk w, l.record w.notice?) = (ofWalk w, l.record (ofWalk w).notice?)
    rw [Reading.notice?, Reading.ofWalk, Option.bind_map]
    rfl

theorem Ledger.parse_of_error (ledger : Ledger) {source : List Char} {r : Rejection}
    (h : lexemes source = .error r) :
    ledger.parse source = (.error (.rejected r), ledger.push .error r.notice) := by
  rw [parse, Reading.ofSource_of_error h]
  rfl

theorem Ledger.build_fst (l : Ledger) (source : List Char) (root : Node) :
    (l.build source root).1 = ((Walk.ofTree source root).run l).1.result :=
  rfl

end DalSchema
