import DalSchema.Proofs.Layout

/-!
# Faults of a sink

The pieces of a schema in a format are the same for every sink. So a sink that fails at some write
holds the pieces before it, and its error is what the rendering ends with: `renderTo_limited`. Only
a selector that names no format ends it otherwise, and then before anything is written.
-/

namespace DalSchema

open Script Writing

theorem Rust.spells_writeSchema (options : RustOptions) (s : Schema) :
    Spells (fun _ _ sink => Rust.writeSchema sink options s)
      ("\n\n".intercalate (schemaBlocks options s) ++
        if schemaBlocks options s = [] then "" else "\n") := by
  unfold Rust.writeSchema
  cases schemaBlocks options s with
  | nil => simpa using spells_put ("\n\n".intercalate [])
  | cons block blocks =>
    simpa using (spells_put ("\n\n".intercalate (block :: blocks))).seq (spells_put "\n")

namespace Format

/-- No schema is beyond a format: each is written whole. -/
theorem spells_writeTo (options : RustOptions) (s : Schema) (f : Format) :
    ∃ text, Spells (fun _ _ sink => f.writeTo sink options s) text := by
  cases f with
  | mysql => exact ⟨_, Dialect.mysql.spells_writeSchema s⟩
  | postgresql => exact ⟨_, Dialect.postgresql.spells_writeSchema s⟩
  | rust => exact ⟨_, Rust.spells_writeSchema options s⟩
  | sqlite => exact ⟨_, Dialect.sqlite.spells_writeSchema s⟩

theorem ofName?_eq_none_iff {selector : String} : ofName? selector = none ↔ selector ∉ choices := by
  constructor
  · intro h hmem
    -- Each of the choices names a format.
    have hsome : ∀ name ∈ choices, (ofName? name).isSome = true := by decide
    have hselector := hsome selector hmem
    rw [h] at hselector
    cases hselector
  · intro h
    have hpostgres : ¬(selector == "postgres") = true := by
      intro heq
      exact h (beq_iff_eq.mp heq ▸ by decide)
    have hname : ∀ f : Format, f.name ∈ choices := by
      intro f
      cases f <;> decide
    rw [ofName?, if_neg hpostgres, List.find?_eq_none]
    intro f _ heq
    exact h (beq_iff_eq.mp heq ▸ hname f)

theorem exists_of_mem_choices {selector : String} (h : selector ∈ choices) :
    ∃ f, ofName? selector = some f := by
  rw [← Option.ne_none_iff_exists']
  exact fun hnone => ofName?_eq_none_iff.mp hnone h

end Format

section

variable {σ ε : Type} {selector : String} {options : RustOptions} {s : Schema}

theorem runFrom_renderTo {f : Format} {texts : List String} (h : Format.ofName? selector = some f)
    (htexts : Delivers (fun _ _ sink => f.writeTo sink options s) texts) (sink : Sink σ ε)
    {start after : σ} {result : Except ε Unit}
    (hrun : (sink.writeAll texts).runFrom start = (result, after)) :
    (renderTo sink selector options s).runFrom start = (result.mapError .sink, after) := by
  have hwrite : f.writeTo sink options s = sink.putAll texts := htexts σ ε sink
  simp only [renderTo, h, hwrite]
  exact sink.runFrom_putAll hrun

theorem runFrom_renderTo_of_none (h : Format.ofName? selector = none) (sink : Sink σ ε)
    (start : σ) : (renderTo sink selector options s).runFrom start =
      (.error (.invalidFormat selector), start) := by
  simp only [renderTo, h]
  rfl

end

theorem renderTo_limited (s : Schema) (options : RustOptions) (selector : String) :
    (selector ∈ Format.choices → ∃ (f : Format) (written : List String),
      Format.ofName? selector = some f ∧
      (renderTo (.recorder : Sink _ Empty) selector options s).runFrom [] = (.ok (), written) ∧
      f.render options s = .ok (String.join written) ∧
      ∀ (ε : Type) (error : ε) (n : Nat),
        (renderTo (.limited n error) selector options s).runFrom [] =
          (if n < written.length then .error (.sink error) else .ok (), written.take n)) ∧
    (selector ∉ Format.choices → ∀ (σ ε : Type) (sink : Sink σ ε) (start : σ),
      (renderTo sink selector options s).runFrom start =
        (.error (.invalidFormat selector), start)) := by
  constructor
  · intro h
    obtain ⟨f, hf⟩ := Format.exists_of_mem_choices h
    obtain ⟨text, written, hwritten, -⟩ := f.spells_writeTo options s
    refine ⟨f, written, hf, ?_, hwritten.spells.text_eq, ?_⟩
    · exact runFrom_renderTo hf hwritten _ (Sink.runFrom_recorder [] written)
    · intro ε error n
      have hrun := Sink.runFrom_limited error [] written n
      rw [List.nil_append, List.length_nil, Nat.zero_add] at hrun
      rw [runFrom_renderTo hf hwritten _ hrun]
      split <;> rfl
  · intro h σ ε sink start
    exact runFrom_renderTo_of_none (Format.ofName?_eq_none_iff.mpr h) sink start

example :
    (renderTo (.limited 2 "full") "sqlite" {}
      ⟨[.table { name := "t", ifNotExists := true }]⟩).runFrom [] =
      (.error (.sink "full"), ["CREATE TABLE", " IF NOT EXISTS"]) := rfl

end DalSchema
