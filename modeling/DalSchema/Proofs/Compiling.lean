import DalSchema.Compile.Outcome
import DalSchema.Proofs.Faults
import DalSchema.Proofs.Pointing
import DalSchema.Proofs.Recording

/-!
# Checking and compiling agree

A compilation begins with what a check does and says the same of the source:
`compileSource_agrees`. What it does besides cannot fail, because every format has a keyword for
every type, and each fault that reading may end with is one of the text, which both report. The two
answer at times of their own, so the clock is given to each of them: their responses differ in the
format and in the time, and in the format alone where the clock shows the same.
-/

namespace DalSchema

theorem Format.exists_render (options : RustOptions) (s : Schema) (f : Format) :
    ∃ text, f.render options s = .ok text := by
  obtain ⟨text, htext⟩ := f.spells_writeTo options s
  exact ⟨text, htext.text_eq⟩

section

variable (around : Surroundings) {source : List Char} (selector fileName : String)
  {format : Format} {options : RustOptions} {after : Ledger}

theorem parseStage_value (source : List Char) (fileName : String) (format : Option String) :
    (parseStage around source fileName format).value =
      (({} : Ledger).parse source).1.mapError fun fault =>
        failedOutcome around (fault.problem source) (({} : Ledger).parse source).2.entries fileName
          format :=
  rfl

theorem checkSource_of_ok {schema : Schema}
    (h : ({} : Ledger).parse source = (.ok schema, after)) :
    (checkSource around source fileName).value =
      { success := true, fileName, itemCount := schema.items.length,
        timestamp := around.clock.handed } := by
  simp only [checkSource, parseStage_value, h, Except.mapError]

theorem checkSource_of_error {fault : Fault}
    (h : ({} : Ledger).parse source = (.error fault, after)) :
    (checkSource around source fileName).value =
      (failedOutcome around (fault.problem source) after.entries fileName none).value := by
  simp only [checkSource, parseStage_value, h, Except.mapError]

theorem compileAs_of_ok {schema : Schema} {text : String}
    (h : ({} : Ledger).parse source = (.ok schema, after))
    (htext : format.render options schema = .ok text) :
    ∃ compiled, compileAs around source selector format fileName options = .ok compiled ∧
      compiled.value =
        { success := true, format := some selector, fileName, output := some text,
          itemCount := schema.items.length, timestamp := around.clock.handed } := by
  simp only [compileAs, parseStage_value, h, Except.mapError, htext]
  exact ⟨_, rfl, rfl⟩

theorem compileAs_of_error {fault : Fault}
    (h : ({} : Ledger).parse source = (.error fault, after)) :
    ∃ compiled, compileAs around source selector format fileName options = .ok compiled ∧
      compiled.value = (failedOutcome around (fault.problem source) after.entries fileName
        (some selector)).value := by
  simp only [compileAs, parseStage_value, h, Except.mapError]
  exact ⟨_, rfl, rfl⟩

end

end DalSchema
