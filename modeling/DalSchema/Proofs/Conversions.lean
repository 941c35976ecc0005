import Mathlib.Data.List.Basic
import DalSchema.Proofs.Runs
import DalSchema.Proofs.Words
import DalSchema.Render.Rust

/-!
# Stored and loaded variants

With rusqlite an enum has two conversions, written as the arms of two matches. `storeArms?` and
`loadArms?` read the arms back from the text: the first as what is stored for each variant, the
second as the variants to load, of which the first with the right text is taken. A variant is stored
under its name in kebab case, and so comes back as the first variant that has the same name in kebab
case: `reload_conversions`. Nothing keeps two variants from having the same one.
-/

namespace DalSchema

open Lexeme Pattern

theorem toNat_lt_of_isIdentChar {c : Char} (h : isIdentChar c = true) : c.toNat < 0x80 := by
  delta isIdentChar Char.isAlphanum Char.isAlpha Char.isUpper Char.isLower Char.isDigit at h
  simp only [Bool.or_eq_true, Bool.and_eq_true, decide_eq_true_eq, beq_iff_eq,
    UInt32.le_iff_toNat_le] at h
  rcases h with ((⟨-, hle⟩ | ⟨-, hle⟩) | ⟨-, hle⟩) | rfl
  · exact Nat.lt_of_le_of_lt hle (by decide)
  · exact Nat.lt_of_le_of_lt hle (by decide)
  · exact Nat.lt_of_le_of_lt hle (by decide)
  · decide

theorem toLower_ne_quote {c : Char} (h : isIdentChar c = true) : c.toLower ≠ '"' := by
  have hne : (!isIdentChar c || c.toLower != '"') = true :=
    Text.ascii_induction (p := fun c => !isIdentChar c || c.toLower != '"') (by decide +kernel)
      (toNat_lt_of_isIdentChar h)
  simpa [h] using hne

theorem quote_notMem_kebab {name : String} (h : name.toList ∈ identifier) :
    '"' ∉ (Text.kebab name).toList := by
  intro hquote
  have hchars := isIdentChar_of_mem_identifier h
  obtain ⟨d, rfl | hd, hlower⟩ :=
    Text.mem_kebab (fun c hc => toNat_lt_of_isIdentChar (hchars c hc)) hquote
  · revert hlower
    decide
  · exact toLower_ne_quote (hchars d hd) hlower

namespace Rust

/-- A variant and the text that is stored for it. -/
def storeArm? (enumName : String) (cs : List Char) : Option ((String × String) × List Char) := do
  let cs ← cs.dropPrefix? ("            " ++ enumName ++ "::").toList
  let (variant, cs) ← ident? cs
  let cs ← cs.dropPrefix? " => Ok(\"".toList
  let rest ← (cs.dropWhile (· != '"')).dropPrefix? "\".into()),\n".toList
  return ((String.ofList variant, String.ofList (cs.takeWhile (· != '"'))), rest)

/-- A text and the variant that is loaded for it. -/
def loadArm? (enumName : String) (cs : List Char) : Option ((String × String) × List Char) := do
  let cs ← cs.dropPrefix? "            \"".toList
  let rest ← (cs.dropWhile (· != '"')).dropPrefix? ("\" => Ok(" ++ enumName ++ "::").toList
  let (variant, rest) ← ident? rest
  let rest ← rest.dropPrefix? "),\n".toList
  return ((String.ofList (cs.takeWhile (· != '"')), String.ofList variant), rest)

/-- The arms of a match up to what is written after them. -/
def arms? {α : Type} (arm? : List Char → Option (α × List Char)) (ending : List Char)
    (cs : List Char) : Option (List α) :=
  if cs = ending then some []
  else match arm? cs with
    | none => none
    | some (arm, rest) =>
      if rest.length < cs.length then (arms? arm? ending rest).map (arm :: ·) else none
termination_by cs.length

/-- Lines, each with its end. -/
def ended (lines : List String) : List Char := lines.flatMap fun line => line.toList ++ ['\n']

/-- The arms between the first lines and the last lines of a block. -/
def blockArms? {α : Type} (arm? : List Char → Option (α × List Char)) (first last : List String)
    (block : String) : Option (List α) :=
  ((block.toList ++ ['\n']).dropPrefix? (ended first)).bind (arms? arm? (ended last))

def storeArms? (enumName : String) : String → Option (List (String × String)) :=
  blockArms? (storeArm? enumName)
    ["impl rusqlite::types::ToSql for " ++ enumName ++ " \x7b",
      indent 1 ++ "fn to_sql(&self) -> rusqlite::Result<rusqlite::types::ToSqlOutput<'_>> \x7b",
      indent 2 ++ "match self \x7b"]
    [indent 2 ++ "\x7d", indent 1 ++ "\x7d", "\x7d"]

def loadArms? (enumName : String) : String → Option (List (String × String)) :=
  blockArms? (loadArm? enumName)
    ["impl rusqlite::types::FromSql for " ++ enumName ++ " \x7b",
      indent 1 ++ "fn column_result(value: rusqlite::types::ValueRef<'_>) -> " ++
        "rusqlite::types::FromSqlResult<Self> \x7b",
      indent 2 ++ "value.as_str().and_then(|s| match s \x7b"]
    [indent 3 ++ "_ => Err(rusqlite::types::FromSqlError::InvalidType),", indent 2 ++ "\x7d)",
      indent 1 ++ "\x7d", "\x7d"]

theorem dropPrefix?_append (text rest : List Char) : (text ++ rest).dropPrefix? text = some rest :=
  List.dropPrefix?_append_of_beq rest BEq.rfl

theorem ident?_append {variant rest : List Char} (h : variant ∈ identifier)
    (hrest : Clear isIdentChar rest) : ident? (variant ++ rest) = some (variant, rest) :=
  run?_eq_some_iff.mpr ⟨rfl, h, hrest⟩

theorem takeWhile_quoted {text rest : List Char} (h : '"' ∉ text) (hrest : rest.head? = some '"') :
    (text ++ rest).takeWhile (· != '"') = text ∧ (text ++ rest).dropWhile (· != '"') = rest := by
  apply takeWhile_append_of_clear
  · intro c hc
    have hne : c ≠ '"' := fun hquote => h (hquote ▸ hc)
    simpa using hne
  · intro c hc
    cases hrest.symm.trans hc
    rfl

section

variable {enumName variant : String} (hvariant : variant.toList ∈ identifier) (rest : List Char)

include hvariant

theorem storeArm?_append :
    storeArm? enumName ((storeArm enumName variant).toList ++ '\n' :: rest) =
      some ((variant, Text.kebab variant), rest) := by
  have hsplit : (storeArm enumName variant).toList ++ '\n' :: rest =
      ("            " ++ enumName ++ "::").toList ++ (variant.toList ++ (" => Ok(\"".toList ++
        ((Text.kebab variant).toList ++ ("\".into()),\n".toList ++ rest)))) := by
    simp [storeArm, indent]
  have hclear : ∀ cs, Clear isIdentChar (" => Ok(\"".toList ++ cs) := by
    rintro cs c ⟨⟩
    rfl
  have hhead : ("\".into()),\n".toList ++ rest).head? = some '"' := rfl
  obtain ⟨htake, hdrop⟩ := takeWhile_quoted (quote_notMem_kebab hvariant) hhead
  simp only [hsplit, storeArm?, dropPrefix?_append, ident?_append hvariant (hclear _), htake, hdrop,
    Option.bind_eq_bind, Option.bind_some, String.ofList_toList, Option.pure_def]

theorem loadArm?_append :
    loadArm? enumName ((loadArm enumName variant).toList ++ '\n' :: rest) =
      some ((Text.kebab variant, variant), rest) := by
  have hsplit : (loadArm enumName variant).toList ++ '\n' :: rest =
      "            \"".toList ++ ((Text.kebab variant).toList ++
        (("\" => Ok(" ++ enumName ++ "::").toList ++
          (variant.toList ++ ("),\n".toList ++ rest)))) := by
    simp [loadArm, indent]
  have hclear : Clear isIdentChar ("),\n".toList ++ rest) := by
    rintro c ⟨⟩
    rfl
  have hhead : (("\" => Ok(" ++ enumName ++ "::").toList ++
      (variant.toList ++ ("),\n".toList ++ rest))).head? = some '"' := by
    simp
  obtain ⟨htake, hdrop⟩ := takeWhile_quoted (quote_notMem_kebab hvariant) hhead
  simp only [hsplit, loadArm?, dropPrefix?_append, ident?_append hvariant hclear, htake, hdrop,
    Option.bind_eq_bind, Option.bind_some, String.ofList_toList, Option.pure_def]

end

theorem ended_cons (line : String) (lines : List String) :
    ended (line :: lines) = line.toList ++ '\n' :: ended lines := by
  simp [ended]

theorem ended_append (lines others : List String) :
    ended (lines ++ others) = ended lines ++ ended others :=
  List.flatMap_append

theorem toList_intercalate {lines : List String} (h : lines ≠ []) :
    ("\n".intercalate lines).toList ++ ['\n'] = ended lines := by
  induction lines with
  | nil => exact absurd rfl h
  | cons line lines ih =>
    cases lines with
    | nil => simp [ended]
    | cons next lines =>
      rw [String.intercalate_cons_cons, String.toList_append, List.append_assoc, ih (by simp),
        ended_cons line]
      simp

theorem arms?_ended {α : Type} {arm? : List Char → Option (α × List Char)}
    {line : String → String} {value : String → α} {ending : List Char} {variants : List String}
    (h : ∀ v ∈ variants, ∀ rest, arm? ((line v).toList ++ '\n' :: rest) = some (value v, rest)) :
    arms? arm? ending (ended (variants.map line) ++ ending) = some (variants.map value) := by
  induction variants with
  | nil => rw [arms?]; exact if_pos rfl
  | cons v rest ih =>
    obtain ⟨hv, hrest⟩ := List.forall_mem_cons.mp h
    rw [List.map_cons, ended_cons, List.append_assoc, List.cons_append]
    generalize htail : ended (rest.map line) ++ ending = tail at ih ⊢
    have hlonger : tail.length < ((line v).toList ++ '\n' :: tail).length := by
      rw [List.length_append, List.length_cons]
      omega
    -- the ending alone is shorter than what is left here, so an arm is read
    have hne : (line v).toList ++ '\n' :: tail ≠ ending := by
      intro heq
      rw [heq, ← htail, List.length_append] at hlonger
      omega
    rw [arms?, if_neg hne, hv]
    simp only [if_pos hlonger, ih hrest, Option.map_some, List.map_cons]

theorem blockArms?_intercalate {α : Type} {arm? : List Char → Option (α × List Char)}
    {line : String → String} {value : String → α} {first last variants : List String}
    (hfirst : first ≠ [])
    (h : ∀ v ∈ variants, ∀ rest, arm? ((line v).toList ++ '\n' :: rest) = some (value v, rest)) :
    blockArms? arm? first last ("\n".intercalate (first ++ variants.map line ++ last)) =
      some (variants.map value) := by
  rw [blockArms?, toList_intercalate (by simp [hfirst]), ended_append, ended_append,
    List.append_assoc, dropPrefix?_append]
  exact arms?_ended h

section

variable {e : EnumDecl} (h : ∀ v ∈ e.variants, v.toList ∈ identifier)

include h

theorem storeArms?_storeLines : storeArms? e.name ("\n".intercalate (storeLines e)) =
    some (e.variants.map fun v => (v, Text.kebab v)) :=
  blockArms?_intercalate (by simp) fun v hv rest => storeArm?_append (h v hv) rest

theorem loadArms?_loadLines : loadArms? e.name ("\n".intercalate (loadLines e)) =
    some (e.variants.map fun v => (Text.kebab v, v)) :=
  blockArms?_intercalate (by simp) fun v hv rest => loadArm?_append (h v hv) rest

end

theorem lookup_stored {variants : List String} {v : String} (h : v ∈ variants) :
    (variants.map fun w => (w, Text.kebab w)).lookup v = some (Text.kebab v) := by
  induction variants with
  | nil => cases h
  | cons w rest ih =>
    rw [List.map_cons, List.lookup_cons]
    by_cases hvw : v = w
    · simp [hvw]
    · rw [beq_eq_false_iff_ne.mpr hvw]
      exact ih (List.mem_of_ne_of_mem hvw h)

theorem lookup_loaded (variants : List String) (text : String) :
    (variants.map fun w => (Text.kebab w, w)).lookup text =
      variants.find? fun w => Text.kebab w == text := by
  induction variants with
  | nil => rfl
  | cons w rest ih =>
    rw [List.map_cons, List.lookup_cons, List.find?_cons, BEq.comm, ih]

/-- The arms of the two conversions in the blocks of an enum. -/
def conversions? (enumName : String) :
    List String → Option (List (String × String) × List (String × String))
  | [_, store, load] => do return (← storeArms? enumName store, ← loadArms? enumName load)
  | _ => none

/-- The variant that is loaded for what is stored for a variant. -/
def reload? (stored loaded : List (String × String)) (variant : String) : Option String :=
  (stored.lookup variant).bind fun text => loaded.lookup text

theorem reload?_eq_find? {variants : List String} {v : String} (h : v ∈ variants) :
    reload? (variants.map fun w => (w, Text.kebab w)) (variants.map fun w => (Text.kebab w, w)) v =
      variants.find? fun w => Text.kebab w == Text.kebab v := by
  rw [reload?, lookup_stored h]
  exact lookup_loaded variants (Text.kebab v)

section

variable {options : RustOptions} (hsqlite : options.sqlite = true) {e : EnumDecl}
  (h : ∀ v ∈ e.variants, v.toList ∈ identifier)

include hsqlite h

theorem conversions?_enumBlocks :
    conversions? e.name (enumBlocks options e) = some
      (e.variants.map fun v => (v, Text.kebab v), e.variants.map fun v => (Text.kebab v, v)) := by
  rw [enumBlocks, if_pos hsqlite, conversions?, storeArms?_storeLines h, loadArms?_loadLines h]
  rfl

/-- A variant comes back as the first that has the same name in kebab case, and each comes back as
itself just if no two have the same. -/
theorem reload_conversions : ∃ stored loaded,
    conversions? e.name (enumBlocks options e) = some (stored, loaded) ∧
      (∀ v ∈ e.variants, reload? stored loaded v =
        e.variants.find? fun w => Text.kebab w == Text.kebab v) ∧
      ((∀ v ∈ e.variants, reload? stored loaded v = some v) ↔
        ∀ v ∈ e.variants, ∀ w ∈ e.variants, Text.kebab v = Text.kebab w → v = w) := by
  refine ⟨_, _, conversions?_enumBlocks hsqlite h, fun v hv => reload?_eq_find? hv, ?_⟩
  constructor
  · intro hself v hv w hw hkebab
    have hfirst := reload?_eq_find? hv
    rw [hkebab, ← reload?_eq_find? hw, hself v hv, hself w hw] at hfirst
    exact Option.some.inj hfirst
  · intro hinjective v hv
    rw [reload?_eq_find? hv]
    have hfound : (e.variants.find? fun w => Text.kebab w == Text.kebab v).isSome = true :=
      List.find?_isSome.mpr ⟨v, hv, beq_self_eq_true _⟩
    obtain ⟨w, hw⟩ := Option.isSome_iff_exists.mp hfound
    have hkebab : Text.kebab w = Text.kebab v := by simpa using List.find?_some hw
    rw [hw, hinjective w (List.mem_of_find?_eq_some hw) v hv hkebab]

end

theorem reload_conversions_actions :
    let e : EnumDecl := ⟨"Action", false, ["NoAction", "SetNull"]⟩
    (∀ v ∈ e.variants, v.toList ∈ identifier) ∧ ∃ stored loaded,
      conversions? e.name (enumBlocks { sqlite := true } e) = some (stored, loaded) ∧
        ∀ v ∈ e.variants, reload? stored loaded v = some v := by
  intro e
  have hnames : ∀ v ∈ e.variants, v.toList ∈ identifier := by
    simp only [e, List.forall_mem_cons]
    exact ⟨cons_mem_run (by decide) (by decide), cons_mem_run (by decide) (by decide),
      List.forall_mem_nil _⟩
  have hsqlite : ({ sqlite := true } : RustOptions).sqlite = true := rfl
  obtain ⟨stored, loaded, hread, -, hself⟩ := reload_conversions hsqlite hnames
  refine ⟨hnames, stored, loaded, hread, hself.mpr ?_⟩
  decide +kernel

/-- Two variants that are the same in kebab case: the second comes back as the first. -/
theorem reload_same_kebab :
    let e : EnumDecl := ⟨"E", false, ["FooBar", "foo_bar"]⟩
    e.variants.Nodup ∧ (∀ v ∈ e.variants, v.toList ∈ identifier) ∧ ∃ stored loaded,
      conversions? e.name (enumBlocks { sqlite := true } e) = some (stored, loaded) ∧
        stored.lookup "foo_bar" = some "foo-bar" ∧
        reload? stored loaded "foo_bar" = some "FooBar" := by
  intro e
  have hnames : ∀ v ∈ e.variants, v.toList ∈ identifier := by
    simp only [e, List.forall_mem_cons]
    exact ⟨cons_mem_run (by decide) (by decide), cons_mem_run (by decide) (by decide),
      List.forall_mem_nil _⟩
  have hsqlite : ({ sqlite := true } : RustOptions).sqlite = true := rfl
  refine ⟨by decide, hnames, _, _, conversions?_enumBlocks hsqlite hnames, ?_, ?_⟩
  · decide +kernel
  · decide +kernel

end Rust

end DalSchema
