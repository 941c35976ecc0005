import DalSchema.Proofs.Runs

/-!
# Default values

A default value is quoted if the quote that begins it is closed somewhere, however far away;
otherwise it is a run of bare characters, which may then begin with a quote.
-/

namespace DalSchema.Lexeme

open Pattern
open scoped Computability

theorem quotedTail?_close (quote : Char) (rest : List Char) :
    quotedTail? quote (quote :: rest) = some ([quote], rest) := by
  rw [quotedTail?.eq_def]
  simp

theorem quotedTail?_plain {quote c : Char} (hc : c ≠ quote) (hb : c ≠ '\\') (rest : List Char) :
    quotedTail? quote (c :: rest) = (quotedTail? quote rest).map fun r => (c :: r.1, r.2) := by
  rw [quotedTail?.eq_def]
  simp [hc, hb]

theorem quotedTail?_escape {quote d : Char} (hq : quote ≠ '\\') (hd : d ≠ '\n')
    (rest : List Char) : quotedTail? quote ('\\' :: d :: rest) =
      (quotedTail? quote rest).map fun r => ('\\' :: d :: r.1, r.2) := by
  rw [quotedTail?.eq_def]
  simp [hq.symm, hd]

theorem quotedTail?_mem {quote : Char} {cs text rest : List Char}
    (h : quotedTail? quote cs = some (text, rest)) :
    text ∈ (inQuotes quote)∗ * one (· == quote) := by
  fun_induction quotedTail? quote cs generalizing text with
  | case1 => cases h
  | case2 c after hc =>
    cases h
    exact Language.append_mem_mul (Language.nil_mem_kstar _) ⟨c, hc, rfl⟩
  | case3 => cases h
  | case4 c hc hb d after hd ih =>
    obtain ⟨⟨inner, last⟩, htail, hpair⟩ := Option.map_eq_some_iff.mp h
    cases hpair
    obtain ⟨body, hbody, close, hclose, rfl⟩ := Language.mem_mul.mp (ih htail)
    have hescape : [c, d] ∈ inQuotes quote := by
      refine .inr (Language.append_mem_mul (a := [c]) ?_ (b := [d]) ⟨d, by simpa using hd, rfl⟩)
      simp [beq_iff_eq.mp hb]
    exact Language.append_mem_mul (append_mem_kstar hescape hbody) hclose
  | case5 => cases h
  | case6 c after hc hb ih =>
    obtain ⟨⟨inner, last⟩, htail, hpair⟩ := Option.map_eq_some_iff.mp h
    cases hpair
    obtain ⟨body, hbody, close, hclose, rfl⟩ := Language.mem_mul.mp (ih htail)
    have hplain : [c] ∈ inQuotes quote := .inl ⟨c, by simp [bne, hc, hb], rfl⟩
    exact Language.append_mem_mul (append_mem_kstar hplain hbody) hclose

theorem quotedTail?_append {quote : Char} (hq : quote ≠ '\\') {text : List Char}
    (h : text ∈ (inQuotes quote)∗ * one (· == quote)) (rest : List Char) :
    quotedTail? quote (text ++ rest) = some (text, rest) := by
  obtain ⟨body, hbody, _, ⟨close, hclose, rfl⟩, rfl⟩ := Language.mem_mul.mp h
  apply kstar_induction (motive := fun body =>
    quotedTail? quote (body ++ [close] ++ rest) = some (body ++ [close], rest)) hbody
  · rw [beq_iff_eq.mp hclose]
    exact quotedTail?_close quote rest
  · rintro a b (⟨c, hc, rfl⟩ | hescape) _ ih
    · simp only [Bool.and_eq_true, bne_iff_ne] at hc
      rw [List.append_assoc, List.append_assoc, List.singleton_append,
        quotedTail?_plain hc.1 hc.2, ← List.append_assoc, ih]
      rfl
    · obtain ⟨_, rfl, _, ⟨d, hd, rfl⟩, rfl⟩ := Language.mem_mul.mp hescape
      have htail := quotedTail?_escape hq (bne_iff_ne.mp hd) (b ++ [close] ++ rest)
      rw [ih] at htail
      simpa using htail

theorem quoted?_eq_some_iff {quote : Char} (hq : quote ≠ '\\') {cs text rest : List Char} :
    quoted? quote cs = some (text, rest) ↔ cs = text ++ rest ∧ text ∈ quoted quote := by
  constructor
  · intro h
    refine ⟨(quoted?_divides quote h).1.symm, ?_⟩
    cases cs with
    | nil => cases h
    | cons c cs =>
      simp only [quoted?] at h
      split at h
      · rename_i hc
        obtain ⟨⟨inner, last⟩, htail, hpair⟩ := Option.map_eq_some_iff.mp h
        cases hpair
        exact Language.append_mem_mul (a := [c]) ⟨c, hc, rfl⟩ (quotedTail?_mem htail)
      · cases h
  · rintro ⟨rfl, htext⟩
    obtain ⟨_, ⟨c, hc, rfl⟩, tail, htail, rfl⟩ := Language.mem_mul.mp htext
    simp only [beq_iff_eq] at hc
    simp [quoted?, hc, quotedTail?_append hq htail]

/-- The quotes that may enclose a default value. -/
def IsQuote (c : Char) : Prop := c = '\x27' ∨ c = '"'

/-- No quote that opens at the start of the text is closed in it. -/
def Unquoted (cs : List Char) : Prop := ∀ quote, IsQuote quote → quoted? quote cs = none

instance (cs : List Char) : Decidable (Unquoted cs) :=
  decidable_of_iff (quoted? '\x27' cs = none ∧ quoted? '"' cs = none)
    ⟨fun h _ hquote => hquote.elim (fun heq => heq ▸ h.1) fun heq => heq ▸ h.2,
      fun h => ⟨h _ (.inl rfl), h _ (.inr rfl)⟩⟩

theorem IsQuote.ne_backslash {quote : Char} (h : IsQuote quote) : quote ≠ '\\' := by
  rcases h with rfl | rfl <;> decide

theorem unquoted_of_first {cs : List Char} (h : ∀ c ∈ cs.head?, ¬IsQuote c) : Unquoted cs := by
  intro quote hquote
  cases cs with
  | nil => rfl
  | cons c cs =>
    have hne : c ≠ quote := fun heq => h c rfl (heq ▸ hquote)
    simp [quoted?, hne]

theorem defaultValue?_eq_some_iff {cs text rest : List Char} :
    defaultValue? cs = some (text, rest) ↔ cs = text ++ rest ∧
      ((∃ quote, IsQuote quote ∧ text ∈ quoted quote) ∨
        (text ∈ bare ∧ Clear isBareChar rest ∧ Unquoted cs)) := by
  constructor
  · intro h
    refine ⟨(defaultValue?_divides h).1.symm, ?_⟩
    rcases Option.or_eq_some_iff.mp h with hs | ⟨hs, h⟩
    · exact .inl ⟨_, .inl rfl, ((quoted?_eq_some_iff (by decide)).mp hs).2⟩
    rcases Option.or_eq_some_iff.mp h with hd | ⟨hd, hb⟩
    · exact .inl ⟨_, .inr rfl, ((quoted?_eq_some_iff (by decide)).mp hd).2⟩
    · obtain ⟨_, hbare, hclear⟩ := run?_eq_some_iff.mp hb
      refine .inr ⟨hbare, hclear, ?_⟩
      rintro quote (rfl | rfl)
      · exact hs
      · exact hd
  · rintro ⟨rfl, ⟨quote, hquote, htext⟩ | ⟨hbare, hclear, hnone⟩⟩
    · have hsome : quoted? quote (text ++ rest) = some (text, rest) :=
        (quoted?_eq_some_iff hquote.ne_backslash).mpr ⟨rfl, htext⟩
      rcases hquote with rfl | rfl
      · simp [defaultValue?, hsome]
      · have hsingle : quoted? '\x27' (text ++ rest) = none := by
          obtain ⟨_, ⟨c, hc, rfl⟩, _, _, rfl⟩ := Language.mem_mul.mp htext
          simp only [beq_iff_eq] at hc
          simp [quoted?, hc]
        simp [defaultValue?, hsingle, hsome]
    · have hrun : bare? (text ++ rest) = some (text, rest) :=
        run?_eq_some_iff.mpr ⟨rfl, hbare, hclear⟩
      simp [defaultValue?, hnone _ (.inl rfl), hnone _ (.inr rfl), hrun]

end DalSchema.Lexeme
