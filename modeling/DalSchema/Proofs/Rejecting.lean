import DalSchema.Proofs.Splicing

/-!
# Rejections

A reader that cannot go on is stuck, and a rejection says why. The scanner fails just with the
rejection of the reader that gets stuck: `scan_eq_error_iff`. What a rejection names stands in the
text where it says, behind nothing but blanks: `Place.refuses_of_step`, `fits_of_lexemes`.
-/

namespace DalSchema

open Lexeme

namespace Rejection

/-- Where reading stopped. -/
def offset : Rejection → Nat
  | endOfInput offset _ => offset
  | token _ start _ => start
  | character _ offset _ => offset

/-- What stands there: nothing at the end of the input, otherwise the text or the character that is
named. -/
def Fits : Rejection → List Char → Prop
  | endOfInput _ _, cs => cs = []
  | token text _ _, cs => text ≠ [] ∧ text <+: cs
  | character found _ _, cs => [found] <+: cs

end Rejection

theorem strayText?_eq_some {cs text : List Char} (h : strayText? cs = some text) :
    text ≠ [] ∧ text <+: cs := by
  unfold strayText? at h
  split at h
  · rename_i found rest hvalue
    cases h
    obtain ⟨happend, hne⟩ := defaultValue?_divides hvalue
    exact ⟨hne, rest, happend⟩
  · rename_i c tail hvalue
    split at h
    · cases h
      exact ⟨List.cons_ne_nil _ _, tail, rfl⟩
    · cases h
  · cases h

namespace Place

theorem reject_fits (p : Place) (start : Nat) (c : Char) (rest : List Char) :
    (p.reject start c rest).offset = start ∧ (p.reject start c rest).Fits (c :: rest) := by
  rw [reject]
  split
  · rename_i text hstray
    exact ⟨rfl, strayText?_eq_some hstray⟩
  · exact ⟨rfl, rest, rfl⟩

/-- Why `p` stops at the characters `cs`, the first of which is no blank: the text ends too early,
nothing that is tried matches, or what matches is not allowed. -/
inductive Refuses (p : Place) (start : Nat) (cs : List Char) : Rejection → Prop where
  | ended (hcs : cs = []) : Refuses p start cs (.endOfInput start p.trial)
  | unmatched {c : Char} {rest : List Char} (hcs : cs = c :: rest)
      (hnone : firstMatch? cs p.trial = none) : Refuses p start cs (p.reject start c rest)
  | disallowed {t : Terminal} {text rest : List Char} (ht : t ∈ p.trial)
      (hlex : t.lex? cs = some (text, rest)) : Refuses p start cs (.token text start p.allowed)

/-- A step that fails has skipped the blanks and stops at what stands behind them. -/
theorem refuses_of_step {p : Place} {offset : Nat} {cs : List Char} {r : Rejection}
    (h : p.step offset cs = .error r) :
    ∃ gap rest, Text.Blank gap ∧ Clear Text.isBlank rest ∧ cs = gap ++ rest ∧
      p.Refuses (offset + gap.length) rest r := by
  have hcs := List.takeWhile_append_dropWhile (p := Text.isBlank) (l := cs)
  refine ⟨cs.takeWhile Text.isBlank, cs.dropWhile Text.isBlank,
    fun c hc => List.mem_takeWhile_imp hc, clear_dropWhile _ cs, hcs.symm, ?_⟩
  rw [step] at h
  split at h
  · rename_i hdrop
    split at h
    · cases h
    · cases h
      rw [hdrop, List.append_nil] at hcs
      rw [hdrop, hcs]
      exact .ended rfl
  · rename_i c rest hdrop
    rw [hdrop]
    simp only at h
    split at h
    · rename_i hnone
      cases h
      exact .unmatched rfl hnone
    · rename_i t text after hmatch
      split at h
      · cases h
        obtain ⟨ht, hlex⟩ := firstMatch?_eq_some hmatch
        exact .disallowed ht hlex
      · cases h

theorem Refuses.fits {p : Place} {start : Nat} {cs : List Char} {r : Rejection}
    (h : p.Refuses start cs r) : r.offset = start ∧ r.Fits cs := by
  cases h with
  | ended hcs => exact ⟨rfl, hcs⟩
  | unmatched hcs hnone =>
    subst hcs
    exact p.reject_fits start _ _
  | @disallowed t text rest ht hlex =>
    obtain ⟨happend, hne⟩ := t.lex?_divides hlex
    exact ⟨rfl, hne, rest, happend⟩

theorem step_of_blank {p : Place} (hp : p.accepting = false) (offset : Nat) {gap : List Char}
    (hgap : Text.Blank gap) :
    p.step offset gap = .error (.endOfInput (offset + gap.length) p.trial) := by
  have hdrop : gap.dropWhile Text.isBlank = [] := List.dropWhile_eq_nil_iff.mpr hgap
  rw [step, hdrop]
  simp [hp]

end Place

namespace Reader

/-- `a` can read nothing more, and the text may not end there. -/
def Stuck (a : Reader) (r : Rejection) : Prop := a.place.step a.offset a.rest = .error r

/-- `a` reads some lexemes and is stuck behind them. -/
def Fails (a : Reader) (r : Rejection) : Prop := ∃ ls b, a.Reads ls b ∧ b.Stuck r

theorem fails_iff_of_stuck {a : Reader} {r s : Rejection} (h : a.Stuck r) : a.Fails s ↔ s = r := by
  constructor
  · rintro ⟨ls, b, hreads, hb⟩
    cases hreads with
    | refl =>
      cases h.symm.trans hb
      rfl
    | cons head _ => cases head.1.symm.trans h
  · rintro rfl
    exact ⟨[], a, .refl a, h⟩

theorem Finished.not_fails {a : Reader} (h : a.Finished) (r : Rejection) : ¬a.Fails r := by
  have hstep : a.place.step a.offset a.rest = .ok .finished := Place.step_eq_finished_iff.mpr h
  rintro ⟨ls, b, hreads, hb⟩
  cases hreads with
  | refl => cases hstep.symm.trans hb
  | cons head _ => cases hstep.symm.trans head.1

theorem fails_iff_of_step {a b : Reader} {l : Lexeme} (h : a.Step l b) {r : Rejection} :
    a.Fails r ↔ b.Fails r := by
  constructor
  · rintro ⟨ls, c, hreads, hc⟩
    cases hreads with
    | refl => cases h.1.symm.trans hc
    | cons head tail =>
      obtain ⟨_, rfl⟩ := h.unique head
      exact ⟨_, c, tail, hc⟩
  · rintro ⟨ls, c, hreads, hc⟩
    exact ⟨l :: ls, c, .cons h hreads, hc⟩

theorem Reads.length_eq {a b : Reader} {ls : List Lexeme} (h : a.Reads ls b) :
    b.offset + b.rest.length = a.offset + a.rest.length := by
  induction h with
  | refl => rfl
  | cons head _ ih =>
    obtain ⟨gap, _, hrest, hstart, hoffset, _⟩ := step_iff.mp head
    rw [ih, hrest, hoffset, Lexeme.stop, hstart, List.length_append, List.length_append]
    omega

end Reader

theorem scan_eq_error_iff {p : Place} {offset : Nat} {cs : List Char} {r : Rejection} :
    scan p offset cs = .error r ↔ Reader.Fails ⟨p, offset, cs⟩ r := by
  fun_induction scan p offset cs with
  | case1 p offset cs rejection hstep =>
    have hstuck : Reader.Stuck ⟨p, offset, cs⟩ rejection := hstep
    rw [Reader.fails_iff_of_stuck hstuck, eq_comm, Except.error.injEq]
  | case2 p offset cs hstep =>
    have hfinished : Reader.Finished ⟨p, offset, cs⟩ := Place.step_eq_finished_iff.mp hstep
    refine iff_of_false ?_ (hfinished.not_fails r)
    rintro ⟨⟩
  | case3 p offset cs l q rest hstep others hscan ih =>
    have hhead : Reader.Step ⟨p, offset, cs⟩ l ⟨q, l.stop, rest⟩ := ⟨hstep, rfl⟩
    rw [Reader.fails_iff_of_step hhead, ← ih, hscan]
    constructor
    · rintro ⟨⟩
    · rintro ⟨⟩
  | case4 p offset cs l q rest hstep rejection hscan ih =>
    have hhead : Reader.Step ⟨p, offset, cs⟩ l ⟨q, l.stop, rest⟩ := ⟨hstep, rfl⟩
    rw [Reader.fails_iff_of_step hhead, ← ih, hscan]

theorem lexemes_eq_error_iff {source : List Char} {r : Rejection} :
    lexemes source = .error r ↔ Reader.Fails ⟨.top false, 0, source⟩ r := scan_eq_error_iff

/-- A text that is rejected is read up to a place that stops at what stands behind some blanks. -/
theorem refuses_of_lexemes {source : List Char} {r : Rejection} (h : lexemes source = .error r) :
    ∃ ls b gap, Reader.Reads ⟨.top false, 0, source⟩ ls b ∧ Text.Blank gap ∧
      Clear Text.isBlank (source.drop r.offset) ∧ b.rest = gap ++ source.drop r.offset ∧
      b.offset + gap.length = r.offset ∧ b.place.Refuses r.offset (source.drop r.offset) r := by
  obtain ⟨ls, b, hreads, hstuck⟩ := lexemes_eq_error_iff.mp h
  obtain ⟨gap, rest, hgap, hclear, hrest, hrefuses⟩ := Place.refuses_of_step hstuck
  have hoffset := hrefuses.fits.1
  have hdrop : source.drop r.offset = rest := by
    have hb : b.rest = source.drop b.offset := hreads.rest_eq_drop rfl
    rw [hoffset, ← List.drop_drop, ← hb, hrest, List.drop_left]
  rw [hdrop]
  exact ⟨ls, b, gap, hreads, hgap, hclear, hrest, hoffset.symm, hoffset ▸ hrefuses⟩

theorem fits_of_lexemes {source : List Char} {r : Rejection} (h : lexemes source = .error r) :
    r.offset ≤ source.length ∧ r.Fits (source.drop r.offset) := by
  obtain ⟨ls, b, gap, hreads, _, _, hrest, hoffset, hrefuses⟩ := refuses_of_lexemes h
  have hlength : b.offset + b.rest.length = source.length := by simpa using hreads.length_eq
  refine ⟨?_, hrefuses.fits.2⟩
  rw [hrest, List.length_append] at hlength
  omega

end DalSchema
