import DalSchema.Proofs.Trial

/-!
# Scanning as a relation

A reader stands at a place with some characters left. `Reader.Step` is one lexeme read from there,
`Reader.Reads` a sequence of them. The scanner gives the lexemes that lead to the end of a complete
text, and no others: `scan_eq_ok_iff`.
-/

namespace DalSchema

open Lexeme

/-- Nothing but characters that may stand between two tokens. -/
def Text.Blank (gap : List Char) : Prop := ∀ c ∈ gap, Text.isBlank c = true

theorem Text.Blank.append_inj {gap gap' rest rest' : List Char} (hgap : Text.Blank gap)
    (hgap' : Text.Blank gap') (hrest : Clear Text.isBlank rest) (hrest' : Clear Text.isBlank rest')
    (h : gap ++ rest = gap' ++ rest') : rest = rest' := by
  rw [← (takeWhile_append_of_clear hgap hrest).2, h, (takeWhile_append_of_clear hgap' hrest').2]

/-- Where a reader stands: the place, the offset, and the characters left. -/
structure Reader where
  place : Place
  offset : Nat
  rest : List Char

namespace Place

theorem blanks_notMem_trial (p : Place) : .blanks ∉ p.trial := by
  have hall : ∀ p ∈ all, Terminal.blanks ∉ p.trial := by decide
  exact hall p p.mem_all

theorem not_isBlank_of_begins {p : Place} {t : Terminal} (ht : t ∈ p.trial) {c : Char}
    (hc : t.begins c = true) : Text.isBlank c = false := by
  have hblanks : t ≠ .blanks := fun heq => p.blanks_notMem_trial (heq ▸ ht)
  by_contra hblank
  rw [Bool.not_eq_false] at hblank
  simp only [Text.isBlank, Bool.or_eq_true, beq_iff_eq] at hblank
  rcases hblank with (((rfl | rfl) | rfl) | rfl) | rfl <;> revert hc hblanks <;> cases t <;> decide

/-- A step skips blanks and takes one text that the place allows. -/
theorem step_eq_lexeme_iff {p q : Place} {offset : Nat} {cs rest : List Char} {l : Lexeme} :
    p.step offset cs = .ok (.lexeme l q rest) ↔
      ∃ gap, Text.Blank gap ∧ cs = gap ++ (l.text ++ rest) ∧ l.start = offset + gap.length ∧
        p.Takes l.terminal l.text rest ∧ p.next l.terminal = some q := by
  constructor
  · intro h
    rw [step] at h
    split at h
    · split at h <;> cases h
    · rename_i c tail hcs
      simp only at h
      split at h
      · cases h
      · rename_i t text after hmatch
        split at h
        · cases h
        · rename_i place hnext
          cases h
          obtain ⟨ht, hlex⟩ := firstMatch?_eq_some_iff.mp hmatch
          obtain ⟨hsplit, hmem, hends⟩ := Terminal.lex?_eq_some_iff.mp hlex
          refine ⟨cs.takeWhile Text.isBlank, fun d hd => List.mem_takeWhile_imp hd, ?_, rfl,
            ⟨t, ht, hmem, hends, rfl⟩, hnext⟩
          rw [← hsplit, ← hcs, List.takeWhile_append_dropWhile]
  · rintro ⟨gap, hgap, rfl, hstart, ⟨t, ht, hmem, hends, hclass⟩, hnext⟩
    obtain ⟨c, tail, htext, hc⟩ := Terminal.begins_of_mem hmem
    have hclear : Clear Text.isBlank (l.text ++ rest) := by
      rw [htext]
      rintro d ⟨⟩
      exact not_isBlank_of_begins ht hc
    obtain ⟨htake, hdrop⟩ := takeWhile_append_of_clear hgap hclear
    have hmatch : firstMatch? (l.text ++ rest) p.trial = some (t, l.text, rest) :=
      firstMatch?_eq_some_iff.mpr ⟨ht, Terminal.lex?_eq_some_iff.mpr ⟨rfl, hmem, hends⟩⟩
    rw [htext, List.cons_append] at hdrop hmatch
    rw [step, htake, htext, List.cons_append, hdrop]
    simp only [hmatch, ← htext, hclass, hnext, ← hstart]

theorem step_eq_finished_iff {p : Place} {offset : Nat} {cs : List Char} :
    p.step offset cs = .ok .finished ↔ p.accepting = true ∧ Text.Blank cs := by
  have hblank : cs.dropWhile Text.isBlank = [] ↔ Text.Blank cs := List.dropWhile_eq_nil_iff
  rw [step]
  split
  · rename_i hdrop
    have hcs := hblank.mp hdrop
    split <;> simp_all
  · rename_i c tail hdrop
    constructor
    · intro h
      simp only at h
      split at h
      · cases h
      · split at h <;> cases h
    · rintro ⟨_, hcs⟩
      rw [hblank.mpr hcs] at hdrop
      cases hdrop

/-- The place after some lexemes, if each of them is allowed. -/
def follow (p : Place) : List Lexeme → Option Place
  | [] => some p
  | l :: ls => (p.next l.terminal).bind fun q => q.follow ls

@[simp] theorem follow_nil (p : Place) : p.follow [] = some p := rfl

@[simp] theorem follow_cons (p : Place) (l : Lexeme) (ls : List Lexeme) :
    p.follow (l :: ls) = (p.next l.terminal).bind fun q => q.follow ls := rfl

@[simp] theorem follow_append (p : Place) (ls ms : List Lexeme) :
    p.follow (ls ++ ms) = (p.follow ls).bind fun q => q.follow ms := by
  induction ls generalizing p with
  | nil => rfl
  | cons l ls ih =>
    rw [List.cons_append, follow_cons, follow_cons, Option.bind_assoc]
    simp only [ih]

end Place

namespace Reader

def Step (a : Reader) (l : Lexeme) (b : Reader) : Prop :=
  a.place.step a.offset a.rest = .ok (.lexeme l b.place b.rest) ∧ b.offset = l.stop

theorem step_iff {a b : Reader} {l : Lexeme} :
    a.Step l b ↔ ∃ gap, Text.Blank gap ∧ a.rest = gap ++ (l.text ++ b.rest) ∧
      l.start = a.offset + gap.length ∧ b.offset = l.stop ∧
      a.place.Takes l.terminal l.text b.rest ∧ a.place.next l.terminal = some b.place := by
  rw [Step, Place.step_eq_lexeme_iff]
  constructor
  · rintro ⟨⟨gap, hgap, hrest, hstart, htakes, hnext⟩, hoffset⟩
    exact ⟨gap, hgap, hrest, hstart, hoffset, htakes, hnext⟩
  · rintro ⟨gap, hgap, hrest, hstart, hoffset, htakes, hnext⟩
    exact ⟨⟨gap, hgap, hrest, hstart, htakes, hnext⟩, hoffset⟩

/-- On a new line a text of a terminal that is tried is read as that terminal, but what follows may
carry it on. -/
theorem Step.newLine {q : Place} {t : Terminal} (ht : t ∈ q.trial) {x text : List Char}
    (hx : x ∈ t.language) {offset : Nat} {l : Lexeme} {b : Reader}
    (h : Step ⟨q, offset, '\n' :: (x ++ text)⟩ l b) :
    x ++ text = l.text ++ b.rest ∧ l.text ∈ t.language ∧ t.Ends l.text b.rest ∧
      q.classify t l.text = l.terminal := by
  obtain ⟨gap, hgap, hrest, _, _, ⟨u, hu, hmem, hends, hclass⟩, _⟩ := step_iff.mp h
  obtain ⟨c, tail, rfl, hc⟩ := Terminal.begins_of_mem hx
  obtain ⟨d, more, htext, hd⟩ := Terminal.begins_of_mem hmem
  have hsame : c :: tail ++ text = l.text ++ b.rest := by
    have hline : Text.Blank ['\n'] := by simp [Text.Blank, Text.isBlank]
    refine hline.append_inj hgap ?_ ?_ hrest
    · rintro e ⟨⟩
      exact Place.not_isBlank_of_begins ht hc
    · rw [htext]
      rintro e ⟨⟩
      exact Place.not_isBlank_of_begins hu hd
  have hfirst : c = d := by
    rw [htext] at hsame
    exact List.head_eq_of_cons_eq hsame
  have htu : t = u := Place.eq_of_begins ht hu hc (hfirst ▸ hd)
  subst htu
  exact ⟨hsame, hmem, hends, hclass⟩

inductive Reads : Reader → List Lexeme → Reader → Prop where
  | refl (a : Reader) : Reads a [] a
  | cons {a b c : Reader} {l : Lexeme} {ls : List Lexeme} (head : a.Step l b)
      (tail : Reads b ls c) : Reads a (l :: ls) c

def Finished (a : Reader) : Prop := a.place.accepting = true ∧ Text.Blank a.rest

theorem reads_append_iff {a c : Reader} {ls ms : List Lexeme} :
    a.Reads (ls ++ ms) c ↔ ∃ b, a.Reads ls b ∧ b.Reads ms c := by
  constructor
  · intro h
    induction ls generalizing a with
    | nil => exact ⟨a, .refl a, h⟩
    | cons l ls ih =>
      cases h with
      | cons head tail =>
        obtain ⟨b, hls, hms⟩ := ih tail
        exact ⟨b, .cons head hls, hms⟩
  · rintro ⟨b, hls, hms⟩
    induction hls with
    | refl => exact hms
    | cons head _ ih => exact .cons head (ih hms)

theorem reads_cons_iff {a c : Reader} {l : Lexeme} {ls : List Lexeme} :
    a.Reads (l :: ls) c ↔ ∃ b, a.Step l b ∧ b.Reads ls c := by
  constructor
  · intro h
    cases h with
    | cons head tail => exact ⟨_, head, tail⟩
  · rintro ⟨b, head, tail⟩
    exact .cons head tail

theorem Reads.follow {a b : Reader} {ls : List Lexeme} (h : a.Reads ls b) :
    a.place.follow ls = some b.place := by
  induction h with
  | refl => rfl
  | cons head _ ih =>
    obtain ⟨_, _, _, _, _, _, hnext⟩ := step_iff.mp head
    rw [Place.follow_cons, hnext, Option.bind_some, ih]

theorem Reads.mem_language {a b : Reader} {ls : List Lexeme} (h : a.Reads ls b) :
    ∀ l ∈ ls, l.text ∈ l.terminal.language := by
  induction h with
  | refl => simp
  | cons head _ ih =>
    obtain ⟨_, _, _, _, _, htakes, _⟩ := step_iff.mp head
    exact List.forall_mem_cons.mpr ⟨htakes.mem_language, ih⟩

theorem Step.unique {a b c : Reader} {l m : Lexeme} (hl : a.Step l b) (hm : a.Step m c) :
    l = m ∧ b = c := by
  obtain ⟨hstep, hoffset⟩ := hl
  obtain ⟨hother, hafter⟩ := hm
  rw [hother] at hstep
  cases b
  cases c
  cases hstep
  simp only at hoffset hafter
  exact ⟨rfl, by rw [hoffset, hafter]⟩

/-- `a` reads `ls` and stands at the end of a complete text. -/
def Completes (a : Reader) (ls : List Lexeme) : Prop := ∃ b, a.Reads ls b ∧ b.Finished

theorem completes_iff_of_finished {a : Reader} (h : a.Finished) {ls : List Lexeme} :
    a.Completes ls ↔ ls = [] := by
  constructor
  · rintro ⟨b, hreads, _⟩
    cases hreads with
    | refl => rfl
    | cons head _ =>
      have hstep := head.1
      rw [Place.step_eq_finished_iff.mpr h] at hstep
      cases hstep
  · rintro rfl
    exact ⟨a, .refl a, h⟩

theorem completes_iff_of_step {a b : Reader} {l : Lexeme} (h : a.Step l b) {ls : List Lexeme} :
    a.Completes ls ↔ ∃ ms, ls = l :: ms ∧ b.Completes ms := by
  constructor
  · rintro ⟨c, hreads, hfin⟩
    cases hreads with
    | refl =>
      have hstep := h.1
      rw [Place.step_eq_finished_iff.mpr hfin] at hstep
      cases hstep
    | cons head tail =>
      obtain ⟨rfl, rfl⟩ := h.unique head
      exact ⟨_, rfl, c, tail, hfin⟩
  · rintro ⟨ms, rfl, c, hreads, hfin⟩
    exact ⟨c, .cons h hreads, hfin⟩

theorem completes_iff_of_reads {a b : Reader} {ls : List Lexeme} (h : a.Reads ls b)
    {ms : List Lexeme} : a.Completes ms ↔ ∃ ns, ms = ls ++ ns ∧ b.Completes ns := by
  induction h generalizing ms with
  | refl => simp
  | cons head _ ih => simp [completes_iff_of_step head, ih]

end Reader

/-- The scanner gives just the lexemes that are read up to the end of a complete text. -/
theorem scan_eq_ok_iff {p : Place} {offset : Nat} {cs : List Char} {ls : List Lexeme} :
    scan p offset cs = .ok ls ↔ Reader.Completes ⟨p, offset, cs⟩ ls := by
  fun_induction scan p offset cs generalizing ls with
  | case1 p offset cs rejection hstep =>
    constructor
    · rintro ⟨⟩
    · rintro ⟨b, hreads, hfin⟩
      cases hreads with
      | refl => rw [Place.step_eq_finished_iff.mpr hfin] at hstep; cases hstep
      | cons head _ => rw [head.1] at hstep; cases hstep
  | case2 p offset cs hstep =>
    rw [Reader.completes_iff_of_finished (Place.step_eq_finished_iff.mp hstep), eq_comm,
      Except.ok.injEq]
  | case3 p offset cs l q rest hstep others hscan ih =>
    have hhead : Reader.Step ⟨p, offset, cs⟩ l ⟨q, l.stop, rest⟩ := ⟨hstep, rfl⟩
    simp only [Reader.completes_iff_of_step hhead, ← ih, hscan, Except.ok.injEq]
    constructor
    · rintro rfl
      exact ⟨others, rfl, rfl⟩
    · rintro ⟨ms, rfl, rfl⟩
      rfl
  | case4 p offset cs l q rest hstep rejection hscan ih =>
    have hhead : Reader.Step ⟨p, offset, cs⟩ l ⟨q, l.stop, rest⟩ := ⟨hstep, rfl⟩
    simp only [Reader.completes_iff_of_step hhead, ← ih, hscan, reduceCtorEq, and_false,
      exists_false]

theorem lexemes_eq_ok_iff {source : List Char} {ls : List Lexeme} :
    lexemes source = .ok ls ↔ Reader.Completes ⟨.top false, 0, source⟩ ls := scan_eq_ok_iff

/-- Scanning with a bound on the number of steps, which the kernel can evaluate. -/
def scanWithin : Nat → Place → Nat → List Char → Option (Except Rejection (List Lexeme))
  | 0, _, _, _ => none
  | n + 1, p, offset, cs =>
    match p.step offset cs with
    | .error rejection => some (.error rejection)
    | .ok .finished => some (.ok [])
    | .ok (.lexeme l q rest) => (scanWithin n q l.stop rest).map (Except.map (l :: ·))

theorem scan_of_scanWithin {n : Nat} {p : Place} {offset : Nat} {cs : List Char}
    {r : Except Rejection (List Lexeme)} (h : scanWithin n p offset cs = some r) :
    scan p offset cs = r := by
  fun_induction scan p offset cs generalizing n r with
  | case1 p offset cs rejection hstep =>
    cases n with
    | zero => cases h
    | succ n => simpa [scanWithin, hstep] using h
  | case2 p offset cs hstep =>
    cases n with
    | zero => cases h
    | succ n => simpa [scanWithin, hstep] using h
  | case3 p offset cs l q rest hstep others hscan ih
  | case4 p offset cs l q rest hstep others hscan ih =>
    cases n with
    | zero => cases h
    | succ n =>
      simp only [scanWithin, hstep, Option.map_eq_some_iff] at h
      obtain ⟨found, hfound, rfl⟩ := h
      rw [← ih hfound, hscan]
      rfl

end DalSchema
