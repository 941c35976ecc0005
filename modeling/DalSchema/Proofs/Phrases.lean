import DalSchema.Proofs.Pattern

/-!
# Phrases

A phrase is one or more words of letters with single spaces between them. It takes in as many words
as it can.
-/

namespace DalSchema.Lexeme

open Pattern
open scoped Computability

theorem phraseTail_letter {c : Char} (hc : isIdentStart c = true) (cs : List Char) :
    phraseTail (c :: cs) = (c :: (phraseTail cs).1, (phraseTail cs).2) := by
  simp [phraseTail, hc]

theorem phraseTail_space {c : Char} (hc : isIdentStart c = true) (cs : List Char) :
    phraseTail (' ' :: c :: cs) =
      (' ' :: (phraseTail (c :: cs)).1, (phraseTail (c :: cs)).2) := by
  rw [phraseTail]
  simp [hc]

theorem phraseTail_eq_nil_iff {c : Char} {cs : List Char} : (phraseTail (c :: cs)).1 = [] ↔
    isIdentStart c = false ∧ (c = ' ' → ∀ d ∈ cs.head?, isIdentStart d = false) := by
  cases hc : isIdentStart c with
  | true => simp [phraseTail, hc]
  | false =>
    by_cases hspace : c = ' '
    · subst hspace
      cases cs with
      | nil => simp [phraseTail, hc]
      | cons d cs => cases hd : isIdentStart d <;> simp [phraseTail, hc, hd]
    · simp [phraseTail, hc, hspace]

/-- A tail that begins with a letter begins with a whole word. -/
theorem phraseTail_mem (cs : List Char) :
    (phraseTail cs).1 ∈ (one isIdentStart)∗ * nextWord∗ ∧
      ∀ c ∈ cs.head?, isIdentStart c = true → (phraseTail cs).1 ∈ letters * nextWord∗ := by
  induction cs with
  | nil =>
    refine ⟨Language.append_mem_mul (Language.nil_mem_kstar _) (Language.nil_mem_kstar _), ?_⟩
    rintro c ⟨⟩
  | cons c cs ih =>
    by_cases hc : isIdentStart c = true
    · rw [phraseTail_letter hc]
      obtain ⟨word, hword, others, hothers, heq⟩ := Language.mem_mul.mp ih.1
      have hrun : c :: word ∈ letters := mem_run.mpr ⟨c, word, rfl, hc, mem_one_kstar.mp hword⟩
      have hletters : c :: word ∈ (one isIdentStart)∗ :=
        append_mem_kstar (a := [c]) ⟨c, hc, rfl⟩ hword
      rw [← heq]
      exact ⟨Language.append_mem_mul hletters hothers,
        fun _ _ _ => Language.append_mem_mul hrun hothers⟩
    · have hskip : ∀ d ∈ (c :: cs).head?, isIdentStart d = true →
          (phraseTail (c :: cs)).1 ∈ letters * nextWord∗ := by
        rintro d ⟨⟩ hd
        exact absurd hd hc
      refine ⟨?_, hskip⟩
      by_cases hnext : c = ' ' ∧ ∃ d tail, cs = d :: tail ∧ isIdentStart d = true
      · obtain ⟨rfl, d, tail, rfl, hd⟩ := hnext
        rw [phraseTail_space hd]
        obtain ⟨word, hword, others, hothers, heq⟩ := Language.mem_mul.mp (ih.2 d rfl hd)
        have hstep : ' ' :: word ∈ nextWord := Language.append_mem_mul (a := [' ']) rfl hword
        rw [← heq]
        exact Language.append_mem_mul (Language.nil_mem_kstar _) (append_mem_kstar hstep hothers)
      · have hstop : (phraseTail (c :: cs)).1 = [] := by
          refine phraseTail_eq_nil_iff.mpr ⟨by simpa using hc, ?_⟩
          rintro rfl d hd
          obtain ⟨tail, rfl⟩ := List.head?_eq_some_iff.mp hd
          rw [← Bool.not_eq_true]
          exact fun hletter => hnext ⟨rfl, d, tail, rfl, hletter⟩
        rw [hstop]
        exact Language.append_mem_mul (Language.nil_mem_kstar _) (Language.nil_mem_kstar _)

theorem phraseTail_rest (cs : List Char) : (phraseTail (phraseTail cs).2).1 = [] := by
  fun_induction phraseTail cs with
  | case1 => rfl
  | case2 c cs hc r ih => exact ih
  | case3 c cs hc => rw [phraseTail, if_neg hc]

theorem phraseTail_letters {word : List Char} (h : ∀ c ∈ word, isIdentStart c = true)
    (cs : List Char) :
    phraseTail (word ++ cs) = (word ++ (phraseTail cs).1, (phraseTail cs).2) := by
  induction word with
  | nil => rfl
  | cons c word ih =>
    rw [List.cons_append, phraseTail_letter (h c List.mem_cons_self),
      ih fun d hd => h d (List.mem_cons_of_mem _ hd)]
    rfl

theorem phraseTail_eq_of_mem {text rest : List Char}
    (htext : text ∈ (one isIdentStart)∗ * nextWord∗) (hrest : (phraseTail rest).1 = []) :
    phraseTail (text ++ rest) = (text, rest) := by
  obtain ⟨word, hword, others, hothers, rfl⟩ := Language.mem_mul.mp htext
  have hall : phraseTail (others ++ rest) = (others, rest) := by
    apply kstar_induction (motive := fun others =>
      phraseTail (others ++ rest) = (others, rest)) hothers
    · have hsplit := phraseTail_append rest
      rw [hrest, List.nil_append] at hsplit
      exact Prod.ext hrest hsplit
    · intro a b ha _ ih
      obtain ⟨_, rfl, next, hnext, rfl⟩ := Language.mem_mul.mp ha
      obtain ⟨c, tail, rfl, hc, htail⟩ := mem_run.mp hnext
      have hword : ∀ d ∈ c :: tail, isIdentStart d = true := by simpa [hc] using htail
      have hstep := phraseTail_space hc (tail ++ (b ++ rest))
      rw [← List.cons_append, phraseTail_letters hword, ih] at hstep
      simpa using hstep
  rw [List.append_assoc, phraseTail_letters (mem_one_kstar.mp hword), hall]

theorem phrase?_eq_some_iff {cs text rest : List Char} :
    phrase? cs = some (text, rest) ↔
      cs = text ++ rest ∧ text ∈ letters * nextWord∗ ∧ (phraseTail rest).1 = [] := by
  constructor
  · intro h
    refine ⟨(phrase?_divides h).1.symm, ?_⟩
    cases cs with
    | nil => cases h
    | cons c cs =>
      simp only [phrase?] at h
      split at h
      · rename_i hc
        cases h
        have hmem := (phraseTail_mem (c :: cs)).2 c rfl hc
        rw [phraseTail_letter hc] at hmem
        exact ⟨hmem, phraseTail_rest cs⟩
      · cases h
  · rintro ⟨rfl, htext, hrest⟩
    obtain ⟨word, hword, others, hothers, rfl⟩ := Language.mem_mul.mp htext
    obtain ⟨c, tail, rfl, hc, htail⟩ := mem_run.mp hword
    have hsplit : phraseTail (tail ++ others ++ rest) = (tail ++ others, rest) :=
      phraseTail_eq_of_mem (Language.append_mem_mul (mem_one_kstar.mpr htail) hothers) hrest
    simp only [List.cons_append, phrase?, hc, if_true, hsplit]

end DalSchema.Lexeme
