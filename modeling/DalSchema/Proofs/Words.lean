import Mathlib.Data.List.Chain
import Mathlib.Data.List.DropRight
import DalSchema.Proofs.Lowering
import DalSchema.Text.Kebab

/-!
# Words of a name

Kebab case is a normal form: small words joined by single hyphens, and a name that is in it already
stays as it is. On the way to it no letter is lost, added or moved: `Text.kebab_normalForm`.

The steps before lower-casing are `hyphenated`. What they come to is `Joined`, which lower-casing
keeps, and a text that is `Joined` and has no capitals goes through them unchanged.
-/

namespace DalSchema.Text

/-- A name with a hyphen between its words, the capitals kept. -/
def hyphenated (cs : List Char) : List Char :=
  trimHyphens (joinBreaks false (splitAfterAcronyms (splitAtCapitals cs)))

theorem toList_kebab (name : String) :
    (kebab name).toList = lowerAfter [] (hyphenated name.toList) :=
  String.toList_ofList

/-! ## Letters are kept -/

theorem mem_of_mem_splitAtCapitals {c : Char} {cs : List Char} (h : c ∈ splitAtCapitals cs) :
    c = '-' ∨ c ∈ cs := by
  fun_induction splitAtCapitals cs with
  | case1 a b rest hsplit ih => grind
  | case2 a b rest hsplit ih => grind
  | case3 cs => exact .inr h

theorem mem_of_mem_splitAfterAcronyms {c : Char} {cs : List Char}
    (h : c ∈ splitAfterAcronyms cs) : c = '-' ∨ c ∈ cs := by
  fun_induction splitAfterAcronyms cs with
  | case1 a b d rest hsplit ih => grind
  | case2 a b d rest hsplit ih => grind
  | case3 cs => exact .inr h

theorem mem_of_mem_joinBreaks {c : Char} {inBreak : Bool} {cs : List Char}
    (h : c ∈ joinBreaks inBreak cs) : c = '-' ∨ c ∈ cs := by
  fun_induction joinBreaks inBreak cs with
  | case1 => cases h
  | case2 d rest hbreak ih => grind
  | case3 _ d rest hbreak ih => grind
  | case4 => grind

theorem trimHyphens_eq (cs : List Char) :
    trimHyphens cs = (cs.dropWhile (· == '-')).rdropWhile (· == '-') := rfl

theorem isInfix_trimHyphens (cs : List Char) : trimHyphens cs <:+: cs :=
  (List.rdropWhile_prefix _ _).isInfix.trans (List.dropWhile_suffix _).isInfix

theorem mem_of_mem_hyphenated {c : Char} {cs : List Char} (h : c ∈ hyphenated cs) :
    c = '-' ∨ c ∈ cs := by
  rcases mem_of_mem_joinBreaks ((isInfix_trimHyphens _).subset h) with rfl | h
  · exact .inl rfl
  rcases mem_of_mem_splitAfterAcronyms h with rfl | h
  · exact .inl rfl
  exact mem_of_mem_splitAtCapitals h

theorem toNat_lt_of_mem_hyphenated {cs : List Char} (hascii : ∀ c ∈ cs, c.toNat < 0x80) {c : Char}
    (h : c ∈ hyphenated cs) : c.toNat < 0x80 := by
  rcases mem_of_mem_hyphenated h with rfl | h
  · decide
  · exact hascii c h

/-- Kebab case has only hyphens and the small letters of a name. -/
theorem mem_kebab {name : String} (hascii : ∀ c ∈ name.toList, c.toNat < 0x80) {c : Char}
    (h : c ∈ (kebab name).toList) : ∃ d, (d = '-' ∨ d ∈ name.toList) ∧ d.toLower = c := by
  rw [toList_kebab, lowerAfter_ascii _ _ fun d hd => toNat_lt_of_mem_hyphenated hascii hd] at h
  obtain ⟨d, hd, rfl⟩ := List.mem_map.mp h
  exact ⟨d, mem_of_mem_hyphenated hd, rfl⟩

/-- What is left of a text without its word breaks. -/
def letters (cs : List Char) : List Char := cs.filter fun c => !isWordBreak c

theorem letters_cons (c : Char) (cs : List Char) :
    letters (c :: cs) = if isWordBreak c then letters cs else c :: letters cs := by
  cases h : isWordBreak c <;> simp [letters, h]

@[simp] theorem letters_hyphen_cons (cs : List Char) : letters ('-' :: cs) = letters cs :=
  letters_cons '-' cs

theorem letters_splitAtCapitals (cs : List Char) : letters (splitAtCapitals cs) = letters cs := by
  fun_induction splitAtCapitals cs with
  | case1 a b rest _ ih => simp only [letters_cons a, letters_hyphen_cons, ih]
  | case2 a b rest _ ih => simp only [letters_cons a, ih]
  | case3 => rfl

theorem letters_splitAfterAcronyms (cs : List Char) :
    letters (splitAfterAcronyms cs) = letters cs := by
  fun_induction splitAfterAcronyms cs with
  | case1 a b c rest _ ih => simp only [letters_cons a, letters_hyphen_cons, ih]
  | case2 a b c rest _ ih => simp only [letters_cons a, ih]
  | case3 => rfl

theorem letters_joinBreaks (inBreak : Bool) (cs : List Char) :
    letters (joinBreaks inBreak cs) = letters cs := by
  fun_induction joinBreaks inBreak cs with
  | case1 => rfl
  | case2 c rest hbreak ih => rw [ih, letters_cons, if_pos hbreak]
  | case3 _ c rest hbreak _ ih => rw [letters_hyphen_cons, ih, letters_cons, if_pos hbreak]
  | case4 _ c rest hbreak ih => rw [letters_cons, letters_cons, ih]

theorem letters_dropWhile (cs : List Char) : letters (cs.dropWhile (· == '-')) = letters cs := by
  induction cs with
  | nil => rfl
  | cons c rest ih =>
    rw [List.dropWhile_cons]
    split
    · next hc => rw [ih, beq_iff_eq.mp hc, letters_hyphen_cons]
    · rfl

theorem letters_reverse (cs : List Char) : letters cs.reverse = (letters cs).reverse :=
  List.filter_reverse

theorem letters_trimHyphens (cs : List Char) : letters (trimHyphens cs) = letters cs := by
  rw [trimHyphens, letters_reverse, letters_dropWhile, letters_reverse, List.reverse_reverse,
    letters_dropWhile]

theorem letters_hyphenated (cs : List Char) : letters (hyphenated cs) = letters cs := by
  rw [hyphenated, letters_trimHyphens, letters_joinBreaks, letters_splitAfterAcronyms,
    letters_splitAtCapitals]

theorem isWordBreak_toLower {c : Char} (h : c.toNat < 0x80) :
    isWordBreak c.toLower = isWordBreak c :=
  beq_iff_eq.mp (ascii_induction (p := fun c => isWordBreak c.toLower == isWordBreak c)
    (by decide +kernel) h)

theorem letters_lowerAfter {before cs : List Char} (h : ∀ c ∈ cs, c.toNat < 0x80) :
    letters (lowerAfter before cs) = (letters cs).map Char.toLower := by
  rw [lowerAfter_ascii before cs h, letters, List.filter_map, letters]
  congr 1
  apply List.filter_congr
  intro c hc
  rw [Function.comp_apply, isWordBreak_toLower (h c hc)]

/-! ## Words are joined by single hyphens -/

/-- Not both are hyphens. -/
def Apart (a b : Char) : Prop := a = '-' → b ≠ '-'

/-- Words joined by single hyphens: there is no other word break, and no hyphen stands beside
another or at an end. -/
structure Joined (cs : List Char) : Prop where
  breaks : ∀ c ∈ cs, isWordBreak c = true → c = '-'
  single : cs.IsChain Apart
  first : cs.head? ≠ some '-'
  last : cs.getLast? ≠ some '-'

theorem ne_hyphen {c : Char} (h : isWordBreak c = false) : c ≠ '-' := by
  rintro rfl
  cases h

theorem Apart.of_ne {a b : Char} (h : a ≠ '-') : Apart a b := fun ha => absurd ha h

theorem isChain_apart_iff {cs : List Char} : cs.IsChain Apart ↔ ¬['-', '-'] <:+: cs := by
  rw [List.isChain_iff_forall_rel_of_append_cons_cons]
  constructor
  · rintro h ⟨front, back, rfl⟩
    exact h (List.append_assoc front ['-', '-'] back) rfl rfl
  · rintro h a b front back rfl rfl rfl
    exact h ⟨front, back, List.append_assoc front ['-', '-'] back⟩

theorem breaks_joinBreaks {inBreak : Bool} {cs : List Char} :
    ∀ c ∈ joinBreaks inBreak cs, isWordBreak c = true → c = '-' := by
  fun_induction joinBreaks inBreak cs with
  | case1 => exact List.forall_mem_nil _
  | case2 _ _ _ ih => exact ih
  | case3 _ _ _ _ _ ih => exact List.forall_mem_cons.mpr ⟨fun _ => rfl, ih⟩
  | case4 _ _ _ hletter ih => exact List.forall_mem_cons.mpr ⟨(absurd · hletter), ih⟩

theorem head?_joinBreaks (cs : List Char) : (joinBreaks true cs).head? ≠ some '-' := by
  induction cs with
  | nil => rintro ⟨⟩
  | cons c rest ih =>
    rw [joinBreaks]
    split
    · exact ih
    · next hletter =>
      rw [List.head?_cons, ne_eq, Option.some.injEq]
      exact ne_hyphen (Bool.not_eq_true _ ▸ hletter)

theorem single_joinBreaks (inBreak : Bool) (cs : List Char) :
    (joinBreaks inBreak cs).IsChain Apart := by
  fun_induction joinBreaks inBreak cs with
  | case1 => exact .nil
  | case2 _ _ _ ih => exact ih
  | case3 _ c rest _ _ ih =>
    refine List.isChain_cons.mpr ⟨?_, ih⟩
    rintro b hb - rfl
    exact head?_joinBreaks rest hb
  | case4 _ c _ hletter ih =>
    have hc : c ≠ '-' := ne_hyphen (Bool.not_eq_true _ ▸ hletter)
    exact List.isChain_cons.mpr ⟨fun _ _ => .of_ne hc, ih⟩

theorem getLast?_trimHyphens (cs : List Char) : (trimHyphens cs).getLast? ≠ some '-' := by
  intro h
  obtain ⟨hne, hlast⟩ := List.mem_getLast?_eq_getLast h
  exact List.rdropWhile_last_not _ _ hne (beq_iff_eq.mpr hlast.symm)

theorem head?_trimHyphens (cs : List Char) : (trimHyphens cs).head? ≠ some '-' := by
  intro h
  have hhead := List.head?_dropWhile_not (· == '-') cs
  obtain ⟨back, hback⟩ : trimHyphens cs <+: cs.dropWhile (· == '-') := List.rdropWhile_prefix _ _
  rw [← hback, List.head?_append, h] at hhead
  cases hhead

theorem joined_hyphenated (cs : List Char) : Joined (hyphenated cs) where
  breaks c hc := breaks_joinBreaks c ((isInfix_trimHyphens _).subset hc)
  single := List.IsChain.infix (single_joinBreaks _ _) (isInfix_trimHyphens _)
  first := head?_trimHyphens _
  last := getLast?_trimHyphens _

/-! ## Lower-casing keeps the words apart -/

/-- Ranges that hold every word break. -/
def breakRanges : List (Nat × Nat) :=
  [(0x00, 0x60), (0x85, 0xa0), (0x1680, 0x1680), (0x2000, 0x205f), (0x3000, 0x3000)]

theorem inRanges_of_isWordBreak {c : Char} (h : isWordBreak c = true) :
    inRanges breakRanges c.toNat = true := by
  simp only [isWordBreak, isSpace, Bool.or_eq_true, Bool.and_eq_true, decide_eq_true_eq,
    beq_iff_eq] at h
  rw [inRanges_eq_true_iff]
  simp only [breakRanges, List.mem_cons, List.not_mem_nil, or_false, exists_eq_or_imp,
    exists_eq_left]
  rcases h with (rfl | rfl) | h
  · decide
  · decide
  · omega

theorem lowerRuns_avoid_breaks :
    (lowerRuns.all fun run => breakRanges.all fun range => run.avoids range.1 range.2) = true := by
  decide +kernel

theorem isWordBreak_of_mem_lowerChar {c d : Char} (hc : isWordBreak c = false)
    (h : d ∈ lowerChar c) : isWordBreak d = false := by
  rcases mem_lowerChar_cases h with ⟨hascii, rfl⟩ | rfl | rfl | ⟨run, hrun, hd⟩ | ⟨rfl, -⟩
  · rw [isWordBreak_toLower hascii, hc]
  · decide
  · decide
  · by_contra hbreak
    have hranges := inRanges_of_isWordBreak (Bool.not_eq_false _ ▸ hbreak)
    obtain ⟨range, hrange, hbetween⟩ := (inRanges_eq_true_iff _ _).mp hranges
    have havoids := List.all_eq_true.mp lowerRuns_avoid_breaks run hrun
    exact CaseRun.not_between_of_avoids (List.all_eq_true.mp havoids range hrange) hd hbetween
  · exact hc

theorem lowerChar_ne_nil (c : Char) : lowerChar c ≠ [] := by
  rw [lowerChar]
  repeat' split
  all_goals exact List.cons_ne_nil _ _

/-- The second text is the first with one or more letters in the place of each. -/
inductive Respelled : List Char → List Char → Prop where
  | nil : Respelled [] []
  | hyphen {cs ds : List Char} : Respelled cs ds → Respelled ('-' :: cs) ('-' :: ds)
  | letter {c d : Char} {piece cs ds : List Char} : isWordBreak c = false →
      (∀ e ∈ d :: piece, isWordBreak e = false) → Respelled cs ds →
      Respelled (c :: cs) (d :: piece ++ ds)

theorem respelled_lowerAfter {before cs : List Char}
    (h : ∀ c ∈ cs, isWordBreak c = true → c = '-') : Respelled cs (lowerAfter before cs) := by
  induction cs generalizing before with
  | nil => exact .nil
  | cons c rest ih =>
    obtain ⟨hc, hrest⟩ := List.forall_mem_cons.mp h
    cases hbreak : isWordBreak c with
    | true =>
      cases hc hbreak
      exact (ih hrest).hyphen
    | false =>
      rw [lowerAfter]
      split
      · refine (ih hrest).letter hbreak ?_
        rw [List.forall_mem_singleton, lowerSigma]
        split <;> decide
      · obtain ⟨d, piece, hpiece⟩ := List.exists_cons_of_ne_nil (lowerChar_ne_nil c)
        rw [hpiece]
        refine (ih hrest).letter hbreak fun e he => ?_
        exact isWordBreak_of_mem_lowerChar hbreak (hpiece ▸ he)

namespace Respelled

variable {cs ds : List Char}

theorem eq_hyphen (h : Respelled cs ds) : ∀ d ∈ ds, isWordBreak d = true → d = '-' := by
  induction h with
  | nil => exact List.forall_mem_nil _
  | hyphen _ ih => exact List.forall_mem_cons.mpr ⟨fun _ => rfl, ih⟩
  | letter _ hpiece _ ih =>
    intro e he hbreak
    rcases List.mem_append.mp he with he | he
    · cases (hpiece e he).symm.trans hbreak
    · exact ih e he hbreak

theorem head?_ne (h : Respelled cs ds) (hcs : cs.head? ≠ some '-') : ds.head? ≠ some '-' := by
  cases h with
  | nil => exact hcs
  | hyphen => exact absurd rfl hcs
  | letter _ hpiece =>
    rw [List.cons_append, List.head?_cons, ne_eq, Option.some.injEq]
    exact ne_hyphen (hpiece _ List.mem_cons_self)

theorem ne_nil {c : Char} (h : Respelled (c :: cs) ds) : ds ≠ [] := by
  cases h <;> exact List.cons_ne_nil _ _

theorem getLast?_ne (h : Respelled cs ds) (hcs : cs.getLast? ≠ some '-') :
    ds.getLast? ≠ some '-' := by
  induction h with
  | nil => exact hcs
  | @hyphen cs ds h ih =>
    -- If more follows the hyphen, more follows its copy, and the last character is there.
    cases cs with
    | nil => exact absurd rfl hcs
    | cons c rest =>
      rw [List.getLast?_cons_cons] at hcs
      rw [← List.singleton_append, List.getLast?_append_of_ne_nil _ h.ne_nil]
      exact ih hcs
  | @letter c d piece cs ds _ hpiece h ih =>
    cases cs with
    | nil =>
      cases h
      intro hlast
      rw [List.append_nil] at hlast
      exact ne_hyphen (hpiece '-' (List.mem_of_getLast? hlast)) rfl
    | cons c rest =>
      rw [List.getLast?_cons_cons] at hcs
      rw [List.getLast?_append_of_ne_nil _ h.ne_nil]
      exact ih hcs

theorem isChain (h : Respelled cs ds) (hcs : cs.IsChain Apart) : ds.IsChain Apart := by
  induction h with
  | nil => exact .nil
  | hyphen h ih =>
    obtain ⟨hnext, hrest⟩ := List.isChain_cons.mp hcs
    refine List.isChain_cons.mpr ⟨?_, ih hrest⟩
    rintro d hd - rfl
    exact h.head?_ne (fun hhead => hnext '-' hhead rfl rfl) hd
  | letter _ hpiece h ih =>
    have hpieceNe := fun e he => ne_hyphen (hpiece e he)
    refine List.isChain_append.mpr ⟨?_, ih (List.isChain_cons.mp hcs).2, ?_⟩
    · rw [List.isChain_iff_forall_rel_of_append_cons_cons]
      intro a b front back heq
      exact .of_ne (hpieceNe a (heq ▸ by simp))
    · intro a ha b _
      exact .of_ne (hpieceNe a (List.mem_of_getLast? ha))

theorem joined (h : Respelled cs ds) (hcs : Joined cs) : Joined ds where
  breaks := h.eq_hyphen
  single := h.isChain hcs.single
  first := h.head?_ne hcs.first
  last := h.getLast?_ne hcs.last

end Respelled

theorem joined_kebab (name : String) : Joined (kebab name).toList := by
  have hjoined := joined_hyphenated name.toList
  rw [toList_kebab]
  exact (respelled_lowerAfter hjoined.breaks).joined hjoined

theorem lowerChar_of_mem_kebab {name : String} {c : Char} (h : c ∈ (kebab name).toList) :
    lowerChar c = [c] :=
  lowerChar_of_mem_lowerAfter (toList_kebab name ▸ h)

/-! ## Words that are joined already stay as they are -/

theorem splitAtCapitals_eq_self {cs : List Char} (h : ∀ c ∈ cs, c.isUpper = false) :
    splitAtCapitals cs = cs := by
  fun_induction splitAtCapitals cs with
  | case1 a b rest hsplit ih =>
    rw [Bool.and_eq_true, h b (by simp)] at hsplit
    cases hsplit.2
  | case2 a b rest _ ih => rw [ih (List.forall_mem_cons.mp h).2]
  | case3 => rfl

theorem splitAfterAcronyms_eq_self {cs : List Char} (h : ∀ c ∈ cs, c.isUpper = false) :
    splitAfterAcronyms cs = cs := by
  fun_induction splitAfterAcronyms cs with
  | case1 a b c rest hsplit ih =>
    rw [h a List.mem_cons_self] at hsplit
    cases hsplit
  | case2 a b c rest _ ih => rw [ih (List.forall_mem_cons.mp h).2]
  | case3 => rfl

theorem joinBreaks_eq_self {inBreak : Bool} {cs : List Char}
    (hbreaks : ∀ c ∈ cs, isWordBreak c = true → c = '-') (hsingle : cs.IsChain Apart)
    (hfirst : inBreak = true → cs.head? ≠ some '-') : joinBreaks inBreak cs = cs := by
  fun_induction joinBreaks inBreak cs with
  | case1 => rfl
  | case2 c rest hbreak _ =>
    -- A break that is dropped would be a hyphen behind another.
    cases hbreaks c List.mem_cons_self hbreak
    exact absurd rfl (hfirst rfl)
  | case3 _ c rest hbreak _ ih =>
    cases hbreaks c List.mem_cons_self hbreak
    obtain ⟨hnext, hrest⟩ := List.isChain_cons.mp hsingle
    rw [ih (List.forall_mem_cons.mp hbreaks).2 hrest fun _ hhead => hnext '-' hhead rfl rfl]
  | case4 _ c rest _ ih =>
    rw [ih (List.forall_mem_cons.mp hbreaks).2 (List.isChain_cons.mp hsingle).2
      (absurd · Bool.false_ne_true)]

theorem trimHyphens_eq_self {cs : List Char} (hfirst : cs.head? ≠ some '-')
    (hlast : cs.getLast? ≠ some '-') : trimHyphens cs = cs := by
  have hdrop : cs.dropWhile (· == '-') = cs := by
    cases cs with
    | nil => rfl
    | cons c rest => exact List.dropWhile_cons_of_neg (by simpa using hfirst)
  rw [trimHyphens_eq, hdrop, List.rdropWhile_eq_self_iff]
  intro hne hhyphen
  rw [List.getLast?_eq_some_getLast hne, beq_iff_eq.mp hhyphen] at hlast
  exact hlast rfl

theorem hyphenated_eq_self {cs : List Char} (hjoined : Joined cs)
    (hsmall : ∀ c ∈ cs, c.isUpper = false) : hyphenated cs = cs := by
  rw [hyphenated, splitAtCapitals_eq_self hsmall, splitAfterAcronyms_eq_self hsmall,
    joinBreaks_eq_self hjoined.breaks hjoined.single (absurd · Bool.false_ne_true),
    trimHyphens_eq_self hjoined.first hjoined.last]

theorem kebab_kebab (name : String) : kebab (kebab name) = kebab name := by
  have hsmall (c) (hc : c ∈ (kebab name).toList) : c.isUpper = false :=
    isUpper_eq_false (lowerChar_of_mem_kebab hc)
  apply String.toList_injective
  rw [toList_kebab (kebab name), hyphenated_eq_self (joined_kebab name) hsmall, toList_kebab name,
    lowerAfter_lowerAfter]

theorem letters_kebab {name : String} (hascii : ∀ c ∈ name.toList, c.toNat < 0x80) :
    letters (kebab name).toList = letters (lower name).toList := by
  rw [toList_kebab, letters_lowerAfter fun c hc => toNat_lt_of_mem_hyphenated hascii hc,
    letters_hyphenated, lower, String.toList_ofList, letters_lowerAfter hascii]

theorem Joined.filter_hyphens {cs : List Char} (h : Joined cs) :
    (cs.filter fun c => c != '-') = letters cs := by
  apply List.filter_congr
  intro c hc
  cases hbreak : isWordBreak c with
  | true =>
    rw [h.breaks c hc hbreak]
    rfl
  | false => simpa using ne_hyphen hbreak

/-- Kebab case has no capital, underscore or white space, and hyphens only one by one between two
other characters; it is its own kebab case; and without its hyphens it is the name in lower case
without its word breaks. -/
theorem kebab_normalForm (name : String) :
    (∀ c ∈ (kebab name).toList, c.isUpper = false ∧ c ≠ '_' ∧ isSpace c = false) ∧
    ¬['-', '-'] <:+: (kebab name).toList ∧
    (kebab name).toList.head? ≠ some '-' ∧
    (kebab name).toList.getLast? ≠ some '-' ∧
    kebab (kebab name) = kebab name ∧
    ((∀ c ∈ name.toList, c.toNat < 0x80) →
      ((kebab name).toList.filter fun c => c != '-') =
        (lower name).toList.filter fun c => !(c == '-' || c == '_' || isSpace c)) := by
  have hjoined := joined_kebab name
  refine ⟨fun c hc => ⟨isUpper_eq_false (lowerChar_of_mem_kebab hc), ?_, ?_⟩,
    isChain_apart_iff.mp hjoined.single, hjoined.first, hjoined.last, kebab_kebab name,
    fun hascii => hjoined.filter_hyphens.trans (letters_kebab hascii)⟩
  · rintro rfl
    cases hjoined.breaks '_' hc rfl
  · by_contra hspace
    rw [Bool.not_eq_false] at hspace
    have hbreak : isWordBreak c = true := by rw [isWordBreak, hspace, Bool.or_true]
    cases hjoined.breaks c hc hbreak
    cases hspace

theorem kebab_normalForm_mixed :
    (∀ c ∈ "_HTTPServer2Go-- x".toList, c.toNat < 0x80) ∧
    kebab "_HTTPServer2Go-- x" = "http-server2-go-x" ∧
    ("http-server2-go-x".toList.filter fun c => c != '-') =
      (lower "_HTTPServer2Go-- x").toList.filter fun c => !(c == '-' || c == '_' || isSpace c) := by
  have hall : ("_HTTPServer2Go-- x".toList.all fun c => decide (c.toNat < 0x80)) = true := by
    decide +kernel
  have hascii : ∀ c ∈ "_HTTPServer2Go-- x".toList, c.toNat < 0x80 :=
    fun c hc => of_decide_eq_true (List.all_eq_true.mp hall c hc)
  have hkebab : kebab "_HTTPServer2Go-- x" = "http-server2-go-x" := by decide +kernel
  obtain ⟨-, -, -, -, -, hletters⟩ := kebab_normalForm "_HTTPServer2Go-- x"
  rw [hkebab] at hletters
  exact ⟨hascii, hkebab, hletters hascii⟩

end DalSchema.Text
