import Mathlib.Data.List.Basic
import DalSchema.Text.Lowercase

/-!
# Lower case of lower case

A text in lower case is its own lower case: `Text.lowerAfter_lowerAfter`. For characters beyond
ASCII this is a property of the table of mappings: no run leads to a code point that a run maps.
-/

namespace DalSchema.Text

namespace CaseRun

/-- Whether no image lies between two code points. -/
def avoids (run : CaseRun) (low high : Nat) : Bool :=
  Nat.blt high run.target || Nat.blt (run.target + (run.last - run.first)) low

/-- Whether no image is mapped by another run: it lies outside that run or between its steps. -/
def settlesFor (run other : CaseRun) : Bool :=
  run.avoids other.first other.last ||
    (run.step % other.step == 0 || run.first == run.last) &&
      run.target % other.step != other.first % other.step

variable {run other : CaseRun} {n m : Nat}

theorem eq_some_iff : run.apply? n = some m ↔
    run.first ≤ n ∧ n ≤ run.last ∧ (n - run.first) % run.step = 0 ∧
      m = run.target + (n - run.first) := by
  unfold CaseRun.apply?
  split
  · next h =>
    simp only [Bool.and_eq_true, decide_eq_true_eq, beq_iff_eq] at h
    simp [h, eq_comm]
  · next h =>
    simp only [Bool.and_eq_true, decide_eq_true_eq, beq_iff_eq, not_and] at h
    simp only [reduceCtorEq, false_iff]
    rintro ⟨hfirst, hlast, hstep, -⟩
    exact h ⟨hfirst, hlast⟩ hstep

theorem not_between_of_avoids {low high : Nat} (havoids : run.avoids low high = true)
    (h : run.apply? n = some m) : ¬(low ≤ m ∧ m ≤ high) := by
  obtain ⟨hfirst, hlast, -, rfl⟩ := eq_some_iff.mp h
  simp only [avoids, Bool.or_eq_true, Nat.blt_eq] at havoids
  omega

theorem eq_none_of_settlesFor (hsettles : run.settlesFor other = true)
    (h : run.apply? n = some m) : other.apply? m = none := by
  by_contra hmapped
  obtain ⟨k, hk⟩ := Option.ne_none_iff_exists'.mp hmapped
  obtain ⟨hlow, hhigh, hdvd, -⟩ := eq_some_iff.mp hk
  rw [settlesFor, Bool.or_eq_true, Bool.and_eq_true] at hsettles
  rcases hsettles with havoids | ⟨hstep, hresidue⟩
  · exact not_between_of_avoids havoids h ⟨hlow, hhigh⟩
  · obtain ⟨hfirst, hlast, hrun, rfl⟩ := eq_some_iff.mp h
    -- All images have the residue of the target, and what the other run maps that of its start.
    have hshift : (n - run.first) % other.step = 0 := by
      simp only [Bool.or_eq_true, beq_iff_eq] at hstep
      rcases hstep with hstep | hsingle
      · exact Nat.mod_eq_zero_of_dvd
          (Nat.dvd_trans (Nat.dvd_of_mod_eq_zero hstep) (Nat.dvd_of_mod_eq_zero hrun))
      · have hzero : n - run.first = 0 := by omega
        rw [hzero, Nat.zero_mod]
    have himage : (run.target + (n - run.first)) % other.step = run.target % other.step := by
      rw [Nat.add_mod, hshift, Nat.add_zero, Nat.mod_mod]
    have hmember : (run.target + (n - run.first)) % other.step = other.first % other.step := by
      conv_lhs => rw [← Nat.add_sub_cancel' hlow]
      rw [Nat.add_mod, hdvd, Nat.add_zero, Nat.mod_mod]
    simp [← himage, hmember] at hresidue

end CaseRun

theorem lowerRuns_settle : (lowerRuns.all fun run => lowerRuns.all run.settlesFor) = true := by
  decide +kernel

/-- No run leads to an ASCII capital, to the dotted capital I, or to what is no character. -/
theorem lowerRuns_avoid :
    (lowerRuns.all fun run => run.avoids 0x41 0x5a && run.avoids 0x130 0x130 &&
      run.avoids 0xd800 0xdfff && Nat.blt (run.target + (run.last - run.first)) 0x110000) =
      true := by
  decide +kernel

theorem image_cases {run : CaseRun} (hrun : run ∈ lowerRuns) {n m : Nat}
    (h : run.apply? n = some m) : ¬(0x41 ≤ m ∧ m ≤ 0x5a) ∧ m ≠ 0x130 ∧ m.isValidChar := by
  have havoid := List.all_eq_true.mp lowerRuns_avoid run hrun
  simp only [Bool.and_eq_true, Nat.blt_eq] at havoid
  obtain ⟨⟨⟨hcapitals, hdotted⟩, hsurrogates⟩, hbound⟩ := havoid
  have hne := CaseRun.not_between_of_avoids hdotted h
  have hvalid := CaseRun.not_between_of_avoids hsurrogates h
  obtain ⟨-, hlast, -, hm⟩ := CaseRun.eq_some_iff.mp h
  refine ⟨CaseRun.not_between_of_avoids hcapitals h, by omega, ?_⟩
  change m < 0xd800 ∨ 0xdfff < m ∧ m < 0x110000
  omega

theorem toNat_ofNat {n : Nat} (h : n.isValidChar) : (Char.ofNat n).toNat = n := by
  have hvalid : Char.ofNat n = Char.ofNatAux n h := dif_pos h
  rw [hvalid]
  rfl

theorem ascii_induction {p : Char → Bool} (h : ∀ n < 0x80, p (Char.ofNat n) = true) {c : Char}
    (hc : c.toNat < 0x80) : p c = true :=
  Char.ofNat_toNat c ▸ h c.toNat hc

/-! ## Characters in lower case -/

/-- Where a character of a lower-case form comes from. -/
theorem mem_lowerChar_cases {c d : Char} (h : d ∈ lowerChar c) :
    c.toNat < 0x80 ∧ d = c.toLower ∨
    d = 'i' ∨ d = Char.ofNat 0x307 ∨
    (∃ run ∈ lowerRuns, run.apply? c.toNat = some d.toNat) ∨
    d = c ∧ 0x80 ≤ c.toNat ∧ c.toNat ≠ 0x130 ∧ ∀ run ∈ lowerRuns, run.apply? c.toNat = none := by
  rw [lowerChar] at h
  split at h
  · next hascii => exact .inl ⟨hascii, List.mem_singleton.mp h⟩
  · next hascii =>
    split at h
    · rcases List.mem_pair.mp h with hd | hd
      · exact .inr (.inl hd)
      · exact .inr (.inr (.inl hd))
    · next hdotted =>
      split at h
      · next m hfound =>
        obtain ⟨run, hrun, hm⟩ := List.exists_of_findSome?_eq_some hfound
        rw [List.mem_singleton.mp h, toNat_ofNat (image_cases hrun hm).2.2]
        exact .inr (.inr (.inr (.inl ⟨run, hrun, hm⟩)))
      · next hnone =>
        exact .inr (.inr (.inr (.inr ⟨List.mem_singleton.mp h, by omega, by simpa using hdotted,
          List.findSome?_eq_none_iff.mp hnone⟩)))

theorem lowerChar_eq_self {c : Char} (hcapital : ¬(0x41 ≤ c.toNat ∧ c.toNat ≤ 0x5a))
    (hdotted : c.toNat ≠ 0x130) (hruns : ∀ run ∈ lowerRuns, run.apply? c.toNat = none) :
    lowerChar c = [c] := by
  rw [lowerChar]
  split
  · next hascii =>
    have hself : (decide (0x41 ≤ c.toNat ∧ c.toNat ≤ 0x5a) || c.toLower == c) = true :=
      ascii_induction (p := fun c => decide (0x41 ≤ c.toNat ∧ c.toNat ≤ 0x5a) || c.toLower == c)
        (by decide +kernel) hascii
    simpa [hcapital] using hself
  · rw [if_neg (by simpa using hdotted), List.findSome?_eq_none_iff.mpr hruns]

theorem lowerChar_of_mem_lowerChar {c d : Char} (h : d ∈ lowerChar c) : lowerChar d = [d] := by
  rcases mem_lowerChar_cases h with
    ⟨hascii, rfl⟩ | rfl | rfl | ⟨run, hrun, hd⟩ | ⟨rfl, hbeyond, hdotted, hruns⟩
  · exact beq_iff_eq.mp (ascii_induction (p := fun c => lowerChar c.toLower == [c.toLower])
      (by decide +kernel) hascii)
  · decide
  · decide +kernel
  · obtain ⟨hcapital, hdotted, -⟩ := image_cases hrun hd
    have hsettle := List.all_eq_true.mp (List.all_eq_true.mp lowerRuns_settle run hrun)
    exact lowerChar_eq_self hcapital hdotted fun other hother =>
      CaseRun.eq_none_of_settlesFor (hsettle other hother) hd
  · exact lowerChar_eq_self (by omega) hdotted hruns

/-! ## Texts in lower case -/

theorem lowerChar_lowerSigma (before after : List Char) :
    lowerChar (lowerSigma before after) = [lowerSigma before after] := by
  rw [lowerSigma]
  split <;> decide +kernel

theorem lowerChar_of_mem_lowerAfter {before cs : List Char} {d : Char}
    (h : d ∈ lowerAfter before cs) : lowerChar d = [d] := by
  induction cs generalizing before with
  | nil => cases h
  | cons c rest ih =>
    rw [lowerAfter, List.mem_append] at h
    rcases h with hd | hd
    · split at hd
      · rw [List.mem_singleton.mp hd]
        exact lowerChar_lowerSigma before rest
      · exact lowerChar_of_mem_lowerChar hd
    · exact ih hd

theorem toNat_ne_sigma {c : Char} (h : lowerChar c = [c]) : c.toNat ≠ 0x3a3 := by
  intro hsigma
  rw [← Char.ofNat_toNat c, hsigma] at h
  revert h
  decide +kernel

theorem isUpper_eq_false {c : Char} (h : lowerChar c = [c]) : c.isUpper = false := by
  by_contra hupper
  rw [Bool.not_eq_false] at hupper
  have hascii : c.toNat < 0x80 := by
    delta Char.isUpper at hupper
    simp only [decide_eq_true_eq, UInt32.le_iff_toNat_le] at hupper
    exact Nat.lt_of_le_of_lt hupper.2 (by decide)
  have hne : (!c.isUpper || c.toLower != c) = true :=
    ascii_induction (p := fun c => !c.isUpper || c.toLower != c) (by decide +kernel) hascii
  rw [lowerChar_ascii hascii, List.singleton_inj] at h
  simp [hupper, h] at hne

theorem lowerAfter_eq_self {before cs : List Char} (h : ∀ c ∈ cs, lowerChar c = [c]) :
    lowerAfter before cs = cs := by
  induction cs generalizing before with
  | nil => rfl
  | cons c rest ih =>
    obtain ⟨hc, hrest⟩ := List.forall_mem_cons.mp h
    rw [lowerAfter, if_neg (by simpa using toNat_ne_sigma hc), hc, ih hrest]
    rfl

/-- A text in lower case is its own lower case, whatever stands before it. -/
theorem lowerAfter_lowerAfter (before before' cs : List Char) :
    lowerAfter before' (lowerAfter before cs) = lowerAfter before cs :=
  lowerAfter_eq_self fun _ hc => lowerChar_of_mem_lowerAfter hc

end DalSchema.Text
