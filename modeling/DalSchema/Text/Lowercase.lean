import DalSchema.Text.CaseTable
import DalSchema.Text.Ranges

/-!
# Lower case

Lower-casing maps each character on its own, with two exceptions: the dotted capital I becomes two
characters, and a capital sigma becomes the final small sigma when it ends a word.
-/

namespace DalSchema.Text

def lowerChar (c : Char) : List Char :=
  if c.toNat < 0x80 then [c.toLower]
  else if c.toNat == 0x130 then ['i', Char.ofNat 0x307]
  else match lowerRuns.findSome? fun run => run.apply? c.toNat with
    | some n => [Char.ofNat n]
    | none => [c]

def isCased (c : Char) : Bool := inRanges casedRanges c.toNat

def isCaseIgnorable (c : Char) : Bool := inRanges caseIgnorableRanges c.toNat

def meetsCased (cs : List Char) : Bool :=
  (cs.dropWhile isCaseIgnorable).head?.any isCased

/-- The small sigma for a capital one, given what stands before it (nearest first) and after it. -/
def lowerSigma (before after : List Char) : Char :=
  if meetsCased before && !meetsCased after then Char.ofNat 0x3c2 else Char.ofNat 0x3c3

/-- Lower-cases a text of which `before` has already been read, nearest character first. -/
def lowerAfter (before : List Char) : List Char → List Char
  | [] => []
  | c :: rest =>
    (if c.toNat == 0x3a3 then [lowerSigma before rest] else lowerChar c) ++
      lowerAfter (c :: before) rest

def lower (s : String) : String := String.ofList (lowerAfter [] s.toList)

theorem lowerChar_ascii {c : Char} (h : c.toNat < 0x80) : lowerChar c = [c.toLower] := by
  simp [lowerChar, h]

theorem lowerAfter_ascii (before cs : List Char) (h : ∀ c ∈ cs, c.toNat < 0x80) :
    lowerAfter before cs = cs.map Char.toLower := by
  induction cs generalizing before with
  | nil => rfl
  | cons c rest ih =>
    have hc : c.toNat < 0x80 := h c List.mem_cons_self
    have hs : (c.toNat == 0x3a3) = false := by simp; omega
    simp [lowerAfter, hs, lowerChar_ascii hc,
      ih (c :: before) fun d hd => h d (List.mem_cons_of_mem _ hd)]

end DalSchema.Text
