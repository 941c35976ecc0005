import DalSchema.Value.Binary64

/-!
# The order of a set

The members of a set are listed in the order of the slots of a table. A member stands in the slot of
its number or, if that is taken, in the next free one that is tried; the table is enlarged when
three fifths of it are taken.
-/

namespace DalSchema.Slots

/-- Numbers that differ by a multiple of this prime have the same slot. -/
def modulus : Nat := Nat.pow 2 61 - 1

def width : Nat := Nat.pow 2 64

def signed (negative : Bool) (n : Nat) : Int :=
  let n : Int := if negative then -n else n
  if n == -1 then -2 else n

def ofInt (n : Int) : Int := signed (n < 0) (n.natAbs % modulus)

/-- The slot number of a number with a fraction. Halving is doubling sixty times over. -/
def ofBinary64 : Binary64 → Int
  | .finite negative significand power =>
    let halvings := Nat.pow 2 (60 * 1074 % 61)
    signed negative (significand * Nat.pow 2 (power % 61) * halvings % modulus)
  | .infinite negative => signed negative 314159
  | .undefined => 0

structure Table (α : Type) where
  slots : List (Option (Int × α))

namespace Table

variable {α : Type}

def ofSize (least : Nat) : Table α :=
  let size := Nat.pow 2 (max 3 (Nat.log2 least + 1))
  ⟨List.replicate size none⟩

/-- The free slot for a number: ten in a row are tried, where there are ten, and then others. -/
def freeSlot (t : Table α) : Nat → Nat → Nat → Nat
  | 0, _, slot => slot
  | fuel + 1, perturb, slot =>
    let size := t.slots.length
    let row := if slot + 9 < size then 10 else 1
    match (List.range row).find? fun n => (t.slots[slot + n]?.join).isNone with
    | some n => slot + n
    | none =>
      let perturb := perturb / 32
      t.freeSlot fuel perturb ((slot * 5 + 1 + perturb) % size)

def put (t : Table α) (member : Int × α) : Table α :=
  let start := (member.1 % width).toNat
  let slot := t.freeSlot (t.slots.length + 64) start (start % t.slots.length)
  ⟨t.slots.set slot (some member)⟩

def members (t : Table α) : List (Int × α) := t.slots.filterMap id

def insert (t : Table α) (member : Int × α) : Table α :=
  let t := t.put member
  let count := t.members.length
  if count * 5 < (t.slots.length - 1) * 3 then t
  else t.members.foldl put (ofSize (count * if 50000 < count then 2 else 4))

end Table

def order {α : Type} (members : List (Int × α)) : List α :=
  let count := members.length
  let start : Table α := if count * 5 < 21 then .ofSize 0 else .ofSize (count * 2)
  ((members.foldl Table.insert start).members).map Prod.snd

end DalSchema.Slots
