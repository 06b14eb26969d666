import Markiro.Lib.Calendar

/-!
# Which backup copies a folder keeps

The newest 24 copies, the newest of each of the 14 newest days and of each of the 12 newest months
that have copies, and the copies made before an upgrade for 14 days (`backup/retention.rs`,
`upgrade.rs`).
-/

namespace Markiro.Backups

open Calendar (DateTime)

def hourly : ℕ := 24
def daily : ℕ := 14
def monthly : ℕ := 12

/-- `upgrade::KEEP_DAYS`, in nanoseconds. -/
def keepNanos : ℤ := 14 * 86400 * 1000000000

/-- A copy: its file and when it was created. -/
abbrev Copy := String × DateTime

def copyPrefix : List Char := "markiro-host-".toList

def tagPrefix : List Char := "pre-upgrade-".toList

/-- Whether a file's name is that of a copy made before an upgrade: the prefix, a stamp
`YYYYMMDDTHHMMSSZ-` and the tag. -/
def isPreUpgrade (file : String) : Bool :=
  match copyPrefix.isPrefixOf file.toList with
  | false => false
  | true =>
    let rest := file.toList.drop copyPrefix.length
    let stamp := rest.take 17
    let isStamp := decide (stamp.length = 17) && stamp.zipIdx.all fun (char, index) =>
      match index with
      | 8 => char == 'T'
      | 15 => char == 'Z'
      | 16 => char == '-'
      | _ => char.isDigit
    isStamp && tagPrefix.isPrefixOf (rest.drop 17)

/-- `a` sorts before `b`: it is newer, and the name breaks a tie. -/
def SortsBefore (a b : Copy) : Prop :=
  b.2.nanos < a.2.nanos ∨ b.2.nanos = a.2.nanos ∧ b.1 ≤ a.1

instance : DecidableRel SortsBefore := fun _ _ => inferInstanceAs (Decidable (_ ∨ _))

/-- Newest first, so that the choice never depends on the order a folder listed its files in. -/
def newestFirst (copies : List Copy) : List Copy := copies.insertionSort SortsBefore

def day (c : Copy) : ℕ × ℕ × ℕ := (c.2.year, c.2.month, c.2.day)

def month (c : Copy) : ℕ × ℕ := (c.2.year, c.2.month)

structure Kept where
  days : List (ℕ × ℕ × ℕ)
  months : List (ℕ × ℕ)
  names : Finset String

def Kept.takeDay (k : Kept) (c : Copy) : Kept :=
  if k.days.length < daily ∧ day c ∉ k.days then
    { k with days := k.days ++ [day c], names := insert c.1 k.names }
  else k

def Kept.takeMonth (k : Kept) (c : Copy) : Kept :=
  if k.months.length < monthly ∧ month c ∉ k.months then
    { k with months := k.months ++ [month c], names := insert c.1 k.names }
  else k

def Kept.take (k : Kept) (c : Copy) : Kept := (k.takeDay c).takeMonth c

def keepAnchored (copies : List Copy) (anchor : Option DateTime) : Finset String :=
  let newestFirst := Backups.newestFirst copies
  let names := ((newestFirst.take hourly).map Prod.fst).toFinset
  let kept := newestFirst.foldl Kept.take ⟨[], [], names⟩
  match anchor <|> newestFirst.head?.map Prod.snd with
  | some newest => newestFirst.foldl (fun names c =>
      if newest.nanos - keepNanos ≤ c.2.nanos ∧ isPreUpgrade c.1 = true then insert c.1 names
      else names) kept.names
  | none => kept.names

/-- The names to keep among `copies`. -/
def keep (copies : List Copy) : Finset String := keepAnchored copies none

end Markiro.Backups
