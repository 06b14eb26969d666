import Markiro.Host.License

/-!
# The license clock

The time the license trusts (`license/clock.rs`): the greater of the PC's clock and the mark, and
while the host runs never further ahead than the process's monotonic time since the last believable
reading, plus a slack. A duration is a number of nanoseconds.
-/

namespace Markiro.License

def runningSlackMs : ℤ := 5 * 60 * 1000
def startJumpMs : ℤ := 400 * dayMs
def aheadFlagMs : ℤ := dayMs

/-- One look at the time. -/
structure Reading where
  effective : ℤ
  behindMs : ℤ
  ahead : Bool
  deriving DecidableEq

/-- The mark in memory: the last effective time, and the anchor the ceiling counts from. -/
structure LicenseClock where
  mark : ℤ
  anchor : ℤ
  anchorMono : ℕ
  deriving DecidableEq

/-- The whole milliseconds of a duration, as an `i64`. -/
def millis (duration : ℕ) : ℤ := min (duration / 1000000 : ℕ) (2 ^ 63 - 1)

namespace LicenseClock

def startMark (stored : Option ℤ) (wall : ℤ) (floor : Option ℤ) : ℤ :=
  let base := stored.getD wall
  let mark := if wall ≥ base then min wall (saturate (base + startJumpMs)) else base
  match floor with
  | some floor => max mark floor
  | none => mark

/-- At a start: the stored mark, the PC's clock, the monotonic time and the files' floor. -/
def atStart (stored : Option ℤ) (wall : ℤ) (mono : ℕ) (floor : Option ℤ) : LicenseClock :=
  ⟨startMark stored wall floor, startMark stored wall floor, mono⟩

/-- How far ahead the time may be at `mono`. -/
def ceiling (c : LicenseClock) (mono : ℕ) : ℤ :=
  saturate (saturate (c.anchor + millis (mono - c.anchorMono)) + runningSlackMs)

def effective (c : LicenseClock) (wall : ℤ) (mono : ℕ) : ℤ := max (min wall (c.ceiling mono)) c.mark

/-- The effective time now: a believable reading moves the anchor, any reading moves the mark. -/
def observe (c : LicenseClock) (wall : ℤ) (mono : ℕ) : Reading × LicenseClock :=
  let effective := c.effective wall mono
  (⟨effective, max (saturate (effective - wall)) 0,
      decide (aheadFlagMs < saturate (wall - effective))⟩,
    if wall ≤ c.ceiling mono ∧ c.mark ≤ wall then ⟨effective, effective, mono⟩
    else { c with mark := effective })

/-- Files just stored prove the time is not before `floor`. -/
def raiseFloor (c : LicenseClock) (floor : ℤ) (mono : ℕ) : LicenseClock :=
  if c.mark < floor then ⟨floor, floor, mono⟩ else c

end LicenseClock

end Markiro.License
