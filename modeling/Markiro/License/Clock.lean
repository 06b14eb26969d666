import Markiro.Host.LicenseClock

/-!
# The license clock never runs back

A run of the clock is a list of calls. No call lowers the mark, so the times never fall
(`mark_le_call`). Above, the mark is held by the anchor (`Held`): it is at most a slack ahead of
what the process has counted since the anchor, and the anchor itself gains at most a slack with
every believable reading.
-/

namespace Markiro.License

namespace LicenseClock

/-- What the host asks of the clock. -/
inductive Call where
  | observe (wall : ℤ) (mono : ℕ)
  | raiseFloor (floor : ℤ) (mono : ℕ)
  deriving DecidableEq

def Call.mono : Call → ℕ
  | .observe _ mono => mono
  | .raiseFloor _ mono => mono

/-- A reading of the PC's clock with the process's time. -/
abbrev Look := ℤ × ℕ

def Look.call (l : Look) : Call := .observe l.1 l.2

def call (c : LicenseClock) : Call → LicenseClock
  | .observe wall mono => (c.observe wall mono).2
  | .raiseFloor floor mono => c.raiseFloor floor mono

def after (c : LicenseClock) (calls : List Call) : LicenseClock := calls.foldl call c

def time (c : LicenseClock) (l : Look) : ℤ := (c.observe l.1 l.2).1.effective

variable {c : LicenseClock}

theorem after_append (c : LicenseClock) (a b : List Call) :
    c.after (a ++ b) = (c.after a).after b := List.foldl_append ..

theorem observe_clock (c : LicenseClock) (wall : ℤ) (mono : ℕ) : (c.observe wall mono).2 =
    if wall ≤ c.ceiling mono ∧ c.mark ≤ wall then
      ⟨c.effective wall mono, c.effective wall mono, mono⟩
    else { c with mark := c.effective wall mono } := (rfl)

theorem observe_mark (c : LicenseClock) (wall : ℤ) (mono : ℕ) :
    (c.observe wall mono).2.mark = c.effective wall mono := by
  rw [observe_clock]
  split_ifs <;> rfl

/-! ## The times never fall -/

theorem mark_le_effective (c : LicenseClock) (wall : ℤ) (mono : ℕ) :
    c.mark ≤ c.effective wall mono := le_max_right _ _

theorem floor_le_raiseFloor (c : LicenseClock) (floor : ℤ) (mono : ℕ) :
    floor ≤ (c.raiseFloor floor mono).mark := by
  unfold raiseFloor
  split_ifs with h
  · exact le_rfl
  · exact not_lt.1 h

/-- **No call lowers the mark.** -/
theorem mark_le_call (c : LicenseClock) (k : Call) : c.mark ≤ (c.call k).mark := by
  cases k with
  | observe wall mono =>
    show c.mark ≤ (c.observe wall mono).2.mark
    rw [observe_mark]
    exact c.mark_le_effective wall mono
  | raiseFloor floor mono =>
    show c.mark ≤ (c.raiseFloor floor mono).mark
    unfold raiseFloor
    split_ifs with h
    · exact h.le
    · exact le_rfl

theorem mark_le_after (c : LicenseClock) (calls : List Call) : c.mark ≤ (c.after calls).mark := by
  induction calls generalizing c with
  | nil => exact le_rfl
  | cons k calls ih => exact (c.mark_le_call k).trans (ih (c.call k))

/-! ## The ceiling -/

theorem saturate_le {n : ℤ} (h : -(2 ^ 63) ≤ n) : saturate n ≤ n := by
  unfold saturate
  omega

theorem neg_le_saturate (n : ℤ) : -(2 ^ 63) ≤ saturate n := le_max_left _ _

theorem millis_nonneg (d : ℕ) : 0 ≤ millis d := by
  unfold millis
  omega

theorem millis_mono {d d' : ℕ} (h : d ≤ d') : millis d ≤ millis d' := by
  have h2 := Nat.div_le_div_right (c := 1000000) h
  unfold millis
  omega

theorem millis_add_le (d d' : ℕ) :
    millis d + ((d' / 1000000 : ℕ) : ℤ) ≤ ((d + d') / 1000000 : ℕ) := by
  unfold millis
  omega

theorem ceiling_le (ha : -(2 ^ 63) ≤ c.anchor) (mono : ℕ) :
    c.ceiling mono ≤ c.anchor + millis (mono - c.anchorMono) + runningSlackMs := by
  have h0 := millis_nonneg (mono - c.anchorMono)
  have h1 := saturate_le (n := c.anchor + millis (mono - c.anchorMono)) (by omega)
  have h2 := neg_le_saturate (c.anchor + millis (mono - c.anchorMono))
  have h3 : (0 : ℤ) ≤ runningSlackMs := by decide
  exact (saturate_le (by omega)).trans (by omega)

/-- What holds the mark, the last call having been made at `last`: it is at most a slack ahead of
what the process has counted since the anchor. -/
structure Held (c : LicenseClock) (last : ℕ) : Prop where
  counted : c.anchorMono ≤ last
  range : -(2 ^ 63) ≤ c.anchor
  mark : c.mark ≤ c.anchor + millis (last - c.anchorMono) + runningSlackMs
  behind : c.anchor ≤ c.mark

theorem Held.effective_le {last : ℕ} (h : c.Held last) (wall : ℤ) {mono : ℕ} (hm : last ≤ mono) :
    c.effective wall mono ≤ c.anchor + millis (mono - c.anchorMono) + runningSlackMs := by
  have h1 := ceiling_le h.range mono
  have h2 := h.mark
  have h3 : millis (last - c.anchorMono) ≤ millis (mono - c.anchorMono) :=
    millis_mono (Nat.sub_le_sub_right hm _)
  exact max_le ((min_le_right _ _).trans h1) (by omega)

theorem Held.of_anchor {time : ℤ} {mono : ℕ} (h : -(2 ^ 63) ≤ time) :
    Held ⟨time, time, mono⟩ mono where
  counted := le_rfl
  range := h
  mark := by
    show time ≤ time + millis (mono - mono) + runningSlackMs
    have h1 := millis_nonneg (mono - mono)
    have h2 : (0 : ℤ) ≤ runningSlackMs := by decide
    omega
  behind := le_rfl

theorem Held.call {last : ℕ} (h : c.Held last) {k : Call} (hm : last ≤ k.mono) :
    (c.call k).Held k.mono := by
  have hrange := h.range
  have hbehind := h.behind
  have hmillis : millis (last - c.anchorMono) ≤ millis (k.mono - c.anchorMono) :=
    millis_mono (Nat.sub_le_sub_right hm _)
  cases k with
  | observe wall mono =>
    have heff := h.effective_le wall hm
    have hmark := c.mark_le_effective wall mono
    show Held (c.observe wall mono).2 mono
    rw [observe_clock]
    split_ifs with hb
    · exact .of_anchor (by omega)
    · exact ⟨h.counted.trans hm, hrange, heff, hbehind.trans hmark⟩
  | raiseFloor floor mono =>
    have hmark := h.mark
    show Held (c.raiseFloor floor mono) mono
    unfold raiseFloor
    split_ifs with hf
    · exact .of_anchor (by omega)
    · refine ⟨h.counted.trans hm, hrange, ?_, hbehind⟩
      show c.mark ≤ c.anchor + millis (mono - c.anchorMono) + runningSlackMs
      exact hmark.trans (add_le_add_left (add_le_add_right hmillis _) _)

/-- The process's time does not go back over the calls, from `mono` on. -/
def InStep (mono : ℕ) (calls : List Call) : Prop := (mono :: calls.map Call.mono).Pairwise (· ≤ ·)

instance (mono : ℕ) (calls : List Call) : Decidable (InStep mono calls) :=
  inferInstanceAs (Decidable (List.Pairwise _ _))

theorem InStep.cons_iff {mono : ℕ} {k : Call} {calls : List Call} :
    InStep mono (k :: calls) ↔ mono ≤ k.mono ∧ InStep k.mono calls := by
  unfold InStep
  rw [List.map_cons, List.pairwise_cons]
  constructor
  · rintro ⟨h1, h2⟩
    exact ⟨h1 _ List.mem_cons_self, h2⟩
  · rintro ⟨h1, h2⟩
    refine ⟨fun m hm => ?_, h2⟩
    rcases List.mem_cons.1 hm with rfl | hm
    · exact h1
    · exact h1.trans ((List.pairwise_cons.1 h2).1 m hm)

/-- **The mark is held after every run** in which the process's time does not go back. -/
theorem Held.after {last : ℕ} (h : c.Held last) {calls : List Call} {k : Call}
    (hstep : InStep last (calls ++ [k])) : ∃ l, (c.after calls).Held l ∧ l ≤ k.mono := by
  induction calls generalizing c last with
  | nil => exact ⟨last, h, (InStep.cons_iff.1 hstep).1⟩
  | cons j calls ih =>
    obtain ⟨h1, h2⟩ := InStep.cons_iff.1 hstep
    exact ih (h.call h1) h2

/-! ## What `n` looks gain -/

structure Gained (mark : ℤ) (mono : ℕ) (c : LicenseClock) (last n : ℕ) : Prop where
  counted : mono ≤ c.anchorMono ∧ c.anchorMono ≤ last
  range : -(2 ^ 63) ≤ c.anchor
  behind : c.anchor ≤ c.mark
  anchor : c.anchor ≤ mark + ((c.anchorMono - mono) / 1000000 : ℕ) + n * runningSlackMs
  mark : c.mark ≤ mark + ((last - mono) / 1000000 : ℕ) + n * runningSlackMs

variable {mark : ℤ} {mono last n : ℕ}

theorem Gained.effective_le (h : Gained mark mono c last n) {l : Look} (hm : last ≤ l.2) :
    c.effective l.1 l.2 ≤ mark + ((l.2 - mono) / 1000000 : ℕ) + (n + 1 : ℕ) * runningSlackMs := by
  obtain ⟨hc1, hc2⟩ := h.counted
  have h1 := ceiling_le h.range l.2
  have h2 := h.anchor
  have h3 := h.mark
  have h4 := millis_add_le (l.2 - c.anchorMono) (c.anchorMono - mono)
  rw [show l.2 - c.anchorMono + (c.anchorMono - mono) = l.2 - mono by omega] at h4
  have h5 : (last - mono) / 1000000 ≤ (l.2 - mono) / 1000000 := Nat.div_le_div_right (by omega)
  have h6 : (0 : ℤ) ≤ runningSlackMs := by decide
  have h7 : ((n + 1 : ℕ) : ℤ) * runningSlackMs = n * runningSlackMs + runningSlackMs := by
    rw [Nat.cast_succ, add_mul, one_mul]
  exact max_le ((min_le_right _ _).trans (by omega)) (by omega)

theorem Gained.look (h : Gained mark mono c last n) {l : Look} (hm : last ≤ l.2) :
    Gained mark mono (c.call l.call) l.2 (n + 1) := by
  have heff := h.effective_le hm
  have hmark := c.mark_le_effective l.1 l.2
  have hrange := h.range
  have hbehind := h.behind
  have hanchor := h.anchor
  obtain ⟨hc1, hc2⟩ := h.counted
  have h6 : (0 : ℤ) ≤ runningSlackMs := by decide
  have h7 : ((n + 1 : ℕ) : ℤ) * runningSlackMs = n * runningSlackMs + runningSlackMs := by
    rw [Nat.cast_succ, add_mul, one_mul]
  show Gained mark mono (c.observe l.1 l.2).2 l.2 (n + 1)
  rw [observe_clock]
  split_ifs with hb
  · exact ⟨⟨hc1.trans (hc2.trans hm), le_rfl⟩, hrange.trans (hbehind.trans hmark), le_rfl, heff,
      heff⟩
  · refine ⟨⟨hc1, hc2.trans hm⟩, hrange, hbehind.trans hmark, ?_, heff⟩
    show c.anchor ≤ mark + ((c.anchorMono - mono) / 1000000 : ℕ) + (n + 1 : ℕ) * runningSlackMs
    omega

theorem Gained.looks (h : Gained mark mono c last n) {looks : List Look} {l : Look}
    (hstep : InStep last ((looks ++ [l]).map Look.call)) :
    ∃ last', Gained mark mono (c.after (looks.map Look.call)) last' (n + looks.length) ∧
      last' ≤ l.2 := by
  induction looks generalizing c last n with
  | nil => exact ⟨last, h, (InStep.cons_iff.1 hstep).1⟩
  | cons j looks ih =>
    obtain ⟨h1, h2⟩ := InStep.cons_iff.1 hstep
    obtain ⟨last', h3, h4⟩ := ih (h.look h1) h2
    refine ⟨last', ?_, h4⟩
    rw [List.length_cons, show n + (looks.length + 1) = n + 1 + looks.length by omega]
    exact h3

/-! ## The start -/

/-- A time in 64 bits. -/
abbrev I64 := { n : ℤ // -(2 ^ 63) ≤ n ∧ n < 2 ^ 63 }

/-- What a host starts its clock from. -/
structure Start where
  stored : Option I64
  wall : I64
  mono : ℕ
  floor : Option I64

def Start.clock (s : Start) : LicenseClock :=
  .atStart (s.stored.map Subtype.val) s.wall s.mono (s.floor.map Subtype.val)

theorem Start.range (s : Start) : -(2 ^ 63) ≤ s.clock.mark := by
  obtain ⟨stored, wall, mono, floor⟩ := s
  have hbase : -(2 ^ 63) ≤ (stored.map Subtype.val).getD wall.1 := by
    cases stored with
    | none => exact wall.2.1
    | some t => exact t.2.1
  have hmark : -(2 ^ 63) ≤
      if wall.1 ≥ (stored.map Subtype.val).getD wall.1 then
        min wall.1 (saturate ((stored.map Subtype.val).getD wall.1 + startJumpMs))
      else (stored.map Subtype.val).getD wall.1 := by
    split_ifs
    · exact le_min wall.2.1 (neg_le_saturate _)
    · exact hbase
  show -(2 ^ 63) ≤ startMark _ _ _
  unfold startMark
  cases floor with
  | none => exact hmark
  | some f => exact hmark.trans (le_max_left _ _)

theorem Start.held (s : Start) : s.clock.Held s.mono := .of_anchor s.range

theorem Start.gained (s : Start) : Gained s.clock.mark s.mono s.clock s.mono 0 where
  counted := ⟨le_rfl, le_rfl⟩
  range := s.range
  behind := le_rfl
  anchor := by
    show s.clock.mark ≤ s.clock.mark + ((s.mono - s.mono) / 1000000 : ℕ) + (0 : ℕ) * runningSlackMs
    omega
  mark := by omega

/-! ## The clock -/

def Above (c : LicenseClock) : List Look → Prop
  | [] => True
  | l :: looks => c.ceiling l.2 < l.1 ∧ Above (c.call l.call) looks

instance : ∀ (c : LicenseClock) (looks : List Look), Decidable (c.Above looks)
  | _, [] => isTrue trivial
  | c, l :: looks =>
    have : Decidable ((c.call l.call).Above looks) := instDecidableAbove (c.call l.call) looks
    inferInstanceAs (Decidable (c.ceiling l.2 < l.1 ∧ (c.call l.call).Above looks))

theorem call_of_above {l : Look} (h : c.ceiling l.2 < l.1) :
    (c.call l.call).anchor = c.anchor ∧ (c.call l.call).anchorMono = c.anchorMono := by
  show (c.observe l.1 l.2).2.anchor = _ ∧ (c.observe l.1 l.2).2.anchorMono = _
  rw [observe_clock, if_neg fun hb => not_lt.2 hb.1 h]
  exact ⟨rfl, rfl⟩

theorem Above.anchor {looks : List Look} (h : c.Above looks) :
    (c.after (looks.map Look.call)).anchor = c.anchor ∧
      (c.after (looks.map Look.call)).anchorMono = c.anchorMono := by
  induction looks generalizing c with
  | nil => exact ⟨rfl, rfl⟩
  | cons l looks ih =>
    obtain ⟨h1, h2⟩ := call_of_above h.1
    obtain ⟨h3, h4⟩ := ih h.2
    exact ⟨h3.trans h1, h4.trans h2⟩

theorem Above.of_append {looks rest : List Look} (h : c.Above (looks ++ rest)) : c.Above looks := by
  induction looks generalizing c with
  | nil => trivial
  | cons l looks ih => exact ⟨h.1, ih h.2⟩

/-- **The license clock never runs back and gains at most the slack per look.** The effective times
do not fall and stand at or above every floor raised before; `n` looks gain at most `n` slacks over
the process's time; and a run of looks above the ceiling gains one slack over the process's time
since the anchor, the last reading that was believed. -/
theorem clock_never_runs_back (s : Start) :
    (∀ (before between : List Call) (l l' : Look),
      (s.clock.after before).time l ≤ (s.clock.after (before ++ l.call :: between)).time l') ∧
    (∀ (before between : List Call) (floor : ℤ) (mono : ℕ) (l : Look),
      floor ≤ (s.clock.after (before ++ .raiseFloor floor mono :: between)).time l) ∧
    (∀ (looks : List Look) (l : Look), InStep s.mono ((looks ++ [l]).map Look.call) →
      (s.clock.after (looks.map Look.call)).time l ≤
        s.clock.mark + ((l.2 - s.mono) / 1000000 : ℕ) + (looks.length + 1 : ℕ) * runningSlackMs) ∧
    ∀ (before : List Call) (looks : List Look) (l : Look),
      InStep s.mono (before ++ looks.map Look.call ++ [l.call]) →
      (s.clock.after before).Above (looks ++ [l]) →
      (s.clock.after (before ++ looks.map Look.call)).time l ≤
        (s.clock.after before).anchor + millis (l.2 - (s.clock.after before).anchorMono) +
          runningSlackMs := by
  refine ⟨fun before between l l' => ?_, fun before between floor mono l => ?_,
    fun looks l hstep => ?_, fun before looks l hstep habove => ?_⟩
  · rw [after_append]
    have h1 := mark_le_after ((s.clock.after before).call l.call) between
    rw [show ((s.clock.after before).call l.call).mark = (s.clock.after before).time l from
      observe_mark ..] at h1
    exact h1.trans (mark_le_effective ..)
  · rw [after_append]
    have h1 := mark_le_after ((s.clock.after before).call (.raiseFloor floor mono)) between
    exact (floor_le_raiseFloor _ _ _).trans (h1.trans (mark_le_effective ..))
  · obtain ⟨last, h, hl⟩ := s.gained.looks hstep
    rw [Nat.zero_add] at h
    exact h.effective_le hl
  · obtain ⟨last, h, hl⟩ := s.held.after hstep
    have h1 := h.effective_le l.1 hl
    rw [after_append] at h1 ⊢
    rw [habove.of_append.anchor.1, habove.of_append.anchor.2] at h1
    exact h1

/-- A first start, with nothing stored. -/
def startedNow : Start := ⟨none, ⟨1790000000000, by decide⟩, 0, none⟩

def hour : ℕ := 3600 * 1000000000

/-- **A look after a clock that stood behind gains more than a slack**: an hour on the PC's clock is
a millisecond back, and at the same moment of the process a second look finds it far ahead. The time
catches up with the hour the process has counted, none of it between the two looks. -/
theorem clock_catches_up :
    InStep startedNow.mono [.observe 1789999999999 hour, .observe 1890000000000 hour] ∧
      (startedNow.clock.after [.observe 1789999999999 hour]).Above [(1890000000000, hour)] ∧
      ¬ (startedNow.clock.after [.observe 1789999999999 hour]).time (1890000000000, hour) ≤
        (startedNow.clock.after [.observe 1789999999999 hour]).mark +
          ((hour - hour) / 1000000 : ℕ) + runningSlackMs := by
  decide

end LicenseClock

end Markiro.License
