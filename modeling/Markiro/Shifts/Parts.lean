import Markiro.Host.Run

/-!
# A shift and its participants

Devices open, join, leave and close a shift, each its own part, and the office closes it whole. The
shift's status is kept in a table of its own and follows from its participants' states (`Agree`);
what a moment says of them holds later (`Onward`), so that a leave of a stay that is over finds
another token and changes nothing.
-/

namespace Markiro

open Table (Unique update mem_update mem_update_of_mem mem_update_of_not)
open Calendar Txn

/-! ## The two tables -/

/-- A shift, as far as its participants decide it. -/
structure ShiftFace where
  id : String
  status : ShiftStatus
  hasSnapshot : Bool
  opened : Bool
  closedAt : Option String
  closedByKind : Option ClosedBy

def ShiftRow.face (s : ShiftRow) : ShiftFace :=
  ⟨s.id, s.status, s.snapshot.isSome, s.openedAt.isSome, s.closedAt, s.closedByKind⟩

structure PartFace where
  shiftId : String
  deviceId : String
  state : ParticipantState
  token : Option ℕ
  leftAt : Option String
  closedAt : Option String
  closedByKind : Option ClosedBy

def ParticipantRow.face (p : ParticipantRow) : PartFace :=
  ⟨p.shiftId, p.deviceId, p.state, p.joinedRev, p.leftAt, p.closedAt, p.closedByKind⟩

def PartFace.key (p : PartFace) : String × String := (p.shiftId, p.deviceId)

def deviceClosesOf (parts : List PartFace) (shiftId : String) : Set String :=
  {t | ∃ p ∈ parts, p.shiftId = shiftId ∧ p.closedByKind = some .device ∧ p.closedAt = some t}

/-- A part has the columns of its state, and a device's close is at a whole second. -/
structure PartFace.Shaped (p : PartFace) : Prop where
  leftAt : p.leftAt ≠ none ↔ p.state = .left
  closedAt : p.closedAt ≠ none ↔ p.state = .closed
  closedBy : p.closedByKind ≠ none ↔ p.state = .closed
  instant : p.closedByKind = some .device → ∃ d : DateTime, p.closedAt = some (secondText d)

structure ShiftFace.Agrees (parts : List PartFace) (s : ShiftFace) : Prop where
  planned : s.status = .planned ↔ s.opened = false
  snapshot : s.hasSnapshot = s.opened
  closed : s.status = .closed ↔
    s.opened = true ∧ ∀ p ∈ parts, p.shiftId = s.id → p.state = .closed
  closedBy : s.closedByKind ≠ none → s.status = .closed
  last : s.closedByKind = some .device →
    ∃ t, s.closedAt = some t ∧ IsGreatest (deviceClosesOf parts s.id) t

structure Agree (revision : ℕ) (shifts : List ShiftFace) (parts : List PartFace) : Prop where
  shifts_unique : Unique (·.id) shifts
  parts_unique : Unique PartFace.key parts
  agrees : ∀ s ∈ shifts, s.Agrees parts
  entered : ∀ p ∈ parts, ∃ s ∈ shifts, s.id = p.shiftId ∧ s.opened = true
  shaped : ∀ p ∈ parts, p.Shaped
  tokens : ∀ p ∈ parts, ∀ t, p.token = some t → t ≤ revision

def Db.Agree (db : Db) : Prop :=
  Markiro.Agree db.revision (db.shifts.map ShiftRow.face) (db.participants.map ParticipantRow.face)

/-- A later moment: a part that is closed stays as it is and its token never goes back, and a shift
that is closed stays closed. -/
structure Onward (shifts shifts' : List ShiftFace) (parts parts' : List PartFace) : Prop where
  part : ∀ p ∈ parts, ∃ q ∈ parts', q.key = p.key ∧
    (∀ t, p.token = some t → ∃ t', q.token = some t' ∧ t ≤ t') ∧
    (p.state = .closed → q.state = .closed ∧ q.closedAt = p.closedAt ∧
      q.closedByKind = p.closedByKind)
  shift : ∀ s ∈ shifts, ∃ r ∈ shifts', r.id = s.id ∧
    (s.status = .closed → r.status = .closed ∧ r.closedAt = s.closedAt)

def Db.Onward (db db' : Db) : Prop :=
  Markiro.Onward (db.shifts.map ShiftRow.face) (db'.shifts.map ShiftRow.face)
    (db.participants.map ParticipantRow.face) (db'.participants.map ParticipantRow.face)

/-! ## Later moments -/

namespace Onward

variable {shifts shifts' shifts'' : List ShiftFace} {parts parts' parts'' : List PartFace}

theorem refl : Onward shifts shifts parts parts where
  part := fun p hp => ⟨p, hp, rfl, fun t ht => ⟨t, ht, le_rfl⟩, fun h => ⟨h, rfl, rfl⟩⟩
  shift := fun s hs => ⟨s, hs, rfl, fun h => ⟨h, rfl⟩⟩

theorem trans (h : Onward shifts shifts' parts parts')
    (h' : Onward shifts' shifts'' parts' parts'') : Onward shifts shifts'' parts parts'' where
  part := by
    intro p hp
    obtain ⟨q, hq, hkey, htoken, hclosed⟩ := h.part p hp
    obtain ⟨r, hr, hkey', htoken', hclosed'⟩ := h'.part q hq
    refine ⟨r, hr, hkey'.trans hkey, fun t ht => ?_, fun hc => ?_⟩
    · obtain ⟨t', ht', hle⟩ := htoken t ht
      obtain ⟨t'', ht'', hle'⟩ := htoken' t' ht'
      exact ⟨t'', ht'', le_trans hle hle'⟩
    · obtain ⟨h1, h2, h3⟩ := hclosed hc
      obtain ⟨h1', h2', h3'⟩ := hclosed' h1
      exact ⟨h1', h2'.trans h2, h3'.trans h3⟩
  shift := by
    intro s hs
    obtain ⟨r, hr, hid, hclosed⟩ := h.shift s hs
    obtain ⟨q, hq, hid', hclosed'⟩ := h'.shift r hr
    refine ⟨q, hq, hid'.trans hid, fun hc => ?_⟩
    obtain ⟨h1, h2⟩ := hclosed hc
    obtain ⟨h1', h2'⟩ := hclosed' h1
    exact ⟨h1', h2'.trans h2⟩

theorem of_parts {p : PartFace → Bool} {f : PartFace → PartFace} (hkey : ∀ x, (f x).key = x.key)
    (htoken : ∀ x ∈ parts, p x = true → ∀ t, x.token = some t → ∃ t', (f x).token = some t' ∧ t ≤ t')
    (hopen : ∀ x ∈ parts, p x = true → x.state ≠ .closed) :
    Onward shifts shifts parts (update p f parts) where
  part := by
    intro x hx
    refine ⟨_, mem_update_of_mem hx, ?_⟩
    by_cases hp : p x = true
    · rw [if_pos hp]
      exact ⟨hkey x, htoken x hx hp, fun hc => absurd hc (hopen x hx hp)⟩
    · rw [if_neg hp]
      exact ⟨rfl, fun t ht => ⟨t, ht, le_rfl⟩, fun hc => ⟨hc, rfl, rfl⟩⟩
  shift := (refl : Onward shifts shifts parts parts).shift

theorem of_shifts {q : ShiftFace → Bool} {g : ShiftFace → ShiftFace}
    (hid : ∀ s ∈ shifts, q s = true → (g s).id = s.id)
    (hactive : ∀ s ∈ shifts, q s = true → s.status ≠ .closed) :
    Onward shifts (update q g shifts) parts parts where
  part := (refl : Onward shifts shifts parts parts).part
  shift := by
    intro s hs
    refine ⟨_, mem_update_of_mem hs, ?_⟩
    by_cases hq : q s = true
    · rw [if_pos hq]
      exact ⟨hid s hs hq, fun hc => absurd hc (hactive s hs hq)⟩
    · rw [if_neg hq]
      exact ⟨rfl, fun hc => ⟨hc, rfl⟩⟩

theorem append {new : PartFace} (h : Onward shifts shifts' parts parts') :
    Onward shifts shifts' parts (parts' ++ [new]) where
  part := by
    intro x hx
    obtain ⟨y, hy, hrest⟩ := h.part x hx
    exact ⟨y, List.mem_append_left _ hy, hrest⟩
  shift := h.shift

end Onward

/-! ## What the writes keep -/

/-- A shift none of whose parts changed. -/
theorem ShiftFace.Agrees.congr {s : ShiftFace} {parts parts' : List PartFace}
    (h : s.Agrees parts) (hsame : ∀ p, p.shiftId = s.id → (p ∈ parts' ↔ p ∈ parts)) :
    s.Agrees parts' := by
  have hset : deviceClosesOf parts' s.id = deviceClosesOf parts s.id := by
    ext t
    constructor
    · rintro ⟨p, hp, hid, hrest⟩
      exact ⟨p, (hsame p hid).1 hp, hid, hrest⟩
    · rintro ⟨p, hp, hid, hrest⟩
      exact ⟨p, (hsame p hid).2 hp, hid, hrest⟩
  refine { h with closed := h.closed.trans (and_congr_right fun _ => ?_), last := ?_ }
  · constructor
    · intro hall p hp hid
      exact hall p ((hsame p hid).1 hp) hid
    · intro hall p hp hid
      exact hall p ((hsame p hid).2 hp) hid
  · rw [hset]
    exact h.last

namespace Agree

variable {revision revision' : ℕ} {shifts : List ShiftFace} {parts : List PartFace}
  {shiftId : String} {g : ShiftFace → ShiftFace}

theorem mem_of_id (h : Agree revision shifts parts) {s t : ShiftFace} (hs : s ∈ shifts)
    (ht : t ∈ shifts) (hid : t.id = s.id) : t = s := h.shifts_unique.eq ht hs hid

theorem change {p : PartFace → Bool} {f : PartFace → PartFace} (h : Agree revision shifts parts)
    (hle : revision ≤ revision') (hp : ∀ x ∈ parts, p x = true → x.shiftId = shiftId)
    (hf : ∀ x ∈ parts, p x = true → (f x).key = x.key ∧ (f x).Shaped ∧
      ∀ t, (f x).token = some t → t ≤ revision')
    (hg : ∀ s ∈ shifts, s.id = shiftId → (g s).id = s.id ∧ (g s).opened = s.opened ∧
      (g s).Agrees (update p f parts)) :
    Agree revision' (update (fun s => s.id = shiftId) g shifts) (update p f parts) where
  shifts_unique := by
    rw [Table.Unique, Table.map_update_mem]
    · exact h.shifts_unique
    · intro s hs hid
      exact (hg s hs (of_decide_eq_true hid)).1
  parts_unique := by
    rw [Table.Unique, Table.map_update_mem fun x hx hpx => (hf x hx hpx).1]
    exact h.parts_unique
  agrees := by
    intro s hs
    obtain ⟨r, hr, rfl⟩ := Table.mem_update.1 hs
    by_cases hid : r.id = shiftId
    · rw [if_pos (decide_eq_true hid)]
      exact (hg r hr hid).2.2
    · rw [if_neg (by simpa using hid)]
      refine (h.agrees r hr).congr fun x hx => ?_
      constructor
      · intro hmem
        obtain ⟨y, hy, rfl⟩ := Table.mem_update.1 hmem
        by_cases hpy : p y = true
        · -- What changed is a part of the other shift.
          rw [if_pos hpy] at hx
          have hkey := congrArg Prod.fst (hf y hy hpy).1
          exact absurd (hx.symm.trans (hkey.trans (hp y hy hpy))) hid
        · rwa [if_neg hpy]
      · intro hmem
        refine mem_update_of_not hmem ?_
        rw [← Bool.not_eq_true]
        intro hpx
        exact hid (hx.symm.trans (hp x hmem hpx))
  entered := by
    have hin : ∀ x ∈ parts, ∃ s ∈ update (fun s => s.id = shiftId) g shifts,
        s.id = x.shiftId ∧ s.opened = true := by
      intro x hx
      obtain ⟨s, hs, hid, hopened⟩ := h.entered x hx
      refine ⟨_, mem_update_of_mem hs, ?_⟩
      by_cases hsid : s.id = shiftId
      · rw [if_pos (decide_eq_true hsid)]
        obtain ⟨h1, h2, -⟩ := hg s hs hsid
        exact ⟨h1.trans hid, h2.trans hopened⟩
      · rw [if_neg (by simpa using hsid)]
        exact ⟨hid, hopened⟩
    intro x hx
    obtain ⟨y, hy, rfl⟩ := Table.mem_update.1 hx
    by_cases hpy : p y = true
    · rw [if_pos hpy]
      have hkey : (f y).shiftId = y.shiftId := congrArg Prod.fst (hf y hy hpy).1
      rw [hkey]
      exact hin y hy
    · rw [if_neg hpy]
      exact hin y hy
  shaped := by
    intro x hx
    obtain ⟨y, hy, rfl⟩ := Table.mem_update.1 hx
    by_cases hpy : p y = true
    · rw [if_pos hpy]
      exact (hf y hy hpy).2.1
    · rw [if_neg hpy]
      exact h.shaped y hy
  tokens := by
    intro x hx t ht
    obtain ⟨y, hy, rfl⟩ := Table.mem_update.1 hx
    by_cases hpy : p y = true
    · rw [if_pos hpy] at ht
      exact (hf y hy hpy).2.2 t ht
    · rw [if_neg hpy] at ht
      exact le_trans (h.tokens y hy t ht) hle

/-- A part that is not closed moves between active and left. -/
theorem move {p : PartFace → Bool} {f : PartFace → PartFace} (h : Agree revision shifts parts)
    (hle : revision ≤ revision') (hp : ∀ x ∈ parts, p x = true → x.shiftId = shiftId)
    (hopen : ∀ x ∈ parts, p x = true → x.state ≠ .closed)
    (hf : ∀ x ∈ parts, p x = true → (f x).key = x.key ∧ (f x).Shaped ∧
      ∀ t, (f x).token = some t → t ≤ revision') (hfopen : ∀ x, (f x).state ≠ .closed) :
    Agree revision' shifts (update p f parts) := by
  have hshaped : ∀ x ∈ update p f parts, x.Shaped := by
    intro x hx
    obtain ⟨y, hy, rfl⟩ := Table.mem_update.1 hx
    by_cases hpy : p y = true
    · rw [if_pos hpy]
      exact (hf y hy hpy).2.1
    · rw [if_neg hpy]
      exact h.shaped y hy
  -- The closed parts are the same.
  have hclosed : ∀ x, x.state = .closed → (x ∈ update p f parts ↔ x ∈ parts) := by
    intro x hc
    constructor
    · intro hx
      obtain ⟨y, hy, rfl⟩ := Table.mem_update.1 hx
      by_cases hpy : p y = true
      · rw [if_pos hpy] at hc
        exact absurd hc (hfopen y)
      · rwa [if_neg hpy]
    · intro hx
      refine mem_update_of_not hx ?_
      rw [← Bool.not_eq_true]
      exact fun hpx => hopen x hx hpx hc
  have hagrees : ∀ s ∈ shifts, s.Agrees (update p f parts) := by
    intro s hs
    have ha := h.agrees s hs
    have hset : deviceClosesOf (update p f parts) s.id = deviceClosesOf parts s.id := by
      ext t
      constructor
      · rintro ⟨x, hx, hid, hby, hat⟩
        exact ⟨x, (hclosed x ((hshaped x hx).closedBy.1 (by simp [hby]))).1 hx, hid, hby, hat⟩
      · rintro ⟨x, hx, hid, hby, hat⟩
        exact ⟨x, (hclosed x ((h.shaped x hx).closedBy.1 (by simp [hby]))).2 hx, hid, hby, hat⟩
    refine { ha with
      closed := ha.closed.trans (and_congr_right fun _ => ⟨fun hall x hx hid => ?_,
        fun hall x hx hid => ?_⟩)
      last := by rw [hset]; exact ha.last }
    · obtain ⟨y, hy, rfl⟩ := Table.mem_update.1 hx
      by_cases hpy : p y = true
      · rw [if_pos hpy] at hid
        have hkey : (f y).shiftId = y.shiftId := congrArg Prod.fst (hf y hy hpy).1
        exact absurd (hall y hy (hkey.symm.trans hid)) (hopen y hy hpy)
      · rw [if_neg hpy] at hid ⊢
        exact hall y hy hid
    · by_cases hpx : p x = true
      · have hmem := mem_update_of_mem (p := p) (f := f) hx
        rw [if_pos hpx] at hmem
        have hkey : (f x).shiftId = x.shiftId := congrArg Prod.fst (hf x hx hpx).1
        exact absurd (hall _ hmem (hkey.trans hid)) (hfopen x)
      · exact hall x (mem_update_of_not hx (by simpa using hpx)) hid
  have hchange := h.change (g := id) hle hp hf fun s hs _ => ⟨rfl, rfl, hagrees s hs⟩
  rwa [Table.update_id] at hchange

/-- A device takes a slot of a shift that is open then. -/
theorem enter (h : Agree revision shifts parts) (hle : revision ≤ revision') {x : PartFace}
    {s : ShiftFace} (hs : s ∈ shifts) (hshift : x.shiftId = s.id)
    (hfree : ∀ p ∈ parts, p.key ≠ x.key) (hactive : x.state = .active) (hshaped : x.Shaped)
    (htoken : ∀ t, x.token = some t → t ≤ revision') (hid : (g s).id = s.id)
    (hstatus : (g s).status = .active) (hopened : (g s).opened = true ∧ (g s).hasSnapshot = true)
    (hby : (g s).closedByKind = none) :
    Agree revision' (update (fun r => r.id = s.id) g shifts) (parts ++ [x]) where
  shifts_unique := by
    rw [Table.Unique, Table.map_update_mem]
    · exact h.shifts_unique
    · intro r hr hrid
      rw [h.mem_of_id hs hr (of_decide_eq_true hrid)]
      exact hid
  parts_unique := h.parts_unique.append hfree
  agrees := by
    intro r hr
    obtain ⟨q, hq, rfl⟩ := Table.mem_update.1 hr
    by_cases hqid : q.id = s.id
    · rw [if_pos (decide_eq_true hqid), h.mem_of_id hs hq hqid]
      refine ⟨by simp [hstatus, hopened.1], hopened.2.trans hopened.1.symm, ?_, by simp [hby],
        by simp [hby]⟩
      rw [hstatus]
      refine ⟨fun hc => (by cases hc), fun hall => ?_⟩
      have := hall.2 x (by simp) (hshift.trans hid.symm)
      rw [hactive] at this
      cases this
    · rw [if_neg (by simpa using hqid)]
      refine (h.agrees q hq).congr fun y hx => ?_
      have hne : y ≠ x := by
        rintro rfl
        exact hqid (hx.symm.trans hshift)
      simp [hne]
  entered := by
    intro y hx
    rcases List.mem_append.1 hx with hx | hx
    · obtain ⟨r, hr, hrid, hro⟩ := h.entered y hx
      refine ⟨_, mem_update_of_mem hr, ?_⟩
      by_cases heq : r.id = s.id
      · rw [if_pos (decide_eq_true heq), h.mem_of_id hs hr heq]
        exact ⟨hid.trans (heq.symm.trans hrid), hopened.1⟩
      · rw [if_neg (by simpa using heq)]
        exact ⟨hrid, hro⟩
    · obtain rfl := List.mem_singleton.1 hx
      refine ⟨_, mem_update_of_mem hs, ?_⟩
      rw [if_pos (decide_eq_true rfl)]
      exact ⟨hid.trans hshift.symm, hopened.1⟩
  shaped := by
    intro y hx
    rcases List.mem_append.1 hx with hx | hx
    · exact h.shaped y hx
    · rwa [List.mem_singleton.1 hx]
  tokens := by
    intro y hx t ht
    rcases List.mem_append.1 hx with hx | hx
    · exact le_trans (h.tokens y hx t ht) hle
    · rw [List.mem_singleton.1 hx] at ht
      exact htoken t ht

theorem raise (h : Agree revision shifts parts) (hle : revision ≤ revision') :
    Agree revision' shifts parts :=
  { h with tokens := fun p hp t ht => le_trans (h.tokens p hp t ht) hle }

end Agree

/-! ## The latest close -/

theorem nanos_atSecond (d : DateTime) : d.atSecond.nanos = d.localSeconds * 1000000000 := by
  simp only [DateTime.nanos, DateTime.atSecond, DateTime.localSeconds]
  push_cast
  ring

theorem secondText_later (a b : DateTime) :
    secondText (later a.atSecond b.atSecond) = max (secondText a) (secondText b) := by
  rw [later, nanos_atSecond, nanos_atSecond]
  split
  · next h =>
    have hle : b.localSeconds ≤ a.localSeconds := by omega
    rw [max_eq_left (secondText_le.2 hle)]
    rfl
  · next h =>
    have hle : a.localSeconds ≤ b.localSeconds := by omega
    rw [max_eq_right (secondText_le.2 hle)]
    rfl

theorem latestOf_greatest {k : Crates} {closes : List String} {d latest : DateTime}
    (hcloses : ∀ t ∈ closes, ∃ d : DateTime, t = secondText d)
    (h : latestOf k d.atSecond closes = some latest) :
    latest = latest.atSecond ∧ IsGreatest {t | t = secondText d ∨ t ∈ closes} (secondText latest) := by
  induction closes generalizing d with
  | nil =>
    obtain rfl := Option.some.inj h
    exact ⟨rfl, by simp⟩
  | cons t rest ih =>
    obtain ⟨e, rfl⟩ := hcloses t (by simp)
    rw [latestOf, parseTimestamp, k.parse_secondText, Option.bind_some] at h
    have hlater : later d.atSecond e.atSecond = (later d.atSecond e.atSecond).atSecond := by
      rw [later]
      split <;> rfl
    rw [hlater] at h
    obtain ⟨hsecond, hmem, hub⟩ := ih (fun t ht => hcloses t (by simp [ht])) h
    rw [secondText_later] at hmem hub
    refine ⟨hsecond, ?_, ?_⟩
    · rcases hmem with hmem | hmem
      · rw [hmem]
        rcases max_choice (secondText d) (secondText e) with hm | hm
        · exact .inl hm
        · rw [hm]
          exact .inr (by simp)
      · exact .inr (by simp [hmem])
    · rintro t (rfl | ht)
      · exact le_trans (le_max_left _ _) (hub (.inl rfl))
      · rcases List.mem_cons.1 ht with rfl | ht
        · exact le_trans (le_max_right _ _) (hub (.inl rfl))
        · exact hub (.inr ht)

/-! ## Every change -/

section Writers

variable {k : Crates} {now : String} {db db' : Db}

theorem Db.Agree.of_eq (h : db.Agree) (hrevision : db.revision ≤ db'.revision)
    (hshifts : db'.shifts.map ShiftRow.face = db.shifts.map ShiftRow.face)
    (hparts : db'.participants.map ParticipantRow.face =
      db.participants.map ParticipantRow.face) : db'.Agree ∧ db.Onward db' := by
  rw [Db.Agree, Db.Onward, hshifts, hparts]
  exact ⟨Agree.raise h hrevision, .refl⟩

/-- The state of a participant's row, as its lookups select it. -/
def PartFace.isIn (shiftId deviceId : String) (x : PartFace) : Bool :=
  decide (x.shiftId = shiftId ∧ x.deviceId = deviceId)

def PartFace.isOpen (x : PartFace) : Bool := decide (x.state = .active ∨ x.state = .left)

theorem PartFace.isOpen_iff {x : PartFace} : x.isOpen = true ↔ x.state ≠ .closed := by
  rw [PartFace.isOpen, decide_eq_true_eq]
  cases x.state <;> simp

variable {s : ShiftRow}

theorem mem_shift {shifts : List ShiftRow} {id : String}
    (h : shifts.find? (fun x => x.id = id) = some s) :
    s.face ∈ shifts.map ShiftRow.face ∧ s.face.id = id := by
  refine ⟨List.mem_map_of_mem (List.mem_of_find?_eq_some h), ?_⟩
  have := List.find?_some h
  exact of_decide_eq_true this

theorem shaped_active (shiftId deviceId : String) (token : Option ℕ) :
    PartFace.Shaped ⟨shiftId, deviceId, .active, token, none, none, none⟩ := by
  constructor <;> simp

theorem PartFace.Shaped.open {x : PartFace} (h : x.Shaped) (hopen : x.state ≠ .closed) :
    x.closedAt = none ∧ x.closedByKind = none := by
  constructor
  · by_contra hne
    exact hopen (h.closedAt.1 hne)
  · by_contra hne
    exact hopen (h.closedBy.1 hne)

variable {f : ParticipantRow → ParticipantRow}

theorem map_parts {p : ParticipantRow → Bool}
    {q : PartFace → Bool} {h : PartFace → PartFace} (parts : List ParticipantRow)
    (hp : ∀ x : ParticipantRow, q x.face = p x) (hf : ∀ x : ParticipantRow, (f x).face = h x.face) :
    (update p f parts).map ParticipantRow.face =
      update q h (parts.map ParticipantRow.face) :=
  Table.map_update_comm hp fun x _ => hf x

theorem map_shifts {f : ShiftRow → ShiftRow} {g : ShiftFace → ShiftFace} {id : String}
    (shifts : List ShiftRow) (hf : ∀ s : ShiftRow, (f s).face = g s.face) :
    (update (fun s => s.id = id) f shifts).map ShiftRow.face =
      update (fun s => s.id = id) g (shifts.map ShiftRow.face) :=
  Table.map_update_comm (fun _ => rfl) fun s _ => hf s

theorem ShiftFace.Agrees.active {s : ShiftFace} {parts : List PartFace} (h : s.Agrees parts)
    (hactive : s.status = .active) : s.opened = true ∧ s.closedByKind = none := by
  constructor
  · by_contra hne
    have hp := h.planned.2 (by simpa using hne)
    rw [hactive] at hp
    cases hp
  · by_contra hne
    have hc := h.closedBy hne
    rw [hactive] at hc
    cases hc

/-! ### Entering and leaving -/

theorem Db.Agree.openShift {deviceId : String} {snapshot : Snapshot}
    (h : db.Agree) (hs : db.shifts.find? (fun x => x.id = s.id) = some s)
    (hnot : s.status ≠ .closed) (hfree : ∀ p ∈ db.participants, p.is s.id deviceId = false) :
    let db' : Db := { db with
      revision := db.revision + 1
      shifts := update (fun x => x.id = s.id)
        (ShiftRow.open snapshot now deviceId (db.revision + 1)) db.shifts
      participants := db.participants ++ [newParticipant s.id deviceId now (db.revision + 1)] }
    db'.Agree ∧ db.Onward db' := by
  intro db'
  obtain ⟨hmem, -⟩ := mem_shift hs
  have hshifts : db'.shifts.map ShiftRow.face = update (fun x => x.id = s.id)
      (fun x => { x with status := .active, hasSnapshot := true, opened := true })
      (db.shifts.map ShiftRow.face) := map_shifts db.shifts fun _ => rfl
  have hparts : db'.participants.map ParticipantRow.face = db.participants.map ParticipantRow.face ++
      [⟨s.id, deviceId, .active, some (db.revision + 1), none, none, none⟩] := by
    rw [List.map_append]
    rfl
  have hby : s.face.closedByKind = none := by
    by_contra hne
    exact hnot ((h.agrees _ hmem).closedBy hne)
  rw [Db.Agree, Db.Onward, hshifts, hparts]
  constructor
  · refine Agree.enter h (Nat.le_succ _) hmem rfl ?_ rfl (shaped_active _ _ _) ?_ rfl rfl
      ⟨rfl, rfl⟩ hby
    · intro p hp hkey
      obtain ⟨x, hx, rfl⟩ := List.mem_map.1 hp
      have hne := hfree x hx
      simp only [ParticipantRow.is, decide_eq_false_iff_not] at hne
      obtain ⟨h1, h2⟩ := Prod.mk.inj hkey
      exact hne ⟨h1, h2⟩
    · intro t ht
      exact le_of_eq (Option.some.inj ht).symm
  · refine Onward.append (Onward.of_shifts (fun _ _ _ => rfl) ?_)
    intro r hr hrid
    rw [Agree.mem_of_id h hmem hr (of_decide_eq_true hrid)]
    exact hnot

theorem Db.Agree.join {deviceId : String} (h : db.Agree)
    (hs : db.shifts.find? (fun x => x.id = s.id) = some s) (hactive : s.status = .active)
    (hfree : ∀ p ∈ db.participants, p.is s.id deviceId = false) :
    let db' : Db := { db with
      revision := db.revision + 1
      participants := db.participants ++ [newParticipant s.id deviceId now (db.revision + 1)] }
    db'.Agree ∧ db.Onward db' := by
  intro db'
  obtain ⟨hmem, -⟩ := mem_shift hs
  have ha := h.agrees _ hmem
  obtain ⟨hopened, hby⟩ := ha.active hactive
  have hparts : db'.participants.map ParticipantRow.face = db.participants.map ParticipantRow.face ++
      [⟨s.id, deviceId, .active, some (db.revision + 1), none, none, none⟩] := by
    rw [List.map_append]
    rfl
  rw [Db.Agree, Db.Onward, hparts]
  refine ⟨?_, Onward.append .refl⟩
  have henter := Agree.enter (g := id) h (Nat.le_succ _) hmem
    (x := ⟨s.id, deviceId, .active, some (db.revision + 1), none, none, none⟩) rfl ?_ rfl
    (shaped_active _ _ _) ?_ rfl hactive ⟨hopened, ha.snapshot.trans hopened⟩ hby
  · rwa [Table.update_id] at henter
  · intro p hp hkey
    obtain ⟨x, hx, rfl⟩ := List.mem_map.1 hp
    have hne := hfree x hx
    simp only [ParticipantRow.is, decide_eq_false_iff_not] at hne
    obtain ⟨h1, h2⟩ := Prod.mk.inj hkey
    exact hne ⟨h1, h2⟩
  · intro t ht
    exact le_of_eq (Option.some.inj ht).symm

theorem Db.Agree.moved {shiftId deviceId : String} {state : ParticipantState}
    {g : PartFace → PartFace} {revision : ℕ} (h : db.Agree)
    (hle : db.revision ≤ revision) (hstate : state ≠ .closed)
    (hfg : ∀ x : ParticipantRow, (f x).face = g x.face)
    (hg : ∀ x : PartFace, (g x).key = x.key ∧ (g x).state ≠ .closed ∧
      (x.closedAt = none ∧ x.closedByKind = none → (g x).Shaped) ∧
      ((g x).token = x.token ∨ (g x).token = some revision)) :
    let db' : Db := { db with
      revision
      participants := update (fun p => p.is shiftId deviceId && decide (p.state = state)) f
        db.participants }
    db'.Agree ∧ db.Onward db' := by
  intro db'
  have hparts : db'.participants.map ParticipantRow.face = update
      (fun x => x.isIn shiftId deviceId && decide (x.state = state)) g
      (db.participants.map ParticipantRow.face) :=
    map_parts db.participants (fun _ => rfl) hfg
  have hopen : ∀ x : PartFace, (x.isIn shiftId deviceId && decide (x.state = state)) = true →
      x.shiftId = shiftId ∧ x.state ≠ .closed := by
    intro x hx
    simp only [Bool.and_eq_true, PartFace.isIn, decide_eq_true_eq] at hx
    exact ⟨hx.1.1, hx.2 ▸ hstate⟩
  rw [Db.Agree, Db.Onward, hparts]
  constructor
  · refine Agree.move h hle (fun x _ hx => (hopen x hx).1) (fun x _ hx => (hopen x hx).2) ?_
      fun x => (hg x).2.1
    intro x hx hpx
    obtain ⟨hkey, -, hshaped, htoken⟩ := hg x
    refine ⟨hkey, hshaped ((h.shaped x hx).open (hopen x hpx).2), fun t ht => ?_⟩
    rcases htoken with htoken | htoken
    · rw [htoken] at ht
      exact le_trans (h.tokens x hx t ht) hle
    · rw [htoken] at ht
      exact le_of_eq (Option.some.inj ht).symm
  · refine Onward.of_parts (fun x => (hg x).1) ?_ fun x _ hx => (hopen x hx).2
    intro x hx _ t ht
    rcases (hg x).2.2.2 with htoken | htoken
    · exact ⟨t, htoken.trans ht, le_rfl⟩
    · exact ⟨revision, htoken, le_trans (h.tokens x hx t ht) hle⟩

/-! ### Closing -/

def PartFace.close (closedAt : String) (by_ : ClosedBy) (x : PartFace) : PartFace :=
  { x with
    state := .closed, leftAt := none, closedAt := some closedAt, closedByKind := some by_ }

theorem Db.Agree.closed {shiftId : String} {p : ParticipantRow → Bool} {q : PartFace → Bool}
    {t : String} {b : ClosedBy}
    {g : ShiftRow → ShiftRow} {m : ShiftFace → ShiftFace} (h : db.Agree)
    (hs : db.shifts.find? (fun x => x.id = shiftId) = some s) (hactive : s.status = .active)
    (hpq : ∀ x : ParticipantRow, q x.face = p x)
    (hf : ∀ x : ParticipantRow, (f x).face = x.face.close t b)
    (hq : ∀ x : PartFace, q x = true → x.shiftId = shiftId ∧ x.state ≠ .closed)
    (hinstant : b = .device → ∃ d : DateTime, t = secondText d)
    (hg : ∀ x : ShiftRow, (g x).face = m x.face)
    (hshift : (m s.face).id = s.id ∧ (m s.face).opened = s.face.opened ∧
      ((∀ x ∈ update q (PartFace.close t b)
        (db.participants.map ParticipantRow.face), x.Shaped) →
      (m s.face).Agrees (update q (PartFace.close t b)
        (db.participants.map ParticipantRow.face)))) :
    let db' : Db := { db with
      participants := update p f db.participants
      shifts := update (fun x => x.id = shiftId) g db.shifts }
    db'.Agree ∧ db.Onward db' := by
  intro db'
  obtain ⟨hmem, hsid⟩ := mem_shift hs
  have hparts : db'.participants.map ParticipantRow.face =
      update q (PartFace.close t b) (db.participants.map ParticipantRow.face) :=
    map_parts db.participants hpq hf
  have hshifts : db'.shifts.map ShiftRow.face = update (fun x => x.id = shiftId) m
      (db.shifts.map ShiftRow.face) := map_shifts db.shifts hg
  have hshaped : ∀ x : PartFace, (x.close t b).Shaped := by
    intro x
    refine ⟨by simp [PartFace.close], by simp [PartFace.close], by simp [PartFace.close],
      fun hby => ?_⟩
    obtain ⟨d, hd⟩ := hinstant (Option.some.inj hby)
    exact ⟨d, congrArg some hd⟩
  have hall : ∀ x ∈ update q (PartFace.close t b)
      (db.participants.map ParticipantRow.face), x.Shaped := by
    intro x hx
    obtain ⟨y, hy, rfl⟩ := Table.mem_update.1 hx
    split
    · exact hshaped y
    · exact h.shaped y hy
  have honly : ∀ r ∈ db.shifts.map ShiftRow.face, r.id = shiftId → r = s.face := fun r hr hrid =>
    Agree.mem_of_id h hmem hr (hrid.trans hsid.symm)
  rw [Db.Agree, Db.Onward, hparts, hshifts]
  constructor
  · refine Agree.change h le_rfl (fun x _ hx => (hq x hx).1) ?_ ?_
    · intro x hx _
      exact ⟨rfl, hshaped x, fun _ ht => h.tokens x hx _ ht⟩
    · intro r hr hrid
      rw [honly r hr hrid]
      exact ⟨hshift.1, hshift.2.1, hshift.2.2 hall⟩
  · refine Onward.trans (Onward.of_parts (f := PartFace.close t b) (fun _ => rfl)
      (fun x _ _ _ ht => ⟨_, ht, le_rfl⟩) fun x _ hx => (hq x hx).2) (Onward.of_shifts ?_ ?_)
    · intro r hr hrid
      rw [honly r hr (of_decide_eq_true hrid)]
      exact hshift.1
    · intro r hr hrid
      rw [honly r hr (of_decide_eq_true hrid)]
      show s.status ≠ .closed
      rw [hactive]
      exact nofun

variable {ctx : Context}

theorem Context.Entered.shift_row (h : ctx.Entered db) (hactive : ctx.shift.status = .active) :
    ∃ s, db.shifts.find? (fun x => x.id = ctx.shift.id) = some s ∧ s.status = .active := by
  obtain ⟨s, snapshot, hs, -, heq⟩ := h.shift
  refine ⟨s, hs, ?_⟩
  rw [heq] at hactive
  exact hactive

def Context.owns (ctx : Context) (x : PartFace) : Bool :=
  x.isIn ctx.shift.id ctx.deviceId && x.isOpen

theorem Context.owns_open {x : PartFace} (h : ctx.owns x = true) :
    x.shiftId = ctx.shift.id ∧ x.state ≠ .closed := by
  simp only [Context.owns, Bool.and_eq_true, PartFace.isIn, decide_eq_true_eq] at h
  exact ⟨h.1.1, PartFace.isOpen_iff.1 h.2⟩

theorem Context.Closes.whole_second {c : CloseShift} (h : ctx.Closes k c db) :
    ∃ d : DateTime, c.closedAt = secondText d := by
  obtain ⟨moment, hoffset, hat⟩ := h.instant
  exact ⟨moment, hat.trans (k.format_utc moment hoffset)⟩

theorem Db.Agree.closePart {c : CloseShift} (h : db.Agree) (he : ctx.Entered db)
    (hc : ctx.Closes k c db) (hlast : c.closesShift = false) :
    let db' : Db := { db with participants := ctx.closeOwn c db.participants }
    db'.Agree ∧ db.Onward db' := by
  intro db'
  obtain ⟨s, hs, hactive⟩ := he.shift_row hc.active
  obtain ⟨hmem, hsid⟩ := mem_shift hs
  have ha := h.agrees _ hmem
  have hby : s.face.closedByKind = none := (ha.active hactive).2
  -- Somebody else's part is open, and stays so.
  have hother : ∃ x ∈ db.participants.map ParticipantRow.face, x.shiftId = s.id ∧
      ctx.owns x = false ∧ x.state ≠ .closed := by
    have hne : db.openOthers ctx.shift.id ctx.deviceId ≠ 0 := by
      intro hz
      rw [hc.last.2 hz] at hlast
      cases hlast
    obtain ⟨x, hx, hox⟩ := List.countP_pos_iff.1 (Nat.pos_of_ne_zero hne)
    obtain ⟨h1, h2, h3⟩ := of_decide_eq_true hox
    refine ⟨x.face, List.mem_map_of_mem hx, h1.trans hsid.symm, ?_, PartFace.isOpen_iff.1 h3⟩
    have hin : x.face.isIn ctx.shift.id ctx.deviceId = false :=
      decide_eq_false fun hin => h2 hin.2
    rw [Context.owns, hin, Bool.false_and]
  have hclosed := h.closed (g := id) (m := id) (q := ctx.owns) (f := ParticipantRow.closedByDevice c)
    (b := .device) (t := c.closedAt)
    (p := fun p => p.is ctx.shift.id ctx.deviceId && p.isOpen) hs hactive (fun _ => rfl)
    (fun _ => rfl) (fun _ hx => Context.owns_open hx) (fun _ => hc.whole_second) (fun _ => rfl) ?_
  · rw [Table.update_id] at hclosed
    exact hclosed
  · refine ⟨rfl, rfl, fun hshaped => ⟨ha.planned, ha.snapshot, ?_, ha.closedBy, ?_⟩⟩
    · have hactive' : s.face.status = .active := hactive
      rw [id, hactive']
      refine ⟨fun hc => (by cases hc), fun ⟨_, hall⟩ => ?_⟩
      obtain ⟨x, hx, hid, hown, hopen⟩ := hother
      exact absurd (hall x (mem_update_of_not hx hown) hid) hopen
    · rw [id, hby]
      exact nofun

theorem mem_deviceCloses {shiftId t : String} : t ∈ db.deviceCloses shiftId ↔
      t ∈ deviceClosesOf (db.participants.map ParticipantRow.face) shiftId := by
  simp only [Db.deviceCloses, List.mem_filterMap, List.mem_filter, decide_eq_true_eq]
  constructor
  · rintro ⟨x, ⟨hx, hid, hby⟩, hat⟩
    exact ⟨x.face, List.mem_map_of_mem hx, hid, hby, hat⟩
  · rintro ⟨x, hx, hid, hby, hat⟩
    obtain ⟨y, hy, rfl⟩ := List.mem_map.1 hx
    exact ⟨y, ⟨hy, hid, hby⟩, hat⟩

theorem Db.Agree.closeLast {c : CloseShift} {rev : ℕ} {first latest : DateTime}
    (h : db.Agree) (he : ctx.Entered db) (hc : ctx.Closes k c db) (hlast : c.closesShift = true)
    (hfirst : parseTimestamp k c.closedAt = some first)
    (hlatest : latestOf k first (Db.deviceCloses ctx.shift.id
      { db with participants := ctx.closeOwn c db.participants }) = some latest) :
    let db' : Db := { db with
      participants := ctx.closeOwn c db.participants
      shifts := update (fun s => s.id = ctx.shift.id)
        (ShiftRow.closeByDevice c ctx.deviceId (formatTimestamp k latest) rev) db.shifts }
    db'.Agree ∧ db.Onward db' := by
  intro db'
  obtain ⟨s, hs, hactive⟩ := he.shift_row hc.active
  obtain ⟨hmem, hsid⟩ := mem_shift hs
  have ha := h.agrees _ hmem
  have hopened : s.face.opened = true := (ha.active hactive).1
  obtain ⟨d, hd⟩ := hc.whole_second
  have hparts : (ctx.closeOwn c db.participants).map ParticipantRow.face =
      update ctx.owns (PartFace.close c.closedAt .device)
        (db.participants.map ParticipantRow.face) :=
    map_parts db.participants (fun _ => rfl) fun _ => rfl
  -- The own part is among the closes.
  have hown : c.closedAt ∈ deviceClosesOf (update ctx.owns
      (PartFace.close c.closedAt .device) (db.participants.map ParticipantRow.face))
      ctx.shift.id := by
    obtain ⟨x, hx, hstate⟩ := he.participant
    have hin := List.find?_some hx
    have howns : ctx.owns x.face = true := by
      rw [Context.owns, Bool.and_eq_true]
      refine ⟨hin, PartFace.isOpen_iff.2 ?_⟩
      show x.state ≠ .closed
      rw [hstate]
      exact hc.isOpen
    have hup := mem_update_of_mem (p := ctx.owns) (f := PartFace.close c.closedAt .device)
      (List.mem_map_of_mem (f := ParticipantRow.face) (List.mem_of_find?_eq_some hx))
    rw [if_pos howns] at hup
    exact ⟨_, hup, (Context.owns_open howns).1, rfl, rfl⟩
  refine h.closed (m := fun x => { x with
      status := .closed, closedAt := some (formatTimestamp k latest), closedByKind := some .device })
    (q := ctx.owns) (b := .device) hs hactive (fun _ => rfl) (fun _ => rfl)
    (fun _ hx => Context.owns_open hx) (fun _ => ⟨d, hd⟩) (fun _ => rfl)
    ⟨rfl, rfl, fun hshaped => ⟨?_, ha.snapshot, ?_, fun _ => rfl, fun _ => ⟨_, rfl, ?_⟩⟩⟩
  · show ShiftStatus.closed = .planned ↔ s.face.opened = false
    rw [hopened]
    exact ⟨nofun, nofun⟩
  · refine iff_of_true rfl ⟨hopened, fun x hx hid => ?_⟩
    obtain ⟨y, hy, rfl⟩ := Table.mem_update.1 hx
    by_cases hy' : ctx.owns y = true
    · rw [if_pos hy']
      rfl
    rw [if_neg hy'] at hid ⊢
    by_contra hopen
    apply hy'
    obtain ⟨z, hz, rfl⟩ := List.mem_map.1 hy
    have hzero := List.countP_eq_zero.1 (hc.last.1 hlast) z hz
    rw [Context.owns, Bool.and_eq_true]
    refine ⟨decide_eq_true ⟨hid.trans hsid, ?_⟩, PartFace.isOpen_iff.2 hopen⟩
    by_contra hdevice
    exact hzero (decide_eq_true ⟨hid.trans hsid, hdevice, PartFace.isOpen_iff.2 hopen⟩)
  · rw [hd, parseTimestamp, k.parse_secondText] at hfirst
    obtain rfl := Option.some.inj hfirst
    have hinstants : ∀ t ∈ Db.deviceCloses ctx.shift.id
        { db with participants := ctx.closeOwn c db.participants },
        ∃ d : DateTime, t = secondText d := by
      intro t ht
      obtain ⟨x, hx, -, hby, hat⟩ := mem_deviceCloses.1 ht
      rw [hparts] at hx
      obtain ⟨e, he⟩ := (hshaped x hx).instant hby
      exact ⟨e, Option.some.inj (hat.symm.trans he)⟩
    obtain ⟨hsecond, hmax, hub⟩ := latestOf_greatest hinstants hlatest
    have hformat : formatTimestamp k latest = secondText latest := by
      refine k.format_utc latest ?_
      rw [hsecond]
      rfl
    have hcloses : ∀ t, t ∈ Db.deviceCloses ctx.shift.id
        { db with participants := ctx.closeOwn c db.participants } ↔
        t ∈ deviceClosesOf (update ctx.owns (PartFace.close c.closedAt .device)
          (db.participants.map ParticipantRow.face)) s.id := by
      intro t
      rw [mem_deviceCloses, hparts, ← hsid]
      rfl
    rw [hformat]
    constructor
    · rcases hmax with hmax | hmax
      · rw [hmax, ← hd]
        show _ ∈ deviceClosesOf _ s.face.id
        rw [hsid]
        exact hown
      · exact (hcloses _).1 hmax
    · intro t ht
      exact hub (.inr ((hcloses t).2 ht))

theorem Db.Agree.closeByOffice {userId reason : String} {rev : ℕ} (h : db.Agree)
    (hs : db.shifts.find? (fun x => x.id = s.id) = some s) (hactive : s.status = .active) :
    let db' : Db := { db.closeOpenByOffice s.id now with
      shifts := update (fun x => x.id = s.id)
        (ShiftRow.closeByOffice now userId reason rev) db.shifts }
    db'.Agree ∧ db.Onward db' := by
  intro db'
  obtain ⟨hmem, -⟩ := mem_shift hs
  have ha := h.agrees _ hmem
  have hopened : s.face.opened = true := (ha.active hactive).1
  refine h.closed (m := fun x => { x with
      status := .closed, closedAt := some now, closedByKind := some .officeUser })
    (q := fun x => decide (x.shiftId = s.id ∧ x.isOpen)) (b := .officeUser) hs hactive
    (fun _ => rfl) (fun _ => rfl) ?_ nofun (fun _ => rfl)
    ⟨rfl, rfl, fun _ => ⟨?_, ha.snapshot, ?_, fun _ => rfl, nofun⟩⟩
  · intro x hx
    obtain ⟨h1, h2⟩ := of_decide_eq_true hx
    exact ⟨h1, PartFace.isOpen_iff.1 h2⟩
  · show ShiftStatus.closed = .planned ↔ s.face.opened = false
    rw [hopened]
    exact ⟨nofun, nofun⟩
  · refine iff_of_true rfl ⟨hopened, fun x hx hid => ?_⟩
    obtain ⟨y, hy, rfl⟩ := Table.mem_update.1 hx
    by_cases hy' : decide (y.shiftId = s.id ∧ y.isOpen) = true
    · rw [if_pos hy']
      rfl
    rw [if_neg hy'] at hid ⊢
    by_contra hopen
    exact hy' (decide_eq_true ⟨hid, PartFace.isOpen_iff.2 hopen⟩)

/-! ### All of them -/

/-- **Every change keeps shifts and participants in agreement, and goes onward.** -/
theorem Written.agree (h : Written k now db db') (hi : db.Agree) : db'.Agree ∧ db.Onward db' := by
  cases h with
  | aside hle => exact hi.of_eq hle rfl rfl
  | openShift s deviceId snapshot hs hnot _ hfree => exact hi.openShift hs hnot hfree
  | join s deviceId hs hactive hfree => exact hi.join hs hactive hfree
  | rejoin shiftId deviceId =>
    refine hi.moved (g := fun x => { x with
      state := .active, leftAt := none, token := some (db.revision + 1) }) (Nat.le_succ _) nofun
      (fun _ => rfl) fun x => ⟨rfl, nofun, ?_, .inr rfl⟩
    rintro ⟨hat, hby⟩
    constructor <;> simp [hat, hby]
  | leave shiftId deviceId =>
    refine hi.moved (g := fun x => { x with state := .left, leftAt := some now }) le_rfl nofun
      (fun _ => rfl) fun x => ⟨rfl, nofun, ?_, .inl rfl⟩
    rintro ⟨hat, hby⟩
    constructor <;> simp [hat, hby]
  | closePart ctx c he hc hlast => exact hi.closePart he hc hlast
  | closeLast ctx c rev first latest he hc hlast hfirst hlatest =>
    exact hi.closeLast he hc hlast hfirst hlatest
  | closeByOffice s userId reason rev hs hactive => exact hi.closeByOffice hs hactive
  | markShift p f hf =>
    refine hi.of_eq le_rfl (Table.map_update fun s _ => ?_) rfl
    rw [hf s]
    rfl
  | markPart p f hf =>
    refine hi.of_eq le_rfl rfl (Table.map_update fun x _ => ?_)
    rw [hf x]
    rfl
  | closePallet =>
    rw [Db.closePallet]
    split <;> exact ⟨hi, .refl⟩
  | _ => exact ⟨hi, .refl⟩

theorem Change.agree (h : Change k now db db') (hi : db.Agree) : db'.Agree ∧ db.Onward db' := by
  cases h with
  | scanned h => cases h <;> exact ⟨hi, .refl⟩
  | written h => exact h.agree hi
  | filed h => cases h <;> exact ⟨hi, .refl⟩

end Writers

/-! ## Every run -/

section Runs

variable {k : Crates} {env : Env} {db : Db}

theorem run_agree (hi : db.Agree) (calls : List Call) :
    (run k db calls).Agree ∧ db.Onward (run k db calls) := by
  refine run_invariant (P := fun db' => db'.Agree ∧ db.Onward db') ?_ ⟨hi, .refl⟩ calls
  intro now d d' hc hp
  obtain ⟨ha, ho⟩ := hc.agree hp.1
  exact ⟨ha, hp.2.trans ho⟩

variable {deviceId shiftId : String}

/-- A leave of a stay that is over changes nothing. -/
theorem step_leave_stale {token : ℕ}
    (hstale : ∀ p, db.participant shiftId deviceId = some p → p.joinedRev ≠ some token) :
    step k db ⟨env, .leaveShift deviceId shiftId (some token)⟩ = db := by
  unfold step serve
  cases h : handle k env (.leaveShift deviceId shiftId (some token)) (Batch.begin db) with
  | refused => rfl
  | failed => rfl
  | done answer b =>
    simp only [handle, leaveShift, bind_done, select_done, orFail_done, onlyIf_done, pure_done] at h
    obtain ⟨_, _, ⟨_, t, hk, _, _, ⟨rfl, rfl⟩, s, _, ⟨-, rfl⟩, _, _, ⟨rfl, rfl⟩, p, _, ⟨hp, rfl⟩, h⟩,
      -, rfl⟩ := h
    obtain rfl := requireKinds_done hk
    rcases h with ⟨⟨hfresh, -⟩, -⟩ | ⟨-, rfl⟩
    · simp only [ParticipantRow.stale, decide_eq_false_iff_not] at hfresh
      exact absurd (hstale p hp) hfresh
    · rfl

theorem decideEntry_rejoin {current : Option ParticipantState} {activeOthers maxStations : ℕ}
    {multi : Bool} (h : decideEntry current activeOthers maxStations multi = .rejoin) :
    current = some .left := by
  unfold decideEntry at h
  split at h <;> try split at h
  all_goals first | rfl | cases h | skip
  all_goals split at h <;> cases h

theorem joinShift_rejoined {deviceId : String} {s : ShiftRow} {e : Entered} {p : ParticipantRow}
    {b b' : Batch} (hp : b.db.participant s.id deviceId = some p) (hleft : p.state = .left)
    (h : joinShift k env deviceId s true b = .done e b') :
    b'.db.participant s.id deviceId =
      some (p.rejoined (env.timestamp k) (b.db.revision + 1)) := by
  simp only [joinShift, takeSlot, rejoin, if_true, bind_done, nextRevision_done, execute_done,
    record_done, pure_done] at h
  obtain ⟨_, _, ⟨rfl, rfl⟩, _, t, ht, _, _, rfl, _, _, rfl, -, rfl⟩ := h
  have hparts : t.db.participants = update
      (fun p => p.is s.id deviceId && decide (p.state = .left))
      (ParticipantRow.rejoined (env.timestamp k) (b.db.revision + 1)) b.db.participants :=
    congrArg Db.participants (updateParticipant_done ht)
  show List.find? _ t.db.participants = _
  rw [hparts, Table.find?_update (by intros; rfl)]
  unfold Db.participant at hp
  have hin := List.find?_some hp
  simp only [hp, Option.map_some, hin, hleft, decide_true, Bool.and_self, if_true]

/-- A rejoin makes the device active under a token of its own. -/
theorem enterShift_rejoined {supports : List String} {b b' : Batch}
    (h : enterShift k env deviceId shiftId supports b = .done .rejoined b') :
    ∃ p, b'.db.participant shiftId deviceId = some p ∧ p.state = .active ∧
      p.joinedRev = some (b.db.revision + 1) := by
  simp only [enterShift, bind_done, assert_done, select_done, orFail_done, forSome_done, fail_done,
    and_false, exists_false, false_or] at h
  obtain ⟨_, _, ⟨-, rfl⟩, kind, t, hk, _, _, ⟨rfl, rfl⟩, s, _, ⟨hs, rfl⟩, _, _, ⟨-, rfl⟩, line, _,
    ⟨-, rfl⟩, _, _, ⟨hclosed, rfl⟩, _, _, ⟨-, rfl⟩, device, _, ⟨-, rfl⟩, _, _, ⟨-, rfl⟩, decision, _,
    ⟨hd, rfl⟩, _, _, ⟨-, rfl⟩, _, _, ⟨-, rfl⟩, h⟩ := h
  obtain rfl := requireKinds_done hk
  obtain rfl : s.id = shiftId := by simpa using List.find?_some hs
  cases hsnap : s.snapshot with
  | none =>
    simp only [hsnap, openShift, bind_done, pure_done] at h
    obtain ⟨_, _, -, _, _, -, _, _, -, _, _, -, _, _, -, _, _, -, _, _, -, _, _, -, _, _, -, hr, -⟩ := h
    cases hr
  | some snapshot =>
    simp only [hsnap] at h
    unfold enterOpen at h
    rcases decision with _ | decision
    · simp at h
    cases decision with
    | reenter =>
      simp only [bind_done, pure_done] at h
      obtain ⟨_, _, -, hr, -⟩ := h
      cases hr
    | readClosed => cases (pure_done.1 h).1
    | join =>
      simp only [joinShift, bind_done, pure_done] at h
      obtain ⟨_, _, -, _, _, -, _, _, -, _, _, -, hr, -⟩ := h
      cases hr
    | rejoin =>
      have hleft : (t.db.participant s.id deviceId).map (·.state) = some .left := by
        unfold Db.entryDecision at hd
        split at hd
        · cases hd
        · exact decideEntry_rejoin (Option.some.inj hd)
      obtain ⟨p, hp, hstate⟩ := Option.map_eq_some_iff.1 hleft
      exact ⟨_, joinShift_rejoined hp hstate h, rfl, rfl⟩
    | busy | lineFull => simp at h

theorem step_rejoined {supports : List String}
    (h : (serve k ⟨env, .enterShift deviceId shiftId supports⟩ db).1 = .ok (.entered .rejoined)) :
    ∃ p, (step k db ⟨env, .enterShift deviceId shiftId supports⟩).participant shiftId deviceId =
      some p ∧ p.state = .active ∧ p.joinedRev = some (db.revision + 1) := by
  unfold step
  unfold serve at h ⊢
  cases hh : handle k env (.enterShift deviceId shiftId supports) (Batch.begin db) with
  | refused => simp [hh] at h
  | failed => simp [hh] at h
  | done answer b =>
    simp only [hh, Except.ok.injEq] at h ⊢
    simp only [handle, bind_done, pure_done] at hh
    obtain ⟨e, b', he, rfl, rfl⟩ := hh
    obtain rfl := Answer.entered.inj h
    exact enterShift_rejoined he

/-- A shift nobody opened yet. -/
structure ShiftRow.IsPlanned (s : ShiftRow) : Prop where
  status : s.status = .planned
  snapshot : s.snapshot = none
  openedAt : s.openedAt = none
  closedByKind : s.closedByKind = none

theorem Db.Agree.start (hids : Unique (·.id) db.shifts) (hplanned : ∀ s ∈ db.shifts, s.IsPlanned) :
    Db.Agree { db with participants := [] } where
  shifts_unique := by
    show ((db.shifts.map ShiftRow.face).map ShiftFace.id).Nodup
    rw [List.map_map]
    exact hids
  parts_unique := List.nodup_nil
  agrees := by
    intro s hs
    obtain ⟨x, hx, rfl⟩ := List.mem_map.1 hs
    obtain ⟨hstatus, hsnapshot, hopened, hby⟩ := hplanned x hx
    constructor <;> simp [ShiftRow.face, hstatus, hsnapshot, hopened, hby]
  entered := nofun
  shaped := nofun
  tokens := nofun

/-- The row of a participant that is still there later: its token did not go back. -/
theorem Db.Agree.participant_onward {db' : Db} {shiftId deviceId : String} {p : ParticipantRow}
    {token : ℕ} (h : db'.Agree) (ho : db.Onward db') (hp : db.participant shiftId deviceId = some p)
    (htoken : p.joinedRev = some token) :
    ∃ q t, db'.participant shiftId deviceId = some q ∧ q.joinedRev = some t ∧ token ≤ t ∧
      t ≤ db'.revision := by
  have hin : p.shiftId = shiftId ∧ p.deviceId = deviceId := by
    simpa [ParticipantRow.is] using List.find?_some hp
  obtain ⟨y, hy, hkey, hgrows, -⟩ :=
    ho.part p.face (List.mem_map_of_mem (List.mem_of_find?_eq_some hp))
  obtain ⟨t, ht, hle⟩ := hgrows token htoken
  obtain ⟨q, hq, rfl⟩ := List.mem_map.1 hy
  refine ⟨q, t, ?_, ht, hle, h.tokens q.face hy t ht⟩
  obtain ⟨h1, h2⟩ := Prod.mk.inj hkey
  have hunique : Unique (fun p : ParticipantRow => (p.shiftId, p.deviceId)) db'.participants := by
    have := h.parts_unique
    rw [Table.Unique, List.map_map] at this
    exact this
  have hfind := hunique.find? hq
  have hsame : ParticipantRow.is shiftId deviceId =
      fun x : ParticipantRow => decide ((x.shiftId, x.deviceId) = (q.shiftId, q.deviceId)) := by
    funext x
    rw [ParticipantRow.is, show q.shiftId = shiftId from h1.trans hin.1,
      show q.deviceId = deviceId from h2.trans hin.2]
    simp
  rw [Db.participant, hsame]
  exact hfind

/-- **A shift follows its parts.** From planned shifts nobody entered, after every run of requests:
a shift is closed exactly when it was opened and all its parts are closed; a part's columns are those
of its state; a shift that a device closed was closed at the latest of its device-closed parts; what
is closed stays as it is; and a leave that names another token than the row's changes nothing, so the
leave of a stay before a rejoin never ends the stay after it. -/
theorem shift_follows_its_parts (k : Crates) (db : Db) (calls : List Call)
    (hids : Unique (·.id) db.shifts) (hplanned : ∀ s ∈ db.shifts, s.IsPlanned) :
    let now := run k { db with participants := [] } calls
    Unique (·.id) now.shifts ∧ Unique (fun p => (p.shiftId, p.deviceId)) now.participants ∧
    (∀ s ∈ now.shifts, s.status = .closed ↔
      s.openedAt ≠ none ∧ ∀ p ∈ now.participants, p.shiftId = s.id → p.state = .closed) ∧
    (∀ p ∈ now.participants, (p.leftAt ≠ none ↔ p.state = .left) ∧
      (p.closedAt ≠ none ↔ p.state = .closed) ∧ (p.closedByKind ≠ none ↔ p.state = .closed)) ∧
    (∀ s ∈ now.shifts, s.closedByKind = some .device → ∃ t, s.closedAt = some t ∧
      IsGreatest {t | ∃ p ∈ now.participants, p.shiftId = s.id ∧ p.closedByKind = some .device ∧
        p.closedAt = some t} t) ∧
    (∀ more, ∀ p ∈ now.participants, p.state = .closed →
      ∃ q ∈ (run k now more).participants, q.shiftId = p.shiftId ∧ q.deviceId = p.deviceId ∧
        q.state = .closed ∧ q.closedAt = p.closedAt ∧ q.closedByKind = p.closedByKind) ∧
    (∀ more, ∀ s ∈ now.shifts, s.status = .closed →
      ∃ r ∈ (run k now more).shifts, r.id = s.id ∧ r.status = .closed ∧ r.closedAt = s.closedAt) ∧
    (∀ env shiftId deviceId token,
      (∀ p, now.participant shiftId deviceId = some p → p.joinedRev ≠ some token) →
      step k now ⟨env, .leaveShift deviceId shiftId (some token)⟩ = now) ∧
    ∀ mid later env env' shiftId deviceId supports p token,
      now.participant shiftId deviceId = some p → p.joinedRev = some token →
      (serve k ⟨env, .enterShift deviceId shiftId supports⟩ (run k now mid)).1 =
        .ok (.entered .rejoined) →
      let rejoined := step k (run k now mid) ⟨env, .enterShift deviceId shiftId supports⟩
      (∃ q, rejoined.participant shiftId deviceId = some q ∧ q.state = .active) ∧
        step k (run k rejoined later) ⟨env', .leaveShift deviceId shiftId (some token)⟩ =
          run k rejoined later := by
  intro now
  have hi : now.Agree := (run_agree (Db.Agree.start hids hplanned) calls).1
  refine ⟨?_, ?_, ?_, ?_, ?_, ?_, ?_, ?_, ?_⟩
  · have := hi.shifts_unique
    rw [Table.Unique, List.map_map] at this
    exact this
  · have := hi.parts_unique
    rw [Table.Unique, List.map_map] at this
    exact this
  · intro s hs
    refine (hi.agrees _ (List.mem_map_of_mem hs)).closed.trans (and_congr ?_ ?_)
    · exact Option.isSome_iff_ne_none
    · rw [List.forall_mem_map]
      rfl
  · intro p hp
    have hshaped := hi.shaped _ (List.mem_map_of_mem hp)
    exact ⟨hshaped.leftAt, hshaped.closedAt, hshaped.closedBy⟩
  · intro s hs hby
    obtain ⟨t, hat, hmem, hub⟩ := (hi.agrees _ (List.mem_map_of_mem hs)).last hby
    refine ⟨t, hat, ?_, ?_⟩
    · obtain ⟨x, hx, hrest⟩ := hmem
      obtain ⟨p, hp, rfl⟩ := List.mem_map.1 hx
      exact ⟨p, hp, hrest⟩
    · rintro u ⟨p, hp, hrest⟩
      exact hub ⟨p.face, List.mem_map_of_mem hp, hrest⟩
  · intro more p hp hclosed
    obtain ⟨x, hx, hkey, -, hstays⟩ :=
      (run_agree hi more).2.part p.face (List.mem_map_of_mem hp)
    obtain ⟨q, hq, rfl⟩ := List.mem_map.1 hx
    obtain ⟨h1, h2⟩ := Prod.mk.inj hkey
    exact ⟨q, hq, h1, h2, hstays hclosed⟩
  · intro more s hs hclosed
    obtain ⟨x, hx, hid, hstays⟩ := (run_agree hi more).2.shift s.face (List.mem_map_of_mem hs)
    obtain ⟨r, hr, rfl⟩ := List.mem_map.1 hx
    exact ⟨r, hr, hid, hstays hclosed⟩
  · intro env shiftId deviceId token hstale
    exact step_leave_stale hstale
  · intro mid later env env' shiftId deviceId supports p token hp htoken hrejoined rejoined
    obtain ⟨hmid, hmid'⟩ := run_agree (k := k) hi mid
    obtain ⟨q, t, hq, hqt, hle, hrev⟩ := hmid.participant_onward hmid' hp htoken
    -- The rejoin's token is above every token the row had.
    obtain ⟨r, hr, hactive, hrt⟩ := step_rejoined hrejoined
    refine ⟨⟨r, hr, hactive⟩, step_leave_stale fun x hx hxt => ?_⟩
    have hafter := run_agree (k := k) hmid [⟨env, .enterShift deviceId shiftId supports⟩]
    obtain ⟨hlater, hlater'⟩ := run_agree (k := k) hafter.1 later
    obtain ⟨y, u, hy, hyt, hge, -⟩ := hlater.participant_onward hlater' hr hrt
    obtain rfl := Option.some.inj (hx.symm.trans hy)
    have : token = u := Option.some.inj (hxt.symm.trans hyt)
    omega

end Runs

namespace Sample

def planned (mode : ShiftMode) : Db :=
  { site mode with
    shifts := [{ shiftRow mode with
      status := .planned, snapshot := none, openedAt := none, ownerDeviceId := none }]
    participants := [] }

def enter : Call := ⟨env "enter", .enterShift station shift ["validation-v1"]⟩
def leaveStay (token : Option ℕ) : Call := ⟨env "leave", .leaveShift station shift token⟩

end Sample
open Sample in
/-- A leave delayed until after the station's rejoin leaves it active. -/
theorem shift_follows_its_parts_sample :
    ∃ q, (run Crates.sample (planned .aggregation) [enter, leaveStay none, enter, leaveStay (some 2)]).participant
      shift station = some q ∧ q.state = .active := by
  have hids : Table.Unique (·.id) (planned .aggregation).shifts := List.nodup_singleton _
  have hplanned : ∀ s ∈ (planned .aggregation).shifts, s.IsPlanned := by
    intro s hs
    obtain rfl := List.mem_singleton.1 hs
    exact ⟨rfl, rfl, rfl, rfl⟩
  obtain ⟨-, -, -, -, -, -, -, -, hdelayed⟩ :=
    shift_follows_its_parts Crates.sample (planned .aggregation) [enter, leaveStay none] hids hplanned
  have hp : ((run Crates.sample (planned .aggregation) [enter, leaveStay none]).participant shift station).map
      (·.joinedRev) = some (some 2) := by decide +kernel
  obtain ⟨p, hp, htoken⟩ := Option.map_eq_some_iff.1 hp
  obtain ⟨hactive, hsame⟩ :=
    hdelayed [] [] (env "enter") (env "leave") shift station ["validation-v1"] p 2 hp htoken rfl
  obtain ⟨q, hq, hstate⟩ := hactive
  exact ⟨q, (congrArg (Db.participant shift station) hsame).trans hq, hstate⟩

end Markiro
