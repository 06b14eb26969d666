import Markiro.InventorySync.CorrectionEffects

/-!
# The contents of the boxes

`Packing` is what the boxes of an inventory keep, up to codes whose winner is still to be put into
its box (`pending`): their number, their positions, whose they are, and the count of their prints.
Each statement of the claims and of the repack actions keeps it, where an item that leaves an open
box is its last and a box is reopened only when its device has no open box.
-/

namespace Markiro.InventorySync

/-! ## The items of a box -/

theorem mem_activeItems {r : Rows} {boxId : Uuid} {i : RepackItem} :
    i ∈ activeItems r boxId ↔ i ∈ r.items ∧ i.active = true ∧ i.boxId = boxId := by
  rw [activeItems, List.mem_filter, Bool.and_eq_true, beq_iff_eq]

theorem RepackItem.removed_active (i : RepackItem) (removedAt : Stamp) :
    (i.removed removedAt).active = false := rfl

@[simp] theorem activeItems_removeItems (which : RepackItem → Bool) (removedAt : Stamp) (r : Rows)
    (boxId : Uuid) : activeItems (removeItems which removedAt r) boxId =
      (activeItems r boxId).filter fun i => !which i := by
  rw [activeItems, removeItems, Table.filter_update fun i => by rw [i.removed_active, Bool.false_and],
    activeItems]
  refine List.filter_congr fun i hi => ?_
  have hact := (List.mem_filter.1 hi).2
  rw [Bool.and_eq_true] at hact
  rw [hact.1, Bool.true_and]

theorem activeItems_retired (now : Stamp) (resultId : Uuid) (r : Rows) (boxId : Uuid) :
    activeItems (retired now resultId r) boxId =
      (activeItems r boxId).filter fun i => !(i.resultId == resultId) :=
  activeItems_removeItems (fun i => i.resultId == resultId) now r boxId

theorem activeItems_append (r : Rows) (i : RepackItem) (boxId : Uuid) :
    activeItems { r with items := r.items ++ [i] } boxId =
      activeItems r boxId ++ if i.active && i.boxId == boxId then [i] else [] := by
  rw [activeItems, List.filter_append, List.filter_singleton, cond_eq_ite]
  rfl

theorem Rows.Kept.positions_inj {r : Rows} (h : r.Kept) {boxId : Uuid} {i j : RepackItem}
    (hi : i ∈ activeItems r boxId) (hj : j ∈ activeItems r boxId) (hp : i.position = j.position) :
    i = j := by
  obtain ⟨h1, h2, h3⟩ := mem_activeItems.1 hi
  obtain ⟨h4, h5, h6⟩ := mem_activeItems.1 hj
  exact h.items.activePositions.eq (List.mem_filter.2 ⟨h1, h2⟩) (List.mem_filter.2 ⟨h4, h5⟩)
    (Prod.ext (h3.trans h6.symm) hp)

def attemptsOf (r : Rows) (boxId : Uuid) : ℕ := r.printAttempts.countP (·.boxId = boxId)

/-! ## What a box keeps -/

/-- A box with its items: how many they are, where they stand, and whose codes they are. -/
structure RepackBox.Holds (pending : CodeResult → Prop) (results : List CodeResult)
    (items : List RepackItem) (attempts : ℕ) (b : RepackBox) : Prop where
  opened : b.state = .opened → items.length < b.capacity
  closed : b.state = .closed → 1 ≤ items.length ∧ items.length ≤ b.capacity
  positions : b.state ≠ .invalidated → ∀ i ∈ items, i.position ≤ items.length
  winners : b.state ≠ .invalidated → ∀ i ∈ items, ∀ x ∈ results, x.id = i.resultId →
    x.winningDeviceId = b.ownerDeviceId ∨ pending x
  prints : b.printAttemptCount = attempts

/-- What the boxes of an inventory keep. -/
structure Packing (task : Task) (pending : CodeResult → Prop) (r : Rows) : Prop where
  boxes : ∀ b ∈ r.boxes, b.Holds pending r.codeResults (activeItems r b.id) (attemptsOf r b.id)
  oneOpen : ∀ b ∈ r.boxes, ∀ b' ∈ r.boxes, b.state = .opened → b'.state = .opened →
    b.ownerDeviceId = b'.ownerDeviceId → b.id = b'.id
  attempted : ∀ a ∈ r.printAttempts, ∃ b ∈ r.boxes, b.id = a.boxId
  eligible : ∀ i ∈ r.items, ∀ x ∈ r.codeResults, x.id = i.resultId →
    (task.code x.codeHash).any (·.eligible) = true

section

variable {task : Task} {pending : CodeResult → Prop} {results results' : List CodeResult}
  {items items' : List RepackItem} {n : ℕ} {b b' : RepackBox} {r r' : Rows}

theorem RepackBox.Holds.invalidate (h : b.Holds pending results items n)
    (hstate : b'.state = .invalidated) (hprints : b'.printAttemptCount = b.printAttemptCount) :
    b'.Holds pending results' items' n where
  opened := fun ho => by
    rw [hstate] at ho
    cases ho
  closed := fun hc => by
    rw [hstate] at hc
    cases hc
  positions := fun hne => absurd hstate hne
  winners := fun hne => absurd hstate hne
  prints := hprints.trans h.prints

theorem RepackBox.Holds.recode (h : b.Holds pending results items n)
    (hresults : ∀ i ∈ items, ∀ x ∈ results', x.id = i.resultId →
      ∀ D, (∀ y ∈ results, y.id = i.resultId → y.winningDeviceId = D ∨ pending y) →
        x.winningDeviceId = D ∨ pending x) : b.Holds pending results' items n :=
  { h with winners := fun hne i hi x hx hid => hresults i hi x hx hid _ (h.winners hne i hi) }

theorem RepackBox.Holds.removeLast (h : b.Holds pending results items n) (hopen : b.state = .opened)
    {last : RepackItem} (hlast : last ∈ items) (hnodup : items.Nodup)
    (htop : ∀ i ∈ items, i.position ≤ last.position)
    (hinj : ∀ i ∈ items, i.position = last.position → i = last)
    {which : RepackItem → Bool} (hwhich : ∀ i ∈ items, which i = true ↔ i = last) :
    b.Holds pending results (items.filter fun i => !which i) n := by
  have hlength : (items.filter fun i => !which i).length + 1 = items.length := by
    have hcount : items.countP which = 1 := by
      rw [← List.count_eq_one_of_mem hnodup hlast, List.count]
      exact List.countP_congr fun i hi => by rw [hwhich i hi, beq_iff_eq]
    rw [List.countP_eq_length_filter] at hcount
    have hsum := List.length_eq_length_filter_add (l := items) which
    omega
  refine ⟨fun ho => ?_, fun hc => ?_, fun hne i hi => ?_, fun hne i hi => ?_, h.prints⟩
  · have := h.opened ho
    omega
  · rw [hopen] at hc
    cases hc
  · obtain ⟨hi, hnot⟩ := List.mem_filter.1 hi
    have h1 := h.positions hne last hlast
    have h2 := htop i hi
    have h3 : i.position ≠ last.position := fun he => by
      rw [(hwhich i hi).2 (hinj i hi he)] at hnot
      cases hnot
    omega
  · exact h.winners hne i (List.mem_of_mem_filter hi)

theorem RepackBox.Holds.empty (hopen : b.state = .opened) (hcapacity : 0 < b.capacity)
    (hprints : b.printAttemptCount = n) : b.Holds pending results [] n where
  opened := fun _ => hcapacity
  closed := fun hc => by
    rw [hopen] at hc
    cases hc
  positions := fun _ _ hi => absurd hi List.not_mem_nil
  winners := fun _ _ hi => absurd hi List.not_mem_nil
  prints := hprints

/-! ## Statements that leave the contents alone -/

theorem Packing.congr (h : Packing task pending r) (h1 : r'.boxes = r.boxes)
    (h2 : r'.items = r.items) (h3 : r'.printAttempts = r.printAttempts)
    (h4 : r'.codeResults = r.codeResults) : Packing task pending r' := by
  have hitems : ∀ id, activeItems r' id = activeItems r id := fun id => by
    rw [activeItems, h2, activeItems]
  have hattempts : ∀ id, attemptsOf r' id = attemptsOf r id := fun id => by
    rw [attemptsOf, h3, attemptsOf]
  constructor
  · intro b hb
    rw [h4, hitems, hattempts]
    exact h.boxes b (h1 ▸ hb)
  · rw [h1]
    exact h.oneOpen
  · rw [h1, h3]
    exact h.attempted
  · rw [h2, h4]
    exact h.eligible

theorem Packing.recorded (h : Packing task pending r) (hr : r.Recorded r') :
    Packing task pending r' := by
  rw [hr.rows]
  exact h.congr rfl rfl rfl rfl

theorem Packing.changeBox {box : RepackBox} {f : RepackBox → RepackBox}
    (h : Packing task pending r) (hids : Table.Unique (·.id) r.boxes) (hbox : box ∈ r.boxes)
    (hid : (f box).id = box.id) (howner : (f box).ownerDeviceId = box.ownerDeviceId)
    (hstate : (f box).state = .opened → box.state = .opened ∨
      ∀ b ∈ r.boxes, b.ownerDeviceId = box.ownerDeviceId → b.state ≠ .opened)
    (hholds : (f box).Holds pending r.codeResults (activeItems r box.id) (attemptsOf r box.id)) :
    Packing task pending (changeBox box.id f r) := by
  have hfrom : ∀ b ∈ (InventorySync.changeBox box.id f r).boxes, ∃ a ∈ r.boxes, b.id = a.id ∧
      b.ownerDeviceId = a.ownerDeviceId ∧ (b.state = .opened → a.state = .opened ∨ a = box ∧
        ∀ b ∈ r.boxes, b.ownerDeviceId = box.ownerDeviceId → b.state ≠ .opened) :=
    Table.forall_update_one hids hbox
      ⟨box, hbox, hid, howner, fun hs => (hstate hs).imp_right fun hno => ⟨rfl, hno⟩⟩
      fun b hb _ => ⟨b, hb, rfl, rfl, .inl⟩
  constructor
  · refine Table.forall_update_one hids hbox ?_ fun b hb _ => h.boxes b hb
    rw [hid]
    exact hholds
  · intro b hb b' hb' ho ho' hown
    obtain ⟨a, ha, h1, h2, h3⟩ := hfrom b hb
    obtain ⟨a', ha', h4, h5, h6⟩ := hfrom b' hb'
    rw [h2, h5] at hown
    rw [h1, h4]
    rcases h3 ho with hopen | ⟨rfl, hno⟩
    · rcases h6 ho' with hopen' | ⟨rfl, hno⟩
      · exact h.oneOpen a ha a' ha' hopen hopen' hown
      · exact absurd hopen (hno a ha hown)
    · rcases h6 ho' with hopen' | ⟨rfl, -⟩
      · exact absurd hopen' (hno a' ha' hown.symm)
      · rfl
  · intro a ha
    obtain ⟨b, hb, hba⟩ := h.attempted a ha
    refine ⟨_, Table.mem_update_of_mem hb, ?_⟩
    split_ifs with hsel
    · obtain rfl := hids.eq hb hbox (of_decide_eq_true hsel)
      exact hid.trans hba
    · exact hba
  · exact h.eligible

theorem Packing.removeItems {which : RepackItem → Bool} {removedAt : Stamp}
    (h : Packing task pending r)
    (hholds : ∀ b ∈ r.boxes, b.Holds pending r.codeResults
      ((activeItems r b.id).filter fun i => !which i) (attemptsOf r b.id)) :
    Packing task pending (removeItems which removedAt r) := by
  refine ⟨fun b hb => ?_, h.oneOpen, h.attempted, fun i hi x hx hid => ?_⟩
  · rw [activeItems_removeItems]
    exact hholds b hb
  · obtain ⟨j, hj, rfl⟩ := Table.mem_update.1 hi
    refine h.eligible j hj x hx (hid.trans ?_)
    split_ifs <;> rfl

/-- A statement on the codes that keeps whose they are. -/
theorem Packing.codes {p : CodeResult → Bool} {f : CodeResult → CodeResult}
    (hr' : r' = { r with
      codeResults := Table.update p f r.codeResults, progressChanges := r'.progressChanges
      corrections := r'.corrections, correctionBatches := r'.correctionBatches
      resultRevision := r'.resultRevision })
    (hkeeps : ∀ x, (f x).id = x.id ∧ (f x).codeHash = x.codeHash ∧
      (f x).winningDeviceId = x.winningDeviceId) (h : Packing task (fun _ => False) r) :
    Packing task (fun _ => False) r' := by
  rw [hr']
  constructor
  · intro b hb
    refine (h.boxes b hb).recode fun i hi x hx hid D hD => ?_
    obtain ⟨y, hy, rfl⟩ := Table.mem_update.1 hx
    have hown := hD y hy
    split_ifs at hid ⊢
    · obtain ⟨h1, -, h3⟩ := hkeeps y
      rw [h1] at hid
      rw [h3]
      exact hown hid
    · exact hown hid
  · exact h.oneOpen
  · exact h.attempted
  · intro i hi x hx hid
    obtain ⟨y, hy, rfl⟩ := Table.mem_update.1 hx
    have helig := h.eligible i hi y hy
    split_ifs at hid ⊢
    · obtain ⟨h1, h2, -⟩ := hkeeps y
      rw [h1] at hid
      rw [h2]
      exact helig hid
    · exact helig hid

end

end Markiro.InventorySync
