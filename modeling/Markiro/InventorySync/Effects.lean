import Markiro.InventorySync.Service

/-!
# What each part of a batch writes

The rows after each repack action, read off its success, and what all of them keep: the results of
the codes, the feed, the corrections, and whose every box is (`Rows.Beside`).
-/

namespace Markiro.InventorySync

open Results

/-! ## Steps beside the claims -/

def RepackBox.byAdmin (b : RepackBox) : Prop :=
  b.state = .invalidated ∧ b.invalidationSource = some .admin

/-- What a box stays, whatever becomes of it. -/
structure RepackBox.Becomes (b b' : RepackBox) : Prop where
  id : b'.id = b.id
  owner : b'.ownerDeviceId = b.ownerDeviceId
  admin : b.byAdmin → b'.byAdmin

theorem RepackBox.Becomes.refl (b : RepackBox) : b.Becomes b := ⟨rfl, rfl, fun h => h⟩

theorem RepackBox.Becomes.trans {b b' b'' : RepackBox} (h : b.Becomes b') (h' : b'.Becomes b'') :
    b.Becomes b'' :=
  ⟨h'.id.trans h.id, h'.owner.trans h.owner, fun ha => h'.admin (h.admin ha)⟩

theorem RepackBox.Becomes.of_state {b b' : RepackBox} (hid : b'.id = b.id)
    (howner : b'.ownerDeviceId = b.ownerDeviceId) (h : ¬b.byAdmin) : b.Becomes b' :=
  ⟨hid, howner, fun ha => absurd ha h⟩

theorem RepackBox.not_byAdmin {b : RepackBox} (h : b.state ≠ .invalidated) : ¬b.byAdmin :=
  fun ha => h ha.1

/-- What the claims and the feed rest on is as it was. -/
structure Rows.Beside (r r' : Rows) : Prop where
  status : r'.status = r.status
  resultRevision : r'.resultRevision = r.resultRevision
  participants : r'.participants = r.participants
  codeResults : r'.codeResults = r.codeResults
  progressChanges : r'.progressChanges = r.progressChanges
  corrections : r'.corrections = r.corrections
  boxes : ∀ b ∈ r.boxes, ∃ b' ∈ r'.boxes, b.Becomes b'

theorem Rows.Beside.refl (r : Rows) : r.Beside r :=
  ⟨rfl, rfl, rfl, rfl, rfl, rfl, fun b hb => ⟨b, hb, .refl b⟩⟩

theorem boxes_trans {boxes boxes' boxes'' : List RepackBox}
    (h : ∀ b ∈ boxes, ∃ b' ∈ boxes', b.Becomes b')
    (h' : ∀ b ∈ boxes', ∃ b' ∈ boxes'', b.Becomes b') :
    ∀ b ∈ boxes, ∃ b' ∈ boxes'', b.Becomes b' := by
  intro b hb
  obtain ⟨b', hb', h1⟩ := h b hb
  obtain ⟨b'', hb'', h2⟩ := h' b' hb'
  exact ⟨b'', hb'', h1.trans h2⟩

theorem Rows.Beside.trans {r r' r'' : Rows} (h : r.Beside r') (h' : r'.Beside r'') :
    r.Beside r'' where
  status := h'.status.trans h.status
  resultRevision := h'.resultRevision.trans h.resultRevision
  participants := h'.participants.trans h.participants
  codeResults := h'.codeResults.trans h.codeResults
  progressChanges := h'.progressChanges.trans h.progressChanges
  corrections := h'.corrections.trans h.corrections
  boxes := boxes_trans h.boxes h'.boxes

theorem boxes_update {p : RepackBox → Bool} {f : RepackBox → RepackBox} {boxes : List RepackBox}
    (h : ∀ b ∈ boxes, p b = true → b.Becomes (f b)) :
    ∀ b ∈ boxes, ∃ b' ∈ Table.update p f boxes, b.Becomes b' := by
  intro b hb
  refine ⟨_, Table.mem_update_of_mem hb, ?_⟩
  split_ifs with hp
  · exact h b hb hp
  · exact .refl b

theorem changeBox_boxes {box : RepackBox} {f : RepackBox → RepackBox} {boxes : List RepackBox}
    (hids : Table.Unique (·.id) boxes) (hbox : box ∈ boxes) (h : box.Becomes (f box)) :
    ∀ b ∈ boxes, ∃ b' ∈ Table.update (·.id = box.id) f boxes, b.Becomes b' := by
  refine boxes_update fun b hb hid => ?_
  obtain rfl := hids.eq hb hbox (of_decide_eq_true hid)
  exact h

theorem changeBox_beside {r : Rows} {box : RepackBox} (f : RepackBox → RepackBox)
    (hids : Table.Unique (·.id) r.boxes) (hbox : box ∈ r.boxes) (h : box.Becomes (f box)) :
    r.Beside (changeBox box.id f r) :=
  ⟨rfl, rfl, rfl, rfl, rfl, rfl, changeBox_boxes hids hbox h⟩

theorem beside_of_boxes {r r' : Rows} (h1 : r'.status = r.status)
    (h2 : r'.resultRevision = r.resultRevision) (h3 : r'.participants = r.participants)
    (h4 : r'.codeResults = r.codeResults) (h5 : r'.progressChanges = r.progressChanges)
    (h6 : r'.corrections = r.corrections) (h7 : r'.boxes = r.boxes) : r.Beside r' :=
  ⟨h1, h2, h3, h4, h5, h6, fun b hb => ⟨b, h7 ▸ hb, .refl b⟩⟩

theorem removeItems_beside (which : RepackItem → Bool) (removedAt : Stamp) (r : Rows) :
    r.Beside (removeItems which removedAt r) :=
  beside_of_boxes rfl rfl rfl rfl rfl rfl rfl

/-! ## Leaving a box by a lost claim -/

def retired (now : Stamp) (resultId : Uuid) (r : Rows) : Rows :=
  { r with
    items := Table.update (fun i => i.active && i.resultId == resultId) (·.removed now) r.items
    boxes := Table.update
      (fun b => r.items.any fun i => i.active && i.resultId == resultId && i.boxId == b.id)
      (·.displaced now) r.boxes }

theorem retire_ok {now : Stamp} {resultId : Uuid} {t t' : Tables}
    (h : retireDisplacedRepackItems now resultId t = .ok t') :
    t'.toRows = retired now resultId t.toRows := by
  unfold retireDisplacedRepackItems at h
  simp only at h
  split_ifs at h with hnil
  · obtain rfl := Except.ok.inj h
    have hno : ∀ i ∈ t.items, (i.active && i.resultId == resultId) = false := fun i hi => by
      by_contra hact
      exact List.ne_nil_of_mem (List.mem_filter.2 ⟨hi, by simpa using hact⟩) hnil
    have hany : ∀ b ∈ t.boxes, (t.items.any fun i =>
        i.active && i.resultId == resultId && i.boxId == b.id) = false := fun b _ => by
      rw [List.any_eq_false]
      intro i hi
      rw [hno i hi]
      exact Bool.false_ne_true
    rw [retired, Table.update_of_none hno, Table.update_of_none hany]
  · obtain ⟨t1, h1, h⟩ := bind_eq_ok.1 h
    have e1 := Tables.change_ok.1 h1
    have e2 := Tables.change_ok.1 h
    have hitems : ∀ i ∈ t.items, (i.active && decide (i.id ∈ (t.items.filter fun i =>
        i.active && i.resultId == resultId).map (·.id))) =
        (i.active && i.resultId == resultId) := by
      intro i hi
      rw [Bool.eq_iff_iff]
      simp only [Bool.and_eq_true, decide_eq_true_eq, List.mem_map, List.mem_filter]
      constructor
      · rintro ⟨ha, j, ⟨hj, hja, hjr⟩, hji⟩
        obtain rfl := t.kept.items.ids.eq hj hi hji
        exact ⟨hja, hjr⟩
      · rintro ⟨ha, hr⟩
        exact ⟨ha, i, ⟨hi, ha, hr⟩, rfl⟩
    have hboxes : ∀ b ∈ t.boxes, decide (b.id ∈ (t.items.filter fun i =>
        i.active && i.resultId == resultId).map (·.boxId)) =
        t.items.any fun i => i.active && i.resultId == resultId && i.boxId == b.id := by
      intro b _
      rw [Bool.eq_iff_iff]
      simp only [Bool.and_eq_true, decide_eq_true_eq, List.mem_map, List.mem_filter, List.any_eq_true,
        beq_iff_eq]
      constructor
      · rintro ⟨i, ⟨hi, hia⟩, hib⟩
        exact ⟨i, hi, hia, hib⟩
      · rintro ⟨i, hi, hia, hib⟩
        exact ⟨i, ⟨hi, hia⟩, hib⟩
    rw [e2, e1, removeItems, retired, Table.update_congr hitems, ← Table.update_congr hboxes]

theorem RepackBox.displaced_becomes (now : Stamp) (b : RepackBox) : b.Becomes (b.displaced now) :=
  ⟨rfl, rfl, fun ha => ⟨rfl, by rw [RepackBox.displaced, ha.2]; rfl⟩⟩

theorem retired_beside (now : Stamp) (resultId : Uuid) (r : Rows) :
    r.Beside (retired now resultId r) :=
  ⟨rfl, rfl, rfl, rfl, rfl, rfl, boxes_update fun b _ _ => b.displaced_becomes now⟩

/-! ## The actions -/

section

variable {task : Task} {env : Env} {D : Uuid} {capacity : ℕ} {e : Event} {o : EventOutcome}
  {box : RepackBox} {t t' : Tables}

theorem openBox_ok {boxId : Uuid} {oldSscc newSscc : SsccText} {n : ℕ} {date : CivilDate}
    (h : openBox env D capacity e boxId oldSscc newSscc n date t = .ok t') :
    (∀ b ∈ t.boxes, b.openOf D = false) ∧ ∃ openedAt blocks, t'.toRows =
      { t.toRows with
        boxes := t.boxes ++ [openedBox D e boxId oldSscc newSscc capacity date openedAt env.now]
        ssccBlocks := blocks } := by
  unfold openBox at h
  obtain ⟨_, -, h⟩ := bind_eq_ok.1 h
  obtain ⟨_, -, h⟩ := bind_eq_ok.1 h
  cases hp : parseNewSscc newSscc with
  | none =>
    simp only [hp] at h
    cases h
  | some parsed =>
    simp only [hp] at h
    cases hb : reservedBlock t D parsed with
    | none =>
      simp only [hb] at h
      cases h
    | some block =>
      simp only [hb] at h
      obtain ⟨_, hopen, h⟩ := bind_eq_ok.1 h
      obtain ⟨_, -, h⟩ := bind_eq_ok.1 h
      obtain ⟨openedAt, -, h⟩ := bind_eq_ok.1 h
      obtain ⟨t1, h1, h⟩ := bind_eq_ok.1 h
      refine ⟨fun b hb => ?_, openedAt, Table.update (·.id = block.id)
        (·.consume parsed.serial) t.ssccBlocks, ?_⟩
      · have := ensure_ok.1 hopen
        rw [Bool.not_eq_true, List.any_eq_false] at this
        exact Bool.eq_false_iff.2 (this b hb)
      · rw [Tables.change_ok.1 h, Tables.change_ok.1 h1]

theorem resolveConflict_ok {changedAt : IsoDatetime}
    (h : resolveConflict box changedAt t = .ok t') :
    (box.state = .invalidated ∧ box.invalidationSource = some .claimLost ∧
      box.printAttemptCount = 0 ∧ box.printedAt = none) ∧ ∃ resolvedAt, t'.toRows =
        changeBox box.id (·.reopened resolvedAt)
          (removeItems (·.boxId = box.id) resolvedAt t.toRows) := by
  unfold resolveConflict at h
  obtain ⟨_, hp, h⟩ := bind_eq_ok.1 h
  obtain ⟨resolvedAt, -, h⟩ := bind_eq_ok.1 h
  obtain ⟨t1, h1, h⟩ := bind_eq_ok.1 h
  refine ⟨ensure_ok.1 hp, resolvedAt, ?_⟩
  rw [Tables.change_ok.1 h]
  congr 1
  split_ifs at h1 with hnil
  · obtain rfl := Except.ok.inj h1
    have hno : ∀ i ∈ t.items, (i.active && decide (i.boxId = box.id)) = false := fun i hi => by
      by_contra hact
      exact List.ne_nil_of_mem (List.mem_filter.2 ⟨hi, by simpa using hact⟩) hnil
    rw [removeItems, Table.update_of_none hno]
  · exact Tables.change_ok.1 h1

theorem recordPrint_ok {kind : PrintKind} {p : PrintOutcome}
    (h : recordPrint env capacity e box kind p t = .ok t') :
    box.state = .closed ∧ p.attemptNumber = box.printAttemptCount + 1 ∧
      ∃ attemptedAt completedAt, t'.toRows =
        changeBox box.id (·.afterPrint kind p completedAt)
          { t.toRows with
            printAttempts := t.printAttempts ++ [⟨p.attemptId, box.id, e.eventId, kind,
              p.attemptNumber, p.result, p.errorCode, attemptedAt, completedAt⟩] } := by
  unfold recordPrint at h
  obtain ⟨_, hclosed, h⟩ := bind_eq_ok.1 h
  obtain ⟨_, -, h⟩ := bind_eq_ok.1 h
  obtain ⟨_, -, h⟩ := bind_eq_ok.1 h
  obtain ⟨_, -, h⟩ := bind_eq_ok.1 h
  obtain ⟨_, hnumber, h⟩ := bind_eq_ok.1 h
  obtain ⟨_, -, h⟩ := bind_eq_ok.1 h
  obtain ⟨_, -, h⟩ := bind_eq_ok.1 h
  obtain ⟨_, -, h⟩ := bind_eq_ok.1 h
  obtain ⟨attemptedAt, -, h⟩ := bind_eq_ok.1 h
  obtain ⟨completedAt, -, h⟩ := bind_eq_ok.1 h
  obtain ⟨t1, h1, h⟩ := bind_eq_ok.1 h
  exact ⟨ensure_ok.1 hclosed, ensure_ok.1 hnumber, attemptedAt, completedAt, by
    rw [Tables.change_ok.1 h, Tables.change_ok.1 h1]⟩

def newItem (mismatch : Bool) (e : Event) (box : RepackBox) (resultId itemId : Uuid)
    (position : ℕ) (addedAt : Stamp) : RepackItem where
  id := itemId
  boxId := box.id
  resultId := resultId
  sourceEventId := e.eventId
  position := position
  sourceParentMismatch := mismatch
  productionDate := box.productionDate
  activeObservedProductionDate := some box.productionDate
  addedAt := addedAt
  removedAt := none

def inserted (e : Event) (box : RepackBox) (now : Stamp) (i : RepackItem) (r : Rows) : Rows :=
  if i.position = box.capacity then
    changeBox box.id (·.closedBy e i.addedAt now) { r with items := r.items ++ [i] }
  else { r with items := r.items ++ [i] }

theorem insertItem_ok {codeHash : Hash} {resultId itemId : Uuid} {position : ℕ} {closeBox : Bool}
    (h : insertItem task env e box codeHash resultId itemId position closeBox t = .ok t') :
    (activeItems t.toRows box.id).length + 1 ≤ box.capacity ∧ ∃ mismatch addedAt, t'.toRows =
      inserted e box env.now (newItem mismatch e box resultId itemId
        ((activeItems t.toRows box.id).length + 1) addedAt) t.toRows := by
  unfold insertItem at h
  simp only at h
  obtain ⟨_, hp, h⟩ := bind_eq_ok.1 h
  obtain ⟨_, -, h⟩ := bind_eq_ok.1 h
  obtain ⟨addedAt, -, h⟩ := bind_eq_ok.1 h
  obtain ⟨t1, h1, h⟩ := bind_eq_ok.1 h
  have e1 := Tables.change_ok.1 h1
  refine ⟨(ensure_ok.1 hp).1,
    decide ((task.code codeHash).bind (·.parentSscc) ≠ box.oldSsccContext), addedAt, ?_⟩
  rw [inserted]
  split_ifs at h ⊢ with hfull hfull' hfull'
  · rw [Tables.change_ok.1 h, e1]
    rfl
  · exact absurd hfull hfull'
  · exact absurd hfull' hfull
  · obtain rfl := Except.ok.inj h
    rw [e1]
    rfl

/-- An added item's claim was lost to another device, or its code is the device's: the code leaves
the box it stood in and goes into this one. -/
inductive Added (env : Env) (D : Uuid) (e : Event) (o : EventOutcome) (box : RepackBox) (r : Rows) :
    Rows → Prop where
  | lost (hlost : o.status ≠ .applied) :
      Added env D e o box r (changeBox box.id (·.claimLost env.now) r)
  | member (codeHash : Hash) (result : CodeResult) (mismatch : Bool) (itemId : Uuid) (n : ℕ)
      (addedAt : Stamp) (hcode : e.codeHash = some codeHash) (hresult : result ∈ r.codeResults)
      (hhash : result.codeHash = codeHash)
      (hmine : result.winningDeviceId = D ∧
          (∀ i ∈ r.items, i.active = true → i.resultId ≠ result.id) ∨
        result.firstAcceptedEventId = e.eventId)
      (hn : n = (activeItems (retired env.now result.id r) box.id).length)
      (hroom : n + 1 ≤ box.capacity) :
      Added env D e o box r (inserted e box env.now
        (newItem mismatch e box result.id itemId (n + 1) addedAt) (retired env.now result.id r))

theorem addItem_ok {itemId : Uuid} {position : ℕ} {closeBox : Bool}
    (h : addItem task env D e o box itemId position closeBox t = .ok t') :
    Added env D e o box t.toRows t'.toRows := by
  unfold addItem at h
  cases hcode : e.codeHash with
  | none =>
    simp only [hcode] at h
    cases h
  | some codeHash =>
    simp only [hcode] at h
    split_ifs at h with hlost
    · rw [Tables.change_ok.1 h]
      exact .lost hlost.1
    · cases hm : memberResult t D e codeHash (ownedReattach D codeHash o) with
      | none =>
        simp only [hm] at h
        cases h
      | some result =>
        simp only [hm] at h
        obtain ⟨_, hmember, h⟩ := bind_eq_ok.1 h
        obtain ⟨t1, h1, h⟩ := bind_eq_ok.1 h
        have e1 := retire_ok h1
        obtain ⟨hroom, mismatch, addedAt, e2⟩ := insertItem_ok h
        have hres := List.mem_of_find?_eq_some hm
        have hsel := List.find?_some hm
        simp only [decide_eq_true_eq] at hsel
        obtain ⟨hhash, -, hmine⟩ := hsel
        have hfree := ensure_ok.1 hmember
        rw [e1] at hroom e2
        rw [e2]
        refine .member codeHash result mismatch itemId _ addedAt hcode hres hhash ?_ rfl hroom
        cases hre : ownedReattach D codeHash o with
        | false =>
          simp only [hre, Bool.false_eq_true, if_false] at hmine
          exact .inr hmine
        | true =>
          simp only [hre, if_true, true_and, Bool.not_eq_true, List.any_eq_false,
            Bool.and_eq_true, beq_iff_eq, not_and] at hmine hfree
          exact .inl ⟨hmine, hfree⟩

theorem removeLast_ok {itemId : Uuid} {changedAt : IsoDatetime}
    (h : removeLast box itemId changedAt t = .ok t') :
    ∃ last ∈ activeItems t.toRows box.id, last.id = itemId ∧
      (∀ i ∈ activeItems t.toRows box.id, i.position ≤ last.position) ∧
      ∃ removedAt, t'.toRows = removeItems (·.id = itemId) removedAt t.toRows := by
  unfold removeLast at h
  obtain ⟨_, hlast, h⟩ := bind_eq_ok.1 h
  obtain ⟨removedAt, -, h⟩ := bind_eq_ok.1 h
  have hl := ensure_ok.1 hlast
  cases hf : lastItem t box.id with
  | none =>
    rw [hf] at hl
    cases hl
  | some last =>
    rw [hf] at hl
    have hmem : last ∈ activeItems t.toRows box.id :=
      (List.mem_insertionSort _).1 (List.mem_of_mem_head? hf)
    refine ⟨last, hmem, by simpa using hl, fun i hi => ?_, removedAt, Tables.change_ok.1 h⟩
    have hsorted : ((activeItems t.toRows box.id).insertionSort fun i j => j.position ≤ i.position).Pairwise
        fun i j => j.position ≤ i.position :=
      List.pairwise_insertionSort _ _
    have hi' := (List.mem_insertionSort fun i j : RepackItem => j.position ≤ i.position).2 hi
    cases hs : (activeItems t.toRows box.id).insertionSort fun i j => j.position ≤ i.position with
    | nil =>
      rw [hs] at hi'
      cases hi'
    | cons x xs =>
      rw [lastItem, hs, List.head?_cons] at hf
      obtain rfl := Option.some.inj hf
      rw [hs] at hi' hsorted
      rcases List.mem_cons.1 hi' with rfl | hi'
      · exact le_rfl
      · exact (List.pairwise_cons.1 hsorted).1 i hi'

@[simp] theorem activeItems_change (r : Rows) (boxId id : Uuid) (f : RepackBox → RepackBox) :
    activeItems (changeBox boxId f r) id = activeItems r id := rfl

theorem clearBox_ok {changedAt : IsoDatetime} (h : clearBox box changedAt t = .ok t') :
    ∃ removedAt, t'.toRows = removeItems (·.boxId = box.id) removedAt t.toRows := by
  unfold clearBox at h
  obtain ⟨removedAt, -, h⟩ := bind_eq_ok.1 h
  exact ⟨removedAt, Tables.change_ok.1 h⟩

theorem changeDate_ok {date : CivilDate} {changedAt : IsoDatetime}
    (h : changeDate box date changedAt t = .ok t') :
    activeItems t.toRows box.id = [] ∧ ∃ updatedAt, t'.toRows = changeBox box.id
      (fun b => { b with productionDate := date, updatedAt := updatedAt }) t.toRows := by
  unfold changeDate at h
  obtain ⟨_, hp, h⟩ := bind_eq_ok.1 h
  obtain ⟨updatedAt, -, h⟩ := bind_eq_ok.1 h
  exact ⟨ensure_ok.1 hp, updatedAt, Tables.change_ok.1 h⟩

theorem closeIncomplete_ok {changedAt : IsoDatetime}
    (h : closeIncomplete env e box changedAt t = .ok t') :
    ((activeItems t.toRows box.id).length ≠ 0 ∧ (activeItems t.toRows box.id).length < box.capacity) ∧
      ∃ closedAt, t'.toRows = changeBox box.id (·.closedBy e closedAt env.now) t.toRows := by
  unfold closeIncomplete at h
  obtain ⟨_, hp, h⟩ := bind_eq_ok.1 h
  obtain ⟨closedAt, -, h⟩ := bind_eq_ok.1 h
  exact ⟨ensure_ok.1 hp, closedAt, Tables.change_ok.1 h⟩

/-! ## Any action -/

/-- What an event's repack action may do to the rows. -/
inductive Acted (env : Env) (D : Uuid) (e : Event) (o : EventOutcome) (r : Rows) : Rows → Prop where
  | nothing : Acted env D e o r r
  | opened (boxId : Uuid) (oldSscc newSscc : SsccText) (capacity : ℕ) (date : CivilDate)
      (openedAt : Stamp) (blocks : List SsccBlock) (hone : ∀ b ∈ r.boxes, b.openOf D = false) :
      Acted env D e o r
        { r with
          boxes := r.boxes ++ [openedBox D e boxId oldSscc newSscc capacity date openedAt env.now]
          ssccBlocks := blocks }
  | resolved (box : RepackBox) (resolvedAt : Stamp) (hbox : box ∈ r.boxes)
      (howner : box.ownerDeviceId = D) (hstate : box.state = .invalidated)
      (hsource : box.invalidationSource = some .claimLost) (hcount : box.printAttemptCount = 0)
      (hresolves : ∃ m changedAt, e.repack = some m ∧ m.action = .resolveConflict changedAt) :
      Acted env D e o r (changeBox box.id (·.reopened resolvedAt)
        (removeItems (·.boxId = box.id) resolvedAt r))
  | printed (box : RepackBox) (kind : PrintKind) (p : PrintOutcome)
      (attemptedAt completedAt : Stamp) (hbox : box ∈ r.boxes) (hstate : box.state = .closed)
      (hnumber : p.attemptNumber = box.printAttemptCount + 1) :
      Acted env D e o r (changeBox box.id (·.afterPrint kind p completedAt)
        { r with
          printAttempts := r.printAttempts ++ [⟨p.attemptId, box.id, e.eventId, kind,
            p.attemptNumber, p.result, p.errorCode, attemptedAt, completedAt⟩] })
  | added (box : RepackBox) (r' : Rows) (hadds : e.adds = true) (hbox : box ∈ r.boxes)
      (howner : box.ownerDeviceId = D) (hstate : box.state = .opened)
      (h : Added env D e o box r r') : Acted env D e o r r'
  | removedLast (box : RepackBox) (last : RepackItem) (removedAt : Stamp) (hbox : box ∈ r.boxes)
      (hstate : box.state = .opened) (hlast : last ∈ activeItems r box.id)
      (htop : ∀ i ∈ activeItems r box.id, i.position ≤ last.position) :
      Acted env D e o r (removeItems (·.id = last.id) removedAt r)
  | cleared (box : RepackBox) (removedAt : Stamp) (hbox : box ∈ r.boxes)
      (hstate : box.state = .opened) :
      Acted env D e o r (removeItems (·.boxId = box.id) removedAt r)
  | redated (box : RepackBox) (date : CivilDate) (updatedAt : Stamp) (hbox : box ∈ r.boxes)
      (hstate : box.state = .opened) (hempty : activeItems r box.id = []) :
      Acted env D e o r (changeBox box.id
        (fun b => { b with productionDate := date, updatedAt := updatedAt }) r)
  | closed (box : RepackBox) (closedAt : Stamp) (hbox : box ∈ r.boxes)
      (hstate : box.state = .opened) (hsome : (activeItems r box.id).length ≠ 0)
      (hroom : (activeItems r box.id).length < box.capacity) :
      Acted env D e o r (changeBox box.id (·.closedBy e closedAt env.now) r)

theorem applyRepackMutation_ok (h : applyRepackMutation task env D e o t = .ok t') :
    Acted env D e o t.toRows t'.toRows := by
  unfold applyRepackMutation at h
  cases hm : e.repack with
  | none =>
    simp only [hm] at h
    obtain rfl := Except.ok.inj h
    exact .nothing
  | some m =>
    simp only [hm] at h
    cases hmode : task.mode with
    | check =>
      simp only [hmode] at h
      cases h
    | repack =>
      cases hcap : task.capacity with
      | none =>
        simp only [hmode, hcap] at h
        cases h
      | some capacity =>
        simp only [hmode, hcap] at h
        split at h
        · obtain ⟨hone, openedAt, blocks, hrows⟩ := openBox_ok h
          rw [hrows]
          exact .opened _ _ _ _ _ _ _ hone
        · unfold changeOwnedBox at h
          split at h
          · cases h
          · rename_i box hfind
            have hbox := List.mem_of_find?_eq_some hfind
            have hsel := List.find?_some hfind
            simp only [decide_eq_true_eq] at hsel
            split at h
            · rename_i changedAt haction
              obtain ⟨⟨h1, h2, h3, -⟩, resolvedAt, hrows⟩ := resolveConflict_ok h
              rw [hrows]
              exact .resolved box resolvedAt hbox hsel.2 h1 h2 h3 ⟨m, changedAt, hm, haction⟩
            · obtain ⟨h1, h2, attemptedAt, completedAt, hrows⟩ := recordPrint_ok h
              rw [hrows]
              exact .printed box _ _ attemptedAt completedAt hbox h1 h2
            · unfold changeOpenBox at h
              obtain ⟨_, hopen, h⟩ := bind_eq_ok.1 h
              obtain ⟨_, -, h⟩ := bind_eq_ok.1 h
              have hstate := ensure_ok.1 hopen
              split at h
              · rename_i haction
                have hadds : e.adds = true := by simp [Event.adds, hm, haction, RepackAction.isAddItem]
                exact .added box _ hadds hbox hsel.2 hstate (addItem_ok h)
              · obtain ⟨last, hlast, rfl, htop, removedAt, hrows⟩ := removeLast_ok h
                rw [hrows]
                exact .removedLast box last removedAt hbox hstate hlast htop
              · obtain ⟨removedAt, hrows⟩ := clearBox_ok h
                rw [hrows]
                exact .cleared box removedAt hbox hstate
              · obtain ⟨hempty, updatedAt, hrows⟩ := changeDate_ok h
                rw [hrows]
                exact .redated box _ updatedAt hbox hstate hempty
              · obtain ⟨⟨hsome, hroom⟩, closedAt, hrows⟩ := closeIncomplete_ok h
                rw [hrows]
                exact .closed box closedAt hbox hstate hsome hroom
              · obtain rfl := Except.ok.inj h
                exact .nothing
              · obtain rfl := Except.ok.inj h
                exact .nothing
              · obtain rfl := Except.ok.inj h
                exact .nothing

theorem applyRepackMutation_adds (h : applyRepackMutation task env D e o t = .ok t')
    (hadds : e.adds = true) : ∃ box ∈ t.boxes, box.ownerDeviceId = D ∧ box.state = .opened ∧
      Added env D e o box t.toRows t'.toRows := by
  unfold applyRepackMutation at h
  obtain ⟨⟨boxId, action⟩, hm, hadd⟩ := (Option.any_eq_true _ _).1 hadds
  simp only [hm] at h
  cases action with
  | addItem itemId position closeBox =>
    cases hmode : task.mode with
    | check =>
      simp only [hmode] at h
      cases h
    | repack =>
      cases hcap : task.capacity with
      | none =>
        simp only [hmode, hcap] at h
        cases h
      | some capacity =>
        simp only [hmode, hcap] at h
        unfold changeOwnedBox at h
        split at h
        · cases h
        · rename_i box hfind
          have hsel := List.find?_some hfind
          simp only [decide_eq_true_eq] at hsel
          simp only at h
          unfold changeOpenBox at h
          obtain ⟨_, hopen, h⟩ := bind_eq_ok.1 h
          obtain ⟨_, -, h⟩ := bind_eq_ok.1 h
          exact ⟨box, List.mem_of_find?_eq_some hfind, hsel.2, ensure_ok.1 hopen, addItem_ok h⟩
  | _ => cases hadd

end

theorem inserted_beside {e : Event} {box : RepackBox} {now : Stamp} {i : RepackItem} {r : Rows}
    (resultId : Uuid) (hids : Table.Unique (·.id) r.boxes) (hbox : box ∈ r.boxes)
    (hopen : box.state = .opened) : r.Beside (inserted e box now i (retired now resultId r)) := by
  unfold inserted
  split_ifs
  · refine ⟨rfl, rfl, rfl, rfl, rfl, rfl, fun b hb => ?_⟩
    refine ⟨_, Table.mem_update_of_mem (Table.mem_update_of_mem hb), ?_⟩
    by_cases hid : b.id = box.id
    · obtain rfl := hids.eq hb hbox hid
      refine .of_state ?_ ?_ (RepackBox.not_byAdmin (by rw [hopen]; exact nofun))
      · split_ifs <;> rfl
      · split_ifs <;> rfl
    · rw [if_neg]
      · split_ifs
        · exact b.displaced_becomes now
        · exact .refl b
      · rw [decide_eq_true_eq]
        split_ifs
        · exact hid
        · exact hid
  · exact (retired_beside now resultId r).trans (beside_of_boxes rfl rfl rfl rfl rfl rfl rfl)

theorem Acted.beside {env : Env} {D : Uuid} {e : Event} {o : EventOutcome} {r r' : Rows}
    (hids : Table.Unique (·.id) r.boxes) (h : Acted env D e o r r') : r.Beside r' := by
  have hopen : ∀ b : RepackBox, b.state = .opened → ¬b.byAdmin :=
    fun b hb => RepackBox.not_byAdmin (by rw [hb]; exact nofun)
  cases h with
  | nothing => exact .refl r
  | opened =>
    exact ⟨rfl, rfl, rfl, rfl, rfl, rfl, fun b hb => ⟨b, List.mem_append_left _ hb, .refl b⟩⟩
  | resolved box resolvedAt hbox howner hstate hsource =>
    have hnot : ¬box.byAdmin := fun ha => by
      have h1 := ha.2
      rw [hsource] at h1
      cases h1
    exact ⟨rfl, rfl, rfl, rfl, rfl, rfl, changeBox_boxes hids hbox (.of_state rfl rfl hnot)⟩
  | printed box kind p attemptedAt completedAt hbox =>
    exact ⟨rfl, rfl, rfl, rfl, rfl, rfl, changeBox_boxes hids hbox ⟨rfl, rfl, fun ha => ha⟩⟩
  | added box r' hadds hbox howner hstate h =>
    cases h with
    | lost => exact changeBox_beside _ hids hbox (.of_state rfl rfl (hopen box hstate))
    | member => exact inserted_beside _ hids hbox hstate
  | removedLast => exact removeItems_beside _ _ r
  | cleared => exact removeItems_beside _ _ r
  | redated box date updatedAt hbox => exact changeBox_beside _ hids hbox ⟨rfl, rfl, fun ha => ha⟩
  | closed box closedAt hbox hstate =>
    exact changeBox_beside _ hids hbox (.of_state rfl rfl (hopen box hstate))

/-! ## The ledgers -/

def ScanEvent.sent (e : ScanEvent) : ScanEvent := { e with authoritativeVerdict := .pending }

/-- Only the batches, the verdicts of the events, their claims and the late events are written. -/
structure Rows.Recorded (r r' : Rows) : Prop where
  rows : r' = { r with
    scanBatches := r'.scanBatches
    scanEvents := r'.scanEvents
    claimOutcomes := r'.claimOutcomes
    lateEvents := r'.lateEvents }
  events : r'.scanEvents.map (·.sent) = r.scanEvents.map (·.sent)

theorem Rows.Recorded.refl (r : Rows) : r.Recorded r := ⟨rfl, rfl⟩

theorem Rows.Recorded.trans {r r' r'' : Rows} (h : r.Recorded r') (h' : r'.Recorded r'') :
    r.Recorded r'' := by
  refine ⟨?_, h'.events.trans h.events⟩
  rw [h'.rows, h.rows]

theorem Rows.Recorded.beside {r r' : Rows} (h : r.Recorded r') : r.Beside r' := by
  rw [h.rows]
  exact beside_of_boxes rfl rfl rfl rfl rfl rfl rfl

theorem Rows.Recorded.codeResults {r r' : Rows} (h : r.Recorded r') :
    r'.codeResults = r.codeResults := h.beside.codeResults

theorem setVerdict_recorded (eventId : Uuid) (v : Verdict) (r : Rows) :
    r.Recorded (setVerdict eventId v r) :=
  ⟨rfl, Table.map_update fun _ _ => rfl⟩

end Markiro.InventorySync
