import Markiro.InventorySync.Packing
import Markiro.InventorySync.Winners

/-!
# Claims and repack actions keep the boxes

1. a claim leaves a code in a box of another device only until the event that won it is applied
   (`Packing.claimed`);
2. a repack action keeps the boxes, where a conflict is resolved with no other box open
   (`Packing.acted`);
3. the action of the event that won a code puts it into a box of its device (`Packing.settled`).
-/

namespace Markiro.InventorySync

open Results

/-! ## What an event claims in a repack inventory -/

section

variable {d : Digests} {task : Task} {e : Event} {targets : List ClaimTarget}

theorem validateItem_ok {raw : Utf16.Units} (h : validateItem d task raw e = .ok targets)
    (hmode : task.mode = .repack) : ∃ g, targets = [g] ∧ e.codeHash = some g.codeHash ∧
      (task.code g.codeHash).any (·.eligible) = e.adds := by
  unfold validateItem at h
  split at h
  · rename_i codeHash canonical hcode _
    split_ifs at h with h1 h2
    simp only at h
    split_ifs at h with h3
    obtain rfl := Except.ok.inj h
    refine ⟨_, rfl, hcode, ?_⟩
    by_contra hne
    exact h3 ⟨hmode, hne⟩
  · cases h

/-- A box scanned in a repack inventory is an old one that is opened, and claims nothing. -/
theorem validateBox_ok {raw : Utf16.Units} {u : Unit} (h : validateBox task raw e = .ok targets)
    (hmode : task.mode = .repack) (hkind : e.kind ≠ .repackAction) (hitem : e.kind ≠ .item)
    (hcheck : checkMode task e = .ok u) : targets = [] := by
  unfold checkMode at hcheck
  split_ifs at hcheck with h1 h2 h3
  have hold : e.kind = .oldBox := by
    cases hk : e.kind with
    | item => exact absurd hk hitem
    | knownBox => exact absurd ⟨hmode, hk⟩ h2
    | oldBox => rfl
    | repackAction => exact absurd hk hkind
  have hopens : e.opens = true := by
    by_contra hno
    exact h3 ⟨hmode, .inr ⟨hold, by simpa using hno⟩⟩
  unfold validateBox at h
  split at h
  · cases h
  · split_ifs at h
    split at h
    · split_ifs at h
      exact (Except.ok.inj h).symm
    · rename_i hnot
      obtain ⟨⟨boxId, action⟩, hm, ha⟩ := (Option.any_eq_true _ _).1 hopens
      cases action with
      | openBox => exact absurd hm (hnot _ _ _ _ _)
      | _ => cases ha

/-- Only a scanned item claims a code, and it goes into a box exactly when it is eligible. -/
theorem validateAndExpand_ok (h : validateAndExpand d task e = .ok targets)
    (hmode : task.mode = .repack) : targets = [] ∨ ∃ g, targets = [g] ∧
      e.codeHash = some g.codeHash ∧ (task.code g.codeHash).any (·.eligible) = e.adds := by
  unfold validateAndExpand at h
  obtain ⟨_, hcheck, h⟩ := bind_eq_ok.1 h
  by_cases hkind : e.kind = .repackAction
  · rw [if_pos hkind] at h
    unfold validateRepackAction at h
    split_ifs at h
    split at h
    · split_ifs at h
      exact .inl (Except.ok.inj h).symm
    · exact .inl (Except.ok.inj h).symm
  · rw [if_neg hkind] at h
    cases hraw : e.canonicalRaw with
    | none =>
      simp only [hraw] at h
      cases h
    | some raw =>
      simp only [hraw] at h
      split_ifs at h with h1 h2 h3
      · exact .inr (validateItem_ok h hmode)
      · exact .inl (validateBox_ok h hmode hkind h3 hcheck)

theorem validateAndExpand_adds (h : validateAndExpand d task e = .ok targets)
    (hmode : task.mode = .repack) (haccepted : e.Accepted) (hadds : e.adds = true) :
    ∀ codeHash, e.codeHash = some codeHash → (task.code codeHash).any (·.eligible) = true := by
  intro codeHash hcode
  have hkind : e.kind = .item := by
    obtain ⟨⟨boxId, action⟩, hm, ha⟩ := (Option.any_eq_true _ _).1 hadds
    have hagrees := haccepted.repack
    unfold Event.repackAgrees at hagrees
    rw [hm] at hagrees
    cases action with
    | addItem => exact hagrees.1
    | _ => cases ha
  unfold validateAndExpand at h
  obtain ⟨_, -, h⟩ := bind_eq_ok.1 h
  rw [if_neg (by rw [hkind]; exact nofun)] at h
  cases hraw : e.canonicalRaw with
  | none =>
    simp only [hraw] at h
    cases h
  | some raw =>
    simp only [hraw] at h
    split_ifs at h
    obtain ⟨g, -, hg, helig⟩ := validateItem_ok h hmode
    obtain rfl := Option.some.inj (hg.symm.trans hcode)
    exact helig.trans hadds

end

theorem Expanded.Sound.claim {d : Digests} {task : Task} {x : Expanded} (h : x.Sound d task)
    (hmode : task.mode = .repack) {g : ClaimTarget} (hg : g ∈ x.claims) :
    x.rejected = false ∧ x.claims = [g] ∧ x.event.codeHash = some g.codeHash ∧
      (task.code g.codeHash).any (·.eligible) = x.event.adds := by
  unfold Expanded.claims at hg ⊢
  unfold Expanded.rejected
  cases ht : x.targets with
  | error code =>
    rw [ht] at hg
    cases hg
  | ok targets =>
    rw [ht] at hg
    rcases validateAndExpand_ok (h.targets.symm.trans ht) hmode with rfl | ⟨g', rfl, h1, h2⟩
    · cases hg
    · obtain rfl := List.mem_singleton.1 hg
      exact ⟨rfl, rfl, h1, h2⟩

theorem Expanded.Sound.adds {d : Digests} {task : Task} {x : Expanded} (h : x.Sound d task)
    (hmode : task.mode = .repack) (hrej : x.rejected = false) (hadds : x.event.adds = true) :
    ∀ codeHash, x.event.codeHash = some codeHash →
      (task.code codeHash).any (·.eligible) = true := by
  unfold Expanded.rejected at hrej
  cases ht : x.targets with
  | error code =>
    rw [ht] at hrej
    cases hrej
  | ok targets => exact validateAndExpand_adds (h.targets.symm.trans ht) hmode h.accepted hadds

/-! ## Claims -/

/-- The code was won by an event of the device that is still to be applied. -/
def pendingIn (D : Uuid) (xs : List Expanded) (y : CodeResult) : Prop :=
  y.winningDeviceId = D ∧ ∃ x ∈ xs, x.event.eventId = y.firstAcceptedEventId ∧
    ∃ g ∈ x.claims, g.codeHash = y.codeHash

section

variable {task : Task} {pending : CodeResult → Prop} {r r' : Rows}

theorem Packing.retired (h : Packing task pending r) (now : Stamp) (resultId : Uuid) :
    Packing task pending (retired now resultId r) := by
  constructor
  · intro b hb
    obtain ⟨a, ha, rfl⟩ := Table.mem_update.1 hb
    split_ifs with hsel
    · exact (h.boxes a ha).invalidate rfl rfl
    · rw [activeItems_retired, List.filter_eq_self.2]
      · exact h.boxes a ha
      · intro i hi
        obtain ⟨h1, h2, h3⟩ := mem_activeItems.1 hi
        rw [Bool.not_eq_true, List.any_eq_false] at hsel
        have hno := hsel i h1
        rw [h2, h3, beq_self_eq_true, Bool.true_and, Bool.and_true, Bool.not_eq_true] at hno
        rw [hno]
        rfl
  · have hopen : ∀ b ∈ (InventorySync.retired now resultId r).boxes, b.state = .opened →
        b ∈ r.boxes := by
      intro b hb ho
      obtain ⟨a, ha, rfl⟩ := Table.mem_update.1 hb
      split_ifs at ho ⊢
      · cases ho
      · exact ha
    intro b hb b' hb' ho ho'
    exact h.oneOpen b (hopen b hb ho) b' (hopen b' hb' ho') ho ho'
  · intro a ha
    obtain ⟨b, hb, hba⟩ := h.attempted a ha
    refine ⟨_, Table.mem_update_of_mem hb, ?_⟩
    split_ifs
    · exact hba
    · exact hba
  · intro i hi x hx hid
    obtain ⟨j, hj, rfl⟩ := Table.mem_update.1 hi
    refine h.eligible j hj x hx (hid.trans ?_)
    split_ifs <;> rfl

/-- The row of a code is taken over by a winner that is still to be applied. -/
theorem Packing.recode {codeHash : Hash} {f : CodeResult → CodeResult} (h : Packing task pending r)
    (hr' : r' = { r with
      codeResults := Table.update (fun y => decide (y.codeHash = codeHash)) f r.codeResults
      claimOutcomes := r'.claimOutcomes })
    (hkeeps : ∀ y, (f y).id = y.id ∧ (f y).codeHash = y.codeHash)
    (hpending : ∀ y, y.codeHash = codeHash → pending (f y)) : Packing task pending r' := by
  rw [hr']
  constructor
  · intro b hb
    refine (h.boxes b hb).recode fun i hi x hx hid D hD => ?_
    obtain ⟨y, hy, rfl⟩ := Table.mem_update.1 hx
    split_ifs at hid ⊢ with hsel
    · exact .inr (hpending y (of_decide_eq_true hsel))
    · exact hD y hy hid
  · exact h.oneOpen
  · exact h.attempted
  · intro i hi x hx hid
    obtain ⟨y, hy, rfl⟩ := Table.mem_update.1 hx
    have helig := h.eligible i hi y hy
    split_ifs at hid ⊢
    · rw [(hkeeps y).1] at hid
      rw [(hkeeps y).2]
      exact helig hid
    · exact helig hid

/-- **A claim keeps the boxes, up to codes whose new winner is still to be applied.** -/
theorem Packing.claimed {env : Env} {D : Uuid} {xs : List Expanded} {x : Expanded} {g : ClaimTarget}
    {s s' : Claiming} (hx : x ∈ xs) (hg : g ∈ x.claims)
    (h : Packing task (pendingIn D xs) s.tables.toRows)
    (hs : ClaimStep task env D x.event g s s') :
    Packing task (pendingIn D xs) s'.tables.toRows := by
  cases hs with
  | fresh scannedAt t hms hnew hrows =>
    have hids := t.kept.scans.resultIds
    have hne : ∀ i ∈ s.tables.items, (g.newResult env D x.event scannedAt).id ≠ i.resultId := by
      intro i hi heq
      obtain ⟨y, hy, hyi⟩ := s.tables.kept.items.members i hi
      rw [hrows, Table.Unique, List.map_append, List.nodup_append] at hids
      exact hids.2.2 y.id (List.mem_map_of_mem hy) _ (List.mem_map_of_mem List.mem_cons_self)
        (hyi.trans heq.symm)
    show Packing task _ t.toRows
    rw [hrows]
    constructor
    · intro b hb
      refine (h.boxes b hb).recode fun i hi y hy hid D' hD => ?_
      rcases List.mem_append.1 hy with hy | hy
      · exact hD y hy hid
      · rw [List.mem_singleton.1 hy] at hid
        exact absurd hid (hne i (mem_activeItems.1 hi).1)
    · exact h.oneOpen
    · exact h.attempted
    · intro i hi y hy hid
      rcases List.mem_append.1 hy with hy | hy
      · exact h.eligible i hi y hy hid
      · rw [List.mem_singleton.1 hy] at hid
        exact absurd hid (hne i hi)
  | displaced current scannedAt t hcurrent hhash hfirst hms hrows =>
    show Packing task _ t.toRows
    have hkeeps : ∀ y : CodeResult, (y.wonBy g env D x.event scannedAt).id = y.id ∧
        (y.wonBy g env D x.event scannedAt).codeHash = y.codeHash := fun _ => ⟨rfl, rfl⟩
    have hpending : ∀ y : CodeResult, y.codeHash = g.codeHash →
        pendingIn D xs (y.wonBy g env D x.event scannedAt) :=
      fun y hy => ⟨rfl, x, hx, rfl, g, hg, hy.symm⟩
    rw [hrows, displacedRows]
    split_ifs
    · exact (h.retired env.now current.id).recode rfl hkeeps hpending
    · exact h.recode rfl hkeeps hpending
  | kept => exact h

/-! ## Repack actions -/

theorem capacity_pos (hkept : r.Kept) {b : RepackBox} (hb : b ∈ r.boxes) : 0 < b.capacity :=
  hkept.boxes.capacity b hb

theorem Packing.removeLast {box : RepackBox} {last : RepackItem} {removedAt : Stamp}
    (h : Packing task pending r) (hkept : r.Kept) (hbox : box ∈ r.boxes)
    (hopen : box.state = .opened) (hlast : last ∈ activeItems r box.id)
    (htop : ∀ i ∈ activeItems r box.id, i.position ≤ last.position) :
    Packing task pending (InventorySync.removeItems (·.id = last.id) removedAt r) := by
  obtain ⟨hl, -, hlbox⟩ := mem_activeItems.1 hlast
  refine h.removeItems fun b hb => ?_
  by_cases hid : b.id = box.id
  · obtain rfl := hkept.boxes.ids.eq hb hbox hid
    refine (h.boxes b hb).removeLast hopen hlast ?_ htop
      (fun i hi hp => hkept.positions_inj hi hlast hp) fun i hi => ?_
    · exact (List.Nodup.of_map _ hkept.items.ids).filter _
    · rw [decide_eq_true_eq]
      exact ⟨fun he => hkept.items.ids.eq (mem_activeItems.1 hi).1 hl he, fun he => he ▸ rfl⟩
  · rw [List.filter_eq_self.2]
    · exact h.boxes b hb
    · intro i hi
      rw [Bool.not_eq_true', decide_eq_false_iff_not]
      intro he
      have hil := hkept.items.ids.eq (mem_activeItems.1 hi).1 hl he
      exact hid ((mem_activeItems.1 hi).2.2.symm.trans (hil ▸ hlbox))

theorem Packing.clear {box : RepackBox} (h : Packing task pending r) (removedAt : Stamp)
    (hkept : r.Kept) (hbox : box ∈ r.boxes)
    (hholds : box.Holds pending r.codeResults [] (attemptsOf r box.id)) :
    Packing task pending (InventorySync.removeItems (·.boxId = box.id) removedAt r) := by
  refine h.removeItems fun b hb => ?_
  by_cases hid : b.id = box.id
  · obtain rfl := hkept.boxes.ids.eq hb hbox hid
    rw [List.filter_eq_nil_iff.2]
    · exact hholds
    · intro i hi
      simpa using (mem_activeItems.1 hi).2.2
  · rw [List.filter_eq_self.2]
    · exact h.boxes b hb
    · intro i hi
      rw [Bool.not_eq_true', decide_eq_false_iff_not, (mem_activeItems.1 hi).2.2]
      exact hid

theorem Packing.open {box : RepackBox} {blocks : List SsccBlock} (h : Packing task pending r)
    (hkept : r.Kept) (hkept' : Rows.Kept { r with boxes := r.boxes ++ [box], ssccBlocks := blocks })
    (hstate : box.state = .opened) (hprints : box.printAttemptCount = 0)
    (hone : ∀ b ∈ r.boxes, b.openOf box.ownerDeviceId = false) :
    Packing task pending { r with boxes := r.boxes ++ [box], ssccBlocks := blocks } := by
  have hnew : ∀ b ∈ r.boxes, b.id ≠ box.id := by
    intro b hb
    have hids := hkept'.boxes.ids
    rw [Table.Unique, List.map_append, List.nodup_append] at hids
    exact hids.2.2 b.id (List.mem_map_of_mem hb) _ (List.mem_map_of_mem List.mem_cons_self)
  have hclosed : ∀ b ∈ r.boxes, b.ownerDeviceId = box.ownerDeviceId → b.state ≠ .opened := by
    intro b hb hown ho
    have hno := hone b hb
    rw [RepackBox.openOf, hown, ho] at hno
    simp at hno
  constructor
  · intro b hb
    rcases List.mem_append.1 hb with hb | hb
    · exact h.boxes b hb
    · obtain rfl := List.mem_singleton.1 hb
      have hempty : activeItems r b.id = [] := by
        rw [List.eq_nil_iff_forall_not_mem]
        intro i hi
        obtain ⟨h1, -, h3⟩ := mem_activeItems.1 hi
        obtain ⟨a, ha, haid, -⟩ := hkept.items.boxDates i h1
        exact hnew a ha (haid.trans h3)
      have hnone : attemptsOf r b.id = 0 := by
        rw [attemptsOf, List.countP_eq_zero]
        intro a ha hid
        obtain ⟨c, hc, hca⟩ := h.attempted a ha
        exact hnew c hc (hca.trans (of_decide_eq_true hid))
      show b.Holds pending r.codeResults (activeItems r b.id) (attemptsOf r b.id)
      rw [hempty, hnone]
      exact .empty hstate (hkept'.boxes.capacity b (List.mem_append_right _ List.mem_cons_self))
        hprints
  · intro b hb b' hb' ho ho' hown
    rcases List.mem_append.1 hb with h1 | h1 <;> rcases List.mem_append.1 hb' with h2 | h2
    · exact h.oneOpen b h1 b' h2 ho ho' hown
    · obtain rfl := List.mem_singleton.1 h2
      exact absurd ho (hclosed b h1 hown)
    · obtain rfl := List.mem_singleton.1 h1
      exact absurd ho' (hclosed b' h2 hown.symm)
    · rw [List.mem_singleton.1 h1, List.mem_singleton.1 h2]
  · intro a ha
    obtain ⟨b, hb, hba⟩ := h.attempted a ha
    exact ⟨b, List.mem_append_left _ hb, hba⟩
  · exact h.eligible

theorem Packing.print {box : RepackBox} {kind : PrintKind} {p : PrintOutcome} {completedAt : Stamp}
    {a : PrintAttempt} (h : Packing task pending r) (hkept : r.Kept) (hbox : box ∈ r.boxes)
    (hnumber : p.attemptNumber = box.printAttemptCount + 1) (ha : a.boxId = box.id) :
    Packing task pending (InventorySync.changeBox box.id (·.afterPrint kind p completedAt)
      { r with printAttempts := r.printAttempts ++ [a] }) := by
  have hcount : ∀ id, attemptsOf (InventorySync.changeBox box.id (·.afterPrint kind p completedAt)
      { r with printAttempts := r.printAttempts ++ [a] }) id =
        attemptsOf r id + if box.id = id then 1 else 0 := by
    intro id
    show (r.printAttempts ++ [a]).countP _ = _
    rw [List.countP_append, List.countP_singleton, ha, attemptsOf]
    simp
  have hids := hkept.boxes.ids
  have hfrom : ∀ b ∈ (InventorySync.changeBox box.id (·.afterPrint kind p completedAt)
      { r with printAttempts := r.printAttempts ++ [a] }).boxes, ∃ c ∈ r.boxes, b.id = c.id ∧
        b.ownerDeviceId = c.ownerDeviceId ∧ b.state = c.state :=
    Table.forall_update_one hids hbox ⟨box, hbox, rfl, rfl, rfl⟩
      fun b hb _ => ⟨b, hb, rfl, rfl, rfl⟩
  constructor
  · refine Table.forall_update_one hids hbox ?_ fun b hb hne => ?_
    · have hb := h.boxes box hbox
      refine ⟨fun ho => hb.opened ho, fun hc => hb.closed hc, fun hne => hb.positions hne,
        fun hne => hb.winners hne, ?_⟩
      rw [hcount]
      show p.attemptNumber = attemptsOf r box.id + if box.id = box.id then 1 else 0
      rw [if_pos rfl, hnumber, hb.prints]
    · rw [hcount, if_neg (Ne.symm hne), Nat.add_zero]
      exact h.boxes b hb
  · intro b hb b' hb' ho ho' hown
    obtain ⟨c, hc, h1, h2, h3⟩ := hfrom b hb
    obtain ⟨c', hc', h4, h5, h6⟩ := hfrom b' hb'
    rw [h1, h4]
    exact h.oneOpen c hc c' hc' (h3.symm.trans ho) (h6.symm.trans ho') (by rw [← h2, ← h5, hown])
  · intro a' ha'
    have hof : ∃ b ∈ r.boxes, b.id = a'.boxId := by
      rcases List.mem_append.1 ha' with ha' | ha'
      · exact h.attempted a' ha'
      · rw [List.mem_singleton.1 ha']
        exact ⟨box, hbox, ha.symm⟩
    obtain ⟨b, hb, hba⟩ := hof
    refine ⟨_, Table.mem_update_of_mem hb, ?_⟩
    split_ifs <;> exact hba
  · exact h.eligible

theorem retired_row (now : Stamp) (resultId : Uuid) {box : RepackBox} (hbox : box ∈ r.boxes) :
    ∃ row ∈ (InventorySync.retired now resultId r).boxes, row.id = box.id ∧
      row.ownerDeviceId = box.ownerDeviceId ∧ row.capacity = box.capacity ∧
      (row = box ∨ row.state = .invalidated ∧ row.invalidatedAt ≠ none) := by
  refine ⟨_, Table.mem_update_of_mem hbox, ?_⟩
  split_ifs
  · exact ⟨rfl, rfl, rfl, .inr ⟨rfl, Option.some_ne_none _⟩⟩
  · exact ⟨rfl, rfl, rfl, .inl rfl⟩

theorem RepackBox.Holds.insert {results : List CodeResult} {items : List RepackItem} {n : ℕ}
    {b b' : RepackBox} {i : RepackItem} (h : b.Holds pending results items n)
    (hopen : b.state = .opened) (hposition : i.position = items.length + 1)
    (hroom : items.length + 1 ≤ b.capacity)
    (hwinner : ∀ x ∈ results, x.id = i.resultId → x.winningDeviceId = b.ownerDeviceId ∨ pending x)
    (howner : b'.ownerDeviceId = b.ownerDeviceId) (hcapacity : b'.capacity = b.capacity)
    (hprints : b'.printAttemptCount = b.printAttemptCount)
    (hstate : b'.state = .opened ∧ items.length + 1 ≠ b.capacity ∨ b'.state = .closed) :
    b'.Holds pending results (items ++ [i]) n := by
  have hne : b.state ≠ .invalidated := by
    rw [hopen]
    exact nofun
  have hlength : (items ++ [i]).length = items.length + 1 := List.length_append
  refine ⟨fun ho => ?_, fun _ => ?_, fun _ j hj => ?_, fun _ j hj x hx hid => ?_,
    hprints.trans h.prints⟩
  · rcases hstate with ⟨-, hfull⟩ | hclosed
    · omega
    · rw [hclosed] at ho
      cases ho
  · omega
  · rw [hlength]
    rcases List.mem_append.1 hj with hj | hj
    · exact (h.positions hne j hj).trans (Nat.le_succ _)
    · rw [List.mem_singleton.1 hj, hposition]
  · rw [howner]
    rcases List.mem_append.1 hj with hj | hj
    · exact h.winners hne j hj x hx hid
    · rw [List.mem_singleton.1 hj] at hid
      exact hwinner x hx hid

theorem Packing.insert {box : RepackBox} {e : Event} {now : Stamp} {i : RepackItem}
    {resultId : Uuid} (h : Packing task pending r) (hkept : r.Kept) (hbox : box ∈ r.boxes)
    (hopen : box.state = .opened) (hi : i.boxId = box.id ∧ i.active = true)
    (hposition : i.position = (activeItems (InventorySync.retired now resultId r) box.id).length + 1)
    (hroom : i.position ≤ box.capacity)
    (hwinner : ∀ x ∈ r.codeResults, x.id = i.resultId →
      x.winningDeviceId = box.ownerDeviceId ∨ pending x)
    (helig : ∀ x ∈ r.codeResults, x.id = i.resultId →
      (task.code x.codeHash).any (·.eligible) = true)
    (hkept' : (inserted e box now i (InventorySync.retired now resultId r)).Kept) :
    Packing task pending (inserted e box now i (InventorySync.retired now resultId r)) := by
  obtain ⟨row, hrow, hrowId, hrowOwner, hrowCapacity, hcases⟩ :=
    retired_row now resultId hbox
  have h1 := h.retired now resultId
  have hids : Table.Unique (·.id) (InventorySync.retired now resultId r).boxes :=
    hkept.boxes.ids.update fun _ _ => rfl
  set r1 := InventorySync.retired now resultId r with hr1
  have hitems : ∀ id, activeItems { r1 with items := r1.items ++ [i] } id =
      activeItems r1 id ++ if box.id = id then [i] else [] := by
    intro id
    rw [activeItems_append, hi.1, hi.2, Bool.true_and]
    congr 1
    split_ifs with h2 h3 h3
    · rfl
    · exact absurd (beq_iff_eq.1 h2) h3
    · exact absurd (beq_iff_eq.2 h3) h2
    · rfl
  have helig' : ∀ j ∈ r1.items ++ [i], ∀ x ∈ r1.codeResults, x.id = j.resultId →
      (task.code x.codeHash).any (·.eligible) = true := by
    intro j hj x hx hid
    rcases List.mem_append.1 hj with hj | hj
    · exact h1.eligible j hj x hx hid
    · rw [List.mem_singleton.1 hj] at hid
      exact helig x hx hid
  have hothers : ∀ b ∈ r1.boxes, b.id ≠ box.id → b.Holds pending r1.codeResults
      (activeItems { r1 with items := r1.items ++ [i] } b.id) (attemptsOf r1 b.id) := by
    intro b hb hne
    rw [hitems, if_neg (Ne.symm hne), List.append_nil]
    exact h1.boxes b hb
  by_cases hfull : i.position = box.capacity
  · have e1 : inserted e box now i r1 =
        InventorySync.changeBox row.id (·.closedBy e i.addedAt now)
          { r1 with items := r1.items ++ [i] } := by
      rw [inserted, if_pos hfull, hrowId]
    rw [e1] at hkept' ⊢
    have hsame : row = box := by
      refine hcases.resolve_right fun hat => hat.2 ?_
      have hmem : row.closedBy e i.addedAt now ∈ (InventorySync.changeBox row.id
          (·.closedBy e i.addedAt now) { r1 with items := r1.items ++ [i] }).boxes := by
        have := Table.mem_update_of_mem (p := fun b : RepackBox => decide (b.id = row.id))
          (f := (·.closedBy e i.addedAt now)) hrow
        rwa [if_pos (by simp)] at this
      exact (hkept'.boxes.lifecycle _ hmem).2.1
    subst hsame
    have hmid : ∀ b ∈ r1.boxes, ∀ b' ∈ r1.boxes, b.state = .opened → b'.state = .opened →
        b.ownerDeviceId = b'.ownerDeviceId → b.id = b'.id := h1.oneOpen
    have hfrom : ∀ b ∈ (InventorySync.changeBox row.id (·.closedBy e i.addedAt now)
        { r1 with items := r1.items ++ [i] }).boxes, b.state = .opened → b ∈ r1.boxes :=
      Table.forall_update_one hids hrow (fun hs => by cases hs) fun b hb _ _ => hb
    constructor
    · refine Table.forall_update_one hids hrow ?_ fun b hb hne => hothers b hb hne
      show (row.closedBy e i.addedAt now).Holds pending r1.codeResults
        (activeItems { r1 with items := r1.items ++ [i] } row.id) (attemptsOf r1 row.id)
      rw [hitems, if_pos rfl]
      exact (h1.boxes row hrow).insert hopen hposition (hposition ▸ hroom) hwinner rfl rfl rfl
        (.inr rfl)
    · intro b hb b' hb' ho ho'
      exact hmid b (hfrom b hb ho) b' (hfrom b' hb' ho') ho ho'
    · intro a ha
      obtain ⟨b, hb, hba⟩ := h1.attempted a ha
      refine ⟨_, Table.mem_update_of_mem hb, ?_⟩
      split_ifs <;> exact hba
    · exact helig'
  · have e1 : inserted e box now i r1 = { r1 with items := r1.items ++ [i] } := by
      rw [inserted, if_neg hfull]
    rw [e1]
    refine ⟨fun b hb => ?_, h1.oneOpen, h1.attempted, helig'⟩
    by_cases hid : b.id = box.id
    · obtain rfl := hids.eq hb hrow (hid.trans hrowId.symm)
      show b.Holds pending r1.codeResults (activeItems { r1 with items := r1.items ++ [i] } b.id)
        (attemptsOf r1 b.id)
      rcases hcases with hsame | ⟨hstate, -⟩
      · subst hsame
        rw [hitems, if_pos rfl]
        exact (h1.boxes b hb).insert hopen hposition (hposition ▸ hroom) hwinner rfl rfl rfl
          (.inl ⟨hopen, fun he => hfull (hposition.trans he)⟩)
      · exact (h1.boxes b hb).invalidate hstate rfl
    · exact hothers b hb hid

def RepackAction.isResolveConflict : RepackAction → Bool
  | .resolveConflict _ => true
  | _ => false

def Event.resolves (e : Event) : Bool := e.repack.any (·.action.isResolveConflict)

/-- **A repack action keeps the boxes.** -/
theorem Packing.acted {env : Env} {D : Uuid} {e : Event} {o : EventOutcome}
    (h : Packing task pending r) (hkept : r.Kept) (hkept' : r'.Kept) (ha : Acted env D e o r r')
    (hfree : e.resolves = true → ∀ b ∈ r.boxes, b.openOf D = false)
    (helig : e.adds = true → ∀ codeHash, e.codeHash = some codeHash →
      (task.code codeHash).any (·.eligible) = true)
    (hmine : ∀ x ∈ r.codeResults, x.firstAcceptedEventId = e.eventId → x.winningDeviceId = D) :
    Packing task pending r' := by
  cases ha with
  | nothing => exact h
  | opened boxId oldSscc newSscc capacity date openedAt blocks hone =>
    exact h.open hkept hkept' rfl rfl hone
  | resolved box resolvedAt hbox howner hstate hsource hcount hresolves =>
    obtain ⟨m, changedAt, hm, haction⟩ := hresolves
    have hno : ∀ b ∈ r.boxes, b.ownerDeviceId = box.ownerDeviceId → b.state ≠ .opened := by
      intro b hb hown ho
      have hres : e.resolves = true := by
        simp [Event.resolves, hm, haction, RepackAction.isResolveConflict]
      have hopen := hfree hres b hb
      rw [RepackBox.openOf, hown, howner, ho] at hopen
      simp at hopen
    have hprints := (h.boxes box hbox).prints
    have hclear := h.clear resolvedAt hkept hbox
      ((h.boxes box hbox).invalidate hstate rfl)
    refine hclear.changeBox hkept.boxes.ids hbox rfl rfl (fun _ => .inr hno) ?_
    have hitems : activeItems (InventorySync.removeItems (·.boxId = box.id) resolvedAt r) box.id =
        [] := by
      rw [activeItems_removeItems, List.filter_eq_nil_iff]
      intro i hi
      simpa using (mem_activeItems.1 hi).2.2
    rw [hitems]
    refine .empty rfl (show 0 < box.capacity from capacity_pos hkept hbox) ?_
    show 0 = attemptsOf r box.id
    rw [← hprints, hcount]
  | printed box kind p attemptedAt completedAt hbox hstate hnumber =>
    exact h.print hkept hbox hnumber rfl
  | added box r' hadds hbox howner hstate hadded =>
    cases hadded with
    | lost =>
      exact h.changeBox hkept.boxes.ids hbox rfl rfl nofun ((h.boxes box hbox).invalidate rfl rfl)
    | member codeHash result mismatch itemId n addedAt hcode hresult hhash hwon hn hroom =>
      have hresult' : ∀ x ∈ r.codeResults, x.id = result.id → x = result :=
        fun x hx hid => hkept.scans.resultIds.eq hx hresult hid
      refine h.insert hkept hbox hstate ⟨rfl, rfl⟩ (by rw [← hn]; rfl) hroom
        (fun x hx hid => .inl ?_) (fun x hx hid => ?_) hkept'
      · rw [hresult' x hx hid, howner]
        exact hwon.elim (·.1) (hmine result hresult)
      · rw [hresult' x hx hid, hhash]
        exact helig hadds codeHash hcode
  | removedLast box last removedAt hbox hstate hlast htop =>
    exact h.removeLast hkept hbox hstate hlast htop
  | cleared box removedAt hbox hstate =>
    exact h.clear _ hkept hbox (.empty hstate (capacity_pos hkept hbox) (h.boxes box hbox).prints)
  | redated box date updatedAt hbox hstate hempty =>
    have hb := h.boxes box hbox
    exact h.changeBox hkept.boxes.ids hbox rfl rfl .inl
      ⟨hb.opened, hb.closed, hb.positions, hb.winners, hb.prints⟩
  | closed box closedAt hbox hstate hsome hroom =>
    have hb := h.boxes box hbox
    have hne : box.state ≠ .invalidated := by
      rw [hstate]
      exact nofun
    exact h.changeBox hkept.boxes.ids hbox rfl rfl nofun
      ⟨nofun, fun _ => ⟨Nat.pos_of_ne_zero hsome, hroom.le⟩, fun _ => hb.positions hne,
        fun _ => hb.winners hne, hb.prints⟩

end

end Markiro.InventorySync
