import Markiro.Host.Run

/-!
# Items and owners

A code is in a box through two tables: the live item of its scan in `box_items` and its row in
`code_owners`. No constraint of the schema ties them together, and a scan, an undo, a cleared box, a
box taken apart and an office document each write both. `Owned` is what their writes keep; it makes
the live item of a code unique over the whole site.
-/

namespace Markiro

open Table (Unique)

structure Owned (scans : List ScanRow) (items : List BoxItemRow) (owners : List CodeOwnerRow) :
    Prop where
  scans_unique : Unique (·.id) scans
  items_unique : Unique (·.scanId) items
  hashes_unique : Unique (·.codeHash) owners
  owners_unique : Unique (·.scanId) owners
  scanned : ∀ i ∈ items, ∃ s ∈ scans, s.id = i.scanId
  owned : ∀ i ∈ items, i.live = true →
    ∃ o ∈ owners, o.codeHash = i.codeHash ∧ o.scanId = i.scanId ∧ o.boxId = some i.boxId
  boxed : ∀ o ∈ owners, ∀ b, o.boxId = some b →
    ∃ i ∈ items, i.live = true ∧ i.scanId = o.scanId ∧ i.boxId = b ∧ i.codeHash = o.codeHash

def Db.Owned (db : Db) : Prop := Markiro.Owned db.scans db.boxItems db.codeOwners

namespace Owned

variable {scans : List ScanRow} {items : List BoxItemRow} {owners : List CodeOwnerRow}

theorem empty : Owned [] [] [] where
  scans_unique := List.nodup_nil
  items_unique := List.nodup_nil
  hashes_unique := List.nodup_nil
  owners_unique := List.nodup_nil
  scanned := by simp
  owned := by simp
  boxed := by simp

/-! ## What the writes keep -/

theorem note {row : ScanRow} (h : Owned scans items owners)
    (hnew : ∀ s ∈ scans, s.id ≠ row.id) : Owned (scans ++ [row]) items owners :=
  { h with
    scans_unique := h.scans_unique.append hnew
    scanned := fun i hi => by
      obtain ⟨s, hs, hid⟩ := h.scanned i hi
      exact ⟨s, List.mem_append_left _ hs, hid⟩ }

theorem perm {owners' : List CodeOwnerRow} (h : Owned scans items owners)
    (hp : owners.Perm owners') : Owned scans items owners' :=
  { h with
    hashes_unique := h.hashes_unique.perm hp
    owners_unique := h.owners_unique.perm hp
    owned := fun i hi hl => by
      obtain ⟨o, ho, hrest⟩ := h.owned i hi hl
      exact ⟨o, hp.mem_iff.1 ho, hrest⟩
    boxed := fun o ho => h.boxed o (hp.mem_iff.2 ho) }

theorem remove {p : BoxItemRow → Bool} {f : BoxItemRow → BoxItemRow} {q : CodeOwnerRow → Bool}
    (h : Owned scans items owners) (hscan : ∀ i, (f i).scanId = i.scanId)
    (hdead : ∀ i, (f i).live = false)
    (hpq : ∀ i ∈ items, i.live = true → ∀ o ∈ owners, o.scanId = i.scanId →
      (q o = true ↔ p i = true)) :
    Owned scans (Table.update p f items) (Table.delete q owners) where
  scans_unique := h.scans_unique
  items_unique := h.items_unique.update fun i _ => hscan i
  hashes_unique := h.hashes_unique.delete
  owners_unique := h.owners_unique.delete
  scanned := by
    intro j hj
    obtain ⟨i, hi, rfl⟩ := Table.mem_update.1 hj
    obtain ⟨s, hs, hid⟩ := h.scanned i hi
    refine ⟨s, hs, hid.trans ?_⟩
    split
    · exact (hscan i).symm
    · rfl
  owned := by
    intro j hj hl
    obtain ⟨i, hi, rfl⟩ := Table.mem_update.1 hj
    by_cases hp : p i = true
    · rw [if_pos hp, hdead] at hl
      cases hl
    · rw [if_neg hp] at hl ⊢
      obtain ⟨o, ho, hhash, hid, hbox⟩ := h.owned i hi hl
      have hq : q o = false := by
        rw [← Bool.not_eq_true, hpq i hi hl o ho hid]
        exact hp
      exact ⟨o, Table.mem_delete.2 ⟨ho, hq⟩, hhash, hid, hbox⟩
  boxed := by
    intro o ho b hb
    obtain ⟨ho, hq⟩ := Table.mem_delete.1 ho
    obtain ⟨i, hi, hl, hid, hbox, hhash⟩ := h.boxed o ho b hb
    have hp : p i = false := by
      rw [← Bool.not_eq_true, ← hpq i hi hl o ho hid.symm, hq]
      exact Bool.false_ne_true
    exact ⟨i, Table.mem_update_of_not hi hp, hl, hid, hbox, hhash⟩

/-- A free code goes to a new scan. -/
theorem claim {row : ScanRow} {hash : String} (h : Owned scans items owners)
    (hnew : ∀ s ∈ scans, s.id ≠ row.id)
    (hfree : ∀ o ∈ owners, o.codeHash ≠ hash ∧ o.scanId ≠ row.id) :
    Owned (scans ++ [row]) (items ++ row.items hash) (owners ++ [row.owner hash]) := by
  have hitems : ∀ i ∈ row.items hash, i.live = true ∧ i.scanId = row.id ∧ i.codeHash = hash ∧
      row.boxId = some i.boxId := by
    intro i hi
    simp only [ScanRow.items, Option.mem_toList, Option.map_eq_some_iff] at hi
    obtain ⟨b, hb, rfl⟩ := hi
    exact ⟨rfl, rfl, rfl, hb⟩
  have hother : ∀ i ∈ items, i.scanId ≠ row.id := by
    intro i hi hid
    obtain ⟨s, hs, hsid⟩ := h.scanned i hi
    exact hnew s hs (hsid.trans hid)
  refine ⟨h.scans_unique.append hnew, ?_, h.hashes_unique.append fun o ho => (hfree o ho).1,
    h.owners_unique.append fun o ho => (hfree o ho).2, ?_, ?_, ?_⟩
  · cases hb : row.boxId with
    | none => simpa [ScanRow.items, hb] using h.items_unique
    | some b =>
      simp only [ScanRow.items, hb, Option.map_some, Option.toList_some]
      exact h.items_unique.append hother
  · intro i hi
    rcases List.mem_append.1 hi with hi | hi
    · exact (h.note hnew).scanned i hi
    · exact ⟨row, by simp, (hitems i hi).2.1.symm⟩
  · intro i hi hl
    rcases List.mem_append.1 hi with hi | hi
    · obtain ⟨o, ho, hrest⟩ := h.owned i hi hl
      exact ⟨o, List.mem_append_left _ ho, hrest⟩
    · obtain ⟨-, hid, hhash, hbox⟩ := hitems i hi
      exact ⟨row.owner hash, by simp, hhash.symm, hid.symm, hbox⟩
  · intro o ho b hb
    rcases List.mem_append.1 ho with ho | ho
    · obtain ⟨i, hi, hrest⟩ := h.boxed o ho b hb
      exact ⟨i, List.mem_append_left _ hi, hrest⟩
    · obtain rfl := List.mem_singleton.1 ho
      refine ⟨⟨row.id, b, hash, row.scannedAt, none, none⟩, ?_, rfl, rfl, rfl, rfl⟩
      refine List.mem_append_right _ ?_
      have hb : row.boxId = some b := hb
      simp [ScanRow.items, hb]

theorem take {row : ScanRow} {hash now : String} {o : CodeOwnerRow}
    (h : Owned scans items owners) (hnew : ∀ s ∈ scans, s.id ≠ row.id) (ho : o ∈ owners)
    (hhash : o.codeHash = hash) (hfree : ∀ x ∈ owners, x.codeHash ≠ hash → x.scanId ≠ row.id) :
    Owned (scans ++ [row]) (displaced o.scanId now items ++ row.items hash)
      (Table.update (fun x => x.codeHash = hash) (fun _ => row.owner hash) owners) := by
  subst hhash
  have hgone : Owned scans (displaced o.scanId now items)
      (Table.delete (fun x => decide (x.codeHash = o.codeHash)) owners) := by
    refine h.remove (fun _ => rfl) (fun i => by simp [BoxItemRow.live]) ?_
    intro i _ hl x hx hid
    simp only [decide_eq_true_eq, hl, and_true]
    constructor
    · intro hc
      rw [← hid, h.hashes_unique.eq hx ho hc]
    · intro hs
      rw [h.owners_unique.eq hx ho (hid.trans hs)]
  have hothers : ∀ x ∈ Table.delete (fun x => decide (x.codeHash = o.codeHash)) owners,
      x.codeHash ≠ o.codeHash ∧ x.scanId ≠ row.id := by
    intro x hx
    obtain ⟨hx, hne⟩ := Table.mem_delete.1 hx
    have hne : x.codeHash ≠ o.codeHash := by simpa using hne
    exact ⟨hne, hfree x hx hne⟩
  refine (hgone.claim hnew hothers).perm ?_
  exact (List.perm_append_singleton _ _).trans
    (h.hashes_unique.perm_update (f := fun _ => row.owner o.codeHash) ho).symm

/-! ## What it says -/

theorem one_live (h : Owned scans items owners) {o : CodeOwnerRow} (ho : o ∈ owners) {b : String}
    (hb : o.boxId = some b) :
    items.countP (fun i =>
      i.live && decide (i.scanId = o.scanId ∧ i.boxId = b ∧ i.codeHash = o.codeHash)) = 1 := by
  obtain ⟨i, hi, hl, hid, hbox, hhash⟩ := h.boxed o ho b hb
  refine h.items_unique.countP_eq_one hi (by simp [hl, hid, hbox, hhash]) ?_
  intro j _ hj
  simp only [Bool.and_eq_true, decide_eq_true_eq] at hj
  exact hj.2.1.trans hid.symm

theorem none_live (h : Owned scans items owners) {o : CodeOwnerRow} (ho : o ∈ owners)
    (hb : o.boxId = none) {i : BoxItemRow} (hi : i ∈ items) (hl : i.live = true) :
    i.scanId ≠ o.scanId ∧ i.codeHash ≠ o.codeHash := by
  obtain ⟨x, hx, hhash, hid, hbox⟩ := h.owned i hi hl
  constructor
  · intro hs
    rw [h.owners_unique.eq hx ho (hid.trans hs), hb] at hbox
    cases hbox
  · intro hc
    rw [h.hashes_unique.eq hx ho (hhash.trans hc), hb] at hbox
    cases hbox

theorem live_le_one (h : Owned scans items owners) (hash : String) :
    items.countP (fun i => i.live && decide (i.codeHash = hash)) ≤ 1 := by
  refine h.items_unique.countP_le_one fun i hi j hj hpi hpj => ?_
  simp only [Bool.and_eq_true, decide_eq_true_eq] at hpi hpj
  obtain ⟨x, hx, hxc, hxs, -⟩ := h.owned i hi hpi.1
  obtain ⟨y, hy, hyc, hys, -⟩ := h.owned j hj hpj.1
  have hxy : x = y := h.hashes_unique.eq hx hy (by rw [hxc, hyc, hpi.2, hpj.2])
  exact hxs.symm.trans (hxy ▸ hys)

end Owned

/-! ## Every run -/

section

variable {k : Crates} {now : String} {row : ScanRow} {db db' : Db}

theorem Scanned.owned (h : Scanned k now row db db') (hi : db.Owned) : db'.Owned := by
  cases h with
  | noted _ hnew => exact Owned.note hi fun s hs => (hnew.fresh s hs).1
  | imported _ _ _ _ hnew => exact Owned.note hi fun s hs => (hnew.fresh s hs).1
  | late _ _ _ _ _ hnew => exact Owned.note hi fun s hs => (hnew.fresh s hs).1
  | took hash id o _ _ hnew ho _ _ hfree _ =>
    refine Owned.take hi (fun s hs => (hnew.fresh s hs).1) (List.mem_of_find?_eq_some ho) ?_ hfree
    simpa using List.find?_some ho
  | claimed hash _ _ hnew hfree _ =>
    exact Owned.claim hi (fun s hs => (hnew.fresh s hs).1) hfree

theorem Written.owned (h : Written k now db db') (hi : db.Owned) : db'.Owned := by
  cases h with
  | takeOut instant scanId =>
    refine Owned.remove hi (fun _ => rfl) (fun i => by simp [BoxItemRow.live]) ?_
    intro i _ _ o _ hid
    simp [hid]
  | emptyBox boxId instant =>
    refine Owned.remove hi (fun _ => rfl) (fun i => by simp [BoxItemRow.live]) ?_
    intro i hmem hl o _ hid
    simp only [List.any_eq_true, decide_eq_true_eq, hl, and_true]
    constructor
    · rintro ⟨j, hj, hbox, -, hs⟩
      rwa [← hi.items_unique.eq hj hmem (hs.trans hid)]
    · intro hbox
      exact ⟨i, hmem, hbox, hl, hid.symm⟩
  | closePallet ctx c =>
    rw [Db.closePallet]
    split <;> exact hi
  | _ => exact hi

theorem Change.owned (h : Change k now db db') (hi : db.Owned) : db'.Owned := by
  cases h with
  | scanned h => exact h.owned hi
  | written h => exact h.owned hi
  | filed h => cases h <;> exact hi

end

/-- **A live item and an owner with a box are the same thing.** From empty registry tables, after
every run of requests: a live item has its owner row, an owner with a box has exactly one live item
and one without a box has none, and a code has at most one live item in the whole site. -/
theorem live_items_are_owned (k : Crates) (db : Db) (calls : List Call) :
    let s := run k { db with scans := [], boxes := [], boxItems := [], codeOwners := [] } calls
    (∀ i ∈ s.boxItems, i.live = true →
      ∃ o ∈ s.codeOwners, o.codeHash = i.codeHash ∧ o.scanId = i.scanId ∧
        o.boxId = some i.boxId) ∧
    (∀ o ∈ s.codeOwners, ∀ b, o.boxId = some b →
      s.boxItems.countP (fun i =>
        i.live && decide (i.scanId = o.scanId ∧ i.boxId = b ∧ i.codeHash = o.codeHash)) = 1) ∧
    (∀ o ∈ s.codeOwners, o.boxId = none → ∀ i ∈ s.boxItems, i.live = true →
      i.scanId ≠ o.scanId ∧ i.codeHash ≠ o.codeHash) ∧
    ∀ hash, s.boxItems.countP (fun i => i.live && decide (i.codeHash = hash)) ≤ 1 := by
  intro s
  have h : s.Owned := by
    refine run_invariant (P := Db.Owned) Change.owned ?_ calls
    exact Owned.empty
  refine ⟨h.owned, ?_, ?_, ?_⟩
  · intro o ho b hb
    exact Owned.one_live h ho hb
  · intro o ho hb i hi hl
    exact Owned.none_live h ho hb hi hl
  · intro hash
    exact Owned.live_le_one h hash

end Markiro
