import Markiro.Host.Changes

/-!
# The facts, change by change

Each fact's handler, when it answers, made a sequence of the changes of `Changes`: a scan opened its
box, if it was new, and wrote its row with its claim (`scanApply_scanned`); any other fact wrote no
scan (`handler_writes`). The checks of the handlers become the conditions of the changes.
-/

namespace Markiro

open Txn

variable {k : Crates} {env : Env} {ctx : Context} {data : Json} {a : Applied} {b b' : Batch}
  {u : Unit}

/-! ## Scans -/

theorem owner_some {hash : String} {w : Owner} {db : Db} (h : db.owner hash = some w) :
    (db.cloud.completedOwner hash ≠ none ∧ w.scanId = none) ∨
      ∃ o, db.codeOwners.find? (fun o => o.codeHash = hash) = some o ∧
        w.scanId = some o.scanId ∧ w.scannedAt = o.scannedAt := by
  unfold Db.owner at h
  split at h
  next cloud hc =>
    obtain rfl := Option.some.inj h
    exact .inl ⟨by simp [hc], rfl⟩
  next hc =>
    simp only [Db.nativeOwner, Option.bind_eq_bind, Option.bind_eq_some_iff] at h
    obtain ⟨o, ho, s, -, h⟩ := h
    obtain rfl := Option.some.inj h
    exact .inr ⟨o, ho, rfl, rfl⟩

theorem putInBox_done {c : Claim} :
    putInBox c b = .done u b' ↔
      (∀ boxId, c.boxId = some boxId → (∀ i ∈ b.db.boxItems, i.scanId ≠ c.scanId) ∧
        ∀ i ∈ b.db.boxItems, i.live = true → ¬(i.boxId = boxId ∧ i.codeHash = c.codeHash)) ∧
      { b with db := { b.db with
        boxItems := b.db.boxItems ++ (c.boxId.map c.item).toList } } = b' := by
  unfold putInBox
  cases hc : c.boxId with
  | none => simp
  | some boxId => simp

theorem conflictRow_done {hash winner loser t : String} {kind : ConflictKind} :
    conflictRow env hash winner loser kind t b = .done u b' ↔
      (∀ x ∈ b.db.codeConflicts, x.id ≠ env.uuids b.drawn) ∧
      { b with
        db := { b.db with codeConflicts :=
          b.db.codeConflicts ++ [⟨env.uuids b.drawn, hash, winner, loser, kind, t⟩] }
        drawn := b.drawn + 1 } = b' := by
  simp [conflictRow]

theorem cloudConflict_done {c : Claim} (h : cloudConflict env ctx c b = .done u b') :
    ∃ conflicts, b'.db = { b.db with cloud := { b.db.cloud with conflicts } } := by
  simp only [cloudConflict, bind_done, newUuid_done, execute_done] at h
  obtain ⟨_, _, ⟨-, rfl⟩, rfl⟩ := h
  cases b.db.cloud.owners.find? fun o => o.hash = c.codeHash ∧ o.releasedAt = none with
  | none => exact ⟨_, rfl⟩
  | some o => exact ⟨_, rfl⟩

def ScanRow.claim (row : ScanRow) (hash : String) : Claim :=
  ⟨row.id, hash, row.boxId, row.scannedAt⟩

theorem claim_scanned {row : ScanRow} {hash : String} {db : Db} (hok : row.verdict = .ok)
    (hhash : row.codeHash = some hash) (hnew : NewScan k row db)
    (hctx : row.shiftId = ctx.shift.id ∧ row.deviceId = ctx.deviceId)
    (hdb : b.db = { db with scans := db.scans ++ [row] })
    (h : claim env ctx (row.claim hash) b = .done a b') :
    Scanned k ctx.receivedAt row db b'.db ∧ a.close = none := by
  have howner : (row.claim hash).ownerRow ctx = row.owner hash := by
    simp [Claim.ownerRow, ScanRow.claim, ScanRow.owner, hctx]
  have hitems : ((row.claim hash).boxId.map (row.claim hash).item).toList = row.items hash := rfl
  simp only [claim, bind_done, select_done] at h
  obtain ⟨o, t, ⟨ho, rfl⟩, h⟩ := h
  cases o with
  | none =>
    simp only [bind_done, insert_done, putInBox_done, pure_done] at h
    obtain ⟨_, _, ⟨hfree, rfl⟩, _, _, ⟨hfit, rfl⟩, rfl, rfl⟩ := h
    simp only [hdb, howner, hitems] at hfree hfit ⊢
    exact ⟨.claimed hash hok hhash hnew hfree hfit, rfl⟩
  | some w =>
    rcases owner_some ho with ⟨hc, hw⟩ | ⟨o, ho', hw, hat⟩
    · simp only [hw, bind_done, pure_done] at h
      obtain ⟨_, t, ht, rfl, rfl⟩ := h
      obtain ⟨conflicts, hconf⟩ := cloudConflict_done ht
      rw [hconf, hdb]
      exact ⟨.imported hash conflicts hok hhash hnew (by simpa [hdb, ScanRow.claim] using hc), rfl⟩
    · simp only [hdb, ScanRow.claim] at ho'
      simp only [hw] at h
      split at h
      next hle =>
        simp only [bind_done, conflictRow_done, pure_done] at h
        obtain ⟨_, _, ⟨hid, rfl⟩, rfl, rfl⟩ := h
        simp only [hdb] at hid ⊢
        exact ⟨.late hash _ o hok hhash hnew ho' (hat ▸ hle) hid, rfl⟩
      next hlt =>
        simp only [bind_done, execute_done, conflictRow_done, insert_done, putInBox_done, pure_done]
          at h
        obtain ⟨_, _, rfl, _, _, ⟨hid, rfl⟩, _, _, ⟨hfree, rfl⟩, _, _, ⟨hfit, rfl⟩, rfl, rfl⟩ := h
        simp only [hdb, howner, hitems] at hid hfree hfit ⊢
        exact ⟨.took hash _ o hok hhash hnew ho' (hat ▸ not_le.1 hlt) hid hfree hfit, rfl⟩

theorem openBox_beside {boxId t : String} (hctx : ctx.Entered b.db)
    (h : openBox ctx boxId t b = .done u b') :
    Beside k ctx.receivedAt b.db b'.db ∧ ctx.Entered b'.db ∧
      ∃ x ∈ b'.db.boxes, x.id = boxId ∧ x.shiftId = ctx.shift.id ∧ x.deviceId = ctx.deviceId := by
  simp only [openBox, bind_done] at h
  obtain ⟨o, t, ho, h⟩ := h
  obtain ⟨rfl, -, -, hrow⟩ := findBox_done ho
  cases o with
  | some x =>
    simp only [require_done] at h
    obtain ⟨-, rfl⟩ := h
    obtain ⟨hx, hid, hs, hd⟩ := hrow x rfl
    exact ⟨.refl, hctx, x, hx, hid, hs, hd⟩
  | none =>
    simp only [insert_done] at h
    obtain ⟨hfree, rfl⟩ := h
    refine ⟨Written.beside (.openBox _ ⟨rfl, rfl, rfl, rfl, rfl, rfl⟩ hfree hctx.worked) rfl,
      hctx, ?_⟩
    exact ⟨_, List.mem_append_right _ (List.mem_singleton_self _), rfl, rfl, rfl⟩

theorem accept_done {scan : ScanFact} {code : Option ScannedCode} (hctx : ctx.Entered b.db)
    (h : scan.accept ctx b = .done code b') :
    Beside k ctx.receivedAt b.db b'.db ∧ ctx.Entered b'.db ∧
      (code = none → scan.verdict ≠ .ok ∨ scan.code = none) ∧
      ∀ c, code = some c → scan.verdict = .ok ∧ scan.code = some c ∧
        ∀ id, scan.boxId = some id →
          ∃ x ∈ b'.db.boxes, x.id = id ∧ x.shiftId = ctx.shift.id ∧ x.deviceId = ctx.deviceId := by
  unfold ScanFact.accept at h
  cases hcode : scan.code with
  | none =>
    simp only [hcode, pure_done] at h
    obtain ⟨rfl, rfl⟩ := h
    exact ⟨.refl, hctx, fun _ => .inr rfl, by simp⟩
  | some c =>
    simp only [hcode] at h
    split at h
    next hok =>
      simp only [bind_done, require_done, forSome_done, pure_done] at h
      obtain ⟨_, _, ⟨-, rfl⟩, _, t, hbox, rfl, rfl⟩ := h
      rcases hbox with ⟨boxId, hid, hbox⟩ | ⟨hid, rfl⟩
      · obtain ⟨hw, he, hx⟩ := openBox_beside hctx hbox
        refine ⟨hw, he, by simp, ?_⟩
        rintro _ ⟨⟩
        refine ⟨hok, rfl, fun id h => ?_⟩
        obtain rfl : boxId = id := Option.some.inj (hid.symm.trans h)
        exact hx
      · refine ⟨.refl, hctx, by simp, ?_⟩
        rintro _ ⟨⟩
        exact ⟨hok, rfl, fun id h => by simp [hid] at h⟩
    next hok =>
      simp only [pure_done] at h
      obtain ⟨rfl, rfl⟩ := h
      exact ⟨.refl, hctx, fun _ => .inl hok, by simp⟩

theorem scan_check_ok {scan : ScanFact} {mode : ShiftMode} (h : scan.check k mode = .ok u) :
    (deviceInstant k scan.scannedAt).isSome = true ∧
      (scan.code = none → scan.verdict ≠ .ok) ∧
      ∀ id, scan.boxId = some id → scan.verdict = .ok := by
  simp only [ScanFact.check, except_bind_ok, ensure_ok] at h
  obtain ⟨_, ht, _, -, _, hcode, _, -, _, hbox, -⟩ := h
  refine ⟨ht, fun hn hok => by simp [hn, hok] at hcode, fun id hid => ?_⟩
  simp only [hid, Bool.and_eq_true, decide_eq_true_eq] at hbox
  exact hbox.1.1

/-- **A scan that is answered opened its box, if it had to, and wrote its row with its claim.** -/
theorem scanApply_scanned (hctx : ctx.Entered b.db) (h : scanApply k env ctx data b = .done a b') :
    ∃ db row, Beside k ctx.receivedAt b.db db ∧ Scanned k ctx.receivedAt row db b'.db ∧
      row.deviceId = ctx.deviceId ∧ row.recordId = ctx.recordId ∧ a.close = none := by
  simp only [scanApply, bind_done, orRefuse_done, check_done, newUuid_done, insertScan, insert_done]
    at h
  obtain ⟨scan, _, ⟨-, rfl⟩, _, _, ⟨hcheck, rfl⟩, code, t, hcode, id, _, ⟨rfl, rfl⟩, _, _,
    ⟨hfresh, rfl⟩, h⟩ := h
  obtain ⟨hinstant, hnocode, hboxed⟩ := scan_check_ok hcheck
  obtain ⟨hw, hctx', hnone, hsome⟩ := accept_done (k := k) hctx hcode
  have hnew (hbox : ∀ id, scan.boxId = some id → ∃ x ∈ t.db.boxes, x.id = id ∧
      x.shiftId = ctx.shift.id ∧ x.deviceId = ctx.deviceId) :
      NewScan k (scan.row ctx (env.uuids t.drawn)) t.db :=
    ⟨hfresh, hctx'.worked, hbox, hinstant⟩
  refine ⟨t.db, scan.row ctx (env.uuids t.drawn), hw, ?_⟩
  cases code with
  | none =>
    simp only [pure_done] at h
    obtain ⟨rfl, rfl⟩ := h
    have hok : scan.verdict ≠ .ok := (hnone rfl).elim id hnocode
    exact ⟨.noted hok (hnew fun id hid => absurd (hboxed id hid) hok), rfl, rfl, rfl⟩
  | some code =>
    obtain ⟨hok, hc, hbox⟩ := hsome code rfl
    have hhash : (scan.row ctx (env.uuids t.drawn)).codeHash = some code.codeHash := by
      simp [ScanFact.row, hc]
    obtain ⟨hs, ha⟩ := claim_scanned hok hhash (hnew hbox) ⟨rfl, rfl⟩ rfl h
    exact ⟨hs, rfl, rfl, ha⟩

/-! ## Boxes -/

theorem takeOutAll_writes {t now : String} {ids : List String}
    (h : takeOutAll t ids b = .done u b') : Writes k now b.db b'.db := by
  induction ids generalizing b with
  | nil =>
    simp only [takeOutAll, pure_done] at h
    rw [← h.2]
    exact .refl
  | cons id rest ih =>
    simp only [takeOutAll, bind_done, execute_done] at h
    obtain ⟨_, _, rfl, h⟩ := h
    exact (ih h).head (.takeOut t id)

theorem exceptionApply_writes (h : exceptionApply k env ctx data b = .done a b') :
    Writes k ctx.receivedAt b.db b'.db ∧ a.close = none := by
  simp only [exceptionApply, bind_done, orRefuse_done, require_done, pure_done, execute_done,
    check_done, select_done, onlyIf_done, newUuid_done, insert_done] at h
  obtain ⟨e, _, ⟨-, rfl⟩, _, _, ⟨-, rfl⟩, _, _, ho, x, _, ⟨rfl, rfl⟩, _, _, ⟨-, rfl⟩, _, _,
    ⟨rfl, rfl⟩, _, t, ht, _, t', ht', _, _, ⟨-, rfl⟩, _, _, ⟨-, rfl⟩, rfl, rfl⟩ := h
  obtain ⟨rfl, -⟩ := findBox_done ho
  have htaken : Writes k ctx.receivedAt _ _ := takeOutAll_writes ht
  rcases ht' with ⟨-, rfl⟩ | ⟨-, rfl⟩
  · refine ⟨(htaken.tail (.disassembleBox e.boxId e.occurredAt _ ?_)).tail (.aside le_rfl), rfl⟩
    exact fun y hy => by simpa using hy
  · exact ⟨htaken.tail (.aside le_rfl), rfl⟩

theorem newPallet_done {o o' : Option String} (h : newPallet ctx o b = .done o' b') :
    b' = b ∧ (∀ id, o' = some id → o = some id) ∧
      ∀ id, o = some id → o' = some id ∨ ∃ p ∈ b.db.pallets, p.id = id := by
  cases o with
  | none =>
    simp only [newPallet, pure_done] at h
    obtain ⟨rfl, rfl⟩ := h
    exact ⟨rfl, by simp, by simp⟩
  | some id =>
    simp only [newPallet, bind_done, pure_done] at h
    obtain ⟨found, _, hf, rfl, rfl⟩ := h
    obtain ⟨rfl, -, -, hrow⟩ := findPallet_done hf
    cases found with
    | none => exact ⟨rfl, fun _ h => h, fun _ h => .inl h⟩
    | some p =>
      refine ⟨rfl, by simp, ?_⟩
      rintro _ ⟨⟩
      exact .inr ⟨p, (hrow p rfl).1, (hrow p rfl).2.1⟩

theorem any_issuedTo {deviceId issuer blockId : String} {extension serial : ℕ}
    {blocks : List BlockRow}
    (h : blocks.any (BlockRow.issuedTo deviceId issuer blockId extension serial) = true) :
    ∃ x ∈ blocks, x.issuedTo deviceId issuer blockId extension serial = true := by
  simpa using h

theorem closeNewBox_writes {c : BoxClosedFact} {x : BoxRow} (hctx : ctx.Entered b.db)
    (hd : digits 18 c.sscc = true)
    (hx : b.db.boxes.find? (fun x => x.id = c.boxId) = some x) (hs : x.shiftId = ctx.shift.id)
    (hdev : x.deviceId = ctx.deviceId) (hopen : x.sscc = none)
    (h : closeNewBox k ctx c b = .done a b') :
    Writes k ctx.receivedAt b.db b'.db ∧ a.close = none := by
  simp only [closeNewBox, issued, issuedTo, bind_done, select_done, require_done, forSome_done,
    openPallet, insert_done, execute_done, pure_done] at h
  obtain ⟨_, _, ⟨rfl, rfl⟩, _, _, ⟨⟨hnames, hissued⟩, rfl⟩, _, _, ⟨rfl, rfl⟩, _, _,
    ⟨htaken, rfl⟩, opens, _, hp, _, _, ⟨rfl, rfl⟩, _, t, ht, _, _, ⟨-, rfl⟩, _, _, rfl, _, _, rfl,
    rfl, rfl⟩ := h
  have hissued' : b.db.Issued ctx.deviceId c.sscc c.blockId 0 c.serial :=
    ⟨_, hnames, any_issuedTo hissued⟩
  rw [Bool.or_eq_false_iff] at htaken
  obtain ⟨rfl, hold, hnew⟩ := newPallet_done hp
  rcases ht with ⟨id, rfl, hfree, rfl⟩ | ⟨rfl, rfl⟩
  · refine ⟨Relation.ReflTransGen.head (.openPallet ctx id c.closedAt hctx hfree)
      (.single (.closeBox ctx c _ x hctx hd hx hs hdev hopen hissued' htaken.1 ?_)), rfl⟩
    intro id' hid'
    obtain rfl : id = id' := Option.some.inj ((hold id rfl).symm.trans hid')
    exact ⟨_, List.mem_append_right _ (List.mem_singleton_self _), rfl⟩
  · refine ⟨.single (.closeBox ctx c _ x hctx hd hx hs hdev hopen hissued' htaken.1 ?_), rfl⟩
    exact fun id hid => (hnew id hid).resolve_left (by simp)

theorem boxClosed_check_ok {c : BoxClosedFact} (h : c.check k = .ok u) :
    digits 18 c.sscc = true := by
  simp only [BoxClosedFact.check, except_bind_ok, ensure_ok] at h
  obtain ⟨_, -, _, -, _, -, _, -, _, hd, -⟩ := h
  exact hd

theorem boxClosedApply_writes (hctx : ctx.Entered b.db)
    (h : boxClosedApply k ctx data b = .done a b') :
    Writes k ctx.receivedAt b.db b'.db ∧ a.close = none := by
  simp only [boxClosedApply, requirePallets, bind_done, orRefuse_done, check_done, require_done,
    forSome_done] at h
  obtain ⟨c, _, ⟨-, rfl⟩, _, _, ⟨hc, rfl⟩, _, _, ⟨-, rfl⟩, _, t, ht, o, _, ho, x, _, ⟨rfl, rfl⟩,
    h⟩ := h
  obtain rfl : b = t := by
    rcases ht with ⟨_, -, -, rfl⟩ | ⟨-, rfl⟩ <;> rfl
  obtain ⟨rfl, -, hfind, hrow⟩ := findBox_done ho
  obtain ⟨-, -, hs, hdev⟩ := hrow x rfl
  cases hsscc : x.sscc with
  | some sscc =>
    simp only [hsscc, bind_done, require_done, pure_done] at h
    obtain ⟨_, _, ⟨-, rfl⟩, rfl, rfl⟩ := h
    exact ⟨.refl, rfl⟩
  | none =>
    simp only [hsscc] at h
    exact closeNewBox_writes hctx (boxClosed_check_ok hc) hfind hs hdev hsscc h

theorem boxLabelApply_writes (h : boxLabelApply k ctx data b = .done a b') :
    Writes k ctx.receivedAt b.db b'.db ∧ a.close = none := by
  simp only [boxLabelApply, bind_done, orRefuse_done, require_done, execute_done, pure_done] at h
  obtain ⟨l, _, ⟨-, rfl⟩, _, _, ⟨-, rfl⟩, _, _, ⟨-, rfl⟩, _, _, ho, x, _, ⟨rfl, rfl⟩, _, _,
    ⟨-, rfl⟩, _, _, rfl, rfl, rfl⟩ := h
  obtain ⟨rfl, -⟩ := findBox_done ho
  exact ⟨.single (.labelBox l), rfl⟩

/-! ## Pallets -/

theorem palletLabelApply_writes (h : palletLabelApply k ctx data b = .done a b') :
    Writes k ctx.receivedAt b.db b'.db ∧ a.close = none := by
  simp only [palletLabelApply, requirePallets, bind_done, orRefuse_done, require_done, execute_done,
    pure_done] at h
  obtain ⟨l, _, ⟨-, rfl⟩, _, _, ⟨-, rfl⟩, _, _, ⟨-, rfl⟩, _, _, ⟨-, rfl⟩, _, _, ho, x, _,
    ⟨rfl, rfl⟩, _, _, ⟨-, rfl⟩, _, _, rfl, rfl, rfl⟩ := h
  obtain ⟨rfl, -⟩ := findPallet_done ho
  exact ⟨.single (.labelPallet l), rfl⟩

theorem closeNewPallet_writes {c : PalletClosedFact} (hctx : ctx.Entered b.db)
    (hx : ∀ x, b.db.pallets.find? (fun x => x.id = c.palletId) = some x →
      x.shiftId = ctx.shift.id ∧ x.deviceId = ctx.deviceId ∧ x.sscc = none)
    (h : closeNewPallet ctx c b = .done a b') :
    Writes k ctx.receivedAt b.db b'.db ∧ a.close = none := by
  simp only [closeNewPallet, issued, issuedTo, bind_done, select_done, require_done, execute_done,
    pure_done] at h
  obtain ⟨_, _, ⟨rfl, rfl⟩, _, _, ⟨⟨hnames, hissued⟩, rfl⟩, _, _, ⟨rfl, rfl⟩, _, _,
    ⟨htaken, rfl⟩, _, _, rfl, _, _, rfl, _, _, rfl, rfl, rfl⟩ := h
  simp only [Bool.or_eq_false_iff] at htaken
  have hissued' : b.db.Issued ctx.deviceId c.sscc c.blockId 1 c.serial :=
    ⟨_, hnames, any_issuedTo hissued⟩
  exact ⟨.single (.closePallet ctx c hctx hx hissued' htaken.1.1 htaken.1.2), rfl⟩

theorem palletClosedApply_writes (hctx : ctx.Entered b.db)
    (h : palletClosedApply k ctx data b = .done a b') :
    Writes k ctx.receivedAt b.db b'.db ∧ a.close = none := by
  simp only [palletClosedApply, requirePallets, bind_done, orRefuse_done, check_done, require_done]
    at h
  obtain ⟨c, _, ⟨-, rfl⟩, _, _, ⟨-, rfl⟩, _, _, ⟨-, rfl⟩, _, _, ⟨-, rfl⟩, found, _, ho, h⟩ := h
  obtain ⟨rfl, -, hfind, hrow⟩ := findPallet_done ho
  cases hsscc : found.bind (·.sscc) with
  | some sscc =>
    simp only [hsscc, bind_done, require_done, pure_done] at h
    obtain ⟨_, _, ⟨-, rfl⟩, rfl, rfl⟩ := h
    exact ⟨.refl, rfl⟩
  | none =>
    simp only [hsscc] at h
    refine closeNewPallet_writes hctx (fun x hx => ?_) h
    obtain rfl := hfind.symm.trans hx
    obtain ⟨-, -, hs, hdev⟩ := hrow x rfl
    exact ⟨hs, hdev, by simpa using hsscc⟩

theorem palletExceptionApply_writes (h : palletExceptionApply k env ctx data b = .done a b') :
    Writes k ctx.receivedAt b.db b'.db ∧ a.close = none := by
  simp only [palletExceptionApply, requirePallets, bind_done, orRefuse_done, check_done,
    require_done, onlyIf_done, execute_done, newUuid_done, insert_done, pure_done] at h
  obtain ⟨e, _, ⟨-, rfl⟩, _, _, ⟨-, rfl⟩, _, _, ⟨-, rfl⟩, _, _, ho, x, _, ⟨rfl, rfl⟩, _, _,
    ⟨-, rfl⟩, _, t, ht, _, _, ⟨-, rfl⟩, _, _, ⟨-, rfl⟩, rfl, rfl⟩ := h
  obtain ⟨rfl, -⟩ := findPallet_done ho
  rcases ht with ⟨-, rfl⟩ | ⟨-, rfl⟩
  · refine ⟨Relation.ReflTransGen.head (.disassemblePallet e.palletId e.occurredAt _ ?_)
      (.single (.aside le_rfl)), rfl⟩
    exact fun y hy => by simpa using hy
  · exact ⟨.single (.aside le_rfl), rfl⟩

/-! ## Labels of units and closes of parts -/

theorem unitLabelApply_writes (h : unitLabelApply k env ctx data b = .done a b') :
    Writes k ctx.receivedAt b.db b'.db ∧ a.close = none := by
  simp only [unitLabelApply, bind_done, orRefuse_done, check_done, require_done, select_done,
    forSome_done, newUuid_done, insert_done, pure_done] at h
  obtain ⟨f, _, ⟨-, rfl⟩, _, _, ⟨-, rfl⟩, _, _, ⟨-, rfl⟩, _, _, ⟨-, rfl⟩, _, _, ⟨-, rfl⟩, _, _,
    ⟨-, rfl⟩, _, t, ht, _, _, ⟨-, rfl⟩, _, _, ⟨-, rfl⟩, rfl, rfl⟩ := h
  obtain rfl : b = t := by
    rcases ht with ⟨_, -, -, rfl⟩ | ⟨-, rfl⟩ <;> rfl
  exact ⟨.single (.aside le_rfl), rfl⟩

theorem closing_part {c : Bool} {db : Db} (h : db.closing ctx = .part c) :
    ctx.shift.status = .active ∧ ctx.shift.myState ≠ .closed ∧
      (c = true ↔ db.openOthers ctx.shift.id ctx.deviceId = 0) := by
  unfold Db.closing at h
  split at h
  · cases h
  next hs =>
    cases hm : ctx.shift.myState <;> simp_all [decideClose] <;> simp [← h]

theorem closingAccepted_done {closing : Closing} {ever n : ℕ}
    (h : closingAccepted ctx closing ever b = .done n b') : b' = b :=
  (silent_closingAccepted closing ever).2 _ _ _ h

theorem shiftClosedApply_writes (h : shiftClosedApply k env ctx data b = .done a b') :
    Writes k ctx.receivedAt b.db b'.db ∧ b'.db.shifts = b.db.shifts ∧
      b'.db.participants = b.db.participants ∧
      ∀ c, a.close = some c → ctx.Closes k c b'.db := by
  simp only [shiftClosedApply, bind_done, orRefuse_done, check_done, require_done, select_done,
    newUuid_done, insert_done] at h
  obtain ⟨c, _, ⟨-, rfl⟩, moment, _, ⟨hm, rfl⟩, _, _, ⟨-, rfl⟩, ever, _, ⟨-, rfl⟩, closing, _,
    ⟨hclosing, rfl⟩, _, t, ht, _, _, ⟨-, rfl⟩, _, _, ⟨-, rfl⟩, _, _, ⟨-, rfl⟩, h⟩ := h
  obtain rfl := closingAccepted_done ht
  cases closing with
  | shiftClosed =>
    simp only [pure_done] at h
    obtain ⟨rfl, rfl⟩ := h
    exact ⟨.single (.aside le_rfl), rfl, rfl, by simp⟩
  | partClosedBefore =>
    simp only [pure_done] at h
    obtain ⟨rfl, rfl⟩ := h
    exact ⟨.single (.aside le_rfl), rfl, rfl, by simp⟩
  | part closesShift =>
    simp only [pure_done] at h
    obtain ⟨rfl, rfl⟩ := h
    refine ⟨.single (.aside le_rfl), rfl, rfl, ?_⟩
    rintro _ ⟨⟩
    obtain ⟨hs, hmine, hlast⟩ := closing_part hclosing
    refine ⟨hs, hmine, hlast, moment, ?_, rfl⟩
    rw [deviceInstant_atMilli hm]
    rfl

/-! ## What the batch writes -/

theorem batchRevision_done {n : ℕ} (h : batchRevision b = .done n b') :
    ∃ revision, b.db.revision ≤ revision ∧ b'.db = { b.db with revision } := by
  simp only [batchRevision, bind_done, query_done] at h
  obtain ⟨o, _, ⟨-, rfl⟩, h⟩ := h
  cases o with
  | some rev =>
    simp only [pure_done] at h
    obtain ⟨-, rfl⟩ := h
    exact ⟨_, le_rfl, rfl⟩
  | none =>
    simp only [bind_done, nextRevision_done, write_done, pure_done] at h
    obtain ⟨_, _, ⟨-, rfl⟩, _, _, rfl, -, rfl⟩ := h
    exact ⟨_, Nat.le_succ _, rfl⟩

theorem updateParticipant_done {shiftId deviceId : String} {expected : ParticipantRow → Bool}
    {f : ParticipantRow → ParticipantRow}
    (h : updateParticipant shiftId deviceId expected f b = .done u b') :
    b'.db = { b.db with
      participants := Table.update (fun p => p.is shiftId deviceId && expected p) f
        b.db.participants } := by
  simp only [updateParticipant, bind_done, select_done, assert_done, execute_done] at h
  obtain ⟨_, _, ⟨-, rfl⟩, _, _, ⟨-, rfl⟩, rfl⟩ := h
  rfl

theorem closePart_beside {c : CloseShift} (hctx : ctx.Entered b.db) (hc : ctx.Closes k c b.db)
    (h : closePart k ctx c b = .done u b') : Beside k ctx.receivedAt b.db b'.db := by
  simp only [closePart, bind_done] at h
  obtain ⟨rev, t, hrev, _, t', hclose, h⟩ := h
  obtain ⟨revision, hle, ht⟩ := batchRevision_done hrev
  have ht' := updateParticipant_done hclose
  refine .head (.revised hle) rfl ?_
  rw [ht] at ht'
  split at h
  next hpart =>
    simp only [bind_done, execute_done, record_done] at h
    obtain ⟨_, _, rfl, rfl⟩ := h
    simp only [ht']
    refine .head (.closePart ctx c hctx ⟨hc.1, hc.2, hc.3, hc.4⟩ hpart) rfl ?_
    refine .head (.markShift (fun s => s.id = ctx.shift.id) (fun s => { s with rev })
      fun _ => rfl) rfl ?_
    exact Written.beside (.aside le_rfl) rfl
  next hlast =>
    simp only [bind_done, select_done, orFail_done, execute_done, record_done] at h
    obtain ⟨_, _, ⟨rfl, rfl⟩, first, _, ⟨hfirst, rfl⟩, latest, _, ⟨hlatest, rfl⟩, _, _, rfl, rfl⟩ := h
    rw [ht'] at hlatest
    simp only [ht']
    refine .head (.closeLast ctx c rev first latest hctx ⟨hc.1, hc.2, hc.3, hc.4⟩
      (by simpa using hlast) hfirst hlatest) rfl ?_
    exact Written.beside (.aside le_rfl) rfl

theorem markLate_beside (h : markLate ctx b = .done u b') :
    Beside k ctx.receivedAt b.db b'.db := by
  simp only [markLate, bind_done, select_done, onlyIf_done, execute_done] at h
  obtain ⟨_, _, ⟨-, rfl⟩, ⟨-, rev, t, hrev, rfl⟩ | ⟨-, rfl⟩⟩ := h
  · obtain ⟨revision, hle, ht⟩ := batchRevision_done hrev
    simp only [ht]
    refine .head (.revised hle) rfl ?_
    exact Written.beside (.markShift _ _ fun _ => rfl) rfl
  · exact .refl

theorem markPartLate_beside (h : markPartLate ctx b = .done u b') :
    Beside k ctx.receivedAt b.db b'.db := by
  simp only [markPartLate, bind_done, select_done, onlyIf_done, execute_done] at h
  obtain ⟨_, _, ⟨-, rfl⟩, _, _, rfl, h⟩ := h
  refine .head (.markPart (fun p => p.is ctx.shift.id ctx.deviceId && p.unmarked)
    (fun p => { p with lateDataAt := some ctx.receivedAt }) fun _ => rfl) rfl ?_
  rcases h with ⟨-, rev, t, hrev, rfl⟩ | ⟨-, rfl⟩
  · obtain ⟨revision, hle, ht⟩ := batchRevision_done hrev
    simp only [ht]
    refine .head (.revised hle) rfl ?_
    exact Written.beside (.markShift _ _ fun _ => rfl) rfl
  · exact .refl

theorem followUp_beside {kind : FactKind}
    (hclose : ∀ c, a.close = some c → ctx.Entered b.db ∧ ctx.Closes k c b.db)
    (h : followUp k ctx kind a b = .done u b') : Beside k ctx.receivedAt b.db b'.db := by
  unfold followUp at h
  cases hc : a.close with
  | some c =>
    simp only [hc] at h
    exact closePart_beside (hclose c hc).1 (hclose c hc).2 h
  | none =>
    simp only [hc, onlyIf_done, bind_done] at h
    rcases h with ⟨-, _, t, ht, h⟩ | ⟨-, rfl⟩
    · have h1 : Beside k ctx.receivedAt b.db t.db := by
        rcases ht with ⟨-, ht⟩ | ⟨-, rfl⟩
        · exact markLate_beside ht
        · exact .refl
      have h2 : Beside k ctx.receivedAt t.db b'.db := by
        rcases h with ⟨-, h⟩ | ⟨-, rfl⟩
        · exact markPartLate_beside h
        · exact .refl
      exact h1.trans h2
    · exact .refl

/-! ## One record -/

theorem handler_received {kind : FactKind} (hctx : ctx.Entered b.db)
    (h : handler k env ctx kind data b = .done a b') :
    Received k ctx.receivedAt b.db b'.db ∧
      ∀ c, a.close = some c → ctx.Entered b'.db ∧ ctx.Closes k c b'.db := by
  have quiet (h : Writes k ctx.receivedAt b.db b'.db ∧ a.close = none) :
      Received k ctx.receivedAt b.db b'.db ∧
        ∀ c, a.close = some c → ctx.Entered b'.db ∧ ctx.Closes k c b'.db :=
    ⟨.inl h.1, fun c hc => absurd (h.2.symm.trans hc) nofun⟩
  cases kind with
  | scan =>
    obtain ⟨db, row, hw, hs, -, -, ha⟩ := scanApply_scanned hctx h
    exact ⟨.inr ⟨db, _, row, hw, hs, .refl⟩, fun c hc => absurd (ha.symm.trans hc) nofun⟩
  | boxClosed => exact quiet (boxClosedApply_writes hctx h)
  | boxLabel => exact quiet (boxLabelApply_writes h)
  | boxException => exact quiet (exceptionApply_writes h)
  | shiftClosed =>
    obtain ⟨hw, hs, hp, hc⟩ := shiftClosedApply_writes h
    refine ⟨.inl hw, fun c hclose => ⟨?_, hc c hclose⟩⟩
    unfold Context.Entered
    rw [hs, hp]
    exact hctx
  | palletClosed => exact quiet (palletClosedApply_writes hctx h)
  | palletLabel => exact quiet (palletLabelApply_writes h)
  | palletException => exact quiet (palletExceptionApply_writes h)
  | unitLabel => exact quiet (unitLabelApply_writes h)

theorem enteredShift_done {id deviceId : String} {o : Option (Option FactShift)}
    (h : enteredShift id deviceId b = .done o b') :
    b' = b ∧ ∀ shift, o = some (some shift) → ∀ recordId operatorId receivedAt,
      Context.Entered ⟨deviceId, recordId, operatorId, shift, receivedAt⟩ b.db := by
  simp only [enteredShift, bind_done, select_done] at h
  obtain ⟨row, _, ⟨hrow, rfl⟩, h⟩ := h
  cases row with
  | none =>
    simp only [pure_done] at h
    obtain ⟨rfl, rfl⟩ := h
    exact ⟨rfl, by simp⟩
  | some s =>
    simp only [bind_done, select_done] at h
    obtain ⟨part, _, ⟨hpart, rfl⟩, h⟩ := h
    cases part with
    | none =>
      simp only [pure_done] at h
      obtain ⟨rfl, rfl⟩ := h
      exact ⟨rfl, by simp⟩
    | some p =>
      simp only [bind_done, orFail_done, pure_done] at h
      obtain ⟨snapshot, _, ⟨hsnap, rfl⟩, rfl, rfl⟩ := h
      refine ⟨rfl, ?_⟩
      rintro _ ⟨⟩ _ _ _
      have hid : s.id = id := by simpa using List.find?_some hrow
      exact ⟨⟨s, snapshot, by simpa [ShiftRow.entered, hid] using hrow, hsnap, rfl⟩,
        ⟨p, by simpa [ShiftRow.entered, hid, Db.participant] using hpart, rfl⟩⟩

theorem applyEntered_received {deviceId : String} {record : FactRecord} {shift : FactShift}
    {applying : Applying}
    (hctx : Context.Entered ⟨deviceId, record.id, record.operatorId, shift, env.timestamp k⟩ b.db)
    (h : applyEntered k env deviceId record shift b = .done applying b') :
    Received k (env.timestamp k) b.db b'.db := by
  unfold applyEntered at h
  split at h
  · simp only [pure_done] at h
    rw [← h.2]
    exact .inl .refl
  · simp only [bind_done] at h
    obtain ⟨answer, t, ht, h⟩ := h
    cases answer with
    | error reject =>
      simp only [pure_done] at h
      obtain ⟨-, rfl⟩ := h
      rw [attempt_done_error] at ht
      rw [handler_clean _ _ _ _ _ ht]
      exact .inl .refl
    | ok applied =>
      simp only [bind_done, pure_done] at h
      obtain ⟨_, t', hf, -, rfl⟩ := h
      rw [attempt_done_ok] at ht
      obtain ⟨hr, hclose⟩ := handler_received hctx ht
      exact hr.beside (followUp_beside hclose hf)

theorem applyRecord_received {deviceId : String} {value : Json} {applying : Applying}
    (h : applyRecord k env deviceId value b = .done applying b') :
    Received k (env.timestamp k) b.db b'.db := by
  have idle {x : Applying} (h : (pure x : Host Applying) b = .done applying b') :
      Received k (env.timestamp k) b.db b'.db := by
    rw [← (pure_done.1 h).2]
    exact .inl .refl
  unfold applyRecord at h
  cases hr : FactRecord.read value with
  | none => exact idle (by simpa only [hr] using h)
  | some record =>
    simp only [hr] at h
    cases hid : record.badId with
    | some field => exact idle (by simpa only [hid] using h)
    | none =>
      simp only [hid, bind_done] at h
      obtain ⟨o, t, ht, h⟩ := h
      obtain ⟨rfl, hent⟩ := enteredShift_done ht
      rcases o with _ | _ | shift
      · simp only [applyUnknown, bind_done, select_done, pure_done] at h
        obtain ⟨_, _, ⟨-, rfl⟩, -, rfl⟩ := h
        exact .inl .refl
      · exact idle h
      · exact applyEntered_received (hent shift rfl _ _ _) h

/-- **A record changes the tables by the changes of its kind, then its receipt is kept.** -/
theorem receive_received {deviceId : String} {value : Json} {receipt : FactReceipt}
    (h : receive k env deviceId value b = .done receipt b') :
    ∃ db, Received k (env.timestamp k) b.db db ∧ (b'.db = db ∨ Filed db b'.db) := by
  simp only [receive, bind_done, select_done] at h
  obtain ⟨o, t, ⟨-, rfl⟩, h⟩ := h
  cases o with
  | some row =>
    simp only [pure_done] at h
    obtain ⟨-, rfl⟩ := h
    exact ⟨b.db, .inl .refl, .inl rfl⟩
  | none =>
    simp only [receiveNew, keepFact, bind_done, forSome_done, insert_done, pure_done] at h
    obtain ⟨applying, t, ht, _, t', hkeep, -, rfl⟩ := h
    refine ⟨t.db, applyRecord_received ht, ?_⟩
    rcases hkeep with ⟨id, -, -, rfl⟩ | ⟨-, rfl⟩
    · exact .inr (.fact _)
    · exact .inl rfl

theorem each_chain {R : Db → Db → Prop} {receiveOne : Json → Host FactReceipt}
    {values : List Json} {receipts : List FactReceipt}
    (hone : ∀ value b receipt b', receiveOne value b = .done receipt b' → R b.db b'.db)
    (h : Txn.each receiveOne values b = .done receipts b') :
    Relation.ReflTransGen R b.db b'.db := by
  induction values generalizing b receipts with
  | nil =>
    simp only [Txn.each, pure_done] at h
    obtain ⟨-, rfl⟩ := h
    exact .refl
  | cons value rest ih =>
    simp only [Txn.each, bind_done, pure_done] at h
    obtain ⟨receipt, t, ht, rs, t', hrest, -, rfl⟩ := h
    exact .head (hone _ _ _ _ ht) (ih hrest)

theorem requireLive_done {deviceId : String} {kind : DeviceKind}
    (h : requireLive env deviceId b = .done kind b') : b' = b := by
  simp only [requireLive, bind_done, select_done, orFail_done, orError_done, pure_done] at h
  obtain ⟨_, _, ⟨-, rfl⟩, _, _, ⟨-, rfl⟩, _, _, ⟨-, rfl⟩, -, rfl⟩ := h
  rfl

theorem receiveFacts_chain {R : Db → Db → Prop} {deviceId : String} {records : List Json}
    {receipts : List FactReceipt}
    (hone : ∀ value b receipt b', receive k env deviceId value b = .done receipt b' →
      R b.db b'.db)
    (h : receiveFacts k env deviceId records b = .done receipts b') :
    Relation.ReflTransGen R b.db b'.db := by
  simp only [receiveFacts, bind_done, assert_done] at h
  obtain ⟨_, _, ⟨-, rfl⟩, kind, t, ht, h⟩ := h
  obtain rfl := requireLive_done ht
  exact each_chain hone h

end Markiro
