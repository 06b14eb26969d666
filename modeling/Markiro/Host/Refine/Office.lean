import Markiro.Host.Refine.Facts

/-!
# Events and the office, change by change

The pallet events, the SSCC blocks, the office's pallets and documents, and the entries, leaves and
closes of shifts, each as a sequence of the changes of `Changes`.
-/

namespace Markiro

open Txn

variable {k : Crates} {env : Env} {ectx : EventContext} {data : Json} {a : Applied}
  {b b' : Batch} {u : Unit}

/-! ## Checks that only read -/

theorem requireReady_done (h : requireReady b = .done u b') : b' = b := by
  simp only [requireReady, bind_done, select_done, assert_done] at h
  obtain ⟨_, _, ⟨-, rfl⟩, -, rfl⟩ := h
  rfl

variable {deviceId : String}

theorem requireKinds_done {kinds : List DeviceKind} {kind : DeviceKind}
    (h : requireKinds env deviceId kinds b = .done kind b') : b' = b := by
  simp only [requireKinds, bind_done, assert_done, pure_done] at h
  obtain ⟨_, t, ht, _, _, ⟨-, rfl⟩, -, rfl⟩ := h
  exact requireLive_done ht

theorem requirePalletsFeature_done (h : requirePalletsFeature env b = .done u b') : b' = b := by
  unfold requirePalletsFeature at h
  cases hf : env.palletsFeature with
  | ok _ =>
    simp only [hf, pure_done] at h
    exact h.2.symm
  | error e =>
    simp only [hf] at h
    split at h <;> simp at h

theorem ownPallet_done {id : String} {x : WarehousePalletRow}
    (h : ownPallet ectx id b = .done x b') :
    b' = b ∧ b.db.warehousePallets.find? (fun x => x.id = id ∧ x.deviceId = ectx.deviceId) =
      some x := by
  simp only [ownPallet, bind_done, select_done, orRefuse_done] at h
  obtain ⟨_, _, ⟨rfl, rfl⟩, ho, rfl⟩ := h
  exact ⟨rfl, ho⟩

/-! ## Pallet events -/

theorem openWarehousePallet_writes {d : WarehousePalletOpenedData}
    (h : openWarehousePallet env ectx d b = .done a b') :
    Writes k ectx.receivedAt b.db b'.db := by
  simp only [openWarehousePallet, bind_done, orRefuse_done, select_done, require_done, forSome_done,
    execute_done, insert_done, pure_done] at h
  obtain ⟨_, t, hready, _, _, ⟨-, rfl⟩, product, _, ⟨-, rfl⟩, _, t', hf, draft, _, ⟨hd, rfl⟩, _, _,
    ⟨rfl, rfl⟩, _, _, ⟨hempty, rfl⟩, _, t'', ht, _, _, ⟨hfree, rfl⟩, -, rfl⟩ := h
  obtain rfl := requireReady_done hready
  obtain rfl := requirePalletsFeature_done hf
  have hopen {db : Db} (hfree : ∀ x ∈ db.warehousePallets, x.id ≠ d.palletId) :
      Written k ectx.receivedAt db { db with
        warehousePallets := db.warehousePallets ++ [ectx.newPallet d product.gtin14] } :=
    .openWarehousePallet _ rfl rfl rfl rfl rfl hfree
  rcases ht with ⟨x, rfl, rfl⟩ | ⟨rfl, rfl⟩
  · have hx : x.deviceId = ectx.deviceId ∧ x.closedAt = none := by
      simpa using List.find?_some hd
    have hzero : t'.db.boxesOn x.id = 0 := by simpa using hempty
    exact Relation.ReflTransGen.head
      (.dropDraft x (List.mem_of_find?_eq_some hd) hx.2 hzero) (.single (hopen hfree))
  · exact .single (hopen hfree)

theorem opened_writes (h : opened k env ectx data b = .done a b') :
    Writes k ectx.receivedAt b.db b'.db := by
  simp only [opened, bind_done, orRefuse_done, check_done, select_done, require_done] at h
  obtain ⟨d, _, ⟨-, rfl⟩, _, _, ⟨-, rfl⟩, _, _, ⟨-, rfl⟩, _, _, ⟨-, rfl⟩, o, _, ⟨-, rfl⟩, h⟩ := h
  cases o with
  | some known =>
    simp only [bind_done, require_done, pure_done] at h
    obtain ⟨_, _, ⟨-, rfl⟩, _, _, ⟨-, rfl⟩, -, rfl⟩ := h
    exact .refl
  | none => exact openWarehousePallet_writes h

theorem placedBox_loose {sscc productId : String} {x : PlacedBox} {db : Db}
    (hx : db.placedBox sscc = some x) (hc : x.check productId = .ok u) :
    db.Loose sscc productId := by
  simp only [Db.placedBox, Option.bind_eq_bind, Option.bind_eq_some_iff] at hx
  obtain ⟨box, hbox, s, hs, hx⟩ := hx
  obtain rfl := Option.some.inj hx
  simp only [PlacedBox.check, except_bind_ok, ensure_ok, Option.isNone_iff_eq_none,
    decide_eq_true_eq] at hc
  obtain ⟨_, hwhole, _, hproduct, hc⟩ := hc
  refine ⟨box, s, hbox, hwhole, hs, hproduct, fun p hp => ?_⟩
  simp only [hp, ensure_ok] at hc
  exact Option.ne_none_iff_isSome.2 hc

theorem boxAdded_writes (h : boxAdded k ectx data b = .done a b') :
    Writes k ectx.receivedAt b.db b'.db := by
  simp only [boxAdded, bind_done, orRefuse_done, check_done, require_done, select_done] at h
  obtain ⟨d, _, ⟨-, rfl⟩, _, _, ⟨-, rfl⟩, _, _, ⟨-, rfl⟩, _, _, ⟨-, rfl⟩, x, _, hx, _, _,
    ⟨hopen, rfl⟩, _, _, ⟨rfl, rfl⟩, found, _, ⟨hfound, rfl⟩, _, _, ⟨hc, rfl⟩, o, _, ⟨-, rfl⟩, h⟩ := h
  obtain ⟨rfl, hx⟩ := ownPallet_done hx
  cases o with
  | some other =>
    simp only [bind_done, require_done, pure_done] at h
    obtain ⟨_, _, ⟨-, rfl⟩, -, rfl⟩ := h
    exact .refl
  | none =>
    simp only [addStay, bind_done, insert_done, execute_done, pure_done] at h
    obtain ⟨_, _, ⟨_, _, ⟨hlive, rfl⟩, rfl⟩, -, rfl⟩ := h
    have hid : x.id = d.palletId ∧ x.deviceId = ectx.deviceId := by simpa using List.find?_some hx
    exact .single (.addStay ⟨d.palletId, d.boxSscc, d.at, none, ectx.operatorId, ectx.recordId,
      ectx.deviceId⟩ x rfl (List.mem_of_find?_eq_some hx) hid.1 hopen (placedBox_loose hfound hc)
      hlive)

theorem boxRemoved_writes (h : boxRemoved k ectx data b = .done a b') :
    Writes k ectx.receivedAt b.db b'.db := by
  simp only [boxRemoved, bind_done, orRefuse_done, check_done, require_done, execute_done,
    pure_done] at h
  obtain ⟨d, _, ⟨-, rfl⟩, _, _, ⟨-, rfl⟩, _, _, ⟨-, rfl⟩, x, _, hx, _, _, ⟨-, rfl⟩, _, _, rfl, -,
    rfl⟩ := h
  obtain ⟨rfl, -⟩ := ownPallet_done hx
  exact .single (.endStay d.palletId d.boxSscc d.at)

theorem closeWarehousePallet_writes {c : PalletClosedFact} {x : WarehousePalletRow}
    (hx : b.db.warehousePallets.find? (fun x => x.id = c.palletId ∧ x.deviceId = ectx.deviceId) =
      some x) (hopen : x.closedAt = none)
    (h : closeWarehousePallet ectx c b = .done a b') : Writes k ectx.receivedAt b.db b'.db := by
  simp only [closeWarehousePallet, issuedTo, bind_done, select_done, orRefuse_done, require_done,
    insert_done, execute_done, pure_done] at h
  obtain ⟨_, _, ⟨rfl, rfl⟩, issuer, _, ⟨-, rfl⟩, _, _, ⟨rfl, rfl⟩, _, _, ⟨⟨hnames, hissued⟩, rfl⟩,
    _, _, ⟨rfl, rfl⟩, _, _, ⟨htaken, rfl⟩, _, _, ⟨-, rfl⟩, _, _, ⟨-, rfl⟩, _, _, ⟨-, rfl⟩, _, _,
    rfl, _, _, rfl, rev, t, hrev, -, rfl⟩ := h
  simp only [Bool.or_eq_false_iff] at htaken
  have hissued' : b.db.Issued ectx.deviceId c.sscc c.blockId 1 c.serial :=
    ⟨_, hnames, any_issuedTo hissued⟩
  obtain ⟨revision, hle, ht⟩ := batchRevision_done hrev
  rw [ht]
  exact Relation.ReflTransGen.head
    (.closeWarehousePallet ectx c x hx hopen hissued' htaken.1.1 htaken.1.2)
    (.single (.revised hle))

theorem closed_writes (h : closed k ectx data b = .done a b') :
    Writes k ectx.receivedAt b.db b'.db := by
  simp only [closed, bind_done, orRefuse_done, check_done, require_done] at h
  obtain ⟨c, _, ⟨-, rfl⟩, _, _, ⟨-, rfl⟩, _, _, ⟨-, rfl⟩, x, _, hx, h⟩ := h
  obtain ⟨rfl, hx⟩ := ownPallet_done hx
  split at h
  · simp only [bind_done, require_done, pure_done] at h
    obtain ⟨_, _, ⟨-, rfl⟩, -, rfl⟩ := h
    exact .refl
  next hopen => exact closeWarehousePallet_writes hx (by simpa using hopen) h

theorem label_writes (h : label k ectx data b = .done a b') :
    Writes k ectx.receivedAt b.db b'.db := by
  simp only [label, bind_done, orRefuse_done, check_done, require_done, pure_done] at h
  obtain ⟨l, _, ⟨-, rfl⟩, _, _, ⟨-, rfl⟩, _, _, ⟨-, rfl⟩, x, _, hx, _, _, ⟨-, rfl⟩, -, rfl⟩ := h
  obtain ⟨rfl, -⟩ := ownPallet_done hx
  exact .refl

theorem disassembled_writes (h : disassembled k ectx data b = .done a b') :
    Writes k ectx.receivedAt b.db b'.db := by
  simp only [disassembled, takeApart, bind_done, orRefuse_done, check_done, require_done,
    select_done, onlyIf_done, execute_done, pure_done] at h
  obtain ⟨d, _, ⟨-, rfl⟩, words, _, ⟨-, rfl⟩, x, _, hx, _, _, ⟨hclosed, rfl⟩, _, _, ⟨-, rfl⟩, _, t,
    ht, -, rfl⟩ := h
  obtain ⟨rfl, hfind⟩ := ownPallet_done hx
  rcases ht with ⟨-, _, _, rfl, _, _, rfl, _, _, rfl, rev, t', hrev, -, rfl⟩ | ⟨-, rfl⟩
  · obtain ⟨revision, hle, ht⟩ := batchRevision_done hrev
    rw [ht]
    refine Relation.ReflTransGen.head (.disassembleWarehousePallet d.palletId d.disassembledAt
      (fun x => x.id = d.palletId ∧ x.disassembledAt = none) (d.takeApart ectx words) ?_ ?_ ?_)
      (.single (.revised hle))
    · exact fun x => by simp
    · exact fun x => ⟨rfl, rfl, rfl, rfl, rfl, rfl, rfl, rfl⟩
    · have hid := List.find?_some hfind
      simp only [decide_eq_true_eq] at hid
      exact ⟨x, List.mem_of_find?_eq_some hfind, hid.1, Option.isSome_iff_ne_none.1 hclosed⟩
  · exact .refl

theorem eventHandler_writes {kind : PalletEventKind}
    (h : eventHandler k env ectx kind data b = .done a b') :
    Writes k ectx.receivedAt b.db b'.db := by
  cases kind with
  | warehousePalletOpened => exact opened_writes h
  | palletBoxAdded => exact boxAdded_writes h
  | palletBoxRemoved => exact boxRemoved_writes h
  | warehousePalletClosed => exact closed_writes h
  | warehousePalletLabel => exact label_writes h
  | warehousePalletDisassembled => exact disassembled_writes h

theorem applyEvent_writes {value : Json} {applying : ApplyingEvent}
    (h : applyEvent k env deviceId value b = .done applying b') :
    Writes k (env.timestamp k) b.db b'.db := by
  have idle {x : ApplyingEvent} (h : (pure x : Host ApplyingEvent) b = .done applying b') :
      Writes k (env.timestamp k) b.db b'.db := by
    rw [← (pure_done.1 h).2]
    exact .refl
  unfold applyEvent at h
  split at h
  · exact idle h
  · cases hr : PalletEventRecord.read value with
    | none => exact idle (by simpa only [hr] using h)
    | some record =>
      simp only [hr] at h
      split at h
      · exact idle h
      · simp only [bind_done, pure_done] at h
        obtain ⟨answer, t, ht, -, rfl⟩ := h
        cases answer with
        | error reject =>
          rw [attempt_done_error] at ht
          rw [eventHandler_clean _ _ _ _ _ ht]
          exact .refl
        | ok applied => exact eventHandler_writes (attempt_done_ok.1 ht)

theorem receiveEvent_files {value : Json} {receipt : FactReceipt}
    (h : receiveEvent k env deviceId value b = .done receipt b') :
    Files k (env.timestamp k) b.db b'.db := by
  unfold receiveEvent at h
  cases hid : readableId value with
  | none =>
    simp only [hid, pure_done] at h
    rw [← h.2]
    exact .refl
  | some id =>
    simp only [hid, bind_done, select_done] at h
    obtain ⟨o, t, ⟨-, rfl⟩, h⟩ := h
    cases o with
    | some row =>
      simp only [pure_done] at h
      rw [← h.2]
      exact .refl
    | none =>
      simp only [receiveNewEvent, keepEvent, bind_done, insert_done, pure_done] at h
      obtain ⟨applying, t, ht, _, _, ⟨-, rfl⟩, -, rfl⟩ := h
      exact (applyEvent_writes ht).files.tail (.inr (.event _))

theorem receiveEvents_files {records : List Json} {receipts : List FactReceipt}
    (h : receiveEvents k env deviceId records b = .done receipts b') :
    Files k (env.timestamp k) b.db b'.db := by
  simp only [receiveEvents, bind_done, assert_done] at h
  obtain ⟨_, _, ⟨-, rfl⟩, kind, t, ht, h⟩ := h
  obtain rfl := requireKinds_done ht
  have hall := each_chain (fun _ _ _ _ h => receiveEvent_files h) h
  rwa [Files, Relation.reflTransGen_eq_self] at hall

/-! ## SSCC blocks -/

theorem counter_key {issuer : String} {extension : ℕ} {x : CounterRow} {db : Db}
    (h : db.counter issuer extension = some x) :
    x.issuerPrefix = issuer ∧ x.extension = extension := by
  have := List.find?_some h
  simpa [CounterRow.is] using this

theorem issueNewBlock_writes {r : SsccBlockRequest} {block : SsccBlock}
    (h : issueNewBlock k env deviceId r b = .done block b') :
    Writes k (env.timestamp k) b.db b'.db := by
  simp only [issueNewBlock, insertBlock, bind_done, select_done, orFail_done, assert_done,
    nextRevision_done, execute_done, newUuid_done, insert_done, record_done, pure_done] at h
  obtain ⟨_, t, hready, _, _, ⟨rfl, rfl⟩, x, _, ⟨hx, rfl⟩, _, _, ⟨rfl, rfl⟩, _, _, ⟨hlt, rfl⟩, _,
    _, ⟨rfl, rfl⟩, _, _, rfl, _, _, ⟨rfl, rfl⟩, _, _, ⟨hfree, rfl⟩, _, _, rfl, -, rfl⟩ := h
  obtain rfl := requireReady_done hready
  refine Relation.ReflTransGen.head (.revised (Nat.le_succ _)) ?_
  refine Relation.ReflTransGen.head (.issueBlock x (t.db.revision + 1)
    ⟨env.uuids t.drawn, r.issuerPrefix, r.extension, deviceId, r.requestId, x.nextSerial,
      min (x.nextSerial + t.db.site.blockSize r.extension - 1) (serialCapacity r.issuerPrefix - 1),
      none, env.timestamp k, none⟩ hx rfl ?_ ?_ rfl hfree) (.single (.aside le_rfl))
  · intro hs
    have hsize : 1 ≤ t.db.site.blockSize r.extension := by
      unfold Site.blockSize
      split
      · exact hs.1.1
      · exact hs.2.1
    show x.nextSerial ≤ min _ _
    omega
  · show min _ _ < serialCapacity r.issuerPrefix
    omega

theorem issueBlock_writes {r : SsccBlockRequest} {block : SsccBlock}
    (h : issueBlock k env deviceId r b = .done block b') :
    Writes k (env.timestamp k) b.db b'.db := by
  simp only [issueBlock, bind_done, assert_done, select_done] at h
  obtain ⟨_, _, ⟨-, rfl⟩, _, _, ⟨-, rfl⟩, _, t, ht, o, _, ⟨-, rfl⟩, h⟩ := h
  obtain rfl := requireKinds_done ht
  cases o with
  | some x =>
    simp only [bind_done, assert_done, pure_done] at h
    obtain ⟨_, _, ⟨-, rfl⟩, -, rfl⟩ := h
    exact .refl
  | none => exact issueNewBlock_writes h

theorem decideBlock_some {x : KnownBlock} {result : KnownBlockResult}
    {fromSerial toSerial : ℕ} {db : Db}
    (h : db.decideBlock deviceId x = (result, some (fromSerial, toSerial))) :
    db.counter x.issuerPrefix x.extension ≠ none ∧ fromSerial ≤ toSerial ∧
      toSerial < serialCapacity x.issuerPrefix ∧
      db.overlapping x.issuerPrefix x.extension fromSerial toSerial = false := by
  unfold Db.decideBlock at h
  split at h
  · split at h <;> simp at h
  split at h
  · simp at h
  split at h
  · simp at h
  next hcounter =>
    split at h
    · simp at h
    next fs ts hserials =>
      split at h
      · simp at h
      next hover =>
        split at h
        · simp at h
        · simp only [Prod.mk.injEq, Option.some.injEq] at h
          obtain ⟨-, rfl, rfl⟩ := h
          unfold KnownBlock.serials at hserials
          split_ifs at hserials with hrange hbound
          obtain ⟨rfl, rfl⟩ := Prod.mk.inj (Option.some.inj hserials)
          refine ⟨fun hn => hcounter (.inr hn), ?_, ?_, by simpa using hover⟩ <;> omega

theorem registerBlock_writes {x : KnownBlock} {fromSerial toSerial : ℕ}
    (hcounter : b.db.counter x.issuerPrefix x.extension ≠ none) (hle : fromSerial ≤ toSerial)
    (hlt : toSerial < serialCapacity x.issuerPrefix)
    (hover : b.db.overlapping x.issuerPrefix x.extension fromSerial toSerial = false)
    (h : registerBlock k env deviceId x fromSerial toSerial b = .done u b') :
    Writes k (env.timestamp k) b.db b'.db := by
  simp only [registerBlock, insertBlock, bind_done, insert_done, execute_done, record_done] at h
  obtain ⟨_, t, hready, rev, t', hrev, _, _, ⟨hfree, rfl⟩, _, _, rfl, rfl⟩ := h
  obtain rfl := requireReady_done hready
  obtain ⟨revision, hrle, ht⟩ := batchRevision_done hrev
  simp only [ht] at hfree ⊢
  refine Relation.ReflTransGen.head (.revised hrle) ?_
  exact Relation.ReflTransGen.head (.registerBlock rev ⟨x.id, x.issuerPrefix, x.extension, deviceId,
    x.id, fromSerial, toSerial, none, env.timestamp k, none⟩ hcounter hle hlt hover rfl hfree)
    (.single (.aside le_rfl))

theorem registerAll_writes {blocks : List KnownBlock}
    {results : List KnownBlockResult} (h : registerAll k env deviceId blocks b = .done results b') :
    Writes k (env.timestamp k) b.db b'.db := by
  induction blocks generalizing b results with
  | nil =>
    simp only [registerAll, pure_done] at h
    rw [← h.2]
    exact .refl
  | cons x rest ih =>
    simp only [registerAll, bind_done, select_done, forSome_done, pure_done] at h
    obtain ⟨⟨result, serials⟩, _, ⟨hd, rfl⟩, _, t, ht, _, t', hrest, -, rfl⟩ := h
    refine Relation.ReflTransGen.trans ?_ (ih hrest)
    rcases ht with ⟨⟨fromSerial, toSerial⟩, hs, ht⟩ | ⟨-, rfl⟩
    · obtain rfl : serials = some (fromSerial, toSerial) := hs
      obtain ⟨hcounter, hle, hlt, hover⟩ := decideBlock_some hd
      exact registerBlock_writes hcounter hle hlt hover ht
    · exact .refl

theorem registerKnownBlocks_writes {blocks : List KnownBlock} {more : Bool}
    {results : List KnownBlockResult}
    (h : registerKnownBlocks k env deviceId blocks more b = .done results b') :
    Writes k (env.timestamp k) b.db b'.db := by
  simp only [registerKnownBlocks, bind_done, assert_done, forSome_done, fail_done, and_false,
    exists_false, false_or, select_done, orFail_done, onlyIf_done, execute_done, pure_done] at h
  obtain ⟨_, _, ⟨-, rfl⟩, _, _, ⟨-, rfl⟩, _, t, ht, _, _, ⟨-, rfl⟩, epoch, _, ⟨-, rfl⟩, _, t', ht',
    _, t'', hmark, -, rfl⟩ := h
  obtain rfl := requireKinds_done ht
  refine (registerAll_writes ht').trans ?_
  rcases hmark with ⟨-, rfl⟩ | ⟨-, rfl⟩
  · exact .single (.aside le_rfl)
  · exact .refl

theorem putCounter_writes {userId issuer : String} {extension : ℕ} {v : SsccCounterUpdate}
    {row : CounterRow} (h : putCounter k env userId issuer extension v b = .done row b') :
    Writes k (env.timestamp k) b.db b'.db := by
  simp only [putCounter, bind_done, orError_done, select_done, orFail_done, assert_done] at h
  obtain ⟨_, _, ⟨-, rfl⟩, o, _, ⟨ho, rfl⟩, x, _, ⟨hx, rfl⟩, _, _, ⟨-, rfl⟩, h⟩ := h
  split at h
  · simp only [pure_done] at h
    rw [← h.2]
    exact .refl
  · simp only [advanceCounter, bind_done, assert_done, nextRevision_done, execute_done,
      record_done, pure_done] at h
    obtain ⟨_, _, ⟨hle, rfl⟩, _, _, ⟨hserial, rfl⟩, _, _, ⟨rfl, rfl⟩, _, _, rfl, _, _, rfl, -,
      rfl⟩ := h
    have hcounter : b.db.counter issuer extension = some x := by
      rw [hx] at ho
      split at ho
      · cases ho
      · exact ho
    have hcap : v.nextSerial < serialCapacity issuer := by
      simp only [ssccSerial, decide_eq_true_eq] at hserial
      exact hserial.2
    refine Relation.ReflTransGen.head (.revised (Nat.le_succ _)) ?_
    exact Relation.ReflTransGen.head (.setCounter x issuer extension v.nextSerial _ hcounter hle
      hcap) (.single (.aside le_rfl))

theorem putBlockSizes_writes {userId : String} {v : BlockSizesUpdate}
    (h : putBlockSizes k env userId v b = .done u b') :
    Writes k (env.timestamp k) b.db b'.db := by
  simp only [putBlockSizes, bind_done, assert_done, orError_done, select_done] at h
  obtain ⟨_, _, ⟨hbox, rfl⟩, _, _, ⟨hpallet, rfl⟩, _, _, ⟨-, rfl⟩, site, _, ⟨rfl, rfl⟩, _, _,
    ⟨-, rfl⟩, h⟩ := h
  split at h
  · simp only [pure_done] at h
    rw [← h.2]
    exact .refl
  · simp only [setBlockSizes, bind_done, nextRevision_done, execute_done, record_done] at h
    obtain ⟨_, _, ⟨rfl, rfl⟩, _, _, rfl, rfl⟩ := h
    refine Relation.ReflTransGen.head (.revised (Nat.le_succ _)) ?_
    exact Relation.ReflTransGen.head (.sizes _ ⟨hbox, hpallet⟩) (.single (.aside le_rfl))

end Markiro
