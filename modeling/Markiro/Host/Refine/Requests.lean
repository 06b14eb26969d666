import Markiro.Host.Refine.Office

/-!
# The office's pallets and documents, and the shifts

The remaining requests as sequences of changes: the office's pallet with the boxes its inspection
accepted, an applied document pack by pack, and the entries, leaves and closes of shifts.
-/

namespace Markiro

open Txn

variable {k : Crates} {env : Env} {b b' : Batch} {u : Unit}

/-! ## The boxes an inspection accepted -/

theorem candidate_loose {sscc : String} {c : Candidate} {product : Option String} {db : Db}
    (hc : db.candidate sscc = some c) (hf : c.fault product = none) :
    db.Loose sscc c.productId ∧ ∀ p, product = some p → p = c.productId := by
  unfold Candidate.fault at hf
  split_ifs at hf with hdemo hclosed hdis hocc hprod
  simp only [Db.candidate, Option.bind_eq_bind, Option.bind_eq_some_iff] at hc
  obtain ⟨x, hx, s, hs, product', -, hc⟩ := hc
  obtain rfl := Option.some.inj hc
  refine ⟨⟨x, s, hx, by simpa using hdis, hs, rfl, fun p hp hstands => hocc ?_⟩, ?_⟩
  · simp [hp, hstands]
  · rintro p rfl
    by_contra hne
    exact hprod (by simpa using hne)

theorem inspectLine_ok {db : Db} {named : List String} {s : Inspection} {x : ℕ × String}
    (h : (inspectLine db named s x).errors = []) :
    s.errors = [] ∧ ∃ sscc c, normalizeSscc x.2 = some sscc ∧ db.candidate sscc = some c ∧
      c.fault s.productId = none ∧ (inspectLine db named s x).productId = some c.productId := by
  unfold inspectLine at h ⊢
  cases hn : normalizeSscc x.2 with
  | none => simp [hn, Inspection.error] at h
  | some sscc =>
    simp only [hn] at h ⊢
    split_ifs at h ⊢ with hbox hdup
    · simp [Inspection.error] at h
    · simp [Inspection.error] at h
    · cases hc : db.candidate sscc with
      | none => simp [hc, Inspection.error] at h
      | some c =>
        simp only [hc] at h ⊢
        cases hf : c.fault s.productId with
        | some code => simp [hf, Inspection.error] at h
        | none =>
          simp only [hf] at h ⊢
          exact ⟨h, sscc, c, rfl, hc, hf, rfl⟩

theorem inspect_fold {db : Db} {named : List String} {lines : List (ℕ × String)} {s : Inspection}
    (h : (lines.foldl (inspectLine db named) s).errors = []) :
    s.errors = [] ∧
      (∀ p, s.productId = some p →
        (lines.foldl (inspectLine db named) s).productId = some p) ∧
      ∀ x ∈ lines, ∃ sscc productId, normalizeSscc x.2 = some sscc ∧
        (lines.foldl (inspectLine db named) s).productId = some productId ∧
        db.Loose sscc productId := by
  induction lines generalizing s with
  | nil => exact ⟨h, fun _ h => h, nofun⟩
  | cons x rest ih =>
    rw [List.foldl_cons] at h ⊢
    obtain ⟨hs, hkeep, hrest⟩ := ih h
    obtain ⟨hs', sscc, c, hn, hc, hf, hp⟩ := inspectLine_ok hs
    obtain ⟨hloose, hsame⟩ := candidate_loose hc hf
    refine ⟨hs', fun p hp' => ?_, fun y hy => ?_⟩
    · rw [hsame p hp']
      exact hkeep _ hp
    · rcases List.mem_cons.1 hy with rfl | hy
      · exact ⟨sscc, c.productId, hn, hkeep _ hp, hloose⟩
      · exact hrest y hy

variable {codes : List String}

theorem inspect_valid {productId : String} {db : Db}
    (h : (inspect codes db).valid = true) (hp : (inspect codes db).productId = some productId) :
    ∀ code ∈ canonicalCodes codes, db.Loose code productId := by
  intro code hcode
  simp only [Inspection.valid, Bool.and_eq_true, List.isEmpty_iff] at h
  obtain ⟨-, -, hlines⟩ := inspect_fold h.1
  rw [canonicalCodes, List.mem_insertionSort, List.mem_map] at hcode
  obtain ⟨x, hx, rfl⟩ := hcode
  obtain ⟨sscc, productId', hn, hp', hloose⟩ := hlines x hx
  rw [hn, Option.getD_some]
  rwa [Option.some.inj (hp.symm.trans hp')]

theorem ssccBody_length {issuer : String} {serial : ℕ} (hp : prefixOk issuer = true)
    (hs : serial < serialCapacity issuer) : (ssccBody 1 issuer serial).length = 17 := by
  simp only [prefixOk, Bool.and_eq_true, decide_eq_true_eq] at hp
  have hlen := byteLen_of_allDigits hp.2
  have hpad : (Text.pad (16 - byteLen issuer) serial).length = 16 - byteLen issuer :=
    Text.pad_length (by omega) hs
  simp only [ssccBody, List.length_append, hpad, ← hlen, Nat.toDigits_of_lt_base (by decide : 1 <
    10), List.length_singleton]
  omega

theorem buildPalletSscc_some {issuer sscc : String} {serial : ℕ}
    (h : buildPalletSscc issuer serial = some sscc) :
    serial < serialCapacity issuer ∧ sscc.toList.take 17 = ssccBody 1 issuer serial := by
  unfold buildPalletSscc at h
  split_ifs at h with hok
  obtain rfl := Option.some.inj h
  refine ⟨hok.2, ?_⟩
  rw [String.toList_ofList, List.take_append_of_le_length (by rw [ssccBody_length hok.1 hok.2]),
    List.take_of_length_le (by rw [ssccBody_length hok.1 hok.2])]

theorem addStays_done {row : String → StayRow}
    (hrow : ∀ code, (row code).live = true ∧ (row code).boxSscc = code)
    (h : addStays row codes b = .done u b') :
    b' = { b with db := { b.db with stays := b.db.stays ++ codes.map row } } ∧ codes.Nodup ∧
      ∀ code ∈ codes, ∀ v ∈ b.db.stays, v.live = true → v.boxSscc ≠ code := by
  induction codes generalizing b with
  | nil =>
    simp only [addStays, pure_done] at h
    obtain ⟨-, rfl⟩ := h
    exact ⟨by simp, List.nodup_nil, by simp⟩
  | cons code rest ih =>
    simp only [addStays, bind_done, insert_done] at h
    obtain ⟨_, _, ⟨hfree, rfl⟩, h⟩ := h
    obtain ⟨rfl, hnodup, hrest⟩ := ih h
    refine ⟨by simp, List.nodup_cons.2 ⟨fun hmem => ?_, hnodup⟩, fun c hc v hv => ?_⟩
    · exact hrest code hmem (row code) (List.mem_append_right _ (List.mem_singleton_self _))
        (hrow code).1 (hrow code).2
    · rcases List.mem_cons.1 hc with rfl | hc
      · exact hfree v hv
      · exact hrest c hc v (List.mem_append_left _ hv)

theorem createPallet_writes {deviceId userId requestId hash issuer sscc : String}
    {product : ProductRow} {found : Inspection} {x : CounterRow}
    {answer : OfficePalletCreated} (hx : b.db.counter issuer 1 = some x)
    (hsscc : buildPalletSscc issuer x.nextSerial = some sscc)
    (hloose : ∀ code ∈ codes, b.db.Loose code product.id)
    (h : createPallet k env deviceId userId requestId hash codes product found issuer sscc
      x.nextSerial b = .done answer b') : Writes k (env.timestamp k) b.db b'.db := by
  obtain ⟨rfl, -⟩ := counter_key hx
  obtain ⟨hlt, htake⟩ := buildPalletSscc_some hsscc
  simp only [createPallet, insertBlock, insertWarehousePallet, bind_done, nextRevision_done,
    newUuid_done, execute_done, insert_done, record_done, pure_done] at h
  obtain ⟨_, _, ⟨rfl, rfl⟩, _, _, ⟨rfl, rfl⟩, _, _, ⟨rfl, rfl⟩, _, _, rfl, _, _, ⟨rfl, rfl⟩, _, _,
    ⟨hblock, rfl⟩, _, _, ⟨hpallet, rfl⟩, _, t, hstays, _, _, rfl, _, _, rfl, -, rfl⟩ := h
  obtain ⟨rfl, hnodup, hlive⟩ := addStays_done (fun _ => ⟨rfl, rfl⟩) hstays
  refine Relation.ReflTransGen.head (.revised (Nat.le_succ _)) ?_
  refine Relation.ReflTransGen.head (.createPallet x (b.db.revision + 1)
    ⟨env.uuids (b.drawn + 1), x.issuerPrefix, 1, deviceId, env.uuids (b.drawn + 1 + 1),
      x.nextSerial, x.nextSerial, some x.nextSerial, env.timestamp k, none⟩
    (officePallet (env.uuids b.drawn) deviceId userId requestId hash (env.timestamp k) sscc
      (env.uuids (b.drawn + 1)) product x.nextSerial found.boxes)
    (codes.map fun code => ⟨env.uuids b.drawn, code, env.timestamp k, none, none, requestId,
      deviceId⟩) hx hlt rfl hblock rfl ⟨sscc, _, rfl, rfl, htake⟩ rfl
    (fun y hy => (hpallet y hy).1) ?_ ?_ ?_) (.single (.aside le_rfl))
  · intro w hw
    obtain ⟨code, hcode, rfl⟩ := List.mem_map.1 hw
    exact ⟨rfl, rfl, hloose code hcode⟩
  · rw [List.map_map]
    exact (List.map_id' codes).symm ▸ hnodup
  · intro w hw v hv
    obtain ⟨code, hcode, rfl⟩ := List.mem_map.1 hw
    exact hlive code hcode v hv

theorem create_writes {deviceId userId requestId : String}
    {answer : OfficePalletCreated}
    (h : create k env deviceId userId requestId codes b = .done answer b') :
    Writes k (env.timestamp k) b.db b'.db := by
  simp only [create, bind_done, assert_done, orError_done, select_done] at h
  obtain ⟨_, _, ⟨-, rfl⟩, _, _, ⟨-, rfl⟩, _, _, ⟨-, rfl⟩, o, _, ⟨-, rfl⟩, h⟩ := h
  cases o with
  | some old =>
    simp only [bind_done, assert_done, pure_done] at h
    obtain ⟨_, _, ⟨-, rfl⟩, -, rfl⟩ := h
    exact .refl
  | none =>
    simp only [createNew, orgPrefix, bind_done, select_done, assert_done, orError_done, orFail_done,
      pure_done] at h
    obtain ⟨_, _, ⟨-, rfl⟩, _, _, ⟨-, rfl⟩, _, _, ⟨-, rfl⟩, _, _, ⟨-, rfl⟩, found, _, ⟨rfl, rfl⟩, _,
      _, ⟨hvalid, rfl⟩, productId, _, ⟨hp, rfl⟩, _, _, ⟨rfl, rfl⟩, product, _, ⟨hproduct, rfl⟩,
      issuer, _, ⟨_, _, ⟨-, rfl⟩, _, _, ⟨-, rfl⟩, -, rfl⟩, _, _, ⟨rfl, rfl⟩, x, _, ⟨hx, rfl⟩, sscc,
      _, ⟨hsscc, rfl⟩, _, _, ⟨-, rfl⟩, _, _, ⟨-, rfl⟩, h⟩ := h
    have hid : product.id = productId := by simpa using List.find?_some hproduct
    refine createPallet_writes hx hsscc (fun code hcode => ?_) h
    rw [hid]
    exact inspect_valid hvalid hp code hcode

/-! ## Documents -/

variable {taken : Taken}

theorem applyBox_writes {documentId boxId instant now : String} {rev : ℕ}
    (h : applyBox documentId boxId instant now rev b = .done taken b') :
    Writes k now b.db b'.db := by
  simp only [applyBox, bind_done, select_done, execute_done, orFail_done, insert_done, pure_done]
    at h
  obtain ⟨_, _, ⟨-, rfl⟩, _, _, rfl, _, _, ⟨rfl, rfl⟩, x, _, ⟨-, rfl⟩, _, _, rfl, _, _, rfl, _, _,
    ⟨-, rfl⟩, -, rfl⟩ := h
  refine Relation.ReflTransGen.head (.emptyBox boxId instant) ?_
  refine Relation.ReflTransGen.head (.disassembleBox boxId instant
    (fun x => x.id = boxId ∧ x.disassembledAt = none) fun y hy => ?_) (.single (.aside le_rfl))
  simp only [decide_eq_true_eq] at hy
  exact hy.1

theorem applyPallet_writes {palletId instant now : String}
    (h : applyPallet palletId instant now b = .done taken b') : Writes k now b.db b'.db := by
  simp only [applyPallet, bind_done, select_done, execute_done, orFail_done, pure_done] at h
  obtain ⟨_, _, ⟨rfl, rfl⟩, x, _, ⟨-, rfl⟩, _, _, rfl, _, _, rfl, -, rfl⟩ := h
  refine .single (.disassemblePallet palletId instant
    (fun x => x.id = palletId ∧ x.disassembledAt = none) fun y hy => ?_)
  simp only [decide_eq_true_eq] at hy
  exact hy.1

theorem applyWarehousePallet_writes {palletId instant now : String}
    (hclosed : b.db.HasClosed palletId)
    (h : applyWarehousePallet palletId instant now b = .done taken b') :
    Writes k now b.db b'.db := by
  simp only [applyWarehousePallet, bind_done, select_done, execute_done, assert_done, pure_done]
    at h
  obtain ⟨_, _, ⟨-, rfl⟩, _, _, ⟨-, rfl⟩, _, _, rfl, _, _, rfl, _, _, rfl, -, rfl⟩ := h
  refine .single (.disassembleWarehousePallet palletId instant
    (fun x => x.id = palletId ∧ x.disassembledAt = none)
    (fun x => { x with disassembledAt := some instant }) ?_ ?_ hclosed)
  · exact fun x => by simp
  · exact fun x => ⟨rfl, rfl, rfl, rfl, rfl, rfl, rfl, rfl⟩

theorem completedOwner_release {c c' : CloudHistory} {p : CloudOwnerRow → Bool} {instant : String}
    (hb : c'.batches = c.batches)
    (ho : c'.owners = Table.update p (fun o => { o with releasedAt := some instant }) c.owners)
    (hash : String) (h : c.completedOwner hash = none) : c'.completedOwner hash = none := by
  unfold CloudHistory.completedOwner at h ⊢
  rw [List.find?_eq_none] at h ⊢
  intro o hmem
  rw [ho, Table.mem_update] at hmem
  obtain ⟨x, hx, rfl⟩ := hmem
  split
  · simp
  · have := h x hx
    unfold CloudHistory.completed at this ⊢
    rwa [hb]

theorem applyCloudBox_writes {documentId boxId instant now : String} {rev : ℕ}
    (h : applyCloudBox documentId boxId instant now rev b = .done taken b') :
    Writes k now b.db b'.db := by
  simp only [applyCloudBox, bind_done, select_done, assert_done, orFail_done, insert_done,
    pure_done] at h
  obtain ⟨_, _, ⟨-, rfl⟩, _, _, ⟨-, rfl⟩, _, _, ⟨rfl, rfl⟩, x, _, ⟨-, rfl⟩, _, _, ⟨-, rfl⟩, _, _,
    ⟨-, rfl⟩, -, rfl⟩ := h
  exact .single (.cloud _ (completedOwner_release rfl rfl))

theorem applyCloudPallet_writes {palletId instant now : String}
    (h : applyCloudPallet palletId instant now b = .done taken b') : Writes k now b.db b'.db := by
  simp only [applyCloudPallet, bind_done, select_done, assert_done, execute_done, pure_done] at h
  obtain ⟨_, _, ⟨-, rfl⟩, _, _, ⟨-, rfl⟩, _, _, rfl, -, rfl⟩ := h
  exact .single (.cloud _ fun _ h => h)

def Pack.Closed (db : Db) : Pack → Prop
  | .warehousePallet id => db.HasClosed id
  | _ => True

variable {documentId instant now : String}

theorem applyTarget_closed {rev : ℕ} {pack : Pack}
    (h : applyTarget documentId instant now rev pack b = .done taken b')
    {other : Pack} (hother : other.Closed b.db) : other.Closed b'.db := by
  cases other with
  | warehousePallet id =>
    obtain ⟨x, hx, hid, hc⟩ := hother
    cases pack with
    | warehousePallet palletId =>
      simp only [applyTarget, applyWarehousePallet, bind_done, select_done, execute_done,
        assert_done, pure_done] at h
      obtain ⟨_, _, ⟨-, rfl⟩, _, _, ⟨-, rfl⟩, _, _, rfl, _, _, rfl, _, _, rfl, -, rfl⟩ := h
      refine ⟨_, Table.mem_update_of_mem hx, ?_⟩
      split <;> exact ⟨hid, hc⟩
    | box boxId =>
      simp only [applyTarget, applyBox, bind_done, select_done, execute_done, orFail_done,
        insert_done, pure_done] at h
      obtain ⟨_, _, ⟨-, rfl⟩, _, _, rfl, _, _, ⟨rfl, rfl⟩, y, _, ⟨-, rfl⟩, _, _, rfl, _, _, rfl, _,
        _, ⟨-, rfl⟩, -, rfl⟩ := h
      exact ⟨x, hx, hid, hc⟩
    | pallet palletId =>
      simp only [applyTarget, applyPallet, bind_done, select_done, execute_done, orFail_done,
        pure_done] at h
      obtain ⟨_, _, ⟨rfl, rfl⟩, y, _, ⟨-, rfl⟩, _, _, rfl, _, _, rfl, -, rfl⟩ := h
      exact ⟨x, hx, hid, hc⟩
    | cloudBox boxId =>
      simp only [applyTarget, applyCloudBox, bind_done, select_done, assert_done, orFail_done,
        insert_done, pure_done] at h
      obtain ⟨_, _, ⟨-, rfl⟩, _, _, ⟨-, rfl⟩, _, _, ⟨rfl, rfl⟩, y, _, ⟨-, rfl⟩, _, _, ⟨-, rfl⟩, _, _,
        ⟨-, rfl⟩, -, rfl⟩ := h
      exact ⟨x, hx, hid, hc⟩
    | cloudPallet palletId =>
      simp only [applyTarget, applyCloudPallet, bind_done, select_done, assert_done, execute_done,
        pure_done] at h
      obtain ⟨_, _, ⟨-, rfl⟩, _, _, ⟨-, rfl⟩, _, _, rfl, -, rfl⟩ := h
      exact ⟨x, hx, hid, hc⟩
  | _ => trivial

theorem applyTarget_writes {rev : ℕ} {pack : Pack} (hclosed : pack.Closed b.db)
    (h : applyTarget documentId instant now rev pack b = .done taken b') :
    Writes k now b.db b'.db := by
  cases pack with
  | box id => exact applyBox_writes h
  | pallet id => exact applyPallet_writes h
  | warehousePallet id => exact applyWarehousePallet_writes hclosed h
  | cloudBox id => exact applyCloudBox_writes h
  | cloudPallet id => exact applyCloudPallet_writes h

theorem applyPacks_writes {rev : ℕ} {packs : List Pack}
    {taken : List Taken} (hclosed : ∀ pack ∈ packs, pack.Closed b.db)
    (h : applyPacks documentId instant now rev packs b = .done taken b') :
    Writes k now b.db b'.db := by
  induction packs generalizing b taken with
  | nil =>
    simp only [applyPacks, pure_done] at h
    rw [← h.2]
    exact .refl
  | cons pack rest ih =>
    simp only [applyPacks, bind_done, pure_done] at h
    obtain ⟨_, t, ht, _, t', hrest, -, rfl⟩ := h
    refine (applyTarget_writes (hclosed pack (by simp)) ht).trans (ih ?_ hrest)
    intro other hmem
    exact applyTarget_closed ht (hclosed other (by simp [hmem]))

theorem resolve_closed {sscc : String} {target : Target} {db : Db}
    (h : db.resolve sscc = some target) (hok : target.status = .ok) : target.pack.Closed db := by
  have hclassify {a c d : Bool} (h : classify a c d = .ok) : a = true := by
    unfold classify at h
    split_ifs at h with ha
    simpa using ha
  simp only [Db.resolve, Option.orElse_eq_or, Option.or_eq_some_iff] at h
  rcases h with (h | ⟨-, h⟩) | ⟨-, h | ⟨-, h⟩⟩
  · simp only [Db.resolveBox, Option.bind_eq_bind, Option.bind_eq_some_iff, Option.some.injEq] at h
    obtain ⟨_, -, _, -, rfl⟩ := h
    trivial
  · simp only [Db.resolvePallet, Option.bind_eq_bind, Option.bind_eq_some_iff,
      Option.some.injEq] at h
    obtain ⟨_, -, _, -, rfl⟩ := h
    trivial
  · obtain ⟨x, hx, rfl⟩ := Option.map_eq_some_iff.1 h
    exact ⟨x, List.mem_of_find?_eq_some hx, rfl, Option.isSome_iff_ne_none.1 (hclassify hok)⟩
  · simp only [CloudHistory.resolve] at h
    split at h
    · obtain rfl := Option.some.inj h
      trivial
    · obtain ⟨x, -, rfl⟩ := Option.map_eq_some_iff.1 h
      trivial

theorem okPacks_closed (lines : List (Option String)) (db : Db) :
    ∀ pack ∈ (db.okPacks lines).reduceOption, pack.Closed db := by
  intro pack hpack
  simp only [List.reduceOption, Db.okPacks, List.mem_filterMap, List.mem_map, id] at hpack
  obtain ⟨_, ⟨line, -, h⟩, rfl⟩ := hpack
  simp only [Option.bind_eq_bind, Option.bind_eq_some_iff] at h
  obtain ⟨sscc, -, target, htarget, h⟩ := h
  split at h
  · next hok =>
    obtain rfl := Option.some.inj h
    exact resolve_closed htarget hok
  · cases h

theorem applyDocument_writes {userId documentId docNo : String} {lines : List (Option String)}
    {answer : DocumentAnswer}
    (h : applyDocument k env userId documentId docNo lines b = .done answer b') :
    Writes k (env.timestamp k) b.db b'.db := by
  simp only [applyDocument, bind_done, orError_done, select_done, assert_done, nextRevision_done]
    at h
  obtain ⟨_, _, ⟨-, rfl⟩, _, _, ⟨-, rfl⟩, _, _, ⟨-, rfl⟩, _, _, ⟨-, rfl⟩, packs, _, ⟨rfl, rfl⟩, rev, _,
    ⟨-, rfl⟩, h⟩ := h
  refine Relation.ReflTransGen.head (.revised (Nat.le_succ _)) ?_
  split at h
  · simp only [bind_done, record_done, pure_done] at h
    obtain ⟨_, _, rfl, -, rfl⟩ := h
    exact .single (.aside le_rfl)
  · simp only [applyTargets, bind_done, execute_done, record_done, pure_done] at h
    obtain ⟨_, _, ⟨_, t, ht, _, _, rfl, rfl, rfl⟩, _, _, rfl, -, rfl⟩ := h
    refine Relation.ReflTransGen.trans (applyPacks_writes (b := ⟨{ b.db with
      revision := b.db.revision + 1 }, _, _⟩) (okPacks_closed lines b.db) ht) ?_
    exact Relation.ReflTransGen.head (.markShift _ (fun s => { s with
      lateDataAt := some (env.timestamp k), rev }) fun _ => rfl) (.single (.aside le_rfl))

/-! ## Shifts -/

theorem openShift_writes {deviceId : String} {s : ShiftRow} {e : Entered}
    (hs : b.db.shifts.find? (fun x => x.id = s.id) = some s) (hopen : s.status ≠ .closed)
    (hsnap : s.snapshot = none) (h : openShift k env deviceId s b = .done e b') :
    Writes k (env.timestamp k) b.db b'.db := by
  simp only [openShift, join, bind_done, orError_done, select_done, orFail_done, nextRevision_done,
    execute_done, insert_done, record_done, pure_done] at h
  obtain ⟨_, _, ⟨-, rfl⟩, _, _, ⟨rfl, rfl⟩, product, _, ⟨-, rfl⟩, _, _, ⟨-, rfl⟩, _, _, ⟨rfl, rfl⟩,
    _, _, ⟨rfl, rfl⟩, _, _, rfl, _, _, ⟨hfree, rfl⟩, _, _, rfl, -, rfl⟩ := h
  exact Relation.ReflTransGen.head (.openShift s deviceId _ hs hopen hsnap hfree)
    (.single (.aside le_rfl))

theorem joinShift_writes {deviceId : String} {s : ShiftRow} {rejoined : Bool} {e : Entered}
    (hs : b.db.shifts.find? (fun x => x.id = s.id) = some s) (hactive : s.status = .active)
    (h : joinShift k env deviceId s rejoined b = .done e b') :
    Writes k (env.timestamp k) b.db b'.db := by
  simp only [joinShift, bind_done, nextRevision_done, execute_done, record_done, pure_done] at h
  obtain ⟨_, _, ⟨rfl, rfl⟩, _, t, ht, _, _, rfl, _, _, rfl, -, rfl⟩ := h
  have hmark {db : Db} {rev : ℕ} {audit : List AuditRow} : Writes k (env.timestamp k) db
      { db.stampRevision s.id rev with audit } :=
    Relation.ReflTransGen.head (.markShift (fun x => x.id = s.id) (fun x => { x with rev })
      fun _ => rfl) (.single (.aside le_rfl))
  cases rejoined with
  | false =>
    simp only [takeSlot, join, Bool.false_eq_true, if_false, insert_done] at ht
    obtain ⟨hfree, rfl⟩ := ht
    exact Relation.ReflTransGen.head (.join s deviceId hs hactive hfree) hmark
  | true =>
    simp only [takeSlot, rejoin, if_true] at ht
    have ht' := updateParticipant_done ht
    simp only [ht']
    exact Relation.ReflTransGen.head (.rejoin s.id deviceId) hmark

theorem enterOpen_writes {deviceId : String} {s : ShiftRow} {decision : Option EntryDecision}
    {e : Entered} (hs : b.db.shifts.find? (fun x => x.id = s.id) = some s)
    (hactive : decision ≠ none → s.status = .active)
    (h : enterOpen k env deviceId s decision b = .done e b') :
    Writes k (env.timestamp k) b.db b'.db := by
  unfold enterOpen at h
  cases decision with
  | none => simp at h
  | some decision =>
    have hjoin := hactive (by simp)
    cases decision with
    | reenter =>
      simp only [touchParticipant, bind_done, pure_done] at h
      obtain ⟨_, t, ht, -, rfl⟩ := h
      rw [updateParticipant_done ht]
      exact .single (.markPart _ _ fun _ => rfl)
    | readClosed =>
      simp only [pure_done] at h
      rw [← h.2]
      exact .refl
    | join | rejoin => exact joinShift_writes hs hjoin h
    | busy | lineFull => simp at h

theorem enterShift_writes {deviceId shiftId : String} {supports : List String} {e : Entered}
    (h : enterShift k env deviceId shiftId supports b = .done e b') :
    Writes k (env.timestamp k) b.db b'.db := by
  simp only [enterShift, bind_done, assert_done, select_done, orFail_done, forSome_done, fail_done,
    and_false, exists_false, false_or] at h
  obtain ⟨_, _, ⟨-, rfl⟩, kind, t, hk, _, _, ⟨rfl, rfl⟩, s, _, ⟨hs, rfl⟩, _, _, ⟨-, rfl⟩, line, _,
    ⟨-, rfl⟩, _, _, ⟨hclosed, rfl⟩, _, _, ⟨-, rfl⟩, device, _, ⟨-, rfl⟩, _, _, ⟨-, rfl⟩, decision, _,
    ⟨hd, rfl⟩, _, _, ⟨-, rfl⟩, _, _, ⟨-, rfl⟩, h⟩ := h
  obtain rfl := requireKinds_done hk
  have hid : s.id = shiftId := by simpa using List.find?_some hs
  rw [← hid] at hs
  cases hsnap : s.snapshot with
  | none => exact openShift_writes hs hclosed hsnap (by simpa only [hsnap] using h)
  | some snapshot =>
    simp only [hsnap] at h
    refine enterOpen_writes hs (fun hdec => ?_) h
    unfold Db.entryDecision at hd
    split at hd
    next => exact absurd hd.symm hdec
    next hplanned => cases hstatus : s.status <;> simp_all

theorem leaveShift_writes {deviceId shiftId : String} {token : Option ℕ}
    (h : leaveShift k env deviceId shiftId token b = .done u b') :
    Writes k (env.timestamp k) b.db b'.db := by
  simp only [leaveShift, leaveOpen, bind_done, select_done, orFail_done, onlyIf_done,
    nextRevision_done, execute_done, record_done] at h
  obtain ⟨_, t, hk, _, _, ⟨rfl, rfl⟩, s, _, ⟨hs, rfl⟩, _, _, ⟨-, rfl⟩, p, _, ⟨-, rfl⟩, h⟩ := h
  obtain rfl := requireKinds_done hk
  rcases h with ⟨-, _, _, ⟨rfl, rfl⟩, _, t', ht, _, _, rfl, rfl⟩ | ⟨-, rfl⟩
  · have ht' := updateParticipant_done ht
    simp only [ht']
    refine Relation.ReflTransGen.head (.revised (Nat.le_succ _)) ?_
    refine Relation.ReflTransGen.head (.leave s.id deviceId) ?_
    exact Relation.ReflTransGen.head (.markShift (fun x => x.id = s.id)
      (fun x => { x with rev := t.db.revision + 1 }) fun _ => rfl) (.single (.aside le_rfl))
  · exact .refl

theorem closeShift_writes {userId shiftId reason : String} {expectedRev : ℕ}
    (h : closeShift k env userId shiftId reason expectedRev b = .done u b') :
    Writes k (env.timestamp k) b.db b'.db := by
  simp only [closeShift, bind_done, orFail_done, orError_done, select_done, assert_done,
    nextRevision_done, execute_done, record_done] at h
  obtain ⟨words, _, ⟨-, rfl⟩, _, _, ⟨-, rfl⟩, _, _, ⟨rfl, rfl⟩, s, _, ⟨hs, rfl⟩, _, _, ⟨-, rfl⟩, _,
    _, ⟨hactive, rfl⟩, _, _, ⟨rfl, rfl⟩, _, _, ⟨-, rfl⟩, _, _, rfl, rfl⟩ := h
  have hid : s.id = shiftId := by simpa using List.find?_some hs
  subst hid
  refine Relation.ReflTransGen.head (.revised (Nat.le_succ _)) ?_
  exact Relation.ReflTransGen.head (.closeByOffice s userId words _ hs hactive)
    (.single (.aside le_rfl))

theorem revokeDevice_writes {userId deviceId : String}
    (h : revokeDevice k env userId deviceId b = .done u b') :
    Writes k (env.timestamp k) b.db b'.db := by
  simp only [revokeDevice, bind_done, orError_done, select_done, orFail_done, onlyIf_done,
    execute_done, record_done] at h
  obtain ⟨_, _, ⟨-, rfl⟩, _, _, ⟨-, rfl⟩, d, _, ⟨-, rfl⟩, h⟩ := h
  rcases h with ⟨-, _, _, rfl, rfl⟩ | ⟨-, rfl⟩
  · exact .single (.aside le_rfl)
  · exact .refl

end Markiro
