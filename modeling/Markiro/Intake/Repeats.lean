import Markiro.Lib.Repeats
import Markiro.Host.Run

/-!
# Records sent again

A device sends a record until it is acknowledged, so the host sees the same record again: later in
the batch, in another batch, after the state it was applied to is long gone. The receipts answer for
it. Facts and pallet events keep theirs in tables of their own, but by one rule, so both are
deliveries here (`Delivery`), and the host remembers what it answered to each (`remembers`).

One kind of fact has no receipt: an array of a record's fields, which `serde` reads as the record but
whose id the intake does not see. Such a record is applied as often as it comes.
-/

namespace Markiro

open Repeats (Padded Told Remembers)
open Txn

/-! ## Deliveries -/

inductive Channel where
  | facts | palletEvents
  deriving DecidableEq

structure Delivery where
  channel : Channel
  deviceId : String
  record : Json

/-- The same record of the same device: equal JSON, up to the order of an object's members. -/
def Delivery.Same (v w : Delivery) : Prop :=
  w.channel = v.channel ∧ w.deviceId = v.deviceId ∧ w.record.canon = v.record.canon

/-- Receive a delivery inside a batch's transaction. -/
def receiveAt (k : Crates) (env : Env) (d : Delivery) : Host FactReceipt :=
  match d.channel with
  | .facts => receive k env d.deviceId d.record.canon
  | .palletEvents => receiveEvent k env d.deviceId d.record.canon

def Db.kept (channel : Channel) (deviceId id : String) (db : Db) : Option (String × FactReceipt) :=
  match channel with
  | .facts => (db.storedFact deviceId id).map fun row => (row.digest, row.receipt)
  | .palletEvents => (db.storedEvent deviceId id).map fun row => (row.digest, row.receipt)

/-- A fact that reads as a record with proper ids is no array: its id is where the intake looks. -/
def Delivery.Keyed (d : Delivery) : Prop :=
  d.channel = .facts → ∀ vs r, d.record.canon = .arr vs → FactRecord.read (.arr vs) = some r →
    r.badId ≠ none

/-- Receipts are only added. -/
structure Db.Extends (db db' : Db) : Prop where
  facts : db.factReceipts <+: db'.factReceipts
  events : db.eventReceipts <+: db'.eventReceipts

theorem Db.Extends.refl (db : Db) : db.Extends db := ⟨List.prefix_rfl, List.prefix_rfl⟩

theorem Db.Extends.trans {db db' db'' : Db} (h : db.Extends db') (h' : db'.Extends db'') :
    db.Extends db'' :=
  ⟨h.facts.trans h'.facts, h.events.trans h'.events⟩

section

variable {k : Crates} {env : Env} {now deviceId id : String} {channel : Channel}
  {row : ScanRow} {db db' : Db} {b b' : Batch} {d : Delivery} {r : FactReceipt}

theorem find?_prefix {α : Type} {p : α → Bool} {xs ys : List α} {x : α} (h : xs <+: ys)
    (hx : xs.find? p = some x) : ys.find? p = some x := by
  obtain ⟨zs, rfl⟩ := h
  rw [List.find?_append, hx, Option.some_or]

theorem Db.Extends.kept {q : String × FactReceipt} (h : db.Extends db')
    (hk : db.kept channel deviceId id = some q) : db'.kept channel deviceId id = some q := by
  cases channel with
  | facts =>
    obtain ⟨row, hrow, rfl⟩ := Option.map_eq_some_iff.1 hk
    exact Option.map_eq_some_iff.2 ⟨row, find?_prefix h.facts hrow, rfl⟩
  | palletEvents =>
    obtain ⟨row, hrow, rfl⟩ := Option.map_eq_some_iff.1 hk
    exact Option.map_eq_some_iff.2 ⟨row, find?_prefix h.events hrow, rfl⟩

/-! ## No change takes a receipt back -/

theorem Change.extends (h : Change k now db db') : db.Extends db' := by
  cases h with
  | scanned h => cases h <;> exact ⟨List.prefix_rfl, List.prefix_rfl⟩
  | written h =>
    cases h with
    | closePallet =>
      rw [Db.closePallet]
      split <;> exact ⟨List.prefix_rfl, List.prefix_rfl⟩
    | _ => exact ⟨List.prefix_rfl, List.prefix_rfl⟩
  | filed h =>
    cases h with
    | fact row => exact ⟨List.prefix_append _ _, List.prefix_rfl⟩
    | event row => exact ⟨List.prefix_rfl, List.prefix_append _ _⟩

theorem Changes.extends (h : Changes k now db db') : db.Extends db' := by
  induction h with
  | refl => exact .refl _
  | tail _ hc ih => exact ih.trans hc.extends

theorem Arrives.extends (h : Arrives k db db') : db.Extends db' := by
  obtain ⟨now, h⟩ := h.changes
  exact h.extends

theorem receiveAt_extends (h : receiveAt k env d b = .done r b') : b.db.Extends b'.db := by
  unfold receiveAt at h
  cases hc : d.channel with
  | facts =>
    simp only [hc] at h
    exact (Arrives.record h).extends
  | palletEvents =>
    simp only [hc] at h
    exact (receiveEvent_files h).changes.extends

theorem step_extends (db : Db) (c : Call) : db.Extends (step k db c) := by
  have h := step_arrives (k := k) db c
  generalize step k db c = db' at h ⊢
  induction h with
  | refl => exact .refl _
  | tail _ ha ih => exact ih.trans ha.extends

/-! ## The three ways a record is answered -/

def answerKept (k : Crates) (id : String) (value : Json) (q : String × FactReceipt) : FactReceipt :=
  if q.1 = recordDigest k value then q.2 else rejected (some id) (.new "payload_mismatch")

theorem receiveAt_kept {q : String × FactReceipt} (hid : readableId d.record.canon = some id)
    (hk : b.db.kept d.channel d.deviceId id = some q) :
    receiveAt k env d b = .done (answerKept k id d.record.canon q) b := by
  unfold receiveAt
  unfold Db.kept at hk
  cases hc : d.channel with
  | facts =>
    simp only [hc] at hk ⊢
    obtain ⟨row, hrow, rfl⟩ := Option.map_eq_some_iff.1 hk
    have hrid : row.recordId = id := by
      have := List.find?_some hrow
      simp only [FactReceiptRow.is, decide_eq_true_eq] at this
      exact this.2
    simp only [receive, bind_done, select_done, hid, Option.bind_some]
    exact ⟨_, b, ⟨hrow, rfl⟩, by simp [answerStored, answerKept, hrid]⟩
  | palletEvents =>
    simp only [hc] at hk ⊢
    obtain ⟨row, hrow, rfl⟩ := Option.map_eq_some_iff.1 hk
    have hrid : row.recordId = id := by
      have := List.find?_some hrow
      simp only [EventReceiptRow.is, decide_eq_true_eq] at this
      exact this.2
    simp only [receiveEvent, bind_done, select_done, hid]
    exact ⟨_, b, ⟨hrow, rfl⟩, by simp [answerStoredEvent, answerKept, hrid]⟩

theorem receiptOf_kept (answer : Except Reject Applied) :
    (⟨some id, (receiptOf (some id) answer).outcome, (receiptOf (some id) answer).code,
      (receiptOf (some id) answer).details⟩ : FactReceipt) = receiptOf (some id) answer := by
  cases answer <;> rfl

theorem receiveAt_new (hid : readableId d.record.canon = some id)
    (hk : b.db.kept d.channel d.deviceId id = none) (h : receiveAt k env d b = .done r b') :
    b'.db.kept d.channel d.deviceId id = some (recordDigest k d.record.canon, r) := by
  unfold receiveAt at h
  unfold Db.kept at hk ⊢
  cases hc : d.channel with
  | facts =>
    simp only [hc, Option.map_eq_none_iff] at h hk ⊢
    simp only [receive, bind_done, select_done, hid, Option.bind_some, hk] at h
    obtain ⟨_, _, ⟨rfl, rfl⟩, h⟩ := h
    simp only [receiveNew, keepFact, bind_done, hid, forSome_done, insert_done, pure_done] at h
    obtain ⟨applying, t, -, _, _, ⟨_, ⟨⟩, hfree, rfl⟩ | ⟨hn, -⟩, rfl, rfl⟩ := h
    · have hnone := List.find?_eq_none.2 fun x hx => by simpa using hfree x hx
      rw [Db.storedFact, List.find?_append, hnone]
      simp only [FactReceiptRow.is, Option.none_or, List.find?_singleton, and_self, decide_true,
        if_true, Option.map_some, FactReceiptRow.receipt, receiptOf_kept]
    · cases hn
  | palletEvents =>
    simp only [hc, Option.map_eq_none_iff] at h hk ⊢
    simp only [receiveEvent, bind_done, select_done, hid, hk] at h
    obtain ⟨_, _, ⟨rfl, rfl⟩, h⟩ := h
    simp only [receiveNewEvent, keepEvent, bind_done, insert_done, pure_done] at h
    obtain ⟨applying, t, -, _, _, ⟨hfree, rfl⟩, rfl, rfl⟩ := h
    have hnone := List.find?_eq_none.2 fun x hx => by simpa using hfree x hx
    rw [Db.storedEvent, List.find?_append, hnone]
    simp only [EventReceiptRow.is, Option.none_or, List.find?_singleton, and_self, decide_true,
      if_true, Option.map_some, EventReceiptRow.receipt, receiptOf_kept]

theorem badId_of_unreadable {ms : List (String × Json)} {record : FactRecord}
    (hid : readableId (.obj ms) = none) (hr : FactRecord.read (.obj ms) = some record) :
    record.badId ≠ none := by
  have hget : ((Json.obj ms).get "id").bind Json.asStr = some record.id := by
    simp only [FactRecord.read, Json.asRecord, Option.bind_eq_bind] at hr
    split at hr
    · cases hr
    · simp only [Option.bind_some, Option.bind_eq_some_iff, field] at hr
      obtain ⟨id, hid, _, -, _, -, _, -, _, -, hrec⟩ := hr
      obtain rfl := Option.some.inj hrec
      obtain ⟨v, hv, hs⟩ := hid
      simp [hv, hs]
  have huuid : clientUuid record.id = false := by
    simpa [readableId, hget, Option.filter] using hid
  simp [FactRecord.badId, huuid]

/-- A record without a readable id is answered by its shape alone, unless it is an array of a
record's fields. -/
theorem receiveAt_unreadable (hd : d.Keyed) (hid : readableId d.record.canon = none) :
    ∃ r, ∀ env b, receiveAt k env d b = .done r b := by
  unfold receiveAt
  cases hc : d.channel with
  | palletEvents =>
    refine ⟨rejected none (.new "invalid_record"), fun env b => ?_⟩
    simp [receiveEvent, hid]
  | facts =>
    cases hr : FactRecord.read d.record.canon with
    | none =>
      refine ⟨rejected none (.new "invalid_record"), fun env b => ?_⟩
      simp [receive, receiveNew, applyRecord, hid, hr, receiptOf, Applying.refused]
    | some record =>
      have hbad : record.badId ≠ none := by
        cases hv : d.record.canon with
        | arr vs => exact hd hc vs record hv (hv ▸ hr)
        | obj ms =>
          rw [hv] at hr hid
          exact badId_of_unreadable hid hr
        | null => rw [hv] at hr; cases hr
        | bool => rw [hv] at hr; cases hr
        | number => rw [hv] at hr; cases hr
        | str => rw [hv] at hr; cases hr
      obtain ⟨field, hfield⟩ := Option.ne_none_iff_exists'.1 hbad
      refine ⟨rejected none (.field field), fun env b => ?_⟩
      simp [receive, receiveNew, applyRecord, hid, hr, hfield, receiptOf, Applying.refused]

/-! ## The host remembers -/

/-- The delivery is answered `r` for good: whatever receipts come to be kept. -/
def Answered (k : Crates) (db : Db) (d : Delivery) (r : FactReceipt) : Prop :=
  ∀ env b, db.Extends b.db → receiveAt k env d b = .done r b

theorem Answered.extends (h : Answered k db d r) (he : db.Extends db') : Answered k db' d r :=
  fun env b hb => h env b (he.trans hb)

/-- **What a record was answered, it is answered for good.** -/
theorem answered_of_received {d' : Delivery} (hd : d.Keyed)
    (h : receiveAt k env d b = .done r b') (hs : d.Same d') : Answered k b'.db d' r := by
  -- A record's receipt depends on its canonical form only.
  have hsame : ∀ env b, receiveAt k env d' b = receiveAt k env d b := by
    intro env b
    simp only [receiveAt, hs.1, hs.2.1, hs.2.2]
  intro env' t he
  rw [hsame]
  cases hid : readableId d.record.canon with
  | none =>
    obtain ⟨q, hq⟩ := receiveAt_unreadable (k := k) hd hid
    rw [hq] at h ⊢
    obtain ⟨rfl, -⟩ := Txn.Outcome.done.inj h
    rfl
  | some id =>
    cases hk : b.db.kept d.channel d.deviceId id with
    | some q =>
      rw [receiveAt_kept hid hk] at h
      obtain ⟨rfl, rfl⟩ := Txn.Outcome.done.inj h
      exact receiveAt_kept hid (he.kept hk)
    | none =>
      rw [receiveAt_kept hid (he.kept (receiveAt_new hid hk h)), answerKept, if_pos rfl]

theorem remembers (env : Env) :
    Remembers (receiveAt k env) Delivery.Same Delivery.Keyed fun b d r => Answered k b.db d r where
  answers h := h env _ (.refl _)
  learns hd h hs := answered_of_received hd h hs
  keeps h hw := h.extends (receiveAt_extends hw)

end

/-! ## Batches and runs -/

def Request.batch : Channel → String → List Json → Request
  | .facts => .facts
  | .palletEvents => .palletEvents

def Request.deliveries : Request → List Delivery
  | .facts deviceId records => records.map (⟨.facts, deviceId, ·⟩)
  | .palletEvents deviceId records => records.map (⟨.palletEvents, deviceId, ·⟩)
  | _ => []

def Request.told (request : Request) (answer : Except ApiError Answer) :
    List (Delivery × FactReceipt) :=
  match answer with
  | .ok (.receipts receipts) => request.deliveries.zip receipts
  | _ => []

/-- What the host answered to the deliveries of a run. -/
def history (k : Crates) : Db → List Call → List (Delivery × FactReceipt)
  | _, [] => []
  | db, c :: calls => c.request.told (serve k c db).1 ++ history k (step k db c) calls

/-- A request as it was, or a batch with repeats of records in `log` or earlier in it. -/
inductive Request.Padded (log : List (Delivery × FactReceipt)) : Request → Request → Prop
  | same (request : Request) : Request.Padded log request request
  | batch {channel : Channel} {deviceId : String} {records records' : List Json} :
      Repeats.Padded Delivery.Same (log.map Prod.fst)
        (Request.batch channel deviceId records).deliveries
        (Request.batch channel deviceId records').deliveries →
      records'.length ≤ maxRecords →
      Request.Padded log (.batch channel deviceId records) (.batch channel deviceId records')

/-- The second run is the first with repeats put in: into its batches, and in batches of their
own. -/
inductive WithRepeats (k : Crates) :
    Db → List (Delivery × FactReceipt) → List Call → List Call → Prop
  | nil {db : Db} {log : List (Delivery × FactReceipt)} : WithRepeats k db log [] []
  | call {db : Db} {log : List (Delivery × FactReceipt)} {c : Call} {request : Request}
      {calls calls' : List Call} : c.request.Padded log request →
      WithRepeats k (step k db c) (log ++ c.request.told (serve k c db).1) calls calls' →
      WithRepeats k db log (c :: calls) (⟨c.env, request⟩ :: calls')
  | extra {db : Db} {log : List (Delivery × FactReceipt)} {env : Env} {channel : Channel}
      {deviceId : String} {records : List Json} {calls calls' : List Call} :
      Padded Delivery.Same (log.map Prod.fst) []
        (Request.batch channel deviceId records).deliveries →
      WithRepeats k db log calls calls' →
      WithRepeats k db log calls (⟨env, .batch channel deviceId records⟩ :: calls')

section

variable {k : Crates} {env : Env} {deviceId : String} {channel : Channel}
  {records records' : List Json} {db : Db} {b b' : Batch}
  {log : List (Delivery × FactReceipt)}

def mayDeliver (env : Env) (deviceId : String) : Channel → Host DeviceKind
  | .facts => requireLive env deviceId
  | .palletEvents => requireKinds env deviceId [.handheld]

theorem deliveries_batch :
    (Request.batch channel deviceId records).deliveries = records.map (⟨channel, deviceId, ·⟩) := by
  cases channel <;> rfl

theorem handle_batch : handle k env (.batch channel deviceId records) = (do
    Txn.assert (1 ≤ records.length ∧ records.length ≤ maxRecords) (.validation "records")
    let _ ← mayDeliver env deviceId channel
    let receipts ← Txn.each (receiveAt k env) (Request.batch channel deviceId records).deliveries
    pure (.receipts receipts)) := by
  rw [deliveries_batch, Txn.each_map]
  cases channel with
  | facts => simp only [Request.batch, handle, receiveFacts, bind_assoc, Txn.each_map]; rfl
  | palletEvents =>
    simp only [Request.batch, handle, receiveEvents, bind_assoc, Txn.each_map]
    rfl

theorem handle_batch_done {answer : Answer}
    (h : handle k env (.batch channel deviceId records) b = .done answer b') :
    ∃ receipts, answer = .receipts receipts ∧
      Txn.each (receiveAt k env) (Request.batch channel deviceId records).deliveries b =
        .done receipts b' := by
  simp only [handle_batch, bind_done, assert_done, pure_done] at h
  obtain ⟨_, _, ⟨-, rfl⟩, _, t, ht, receipts, _, h, rfl, rfl⟩ := h
  refine ⟨receipts, rfl, ?_⟩
  cases channel with
  | facts =>
    obtain rfl := requireLive_done ht
    exact h
  | palletEvents =>
    obtain rfl := requireKinds_done ht
    exact h

def LogAnswered (k : Crates) (db : Db) (log : List (Delivery × FactReceipt)) : Prop :=
  ∀ e ∈ log, ∀ w, e.1.Same w → Answered k db w e.2

theorem LogAnswered.extends {db' : Db} (h : LogAnswered k db log) (he : db.Extends db') :
    LogAnswered k db' log :=
  fun e hm w hs => (h e hm w hs).extends he

theorem mayDeliver_done {kind : DeviceKind}
    (h : mayDeliver env deviceId channel b = .done kind b') :
    b' = b := by
  cases channel with
  | facts => exact requireLive_done h
  | palletEvents => exact requireKinds_done h

/-- A batch with repeats ends as the batch does, with the receipts the repeats had got. -/
theorem handle_padded (env : Env) (hlog : LogAnswered k b.db log)
    (hkeyed : ∀ d ∈ (Request.batch channel deviceId records).deliveries, d.Keyed)
    (hp : Padded Delivery.Same (log.map Prod.fst)
      (Request.batch channel deviceId records).deliveries
      (Request.batch channel deviceId records').deliveries)
    (hlen : 1 ≤ records.length) (hmax : records'.length ≤ maxRecords) :
    (handle k env (.batch channel deviceId records) b).Agrees
      (fun a a' => ∃ rs rs', a = .receipts rs ∧ a' = .receipts rs' ∧
        Told Delivery.Same log ((Request.batch channel deviceId records).deliveries.zip rs)
          ((Request.batch channel deviceId records').deliveries.zip rs'))
      (handle k env (.batch channel deviceId records') b) := by
  have hle : records.length ≤ records'.length := by simpa [deliveries_batch] using hp.length_le
  rw [handle_batch, handle_batch, Txn.assert, if_pos ⟨hlen, hle.trans hmax⟩, Txn.assert,
    if_pos ⟨hlen.trans hle, hmax⟩]
  refine Txn.Outcome.Agrees.bind (P := fun _ _ => True) ⟨trivial, rfl⟩ fun _ _ t ht _ => ?_
  obtain rfl := (pure_done.1 ht).2
  refine Txn.Outcome.Agrees.bind (P := Eq) (.refl (fun _ => rfl) _) fun _ _ t ht _ => ?_
  obtain rfl := mayDeliver_done ht
  refine Txn.Outcome.Agrees.bind (Repeats.each_padded (remembers env) hp hkeyed hlog) ?_
  exact fun rs rs' t _ h => ⟨⟨rs, rs', rfl, rfl, h⟩, rfl⟩

theorem serve_padded (env : Env) (hlog : LogAnswered k db log)
    (hkeyed : ∀ d ∈ (Request.batch channel deviceId records).deliveries, d.Keyed)
    (hp : Padded Delivery.Same (log.map Prod.fst)
      (Request.batch channel deviceId records).deliveries
      (Request.batch channel deviceId records').deliveries)
    (hlen : 1 ≤ records.length) (hmax : records'.length ≤ maxRecords) :
    step k db ⟨env, .batch channel deviceId records'⟩ =
        step k db ⟨env, .batch channel deviceId records⟩ ∧
      Told Delivery.Same log
        ((Request.batch channel deviceId records).told
          (serve k ⟨env, .batch channel deviceId records⟩ db).1)
        ((Request.batch channel deviceId records').told
          (serve k ⟨env, .batch channel deviceId records'⟩ db).1) := by
  have h := handle_padded (b := Batch.begin db) env hlog hkeyed hp hlen hmax
  unfold step serve
  simp only
  cases hx : handle k env (.batch channel deviceId records) (Batch.begin db) with
  | done a t =>
    cases hy : handle k env (.batch channel deviceId records') (Batch.begin db) with
    | done a' t' =>
      rw [hx, hy] at h
      obtain ⟨⟨rs, rs', rfl, rfl, ht⟩, rfl⟩ := h
      exact ⟨rfl, ht⟩
    | refused => simp [hx, hy, Txn.Outcome.Agrees] at h
    | failed => simp [hx, hy, Txn.Outcome.Agrees] at h
  | refused r t =>
    cases hy : handle k env (.batch channel deviceId records') (Batch.begin db) with
    | refused => exact ⟨rfl, .nil⟩
    | done => simp [hx, hy, Txn.Outcome.Agrees] at h
    | failed => simp [hx, hy, Txn.Outcome.Agrees] at h
  | failed e =>
    cases hy : handle k env (.batch channel deviceId records') (Batch.begin db) with
    | failed => exact ⟨rfl, .nil⟩
    | done => simp [hx, hy, Txn.Outcome.Agrees] at h
    | refused => simp [hx, hy, Txn.Outcome.Agrees] at h

theorem serve_repeats (env : Env) (hlog : LogAnswered k db log)
    (hp : Padded Delivery.Same (log.map Prod.fst) []
      (Request.batch channel deviceId records).deliveries) :
    step k db ⟨env, .batch channel deviceId records⟩ = db ∧
      Told Delivery.Same log []
        ((Request.batch channel deviceId records).told
          (serve k ⟨env, .batch channel deviceId records⟩ db).1) := by
  unfold step serve
  simp only
  cases hx : handle k env (.batch channel deviceId records) (Batch.begin db) with
  | done a t =>
    obtain ⟨rs, rfl, hrs⟩ := handle_batch_done hx
    have h := Repeats.each_padded (s := Batch.begin db) (remembers env) hp (by simp) hlog
    rw [hrs] at h
    obtain ⟨htold, rfl⟩ := h
    exact ⟨rfl, htold⟩
  | refused => exact ⟨rfl, .nil⟩
  | failed => exact ⟨rfl, .nil⟩

theorem serve_withRepeats (env : Env) {request request' : Request} (hlog : LogAnswered k db log)
    (hkeyed : ∀ d ∈ request.deliveries, d.Keyed) (hp : request.Padded log request') :
    step k db ⟨env, request'⟩ = step k db ⟨env, request⟩ ∧
      Told Delivery.Same log (request.told (serve k ⟨env, request⟩ db).1)
        (request'.told (serve k ⟨env, request'⟩ db).1) := by
  cases hp with
  | same => exact ⟨rfl, .refl _ _⟩
  | @batch channel deviceId records records' hp hmax =>
    cases records with
    | cons v vs => exact serve_padded env hlog hkeyed hp (by simp) hmax
    | nil =>
      -- An empty batch is refused, and a batch of repeats in its place changes nothing either.
      have hfail : handle k env (.batch channel deviceId []) (Batch.begin db) =
          .failed (.validation "records") := by
        rw [handle_batch]
        rfl
      have hserve : serve k ⟨env, .batch channel deviceId []⟩ db =
          (.error (.validation "records"), db) := by
        simp only [serve, hfail]
      have hstep : step k db ⟨env, .batch channel deviceId []⟩ = db := by rw [step, hserve]
      rw [deliveries_batch, List.map_nil] at hp
      obtain ⟨hstep', htold⟩ := serve_repeats env hlog hp
      rw [hstep, hstep', hserve]
      exact ⟨rfl, htold⟩

theorem told_answered (c : Call) (hkeyed : ∀ d ∈ c.request.deliveries, d.Keyed) :
    LogAnswered k (step k db c) (c.request.told (serve k c db).1) := by
  have hbatch : ∀ channel deviceId records, c.request = .batch channel deviceId records →
      LogAnswered k (step k db c) (c.request.told (serve k c db).1) := by
    intro channel deviceId records hc
    rw [hc] at hkeyed
    unfold step serve
    rw [hc]
    cases hx : handle k c.env (.batch channel deviceId records) (Batch.begin db) with
    | done a t =>
      obtain ⟨rs, rfl, hrs⟩ := handle_batch_done hx
      exact (remembers c.env).learns_each hkeyed hrs
    | refused => simp [Request.told, LogAnswered]
    | failed => simp [Request.told, LogAnswered]
  have hother : c.request.deliveries = [] →
      LogAnswered k (step k db c) (c.request.told (serve k c db).1) := by
    intro hc e he
    unfold Request.told at he
    split at he <;> simp [hc] at he
  cases hc : c.request with
  | facts deviceId records => exact hc ▸ hbatch .facts deviceId records hc
  | palletEvents deviceId records => exact hc ▸ hbatch .palletEvents deviceId records hc
  | _ => exact hc ▸ hother (by rw [hc]; rfl)

/-- **Repeats leave a run as it was.** -/
theorem run_withRepeats {calls calls' : List Call} (hlog : LogAnswered k db log)
    (hkeyed : ∀ c ∈ calls, ∀ d ∈ c.request.deliveries, d.Keyed)
    (h : WithRepeats k db log calls calls') :
    run k db calls' = run k db calls ∧
      Told Delivery.Same log (history k db calls) (history k db calls') := by
  induction h with
  | nil => exact ⟨rfl, .nil⟩
  | @call db log c request calls calls' hpad _ ih =>
    have hc := hkeyed c List.mem_cons_self
    have hlog' : LogAnswered k (step k db c) (log ++ c.request.told (serve k c db).1) := by
      intro e he
      rcases List.mem_append.1 he with he | he
      · exact hlog.extends (step_extends db c) e he
      · exact told_answered c hc e he
    obtain ⟨hrun, htold⟩ := ih hlog' fun c' hc' => hkeyed c' (List.mem_cons_of_mem _ hc')
    have hone : step k db ⟨c.env, request⟩ = step k db c ∧
        Told Delivery.Same log (c.request.told (serve k c db).1)
          (request.told (serve k ⟨c.env, request⟩ db).1) :=
      serve_withRepeats c.env hlog hc hpad
    refine ⟨?_, ?_⟩
    · show run k (step k db ⟨c.env, request⟩) calls' = run k (step k db c) calls
      rw [hone.1, hrun]
    · simp only [history, hone.1]
      exact hone.2.append htold
  | @extra db log env channel deviceId records calls calls' hp _ ih =>
    obtain ⟨hstep, htold⟩ := serve_repeats env hlog hp
    obtain ⟨hrun, hrest⟩ := ih hlog hkeyed
    refine ⟨?_, ?_⟩
    · show run k (step k db ⟨env, .batch channel deviceId records⟩) calls' = run k db calls
      rw [hstep, hrun]
    · simp only [history, hstep]
      exact htold.append (by simpa using hrest)

theorem receiveAt_mismatch {env' : Env} {id : String} {v w : Delivery} {r : FactReceipt}
    {t t' : Batch} (hsha : Function.Injective k.sha256Hex)
    (hw : readableId w.record.canon = some id) (hnew : t.db.kept w.channel w.deviceId id = none)
    (hr : receiveAt k env w t = .done r t') (he : t'.db.Extends b.db)
    (hv : readableId v.record.canon = some id) (hc : v.channel = w.channel)
    (hd : v.deviceId = w.deviceId) (hne : v.record.canon ≠ w.record.canon) :
    receiveAt k env' v b = .done (rejected (some id) (.new "payload_mismatch")) b := by
  have hk := he.kept (receiveAt_new hw hnew hr)
  rw [← hc, ← hd] at hk
  rw [receiveAt_kept hv hk, answerKept, if_neg]
  intro hdigest
  exact hne (Json.text_injective (hsha hdigest)).symm

end

/-- **A record sent again is answered as before and changes nothing.** With no two texts of one
SHA-256, and facts that are not arrays of a record's fields: a run with repeats put in anywhere
leaves the tables of the run without them, and each repeat gets the receipt its record got; another
record under a received id is answered `payload_mismatch`, whatever came in between, and changes
nothing. The law is the same for facts and for pallet events. -/
theorem repeats_change_nothing (k : Crates) (hsha : Function.Injective k.sha256Hex) :
    (∀ (db : Db) (calls calls' : List Call),
      (∀ c ∈ calls, ∀ d ∈ c.request.deliveries, d.Keyed) → WithRepeats k db [] calls calls' →
      run k db calls' = run k db calls ∧
        Told Delivery.Same [] (history k db calls) (history k db calls')) ∧
    (∀ (v w : Delivery) (id : String) (env env' : Env) (t t' b : Batch) (r : FactReceipt),
      readableId w.record.canon = some id → t.db.kept w.channel w.deviceId id = none →
      receiveAt k env w t = .done r t' → Relation.ReflTransGen (Arrives k) t'.db b.db →
      v.channel = w.channel → v.deviceId = w.deviceId → readableId v.record.canon = some id →
      v.record.canon ≠ w.record.canon →
      receiveAt k env' v b = .done (rejected (some id) (.new "payload_mismatch")) b) := by
  constructor
  · intro db calls calls' hkeyed h
    exact run_withRepeats (by simp [LogAnswered]) hkeyed h
  · intro v w id env env' t t' b r hw hnew hr hrun hc hd hv hne
    have he : t'.db.Extends b.db := by
      generalize t'.db = s, b.db = s' at hrun
      induction hrun with
      | refl => exact .refl _
      | tail _ ha ih => exact ih.trans ha.extends
    exact receiveAt_mismatch hsha hw hnew hr he hv hc hd hne

namespace Sample

def sentScan : Json :=
  scan "33333333-3333-4333-8333-333333333333" "2024-01-01T10:00:00.000Z" none

/-- The same scan as an array of its record's fields. -/
def listedScan : Json :=
  .arr [.str "33333333-3333-4333-8333-333333333333", .str "scan", .str shift, .null,
    scanData "2024-01-01T10:00:00.000Z" none]

def batch (records : List Json) : List Call := [⟨env "a", .facts station records⟩]

theorem batch_twice (k : Crates) (db : Db) (v : Json) :
    WithRepeats k db [] (batch [v]) (batch [v, v]) := by
  have hp : Request.Padded [] (.facts station [v]) (.facts station [v, v]) :=
    @Request.Padded.batch [] .facts station [v] [v, v]
      (.sent (.again (by simp) ⟨rfl, rfl, rfl⟩ .nil)) (by simp [maxRecords])
  exact .call hp .nil

end Sample

open Sample

theorem repeats_change_nothing_sample :
    run Crates.sample (site .validation) (batch [sentScan, sentScan]) =
      run Crates.sample (site .validation) (batch [sentScan]) := by
  refine ((repeats_change_nothing Crates.sample fun _ _ h => h).1 _ _ _ ?_
    (batch_twice _ _ _)).1
  intro c hc d hd _ vs r hv
  obtain rfl := List.mem_singleton.1 hc
  obtain rfl := List.mem_singleton.1 hd
  cases hv

/-- An array of a scan's fields is applied, and applied again: the second time its row is there
already and the batch fails. -/
theorem array_record_repeats : Function.Injective Crates.sample.sha256Hex ∧
    ¬∀ (db : Db) (calls calls' : List Call), WithRepeats Crates.sample db [] calls calls' →
      run Crates.sample db calls' = run Crates.sample db calls := by
  refine ⟨fun _ _ h => h, fun h => ?_⟩
  have heq := h (site .validation) _ _ (batch_twice _ _ listedScan)
  have hlen : (run Crates.sample (site .validation)
      (batch [listedScan, listedScan])).scans.length ≠
      (run Crates.sample (site .validation)
        (batch [listedScan])).scans.length := by
    decide +kernel
  exact hlen (congrArg (fun db => db.scans.length) heq)

end Markiro
