import Markiro.Lib.Txn
import Markiro.Lib.Table
import Markiro.Lib.Calendar
import Markiro.Host.Schema

/-!
# Requests, errors and the write transaction

What every handler of the host shares: the errors it answers (`error.rs`), the functions it takes
from crates outside the repository, the surroundings of one request, and the statements of a write
transaction over the tables (`db.rs`, `audit.rs`).
-/

namespace Markiro

open Calendar

/-! ## Crates -/

/-- The functions of other crates that the host calls, with what it relies on: SHA-256 in hex, and
the RFC 3339 reader and writer of `time`, which read a UTC text as the moment it names and write a
UTC moment in whole seconds. -/
structure Crates where
  sha256Hex : String → String
  parseRfc3339 : String → Option DateTime
  formatRfc3339 : DateTime → String
  parse_milliText : ∀ d, parseRfc3339 (milliText d) = some d.atMilli
  parse_secondText : ∀ d, parseRfc3339 (secondText d) = some d.atSecond
  format_utc : ∀ d : DateTime, d.offset = 0 → formatRfc3339 d = secondText d

def Crates.sample : Crates where
  sha256Hex text := text
  parseRfc3339 := readRfc3339
  formatRfc3339 := secondText
  parse_milliText := readRfc3339_milliText
  parse_secondText := readRfc3339_secondText
  format_utc _ _ := rfl

/-! ## Errors -/

/-- An error answer; whatever the request wrote is rolled back. -/
inductive ApiError where
  | validation (field : String)
  | malformed
  | unauthorized
  | forbidden
  | notFound
  | conflict (constraint : String)
  | ssccExhausted
  | ssccBelowFloor (minSerial : ℕ)
  | staleRevision (current : ℕ)
  | internal
  deriving DecidableEq

/-- Whether the answer's status is 409. -/
def ApiError.isConflict : ApiError → Bool
  | .conflict _ | .ssccExhausted | .ssccBelowFloor _ | .staleRevision _ => true
  | _ => false

/-- Why a record was not applied: a receipt's code and details. -/
structure Reject where
  code : String
  details : Option Json
  deriving DecidableEq

/-- A refusal that is its code alone. -/
def Reject.new (code : String) : Reject := ⟨code, none⟩

def Reject.field (field : String) : Reject :=
  ⟨"invalid_record", some (.obj [("field", .str field)])⟩

/-! ## A request's surroundings -/

/-- What one request meets outside the database: the host's clock, the random UUIDs it draws, and
the answers of its credential, of the license and of the snapshot's templates. -/
structure Env where
  now : UtcDateTime
  uuids : ℕ → String
  access : Except ApiError Unit
  palletsFeature : Except ApiError Unit
  newShifts : Except ApiError Unit
  templates : Except ApiError Unit

/-- A moment in the host's own format: whole seconds, UTC. -/
def formatTimestamp (k : Crates) (d : DateTime) : String := k.formatRfc3339 d

def parseTimestamp (k : Crates) (text : String) : Option DateTime := k.parseRfc3339 text

/-- The host's clock as it is stored. -/
def Env.timestamp (k : Crates) (env : Env) : String := formatTimestamp k env.now.1

theorem Env.timestamp_eq (k : Crates) (env : Env) : env.timestamp k = secondText env.now.1 :=
  k.format_utc _ env.now.2

/-! ## The write transaction -/

/-- A write transaction's state: the tables, the revision the batch took, if it took one, and how
many UUIDs were drawn. -/
structure Batch where
  db : Db
  revision : Option ℕ
  drawn : ℕ

/-- A statement of a write transaction. -/
abbrev Host := Txn ApiError Reject Batch

def select {α : Type} (f : Db → α) : Host α := Txn.query fun b => f b.db

/-- An `UPDATE` or a `DELETE`. -/
def execute (f : Db → Db) : Host Unit := Txn.write fun b => { b with db := f b.db }

/-- An `INSERT` that a unique index refuses unless `free` holds. -/
def insert (free : Db → Prop) [DecidablePred free] (f : Db → Db) : Host Unit := do
  Txn.assert (← select fun db => decide (free db)) .internal
  execute f

def newUuid (env : Env) : Host String := do
  let n ← Txn.query fun b : Batch => b.drawn
  Txn.write fun b : Batch => { b with drawn := n + 1 }
  pure (env.uuids n)

/-- Increase the global revision and return it. -/
def nextRevision : Host ℕ := do
  execute fun db => { db with revision := db.revision + 1 }
  select fun db => db.revision

/-- The batch's revision, taken on first need. -/
def batchRevision : Host ℕ := do
  match ← Txn.query fun b : Batch => b.revision with
  | some rev => pure rev
  | none => do
    let rev ← nextRevision
    Txn.write fun b : Batch => { b with revision := some rev }
    pure rev

def record (row : AuditRow) : Host Unit :=
  execute fun db => { db with audit := db.audit ++ [row] }

/-- The value of a check made before the transaction. -/
def orError {α : Type} (x : Except ApiError α) : Host α :=
  match x with
  | .ok a => pure a
  | .error e => Txn.fail e

section Inversion

variable {α : Type} {b b' : Batch} {u : Unit}

@[simp] theorem select_done {f : Db → α} {a : α} :
    select f b = .done a b' ↔ f b.db = a ∧ b = b' := Txn.query_done

variable {r : Reject}

@[simp] theorem select_refused {f : Db → α} : select f b = .refused r b' ↔ False :=
  Txn.query_refused

variable {f : Db → Db}

@[simp] theorem execute_done :
    execute f b = .done u b' ↔ { b with db := f b.db } = b' := Txn.write_done

@[simp] theorem execute_refused : execute f b = .refused r b' ↔ False := Txn.write_refused

@[simp] theorem insert_done {free : Db → Prop} [DecidablePred free] :
    insert free f b = .done u b' ↔ free b.db ∧ { b with db := f b.db } = b' := by
  simp [insert]

@[simp] theorem insert_refused {free : Db → Prop} [DecidablePred free] :
    insert free f b = .refused r b' ↔ False := by
  simp [insert]

@[simp] theorem newUuid_done {env : Env} {id : String} :
    newUuid env b = .done id b' ↔ env.uuids b.drawn = id ∧
    { b with drawn := b.drawn + 1 } = b' := by
  simp [newUuid, and_comm]

@[simp] theorem newUuid_refused {env : Env} : newUuid env b = .refused r b' ↔ False := by
  simp [newUuid]

@[simp] theorem nextRevision_done {n : ℕ} : nextRevision b = .done n b' ↔ b.db.revision + 1 = n ∧
      { b with db := { b.db with revision := b.db.revision + 1 } } = b' := by
  simp [nextRevision]

@[simp] theorem nextRevision_refused : nextRevision b = .refused r b' ↔ False := by
  simp [nextRevision]

@[simp] theorem record_done {row : AuditRow} :
    record row b = .done u b' ↔
    { b with db := { b.db with audit := b.db.audit ++ [row] } } = b' := by
  simp [record]

@[simp] theorem record_refused {row : AuditRow} : record row b = .refused r b' ↔ False := by
  simp [record]

@[simp] theorem orError_done {x : Except ApiError α} {a : α} :
    orError x b = .done a b' ↔ x = .ok a ∧ b = b' := by
  cases x <;> simp [orError]

@[simp] theorem orError_refused {x : Except ApiError α} : orError x b = .refused r b' ↔ False := by
  cases x <;> simp [orError]

theorem silent_select {f : Db → α} : Txn.Silent (select f) := Txn.silent_query _

theorem neverRefuses_select {f : Db → α} : Txn.NeverRefuses (select f) :=
  fun _ _ _ h => select_refused.1 h

theorem neverRefuses_execute : Txn.NeverRefuses (execute f) :=
  fun _ _ _ h => execute_refused.1 h

theorem neverRefuses_insert {free : Db → Prop} [DecidablePred free] :
    Txn.NeverRefuses (insert free f) :=
  fun _ _ _ h => insert_refused.1 h

theorem neverRefuses_newUuid {env : Env} : Txn.NeverRefuses (newUuid env) :=
  fun _ _ _ h => newUuid_refused.1 h

theorem neverRefuses_batchRevision : Txn.NeverRefuses batchRevision := by
  intro s r s' h
  unfold batchRevision at h
  simp only [Txn.bind_refused, Txn.query_refused, Txn.query_done, false_or] at h
  obtain ⟨a, t, -, h⟩ := h
  cases a <;> simp at h

end Inversion

end Markiro
