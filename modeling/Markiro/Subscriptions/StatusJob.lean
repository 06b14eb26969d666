import Markiro.Subscriptions.Records

/-!
# The status job

`SubscriptionStatusJob.run` writes the statuses that the terms already imply: a row whose start has
come is activated, a row whose end has come expires. The model is the transaction of one tenant;
the job skips a tenant without a due row, for which the transaction writes nothing. Subscriptions
and add-ons go through the same transition (`transitionSubscriptionStatus`, `transitionAddon`), so
it is one definition over the tables it can run on.
-/

namespace Markiro.Subscriptions

/-! ## Rows that start and end -/

inductive Entity where
  | subscription | addon
  deriving DecidableEq

/-- The status a row is given. -/
inductive Mark where
  | active | expired
  deriving DecidableEq

/-- Where a row stands: yet to start, in force, or neither. -/
inductive Stage where
  | scheduled | running | done
  deriving DecidableEq

/-- A table of rows that start and end, as the job reads and writes it. -/
class Dated (α : Type) where
  entity : Entity
  id : α → Uuid
  subscriptionId : α → Uuid
  term : α → Term
  stage : α → Stage
  sameStatus : α → α → Bool
  setStatus : Mark → Instant → α → α
  eventKind : Mark → EventKind
  rows : Tables → List α
  store : Tables → List α → Except Refusal Tables

def SubscriptionStatus.stage : SubscriptionStatus → Stage
  | .scheduled => .scheduled
  | .trial | .active => .running
  | _ => .done

def AddonStatus.stage : AddonStatus → Stage
  | .scheduled => .scheduled
  | .active => .running
  | _ => .done

def Mark.subscriptionStatus : Mark → SubscriptionStatus
  | .active => .active
  | .expired => .expired

def Mark.addonStatus : Mark → AddonStatus
  | .active => .active
  | .expired => .expired

instance : Dated Subscription where
  entity := .subscription
  id := (·.id)
  subscriptionId := (·.id)
  term := (·.toTerm)
  stage r := r.status.stage
  sameStatus a b := a.status = b.status
  setStatus m now r := { r with status := m.subscriptionStatus, updatedAt := now }
  eventKind
    | .active => .planActivated
    | .expired => .planExpired
  rows := (·.subscriptions)
  store := Tables.storeSubscriptions

instance : Dated Addon where
  entity := .addon
  id := (·.id)
  subscriptionId := (·.subscriptionId)
  term := (·.toTerm)
  stage r := r.status.stage
  sameStatus a b := a.status = b.status
  setStatus m _ r := { r with status := m.addonStatus }
  eventKind
    | .active => .addonActivated
    | .expired => .addonExpired
  rows := (·.addons)
  store := Tables.storeAddons

/-- The job has to change the row at an instant. -/
def isDue {α : Type} [Dated α] (t : Instant) (row : α) : Bool :=
  match Dated.stage row with
  | .running => termEnded (Dated.term row) t
  | .scheduled => termStarted (Dated.term row) t
  | .done => false

/-- `order by starts_at, id`, rows without a start last. -/
def startsBefore {α : Type} [Dated α] (a b : α) : Prop :=
  match (Dated.term a).startsAt, (Dated.term b).startsAt with
  | some s, some s' => s < s' ∨ s = s' ∧ Dated.id a ≤ Dated.id b
  | some _, none => True
  | none, some _ => False
  | none, none => Dated.id a ≤ Dated.id b

instance {α : Type} [Dated α] : DecidableRel (startsBefore (α := α)) := fun a b => by
  unfold startsBefore
  split <;> infer_instance

/-- The due rows of a table in the order the job takes them. -/
def dueRows (α : Type) [Dated α] (t : Instant) (tables : Tables) : List α :=
  ((Dated.rows tables).filter (isDue t)).insertionSort startsBefore

/-! ## Transitions -/

structure MaterializeResult where
  subscriptionsActivated : ℕ := 0
  subscriptionsExpired : ℕ := 0
  addonsActivated : ℕ := 0
  addonsExpired : ℕ := 0
  deriving DecidableEq

def MaterializeResult.tally (r : MaterializeResult) : Entity → Mark → MaterializeResult
  | .subscription, .active => { r with subscriptionsActivated := r.subscriptionsActivated + 1 }
  | .subscription, .expired => { r with subscriptionsExpired := r.subscriptionsExpired + 1 }
  | .addon, .active => { r with addonsActivated := r.addonsActivated + 1 }
  | .addon, .expired => { r with addonsExpired := r.addonsExpired + 1 }

section

/- The digest that names an event, and the clock `updated_at` is taken from. -/
variable (deterministicEventId : Entity → Uuid → EventKind → Instant → Uuid) (now : Instant)
variable {α : Type} [Dated α]

/-- The row a guarded update finds. -/
def isRow (row r : α) : Bool := Dated.id r = Dated.id row && Dated.sameStatus r row

def transitionEvent (row : α) (next : Mark) (effectiveAt : Instant) (reason : String) : Event where
  id := some (deterministicEventId (Dated.entity α) (Dated.id row) (Dated.eventKind α next)
    effectiveAt)
  subscriptionId := Dated.subscriptionId row
  eventKind := Dated.eventKind α next
  effectiveAt := effectiveAt
  source := .subscriptionStatusJob
  reason := some reason

/-- One row's status change with its event; `false` when the row has not the status it was read
with. -/
def transition (row : α) (next : Mark) (effectiveAt : Instant) (reason : String) : Body Bool :=
  fun t => do
    let written ← Dated.store t
      (Table.update (isRow row) (Dated.setStatus next now) (Dated.rows t))
    if (Dated.rows t).countP (isRow row) ≠ 1 then return (false, written)
    return (true, written.recordEvent
      (transitionEvent deterministicEventId row next effectiveAt reason))

def expire (t : Instant) (row : α) (result : MaterializeResult) : Body MaterializeResult :=
  match (Dated.term row).endsAt with
  | none => return result
  | some endsAt =>
    if endsAt ≤ t then do
      let changed ← transition deterministicEventId now row .expired endsAt "term_ended"
      return if changed then result.tally (Dated.entity α) .expired else result
    else return result

/-- A row whose start has come is activated, and expires at once if its end has come too. -/
def activate (t : Instant) (row : α) (result : MaterializeResult) : Body MaterializeResult :=
  match (Dated.term row).startsAt with
  | none => return result
  | some startsAt => do
    let activated ←
      transition deterministicEventId now row .active startsAt "scheduled_start_reached"
    if activated then
      expire deterministicEventId now t (Dated.setStatus .active now row)
        (result.tally (Dated.entity α) .active)
    else return result

/-- What the job does with a due row. -/
def materialize (t : Instant) (result : MaterializeResult) (row : α) : Body MaterializeResult :=
  match Dated.stage row with
  | .running => expire deterministicEventId now t row result
  | .scheduled => activate deterministicEventId now t row result
  | .done => return result

/-- The transaction of one tenant. Rows in force expire before their successors are activated, so
that no two of them are current. -/
def runStatusJob (t : Instant) : Body MaterializeResult := do
  let due := dueRows Subscription t (← get)
  let expired ← (due.filter (·.status ≠ .scheduled)).foldlM
    (materialize deterministicEventId now t) {}
  let activated ← (due.filter (·.status = .scheduled)).foldlM
    (materialize deterministicEventId now t) expired
  (dueRows Addon t (← get)).foldlM (materialize deterministicEventId now t) activated

end

end Markiro.Subscriptions
