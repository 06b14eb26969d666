import Markiro.Lib.Utf16

/-!
# Repacking a box in an inventory

The reducer of the station's repacking (`inventory/repacking.ts`): a box is opened over an old one,
takes observed items of one production date up to its capacity, and is closed for printing or
invalidated by a conflict the server decides.
-/

namespace Markiro.Repacking

open Utf16

inductive Phase where
  | awaitingOldBox | scanning | closedPendingPrint | invalidated
  deriving DecidableEq

inductive Classification where
  | eligible | «protected» | knownIneligible | unknown | invalid | duplicate
  deriving DecidableEq

structure Membership where
  eventId : Units
  codeHash : Units
  position : ℕ
  observedAt : Units
  productionDate : Units
  sourceParentSscc : Option Units
  sourceParentMismatch : Bool
  deriving DecidableEq

structure BoxState where
  boxId : Units
  oldSsccContext : Units
  newSscc : Units
  productionDate : Units
  openedAt : Units
  closedAt : Option Units
  invalidatedAt : Option Units
  items : List Membership
  deriving DecidableEq

structure State where
  phase : Phase
  ownerDeviceId : Units
  capacity : ℕ
  activeProductionDate : Units
  oldSsccContext : Option Units
  box : Option BoxState
  deriving DecidableEq

structure Observation where
  eventId : Units
  codeHash : Units
  classification : Classification
  observedProductionDate : Units
  sourceParentSscc : Option Units

inductive Action where
  | selectOldBox (deviceId oldSscc boxId newSscc openedAt : Units)
  | observeItem (deviceId observedAt : Units) (item : Observation)
  | changeActiveDate (deviceId productionDate : Units)
  | removeLast (deviceId removedAt : Units)
  | clearOpenBox (deviceId clearedAt : Units)
  | closeIncomplete (deviceId : Units) (confirmed : Bool) (closedAt : Units)
  | authoritativeConflict (affectedBoxIds : List Units) (invalidatedAt : Units)

def Action.deviceId : Action → Option Units
  | .selectOldBox deviceId .. | .observeItem deviceId .. | .changeActiveDate deviceId ..
  | .removeLast deviceId .. | .clearOpenBox deviceId .. | .closeIncomplete deviceId .. =>
    some deviceId
  | .authoritativeConflict .. => none

inductive Effect where
  | oldBoxSelected
  | observationOnly (classification : Classification) (boxDateMismatch : Bool)
  | itemAdded (position : ℕ) (sourceParentMismatch : Bool)
  | capacityClosed (position : ℕ) (sourceParentMismatch : Bool)
  | membershipReplay (position : ℕ)
  | dateChanged
  | lastItemRemoved (eventId : Units)
  | boxCleared (removedCount : ℕ)
  | incompleteClosed
  | boxInvalidated
  | conflictUnrelated
  deriving DecidableEq

inductive FailureReason where
  | oldBoxRequired | oldBoxAlreadySelected | foreignBoxOwner | printPending | boxInvalidated
  | nonEmptyBoxDateFrozen | confirmIncompleteClose | boxEmpty
  deriving DecidableEq

/-- What the reducer answers; a failure carries a state too. -/
inductive Result where
  | ok (state : State) (effect : Effect)
  | fail (state : State) (reason : FailureReason)

def Result.state : Result → State
  | .ok state _ | .fail state _ => state

/-- `Number.isSafeInteger(n)`. -/
def isSafeInteger (n : ℚ) : Bool :=
  n.isInt && decide (-(2 ^ 53 - 1) ≤ n) && decide (n ≤ 2 ^ 53 - 1)

/-- None where the source throws. -/
def createInventoryRepackingState (ownerDeviceId : Units) (capacity : ℚ)
    (activeProductionDate : Units) : Option State :=
  if isSafeInteger capacity = false ∨ capacity ≤ 0 then none
  else some ⟨.awaitingOldBox, ownerDeviceId, capacity.num.toNat, activeProductionDate, none, none⟩

def requireOwnedOpenBox (state : State) (deviceId : Units) : Option FailureReason :=
  if deviceId ≠ state.ownerDeviceId then some .foreignBoxOwner
  else if state.phase = .closedPendingPrint then some .printPending
  else if state.phase = .invalidated then some .boxInvalidated
  else if state.phase ≠ .scanning ∨ state.box = none then some .oldBoxRequired
  else none

def selectOldBox (state : State) (deviceId oldSscc boxId newSscc openedAt : Units) : Result :=
  if deviceId ≠ state.ownerDeviceId then .fail state .foreignBoxOwner
  else if state.phase = .closedPendingPrint then .fail state .printPending
  else if state.phase = .invalidated then .fail state .boxInvalidated
  else if state.phase ≠ .awaitingOldBox then .fail state .oldBoxAlreadySelected
  else
    .ok { state with
      phase := .scanning
      oldSsccContext := some oldSscc
      box := some ⟨boxId, oldSscc, newSscc, state.activeProductionDate, openedAt, none, none, []⟩ }
      .oldBoxSelected

def authoritativeConflict (state : State) (affectedBoxIds : List Units) (invalidatedAt : Units) :
    Result :=
  match state.box with
  | none => .ok state .conflictUnrelated
  | some box =>
    if box.boxId ∉ affectedBoxIds then .ok state .conflictUnrelated
    else if state.phase = .invalidated then .ok state .boxInvalidated
    else
      .ok { state with
        phase := .invalidated
        box := some { box with invalidatedAt := some invalidatedAt } } .boxInvalidated

def withOpenBox (state : State) (deviceId : Units) (act : BoxState → Result) : Result :=
  match requireOwnedOpenBox state deviceId with
  | some reason => .fail state reason
  | none =>
    match state.box with
    | none => .fail state .oldBoxRequired
    | some box => act box

def observeItem (state : State) (box : BoxState) (observedAt : Units) (item : Observation) :
    Result :=
  if item.classification ≠ .eligible then
    .ok state (.observationOnly item.classification false)
  else if item.observedProductionDate ≠ box.productionDate then
    .ok state (.observationOnly .eligible true)
  else
    match box.items.find? fun x => x.codeHash = item.codeHash with
    | some existing => .ok state (.membershipReplay existing.position)
    | none =>
      let sourceParentMismatch := decide (item.sourceParentSscc ≠ some box.oldSsccContext)
      let position := box.items.length + 1
      let nextBox := { box with
        items := box.items ++ [⟨item.eventId, item.codeHash, position, observedAt,
          item.observedProductionDate, item.sourceParentSscc, sourceParentMismatch⟩]
        closedAt := if position = state.capacity then some observedAt else none }
      .ok { state with
        phase := if position = state.capacity then .closedPendingPrint else .scanning
        box := some nextBox }
        (if position = state.capacity then .capacityClosed position sourceParentMismatch
          else .itemAdded position sourceParentMismatch)

def reduceInventoryRepacking (state : State) : Action → Result
  | .authoritativeConflict affectedBoxIds invalidatedAt =>
    authoritativeConflict state affectedBoxIds invalidatedAt
  | .selectOldBox deviceId oldSscc boxId newSscc openedAt =>
    selectOldBox state deviceId oldSscc boxId newSscc openedAt
  | .changeActiveDate deviceId productionDate =>
    withOpenBox state deviceId fun box =>
      if 0 < box.items.length then .fail state .nonEmptyBoxDateFrozen
      else
        .ok { state with
          activeProductionDate := productionDate
          box := some { box with productionDate } } .dateChanged
  | .observeItem deviceId observedAt item =>
    withOpenBox state deviceId fun box => observeItem state box observedAt item
  | .removeLast deviceId _ =>
    withOpenBox state deviceId fun box =>
      match box.items.getLast? with
      | none => .fail state .boxEmpty
      | some last =>
        .ok { state with box := some { box with items := box.items.dropLast } }
          (.lastItemRemoved last.eventId)
  | .clearOpenBox deviceId _ =>
    withOpenBox state deviceId fun box =>
      .ok { state with box := some { box with items := [] } } (.boxCleared box.items.length)
  | .closeIncomplete deviceId confirmed closedAt =>
    withOpenBox state deviceId fun box =>
      if confirmed = false then .fail state .confirmIncompleteClose
      else if box.items.length = 0 then .fail state .boxEmpty
      else
        .ok { state with
          phase := .closedPendingPrint
          box := some { box with closedAt := some closedAt } } .incompleteClosed

def runActions (state : State) (actions : List Action) : State :=
  actions.foldl (fun state action => (reduceInventoryRepacking state action).state) state

end Markiro.Repacking
