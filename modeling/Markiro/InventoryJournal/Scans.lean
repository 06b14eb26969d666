import Markiro.Domain.CommercialTerms
import Markiro.Domain.Gs1

/-!
# Inventory scans

`classifyScan` and `classifyInventoryScan` of the domain with the facts that `inventory-journal.ts`
of the station reads for them: the rows of the active snapshot and the claims of earlier events. One
station scans, so its own id, the same in every row and claim, is left out; what a snapshot row says
of a code beyond its date, state and box is not read here.
-/

namespace Markiro.InventoryJournal

open Utf16 Commercial Calendar

/-! ## Scanner input -/

/-- A uuid by its number, which orders as its text does. -/
abbrev Uuid := ℕ

/-- An instant by its milliseconds, which order as the texts of one format do. -/
abbrev Instant := ℤ

inductive ScanInput where
  | km (km : ParsedKm)
  | gtin (gtin14 : Units)
  | sscc (sscc : Units)
  | unknown (raw : Units)

/-- Single classification point for every scanner event. -/
def classifyScan (raw : Units) : ScanInput :=
  match parseScannedSscc (ecmaTrim raw) false with
  | some sscc => .sscc sscc
  | none =>
    match normalizeToGtin14 (ecmaTrim raw) with
    | .ok gtin14 => .gtin gtin14
    | .error _ =>
      match canonicalizeKm raw with
      | .ok km => .km km
      | .error _ => .unknown raw

/-! ## The snapshot -/

inductive OriginClassification where
  | expected | «protected» | knownIneligible
  deriving DecidableEq

/-- A row of `inventory_snapshot_codes_mirror`. -/
structure SnapshotRow where
  codeHash : String
  sourceState : Option String
  sourceProductionDate : Option String
  expected : Bool
  «protected» : Bool
  parentSscc : Option Units

def SnapshotRow.origin (row : SnapshotRow) : OriginClassification :=
  if row.sourceState = some "MOVING_BY_UD" ∨ row.protected then .protected
  else if row.expected then .expected
  else .knownIneligible

/-- What holds of the inventory while it is counted: the active snapshot, in the order of its key,
the hash of a code, and whether the terminal is leaving the inventory. -/
structure Inventory where
  kmHash : ParsedKm → String
  rows : List SnapshotRow
  unique : (rows.map (·.codeHash)).Nodup
  leaving : Bool

/-! ## Claims -/

/-- The text `item:…`, `known_box:…` or `old_box:…`, by its parts. -/
inductive NormalizedIdentity where
  | item (codeHash : String)
  | knownBox (sscc : Units)
  | oldBox (sscc : Units)
  deriving DecidableEq

/-- The event that a code belongs to; a code that is no item is named by its identity. -/
structure LocalClaim where
  code : NormalizedIdentity
  eventId : Uuid
  scannedAt : Instant
  deriving DecidableEq

/-- Scanned earlier, or at the same time by an event with a lesser id. -/
def LocalClaim.precedes (a b : LocalClaim) : Bool :=
  a.scannedAt < b.scannedAt || (a.scannedAt = b.scannedAt && a.eventId < b.eventId)

/-- The first of the claims in that order, and in their own where they are equal. -/
def firstClaim : List LocalClaim → Option LocalClaim
  | [] => none
  | claim :: claims =>
    match firstClaim claims with
    | none => some claim
    | some first => if first.precedes claim then some first else some claim

/-! ## Classification -/

structure BoxChild where
  codeHash : String
  origin : OriginClassification
  firstWinning : Option LocalClaim

inductive ScanIdentity where
  | item (codeHash : String) (canonicalRaw : Units)
  | knownBox (sscc : Units) (children : List BoxChild)
  | oldBox (sscc : Units)

inductive ScanKind where
  | origin (origin : OriginClassification)
  | unknown
  | duplicate (firstWinning : LocalClaim)

inductive InvalidReason where
  | malformed | wrongGtin | unsupported
  deriving DecidableEq

/-- A scan that is no noise. -/
structure ValidScan where
  kind : ScanKind
  identity : ScanIdentity

inductive ScanClassification where
  | valid (scan : ValidScan)
  | invalid (reason : InvalidReason)

/-- What is read for the classification of a scan. -/
structure ClassifierFacts where
  rows : List SnapshotRow
  claims : List LocalClaim

namespace ClassifierFacts

variable (facts : ClassifierFacts)

def findSnapshotCode (codeHash : String) : Option SnapshotRow :=
  facts.rows.find? (·.codeHash = codeHash)

def findSnapshotChildren (sscc : Units) : List SnapshotRow :=
  facts.rows.filter (·.parentSscc = some sscc)

def findLocalClaim (codeHash : String) : Option LocalClaim :=
  facts.claims.find? (·.code = .item codeHash)

end ClassifierFacts

def classifyItem (kmHash : ParsedKm → String) (taskGtin14 : Units) (facts : ClassifierFacts)
    (km : ParsedKm) : ScanClassification :=
  if km.gtin14 ≠ taskGtin14 then .invalid .wrongGtin
  else .valid {
    identity := .item (kmHash km) km.raw
    kind := match facts.findLocalClaim (kmHash km) with
      | some claim => .duplicate claim
      | none =>
        match facts.findSnapshotCode (kmHash km) with
        | none => .unknown
        | some row => .origin row.origin }

def boxChild (facts : ClassifierFacts) (row : SnapshotRow) : BoxChild :=
  ⟨row.codeHash, row.origin, facts.findLocalClaim row.codeHash⟩

def unclaimed (children : List BoxChild) : List BoxChild :=
  children.filter (·.firstWinning = none)

/-- The kind of a box with unclaimed children, by the best of them. -/
def boxOrigin (children : List BoxChild) : OriginClassification :=
  if children.any (·.origin = .expected) then .expected
  else if children.any (·.origin = .protected) then .protected
  else .knownIneligible

def boxKind (children : List BoxChild) : ScanKind :=
  if unclaimed children = [] then
    match firstClaim (children.filterMap (·.firstWinning)) with
    | some claim => .duplicate claim
    | none => .unknown
  else .origin (boxOrigin (unclaimed children))

def classifyBox (facts : ClassifierFacts) (sscc : Units) : ValidScan :=
  if facts.findSnapshotChildren sscc = [] then ⟨.unknown, .oldBox sscc⟩
  else
    let children := (facts.findSnapshotChildren sscc).map (boxChild facts)
    ⟨boxKind children, .knownBox sscc children⟩

def classifyInventoryScan (kmHash : ParsedKm → String) (taskGtin14 raw : Units)
    (facts : ClassifierFacts) : ScanClassification :=
  match classifyScan raw with
  | .km km => classifyItem kmHash taskGtin14 facts km
  | .sscc sscc => .valid (classifyBox facts sscc)
  | .gtin _ => .invalid .unsupported
  | .unknown _ => .invalid .malformed

/-! ## What a scan is recorded as -/

inductive Verdict where
  | origin (origin : OriginClassification)
  | unknown
  | duplicate
  deriving DecidableEq

def ScanKind.verdict : ScanKind → Verdict
  | .origin o => .origin o
  | .unknown => .unknown
  | .duplicate _ => .duplicate

def ScanKind.duplicateWinner : ScanKind → Option LocalClaim
  | .duplicate claim => some claim
  | _ => none

def ScanIdentity.normalized : ScanIdentity → NormalizedIdentity
  | .item codeHash _ => .item codeHash
  | .knownBox sscc _ => .knownBox sscc
  | .oldBox sscc => .oldBox sscc

/-- `validPayload`. -/
def ScanIdentity.payload : ScanIdentity → Units
  | .item _ canonicalRaw => canonicalRaw
  | .knownBox sscc _ => sscc
  | .oldBox sscc => sscc

def ScanIdentity.childCount : ScanIdentity → ℕ
  | .knownBox _ children => children.length
  | _ => 0

/-! ## The date that follows from a scan -/

inductive ScanSourceDate where
  | none
  | single (productionDate : String)
  | mixed
  deriving DecidableEq

/-- One more date of a box's unclaimed children. -/
def ScanSourceDate.add : ScanSourceDate → String → ScanSourceDate
  | .none, date => .single date
  | .single found, date => if found = date then .single found else .mixed
  | .mixed, _ => .mixed

/-- Only an expected scan has one, a box that of its children which are not claimed yet. -/
def resolveInventoryScanSourceDate (facts : ClassifierFacts) (scan : ValidScan) : ScanSourceDate :=
  match scan.kind with
  | .origin .expected =>
    match scan.identity with
    | .item codeHash _ =>
      match (facts.findSnapshotCode codeHash).bind (·.sourceProductionDate) with
      | some date => .single date
      | none => .none
    | .knownBox sscc children =>
      let hashes := ((unclaimed children).filter (·.origin = .expected)).map (·.codeHash)
      (((facts.findSnapshotChildren sscc).filter (·.codeHash ∈ hashes)).filterMap
        (·.sourceProductionDate)).foldl ScanSourceDate.add .none
    | .oldBox _ => .none
  | _ => .none

/-- `assertCivilDate` accepts the text: a day that the calendar has. -/
def isCivilDate (value : String) : Bool :=
  match matchCivilDate value.toList with
  | some (year, month, day) =>
    decide ((1 ≤ month ∧ month ≤ 12) ∧ 1 ≤ day ∧ day ≤ daysInMonth year month)
  | none => false

end Markiro.InventoryJournal
