import Markiro.Host.Rules

/-!
# The license state

The license of a host as a pure function of the stored files, the trial's start, the time the host
trusts and the organization's INN (`license/state.rs`), the check of a file before it is stored
(`license/verify.rs`) and the emergency extension (`license/routes.rs`). Times are milliseconds in
64 bits, added and subtracted with saturation.
-/

namespace Markiro.License

/-! ## Numbers -/

/-- An `i64` that saturates. -/
def saturate (n : ℤ) : ℤ := max (-(2 ^ 63)) (min n (2 ^ 63 - 1))

def dayMs : ℤ := 86400000
def trialDays : ℤ := 14
def wrongHostDays : ℤ := 30
def emergencyMs : ℤ := 72 * 60 * 60 * 1000
def maxWarnDays : ℤ := 30

/-- What the emergency extension of the built-in trial is recorded under. -/
def trialKey : String := "trial"

/-! ## The state's parts -/

inductive Phase where
  | trial | active | expiring | grace | restricted | wrongHost | innMismatch | trialExpired
  deriving DecidableEq

/-- New shifts open in every state but three. -/
def Phase.opensNewShifts : Phase → Bool
  | .restricted | .innMismatch | .trialExpired => false
  | .trial | .active | .expiring | .grace | .wrongHost => true

structure Quotas where
  lines : Option ℕ
  stations : Option ℕ
  kiosks : Option ℕ
  cabinetUsers : Option ℕ
  deriving DecidableEq

def Quotas.unlimited : Quotas := ⟨none, none, none, none⟩

structure Features where
  labelEditor : Bool
  publicApi : Bool
  pallets : Bool
  chzIntegration : Bool
  inventory : Bool
  commerceMl : Bool
  handheld : Bool
  customLogo : Bool
  deriving DecidableEq

/-- The built-in trial's: every feature. -/
def Features.all : Features := ⟨true, true, true, true, true, true, true, true⟩

structure StoredLicense where
  licenseId : String
  sequence : ℤ
  kid : String
  hostId : String
  issuedAt : ℤ
  validFrom : ℤ
  validUntil : ℤ
  graceDays : ℤ
  plan : String
  planVersionId : String
  customerName : String
  customerInn : String
  quotas : Quotas
  features : Features
  deriving DecidableEq

structure Trial where
  startedAt : ℤ
  endsAt : ℤ
  deriving DecidableEq

/-- What the state is computed from. -/
structure Inputs where
  now : ℤ
  hostId : String
  orgInn : Option String
  licenses : List StoredLicense
  trialStartedAt : Option ℤ
  wrongHostSince : Option ℤ
  innMismatchSince : Option ℤ
  emergency : Option (String × ℤ)

structure Evaluation where
  phase : Phase
  since : ℤ
  phaseEndsAt : Option ℤ
  daysLeft : Option ℕ
  warnDays : ℕ
  license : Option StoredLicense
  trial : Option Trial
  quotas : Quotas
  features : Features
  innMatches : Option Bool
  emergencyKey : String
  emergencyUsed : Bool
  emergencyUntil : Option ℤ
  emergencyAvailable : Bool
  opensNewShifts : Bool
  wrongHostSince : Option ℤ
  deriving DecidableEq

/-! ## The taxpayer number -/

def innCheckDigit (digits weights : List ℕ) : ℕ :=
  ((weights.zip digits).map fun x => x.1 * x.2).sum % 11 % 10

/-- Exactly 10 or 12 digits whose check digits hold. -/
def innIsValid (value : String) : Bool :=
  value.toList.all Char.isDigit &&
    let digits := value.toList.map fun c => c.toNat - '0'.toNat
    match digits.length with
    | 10 => innCheckDigit digits [2, 4, 10, 3, 5, 9, 4, 6, 8] == digits.getD 9 0
    | 12 => innCheckDigit digits [7, 2, 4, 10, 3, 5, 9, 4, 6, 8] == digits.getD 10 0 &&
        innCheckDigit digits [3, 7, 2, 4, 10, 3, 5, 9, 4, 6, 8] == digits.getD 11 0
    | _ => false

/-- The value without JavaScript's whitespace at its edges, if that is a valid INN. -/
def normalizeInn (value : String) : Option String :=
  let trimmed := trimMatches (fun c => (isWhitespace c && c != '\x85') || c == '\ufeff') value
  if innIsValid trimmed then some trimmed else none

/-- Both INNs normalized, then compared as text: one whose check digit fails equals nothing. -/
def innMatches (org : Option String) (file : String) : Bool :=
  match org.bind normalizeInn, normalizeInn file with
  | some org, some file => org == file
  | _, _ => false

/-! ## The state -/

/-- `min(30, ⌊term in days / 3⌋)`. -/
def warnDays (termMs : ℤ) : ℤ := min (max termMs 0 / dayMs / 3) maxWarnDays

/-- Whole days until `fin`, rounded up, as 32 bits; 0 once it passed. -/
def daysUntil (fin now : ℤ) : ℕ :=
  if fin ≤ now then 0
  else min (saturate (saturate (fin - now) + (dayMs - 1)) / dayMs).toNat (2 ^ 32 - 1)

/-- The last of the elements with the greatest key. -/
def maxByKey {α : Type} (key : α → ℤ) (l : List α) : Option α :=
  l.foldl (fun best x =>
    match best with
    | none => some x
    | some b => if key b ≤ key x then some x else some b) none

/-- The file in force at `now`: the highest `sequence` among those that began. -/
def effective (licenses : List StoredLicense) (now : ℤ) : Option StoredLicense :=
  maxByKey StoredLicense.sequence (licenses.filter fun license => license.validFrom ≤ now)

structure Phased where
  phase : Phase
  since : ℤ
  ends : Option ℤ
  daysLeft : Option ℕ

def ofTrial (trial : Trial) (now : ℤ) : Phased :=
  if now < trial.endsAt then
    ⟨.trial, trial.startedAt, some trial.endsAt, some (daysUntil trial.endsAt now)⟩
  else ⟨.trialExpired, trial.endsAt, none, none⟩

def graceEnd (file : StoredLicense) : ℤ :=
  saturate (file.validUntil + saturate (file.graceDays * dayMs))

def ofTerm (file : StoredLicense) (warn now : ℤ) : Phased :=
  let expiringFrom := saturate (file.validUntil - saturate (warn * dayMs))
  if now < expiringFrom then
    ⟨.active, file.validFrom, some expiringFrom, some (daysUntil file.validUntil now)⟩
  else if now < file.validUntil then
    ⟨.expiring, max expiringFrom file.validFrom, some file.validUntil,
      some (daysUntil file.validUntil now)⟩
  else if now < graceEnd file then
    ⟨.grace, file.validUntil, some (graceEnd file), some (daysUntil (graceEnd file) now)⟩
  else ⟨.restricted, graceEnd file, none, none⟩

/-- The state under another host's file, first seen at `seen`: whichever end comes first
restricts. -/
def ofWrongHost (file : StoredLicense) (seen now : ℤ) : Phased :=
  let ends := min (saturate (seen + wrongHostDays * dayMs)) (graceEnd file)
  if now < ends then ⟨.wrongHost, seen, some ends, some (daysUntil ends now)⟩
  else ⟨.restricted, ends, none, none⟩

def Trial.from (startedAt : ℤ) : Trial := ⟨startedAt, saturate (startedAt + trialDays * dayMs)⟩

/-- The phase, the warning's days, whether the INN matches, and since when another host's file was
seen in force. -/
def Inputs.phased (i : Inputs) : Phased × ℤ × Option Bool × Option ℤ :=
  match effective i.licenses i.now with
  | none =>
    (ofTrial ((i.trialStartedAt.map Trial.from).getD (Trial.from i.now)) i.now,
      License.warnDays (trialDays * dayMs), none, none)
  | some file =>
    let warn := License.warnDays (saturate (file.validUntil - file.validFrom))
    let matched := License.innMatches i.orgInn file.customerInn
    if file.hostId ≠ i.hostId then
      let seen := i.wrongHostSince.getD i.now
      (ofWrongHost file seen i.now, warn, some matched, some seen)
    else if matched = false then
      (⟨.innMismatch, i.innMismatchSince.getD i.now, none, none⟩, warn, some matched, none)
    else (ofTerm file warn i.now, warn, some matched, none)

/-- The file's id, or the trial's key. -/
def emergencyKey (licenses : List StoredLicense) (now : ℤ) : String :=
  ((effective licenses now).map (·.licenseId)).getD trialKey

/-- Whether the extension of `key` was used, and its end while it runs. -/
def emergencyUse (emergency : Option (String × ℤ)) (key : String) (now : ℤ) : Bool × Option ℤ :=
  match emergency with
  | some (usedFor, «until») =>
    if usedFor = key then (true, if now < «until» then some «until» else none) else (false, none)
  | none => (false, none)

/-- The state at `now`: another host's file first, then the INN, then the file's term; without a file
in force, the trial. -/
def evaluate (i : Inputs) : Evaluation :=
  let license := effective i.licenses i.now
  let (phased, warn, matched, wrongHostSince) := i.phased
  let key := License.emergencyKey i.licenses i.now
  let (used, «until») := emergencyUse i.emergency key i.now
  { phase := phased.phase
    since := phased.since
    phaseEndsAt := phased.ends
    daysLeft := phased.daysLeft
    warnDays := warn.toNat
    license
    trial := i.trialStartedAt.map Trial.from
    quotas := (license.map (·.quotas)).getD Quotas.unlimited
    features := (license.map (·.features)).getD Features.all
    innMatches := matched
    emergencyKey := key
    emergencyUsed := used
    emergencyUntil := «until»
    emergencyAvailable := !used && !phased.phase.opensNewShifts
    opensNewShifts := phased.phase.opensNewShifts || «until».isSome
    wrongHostSince }

/-! ## Loading a file -/

/-- `is_uuid` of a file's payload. -/
def isUuid (text : String) : Bool :=
  decide (text.toList.length = 36) &&
    (text.toList.zipIdx.all fun (c, index) =>
      if index = 8 ∨ index = 13 ∨ index = 18 ∨ index = 23 then c == '-'
      else isLowerHex c) &&
    (text.toList[14]?.any fun c => '1' ≤ c && c ≤ '8') &&
    (text.toList[19]?.any fun c => c == '8' || c == '9' || c == 'a' || c == 'b')

/-- A file this build trusts, read: `LicensePayloadV1::is_valid` checked its id. -/
structure Verified where
  license : StoredLicense
  compact : String
  validId : isUuid license.licenseId = true

inductive Refusal where
  | wrongHost (licenseId fileHostId : String)
  | innMismatch (licenseId fileInn orgInn : String)
  | innMissing (licenseId : String)
  | older (licenseId : String) (newest : ℤ)
  deriving DecidableEq

inductive Admission where
  | new | same
  deriving DecidableEq

/-- This host's file, the organization's INN, newer than every stored file; the same file again is
no refusal. -/
def admitFile (verified : Verified) (hostId : String) (orgInn : Option String)
    (stored : List StoredLicense) (newest : Option ℤ) : Except Refusal Admission :=
  let license := verified.license
  if license.hostId ≠ hostId then .error (.wrongHost license.licenseId license.hostId)
  else
    match orgInn with
    | none => .error (.innMissing license.licenseId)
    | some org =>
      if License.innMatches (some org) license.customerInn = false then
        .error (.innMismatch license.licenseId license.customerInn org)
      else if stored.any fun known => known.licenseId = license.licenseId then .ok .same
      else
        match newest with
        | some newest =>
          if license.sequence ≤ newest then .error (.older license.licenseId newest) else .ok .new
        | none => .ok .new

/-! ## The emergency extension -/

inductive EmergencyRefusal where
  | used | notNeeded
  deriving DecidableEq

/-- `POST /v1/office/license/emergency`: what is stored, the key and the end of the extension. -/
def enableEmergency (i : Inputs) : Except EmergencyRefusal (String × ℤ) :=
  let evaluation := evaluate i
  if evaluation.emergencyUsed then .error .used
  else if evaluation.opensNewShifts then .error .notNeeded
  else .ok (evaluation.emergencyKey, saturate (i.now + emergencyMs))

end Markiro.License
