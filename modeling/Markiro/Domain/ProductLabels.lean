import Markiro.Domain.Labels

/-!
# Product labels

The events of a product label's print job and the projection they are folded into
(`product-labels/contracts.ts`, `product-labels/state.ts`).
-/

namespace Markiro

open Utf16

/-! ## The model -/

inductive VerificationPolicy where
  | none | required
  deriving DecidableEq

inductive ProductLabelReprintReason where
  | notPrinted | damaged | lost
  deriving DecidableEq

inductive ProductLabelAttemptState where
  | prepared | sending | sent | failedBeforeSend | deliveryUnknown
  deriving DecidableEq

inductive ProductLabelJobStatus where
  | prepared | sending | awaitingVerification | completed | attention
  deriving DecidableEq

inductive VerificationOutcome where
  | notRequired | pending | verified | skipped
  deriving DecidableEq

/-- What the bytes of a label are: a printer's language, or `mono-raster-v1`. -/
inductive ProductLabelPrintIdentity where
  | language (language : LabelLanguage)
  | monoRasterV1
  deriving DecidableEq

/-- `PrinterLanguage | "mono-raster-v1"`. -/
inductive ProductLabelFormat where
  | zpl | tspl | monoRasterV1
  deriving DecidableEq

def productLabelPrintFormat : ProductLabelPrintIdentity → ProductLabelFormat
  | .monoRasterV1 => .monoRasterV1
  | .language .zpl => .zpl
  | .language .tspl => .tspl

/-- The `ORIGIN_FIELDS`, which every event of a job repeats. -/
structure ProductLabelOrigin where
  jobId : Units
  shiftId : Units
  codeHash : Units
  acceptedAt : Units
  policyRevision : Units
  templateDigest : Units
  payloadDigest : Units
  deriving DecidableEq

/-- What a `prepared` event adds to the base of an event. -/
structure PreparedAttempt where
  attemptNo : ℕ
  reason : Option ProductLabelReprintReason
  identity : ProductLabelPrintIdentity
  dpi : PrinterDpi
  bytesDigest : Units
  deriving DecidableEq

inductive ProductLabelEventKind where
  | prepared (attempt : PreparedAttempt)
  | sending
  | sent
  | failedBeforeSend
  | deliveryUnknown
  | verificationSkipped
  | verified (scannedPayloadDigest : Units)
  | verificationRejected
  deriving DecidableEq

structure ProductLabelEvent where
  origin : ProductLabelOrigin
  attemptId : Units
  sequence : ℕ
  kind : ProductLabelEventKind
  deriving DecidableEq

/-- Immutable origin and print context accompany the current attempt's projection. -/
structure ProductLabelProjection where
  origin : ProductLabelOrigin
  identity : ProductLabelPrintIdentity
  latestSequence : ℕ
  attemptId : Units
  attemptNo : ℕ
  attemptState : ProductLabelAttemptState
  verification : VerificationPolicy
  verificationOutcome : VerificationOutcome
  status : ProductLabelJobStatus
  bytesDigest : Units
  dpi : PrinterDpi
  deriving DecidableEq

/-! ## Transitions -/

inductive ProductLabelErrorCode where
  | productLabelTransitionInvalid
  deriving DecidableEq

/-- What a function that throws a `DomainError` of this kind gives. -/
abbrev ProductLabels := Except (ProductLabelErrorCode × Units)

def invalidTransition {α : Type} : ProductLabels α :=
  .error (.productLabelTransitionInvalid,
    encode "Product label event does not follow the current attempt")

def productLabelStatus (attempt : ProductLabelAttemptState) (verification : VerificationPolicy)
    (verified skipped : Bool) : ProductLabels ProductLabelJobStatus :=
  if skipped then
    if verified || attempt != .sent || verification != .required then invalidTransition
    else .ok .completed
  else if verified then
    if attempt != .sent && attempt != .deliveryUnknown then invalidTransition else .ok .completed
  else
    match attempt with
    | .prepared => .ok .prepared
    | .sending => .ok .sending
    | .sent => .ok (if verification = .required then .awaitingVerification else .completed)
    | .failedBeforeSend | .deliveryUnknown => .ok .attention

/-- Whether an attempt can follow the current one. -/
def canPrepare (current : ProductLabelProjection) (attemptId : Units) (next : PreparedAttempt) :
    Bool :=
  current.attemptState != .sending && current.attemptState != .prepared &&
    attemptId != current.attemptId && next.attemptNo == current.attemptNo + 1 &&
    next.reason.isSome && next.bytesDigest == current.bytesDigest &&
    productLabelPrintFormat next.identity == productLabelPrintFormat current.identity &&
    next.dpi == current.dpi

def canVerify (current : ProductLabelProjection) : Bool :=
  current.attemptState == .deliveryUnknown ||
    (current.attemptState == .sent && current.verification == .required)

/-- Only the next new event may advance. -/
def canApplyProductLabelEvent (current : ProductLabelProjection) (event : ProductLabelEvent) :
    Bool :=
  if ¬event.sequence ≤ maxSafeInteger ∨ event.sequence ≠ current.latestSequence + 1 ∨
      current.origin ≠ event.origin then false
  else
    match event.kind with
    | .prepared next => canPrepare current event.attemptId next
    | kind =>
      if event.attemptId ≠ current.attemptId ∨ current.verificationOutcome = .verified ∨
          current.verificationOutcome = .skipped then false
      else
        match kind with
        | .sending | .failedBeforeSend => current.attemptState == .prepared
        | .sent | .deliveryUnknown => current.attemptState == .sending
        | .verificationSkipped =>
          current.attemptState == .sent && current.verification == .required
        | .verified scannedPayloadDigest =>
          canVerify current && scannedPayloadDigest == current.origin.payloadDigest
        | .verificationRejected => canVerify current
        | .prepared _ => false

/-- The outcome an attempt begins with. -/
def initialOutcome (verification : VerificationPolicy) : VerificationOutcome :=
  if verification = .required then .pending else .notRequired

def nextAttemptState (current : ProductLabelAttemptState) :
    ProductLabelEventKind → ProductLabelAttemptState
  | .prepared _ => .prepared
  | .sending => .sending
  | .sent => .sent
  | .failedBeforeSend => .failedBeforeSend
  | .deliveryUnknown => .deliveryUnknown
  | .verified _ | .verificationRejected | .verificationSkipped => current

def nextVerificationOutcome (current : VerificationOutcome) :
    ProductLabelEventKind → VerificationOutcome
  | .verified _ => .verified
  | .verificationSkipped => .skipped
  | _ => current

def applyProductLabelEvent (current : Option ProductLabelProjection) (event : ProductLabelEvent)
    (verification : VerificationPolicy) : ProductLabels ProductLabelProjection :=
  match current with
  | none =>
    match event.kind with
    | .prepared attempt =>
      if event.sequence ≠ 1 ∨ attempt.attemptNo ≠ 1 ∨ attempt.reason ≠ none then invalidTransition
      else .ok {
        origin := event.origin
        bytesDigest := attempt.bytesDigest
        identity := attempt.identity
        dpi := attempt.dpi
        latestSequence := 1
        attemptId := event.attemptId
        attemptNo := 1
        attemptState := .prepared
        verification := verification
        verificationOutcome := initialOutcome verification
        status := .prepared }
    | _ => invalidTransition
  | some current =>
    if current.verification ≠ verification ∨ canApplyProductLabelEvent current event = false then
      invalidTransition
    else
      match event.kind with
      | .prepared attempt => .ok { current with
          latestSequence := event.sequence
          attemptId := event.attemptId
          attemptNo := attempt.attemptNo
          attemptState := .prepared
          status := .prepared
          verificationOutcome := initialOutcome verification }
      | kind => do
        let attemptState := nextAttemptState current.attemptState kind
        let verificationOutcome := nextVerificationOutcome current.verificationOutcome kind
        let status ← productLabelStatus attemptState verification
          (verificationOutcome == .verified) (verificationOutcome == .skipped)
        return { current with
          latestSequence := event.sequence
          attemptState := attemptState
          verificationOutcome := verificationOutcome
          status := status }

end Markiro
