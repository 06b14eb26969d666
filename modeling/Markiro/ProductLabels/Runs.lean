import Markiro.Domain.ProductLabels
import Markiro.Lib.Results

/-!
# Print runs of a product label

The events of a job are folded one by one, and an event that does not follow is refused
(`printRun`). The accepted events fall into attempts (`attemptsOf`), each of which has one of the
shapes of `AttemptShape`; everything a run says of a job is read off them
(`product_label_print_runs`).
-/

namespace Markiro

open Utf16

/-! ## One event -/

/-- The status a projection shows. -/
def statusOf (attempt : ProductLabelAttemptState) (verification : VerificationPolicy)
    (outcome : VerificationOutcome) : ProductLabelJobStatus :=
  if outcome = .verified ∨ outcome = .skipped then .completed
  else
    match attempt with
    | .prepared => .prepared
    | .sending => .sending
    | .sent => if verification = .required then .awaitingVerification else .completed
    | .failedBeforeSend | .deliveryUnknown => .attention

def advance (current : ProductLabelProjection) (event : ProductLabelEvent) :
    ProductLabelProjection :=
  match event.kind with
  | .prepared attempt => { current with
      latestSequence := event.sequence
      attemptId := event.attemptId
      attemptNo := attempt.attemptNo
      attemptState := .prepared
      status := .prepared
      verificationOutcome := initialOutcome current.verification }
  | kind => { current with
      latestSequence := event.sequence
      attemptState := nextAttemptState current.attemptState kind
      verificationOutcome := nextVerificationOutcome current.verificationOutcome kind
      status := statusOf (nextAttemptState current.attemptState kind) current.verification
        (nextVerificationOutcome current.verificationOutcome kind) }

/-- The projection a job begins with. -/
def begun (event : ProductLabelEvent) (attempt : PreparedAttempt)
    (verification : VerificationPolicy) : ProductLabelProjection where
  origin := event.origin
  bytesDigest := attempt.bytesDigest
  identity := attempt.identity
  dpi := attempt.dpi
  latestSequence := 1
  attemptId := event.attemptId
  attemptNo := 1
  attemptState := .prepared
  verification := verification
  verificationOutcome := initialOutcome verification
  status := .prepared

def Begins (event : ProductLabelEvent) : Prop :=
  event.sequence = 1 ∧ ∃ attempt, event.kind = .prepared attempt ∧ attempt.attemptNo = 1 ∧
    attempt.reason = none

section Step

variable {verification : VerificationPolicy} {current next : ProductLabelProjection}
  {event : ProductLabelEvent}

def FollowsIn (verification : VerificationPolicy) (payloadDigest : Units)
    (state : ProductLabelAttemptState) : ProductLabelEventKind → Prop
  | .prepared _ => False
  | .sending | .failedBeforeSend => state = .prepared
  | .sent | .deliveryUnknown => state = .sending
  | .verificationSkipped => state = .sent ∧ verification = .required
  | .verified digest => (state = .deliveryUnknown ∨ state = .sent ∧ verification = .required) ∧
      digest = payloadDigest
  | .verificationRejected => state = .deliveryUnknown ∨ state = .sent ∧ verification = .required

def Follows (current : ProductLabelProjection) : ProductLabelEventKind → Prop :=
  FollowsIn current.verification current.origin.payloadDigest current.attemptState

/-- What a new attempt needs. -/
structure Prepares (current : ProductLabelProjection) (event : ProductLabelEvent)
    (attempt : PreparedAttempt) : Prop where
  kind : event.kind = .prepared attempt
  idle : current.attemptState ≠ .sending ∧ current.attemptState ≠ .prepared
  attemptId : event.attemptId ≠ current.attemptId
  attemptNo : attempt.attemptNo = current.attemptNo + 1
  reason : attempt.reason ≠ none
  bytesDigest : attempt.bytesDigest = current.bytesDigest
  format : productLabelPrintFormat attempt.identity = productLabelPrintFormat current.identity
  dpi : attempt.dpi = current.dpi

/-- **What an event that can be applied is**: the next of the job, and either a new attempt or an
event that follows in the current one. -/
theorem canApply_cases (h : canApplyProductLabelEvent current event = true) :
    (event.sequence ≤ maxSafeInteger ∧ event.sequence = current.latestSequence + 1 ∧
      event.origin = current.origin) ∧
      ((∃ attempt, Prepares current event attempt) ∨
        event.attemptId = current.attemptId ∧ current.verificationOutcome ≠ .verified ∧
          current.verificationOutcome ≠ .skipped ∧ Follows current event.kind) := by
  unfold canApplyProductLabelEvent at h
  by_cases hbase : ¬event.sequence ≤ maxSafeInteger ∨
      event.sequence ≠ current.latestSequence + 1 ∨ current.origin ≠ event.origin
  · rw [if_pos hbase] at h
    cases h
  rw [if_neg hbase] at h
  simp only [not_or, not_not, ne_eq] at hbase
  refine ⟨⟨hbase.1, hbase.2.1, hbase.2.2.symm⟩, ?_⟩
  cases hkind : event.kind with
  | prepared attempt =>
    simp only [hkind, canPrepare, Bool.and_eq_true, bne_iff_ne, ne_eq, beq_iff_eq] at h
    obtain ⟨⟨⟨⟨⟨⟨⟨hsending, hprepared⟩, hid⟩, hno⟩, hreason⟩, hbytes⟩, hformat⟩, hdpi⟩ := h
    exact .inl ⟨attempt, hkind, ⟨hsending, hprepared⟩, hid, hno,
      Option.isSome_iff_ne_none.1 hreason, hbytes,
      hformat, hdpi⟩
  | _ =>
    refine .inr ?_
    simp only [hkind] at h
    split at h
    · cases h
    rename_i hattempt
    simp only [not_or, ne_eq, not_not] at hattempt
    refine ⟨hattempt.1, hattempt.2.1, hattempt.2.2, ?_⟩
    simpa [Follows, FollowsIn, canVerify] using h

theorem productLabelStatus_eq {attempt : ProductLabelAttemptState} {outcome : VerificationOutcome}
    (hverified : outcome = .verified → attempt = .sent ∨ attempt = .deliveryUnknown)
    (hskipped : outcome = .skipped → attempt = .sent ∧ verification = .required) :
    productLabelStatus attempt verification (outcome == .verified) (outcome == .skipped) =
      .ok (statusOf attempt verification outcome) := by
  cases outcome with
  | verified =>
    rcases hverified rfl with rfl | rfl
    · simp [productLabelStatus, statusOf]
    · simp [productLabelStatus, statusOf]
  | skipped =>
    obtain ⟨rfl, rfl⟩ := hskipped rfl
    simp [productLabelStatus, statusOf]
  | notRequired => cases attempt <;> simp [productLabelStatus, statusOf]
  | pending => cases attempt <;> simp [productLabelStatus, statusOf]

theorem Follows.verified {kind : ProductLabelEventKind} (h : Follows current kind)
    (hnot : current.verificationOutcome ≠ .verified)
    (hnext : nextVerificationOutcome current.verificationOutcome kind = .verified) :
    nextAttemptState current.attemptState kind = .sent ∨
      nextAttemptState current.attemptState kind = .deliveryUnknown := by
  cases kind with
  | verified digest =>
    rcases h.1 with hstate | ⟨hstate, -⟩
    · exact .inr hstate
    · exact .inl hstate
  | verificationSkipped => cases hnext
  | _ => exact absurd hnext hnot

theorem Follows.skipped {kind : ProductLabelEventKind} (h : Follows current kind)
    (hnot : current.verificationOutcome ≠ .skipped)
    (hnext : nextVerificationOutcome current.verificationOutcome kind = .skipped) :
    nextAttemptState current.attemptState kind = .sent ∧ current.verification = .required := by
  cases kind with
  | verificationSkipped => exact h
  | verified digest => cases hnext
  | _ => exact absurd hnext hnot

/-- **The status function refuses nothing that can be applied.** -/
theorem applyProductLabelEvent_some (hpolicy : current.verification = verification) :
    applyProductLabelEvent (some current) event verification =
      if canApplyProductLabelEvent current event = true then .ok (advance current event)
      else invalidTransition := by
  subst hpolicy
  unfold applyProductLabelEvent
  simp only
  by_cases h : canApplyProductLabelEvent current event = true
  · have hnot : ¬(current.verification ≠ current.verification ∨
        canApplyProductLabelEvent current event = false) := by simp [h]
    rw [if_neg hnot, if_pos h, advance]
    rcases (canApply_cases h).2 with ⟨attempt, hprepares⟩ | ⟨-, hv, hs, hfollows⟩
    · rw [hprepares.kind]
    · have hstatus := productLabelStatus_eq (hfollows.verified hv) (hfollows.skipped hs)
      cases hkind : event.kind with
      | prepared attempt => rfl
      | _ =>
        rw [hkind] at hstatus
        simp only [hstatus]
        rfl
  · rw [if_neg h, if_pos (.inr (by simpa using h))]

/-- A job begins with a first attempt without a reason. -/
theorem applyProductLabelEvent_none :
    applyProductLabelEvent none event verification = .ok next ↔
      ∃ attempt, event.kind = .prepared attempt ∧ event.sequence = 1 ∧ attempt.attemptNo = 1 ∧
        attempt.reason = none ∧ next = begun event attempt verification := by
  unfold applyProductLabelEvent
  cases hkind : event.kind with
  | prepared attempt =>
    simp only
    split
    · rename_i h
      constructor
      · intro hok
        cases hok
      · rintro ⟨attempt', heq, hseq, hno, hreason, -⟩
        cases heq
        exact absurd h (by simp [hseq, hno, hreason])
    · rename_i h
      simp only [not_or, not_not, ne_eq] at h
      constructor
      · intro hok
        cases hok
        exact ⟨attempt, rfl, h.1, h.2.1, h.2.2, rfl⟩
      · rintro ⟨attempt', heq, -, -, -, rfl⟩
        cases heq
        rfl
  | _ =>
    constructor
    · intro hok
      cases hok
    · rintro ⟨attempt, heq, -⟩
      cases heq

end Step

/-! ## Runs -/

/-- A job and the events it has taken. -/
structure PrintRun where
  current : Option ProductLabelProjection := none
  accepted : List ProductLabelEvent := []

/-- One event: taken, or refused without a trace. -/
def PrintRun.apply (verification : VerificationPolicy) (run : PrintRun)
    (event : ProductLabelEvent) : PrintRun :=
  match applyProductLabelEvent run.current event verification with
  | .ok next => ⟨some next, run.accepted ++ [event]⟩
  | .error _ => run

/-- The fold over a sequence of events, from nothing. -/
def printRun (verification : VerificationPolicy) (events : List ProductLabelEvent) : PrintRun :=
  events.foldl (PrintRun.apply verification) {}

def ProductLabelEvent.isPrepared (event : ProductLabelEvent) : Bool :=
  match event.kind with
  | .prepared _ => true
  | _ => false

def ProductLabelEvent.attemptNo? (event : ProductLabelEvent) : Option ℕ :=
  match event.kind with
  | .prepared attempt => some attempt.attemptNo
  | _ => none

def addToAttempts (attempts : List (List ProductLabelEvent)) (event : ProductLabelEvent) :
    List (List ProductLabelEvent) :=
  if event.isPrepared then attempts ++ [[event]]
  else attempts.dropLast ++ [attempts.getLastD [] ++ [event]]

/-- The attempts of a sequence of events: each begins with its `prepared`. -/
def attemptsOf (events : List ProductLabelEvent) : List (List ProductLabelEvent) :=
  events.foldl addToAttempts []

def currentAttempt (events : List ProductLabelEvent) : List ProductLabelEvent :=
  (attemptsOf events).getLastD []

section Attempts

variable {events : List ProductLabelEvent} {event : ProductLabelEvent}

theorem attemptsOf_concat : attemptsOf (events ++ [event]) =
    addToAttempts (attemptsOf events) event := List.foldl_concat ..

theorem currentAttempt_prepared (h : event.isPrepared = true) :
    currentAttempt (events ++ [event]) = [event] := by
  rw [currentAttempt, attemptsOf_concat, addToAttempts, if_pos h, List.getLastD_concat]

theorem currentAttempt_following (h : event.isPrepared = false) :
    currentAttempt (events ++ [event]) = currentAttempt events ++ [event] := by
  rw [currentAttempt, attemptsOf_concat, addToAttempts, if_neg (by simp [h]),
    List.getLastD_concat]
  rfl

theorem mem_attemptsOf_concat {attempt : List ProductLabelEvent}
    (h : attempt ∈ attemptsOf (events ++ [event])) :
    attempt ∈ attemptsOf events ∨ attempt = currentAttempt (events ++ [event]) := by
  rw [currentAttempt, attemptsOf_concat] at *
  unfold addToAttempts at *
  split at h
  · rename_i hp
    rw [if_pos hp, List.getLastD_concat]
    rcases List.mem_append.1 h with h | h
    · exact .inl h
    · exact .inr (List.mem_singleton.1 h)
  · rename_i hp
    rw [if_neg hp, List.getLastD_concat]
    rcases List.mem_append.1 h with h | h
    · exact .inl (List.dropLast_subset _ h)
    · exact .inr (List.mem_singleton.1 h)

end Attempts

/-! ## The shape of an attempt -/

inductive AttemptShape (verification : VerificationPolicy) (payloadDigest : Units) :
    ProductLabelAttemptState → VerificationOutcome → List ProductLabelEvent → Prop
  | prepared {p : ProductLabelEvent} (hp : p.isPrepared = true) :
    AttemptShape verification payloadDigest .prepared (initialOutcome verification) [p]
  | failed {p f : ProductLabelEvent} (hp : p.isPrepared = true) (hf : f.kind = .failedBeforeSend) :
    AttemptShape verification payloadDigest .failedBeforeSend (initialOutcome verification) [p, f]
  | sending {p s : ProductLabelEvent} (hp : p.isPrepared = true) (hs : s.kind = .sending) :
    AttemptShape verification payloadDigest .sending (initialOutcome verification) [p, s]
  | sent {p s d : ProductLabelEvent} {rejected : List ProductLabelEvent}
    (hp : p.isPrepared = true) (hs : s.kind = .sending) (hd : d.kind = .sent)
    (hr : ∀ r ∈ rejected, r.kind = .verificationRejected) :
    AttemptShape verification payloadDigest .sent (initialOutcome verification)
      (p :: s :: d :: rejected)
  | unknown {p s d : ProductLabelEvent} {rejected : List ProductLabelEvent}
    (hp : p.isPrepared = true) (hs : s.kind = .sending) (hd : d.kind = .deliveryUnknown)
    (hr : ∀ r ∈ rejected, r.kind = .verificationRejected) :
    AttemptShape verification payloadDigest .deliveryUnknown (initialOutcome verification)
      (p :: s :: d :: rejected)
  | verified {p s d v : ProductLabelEvent} {rejected : List ProductLabelEvent}
    {state : ProductLabelAttemptState} (hp : p.isPrepared = true) (hs : s.kind = .sending)
    (hd : state = .sent ∧ d.kind = .sent ∨ state = .deliveryUnknown ∧ d.kind = .deliveryUnknown)
    (hr : ∀ r ∈ rejected, r.kind = .verificationRejected) (hv : v.kind = .verified payloadDigest) :
    AttemptShape verification payloadDigest state .verified (p :: s :: d :: (rejected ++ [v]))
  | skipped {p s d v : ProductLabelEvent} {rejected : List ProductLabelEvent}
    (hp : p.isPrepared = true) (hs : s.kind = .sending) (hd : d.kind = .sent)
    (hr : ∀ r ∈ rejected, r.kind = .verificationRejected) (hv : v.kind = .verificationSkipped)
    (hrequired : verification = .required) :
    AttemptShape verification payloadDigest .sent .skipped (p :: s :: d :: (rejected ++ [v]))

section Shape

variable {verification : VerificationPolicy} {digest : Units} {state : ProductLabelAttemptState}
  {outcome : VerificationOutcome} {attempt : List ProductLabelEvent}

/-- **An event that follows extends the shape of its attempt.** -/
theorem AttemptShape.following {event : ProductLabelEvent}
    (h : AttemptShape verification digest state outcome attempt)
    (hverified : outcome ≠ .verified) (hskipped : outcome ≠ .skipped)
    (hfollows : FollowsIn verification digest state event.kind) :
    AttemptShape verification digest (nextAttemptState state event.kind)
      (nextVerificationOutcome outcome event.kind) (attempt ++ [event]) := by
  cases hkind : event.kind with
  | prepared attempt =>
    rw [hkind] at hfollows
    exact hfollows.elim
  | sending =>
    rw [hkind] at hfollows
    cases hfollows
    cases h with
    | prepared hp => exact .sending hp hkind
    | verified _ _ hd => exact absurd hd (by simp)
  | failedBeforeSend =>
    rw [hkind] at hfollows
    cases hfollows
    cases h with
    | prepared hp => exact .failed hp hkind
    | verified _ _ hd => exact absurd hd (by simp)
  | sent =>
    rw [hkind] at hfollows
    cases hfollows
    cases h with
    | sending hp hs => exact .sent hp hs hkind (by simp)
    | verified _ _ hd => exact absurd hd (by simp)
  | deliveryUnknown =>
    rw [hkind] at hfollows
    cases hfollows
    cases h with
    | sending hp hs => exact .unknown hp hs hkind (by simp)
    | verified _ _ hd => exact absurd hd (by simp)
  | verificationSkipped =>
    rw [hkind] at hfollows
    obtain ⟨rfl, hrequired⟩ := hfollows
    cases h with
    | sent hp hs hd hr => exact .skipped hp hs hd hr hkind hrequired
    | verified => exact absurd rfl hverified
    | skipped => exact absurd rfl hskipped
  | verified scanned =>
    rw [hkind] at hfollows
    obtain ⟨hstate, rfl⟩ := hfollows
    rcases hstate with rfl | ⟨rfl, -⟩
    · cases h with
      | unknown hp hs hd hr => exact .verified hp hs (.inr ⟨rfl, hd⟩) hr hkind
      | verified => exact absurd rfl hverified
    · cases h with
      | sent hp hs hd hr => exact .verified hp hs (.inl ⟨rfl, hd⟩) hr hkind
      | verified => exact absurd rfl hverified
      | skipped => exact absurd rfl hskipped
  | verificationRejected =>
    rw [hkind] at hfollows
    have hmore : ∀ {rejected : List ProductLabelEvent},
        (∀ r ∈ rejected, r.kind = .verificationRejected) →
        ∀ r ∈ rejected ++ [event], r.kind = .verificationRejected := by
      intro rejected hr r hmem
      rcases List.mem_append.1 hmem with hmem | hmem
      · exact hr r hmem
      · rw [List.mem_singleton.1 hmem, hkind]
    rcases hfollows with rfl | ⟨rfl, -⟩
    · cases h with
      | unknown hp hs hd hr => exact .unknown hp hs hd (hmore hr)
      | verified => exact absurd rfl hverified
    · cases h with
      | sent hp hs hd hr => exact .sent hp hs hd (hmore hr)
      | verified => exact absurd rfl hverified
      | skipped => exact absurd rfl hskipped

theorem kind_of_isPrepared {event : ProductLabelEvent} (h : event.isPrepared = true) :
    ∃ next, event.kind = .prepared next := by
  unfold ProductLabelEvent.isPrepared at h
  split at h
  · exact ⟨_, by assumption⟩
  · cases h

theorem AttemptShape.sent_cases (h : AttemptShape verification digest state outcome attempt) :
    (state ≠ .sent ∧ ∀ e ∈ attempt, e.kind ≠ .sent) ∨
      state = .sent ∧ ∃ p s d rest, attempt = p :: s :: d :: rest ∧ p.isPrepared = true ∧
        s.kind = .sending ∧ d.kind = .sent ∧ ∀ e ∈ rest, e.kind ≠ .sent := by
  have hprepared : ∀ {p : ProductLabelEvent}, p.isPrepared = true → p.kind ≠ .sent := by
    intro p hp hsent
    obtain ⟨next, hnext⟩ := kind_of_isPrepared hp
    rw [hnext] at hsent
    cases hsent
  have hrejected : ∀ {rejected : List ProductLabelEvent},
      (∀ r ∈ rejected, r.kind = .verificationRejected) → ∀ e ∈ rejected, e.kind ≠ .sent := by
    intro rejected hr e he
    simp [hr e he]
  have hlast : ∀ {rejected : List ProductLabelEvent} {v : ProductLabelEvent},
      (∀ r ∈ rejected, r.kind = .verificationRejected) → v.kind ≠ .sent →
      ∀ e ∈ rejected ++ [v], e.kind ≠ .sent := by
    intro rejected v hr hv e he
    rcases List.mem_append.1 he with he | he
    · exact hrejected hr e he
    · rwa [List.mem_singleton.1 he]
  cases h with
  | prepared hp => exact .inl ⟨by simp, by simpa using hprepared hp⟩
  | failed hp hf => exact .inl ⟨by simp, by simpa [hf] using hprepared hp⟩
  | sending hp hs => exact .inl ⟨by simp, by simpa [hs] using hprepared hp⟩
  | sent hp hs hd hr => exact .inr ⟨rfl, _, _, _, _, rfl, hp, hs, hd, hrejected hr⟩
  | unknown hp hs hd hr =>
    refine .inl ⟨by simp, ?_⟩
    simpa [hs, hd] using ⟨hprepared hp, hrejected hr⟩
  | @verified p s d v rejected state hp hs hd hr hv =>
    have hrest : ∀ e ∈ rejected ++ [v], e.kind ≠ .sent := hlast hr (by simp [hv])
    rcases hd with ⟨rfl, hd⟩ | ⟨rfl, hd⟩
    · exact .inr ⟨rfl, _, _, _, _, rfl, hp, hs, hd, hrest⟩
    · refine .inl ⟨by simp, ?_⟩
      rw [List.forall_mem_cons, List.forall_mem_cons, List.forall_mem_cons]
      exact ⟨hprepared hp, by simp [hs], by simp [hd], hrest⟩
  | skipped hp hs hd hr hv =>
    exact .inr ⟨rfl, _, _, _, _, rfl, hp, hs, hd, hlast hr (by simp [hv])⟩

/-- **An attempt is sent at most once, after its own `prepared` and `sending`.** -/
theorem AttemptShape.sent_once (h : AttemptShape verification digest state outcome attempt) :
    attempt.countP (fun e => decide (e.kind = .sent)) ≤ 1 ∧
      ∀ e ∈ attempt, e.kind = .sent → ∃ p s rest, attempt = p :: s :: e :: rest ∧
        p.isPrepared = true ∧ s.kind = .sending := by
  rcases h.sent_cases with ⟨-, hnone⟩ | ⟨-, p, s, d, rest, rfl, hp, hs, hd, hrest⟩
  · refine ⟨?_, fun e he hsent => absurd hsent (hnone e he)⟩
    rw [List.countP_eq_zero.2 (by simpa using hnone)]
    exact Nat.zero_le 1
  · have hpsent : p.kind ≠ .sent := by
      obtain ⟨next, hnext⟩ := kind_of_isPrepared hp
      simp [hnext]
    have hcount : rest.countP (fun e => decide (e.kind = .sent)) = 0 :=
      List.countP_eq_zero.2 (by simpa using hrest)
    refine ⟨by simp [hpsent, hs, hd, hcount], fun e he hsent => ?_⟩
    simp only [List.mem_cons] at he
    rcases he with rfl | rfl | rfl | he
    · exact absurd hsent hpsent
    · simp [hs] at hsent
    · exact ⟨p, s, rest, rfl, hp, hs⟩
    · exact absurd hsent (hrest e he)

/-- A delivery that counts: sent where no verification is required, sent or of unknown delivery and
then verified by the job's own payload, or sent and then skipped where it is required. -/
def Delivered (verification : VerificationPolicy) (payloadDigest : Units)
    (attempt : List ProductLabelEvent) : Prop :=
  (verification = .none ∧ ∃ e ∈ attempt, e.kind = .sent) ∨
  (∃ before e after, attempt = before ++ e :: after ∧ e.kind = .verified payloadDigest ∧
    ∃ d ∈ before, d.kind = .sent ∨ d.kind = .deliveryUnknown) ∨
  (verification = .required ∧ ∃ before e after, attempt = before ++ e :: after ∧
    e.kind = .verificationSkipped ∧ ∃ d ∈ before, d.kind = .sent)

theorem not_delivered {attempt : List ProductLabelEvent}
    (h : ∀ e ∈ attempt, e.kind ≠ .verified digest ∧ e.kind ≠ .verificationSkipped)
    (hdelivered : Delivered verification digest attempt) :
    verification = .none ∧ ∃ e ∈ attempt, e.kind = .sent := by
  rcases hdelivered with hsent | ⟨before, e, after, rfl, he, -⟩ | ⟨-, before, e, after, rfl, he, -⟩
  · exact hsent
  · exact absurd he (h e (by simp)).1
  · exact absurd he (h e (by simp)).2

/-- **The status is `completed` exactly on a delivery that counts.** -/
theorem AttemptShape.completed_iff (h : AttemptShape verification digest state outcome attempt) :
    statusOf state verification outcome = .completed ↔ Delivered verification digest attempt := by
  have hprepared : ∀ {p : ProductLabelEvent}, p.isPrepared = true →
      p.kind ≠ .verified digest ∧ p.kind ≠ .verificationSkipped := by
    intro p hp
    obtain ⟨next, hnext⟩ := kind_of_isPrepared hp
    simp [hnext]
  have hinitial : initialOutcome verification ≠ .verified ∧
      initialOutcome verification ≠ .skipped := by
    unfold initialOutcome
    split <;> simp
  -- Without an outcome only an attempt that was sent can be complete.
  have hopen : ∀ {state : ProductLabelAttemptState} {attempt : List ProductLabelEvent},
      AttemptShape verification digest state (initialOutcome verification) attempt →
      (∀ e ∈ attempt, e.kind ≠ .verified digest ∧ e.kind ≠ .verificationSkipped) →
      (statusOf state verification (initialOutcome verification) = .completed ↔
        Delivered verification digest attempt) := by
    intro state attempt hshape hkinds
    have hstatus : statusOf state verification (initialOutcome verification) = .completed ↔
        state = .sent ∧ verification = .none := by
      simp only [statusOf, hinitial, or_self, if_false]
      cases state <;> cases verification <;> simp
    rw [hstatus]
    constructor
    · rintro ⟨hsent, hpolicy⟩
      rcases hshape.sent_cases with ⟨hnot, -⟩ | ⟨-, p, s, d, rest, rfl, -, -, hd, -⟩
      · exact absurd hsent hnot
      · exact .inl ⟨hpolicy, d, by simp, hd⟩
    · intro hdelivered
      obtain ⟨hpolicy, e, he, hsent⟩ := not_delivered hkinds hdelivered
      rcases hshape.sent_cases with ⟨-, hnone⟩ | ⟨hstate, -⟩
      · exact absurd hsent (hnone e he)
      · exact ⟨hstate, hpolicy⟩
  cases h with
  | prepared hp => exact hopen (.prepared hp) (by simpa using hprepared hp)
  | failed hp hf => exact hopen (.failed hp hf) (by simpa [hf] using hprepared hp)
  | sending hp hs => exact hopen (.sending hp hs) (by simpa [hs] using hprepared hp)
  | sent hp hs hd hr =>
    refine hopen (.sent hp hs hd hr) ?_
    rw [List.forall_mem_cons, List.forall_mem_cons, List.forall_mem_cons]
    exact ⟨hprepared hp, by simp [hs], by simp [hd], fun e he => by simp [hr e he]⟩
  | unknown hp hs hd hr =>
    refine hopen (.unknown hp hs hd hr) ?_
    rw [List.forall_mem_cons, List.forall_mem_cons, List.forall_mem_cons]
    exact ⟨hprepared hp, by simp [hs], by simp [hd], fun e he => by simp [hr e he]⟩
  | @verified p s d v rejected state hp hs hd hr hv =>
    refine iff_of_true (by simp [statusOf]) (.inr (.inl ⟨p :: s :: d :: rejected, v, [], rfl, hv, d,
      by simp, ?_⟩))
    rcases hd with ⟨-, hd⟩ | ⟨-, hd⟩
    · exact .inl hd
    · exact .inr hd
  | @skipped p s d v rejected hp hs hd hr hv hrequired =>
    exact iff_of_true (by simp [statusOf]) (.inr (.inr ⟨hrequired, p :: s :: d :: rejected, v, [],
      rfl, hv, d, by simp, hd⟩))

end Shape

/-! ## What a run keeps -/

structure JobFacts (verification : VerificationPolicy) (accepted : List ProductLabelEvent)
    (current : ProductLabelProjection) : Prop where
  verification_eq : current.verification = verification
  sequences : accepted.map (·.sequence) = List.range' 1 accepted.length
  latest : current.latestSequence = accepted.length
  attemptNos : accepted.filterMap (·.attemptNo?) =
    List.range' 1 (accepted.countP (·.isPrepared))
  attemptNo : current.attemptNo = accepted.countP (·.isPrepared)
  origin : ∀ e ∈ accepted, e.origin = current.origin
  prints : ∀ e ∈ accepted, ∀ attempt, e.kind = .prepared attempt →
    attempt.bytesDigest = current.bytesDigest ∧
      productLabelPrintFormat attempt.identity = productLabelPrintFormat current.identity ∧
      attempt.dpi = current.dpi
  status : current.status =
    statusOf current.attemptState verification current.verificationOutcome
  shape : AttemptShape verification current.origin.payloadDigest current.attemptState
    current.verificationOutcome (currentAttempt accepted)
  ids : ∀ e ∈ currentAttempt accepted, e.attemptId = current.attemptId
  attempts : ∀ attempt ∈ attemptsOf accepted, (∃ state outcome,
    AttemptShape verification current.origin.payloadDigest state outcome attempt) ∧
      ∃ id, ∀ e ∈ attempt, e.attemptId = id

/-- What is fixed when a job begins. -/
structure SamePrint (current next : ProductLabelProjection) : Prop where
  origin : next.origin = current.origin
  bytesDigest : next.bytesDigest = current.bytesDigest
  identity : next.identity = current.identity
  dpi : next.dpi = current.dpi

section Facts

variable {verification : VerificationPolicy} {accepted : List ProductLabelEvent}
  {current : ProductLabelProjection} {event : ProductLabelEvent}

theorem advance_samePrint : SamePrint current (advance current event) := by
  unfold advance
  split
  · exact ⟨rfl, rfl, rfl, rfl⟩
  · exact ⟨rfl, rfl, rfl, rfl⟩

theorem isPrepared_of_kind {attempt : PreparedAttempt} (h : event.kind = .prepared attempt) :
    event.isPrepared = true := by
  rw [ProductLabelEvent.isPrepared, h]

theorem range'_concat (n : ℕ) : List.range' 1 (n + 1) = List.range' 1 n ++ [n + 1] := by
  rw [List.range'_concat]
  simp [Nat.add_comm]

theorem JobFacts.begun {attempt : PreparedAttempt} (hkind : event.kind = .prepared attempt)
    (hsequence : event.sequence = 1) (hno : attempt.attemptNo = 1) :
    JobFacts verification [event] (begun event attempt verification) := by
  have hp := isPrepared_of_kind hkind
  have hcurrent : currentAttempt [event] = [event] := @currentAttempt_prepared [] event hp
  have hattempts : attemptsOf [event] = [[event]] := by
    simp [attemptsOf, addToAttempts, hp]
  have hshape : AttemptShape verification event.origin.payloadDigest .prepared
      (initialOutcome verification) [event] := .prepared hp
  constructor
  · rfl
  · simp [hsequence]
  · rfl
  · simp [ProductLabelEvent.attemptNo?, hkind, hp, hno]
  · simp [hp, Markiro.begun]
  · simp [Markiro.begun]
  · intro e he next hnext
    rw [List.mem_singleton.1 he, hkind] at hnext
    cases hnext
    exact ⟨rfl, rfl, rfl⟩
  · simp only [Markiro.begun, statusOf, initialOutcome]
    split <;> simp
  · rw [hcurrent]
    exact hshape
  · rw [hcurrent]
    simp [Markiro.begun]
  · rw [hattempts]
    intro list hlist
    rw [List.mem_singleton.1 hlist]
    exact ⟨⟨_, _, hshape⟩, event.attemptId, by simp⟩

theorem JobFacts.attempts_concat (h : JobFacts verification accepted current)
    {state : ProductLabelAttemptState} {outcome : VerificationOutcome} {id : Units}
    (hshape : AttemptShape verification current.origin.payloadDigest state outcome
      (currentAttempt (accepted ++ [event])))
    (hids : ∀ e ∈ currentAttempt (accepted ++ [event]), e.attemptId = id) :
    ∀ attempt ∈ attemptsOf (accepted ++ [event]), (∃ state outcome,
      AttemptShape verification current.origin.payloadDigest state outcome attempt) ∧
        ∃ id, ∀ e ∈ attempt, e.attemptId = id := by
  intro attempt hmem
  rcases mem_attemptsOf_concat hmem with hmem | rfl
  · exact h.attempts attempt hmem
  · exact ⟨⟨_, _, hshape⟩, id, hids⟩

theorem JobFacts.prepares (h : JobFacts verification accepted current) {attempt : PreparedAttempt}
    (hsequence : event.sequence = current.latestSequence + 1)
    (horigin : event.origin = current.origin) (hnext : Prepares current event attempt) :
    JobFacts verification (accepted ++ [event]) (advance current event) := by
  have hkind := hnext.kind
  have hp := isPrepared_of_kind hkind
  have hcurrent : currentAttempt (accepted ++ [event]) = [event] := currentAttempt_prepared hp
  have hadvance : advance current event = { current with
      latestSequence := event.sequence
      attemptId := event.attemptId
      attemptNo := attempt.attemptNo
      attemptState := .prepared
      status := .prepared
      verificationOutcome := initialOutcome current.verification } := by
    rw [advance, hkind]
  have hshape : AttemptShape verification current.origin.payloadDigest .prepared
      (initialOutcome verification) (currentAttempt (accepted ++ [event])) := by
    rw [hcurrent]
    exact .prepared hp
  have hids : ∀ e ∈ currentAttempt (accepted ++ [event]), e.attemptId = event.attemptId := by
    rw [hcurrent]
    simp
  rw [hadvance]
  constructor
  · exact h.verification_eq
  · rw [List.map_append, h.sequences, List.length_append, List.map_singleton, List.length_singleton,
      range'_concat, hsequence, h.latest]
  · rw [hsequence, h.latest, List.length_append, List.length_singleton]
  · rw [List.filterMap_append, h.attemptNos, List.countP_append]
    simp [ProductLabelEvent.attemptNo?, hkind, hp, hnext.attemptNo, h.attemptNo, range'_concat]
  · simp [hnext.attemptNo, h.attemptNo, hp]
  · intro e he
    rcases List.mem_append.1 he with he | he
    · exact h.origin e he
    · rw [List.mem_singleton.1 he]
      exact horigin
  · intro e he other hother
    rcases List.mem_append.1 he with he | he
    · exact h.prints e he other hother
    · rw [List.mem_singleton.1 he, hkind] at hother
      cases hother
      exact ⟨hnext.bytesDigest, hnext.format, hnext.dpi⟩
  · simp only [statusOf, initialOutcome]
    split <;> simp
  · rw [h.verification_eq]
    exact hshape
  · exact hids
  · exact h.attempts_concat hshape hids

theorem JobFacts.follows (h : JobFacts verification accepted current)
    (hsequence : event.sequence = current.latestSequence + 1)
    (horigin : event.origin = current.origin) (hid : event.attemptId = current.attemptId)
    (hverified : current.verificationOutcome ≠ .verified)
    (hskipped : current.verificationOutcome ≠ .skipped) (hfollows : Follows current event.kind) :
    JobFacts verification (accepted ++ [event]) (advance current event) := by
  have hp : event.isPrepared = false := by
    rw [ProductLabelEvent.isPrepared]
    split
    · rename_i attempt hkind
      rw [hkind] at hfollows
      exact hfollows.elim
    · rfl
  have hnone : event.attemptNo? = none := by
    unfold ProductLabelEvent.attemptNo?
    unfold ProductLabelEvent.isPrepared at hp
    split
    · rename_i attempt hkind
      rw [hkind] at hp
      cases hp
    · rfl
  have hadvance : advance current event = { current with
      latestSequence := event.sequence
      attemptState := nextAttemptState current.attemptState event.kind
      verificationOutcome := nextVerificationOutcome current.verificationOutcome event.kind
      status := statusOf (nextAttemptState current.attemptState event.kind) current.verification
        (nextVerificationOutcome current.verificationOutcome event.kind) } := by
    unfold advance
    split
    · rename_i attempt hkind
      rw [hkind] at hfollows
      exact hfollows.elim
    · rfl
  have hcurrent : currentAttempt (accepted ++ [event]) = currentAttempt accepted ++ [event] :=
    currentAttempt_following hp
  have hpolicy := h.verification_eq
  have hshape : AttemptShape verification current.origin.payloadDigest
      (nextAttemptState current.attemptState event.kind)
      (nextVerificationOutcome current.verificationOutcome event.kind)
      (currentAttempt (accepted ++ [event])) := by
    rw [hcurrent]
    refine h.shape.following hverified hskipped ?_
    rw [Follows, hpolicy] at hfollows
    exact hfollows
  have hids : ∀ e ∈ currentAttempt (accepted ++ [event]), e.attemptId = current.attemptId := by
    intro e he
    rw [hcurrent] at he
    rcases List.mem_append.1 he with he | he
    · exact h.ids e he
    · rw [List.mem_singleton.1 he]
      exact hid
  rw [hadvance]
  constructor
  · exact hpolicy
  · rw [List.map_append, h.sequences, List.length_append, List.map_singleton, List.length_singleton,
      range'_concat, hsequence, h.latest]
  · rw [hsequence, h.latest, List.length_append, List.length_singleton]
  · rw [List.filterMap_append, h.attemptNos, List.countP_append]
    simp [hnone, hp]
  · simp [h.attemptNo, hp]
  · intro e he
    rcases List.mem_append.1 he with he | he
    · exact h.origin e he
    · rw [List.mem_singleton.1 he]
      exact horigin
  · intro e he other hother
    rcases List.mem_append.1 he with he | he
    · exact h.prints e he other hother
    · rw [List.mem_singleton.1 he] at hother
      rw [isPrepared_of_kind hother] at hp
      cases hp
  · rw [hpolicy]
  · exact hshape
  · exact hids
  · exact h.attempts_concat hshape hids

/-- **One step of a job keeps its facts.** -/
theorem JobFacts.step (h : JobFacts verification accepted current)
    (hcan : canApplyProductLabelEvent current event = true) :
    JobFacts verification (accepted ++ [event]) (advance current event) := by
  obtain ⟨⟨-, hsequence, horigin⟩, ⟨attempt, hnext⟩ | ⟨hid, hverified, hskipped, hfollows⟩⟩ :=
    canApply_cases hcan
  · exact h.prepares hsequence horigin hnext
  · exact h.follows hsequence horigin hid hverified hskipped hfollows

end Facts

/-- What holds of every run: nothing was taken, or the accepted events are those of the job. -/
def PrintRun.Sound (verification : VerificationPolicy) (run : PrintRun) : Prop :=
  match run.current with
  | none => run.accepted = []
  | some current => JobFacts verification run.accepted current

section Runs

variable {verification : VerificationPolicy}

theorem PrintRun.Sound.apply {run : PrintRun} (h : run.Sound verification)
    (event : ProductLabelEvent) : (run.apply verification event).Sound verification := by
  unfold PrintRun.apply
  split
  · rename_i next hok
    unfold PrintRun.Sound at h ⊢
    cases hcurrent : run.current with
    | none =>
      simp only [hcurrent] at h hok
      obtain ⟨attempt, hkind, hsequence, hno, -, rfl⟩ := applyProductLabelEvent_none.1 hok
      rw [h]
      exact JobFacts.begun hkind hsequence hno
    | some current =>
      simp only [hcurrent] at h hok
      rw [applyProductLabelEvent_some h.verification_eq] at hok
      split at hok
      · rename_i hcan
        cases hok
        exact h.step hcan
      · cases hok
  · exact h

/-- **Every run is sound.** -/
theorem printRun_sound (verification : VerificationPolicy) (events : List ProductLabelEvent) :
    (printRun verification events).Sound verification := by
  have hfold : ∀ (events : List ProductLabelEvent) (run : PrintRun), run.Sound verification →
      (events.foldl (PrintRun.apply verification) run).Sound verification := by
    intro events
    induction events with
    | nil => exact fun run h => h
    | cons event events ih => exact fun run h => ih _ (h.apply event)
  exact hfold events {} rfl

theorem printRun_facts {events : List ProductLabelEvent} {current : ProductLabelProjection}
    (h : (printRun verification events).current = some current) :
    JobFacts verification (printRun verification events).accepted current := by
  have hsound := printRun_sound verification events
  rw [PrintRun.Sound, h] at hsound
  exact hsound

theorem printRun_cases (events : List ProductLabelEvent) :
    (printRun verification events).current = none ∧ (printRun verification events).accepted = [] ∨
      ∃ current, (printRun verification events).current = some current ∧
        JobFacts verification (printRun verification events).accepted current := by
  have hsound := printRun_sound verification events
  unfold PrintRun.Sound at hsound
  split at hsound
  · rename_i h
    exact .inl ⟨h, hsound⟩
  · rename_i current h
    exact .inr ⟨current, h, hsound⟩

/-- What was fixed when a job began stays in every longer run. -/
theorem printRun_samePrint {events more : List ProductLabelEvent}
    {current next : ProductLabelProjection}
    (h : (printRun verification events).current = some current)
    (hnext : (printRun verification (events ++ more)).current = some next) :
    SamePrint current next := by
  have hfold : ∀ (more : List ProductLabelEvent) (run : PrintRun)
      (current next : ProductLabelProjection), run.Sound verification →
      run.current = some current →
      (more.foldl (PrintRun.apply verification) run).current = some next →
      SamePrint current next := by
    intro more
    induction more with
    | nil =>
      intro run current next _ hcurrent hnext
      rw [List.foldl_nil, hcurrent, Option.some.injEq] at hnext
      rw [← hnext]
      exact ⟨rfl, rfl, rfl, rfl⟩
    | cons event more ih =>
      intro run current next hsound hcurrent hnext
      have hstep : ∃ middle, (run.apply verification event).current = some middle ∧
          SamePrint current middle := by
        have hfacts := hsound
        rw [PrintRun.Sound, hcurrent] at hfacts
        unfold PrintRun.apply
        rw [hcurrent, applyProductLabelEvent_some hfacts.verification_eq]
        split
        · rename_i middle hok
          split at hok
          · cases hok
            exact ⟨_, rfl, advance_samePrint⟩
          · cases hok
        · exact ⟨current, hcurrent, rfl, rfl, rfl, rfl⟩
      obtain ⟨middle, hmiddle, hsame⟩ := hstep
      have hrest := ih _ middle next (hsound.apply event) hmiddle hnext
      exact ⟨hrest.origin.trans hsame.origin, hrest.bytesDigest.trans hsame.bytesDigest,
        hrest.identity.trans hsame.identity, hrest.dpi.trans hsame.dpi⟩
  rw [printRun, List.foldl_append] at hnext
  exact hfold more _ current next (printRun_sound verification events) h hnext

/-- A completed job takes nothing but a new attempt. -/
theorem JobFacts.completed_next {accepted : List ProductLabelEvent}
    {current : ProductLabelProjection} {event : ProductLabelEvent}
    (h : JobFacts verification accepted current) (hcompleted : current.status = .completed)
    (hcan : canApplyProductLabelEvent current event = true) :
    ∃ attempt, Prepares current event attempt := by
  obtain ⟨-, hprepares | ⟨-, hverified, hskipped, hfollows⟩⟩ := canApply_cases hcan
  · exact hprepares
  · have hsent : current.attemptState = .sent ∧ verification = .none := by
      have hstatus := h.status.symm.trans hcompleted
      simp only [statusOf, hverified, hskipped, or_self, if_false] at hstatus
      cases hstate : current.attemptState with
      | sent =>
        rw [hstate] at hstatus
        cases verification with
        | none => exact ⟨rfl, rfl⟩
        | required => cases hstatus
      | _ =>
        rw [hstate] at hstatus
        cases hstatus
    rw [Follows, hsent.1, h.verification_eq, hsent.2] at hfollows
    cases hkind : event.kind <;> simp [hkind, FollowsIn] at hfollows

end Runs

/-! ## The whole run -/

theorem flatten_attemptsOf (events : List ProductLabelEvent) :
    (attemptsOf events).flatten = events := by
  have hadd : ∀ (attempts : List (List ProductLabelEvent)) (event : ProductLabelEvent),
      (addToAttempts attempts event).flatten = attempts.flatten ++ [event] := by
    intro attempts event
    unfold addToAttempts
    split
    · simp
    · rcases List.eq_nil_or_concat attempts with rfl | ⟨before, last, rfl⟩
      · simp
      · simp
  have hfold : ∀ (events : List ProductLabelEvent) (attempts : List (List ProductLabelEvent)),
      (events.foldl addToAttempts attempts).flatten = attempts.flatten ++ events := by
    intro events
    induction events with
    | nil => simp
    | cons event events ih =>
      intro attempts
      rw [List.foldl_cons, ih, hadd]
      simp
  rw [attemptsOf, hfold]
  rfl

/-- What the fold of a sequence of events with a policy has to give. -/
structure PrintRunFacts (verification : VerificationPolicy) (events : List ProductLabelEvent) :
    Prop where
  /-- An event is taken exactly when it can be applied (or begins the job). -/
  accepts : ∀ event, (∃ next, applyProductLabelEvent (printRun verification events).current event
      verification = .ok next) ↔
    match (printRun verification events).current with
    | none => Begins event
    | some current => canApplyProductLabelEvent current event = true
  /-- The accepted events are numbered from 1 on. -/
  sequences : (printRun verification events).accepted.map (·.sequence) =
    List.range' 1 (printRun verification events).accepted.length
  /-- The attempt numbers count the `prepared` events. -/
  attemptNos : (printRun verification events).accepted.filterMap (·.attemptNo?) =
    List.range' 1 ((printRun verification events).accepted.countP (·.isPrepared))
  /-- The projection shows the last numbers, and every event repeats what it shows. -/
  shows : ∀ current, (printRun verification events).current = some current →
    current.latestSequence = (printRun verification events).accepted.length ∧
    current.attemptNo = (printRun verification events).accepted.countP (·.isPrepared) ∧
    ∀ e ∈ (printRun verification events).accepted, e.origin = current.origin ∧
      ∀ attempt, e.kind = .prepared attempt → attempt.bytesDigest = current.bytesDigest ∧
        productLabelPrintFormat attempt.identity = productLabelPrintFormat current.identity ∧
        attempt.dpi = current.dpi
  /-- Origin, digests, format and resolution never change. -/
  fixed : ∀ current more next, (printRun verification events).current = some current →
    (printRun verification (events ++ more)).current = some next → SamePrint current next
  /-- The accepted events are those of the attempts, one after another. -/
  flatten : (attemptsOf (printRun verification events).accepted).flatten =
    (printRun verification events).accepted
  /-- Each attempt is sent at most once and only after its own `prepared` and `sending`. -/
  sent : ∀ attempt ∈ attemptsOf (printRun verification events).accepted,
    attempt.countP (fun e => decide (e.kind = .sent)) ≤ 1 ∧
    (∀ e ∈ attempt, e.kind = .sent → ∃ p s rest, attempt = p :: s :: e :: rest ∧
      p.isPrepared = true ∧ s.kind = .sending) ∧
    ∃ id, ∀ e ∈ attempt, e.attemptId = id
  /-- The job is completed exactly on a delivery that counts, of its current attempt. -/
  completed : ∀ current, (printRun verification events).current = some current →
    (current.status = .completed ↔ Delivered verification current.origin.payloadDigest
      (currentAttempt (printRun verification events).accepted))
  /-- A completed job changes only by a new attempt with a reason. -/
  after : ∀ current, (printRun verification events).current = some current →
    current.status = .completed → ∀ event next,
    applyProductLabelEvent (some current) event verification = .ok next →
    ∃ attempt, event.kind = .prepared attempt ∧ attempt.reason ≠ none ∧
      attempt.attemptNo = current.attemptNo + 1 ∧ event.attemptId ≠ current.attemptId

/-- **Product-label print runs**: whatever the events and the policy. -/
theorem product_label_print_runs (verification : VerificationPolicy)
    (events : List ProductLabelEvent) : PrintRunFacts verification events := by
  have hcases := @printRun_cases verification events
  constructor
  · intro event
    rcases hcases with ⟨hnone, -⟩ | ⟨current, hcurrent, hfacts⟩
    · rw [hnone]
      simp only [applyProductLabelEvent_none, Begins]
      constructor
      · rintro ⟨next, attempt, hkind, hsequence, hno, hreason, -⟩
        exact ⟨hsequence, attempt, hkind, hno, hreason⟩
      · rintro ⟨hsequence, attempt, hkind, hno, hreason⟩
        exact ⟨_, attempt, hkind, hsequence, hno, hreason, rfl⟩
    · rw [hcurrent, applyProductLabelEvent_some hfacts.verification_eq]
      simp only
      split
      · rename_i hcan
        exact iff_of_true ⟨_, rfl⟩ hcan
      · rename_i hcan
        exact iff_of_false (fun ⟨_, hok⟩ => by cases hok) hcan
  · rcases hcases with ⟨-, hnil⟩ | ⟨current, -, hfacts⟩
    · rw [hnil]
      rfl
    · exact hfacts.sequences
  · rcases hcases with ⟨-, hnil⟩ | ⟨current, -, hfacts⟩
    · rw [hnil]
      rfl
    · exact hfacts.attemptNos
  · intro current hcurrent
    have hfacts := printRun_facts hcurrent
    exact ⟨hfacts.latest, hfacts.attemptNo, fun e he => ⟨hfacts.origin e he, hfacts.prints e he⟩⟩
  · intro current more next hcurrent hnext
    exact printRun_samePrint hcurrent hnext
  · exact flatten_attemptsOf _
  · intro attempt hattempt
    rcases hcases with ⟨-, hnil⟩ | ⟨current, -, hfacts⟩
    · rw [hnil] at hattempt
      cases hattempt
    · obtain ⟨⟨state, outcome, hshape⟩, hids⟩ := hfacts.attempts attempt hattempt
      exact ⟨hshape.sent_once.1, hshape.sent_once.2, hids⟩
  · intro current hcurrent
    have hfacts := printRun_facts hcurrent
    rw [hfacts.status]
    exact hfacts.shape.completed_iff
  · intro current hcurrent hcompleted event next hok
    have hfacts := printRun_facts hcurrent
    rw [applyProductLabelEvent_some hfacts.verification_eq] at hok
    split at hok
    · rename_i hcan
      obtain ⟨attempt, hprepares⟩ := hfacts.completed_next hcompleted hcan
      exact ⟨attempt, hprepares.kind, hprepares.reason, hprepares.attemptNo, hprepares.attemptId⟩
    · cases hok

/-! ### A job -/

namespace Sample

def labelOrigin : ProductLabelOrigin where
  jobId := encode "job"
  shiftId := encode "shift"
  codeHash := encode "code"
  acceptedAt := encode "2026-09-08T10:00:00.000Z"
  policyRevision := encode "policy"
  templateDigest := encode "template"
  payloadDigest := encode "payload"

def labelEvent (attemptId : String) (sequence : ℕ) (kind : ProductLabelEventKind) :
    ProductLabelEvent := ⟨labelOrigin, encode attemptId, sequence, kind⟩

/-- A first attempt that is sent twice, the second time in vain, and a reprint that is verified. -/
def labelEvents : List ProductLabelEvent :=
  [labelEvent "a" 1 (.prepared ⟨1, none, .language .zpl, .dpi203, encode "bytes"⟩),
    labelEvent "a" 2 .sending, labelEvent "a" 3 .sent, labelEvent "a" 4 .sent,
    labelEvent "b" 4 (.prepared ⟨2, some .lost, .language .zpl, .dpi203, encode "bytes"⟩),
    labelEvent "b" 5 .sending, labelEvent "b" 6 .deliveryUnknown,
    labelEvent "b" 7 (.verified (encode "payload"))]

end Sample

example : ((printRun .required Sample.labelEvents).current.map fun c => (c.status, c.attemptNo)) =
    some (.completed, 2) ∧ (printRun .required Sample.labelEvents).accepted.length = 7 := by
  decide +kernel

end Markiro
