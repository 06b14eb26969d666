import Mathlib

/-!
# What an offline grant lets a device do

The decision on a completion (`offline-grants/decision.ts`) and the transaction of a pickup's
completion, which charges what it allows to a counter of its own for each line of the budget.
However completions of a task follow each other, each under any of its grants, what was charged by
the end of one is within the budget of its grant (`charges_within_budget`).
-/

namespace Markiro.Grants

/-! ## Grants and intents -/

inductive DeviceKind where
  | station | handheld | kiosk
  deriving DecidableEq

inductive TaskKind where
  | shift | inventory | pickup
  deriving DecidableEq

inductive GrantCapability where
  | start (task : TaskKind)
  deriving DecidableEq

inductive GrantEventType where
  | shiftScan | shiftBoxClose | shiftPalletClose | shiftLabelPrepare | shiftClose
  | inventoryScan | inventoryRepack | inventoryBoxClose | inventoryClose | pickupComplete
  deriving DecidableEq

structure GrantOwner where
  tenantId : String
  deviceId : String
  kind : DeviceKind
  credentialEpoch : ℚ
  deriving DecidableEq

/-- Amounts by the names of budget lines. -/
abbrev Amounts := AList fun _ : String => ℚ

structure TaskGrant where
  owner : GrantOwner
  notBefore : ℚ
  completeNotAfter : ℚ
  taskKind : TaskKind
  taskId : String
  snapshotDigest : String
  eventTypes : List GrantEventType
  budget : List (String × ℚ)

structure GrantIntent where
  owner : GrantOwner
  capability : GrantCapability
  taskId : String
  snapshotDigest : String
  eventType : GrantEventType
  cost : Amounts

inductive Denial where
  | missingGrant | wrongOwner | notYetValid | expired | wrongTask | eventForbidden
  | budgetExhausted | clockUntrusted
  deriving DecidableEq

abbrev LocalDecision := Except Denial Unit

/-! ## Decisions -/

def safe (value : ℚ) : Bool := value.isInt && decide (0 ≤ value ∧ value ≤ 2 ^ 53 - 1)

def assessBase (grant : Option (GrantOwner × ℚ × ℚ)) (intent : GrantIntent) (now : Option ℚ) :
    LocalDecision :=
  match grant with
  | none => .error .missingGrant
  | some (owner, notBefore, deadline) =>
    if owner ≠ intent.owner then .error .wrongOwner
    else
      match now.filter safe with
      | none => .error .clockUntrusted
      | some now =>
        if now < notBefore then .error .notYetValid
        else if deadline ≤ now then .error .expired
        else .ok ()

/-- The maximum of a line; of lines of one name the last counts. -/
def TaskGrant.maximum (grant : TaskGrant) (id : String) : Option ℚ :=
  (grant.budget.findRev? fun line => line.1 = id).map Prod.snd

/-- A line that was charged already is within the budget. -/
def TaskGrant.holds (grant : TaskGrant) (line : Σ _ : String, ℚ) : Bool :=
  (grant.maximum line.1).any fun maximum => safe maximum && safe line.2 && decide (line.2 ≤ maximum)

/-- A line of the cost fits into what the budget has left. -/
def TaskGrant.fits (grant : TaskGrant) (consumed : Amounts) (line : Σ _ : String, ℚ) : Bool :=
  let used := (consumed.lookup line.1).getD 0
  (grant.maximum line.1).any fun maximum => safe maximum && safe line.2 && safe used &&
    decide (used ≤ maximum ∧ line.2 ≤ maximum - used)

def assessCompletion (grant : Option TaskGrant) (intent : GrantIntent) (now : Option ℚ)
    (consumed : Amounts) : LocalDecision := do
  assessBase (grant.map fun g => (g.owner, g.notBefore, g.completeNotAfter)) intent now
  match grant with
  | none => .error .missingGrant
  | some grant =>
    if grant.taskId ≠ intent.taskId ∨ grant.snapshotDigest ≠ intent.snapshotDigest ∨
        intent.capability ≠ .start grant.taskKind then .error .wrongTask
    else if ¬ grant.eventTypes.contains intent.eventType then .error .eventForbidden
    else if ¬ consumed.entries.all grant.holds then .error .budgetExhausted
    else if ¬ intent.cost.entries.all (grant.fits consumed) then .error .budgetExhausted
    else .ok ()

/-! ## Completions -/

def charge (consumed cost : Amounts) : Amounts :=
  cost.entries.foldl
    (fun next line => next.insert line.1 ((next.lookup line.1).getD 0 + line.2)) consumed

/-- A completion as it is tried: under a grant, at a time of the device's clock. -/
structure Attempt where
  grant : TaskGrant
  intent : GrantIntent
  now : Option ℚ

/-- The counter of a task, and the completions that were allowed. -/
structure Counter where
  consumed : Amounts
  accepted : List Attempt

/-- `commitPickupCompletion`: a completion that is denied aborts its transaction. -/
def commit (s : Counter) (a : Attempt) : Counter :=
  match assessCompletion (some a.grant) a.intent a.now s.consumed with
  | .ok _ => ⟨charge s.consumed a.intent.cost, s.accepted ++ [a]⟩
  | .error _ => s

def run (s : Counter) (attempts : List Attempt) : Counter := attempts.foldl commit s

/-! ## A charge -/

/-- The amount of a line, none being 0. -/
def amount (x : Amounts) (id : String) : ℚ := (x.lookup id).getD 0

theorem amount_foldl {lines : List (Σ _ : String, ℚ)} (h : lines.NodupKeys) (next : Amounts)
    (id : String) :
    amount (lines.foldl
      (fun next line => next.insert line.1 ((next.lookup line.1).getD 0 + line.2)) next) id =
      amount next id + (lines.dlookup id).getD 0 := by
  induction lines generalizing next with
  | nil => simp
  | cons line lines ih =>
    obtain ⟨hnew, hrest⟩ := List.nodupKeys_cons.1 h
    rw [List.foldl_cons, ih hrest]
    by_cases hid : id = line.1
    · subst hid
      rw [List.dlookup_eq_none.2 hnew, amount, AList.lookup_insert, List.dlookup_cons_eq]
      simp [amount]
    · rw [amount, AList.lookup_insert_ne hid, List.dlookup_cons_ne _ _ hid, amount]

theorem amount_charge (consumed cost : Amounts) (id : String) :
    amount (charge consumed cost) id = amount consumed id + amount cost id :=
  amount_foldl cost.nodupKeys consumed id

/-! ## What a decision says -/

/-- What an allowed completion met. -/
structure Admitted (a : Attempt) : Prop where
  owner : a.grant.owner = a.intent.owner
  time : ∃ now, a.now = some now ∧ a.grant.notBefore ≤ now ∧ now < a.grant.completeNotAfter
  task : a.grant.taskId = a.intent.taskId ∧ a.grant.snapshotDigest = a.intent.snapshotDigest ∧
    a.intent.capability = .start a.grant.taskKind
  event : a.intent.eventType ∈ a.grant.eventTypes

theorem assessBase_ok {owner : GrantOwner} {notBefore deadline : ℚ} {intent : GrantIntent}
    {now : Option ℚ} (h : assessBase (some (owner, notBefore, deadline)) intent now = .ok ()) :
    owner = intent.owner ∧ ∃ t, now = some t ∧ notBefore ≤ t ∧ t < deadline := by
  simp only [assessBase] at h
  split at h
  · cases h
  · next howner =>
    split at h
    · cases h
    · next t ht =>
      split at h
      · cases h
      · next hbefore =>
        split at h
        · cases h
        · next hafter =>
          exact ⟨not_not.1 howner, t, (Option.filter_eq_some_iff.1 ht).1, not_lt.1 hbefore,
            not_le.1 hafter⟩

theorem assessCompletion_ok {a : Attempt} {consumed : Amounts}
    (h : assessCompletion (some a.grant) a.intent a.now consumed = .ok ()) :
    Admitted a ∧ (∀ line ∈ consumed.entries, a.grant.holds line = true) ∧
      ∀ line ∈ a.intent.cost.entries, a.grant.fits consumed line = true := by
  rw [assessCompletion, Option.map_some] at h
  cases hbase : assessBase (some (a.grant.owner, a.grant.notBefore, a.grant.completeNotAfter))
      a.intent a.now with
  | error e =>
    rw [hbase] at h
    cases h
  | ok u =>
    rw [hbase] at h
    obtain ⟨howner, htime⟩ := assessBase_ok hbase
    replace h : (if _ then _ else _ : LocalDecision) = .ok () := h
    split at h
    · cases h
    · next htask =>
      split at h
      · cases h
      · next hevent =>
        split at h
        · cases h
        · next hheld =>
          split at h
          · cases h
          · next hfits =>
            simp only [not_or, not_not] at htask
            rw [not_not, List.all_eq_true] at hheld hfits
            exact ⟨⟨howner, htime, htask, by simpa using hevent⟩, hheld, hfits⟩

/-- **An allowed completion stays within the budget.** -/
theorem charge_within {a : Attempt} {consumed : Amounts}
    (h : assessCompletion (some a.grant) a.intent a.now consumed = .ok ()) {id : String}
    (hpos : 0 < amount (charge consumed a.intent.cost) id) :
    ∃ maximum, a.grant.maximum id = some maximum ∧
      amount (charge consumed a.intent.cost) id ≤ maximum := by
  obtain ⟨-, hheld, hfits⟩ := assessCompletion_ok h
  rw [amount_charge] at hpos ⊢
  cases hcost : a.intent.cost.lookup id with
  | some cost =>
    have hline := hfits ⟨id, cost⟩ (AList.mem_lookup_iff.1 hcost)
    simp only [TaskGrant.fits, Option.any_eq_true, Bool.and_eq_true, decide_eq_true_eq] at hline
    obtain ⟨maximum, hmaximum, -, -, hle⟩ := hline
    refine ⟨maximum, hmaximum, ?_⟩
    rw [amount, amount, hcost, Option.getD_some]
    linarith
  | none =>
    rw [show amount a.intent.cost id = 0 by rw [amount, hcost]; rfl, add_zero] at hpos ⊢
    cases hused : consumed.lookup id with
    | none =>
      rw [amount, hused] at hpos
      exact absurd hpos (lt_irrefl _)
    | some used =>
      have hline := hheld ⟨id, used⟩ (AList.mem_lookup_iff.1 hused)
      simp only [TaskGrant.holds, Option.any_eq_true, Bool.and_eq_true, decide_eq_true_eq] at hline
      obtain ⟨maximum, hmaximum, -, hle⟩ := hline
      refine ⟨maximum, hmaximum, ?_⟩
      rw [amount, hused, Option.getD_some]
      exact hle

/-! ## Runs -/

/-- What the completions were charged on a line. -/
def charged (accepted : List Attempt) (id : String) : ℚ :=
  (accepted.map fun a => amount a.intent.cost id).sum

/-- The counter is what was charged, and each completion left its grant's budget whole. -/
structure Counter.Sound (s : Counter) : Prop where
  counted : ∀ id, amount s.consumed id = charged s.accepted id
  within : ∀ before a after, s.accepted = before ++ a :: after → Admitted a ∧
    ∀ id, 0 < charged (before ++ [a]) id →
      ∃ maximum, a.grant.maximum id = some maximum ∧ charged (before ++ [a]) id ≤ maximum

theorem Counter.Sound.commit {s : Counter} (h : s.Sound) (a : Attempt) : (commit s a).Sound := by
  rw [Grants.commit]
  split
  · next hok =>
    have hcharged (id : String) :
        amount (charge s.consumed a.intent.cost) id = charged (s.accepted ++ [a]) id := by
      rw [amount_charge, h.counted, charged, charged, List.map_append, List.sum_append]
      simp
    refine ⟨hcharged, fun before b after heq => ?_⟩
    rcases List.eq_nil_or_concat after with rfl | ⟨rest, c, rfl⟩
    · obtain ⟨rfl, hb⟩ := List.append_inj' heq rfl
      obtain rfl := List.singleton_inj.1 hb
      refine ⟨(assessCompletion_ok hok).1, fun id hpos => ?_⟩
      rw [← hcharged] at hpos ⊢
      exact charge_within hok hpos
    · -- An earlier completion.
      rw [List.concat_eq_append, ← List.cons_append, ← List.append_assoc] at heq
      exact h.within before b rest (List.append_inj' heq rfl).1
  · exact h

/-- **No budget is overdrawn.** From an empty counter, however completions of a task are tried, each
under any grant: those allowed are the owner's, in the grant's time and of its task and events; the
counter is what they were charged; and on every line, what was charged up to the end of one of them
is at most the maximum of its grant. -/
theorem charges_within_budget (attempts : List Attempt) :
    (run ⟨∅, []⟩ attempts).Sound := by
  have hrun : ∀ (attempts : List Attempt) (s : Counter), s.Sound → (run s attempts).Sound := by
    intro attempts
    induction attempts with
    | nil => exact fun s h => h
    | cons a attempts ih => exact fun s h => ih _ (h.commit a)
  refine hrun attempts _ ⟨fun id => ?_, fun before a after heq => ?_⟩
  · rw [amount, AList.lookup_empty]
    rfl
  · simp at heq

end Markiro.Grants
