import Markiro.Lib.Processes
import Markiro.Lib.Table

/-!
# The roster of operators

`replaceOperatorsMirror` and `purgeOperatorsMirror` of `lib/mirror.ts` write the operators into the
slot that is not read and then flip a pointer, statement by statement, with a gate that a purge sets
and a publish lifts. Whatever fails and wherever a turn is cut short, sign-in reads the roster of the
last flip, or nothing while the gate is set (`roster_read_whole`).
-/

namespace Markiro.Station

open Processes

/-! ## The tables -/

structure OperatorMirrorRecord where
  operatorId : String
  name : String
  login : String
  role : String
  pinHash : String
  badgeHash : Option String
  active : Bool
  deriving DecidableEq

inductive RosterSlot where
  | a | b
  deriving DecidableEq

def otherSlot : RosterSlot → RosterSlot
  | .a => .b
  | .b => .a

/-- The two slots and the rows of `station_meta` about them; `published` notes the operators of the
last flip. -/
structure RosterMirror where
  operatorsMirror : List OperatorMirrorRecord
  operatorsMirrorB : List OperatorMirrorRecord
  operatorsSlot : Option String
  operatorsBlocked : Option String
  sealedOperatorRoster : Option (String × List OperatorMirrorRecord)
  published : List OperatorMirrorRecord
  deriving DecidableEq

def RosterMirror.rows (m : RosterMirror) : RosterSlot → List OperatorMirrorRecord
  | .a => m.operatorsMirror
  | .b => m.operatorsMirrorB

def RosterMirror.setRows (m : RosterMirror) (s : RosterSlot) (rows : List OperatorMirrorRecord) :
    RosterMirror :=
  match s with
  | .a => { m with operatorsMirror := rows }
  | .b => { m with operatorsMirrorB := rows }

/-- What a read of the pointer gives. -/
def RosterMirror.activeSlot (m : RosterMirror) : RosterSlot :=
  if m.operatorsSlot = some "b" then .b else .a

/-- The gate is set. -/
def RosterMirror.Blocked (m : RosterMirror) : Prop := m.operatorsBlocked = some "1"

instance (m : RosterMirror) : Decidable m.Blocked := inferInstanceAs (Decidable (_ = _))

/-- `readOperatorRosterSnapshot`: the pointer, the gate and the rows in one statement. -/
def readOperatorRosterSnapshot (m : RosterMirror) : List OperatorMirrorRecord :=
  (m.operatorsMirror.filter fun _ =>
    m.operatorsSlot.getD "a" ≠ "b" ∧ m.operatorsBlocked.getD "0" ≠ "1") ++
  m.operatorsMirrorB.filter fun _ =>
    m.operatorsSlot.getD "a" = "b" ∧ m.operatorsBlocked.getD "0" ≠ "1"

/-! ## Statements -/

/-- A statement that writes. `flip` carries the operators of its publish as a note. -/
inductive RosterWrite where
  | clear (slot : RosterSlot)
  | insert (slot : RosterSlot) (operator : OperatorMirrorRecord)
  | flip (slot : RosterSlot) (operators : List OperatorMirrorRecord)
  | unblock
  | block
  | clearSlot
  | keepSealed (owner : String) (operators : List OperatorMirrorRecord)
  | dropSealed

def RosterSlot.value : RosterSlot → String
  | .a => "a"
  | .b => "b"

/-- What a statement does; a second row of one operator is refused. -/
def RosterWrite.effect (m : RosterMirror) : RosterWrite → Option RosterMirror
  | .clear slot => some (m.setRows slot [])
  | .insert slot operator =>
    if operator.operatorId ∈ (m.rows slot).map (·.operatorId) then none
    else some (m.setRows slot (m.rows slot ++ [operator]))
  | .flip slot operators =>
    some { m with operatorsSlot := some slot.value, published := operators }
  | .unblock => some { m with operatorsBlocked := none }
  | .block => some { m with operatorsBlocked := some "1" }
  | .clearSlot => some { m with operatorsSlot := none }
  | .keepSealed owner operators =>
    some { m with
      sealedOperatorRoster := some (m.sealedOperatorRoster.getD (owner, operators)) }
  | .dropSealed => some { m with sealedOperatorRoster := none }

/-- What a turn asks: a statement, or whether its request is still current. -/
inductive RosterRequest where
  | activeSlot
  | readOperators
  | run (w : RosterWrite)
  | isCurrent

inductive SqlError where
  | failed
  deriving DecidableEq

abbrev RosterRequest.Answer : RosterRequest → Type
  | .activeSlot => Except SqlError RosterSlot
  | .readOperators => Except SqlError (List OperatorMirrorRecord)
  | .run _ => Except SqlError Unit
  | .isCurrent => Bool

/-- How a request fares: a statement may fail without its effect, or with it. -/
inductive Fare where
  | done
  | failed
  | lost
  | current (b : Bool)

/-- A statement that reads. -/
def readWith {α : Type} (m : RosterMirror) (a : α) :
    Fare → Option (Except SqlError α × RosterMirror)
  | .done => some (.ok a, m)
  | .failed | .lost => some (.error .failed, m)
  | .current _ => none

def runWrite (m : RosterMirror) (w : RosterWrite) :
    Fare → Option (Except SqlError Unit × RosterMirror)
  | .done =>
    match w.effect m with
    | some m' => some (.ok (), m')
    | none => some (.error .failed, m)
  | .lost => some (.error .failed, (w.effect m).getD m)
  | .failed => some (.error .failed, m)
  | .current _ => none

def serveRoster (m : RosterMirror) :
    (r : RosterRequest) → Fare → Option (r.Answer × RosterMirror)
  | .activeSlot, f => readWith m m.activeSlot f
  | .readOperators, f => readWith m (readOperatorRosterSnapshot m) f
  | .run w, f => runWrite m w f
  | .isCurrent, .current b => some (b, m)
  | .isCurrent, _ => none

/-! ## Turns -/

abbrev RosterTurn := Fallible RosterRequest.Answer SqlError

def activeSlot : RosterTurn RosterSlot := Fallible.ofProcess
    (Process.request RosterRequest.activeSlot)

def readOperatorsMirror : RosterTurn (List OperatorMirrorRecord) :=
  Fallible.ofProcess (Process.request RosterRequest.readOperators)

/-- `exec.run`. -/
def rosterRun (w : RosterWrite) : RosterTurn Unit :=
  Fallible.ofProcess (Process.request (RosterRequest.run w))

def publishOperatorsMirror (operators : List OperatorMirrorRecord) : RosterTurn Unit := do
  let slot ← activeSlot
  let target := otherSlot slot
  rosterRun (.clear target)
  Fallible.foldl (fun _ op => rosterRun (.insert target op)) () operators
  let current ← Fallible.query RosterRequest.isCurrent
  if current then do
    rosterRun (.flip target operators)
    rosterRun .unblock
    -- the generation that went stale; a failure here does not fail the publish
    Fallible.quietly (rosterRun (.clear (otherSlot target)))
  else pure ()

def replaceOperatorsMirror (operators : List OperatorMirrorRecord) : RosterTurn Unit := do
  let current ← Fallible.query RosterRequest.isCurrent
  if current then publishOperatorsMirror operators else pure ()

def sealOperators : Option String → RosterTurn Unit
  | some owner => do
    let operators ← readOperatorsMirror
    rosterRun (.keepSealed owner operators)
  | none => rosterRun .dropSealed

def purgeOperatorsMirror (sealedOwner : Option String) : RosterTurn Unit := do
  sealOperators sealedOwner
  rosterRun .block
  rosterRun (.clear .a)
  rosterRun (.clear .b)
  rosterRun .clearSlot

/-- A turn of `refreshChain`. -/
inductive RosterJob where
  | replace (operators : List OperatorMirrorRecord)
  | purge (sealedOwner : Option String)

def RosterJob.turn : RosterJob → RosterTurn Unit
  | .replace operators => replaceOperatorsMirror operators
  | .purge sealedOwner => purgeOperatorsMirror sealedOwner

/-- A turn starts when the one before has settled, or after a crash. -/
def rosterSystem : System RosterRequest RosterRequest.Answer RosterMirror Fare Empty RosterJob where
  serve := serveRoster
  outside := fun _ o => nomatch o
  process := fun j => Process.bind j.turn fun _ => .done ()

/-! ## What a statement keeps -/

@[simp]
theorem otherSlot_ne (s : RosterSlot) : otherSlot s ≠ s := by cases s <;> decide

@[simp]
theorem otherSlot_otherSlot (s : RosterSlot) : otherSlot (otherSlot s) = s := by cases s <;> rfl

@[simp]
theorem RosterMirror.rows_setRows (m : RosterMirror) (s : RosterSlot)
    (rows : List OperatorMirrorRecord) : (m.setRows s rows).rows s = rows := by
  cases s <;> rfl

theorem RosterMirror.rows_setRows_of_ne (m : RosterMirror) {s t : RosterSlot} (h : t ≠ s)
    (rows : List OperatorMirrorRecord) : (m.setRows s rows).rows t = m.rows t := by
  cases s <;> cases t <;> first | rfl | exact absurd rfl h

@[simp]
theorem RosterMirror.activeSlot_setRows (m : RosterMirror) (s : RosterSlot)
    (rows : List OperatorMirrorRecord) : (m.setRows s rows).activeSlot = m.activeSlot := by
  cases s <;> rfl

@[simp]
theorem RosterMirror.published_setRows (m : RosterMirror) (s : RosterSlot)
    (rows : List OperatorMirrorRecord) : (m.setRows s rows).published = m.published := by
  cases s <;> rfl

@[simp]
theorem RosterMirror.blocked_setRows (m : RosterMirror) (s : RosterSlot)
    (rows : List OperatorMirrorRecord) : (m.setRows s rows).Blocked ↔ m.Blocked := by
  cases s <;> rfl

theorem RosterMirror.activeSlot_value (m : RosterMirror) (s : RosterSlot)
    (published : List OperatorMirrorRecord) :
    { m with operatorsSlot := some s.value, published := published : RosterMirror }.activeSlot =
      s := by
  cases s <;> rfl

/-- Sign-in reads the last published roster, or the gate is set. -/
def RosterMirror.Whole (m : RosterMirror) : Prop := m.Blocked ∨ m.rows m.activeSlot = m.published

/-- When a statement may run. -/
def RosterWrite.Allowed (m : RosterMirror) : RosterWrite → Prop
  | .clear slot | .insert slot _ => m.Blocked ∨ slot ≠ m.activeSlot
  | .flip slot operators => m.rows slot = operators
  | .unblock => m.rows m.activeSlot = m.published
  | .clearSlot => m.Blocked
  | .block | .keepSealed _ _ | .dropSealed => True

theorem RosterMirror.Whole.setRows {m : RosterMirror} (h : m.Whole) {s : RosterSlot}
    (hs : m.Blocked ∨ s ≠ m.activeSlot) (rows : List OperatorMirrorRecord) :
    (m.setRows s rows).Whole := by
  unfold Whole at h ⊢
  rw [blocked_setRows, activeSlot_setRows, published_setRows]
  rcases hs with hb | hs
  · exact .inl hb
  · rwa [rows_setRows_of_ne m hs.symm]

theorem RosterWrite.effect_whole {m m' : RosterMirror} {w : RosterWrite} (ha : w.Allowed m)
    (h : w.effect m = some m') (hm : m.Whole) : m'.Whole := by
  cases w with
  | clear slot =>
    obtain rfl : m.setRows slot [] = m' := Option.some.inj h
    exact hm.setRows ha []
  | insert slot operator =>
    rw [effect] at h
    split at h
    · exact nomatch h
    · obtain rfl := Option.some.inj h
      exact hm.setRows ha _
  | flip slot operators =>
    obtain rfl := Option.some.inj h
    exact .inr (by rw [RosterMirror.activeSlot_value]; exact ha)
  | unblock =>
    obtain rfl := Option.some.inj h
    exact .inr ha
  | block =>
    obtain rfl := Option.some.inj h
    exact .inl rfl
  | clearSlot =>
    obtain rfl := Option.some.inj h
    exact .inl ha
  | keepSealed owner operators | dropSealed =>
    obtain rfl := Option.some.inj h
    exact hm

/-! ## Turns, statement by statement -/

/-- Nothing changes the tables but the turn that runs. -/
def rosterContract : Contract RosterRequest RosterMirror where
  inv := RosterMirror.Whole
  rely := Eq
  meets _ _ := True
  pre m
    | .run w => w.Allowed m
    | _ => True

theorem runWrite_world {m m' : RosterMirror} {w : RosterWrite} {f : Fare}
    {a : Except SqlError Unit} (h : runWrite m w f = some (a, m')) :
    (m' = m ∨ w.effect m = some m') ∧ (a = .ok () → w.effect m = some m') := by
  cases f with
  | done =>
    cases he : w.effect m with
    | none =>
      simp only [runWrite, he] at h
      obtain ⟨rfl, rfl⟩ := Prod.mk.inj (Option.some.inj h)
      exact ⟨.inl rfl, nofun⟩
    | some next =>
      simp only [runWrite, he] at h
      obtain ⟨rfl, rfl⟩ := Prod.mk.inj (Option.some.inj h)
      exact ⟨.inr rfl, fun _ => rfl⟩
  | failed =>
    obtain ⟨rfl, rfl⟩ := Prod.mk.inj (Option.some.inj h)
    exact ⟨.inl rfl, nofun⟩
  | lost =>
    obtain ⟨rfl, rfl⟩ := Prod.mk.inj (Option.some.inj h)
    cases he : w.effect m with
    | none => exact ⟨.inl rfl, nofun⟩
    | some next => exact ⟨.inr rfl, nofun⟩
  | current b => exact nomatch h

theorem readWith_world {α : Type} {m m' : RosterMirror} {x : α} {f : Fare} {a : Except SqlError α}
    (h : readWith m x f = some (a, m')) : m' = m ∧ ∀ y, a = .ok y → y = x := by
  cases f with
  | done =>
    obtain ⟨rfl, rfl⟩ := Prod.mk.inj (Option.some.inj h)
    exact ⟨rfl, fun y hy => (Except.ok.inj hy).symm⟩
  | failed | lost =>
    obtain ⟨rfl, rfl⟩ := Prod.mk.inj (Option.some.inj h)
    exact ⟨rfl, nofun⟩
  | current b => exact nomatch h

theorem rosterContract_sound : rosterContract.Sound rosterSystem where
  outside _ o := nomatch o
  serve m r f a m' hm _ hp h := by
    cases r with
    | activeSlot | readOperators =>
      obtain ⟨rfl, -⟩ := readWith_world h
      exact hm
    | run w =>
      rcases (runWrite_world h).1 with rfl | he
      · exact hm
      · exact RosterWrite.effect_whole hp he hm
    | isCurrent =>
      cases f with
      | current b =>
        obtain ⟨-, rfl⟩ := Prod.mk.inj (Option.some.inj h)
        exact hm
      | done | failed | lost => exact nomatch h

theorem rosterContract_stable (A : RosterMirror → Prop) : rosterContract.Stable A := by
  rintro m m' - rfl hA
  exact hA

theorem leads_rosterRun {A B : RosterMirror → Prop} (w : RosterWrite)
    (ha : ∀ m, m.Whole → A m → w.Allowed m)
    (h : ∀ m m', A m → w.effect m = some m' → B m') :
    rosterSystem.Leads rosterContract A (rosterRun w) fun _ => B :=
  System.Holds.request rosterContract_sound (rosterContract_stable A)
    (fun _ => rosterContract_stable _) fun m hm hA _ =>
      ⟨ha m hm hA, fun _ _ m' hs _ he => h m m' hA ((runWrite_world hs).2 he)⟩

theorem leads_activeSlot {A : RosterMirror → Prop} :
    rosterSystem.Leads rosterContract A activeSlot fun slot m => m.activeSlot = slot :=
  System.Holds.request rosterContract_sound (rosterContract_stable A)
    (fun _ => rosterContract_stable _) fun m _ _ _ =>
      ⟨trivial, fun _ a m' hs slot he => by
        obtain ⟨rfl, hread⟩ := readWith_world hs
        exact (hread slot he).symm⟩

theorem leads_readOperatorsMirror {A : RosterMirror → Prop} :
    rosterSystem.Leads rosterContract A readOperatorsMirror fun _ => A :=
  System.Holds.request rosterContract_sound (rosterContract_stable A)
    (fun _ => rosterContract_stable _) fun m _ hA _ =>
      ⟨trivial, fun _ a m' hs _ _ => by
        obtain ⟨rfl, -⟩ := readWith_world hs
        exact hA⟩

theorem leads_isCurrent {A : RosterMirror → Prop} :
    rosterSystem.Leads rosterContract A
      (Fallible.query RosterRequest.isCurrent : RosterTurn Bool) fun _ => A :=
  System.Leads.query rosterContract_sound (rosterContract_stable A)
    (fun _ => rosterContract_stable _) fun m _ hA _ =>
      ⟨trivial, fun f a m' hs => by
        cases f with
        | current c =>
          obtain ⟨-, rfl⟩ := Prod.mk.inj (Option.some.inj hs)
          exact hA
        | done | failed | lost => exact nomatch hs⟩

theorem leads_pure {A : RosterMirror → Prop} :
    rosterSystem.Leads rosterContract A (pure () : RosterTurn Unit) fun _ _ => True :=
  System.Leads.pure (rosterContract_stable _) fun _ _ _ => trivial

/-- While `slot` is read the rows go into the other slot, `rest` being left of `operators`. -/
def Staging (slot : RosterSlot) (operators rest : List OperatorMirrorRecord)
    (m : RosterMirror) : Prop :=
  m.activeSlot = slot ∧ m.rows (otherSlot slot) ++ rest = operators

theorem leads_clear (slot : RosterSlot) (operators : List OperatorMirrorRecord) :
    rosterSystem.Leads rosterContract (fun m => m.activeSlot = slot)
      (rosterRun (.clear (otherSlot slot))) fun _ => Staging slot operators operators := by
  apply leads_rosterRun
  · rintro m - rfl
    exact .inr (otherSlot_ne _)
  · rintro m m' rfl h
    obtain rfl : m.setRows (otherSlot m.activeSlot) [] = m' := Option.some.inj h
    exact ⟨by simp, by simp⟩

theorem leads_insert (slot : RosterSlot) (operators : List OperatorMirrorRecord)
    (op : OperatorMirrorRecord) (rest : List OperatorMirrorRecord) :
    rosterSystem.Leads rosterContract (Staging slot operators (op :: rest))
      (rosterRun (.insert (otherSlot slot) op)) fun _ => Staging slot operators rest := by
  apply leads_rosterRun
  · rintro m - ⟨rfl, -⟩
    exact .inr (otherSlot_ne _)
  · rintro m m' ⟨rfl, hrows⟩ h
    rw [RosterWrite.effect] at h
    split at h
    · exact nomatch h
    · obtain rfl := Option.some.inj h
      exact ⟨by simp, by simpa using hrows⟩

theorem leads_flip (slot : RosterSlot) (operators : List OperatorMirrorRecord) :
    rosterSystem.Leads rosterContract (Staging slot operators [])
      (rosterRun (.flip (otherSlot slot) operators))
      fun _ m => m.activeSlot = otherSlot slot ∧ m.rows m.activeSlot = m.published := by
  apply leads_rosterRun
  · rintro m - ⟨-, hrows⟩
    exact (List.append_nil _).symm.trans hrows
  · rintro m m' ⟨-, hrows⟩ h
    obtain rfl := Option.some.inj h
    refine ⟨m.activeSlot_value _ _, ?_⟩
    rw [RosterMirror.activeSlot_value]
    exact (List.append_nil _).symm.trans hrows

theorem leads_unblock (slot : RosterSlot) :
    rosterSystem.Leads rosterContract
      (fun m => m.activeSlot = slot ∧ m.rows m.activeSlot = m.published)
      (rosterRun .unblock) fun _ m => m.activeSlot = slot := by
  apply leads_rosterRun
  · exact fun m _ h => h.2
  · rintro m m' ⟨rfl, -⟩ h
    obtain rfl := Option.some.inj h
    rfl

theorem leads_clearStale (slot : RosterSlot) :
    rosterSystem.Leads rosterContract (fun m => m.activeSlot = slot)
      (Fallible.quietly (rosterRun (.clear (otherSlot slot)))) fun _ _ => True := by
  apply System.Leads.quietly rosterContract_sound
  exact leads_clear slot []

theorem leads_publishOperatorsMirror (operators : List OperatorMirrorRecord) :
    rosterSystem.Leads rosterContract (fun _ => True) (publishOperatorsMirror operators)
      fun _ _ => True := by
  have hC := rosterContract_sound
  refine System.Leads.bind hC leads_activeSlot fun slot => ?_
  refine System.Leads.bind hC (leads_clear slot operators) fun _ => ?_
  refine System.Leads.bind hC (System.Leads.foldl hC (fun rest _ => Staging slot operators rest)
    (fun _ => rosterContract_stable _) (fun op rest _ => leads_insert slot operators op rest)
    operators ()) fun _ => ?_
  refine System.Leads.bind hC leads_isCurrent fun current => ?_
  cases current with
  | false => exact leads_pure
  | true =>
    refine System.Leads.bind hC (leads_flip slot operators) fun _ => ?_
    exact System.Leads.bind hC (leads_unblock _) fun _ => leads_clearStale _

theorem leads_replaceOperatorsMirror (operators : List OperatorMirrorRecord) :
    rosterSystem.Leads rosterContract (fun _ => True) (replaceOperatorsMirror operators)
      fun _ _ => True := by
  refine System.Leads.bind rosterContract_sound leads_isCurrent fun current => ?_
  cases current with
  | false => exact leads_pure
  | true => exact leads_publishOperatorsMirror operators

theorem leads_sealOperators (sealedOwner : Option String) :
    rosterSystem.Leads rosterContract (fun _ => True) (sealOperators sealedOwner)
      fun _ _ => True := by
  cases sealedOwner with
  | none => exact leads_rosterRun _ (fun _ _ _ => trivial) fun _ _ _ _ => trivial
  | some owner =>
    refine System.Leads.bind rosterContract_sound leads_readOperatorsMirror fun _ => ?_
    exact leads_rosterRun _ (fun _ _ _ => trivial) fun _ _ _ _ => trivial

theorem leads_clearBlocked (slot : RosterSlot) :
    rosterSystem.Leads rosterContract RosterMirror.Blocked (rosterRun (.clear slot))
      fun _ => RosterMirror.Blocked := by
  apply leads_rosterRun
  · exact fun m _ hb => .inl hb
  · intro m m' hb h
    obtain rfl : m.setRows slot [] = m' := Option.some.inj h
    exact (m.blocked_setRows slot []).2 hb

theorem leads_purgeOperatorsMirror (sealedOwner : Option String) :
    rosterSystem.Leads rosterContract (fun _ => True) (purgeOperatorsMirror sealedOwner)
      fun _ _ => True := by
  have hC := rosterContract_sound
  have hblock : rosterSystem.Leads rosterContract (fun _ => True) (rosterRun .block)
      fun _ => RosterMirror.Blocked := by
    apply leads_rosterRun
    · exact fun _ _ _ => trivial
    · intro m m' _ h
      obtain rfl := Option.some.inj h
      exact rfl
  refine System.Leads.bind hC (leads_sealOperators sealedOwner) fun _ => ?_
  refine System.Leads.bind hC hblock fun _ => ?_
  refine System.Leads.bind hC (leads_clearBlocked .a) fun _ => ?_
  refine System.Leads.bind hC (leads_clearBlocked .b) fun _ => ?_
  exact leads_rosterRun _ (fun _ _ hb => hb) fun _ _ _ _ => trivial

theorem leads_turn (job : RosterJob) :
    rosterSystem.Leads rosterContract (fun _ => True) job.turn fun _ _ => True := by
  cases job with
  | replace operators => exact leads_replaceOperatorsMirror operators
  | purge sealedOwner => exact leads_purgeOperatorsMirror sealedOwner

/-! ## Every run -/

theorem holds_process (job : RosterJob) :
    rosterSystem.Holds rosterContract (fun _ => True) (rosterSystem.process job)
      fun _ _ => True :=
  System.Holds.bind rosterContract_sound (leads_turn job) fun _ =>
    System.Holds.done (rosterContract_stable _) fun _ _ _ => trivial

/-- Before any publish, the roster of the slot that is read counts as the published one. -/
def RosterMirror.noted (m : RosterMirror) : RosterMirror :=
  { m with published := m.rows m.activeSlot }

theorem RosterMirror.noted_whole (m : RosterMirror) : m.noted.Whole := .inr rfl

theorem readOperatorRosterSnapshot_eq (m : RosterMirror) :
    readOperatorRosterSnapshot m = if m.Blocked then [] else m.rows m.activeSlot := by
  have hblocked : m.operatorsBlocked.getD "0" = "1" ↔ m.Blocked := by
    unfold RosterMirror.Blocked
    cases m.operatorsBlocked <;> simp
  have hslot : m.operatorsSlot.getD "a" = "b" ↔ m.operatorsSlot = some "b" := by
    cases m.operatorsSlot <;> simp
  simp only [readOperatorRosterSnapshot, RosterMirror.activeSlot, ne_eq, hblocked, hslot]
  by_cases hb : m.Blocked
  · simp [hb]
  · by_cases hs : m.operatorsSlot = some "b" <;> simp [hb, hs, RosterMirror.rows]

/-- The world after a run that starts when no turn is under way. -/
def rosterAfter (m : RosterMirror) (moves : List (Move Fare Empty RosterJob)) : RosterMirror :=
  (rosterSystem.run ⟨m.noted, .done ()⟩ moves).world

/-- **Sign-in reads a whole roster**: whatever turns are taken and wherever one fails or is cut
short, a read gives nothing while the gate is set, and else the operators of the last flip. -/
theorem roster_read_whole (m : RosterMirror) (moves : List (Move Fare Empty RosterJob)) :
    readOperatorRosterSnapshot (rosterAfter m moves) =
      if (rosterAfter m moves).Blocked then [] else (rosterAfter m moves).published := by
  have hstart : System.Kept rosterSystem rosterContract ⟨m.noted, .done ()⟩ :=
    ⟨m.noted_whole, fun _ _ => trivial⟩
  have hkept := (hstart.trail rosterContract_sound holds_process moves
    fun _ _ _ _ => trivial).2
  have hwhole : (rosterAfter m moves).Whole := hkept.1
  rw [readOperatorRosterSnapshot_eq]
  rcases hwhole with hb | hrows
  · rw [if_pos hb, if_pos hb]
  · rw [hrows]

end Markiro.Station
