import Mathlib

/-!
# The scan queue

`createScanQueue` of `lib/scan-queue.ts`: an asynchronous loop takes scans and jobs off a buffer one
at a time, and its callbacks may call the queue again or throw. A run is calm where `shouldProcess`
never throws and the other callbacks throw only with nothing buffered; the queue is sound in every
state of a run just when the run is calm (`queue_sound_iff`).
-/

namespace Markiro.Station

/-! ## The queue -/

inductive QueueEntry where
  | scan (raw : String)
  | job
  deriving DecidableEq

def QueueEntry.isScan : QueueEntry → Bool
  | .scan _ => true
  | .job => false

structure Accepted where
  number : ℕ
  entry : QueueEntry
  deriving DecidableEq

def Accepted.isScan (e : Accepted) : Bool := e.entry.isScan

/-- The callbacks that report. -/
inductive Callback where
  | onOutcome | onError | onJobError
  deriving DecidableEq

/-- What a call of `drain` that has not ended waits for: an answer of a callback, or the end of
`process` or of a job. -/
inductive Awaiting where
  | shouldProcess (e : Accepted)
  | running (e : Accepted)
  | callback (c : Callback) (e : Accepted)
  deriving DecidableEq

def Awaiting.entry : Awaiting → Accepted
  | .shouldProcess e | .running e | .callback _ e => e

/-- A promise of `close` or `idle` that was resolved, with what was accepted and not finished. -/
structure Resolution where
  promise : ℕ
  unfinished : List Accepted
  deriving DecidableEq

/-- The variables of the queue, its calls of `drain`, and a log. -/
structure ScanQueue where
  buffer : List Accepted
  draining : Bool
  accepting : Bool
  idleResolvers : List ℕ
  loops : List Awaiting
  promises : ℕ
  accepted : List Accepted
  started : List Accepted
  refused : List Accepted
  discarded : List Accepted
  reported : List Accepted
  resolved : List Resolution
  deriving DecidableEq

def createScanQueue : ScanQueue :=
  ⟨[], false, true, [], [], 0, [], [], [], [], [], []⟩

/-- The entries that were accepted and are neither finished nor given up. -/
def ScanQueue.unfinished (q : ScanQueue) : List Accepted := q.loops.map (·.entry) ++ q.buffer

def ScanQueue.resolve (q : ScanQueue) (promises : List ℕ) : ScanQueue :=
  { q with resolved := q.resolved ++ promises.map (⟨·, q.unfinished⟩) }

def ScanQueue.settleIdle (q : ScanQueue) : ScanQueue :=
  { q.resolve q.idleResolvers with idleResolvers := [] }

/-- The `finally` block: the loop ends, whatever is buffered. -/
def ScanQueue.finish (q : ScanQueue) : ScanQueue :=
  ({ q with draining := false } : ScanQueue).settleIdle

def ScanQueue.await (q : ScanQueue) (a : Awaiting) : ScanQueue := { q with loops := q.loops ++ [a] }

def ScanQueue.start (q : ScanQueue) (e : Accepted) : ScanQueue :=
  { q with started := q.started ++ [e] }.await (.running e)

/-- A round of the loop, from its test. -/
def ScanQueue.advance (q : ScanQueue) : ScanQueue :=
  match q.buffer with
  | [] => q.finish
  | e :: buffer =>
    if e.isScan then { q with buffer := buffer }.await (.shouldProcess e)
    else { q with buffer := buffer }.start e

def ScanQueue.drain (q : ScanQueue) : ScanQueue :=
  if q.draining then q else { q with draining := true }.advance

def ScanQueue.numbered (q : ScanQueue) (entry : QueueEntry) : Accepted :=
  ⟨q.accepted.length, entry⟩

def ScanQueue.enqueue (q : ScanQueue) (entry : QueueEntry) : ScanQueue :=
  if q.accepting then
    ({ q with
      buffer := q.buffer ++ [q.numbered entry]
      accepted := q.accepted ++ [q.numbered entry] } : ScanQueue).drain
  else q

def ScanQueue.discardBufferedScans (q : ScanQueue) : ScanQueue :=
  { q with
    buffer := q.buffer.filter fun e => !e.isScan
    discarded := q.discarded ++ q.buffer.filter (·.isScan) }

def ScanQueue.idle (q : ScanQueue) : ScanQueue :=
  let q' : ScanQueue := { q with promises := q.promises + 1 }
  if q.draining = false ∧ q.buffer = [] then q'.resolve [q.promises]
  else { q' with idleResolvers := q.idleResolvers ++ [q.promises] }

def ScanQueue.close (q : ScanQueue) : ScanQueue := { q with accepting := false }.idle

/-- What a loop is answered: a callback returns, with a value where `shouldProcess` does, or throws;
a promise is fulfilled or rejected. -/
inductive Answer where
  | admitted (verdict : Bool)
  | fulfilled
  | rejected
  | returned
  | threw
  deriving DecidableEq

/-- The loop that awaited `a` goes on; an answer to something else changes nothing. -/
def ScanQueue.answer (q : ScanQueue) : Awaiting → Answer → Option ScanQueue
  | .shouldProcess e, .admitted true => some (q.start e)
  | .shouldProcess e, .admitted false => some { q with refused := q.refused ++ [e] }.advance
  | .shouldProcess _, .threw => some q.finish
  | .running e, .fulfilled =>
    if e.isScan then
      some ({ q with reported := q.reported ++ [e] }.await (.callback .onOutcome e))
    else some q.advance
  | .running e, .rejected =>
    if e.isScan then some ({ q with reported := q.reported ++ [e] }.await (.callback .onError e))
    else some (q.await (.callback .onJobError e))
  | .callback _ _, .returned => some q.advance
  | .callback _ _, .threw => some q.finish
  | _, _ => none

/-- The answer to the loop at this place. -/
def ScanQueue.answered (q : ScanQueue) (i : ℕ) (reply : Answer) : Option ScanQueue := do
  let a ← q.loops[i]?
  { q with loops := q.loops.eraseIdx i }.answer a reply

/-- A call of the queue, from outside or from a callback, or an answer to a loop. -/
inductive QueueEvent where
  | enqueue (entry : QueueEntry)
  | discardBufferedScans
  | «open»
  | close
  | idle
  | answer (i : ℕ) (reply : Answer)
  deriving DecidableEq

def QueueEvent.after (q : ScanQueue) : QueueEvent → ScanQueue
  | .enqueue entry => q.enqueue entry
  | .discardBufferedScans => q.discardBufferedScans
  | .open => { q with accepting := true }
  | .close => q.close
  | .idle => q.idle
  | .answer i reply => (q.answered i reply).getD q

def runQueue (events : List QueueEvent) : ScanQueue := events.foldl QueueEvent.after createScanQueue

/-! ## Calm runs -/

/-- A throw that leaves nothing behind. -/
def Awaiting.MayThrow (buffer : List Accepted) : Awaiting → Prop
  | .shouldProcess _ => False
  | .running _ => True
  | .callback _ _ => buffer = []

/-- `shouldProcess` does not throw, and the other callbacks throw with nothing buffered. -/
def QueueEvent.Calm (q : ScanQueue) : QueueEvent → Prop
  | .answer i .threw => ∀ a ∈ q.loops[i]?, a.MayThrow q.buffer
  | _ => True

/-! ## What the queue promises -/

/-- How many answers the loops may take before they end. -/
def Awaiting.rank : Awaiting → ℕ
  | .shouldProcess _ => 3
  | .running _ => 2
  | .callback _ _ => 1

def ScanQueue.remaining (q : ScanQueue) : ℕ :=
  3 * q.buffer.length + (q.loops.map Awaiting.rank).sum

/-- Answers that the loops take one after the other, with no call in between. -/
def Takes : ScanQueue → List (ℕ × Answer) → Prop
  | _, [] => True
  | q, (i, reply) :: replies => ∃ q', q.answered i reply = some q' ∧ Takes q' replies

/-- The entry that a loop asks `shouldProcess` about. -/
def Awaiting.asked : Awaiting → Option Accepted
  | .shouldProcess e => some e
  | _ => none

/-- The scan that a loop has given to `process`. -/
def Awaiting.scanning : Awaiting → Option Accepted
  | .running e => if e.isScan then some e else none
  | _ => none

def ScanQueue.asked (q : ScanQueue) : List Accepted := q.loops.filterMap Awaiting.asked

/-- The promises of the queue in one state. -/
structure ScanQueue.Sound (q : ScanQueue) : Prop where
  single : q.loops.length ≤ 1
  inOrder : q.started.Sublist q.accepted
  active : q.buffer ≠ [] → q.loops ≠ []
  prompt : ∀ replies, Takes q replies → replies.length ≤ 3 * (q.buffer.length + 1)
  accounted : ∀ e ∈ q.accepted,
    e ∈ q.started ∨ e ∈ q.refused ∨ e ∈ q.discarded ∨ e ∈ q.buffer ∨ e ∈ q.asked
  scans : ∀ e ∈ q.refused ++ q.discarded, e.isScan = true
  reportedOnce : q.started.filter (·.isScan) = q.reported ++ q.loops.filterMap Awaiting.scanning
  settled : ∀ r ∈ q.resolved, r.unfinished = []

/-! ## The loop -/

/-- The loop between two waits, with the entries it has in hand. -/
structure ScanQueue.Holds (q : ScanQueue) (held : List Accepted) : Prop where
  loops : q.loops = []
  draining : q.draining = true
  order : (q.started ++ (held ++ q.buffer)).Sublist q.accepted
  all : (q.started ++ (held ++ q.buffer) ++ (q.refused ++ q.discarded)).Perm q.accepted
  numbers : q.accepted.map (·.number) = List.range q.accepted.length
  scans : ∀ e ∈ q.refused ++ q.discarded, e.isScan = true
  reported : q.started.filter (·.isScan) = q.reported
  settled : ∀ r ∈ q.resolved, r.unfinished = []

/-- What holds between two events: one loop at most, and a loop wherever something is buffered. -/
structure ScanQueue.Kept (q : ScanQueue) : Prop where
  single : q.loops.length ≤ 1
  draining : q.draining = !q.loops.isEmpty
  active : q.buffer ≠ [] → q.loops ≠ []
  order : (q.started ++ (q.asked ++ q.buffer)).Sublist q.accepted
  all : (q.started ++ (q.asked ++ q.buffer) ++ (q.refused ++ q.discarded)).Perm q.accepted
  numbers : q.accepted.map (·.number) = List.range q.accepted.length
  scans : ∀ e ∈ q.refused ++ q.discarded ++ q.asked, e.isScan = true
  reported : q.started.filter (·.isScan) = q.reported ++ q.loops.filterMap Awaiting.scanning
  settled : ∀ r ∈ q.resolved, r.unfinished = []

section

variable {q : ScanQueue} {e : Accepted}

theorem ScanQueue.Holds.finish (h : q.Holds []) (hbuffer : q.buffer = []) : q.finish.Kept := by
  have hloops : q.finish.loops = [] := h.loops
  have hasked : q.finish.asked = [] := by rw [ScanQueue.asked, hloops, List.filterMap_nil]
  refine ⟨?_, ?_, fun hne => absurd hbuffer hne, ?_, ?_, h.numbers, ?_, ?_, ?_⟩
  · rw [hloops]
    exact Nat.zero_le 1
  · rw [hloops]
    rfl
  · rw [hasked]
    exact h.order
  · rw [hasked]
    exact h.all
  · rw [hasked, List.append_nil]
    exact h.scans
  · rw [hloops, List.filterMap_nil, List.append_nil]
    exact h.reported
  · intro r hr
    rcases List.mem_append.1 hr with hr | hr
    · exact h.settled r hr
    · obtain ⟨p, -, rfl⟩ := List.mem_map.1 hr
      show q.loops.map (·.entry) ++ q.buffer = []
      rw [h.loops, hbuffer]
      rfl

variable {a : Awaiting}

theorem ScanQueue.asked_of_loops (h : q.loops = [a]) : q.asked = a.asked.toList := by
  rw [ScanQueue.asked, h]
  cases ha : a.asked with
  | none => rw [List.filterMap_cons_none ha, List.filterMap_nil, Option.toList_none]
  | some e => rw [List.filterMap_cons_some ha, List.filterMap_nil, Option.toList_some]

/-- The loop waits; what it has in hand is what it asks about. -/
theorem ScanQueue.Holds.await {held : List Accepted} (h : q.Holds held)
    (hasked : a.asked.toList = held) (hscan : ∀ e ∈ held, e.isScan = true)
    (hscanning : a.scanning = none) : (q.await a).Kept := by
  have hloops : (q.await a).loops = [a] := by
    show q.loops ++ [a] = [a]
    rw [h.loops, List.nil_append]
  have hheld : (q.await a).asked = held := (ScanQueue.asked_of_loops hloops).trans hasked
  refine ⟨?_, ?_, ?_, ?_, ?_, h.numbers, ?_, ?_, h.settled⟩
  · rw [hloops]
    exact Nat.le_refl 1
  · rw [hloops]
    exact h.draining
  · rw [hloops]
    exact fun _ => List.cons_ne_nil a []
  · rw [hheld]
    exact h.order
  · rw [hheld]
    exact h.all
  · rw [hheld]
    intro e he
    rcases List.mem_append.1 he with he | he
    · exact h.scans e he
    · exact hscan e he
  · rw [hloops, List.filterMap_cons_none hscanning, List.filterMap_nil, List.append_nil]
    exact h.reported

theorem ScanQueue.Holds.start (h : q.Holds [e]) : (q.start e).Kept := by
  have hloops : (q.start e).loops = [.running e] := by
    show q.loops ++ [.running e] = [.running e]
    rw [h.loops, List.nil_append]
  have hasked : (q.start e).asked = [] := ScanQueue.asked_of_loops hloops
  have hmoved : (q.start e).started ++ ([] ++ (q.start e).buffer) =
      q.started ++ ([e] ++ q.buffer) := by
    show q.started ++ [e] ++ ([] ++ q.buffer) = _
    rw [List.append_assoc, List.nil_append]
  refine ⟨?_, ?_, ?_, ?_, ?_, h.numbers, ?_, ?_, h.settled⟩
  · rw [hloops]
    exact Nat.le_refl 1
  · rw [hloops]
    exact h.draining
  · rw [hloops]
    exact fun _ => List.cons_ne_nil _ []
  · rw [hasked, hmoved]
    exact h.order
  · rw [hasked, hmoved]
    exact h.all
  · rw [hasked, List.append_nil]
    exact h.scans
  · show (q.started ++ [e]).filter _ = _
    rw [hloops, List.filter_append, h.reported]
    cases hs : e.isScan <;> simp [Awaiting.scanning, hs] <;> rfl

theorem ScanQueue.Holds.refuse (h : q.Holds [e]) (hscan : e.isScan = true) :
    ({ q with refused := q.refused ++ [e] } : ScanQueue).Holds [] :=
  { h with
    order := by
      refine List.Sublist.trans ?_ h.order
      exact List.Sublist.append_left (List.sublist_append_right [e] _) _
    all := by
      refine List.Perm.trans (List.perm_iff_count.2 fun a => ?_) h.all
      simp only [List.count_append, List.count_nil]
      omega
    scans := by
      intro x hx
      rcases List.mem_append.1 hx with hx | hx
      · rcases List.mem_append.1 hx with hx | hx
        · exact h.scans x (List.mem_append_left _ hx)
        · exact List.mem_singleton.1 hx ▸ hscan
      · exact h.scans x (List.mem_append_right _ hx) }

theorem ScanQueue.Holds.advance (h : q.Holds []) : q.advance.Kept := by
  unfold ScanQueue.advance
  cases hbuffer : q.buffer with
  | nil => exact h.finish hbuffer
  | cons e buffer =>
    have htaken : ({ q with buffer := buffer } : ScanQueue).Holds [e] :=
      ⟨h.loops, h.draining, by simpa [hbuffer] using h.order, by simpa [hbuffer] using h.all,
        h.numbers, h.scans, h.reported, h.settled⟩
    by_cases hscan : e.isScan = true
    · simp only [hscan, if_true]
      exact htaken.await rfl (List.forall_mem_singleton.2 hscan) rfl
    · simp only [hscan]
      exact htaken.start

/-! ## Events -/

theorem ScanQueue.Kept.takes (h : q.Kept) (hloops : q.loops = [a]) (hscanning : a.scanning = none) :
    ({ q with loops := [] } : ScanQueue).Holds a.asked.toList := by
  have hasked := ScanQueue.asked_of_loops hloops
  refine ⟨rfl, ?_, ?_, ?_, h.numbers, ?_, ?_, h.settled⟩
  · show q.draining = true
    rw [h.draining, hloops]
    rfl
  · exact hasked ▸ h.order
  · exact hasked ▸ h.all
  · exact fun e he => h.scans e (List.mem_append_left _ he)
  · have := h.reported
    rwa [hloops, List.filterMap_cons_none hscanning, List.filterMap_nil, List.append_nil] at this

theorem ScanQueue.Kept.reports (h : q.Kept) (hloops : q.loops = [.running e])
    (hscan : e.isScan = true) :
    ({ q with loops := [], reported := q.reported ++ [e] } : ScanQueue).Holds [] := by
  have hasked : q.asked = [] := ScanQueue.asked_of_loops hloops
  have hscanning : Awaiting.scanning (.running e) = some e := if_pos hscan
  refine ⟨rfl, ?_, ?_, ?_, h.numbers, ?_, ?_, h.settled⟩
  · show q.draining = true
    rw [h.draining, hloops]
    rfl
  · exact hasked ▸ h.order
  · exact hasked ▸ h.all
  · exact fun e he => h.scans e (List.mem_append_left _ he)
  · have := h.reported
    rwa [hloops, List.filterMap_cons_some hscanning, List.filterMap_nil] at this

variable {reply : Answer} {q' : ScanQueue}

theorem ScanQueue.Kept.go (h : q.Kept)
    (hloops : q.loops = [a]) (hcalm : reply = .threw → a.MayThrow q.buffer)
    (h' : ({ q with loops := [] } : ScanQueue).answer a reply = some q') : q'.Kept := by
  cases a with
  | shouldProcess e =>
    have hheld : ({ q with loops := [] } : ScanQueue).Holds [e] := h.takes hloops rfl
    have hasked : e ∈ q.asked := ScanQueue.asked_of_loops hloops ▸ List.mem_singleton_self e
    have hscan : e.isScan = true := h.scans e (List.mem_append_right _ hasked)
    cases reply with
    | admitted verdict =>
      cases verdict with
      | true => exact Option.some.inj h' ▸ hheld.start
      | false => exact Option.some.inj h' ▸ (hheld.refuse hscan).advance
    | threw => exact (hcalm rfl).elim
    | fulfilled => cases h'
    | rejected => cases h'
    | returned => cases h'
  | running e =>
    by_cases hscan : e.isScan = true
    · have hheld := h.reports hloops hscan
      cases reply with
      | fulfilled =>
        simp only [ScanQueue.answer, hscan, if_true] at h'
        exact Option.some.inj h' ▸ hheld.await rfl nofun rfl
      | rejected =>
        simp only [ScanQueue.answer, hscan, if_true] at h'
        exact Option.some.inj h' ▸ hheld.await rfl nofun rfl
      | admitted verdict => cases verdict <;> cases h'
      | returned => cases h'
      | threw => cases h'
    · have hheld : ({ q with loops := [] } : ScanQueue).Holds [] := h.takes hloops (if_neg hscan)
      cases reply with
      | fulfilled =>
        simp only [ScanQueue.answer, hscan] at h'
        exact Option.some.inj h' ▸ hheld.advance
      | rejected =>
        simp only [ScanQueue.answer, hscan] at h'
        exact Option.some.inj h' ▸ hheld.await rfl nofun rfl
      | admitted verdict => cases verdict <;> cases h'
      | returned => cases h'
      | threw => cases h'
  | callback c e =>
    have hheld : ({ q with loops := [] } : ScanQueue).Holds [] := h.takes hloops rfl
    cases reply with
    | returned => exact Option.some.inj h' ▸ hheld.advance
    | threw => exact Option.some.inj h' ▸ hheld.finish (hcalm rfl)
    | admitted verdict => cases verdict <;> cases h'
    | fulfilled => cases h'
    | rejected => cases h'

theorem ScanQueue.only_loop {i : ℕ} (hsingle : q.loops.length ≤ 1)
    (ha : q.loops[i]? = some a) : i = 0 ∧ q.loops = [a] := by
  have hi := (List.getElem?_eq_some_iff.1 ha).1
  obtain rfl : i = 0 := by omega
  match hq : q.loops with
  | [] => simp [hq] at ha
  | [b] => exact ⟨rfl, by simpa [hq] using ha⟩
  | _ :: _ :: _ => simp [hq] at hsingle

theorem ScanQueue.answered_some {i : ℕ}
    (hsingle : q.loops.length ≤ 1) (h' : q.answered i reply = some q') :
    ∃ a, q.loops[i]? = some a ∧ q.loops = [a] ∧
      ({ q with loops := [] } : ScanQueue).answer a reply = some q' := by
  unfold ScanQueue.answered at h'
  cases ha : q.loops[i]? with
  | none => simp [ha] at h'
  | some a =>
    obtain ⟨rfl, hloops⟩ := q.only_loop hsingle ha
    have herase : q.loops.eraseIdx 0 = [] := by rw [hloops]; rfl
    simp only [ha, herase, Option.bind_eq_bind, Option.bind_some] at h'
    exact ⟨a, rfl, hloops, h'⟩

theorem ScanQueue.Kept.answered {i : ℕ} (h : q.Kept)
    (hcalm : (QueueEvent.answer i reply).Calm q) (h' : q.answered i reply = some q') : q'.Kept := by
  obtain ⟨a, ha, hloops, h'⟩ := q.answered_some h.single h'
  refine h.go hloops (fun hthrew => ?_) h'
  subst hthrew
  exact hcalm a ha

theorem ScanQueue.Kept.enqueue (h : q.Kept) (entry : QueueEntry) : (q.enqueue entry).Kept := by
  unfold ScanQueue.enqueue
  by_cases haccepting : q.accepting = true
  · rw [if_pos haccepting]
    have horder : (q.started ++ (q.asked ++ (q.buffer ++ [q.numbered entry]))).Sublist
        (q.accepted ++ [q.numbered entry]) := by
      have := h.order.append (List.Sublist.refl [q.numbered entry])
      simpa only [List.append_assoc] using this
    have hall : (q.started ++ (q.asked ++ (q.buffer ++ [q.numbered entry])) ++
        (q.refused ++ q.discarded)).Perm (q.accepted ++ [q.numbered entry]) := by
      refine List.Perm.trans (List.perm_iff_count.2 fun a => ?_) (h.all.append_right _)
      simp only [List.count_append]
      omega
    have hnumbers : (q.accepted ++ [q.numbered entry]).map (·.number) =
        List.range (q.accepted ++ [q.numbered entry]).length := by
      rw [List.map_append, h.numbers, List.length_append, List.length_singleton, List.range_succ]
      rfl
    unfold ScanQueue.drain
    by_cases hdraining : q.draining = true
    · rw [if_pos hdraining]
      refine ⟨h.single, h.draining, fun _ hnil => ?_, horder, hall, hnumbers, h.scans, h.reported,
        h.settled⟩
      have hnone : q.loops = [] := hnil
      have := h.draining
      rw [hdraining, hnone] at this
      cases this
    · rw [if_neg hdraining]
      have hloops : q.loops = [] := by
        have := h.draining
        rw [Bool.not_eq_true] at hdraining
        rw [hdraining] at this
        exact List.isEmpty_iff.1 (by simpa using this.symm)
      have hasked : q.asked = [] := by rw [ScanQueue.asked, hloops, List.filterMap_nil]
      have hreported := h.reported
      rw [hloops, List.filterMap_nil, List.append_nil] at hreported
      rw [hasked] at horder hall
      refine ScanQueue.Holds.advance ⟨hloops, rfl, horder, hall, hnumbers, fun e he => ?_,
        hreported, h.settled⟩
      exact h.scans e (List.mem_append_left _ he)
  · rw [if_neg haccepting]
    exact h

theorem ScanQueue.Kept.discardBufferedScans (h : q.Kept) : q.discardBufferedScans.Kept :=
  { h with
    active := fun hne => h.active fun hnil => hne (by
      show q.buffer.filter _ = []
      rw [hnil, List.filter_nil])
    order := by
      refine List.Sublist.trans ?_ h.order
      exact List.Sublist.append_left (List.Sublist.append_left List.filter_sublist _) _
    all := by
      refine List.Perm.trans (List.perm_iff_count.2 fun a => ?_) h.all
      have hsplit := (List.filter_append_perm (·.isScan) q.buffer).count_eq a
      show List.count a (q.started ++ (q.asked ++ q.buffer.filter fun e => !e.isScan) ++
        (q.refused ++ (q.discarded ++ q.buffer.filter (·.isScan)))) = _
      simp only [List.count_append] at hsplit ⊢
      omega
    scans := by
      intro e he
      have he : e ∈ q.refused ++ (q.discarded ++ q.buffer.filter (·.isScan)) ++ q.asked := he
      simp only [List.mem_append, List.mem_filter] at he
      have hold := h.scans e
      simp only [List.mem_append] at hold
      rcases he with (he | he | he) | he
      · exact hold (.inl (.inl he))
      · exact hold (.inl (.inr he))
      · exact he.2
      · exact hold (.inr he) }

theorem ScanQueue.Kept.idle (h : q.Kept) : q.idle.Kept := by
  unfold ScanQueue.idle
  by_cases hquiet : q.draining = false ∧ q.buffer = []
  · rw [if_pos hquiet]
    refine { h with settled := fun r hr => ?_ }
    rcases List.mem_append.1 hr with hr | hr
    · exact h.settled r hr
    · obtain ⟨p, -, rfl⟩ := List.mem_map.1 hr
      have hloops : q.loops = [] := by
        have := h.draining
        rw [hquiet.1] at this
        exact List.isEmpty_iff.1 (by simpa using this.symm)
      show q.loops.map (·.entry) ++ q.buffer = []
      rw [hloops, hquiet.2]
      rfl
  · rw [if_neg hquiet]
    exact { h with }

theorem ScanQueue.Kept.accepting (h : q.Kept) (accepting : Bool) :
    ({ q with accepting := accepting } : ScanQueue).Kept :=
  { h with }

theorem QueueEvent.after_kept {event : QueueEvent} (h : q.Kept) (hcalm : event.Calm q) :
    (event.after q).Kept := by
  cases event with
  | enqueue entry => exact h.enqueue entry
  | discardBufferedScans => exact h.discardBufferedScans
  | «open» => exact h.accepting true
  | close => exact (h.accepting false).idle
  | idle => exact h.idle
  | answer i reply =>
    show ((q.answered i reply).getD q).Kept
    cases h' : q.answered i reply with
    | none => exact h
    | some q' => exact h.answered hcalm h'

/-! ## An end of the loop -/

theorem ScanQueue.advance_remaining (hloops : q.loops = []) :
    q.advance.loops.length ≤ 1 ∧ q.advance.remaining ≤ 3 * q.buffer.length := by
  unfold ScanQueue.advance
  cases hbuffer : q.buffer with
  | nil =>
    have hends : q.finish.loops = [] := hloops
    have hempty : q.finish.buffer = [] := hbuffer
    simp [ScanQueue.remaining, hends, hempty]
  | cons e buffer =>
    by_cases hscan : e.isScan = true
    · simp [hscan, ScanQueue.await, ScanQueue.remaining, hloops, Awaiting.rank]
      omega
    · simp [hscan, ScanQueue.start, ScanQueue.await, ScanQueue.remaining, hloops, Awaiting.rank]
      omega

/-- The loop goes on to a later wait of its entry, to its test, or to its end. -/
theorem ScanQueue.answer_cases
    (h' : q.answer a reply = some q') : ∃ r : ScanQueue, r.loops = q.loops ∧ r.buffer = q.buffer ∧
      ((∃ w : Awaiting, w.rank < a.rank ∧ q' = r.await w) ∨ q' = r.advance ∨ q' = r.finish) := by
  unfold ScanQueue.answer at h'
  split at h'
  · next e => exact ⟨{ q with started := q.started ++ [e] }, rfl, rfl,
      .inl ⟨.running e, Nat.lt_succ_self 2, (Option.some.inj h').symm⟩⟩
  · next e => exact ⟨{ q with refused := q.refused ++ [e] }, rfl, rfl,
      .inr (.inl (Option.some.inj h').symm)⟩
  · exact ⟨q, rfl, rfl, .inr (.inr (Option.some.inj h').symm)⟩
  · next e =>
    split_ifs at h'
    · exact ⟨{ q with reported := q.reported ++ [e] }, rfl, rfl,
        .inl ⟨.callback .onOutcome e, Nat.lt_succ_self 1, (Option.some.inj h').symm⟩⟩
    · exact ⟨q, rfl, rfl, .inr (.inl (Option.some.inj h').symm)⟩
  · next e =>
    split_ifs at h'
    · exact ⟨{ q with reported := q.reported ++ [e] }, rfl, rfl,
        .inl ⟨.callback .onError e, Nat.lt_succ_self 1, (Option.some.inj h').symm⟩⟩
    · exact ⟨q, rfl, rfl,
        .inl ⟨.callback .onJobError e, Nat.lt_succ_self 1, (Option.some.inj h').symm⟩⟩
  · exact ⟨q, rfl, rfl, .inr (.inl (Option.some.inj h').symm)⟩
  · exact ⟨q, rfl, rfl, .inr (.inr (Option.some.inj h').symm)⟩
  · cases h'

/-- Each answer brings the loop nearer to its end. -/
theorem ScanQueue.answered_remaining {i : ℕ}
    (hsingle : q.loops.length ≤ 1) (h' : q.answered i reply = some q') :
    q'.loops.length ≤ 1 ∧ q'.remaining < q.remaining := by
  obtain ⟨a, -, hloops, h'⟩ := q.answered_some hsingle h'
  have hrank : q.remaining = 3 * q.buffer.length + a.rank := by simp [ScanQueue.remaining, hloops]
  have hpos : 0 < a.rank := by cases a <;> exact Nat.succ_pos _
  obtain ⟨r, hr, hbuffer, ⟨w, hw, rfl⟩ | rfl | rfl⟩ := ScanQueue.answer_cases h'
  · simp [ScanQueue.await, ScanQueue.remaining, hr, hloops, hbuffer]
    omega
  · obtain ⟨h1, h2⟩ := r.advance_remaining hr
    refine ⟨h1, ?_⟩
    have hsame : r.buffer = q.buffer := hbuffer
    rw [hsame] at h2
    omega
  · have hloops' : r.finish.loops = [] := hr
    have hbuffer' : r.finish.buffer = q.buffer := hbuffer
    simp [ScanQueue.remaining, hloops', hbuffer', hloops, hpos]

theorem ScanQueue.takes_length {replies : List (ℕ × Answer)} (hsingle : q.loops.length ≤ 1)
    (h : Takes q replies) : replies.length ≤ q.remaining := by
  induction replies generalizing q with
  | nil => exact Nat.zero_le _
  | cons reply replies ih =>
    obtain ⟨q', h', hrest⟩ := h
    obtain ⟨hsingle', hlt⟩ := q.answered_remaining hsingle h'
    exact Nat.lt_of_le_of_lt (ih hsingle' hrest) hlt

/-! ## Sound queues -/

theorem ScanQueue.Kept.sound (h : q.Kept) : q.Sound :=
  { h with
    inOrder := (List.sublist_append_left _ _).trans h.order
    prompt := by
      intro replies hreplies
      have hlength := q.takes_length h.single hreplies
      have hranks : (q.loops.map Awaiting.rank).sum ≤ 3 := by
        match hq : q.loops, h.single with
        | [], _ => exact Nat.zero_le 3
        | [a], _ => cases a <;> simp [Awaiting.rank]
      unfold ScanQueue.remaining at hlength
      omega
    accounted := by
      intro e he
      have hmem := h.all.mem_iff.2 he
      simp only [List.mem_append] at hmem
      tauto
    scans := fun e he => h.scans e (List.mem_append_left _ he)
    reportedOnce := h.reported }

theorem ScanQueue.Kept.nodup (h : q.Kept) :
    (q.started ++ (q.asked ++ q.buffer) ++ (q.refused ++ q.discarded)).Nodup := by
  refine h.all.nodup_iff.2 (List.Nodup.of_map (·.number) ?_)
  rw [h.numbers]
  exact List.nodup_range

/-- After a throw that is not calm, an entry is lost or waits without a loop. -/
theorem ScanQueue.Kept.unsound {event : QueueEvent} (h : q.Kept) (hcalm : ¬event.Calm q) :
    ¬(event.after q).Sound := by
  cases event with
  | answer i reply =>
    cases reply with
    | threw =>
      simp only [QueueEvent.Calm, not_forall] at hcalm
      obtain ⟨a, ha, hthrow⟩ := hcalm
      obtain ⟨rfl, hloops⟩ := q.only_loop h.single ha
      have hafter : ∀ q', ({ q with loops := [] } : ScanQueue).answer a .threw = some q' →
          (QueueEvent.answer 0 .threw).after q = q' := by
        intro q' h'
        have herase : q.loops.eraseIdx 0 = [] := by rw [hloops]; rfl
        have hanswered : q.answered 0 .threw = some q' := by
          unfold ScanQueue.answered
          simp only [Option.mem_def.1 ha, herase, Option.bind_eq_bind, Option.bind_some]
          exact h'
        show (q.answered 0 .threw).getD q = q'
        rw [hanswered, Option.getD_some]
      intro hsound
      cases a with
      | running e => exact hthrow trivial
      | callback c e =>
        rw [hafter _ rfl] at hsound
        exact hsound.active hthrow rfl
      | shouldProcess e =>
        rw [hafter _ rfl] at hsound
        have hasked : e ∈ q.asked := ScanQueue.asked_of_loops hloops ▸ List.mem_singleton_self e
        have haccepted : e ∈ q.accepted :=
          h.all.mem_iff.1 (by simp [hasked])
        have hnodup := h.nodup
        have hone := List.nodup_iff_count_le_one.1 hnodup e
        have hcount : 0 < q.asked.count e := List.count_pos_iff.2 hasked
        simp only [List.count_append] at hone
        have hnot : ∀ l : List Accepted, l.count e = 0 → e ∉ l := fun l => List.count_eq_zero.1
        rcases hsound.accounted e haccepted with hin | hin | hin | hin | hin
        · exact hnot q.started (by omega) hin
        · exact hnot q.refused (by omega) hin
        · exact hnot q.discarded (by omega) hin
        · exact hnot q.buffer (by omega) hin
        · exact absurd hin List.not_mem_nil
    | _ => exact absurd trivial hcalm
  | _ => exact absurd trivial hcalm

theorem createScanQueue_kept : createScanQueue.Kept :=
  ⟨Nat.zero_le 1, rfl, fun h => absurd rfl h, List.Sublist.refl _, List.Perm.refl _, rfl, nofun,
    rfl, nofun⟩

theorem ScanQueue.Kept.run {events : List QueueEvent} (h : q.Kept)
    (hcalm : ∀ n (event : QueueEvent), events[n]? = some event →
      event.Calm ((events.take n).foldl QueueEvent.after q)) :
    (events.foldl QueueEvent.after q).Kept := by
  induction events generalizing q with
  | nil => exact h
  | cons event events ih =>
    refine ih (QueueEvent.after_kept h (hcalm 0 event rfl)) fun n e he => ?_
    exact hcalm (n + 1) e he

end

/-- **First in, first out, and never stalled**, in every state of a run, just when the run is calm:
`shouldProcess` does not throw, and the other callbacks throw with nothing buffered. -/
theorem queue_sound_iff (events : List QueueEvent) :
    (∀ n, (runQueue (events.take n)).Sound) ↔ ∀ n (event : QueueEvent), events[n]? = some event →
      event.Calm (runQueue (events.take n)) := by
  have hkept : ∀ n, (∀ m (event : QueueEvent), m < n → events[m]? = some event →
      event.Calm (runQueue (events.take m))) → (runQueue (events.take n)).Kept := by
    intro n hcalm
    refine createScanQueue_kept.run fun m event hm => ?_
    rw [List.getElem?_take] at hm
    split_ifs at hm with hlt
    rw [List.take_take, Nat.min_eq_left (Nat.le_of_lt hlt)]
    exact hcalm m event hlt hm
  constructor
  · intro hsound n
    induction n using Nat.strongRec with
    | _ n ih =>
      intro event hevent
      by_contra hcalm
      have hn := hkept n fun m e hm he => ih m hm e he
      refine hn.unsound hcalm ?_
      have hnext := hsound (n + 1)
      rwa [List.take_add_one, hevent, Option.toList_some, runQueue, List.foldl_append] at hnext
  · exact fun hcalm n => (hkept n fun m event _ hm => hcalm m event hm).sound

/-! ## A scan left behind -/

def Sample.outcomeThrew : List QueueEvent :=
  [.enqueue (.scan "first"), .enqueue (.scan "second"), .answer 0 (.admitted true),
    .answer 0 .fulfilled, .answer 0 .threw]

/-- The callback throws, and nothing takes the second scan off the buffer. -/
theorem scan_left_behind : ¬∀ events : List QueueEvent, (runQueue events).Sound := by
  intro h
  have hbuffer : (runQueue Sample.outcomeThrew).buffer ≠ [] := by decide
  exact (h Sample.outcomeThrew).active hbuffer (by decide)

end Markiro.Station
