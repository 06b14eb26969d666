import Markiro.Lib.Merge

/-!
# Scans and corrections on their way to the server

The drain of `lib/sync.ts` reads a page of the scans queued and a page of the exceptions, sends the
part of one of them that comes first, and takes it off its queue when the server has it. The two
pages are read one after the other, and rows come in meanwhile: where the exceptions of a drain that
has read no scan come before all the scans, the requests follow the merge of the two queues
(`drain_in_order`).
-/

namespace Markiro.Station

/-! ## The queues -/

/-- A row of `outbox` or of `box_exceptions_mirror`: `time` is what `Date.parse` reads of its
instant, `none` where it reads nothing. -/
structure Queued (γ : Type) where
  id : ℕ
  time : Option ℤ
  record : γ
  deriving DecidableEq

def Queued.instant {γ : Type} (r : Queued γ) : ℤ := r.time.getD 0

/-- A table, and every row ever queued in it. -/
structure Queue (γ : Type) where
  rows : List (Queued γ)
  queued : List (Queued γ)
  deriving DecidableEq

def Queue.append {γ : Type} (q : Queue γ) (r : Queued γ) : Queue γ :=
  ⟨q.rows ++ [r], q.queued ++ [r]⟩

/-- `DELETE … WHERE id <= ?` with the last id sent, where any row was. -/
def Queue.ackThrough {γ : Type} (q : Queue γ) (sent : List (Queued γ)) : Queue γ :=
  match sent.getLast? with
  | none => q
  | some last => { q with rows := q.rows.filter fun r => last.id < r.id }

def BATCH_SIZE : ℕ := 100

/-- The oldest rows of a queue that one request may carry. -/
def Queue.page {γ : Type} (q : Queue γ) : List (Queued γ) := q.rows.take BATCH_SIZE

/-! ## The chronological prefix -/

/-- What the server is sent; the other channels of a request are left out. -/
structure Request (α β : Type) where
  items : List (Queued α)
  exceptions : List (Queued β)
  deriving DecidableEq

section

variable {α β : Type}

def Request.records (r : Request α β) : List (Queued α ⊕ Queued β) :=
  r.items.map .inl ++ r.exceptions.map .inr

/-- The contiguous prefix that a condition holds of. -/
def takePrefix {γ : Type} (rows : List γ) (keep : γ → Bool) : List γ := rows.takeWhile keep

/-- The rows that one request carries, of those that were read. -/
def select : List (Queued α) → List (Queued β) → Request α β
  | [], exceptions => ⟨[], exceptions⟩
  | item :: batch, [] => ⟨item :: batch, []⟩
  | item :: batch, exception :: exceptions =>
    match item.time, exception.time with
    | none, _ => ⟨item :: batch, []⟩
    | some _, none => ⟨[], exception :: exceptions⟩
    | some firstScanAt, some firstExceptionAt =>
      if firstScanAt ≤ firstExceptionAt then
        ⟨takePrefix (item :: batch) (·.time.any (· ≤ firstExceptionAt)), []⟩
      else ⟨[], takePrefix (exception :: exceptions) (·.time.any (· < firstScanAt))⟩

/-! ## The drain -/

/-- Where the drain stands: between two rounds, after the read of the scans, or with a request on
its way. -/
inductive Phase (α β : Type) where
  | idle
  | scansRead (batch : List (Queued α))
  | sending (request : Request α β)
  deriving DecidableEq

structure Drain (α β : Type) where
  outbox : Queue α
  exceptions : Queue β
  phase : Phase α β
  posted : List (Request α β)
  deriving DecidableEq

def Drain.send (s : Drain α β) (request : Request α β) : Drain α β :=
  { s with phase := .sending request, posted := s.posted ++ [request] }

/-- A row is queued, or the drain takes its next step. -/
inductive DrainAct (α β : Type) where
  | scan (row : Queued α)
  | exception (row : Queued β)
  | readBatch
  | readExceptions
  | acknowledge

/-- An act out of its phase does nothing. -/
def DrainAct.after (s : Drain α β) : DrainAct α β → Drain α β
  | .scan row => { s with outbox := s.outbox.append row }
  | .exception row => { s with exceptions := s.exceptions.append row }
  | .readBatch =>
    match s.phase with
    | .idle => { s with phase := .scansRead s.outbox.page }
    | _ => s
  | .readExceptions =>
    match s.phase with
    | .scansRead batch =>
      let request := select batch s.exceptions.page
      if request.records = [] then { s with phase := .idle } else s.send request
    | _ => s
  | .acknowledge =>
    match s.phase with
    | .sending request =>
      { s with
        outbox := s.outbox.ackThrough request.items
        exceptions := s.exceptions.ackThrough request.exceptions
        phase := .idle }
    | _ => s

/-- The next row of a queue: its id is new, and its instant not before those already queued. -/
structure Drain.Admits {γ : Type} (s : Drain α β) (q : Queue γ) (row : Queued γ) : Prop where
  id : ∀ r ∈ q.queued, r.id < row.id
  readable : row.time ≠ none
  scans : ∀ r ∈ s.outbox.queued, r.instant ≤ row.instant
  exceptions : ∀ r ∈ s.exceptions.queued, r.instant ≤ row.instant

def DrainAct.Admitted (s : Drain α β) : DrainAct α β → Prop
  | .scan row => s.Admits s.outbox row
  | .exception row => s.Admits s.exceptions row
  | _ => True

/-- Exceptions that are read without a scan come before the scans that wait by then, and those that
were sent before the scans that follow. -/
def DrainAct.Orderly (s : Drain α β) : DrainAct α β → Prop
  | .scan row => ∀ r ∈ s.posted, ∀ x ∈ r.exceptions, x.instant < row.instant
  | .readExceptions => s.phase = .scansRead [] →
      ∀ x ∈ s.exceptions.page, ∀ r ∈ s.outbox.rows, x.instant < r.instant
  | _ => True

/-- A condition on the acts of a run, each in the state it meets. -/
def Along (P : Drain α β → DrainAct α β → Prop) : Drain α β → List (DrainAct α β) → Prop
  | _, [] => True
  | s, a :: acts => P s a ∧ Along P (a.after s) acts

def drained (s : Drain α β) (acts : List (DrainAct α β)) : Drain α β := acts.foldl DrainAct.after s

structure Queue.Sorted {γ : Type} (rows : List (Queued γ)) : Prop where
  ids : rows.Pairwise (·.id < ·.id)
  readable : ∀ r ∈ rows, r.time ≠ none
  times : rows.Pairwise (·.instant ≤ ·.instant)

def Drain.start (scans : List (Queued α)) (exceptions : List (Queued β)) : Drain α β :=
  ⟨⟨scans, scans⟩, ⟨exceptions, exceptions⟩, .idle, []⟩

/-! ## The order of the requests -/

def timeline (scans : List (Queued α)) (exceptions : List (Queued β)) :
    List (Queued α ⊕ Queued β) :=
  Merge.merge (fun x y => x.instant ≤ y.instant) scans exceptions

theorem timeline_append {scans scans' : List (Queued α)} {exceptions exceptions' : List (Queued β)}
    (hl : ∀ r ∈ scans', ∀ x ∈ exceptions, x.instant < r.instant)
    (hr : ∀ r ∈ scans, ∀ x ∈ exceptions', r.instant ≤ x.instant) :
    timeline (scans ++ scans') (exceptions ++ exceptions') =
      timeline scans exceptions ++ timeline scans' exceptions' :=
  Merge.merge_append (fun r hr x hx => decide_eq_false (not_le_of_gt (hl r hr x hx)))
    fun r hr' x hx => decide_eq_true (hr r hr' x hx)

theorem timeline_scans {scans scans' : List (Queued α)} {exceptions : List (Queued β)}
    (hl : ∀ r ∈ scans', ∀ x ∈ exceptions, x.instant < r.instant) :
    timeline (scans ++ scans') exceptions = timeline scans exceptions ++ scans'.map .inl := by
  have h := timeline_append hl fun r (_ : r ∈ scans) x hx => absurd hx List.not_mem_nil
  rw [List.append_nil] at h
  exact h.trans (congrArg _ Merge.merge_nil_right)

theorem timeline_exceptions {scans : List (Queued α)} {exceptions exceptions' : List (Queued β)}
    (hr : ∀ r ∈ scans, ∀ x ∈ exceptions', r.instant ≤ x.instant) :
    timeline scans (exceptions ++ exceptions') =
      timeline scans exceptions ++ exceptions'.map .inr := by
  have h := timeline_append (fun r hr' x (_ : x ∈ exceptions) => absurd hr' List.not_mem_nil) hr
  rw [List.append_nil] at h
  exact h.trans (congrArg _ Merge.merge_nil_left)

/-- What the requests should be. -/
structure Drain.InOrder (s : Drain α β) : Prop where
  alone : ∀ r ∈ s.posted, r.items = [] ∨ r.exceptions = []
  prefixes : ∀ r, s.phase = .sending r →
    r.items <+: s.outbox.rows ∧ r.exceptions <+: s.exceptions.rows
  merged : s.posted.flatMap Request.records <+: timeline s.outbox.queued s.exceptions.queued
  complete : s.phase = .idle → s.outbox.rows = [] → s.exceptions.rows = [] →
    s.posted.flatMap Request.records = timeline s.outbox.queued s.exceptions.queued

/-! ## What the drain keeps -/

/-- The request on its way; none carries nothing. -/
def Phase.request : Phase α β → Request α β
  | .sending request => request
  | _ => ⟨[], []⟩

/-- The rows sent, in the order of the requests. -/
def Drain.sentItems (s : Drain α β) : List (Queued α) := s.posted.flatMap Request.items

def Drain.sentExceptions (s : Drain α β) : List (Queued β) :=
  s.posted.flatMap Request.exceptions

theorem Drain.send_sentItems (s : Drain α β) (r : Request α β) :
    (s.send r).sentItems = s.sentItems ++ r.items := by
  simp [Drain.sentItems, Drain.send]

theorem Drain.send_sentExceptions (s : Drain α β) (r : Request α β) :
    (s.send r).sentExceptions = s.sentExceptions ++ r.exceptions := by
  simp [Drain.sentExceptions, Drain.send]

/-- A queue of which `sent` was sent, `unacked` without its acknowledgement; `rest` follows. -/
structure Queue.Holds {γ : Type} (q : Queue γ) (sent unacked rest : List (Queued γ)) : Prop where
  rows : q.rows = unacked ++ rest
  queued : q.queued = sent ++ rest
  sorted : Queue.Sorted q.queued
  unacked : unacked <:+ sent

section

variable {γ : Type} {q : Queue γ} {sent unacked rest : List (Queued γ)}

theorem Queue.Holds.append {r : Queued γ} (h : q.Holds sent unacked rest)
    (hid : ∀ x ∈ q.queued, x.id < r.id) (hreadable : r.time ≠ none)
    (htime : ∀ x ∈ q.queued, x.instant ≤ r.instant) :
    (q.append r).Holds sent unacked (rest ++ [r]) where
  rows := by rw [Queue.append, h.rows, List.append_assoc]
  queued := by rw [Queue.append, h.queued, List.append_assoc]
  unacked := h.unacked
  sorted := by
    refine ⟨?_, ?_, ?_⟩
    · exact List.pairwise_append.2 ⟨h.sorted.ids, List.pairwise_singleton _ _, fun a ha b hb =>
        List.mem_singleton.1 hb ▸ hid a ha⟩
    · intro x hx
      rcases List.mem_append.1 hx with hx | hx
      · exact h.sorted.readable x hx
      · exact List.mem_singleton.1 hx ▸ hreadable
    · exact List.pairwise_append.2 ⟨h.sorted.times, List.pairwise_singleton _ _, fun a ha b hb =>
        List.mem_singleton.1 hb ▸ htime a ha⟩

theorem Queue.Holds.ack (h : q.Holds sent unacked rest) :
    (q.ackThrough unacked).Holds sent [] rest := by
  unfold Queue.ackThrough
  cases hlast : unacked.getLast? with
  | none =>
    obtain rfl := List.getLast?_eq_none_iff.1 hlast
    exact h
  | some last =>
    obtain ⟨before, rfl⟩ := List.getLast?_eq_some_iff.1 hlast
    refine ⟨?_, h.queued, h.sorted, List.nil_suffix⟩
    have hids : (before ++ [last] ++ rest).Pairwise (·.id < ·.id) := by
      obtain ⟨sent', rfl⟩ := h.unacked
      have := h.sorted.ids
      rw [h.queued, List.append_assoc] at this
      exact (List.pairwise_append.1 this).2.1
    obtain ⟨hsent, -, hrest⟩ := List.pairwise_append.1 hids
    have hlast : ∀ r ∈ before ++ [last], r.id ≤ last.id := by
      intro r hr
      rcases List.mem_append.1 hr with hr | hr
      · exact Nat.le_of_lt
          ((List.pairwise_append.1 hsent).2.2 r hr last (List.mem_singleton_self _))
      · exact Nat.le_of_eq (congrArg Queued.id (List.mem_singleton.1 hr))
    show q.rows.filter _ = [] ++ rest
    rw [h.rows, List.filter_append, List.filter_eq_nil_iff.2, List.filter_eq_self.2]
    · intro r hr
      exact decide_eq_true (hrest last (by simp) r hr)
    · intro r hr
      have := hlast r hr
      simpa using this

theorem Queue.Holds.post {part : List (Queued γ)} (h : q.Holds sent [] rest)
    {rest' : List (Queued γ)} (hpart : rest = part ++ rest') :
    q.Holds (sent ++ part) part rest' where
  rows := by rw [h.rows, hpart, List.nil_append]
  queued := by rw [h.queued, hpart, List.append_assoc]
  sorted := h.sorted
  unacked := List.suffix_append _ _

theorem Queue.Holds.head_le {r : Queued γ} {tail : List (Queued γ)}
    (h : q.Holds sent unacked (r :: tail)) : ∀ x ∈ r :: tail, r.instant ≤ x.instant := by
  have htimes := h.sorted.times
  rw [h.queued] at htimes
  have := (List.pairwise_append.1 htimes).2.1
  intro x hx
  rcases List.mem_cons.1 hx with rfl | hx
  · exact le_rfl
  · exact List.rel_of_pairwise_cons this hx

end

/-- What holds between two steps of a run: the rows sent are the merge of the parts sent, and what
waits comes after them. -/
structure Drain.Kept (s : Drain α β) (scans : List (Queued α)) (waiting : List (Queued β)) :
    Prop where
  outbox : s.outbox.Holds (s.sentItems) s.phase.request.items scans
  exceptions :
    s.exceptions.Holds (s.sentExceptions) s.phase.request.exceptions waiting
  read : ∀ batch, s.phase = .scansRead batch → batch <+: scans
  alone : ∀ r ∈ s.posted, r.items = [] ∨ r.exceptions = []
  records : s.posted.flatMap Request.records =
    timeline (s.sentItems) (s.sentExceptions)
  scansAfter : ∀ r ∈ scans, ∀ x ∈ s.sentExceptions, x.instant < r.instant
  exceptionsAfter : ∀ x ∈ waiting, ∀ r ∈ s.sentItems, r.instant ≤ x.instant

section

variable {s : Drain α β} {scans : List (Queued α)} {waiting : List (Queued β)}

theorem Drain.Kept.scan {row : Queued α} (h : s.Kept scans waiting)
    (hadmitted : (DrainAct.scan row).Admitted s) (horderly : (DrainAct.scan row).Orderly s) :
    ((DrainAct.scan row).after s).Kept (scans ++ [row]) waiting :=
  { h with
    outbox := h.outbox.append hadmitted.id hadmitted.readable hadmitted.scans
    read := fun batch hb => (h.read batch hb).trans (List.prefix_append _ _)
    scansAfter := by
      intro r hr x hx
      rcases List.mem_append.1 hr with hr | hr
      · exact h.scansAfter r hr x hx
      · obtain ⟨request, hrequest, hx⟩ := List.mem_flatMap.1 hx
        exact List.mem_singleton.1 hr ▸ horderly request hrequest x hx }

theorem Drain.Kept.exception {row : Queued β} (h : s.Kept scans waiting)
    (hadmitted : (DrainAct.exception row).Admitted s) :
    ((DrainAct.exception row).after s).Kept scans (waiting ++ [row]) :=
  { h with
    exceptions := h.exceptions.append hadmitted.id hadmitted.readable hadmitted.exceptions
    exceptionsAfter := by
      intro x hx r hr
      rcases List.mem_append.1 hx with hx | hx
      · exact h.exceptionsAfter x hx r hr
      · refine List.mem_singleton.1 hx ▸ hadmitted.scans r ?_
        rw [h.outbox.queued]
        exact List.mem_append_left _ hr }

theorem Drain.Kept.readBatch (h : s.Kept scans waiting) :
    ((DrainAct.readBatch : DrainAct α β).after s).Kept scans waiting := by
  unfold DrainAct.after
  cases hp : s.phase with
  | idle =>
    have hrows : s.outbox.rows = scans := by
      have := h.outbox.rows
      rwa [hp] at this
    refine ⟨?_, ?_, ?_, h.alone, h.records, h.scansAfter, h.exceptionsAfter⟩
    · have := h.outbox
      rwa [hp] at this
    · have := h.exceptions
      rwa [hp] at this
    · rintro batch ⟨⟩
      rw [Queue.page, hrows]
      exact List.take_prefix _ _
  | scansRead batch => exact h
  | sending request => exact h

/-- What `select` takes: scans no later than the exceptions that wait, or exceptions before the
scans. -/
theorem select_cases {batch : List (Queued α)} {page : List (Queued β)}
    (hbatch : ∀ r ∈ batch, r.time ≠ none) (hpage : ∀ r ∈ page, r.time ≠ none) :
    ((select batch page).exceptions = [] ∧ (select batch page).items <+: batch ∧
      ∀ x ∈ page.head?, ∀ r ∈ (select batch page).items, r.instant ≤ x.instant) ∨
    ((select batch page).items = [] ∧ (select batch page).exceptions <+: page ∧
      ∀ r ∈ batch.head?, ∀ x ∈ (select batch page).exceptions, x.instant < r.instant) := by
  cases batch with
  | nil => exact .inr ⟨rfl, List.prefix_refl _, nofun⟩
  | cons item batch =>
    cases page with
    | nil => exact .inl ⟨rfl, List.prefix_refl _, nofun⟩
    | cons exception page =>
      obtain ⟨t, ht⟩ := Option.ne_none_iff_exists'.1 (hbatch item List.mem_cons_self)
      obtain ⟨u, hu⟩ := Option.ne_none_iff_exists'.1 (hpage exception List.mem_cons_self)
      simp only [select, ht, hu]
      split_ifs with h
      · refine .inl ⟨rfl, List.takeWhile_prefix _, fun x hx r hr => ?_⟩
        obtain rfl : exception = x := Option.some.inj hx
        have hkeep := List.mem_takeWhile_imp hr
        cases hr : r.time <;> simp_all [Queued.instant]
      · refine .inr ⟨rfl, List.takeWhile_prefix _, fun r hr x hx => ?_⟩
        obtain rfl : item = r := Option.some.inj hr
        have hkeep := List.mem_takeWhile_imp hx
        cases hx : x.time <;> simp_all [Queued.instant]

theorem Drain.Kept.sendItems {part scans' : List (Queued α)} (h : s.Kept scans waiting)
    (hidle : s.phase.request = ⟨[], []⟩) (hpart : scans = part ++ scans')
    (hbefore : ∀ x ∈ waiting, ∀ r ∈ part, r.instant ≤ x.instant) :
    (s.send ⟨part, []⟩).Kept scans' waiting := by
  have hexceptions : (s.send ⟨part, []⟩).sentExceptions = s.sentExceptions :=
    (s.send_sentExceptions _).trans (List.append_nil _)
  have hafter : ∀ r ∈ part, ∀ x ∈ s.sentExceptions, x.instant < r.instant :=
    fun r hr => h.scansAfter r (hpart ▸ List.mem_append_left _ hr)
  refine ⟨?_, ?_, nofun, ?_, ?_, ?_, ?_⟩
  · have := h.outbox
    rw [hidle] at this
    exact s.send_sentItems _ ▸ this.post hpart
  · have := h.exceptions
    rw [hidle] at this
    exact hexceptions ▸ this
  · intro r hr
    rcases List.mem_append.1 hr with hr | hr
    · exact h.alone r hr
    · exact .inr (List.mem_singleton.1 hr ▸ rfl)
  · rw [s.send_sentItems, hexceptions, timeline_scans hafter, ← h.records]
    simp [Drain.send, Request.records]
  · exact hexceptions ▸ fun r hr => h.scansAfter r (hpart ▸ List.mem_append_right _ hr)
  · intro x hx r hr
    rw [s.send_sentItems] at hr
    rcases List.mem_append.1 hr with hr | hr
    · exact h.exceptionsAfter x hx r hr
    · exact hbefore x hx r hr

theorem Drain.Kept.sendExceptions {part waiting' : List (Queued β)} (h : s.Kept scans waiting)
    (hidle : s.phase.request = ⟨[], []⟩) (hpart : waiting = part ++ waiting')
    (hbefore : ∀ r ∈ scans, ∀ x ∈ part, x.instant < r.instant) :
    (s.send ⟨[], part⟩).Kept scans waiting' := by
  have hitems : (s.send ⟨[], part⟩).sentItems = s.sentItems :=
    (s.send_sentItems _).trans (List.append_nil _)
  have hafter : ∀ r ∈ s.sentItems, ∀ x ∈ part, r.instant ≤ x.instant :=
    fun r hr x hx => h.exceptionsAfter x (hpart ▸ List.mem_append_left _ hx) r hr
  refine ⟨?_, ?_, nofun, ?_, ?_, ?_, ?_⟩
  · have := h.outbox
    rw [hidle] at this
    exact hitems ▸ this
  · have := h.exceptions
    rw [hidle] at this
    exact s.send_sentExceptions _ ▸ this.post hpart
  · intro r hr
    rcases List.mem_append.1 hr with hr | hr
    · exact h.alone r hr
    · exact .inl (List.mem_singleton.1 hr ▸ rfl)
  · rw [s.send_sentExceptions, hitems, timeline_exceptions hafter, ← h.records]
    simp [Drain.send, Request.records]
  · intro r hr x hx
    rw [s.send_sentExceptions] at hx
    rcases List.mem_append.1 hx with hx | hx
    · exact h.scansAfter r hr x hx
    · exact hbefore r hr x hx
  · exact hitems ▸ fun x hx => h.exceptionsAfter x (hpart ▸ List.mem_append_right _ hx)

theorem Drain.Kept.readExceptions (h : s.Kept scans waiting)
    (horderly : (DrainAct.readExceptions : DrainAct α β).Orderly s) :
    ∃ scans' waiting', ((DrainAct.readExceptions : DrainAct α β).after s).Kept scans' waiting' := by
  unfold DrainAct.after
  cases hp : s.phase with
  | idle => exact ⟨scans, waiting, h⟩
  | sending request => exact ⟨scans, waiting, h⟩
  | scansRead batch =>
    have hidle : s.phase.request = ⟨[], []⟩ := by rw [hp]; rfl
    have hscans : s.outbox.rows = scans := by
      have := h.outbox.rows
      rwa [hidle] at this
    have hwaiting : s.exceptions.rows = waiting := by
      have := h.exceptions.rows
      rwa [hidle] at this
    have hread := h.read batch hp
    have hpage : s.exceptions.page <+: waiting := hwaiting ▸ List.take_prefix _ _
    have hnone : ({ s with phase := .idle } : Drain α β).Kept scans waiting := by
      refine ⟨?_, ?_, nofun, h.alone, h.records, h.scansAfter, h.exceptionsAfter⟩
      · have := h.outbox
        rwa [hidle] at this
      · have := h.exceptions
        rwa [hidle] at this
    have hreadable : ∀ r ∈ batch, r.time ≠ none := fun r hr =>
      h.outbox.sorted.readable r (h.outbox.queued ▸ List.mem_append_right _ (hread.subset hr))
    have hreadable' : ∀ x ∈ s.exceptions.page, x.time ≠ none := fun x hx =>
      h.exceptions.sorted.readable x
        (h.exceptions.queued ▸ List.mem_append_right _ (hpage.subset hx))
    simp only
    split_ifs with hempty
    · exact ⟨scans, waiting, hnone⟩
    rcases select_cases hreadable hreadable' with ⟨he, hprefix, hle⟩ | ⟨hi, hprefix, hlt⟩
    · obtain ⟨scans', hpart⟩ := hprefix.trans hread
      refine ⟨scans', waiting, ?_⟩
      have hsent : select batch s.exceptions.page =
          ⟨(select batch s.exceptions.page).items, []⟩ := by rw [← he]
      rw [hsent]
      refine h.sendItems hidle hpart.symm fun x hx r hr => ?_
      cases waiting with
      | nil => exact absurd hx List.not_mem_nil
      | cons y ys =>
        have hhead : s.exceptions.page.head? = some y := by
          rw [Queue.page, hwaiting]
          rfl
        exact (hle y hhead r hr).trans (h.exceptions.head_le x hx)
    · obtain ⟨waiting', hpart⟩ := hprefix.trans hpage
      refine ⟨scans, waiting', ?_⟩
      have hsent : select batch s.exceptions.page =
          ⟨[], (select batch s.exceptions.page).exceptions⟩ := by rw [← hi]
      rw [hsent]
      refine h.sendExceptions hidle hpart.symm fun r hr x hx => ?_
      cases batch with
      | nil => exact horderly hp x (List.IsPrefix.subset hprefix hx) r (hscans ▸ hr)
      | cons item batch =>
        obtain ⟨rest, rfl⟩ := hread
        exact (hlt item rfl x hx).trans_le (h.outbox.head_le r hr)

theorem Drain.Kept.acknowledge (h : s.Kept scans waiting) :
    ((DrainAct.acknowledge : DrainAct α β).after s).Kept scans waiting := by
  unfold DrainAct.after
  cases hp : s.phase with
  | idle => exact h
  | scansRead batch => exact h
  | sending request =>
    have h1 := h.outbox.ack
    have h2 := h.exceptions.ack
    rw [hp] at h1 h2
    exact ⟨h1, h2, nofun, h.alone, h.records, h.scansAfter, h.exceptionsAfter⟩

theorem Drain.Kept.step {a : DrainAct α β} (h : s.Kept scans waiting) (hadmitted : a.Admitted s)
    (horderly : a.Orderly s) : ∃ scans' waiting', (a.after s).Kept scans' waiting' := by
  cases a with
  | scan row => exact ⟨_, _, h.scan hadmitted horderly⟩
  | exception row => exact ⟨_, _, h.exception hadmitted⟩
  | readBatch => exact ⟨_, _, h.readBatch⟩
  | readExceptions => exact h.readExceptions horderly
  | acknowledge => exact ⟨_, _, h.acknowledge⟩

theorem Drain.Kept.run {acts : List (DrainAct α β)} (h : s.Kept scans waiting)
    (hadmitted : Along DrainAct.Admitted s acts) (horderly : Along DrainAct.Orderly s acts) :
    ∃ scans' waiting', (drained s acts).Kept scans' waiting' := by
  induction acts generalizing s scans waiting with
  | nil => exact ⟨scans, waiting, h⟩
  | cons a acts ih =>
    obtain ⟨scans', waiting', h'⟩ := h.step hadmitted.1 horderly.1
    exact ih h' hadmitted.2 horderly.2

theorem Drain.Kept.inOrder (h : s.Kept scans waiting) : s.InOrder where
  alone := h.alone
  prefixes := by
    intro r hr
    have h1 := h.outbox.rows
    have h2 := h.exceptions.rows
    rw [hr] at h1 h2
    exact ⟨⟨scans, h1.symm⟩, ⟨waiting, h2.symm⟩⟩
  merged := by
    rw [h.records, h.outbox.queued, h.exceptions.queued,
      timeline_append h.scansAfter fun r hr x hx => h.exceptionsAfter x hx r hr]
    exact List.prefix_append _ _
  complete := by
    intro hphase hscans hwaiting
    have h1 := h.outbox.rows
    have h2 := h.exceptions.rows
    rw [hphase, hscans] at h1
    rw [hphase, hwaiting] at h2
    obtain rfl : scans = [] := (List.nil_eq_append_iff.1 h1).2
    obtain rfl : waiting = [] := (List.nil_eq_append_iff.1 h2).2
    rw [h.records, h.outbox.queued, h.exceptions.queued, List.append_nil, List.append_nil]

end

/-- **The requests keep the order of the scans and their corrections**, in every run in which no
exception is sent before a scan that is not later. -/
theorem drain_in_order {scans : List (Queued α)} {exceptions : List (Queued β)}
    (hscans : Queue.Sorted scans) (hexceptions : Queue.Sorted exceptions)
    (acts : List (DrainAct α β))
    (hadmitted : Along DrainAct.Admitted (.start scans exceptions) acts)
    (horderly : Along DrainAct.Orderly (.start scans exceptions) acts) :
    (drained (.start scans exceptions) acts).InOrder := by
  have hnone : timeline ([] : List (Queued α)) ([] : List (Queued β)) = [] := Merge.merge_nil_left
  have hstart : (Drain.start scans exceptions).Kept scans exceptions :=
    ⟨⟨rfl, rfl, hscans, List.nil_suffix⟩, ⟨rfl, rfl, hexceptions, List.nil_suffix⟩, nofun, nofun,
      hnone.symm, nofun, nofun⟩
  obtain ⟨_, _, h⟩ := hstart.run hadmitted horderly
  exact h.inOrder

end

/-! ## An undo before its scan -/

namespace Sample

def scanned : Queued Unit := ⟨1, some 5, ()⟩

def undone : Queued Unit := ⟨1, some 6, ()⟩

/-- One round after another, each with its acknowledgement. -/
def twoRounds : List (DrainAct Unit Unit) :=
  [.readBatch, .readExceptions, .acknowledge, .readBatch, .readExceptions, .acknowledge]

def between : List (DrainAct Unit Unit) :=
  .readBatch :: .scan scanned :: .exception undone :: twoRounds.tail

theorem admitted : Along DrainAct.Admitted (.start [] []) (.scan scanned :: .exception undone ::
    twoRounds) := by
  refine ⟨⟨nofun, nofun, nofun, nofun⟩, ⟨nofun, nofun, ?_, nofun⟩, trivial, trivial, trivial,
    trivial, trivial, trivial, trivial⟩
  decide

end Sample

open Sample

/-- The scan and its undo come in before the round. -/
theorem drain_in_order_two : (drained (.start [] [])
    (.scan scanned :: .exception undone :: twoRounds)).InOrder := by
  refine drain_in_order ⟨.nil, nofun, .nil⟩ ⟨.nil, nofun, .nil⟩ _ admitted ?_
  refine ⟨nofun, trivial, trivial, nofun, trivial, trivial, ?_, trivial, trivial⟩
  intro _ x hx r hr
  exact absurd hr List.not_mem_nil

/-- The exception is read without its scan, and sent before it. -/
theorem undo_before_scan : ¬∀ acts : List (DrainAct Unit Unit),
    Along DrainAct.Admitted (.start [] []) acts → (drained (.start [] []) acts).InOrder := by
  intro h
  have hadmitted : Along DrainAct.Admitted (.start [] []) between := by
    refine ⟨trivial, ⟨nofun, nofun, nofun, nofun⟩, ⟨nofun, nofun, ?_, nofun⟩, trivial, trivial,
      trivial, trivial, trivial, trivial⟩
    decide
  have hmerged := (h between hadmitted).merged
  have hsent : (drained (.start [] []) between).posted.flatMap Request.records =
      [.inr undone, .inl scanned] := by decide
  have htimeline : timeline [scanned] [undone] =
      [.inl scanned, .inr undone] := by
    simp [timeline, Merge.merge, Queued.instant, scanned, undone]
  have hqueued : [.inr undone, .inl scanned] <+:
      timeline [scanned] [undone] := hsent ▸ hmerged
  rw [htimeline] at hqueued
  exact absurd hqueued (by decide)

end Markiro.Station
