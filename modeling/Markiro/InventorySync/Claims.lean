import Markiro.InventorySync.Effects

/-!
# What the claims of a batch write

A claim makes a row for its code, takes the row over from a later winner, or changes nothing
(`ClaimStep`). After all the claims of a batch, the rows that changed are those of the changed codes
and say what the changed codes say (`Claimed`); an outcome says of each claim who has its code then
(`Decided`).
-/

namespace Markiro.InventorySync

open Results

/-! ## Values kept under a key -/

section

variable {α β : Type} [DecidableEq β] {key : α → β} {x y : α} {l : List α}

theorem mem_setKey : y ∈ setKey key x l ↔ y = x ∨ y ∈ l ∧ key y ≠ key x := by
  unfold setKey
  split_ifs with h
  · obtain ⟨z, hz, hzx⟩ := List.any_eq_true.1 h
    rw [List.mem_map]
    constructor
    · rintro ⟨w, hw, rfl⟩
      split_ifs with hwx
      · exact .inl rfl
      · exact .inr ⟨hw, hwx⟩
    · rintro (rfl | ⟨hy, hyx⟩)
      · exact ⟨z, hz, if_pos (of_decide_eq_true hzx)⟩
      · exact ⟨y, hy, if_neg hyx⟩
  · rw [List.mem_append, List.mem_singleton]
    constructor
    · rintro (hy | rfl)
      · refine .inr ⟨hy, fun hyx => h ?_⟩
        exact List.any_eq_true.2 ⟨y, hy, decide_eq_true hyx⟩
      · exact .inl rfl
    · rintro (rfl | ⟨hy, -⟩)
      · exact .inr rfl
      · exact .inl hy

theorem unique_setKey (h : Table.Unique key l) : Table.Unique key (setKey key x l) := by
  unfold setKey
  split_ifs with hany
  · rw [Table.Unique, List.map_map, show key ∘ (fun y => if key y = key x then x else y) = key from ?_]
    · exact h
    · funext y
      rw [Function.comp_apply]
      split_ifs with hy
      · exact hy.symm
      · rfl
  · refine h.append fun y hy hyx => hany ?_
    exact List.any_eq_true.2 ⟨y, hy, decide_eq_true hyx⟩

end

/-! ## One claim -/

/-- The rows after a new winner took over the row of its code. -/
def displacedRows (task : Task) (env : Env) (D : Uuid) (e : Event) (g : ClaimTarget)
    (current : CodeResult) (scannedAt : Stamp) (r : Rows) : Rows :=
  let r1 := if task.mode = .repack ∧ current.observedProductionDate ≠ e.activeProductionDate then
      retired env.now current.id r
    else r
  { r1 with
    codeResults := Table.update (·.codeHash = g.codeHash) (·.wonBy g env D e scannedAt) r.codeResults
    claimOutcomes := Table.update
      (fun c => c.sourceEventId = current.firstAcceptedEventId ∧ c.codeHash = g.codeHash)
      (·.lostTo D e scannedAt) r.claimOutcomes }

inductive ClaimStep (task : Task) (env : Env) (D : Uuid) (e : Event) (g : ClaimTarget)
    (s : Claiming) : Claiming → Prop where
  | fresh (scannedAt : Stamp) (t : Tables) (hms : scannedAt.ms = e.scannedAt.ms)
      (hnew : ∀ r ∈ s.tables.codeResults, r.codeHash ≠ g.codeHash)
      (hrows : t.toRows = { s.tables.toRows with
        codeResults := s.tables.codeResults ++ [g.newResult env D e scannedAt] }) :
      ClaimStep task env D e g s
        ⟨t, setKey (·.target.codeHash) ⟨g, e⟩ s.changed, s.displacedEvents⟩
  | displaced (current : CodeResult) (scannedAt : Stamp) (t : Tables)
      (hcurrent : current ∈ s.tables.codeResults) (hhash : current.codeHash = g.codeHash)
      (hfirst : winnerPrecedes ⟨g.codeHash, e.eventId, D, e.scannedAt⟩ current.asWinner = true)
      (hms : scannedAt.ms = e.scannedAt.ms)
      (hrows : t.toRows = displacedRows task env D e g current scannedAt s.tables.toRows) :
      ClaimStep task env D e g s
        ⟨t, setKey (·.target.codeHash) ⟨g, e⟩ s.changed,
          setKey id current.firstAcceptedEventId s.displacedEvents⟩
  | kept (current : CodeResult) (hcurrent : current ∈ s.tables.codeResults)
      (hhash : current.codeHash = g.codeHash)
      (hfirst : winnerPrecedes ⟨g.codeHash, e.eventId, D, e.scannedAt⟩ current.asWinner = false) :
      ClaimStep task env D e g s s

section

variable {task : Task} {env : Env} {D : Uuid} {e : Event} {g : ClaimTarget} {s s' : Claiming}

theorem displace_ok {current : CodeResult} {t t' : Tables}
    (h : displace task env D e g current t = .ok t') :
    ∃ scannedAt : Stamp, scannedAt.ms = e.scannedAt.ms ∧
      t'.toRows = displacedRows task env D e g current scannedAt t.toRows := by
  unfold displace at h
  obtain ⟨scannedAt, hcol, h⟩ := bind_eq_ok.1 h
  obtain ⟨t1, h1, h⟩ := bind_eq_ok.1 h
  obtain ⟨t2, h2, h⟩ := bind_eq_ok.1 h
  refine ⟨scannedAt, column_ok hcol, ?_⟩
  rw [Tables.change_ok.1 h, Tables.change_ok.1 h2, displacedRows]
  split_ifs at h1 with hdates
  · rw [retire_ok h1, if_pos hdates]
    rfl
  · obtain rfl := Except.ok.inj h1
    rw [if_neg hdates]

theorem claim_ok (h : claim task env D e s g = .ok s') : ClaimStep task env D e g s s' := by
  unfold claim at h
  cases hfind : s.tables.codeResults.find? (·.codeHash = g.codeHash) with
  | none =>
    simp only [hfind] at h
    obtain ⟨scannedAt, hcol, h⟩ := bind_eq_ok.1 h
    obtain ⟨t, ht, h⟩ := bind_eq_ok.1 h
    obtain rfl := pure_eq_ok.1 h
    refine .fresh scannedAt t (column_ok hcol) (fun r hr => ?_) (Tables.change_ok.1 ht)
    simpa using List.find?_eq_none.1 hfind r hr
  | some current =>
    simp only [hfind] at h
    have hcurrent := List.mem_of_find?_eq_some hfind
    have hhash : current.codeHash = g.codeHash := by simpa using List.find?_some hfind
    split_ifs at h with hfirst
    · obtain ⟨t, ht, h⟩ := bind_eq_ok.1 h
      obtain rfl := pure_eq_ok.1 h
      obtain ⟨scannedAt, hms, hrows⟩ := displace_ok ht
      exact .displaced current scannedAt t hcurrent hhash hfirst hms hrows
    · obtain rfl := pure_eq_ok.1 h
      exact .kept current hcurrent hhash (by simpa using hfirst)

end

/-! ## All claims -/

/-- The row of a changed code says what the change says. -/
structure ChangedCode.Shown (D : Uuid) (c : ChangedCode) (r : CodeResult) : Prop where
  codeHash : r.codeHash = c.target.codeHash
  classification : r.classification = c.target.classification
  observed : r.observedProductionDate = c.winner.activeProductionDate
  event : r.firstAcceptedEventId = c.winner.eventId
  device : r.winningDeviceId = D
  instant : r.winningScannedAt.ms = c.winner.scannedAt.ms

/-- The rows of the codes, after some claims that started at `r`. -/
structure Claimed (D : Uuid) (r : Rows) (s : Claiming) : Prop where
  beside : ({ r with codeResults := s.tables.codeResults } : Rows).Beside s.tables.toRows
  events : s.tables.scanEvents = r.scanEvents
  shown : ∀ c ∈ s.changed, ∃ x ∈ s.tables.codeResults, c.Shown D x
  kept : ∀ x ∈ s.tables.codeResults,
    x ∈ r.codeResults ∨ ∃ c ∈ s.changed, c.target.codeHash = x.codeHash
  named : ∀ x ∈ r.codeResults, ∃ x' ∈ s.tables.codeResults, x'.id = x.id ∧ x'.codeHash = x.codeHash
  distinct : Table.Unique (·.target.codeHash) s.changed

theorem Claimed.start (D : Uuid) (t : Tables) : Claimed D t.toRows ⟨t, [], []⟩ where
  beside := Rows.Beside.refl t.toRows
  events := rfl
  shown := fun _ hc => absurd hc List.not_mem_nil
  kept := fun _ hx => .inl hx
  named := fun x hx => ⟨x, hx, rfl, rfl⟩
  distinct := List.nodup_nil

section

variable {task : Task} {env : Env} {D : Uuid} {e : Event} {g : ClaimTarget} {r : Rows}
  {s s' : Claiming}

theorem displacedRows_beside (task : Task) (env : Env) (D : Uuid) (e : Event) (g : ClaimTarget)
    (current : CodeResult) (scannedAt : Stamp) (r : Rows) :
    ({ r with codeResults := (displacedRows task env D e g current scannedAt r).codeResults } :
      Rows).Beside (displacedRows task env D e g current scannedAt r) := by
  unfold displacedRows
  split_ifs
  · exact ⟨rfl, rfl, rfl, rfl, rfl, rfl, (retired_beside env.now current.id r).boxes⟩
  · exact ⟨rfl, rfl, rfl, rfl, rfl, rfl, (Rows.Beside.refl r).boxes⟩

theorem Claimed.step (hs : Claimed D r s) (h : ClaimStep task env D e g s s') : Claimed D r s' := by
  cases h with
  | fresh scannedAt t hms hnew hrows =>
    have hresults : t.codeResults = s.tables.codeResults ++ [g.newResult env D e scannedAt] := by
      rw [hrows]
    refine ⟨?_, ?_, ?_, ?_, ?_, unique_setKey hs.distinct⟩
    · rw [hrows]
      exact ⟨hs.beside.status, hs.beside.resultRevision, hs.beside.participants, rfl,
        hs.beside.progressChanges, hs.beside.corrections, hs.beside.boxes⟩
    · rw [hrows]
      exact hs.events
    · intro c hc
      rw [hresults]
      rcases mem_setKey.1 hc with rfl | ⟨hc, -⟩
      · exact ⟨_, List.mem_append_right _ List.mem_cons_self, rfl, rfl, rfl, rfl, rfl, hms⟩
      · obtain ⟨x, hx, hcx⟩ := hs.shown c hc
        exact ⟨x, List.mem_append_left _ hx, hcx⟩
    · intro x hx
      rw [hresults, List.mem_append, List.mem_singleton] at hx
      rcases hx with hx | rfl
      · refine (hs.kept x hx).imp_right ?_
        rintro ⟨c, hc, hcx⟩
        exact ⟨c, mem_setKey.2 (.inr ⟨hc, fun hg => hnew x hx (hcx.symm.trans hg)⟩), hcx⟩
      · exact .inr ⟨⟨g, e⟩, mem_setKey.2 (.inl rfl), rfl⟩
    · intro x hx
      obtain ⟨x', hx', hid⟩ := hs.named x hx
      rw [hresults]
      exact ⟨x', List.mem_append_left _ hx', hid⟩
  | displaced current scannedAt t hcurrent hhash hfirst hms hrows =>
    have hresults : t.codeResults = Table.update (·.codeHash = g.codeHash)
        (·.wonBy g env D e scannedAt) s.tables.codeResults := by
      rw [hrows]
      rfl
    have hb := displacedRows_beside task env D e g current scannedAt s.tables.toRows
    rw [← hrows] at hb
    refine ⟨?_, ?_, ?_, ?_, ?_, unique_setKey hs.distinct⟩
    · refine ⟨hb.status.trans hs.beside.status, hb.resultRevision.trans hs.beside.resultRevision,
        hb.participants.trans hs.beside.participants, rfl,
        hb.progressChanges.trans hs.beside.progressChanges,
        hb.corrections.trans hs.beside.corrections, fun b hb1 => ?_⟩
      exact boxes_trans hs.beside.boxes hb.boxes b hb1
    · have hevents : t.scanEvents = s.tables.scanEvents := by
        rw [hrows, displacedRows]
        split_ifs <;> rfl
      exact hevents.trans hs.events
    · intro c hc
      rw [hresults]
      rcases mem_setKey.1 hc with rfl | ⟨hc, hne⟩
      · refine ⟨_, Table.mem_update_of_mem hcurrent, ?_⟩
        rw [if_pos (by simpa using hhash)]
        exact ⟨hhash, rfl, rfl, rfl, rfl, hms⟩
      · obtain ⟨x, hx, hcx⟩ := hs.shown c hc
        refine ⟨x, Table.mem_update_of_not hx ?_, hcx⟩
        rw [decide_eq_false_iff_not, hcx.codeHash]
        exact hne
    · intro x hx
      rw [hresults] at hx
      obtain ⟨y, hy, rfl⟩ := Table.mem_update.1 hx
      split_ifs with hyg
      · exact .inr ⟨⟨g, e⟩, mem_setKey.2 (.inl rfl), (of_decide_eq_true hyg).symm⟩
      · refine (hs.kept y hy).imp_right ?_
        rintro ⟨c, hc, hcy⟩
        exact ⟨c, mem_setKey.2 (.inr ⟨hc, fun hg => hyg (decide_eq_true (hcy.symm.trans hg))⟩), hcy⟩
    · intro x hx
      obtain ⟨x', hx', hid, hh⟩ := hs.named x hx
      rw [hresults]
      refine ⟨_, Table.mem_update_of_mem hx', ?_⟩
      split_ifs
      · exact ⟨hid, hh⟩
      · exact ⟨hid, hh⟩
  | kept => exact hs

theorem claimAll_inv {xs : List Expanded} {P : Claiming → Prop}
    (hstep : ∀ x ∈ xs, ∀ g ∈ x.claims, ∀ s s', P s → ClaimStep task env D x.event g s s' → P s')
    (hs : P s) (h : claimAll task env D s xs = .ok s') : P s' :=
  foldlM_inv (fun x hx _ _ h1 h2 => foldlM_inv
    (fun g hg s s' h3 h4 => hstep x hx g hg s s' h3 (claim_ok h4)) h1 h2) hs h

theorem claimAll_claimed {t : Tables} {xs : List Expanded}
    (h : claimAll task env D ⟨t, [], []⟩ xs = .ok s') : Claimed D t.toRows s' :=
  claimAll_inv (fun _ _ _ _ _ _ h1 h2 => h1.step h2) (.start D t) h

end

/-! ## Outcomes -/

inductive Decided (results : List CodeResult) (x : Expanded) : EventOutcome → Prop where
  | rejected (h : x.rejected = true) : Decided results x (rejectedOutcome x.event.eventId)
  | decided (h : x.rejected = false) (winners : List CodeResult)
      (hwinners : List.Forall₂ (fun g w => w ∈ results ∧ w.codeHash = g.codeHash) x.claims winners) :
      Decided results x (claimsOutcome x.event.eventId
        ((winners.map (claimAgainst x.event.eventId)).any (·.status = .claimed) ||
          x.event.kind = .oldBox || x.event.kind = .repackAction)
        (winners.map (claimAgainst x.event.eventId)))

theorem outcomeOf_ok {t t' : Tables} {x : Expanded} {o : EventOutcome}
    (h : outcomeOf t x = .ok (o, t')) :
    Decided t.codeResults x o ∧ t.toRows.Recorded t'.toRows := by
  unfold outcomeOf at h
  split_ifs at h with hrej
  · obtain ⟨rfl, rfl⟩ := pair_eq_ok.1 h
    exact ⟨.rejected hrej, .refl _⟩
  · obtain ⟨winners, hw, h⟩ := bind_eq_ok.1 h
    obtain ⟨t1, h1, h⟩ := bind_eq_ok.1 h
    obtain ⟨t2, h2, h⟩ := bind_eq_ok.1 h
    obtain ⟨rfl, rfl⟩ := pair_eq_ok.1 h
    constructor
    · refine .decided (by simpa using hrej) winners ?_
      refine (mapM_eq_ok.1 hw).imp fun g w hgw => ?_
      cases hfind : t.codeResults.find? (·.codeHash = g.codeHash) with
      | none =>
        simp only [hfind] at hgw
        cases hgw
      | some w' =>
        simp only [hfind] at hgw
        obtain rfl := Except.ok.inj hgw
        exact ⟨List.mem_of_find?_eq_some hfind, by simpa using List.find?_some hfind⟩
    · have hr1 : t.toRows.Recorded t1.toRows := by
        split_ifs at h1 with hnil
        · obtain rfl := Except.ok.inj h1
          exact .refl _
        · rw [Tables.change_ok.1 h1]
          exact ⟨rfl, rfl⟩
      refine hr1.trans ?_
      rw [Tables.change_ok.1 h2]
      exact setVerdict_recorded _ _ _

theorem outcomesOf_ok {t t' : Tables} {xs : List Expanded} {os : List EventOutcome}
    (h : outcomesOf t xs = .ok (os, t')) :
    List.Forall₂ (Decided t.codeResults) xs os ∧ t.toRows.Recorded t'.toRows := by
  induction xs generalizing t os with
  | nil =>
    obtain ⟨rfl, rfl⟩ := pair_eq_ok.1 h
    exact ⟨.nil, .refl _⟩
  | cons x xs ih =>
    rw [outcomesOf] at h
    obtain ⟨⟨o, t1⟩, h1, h⟩ := bind_eq_ok.1 h
    obtain ⟨⟨os1, t2⟩, h2, h⟩ := bind_eq_ok.1 h
    obtain ⟨rfl, rfl⟩ := pair_eq_ok.1 h
    obtain ⟨hd, hr⟩ := outcomeOf_ok h1
    obtain ⟨hds, hrs⟩ := ih h2
    rw [hr.codeResults] at hds
    exact ⟨.cons hd hds, hr.trans hrs⟩

end Markiro.InventorySync
