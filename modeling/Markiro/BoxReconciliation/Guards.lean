import Markiro.BoxReconciliation.Pass

/-!
# What a pass knows when it commits

Between two statements of a pass the station changes its tables as it likes, so all that a pass
knows at a commit is what it read and what the conditions inside the statement say. A replay carries
one row for each member that was last read; on a station that only raises revisions, a replay is
committed only to a box that was not checked at its revision.
-/

namespace Markiro.BoxReconciliation

open Utf16 Processes

variable {H : Hashing}

/-! ## Justified statements -/

/-- A queued row is the scan of a member. -/
structure Scanned (f : BoxReconciliationFact H) (c : MemberRow) (row : OutboxRow) : Prop where
  verdict : row.verdict = "ok"
  code : row.codeHash = some c.codeHash
  raw : H.kmHash row.raw = some c.codeHash
  scannedAt : row.scannedAt = c.scannedAt
  boxId : row.boxId = some f.boxId

/-- The rows are the scans of the members of the box, whose codes are those of the fact. -/
structure IsReplay (f : BoxReconciliationFact H) (members : List MemberRow)
    (rows : List OutboxRow) : Prop where
  scans : List.Forall₂ (Scanned f) members rows
  codes : (members.map (·.codeHash)).Perm f.codeHashes
  boxId : ∀ c ∈ members, c.boxId = some f.boxId

def Fresh (boxId : String) (revision : ℤ) (m : Mirror) : Prop :=
  ∀ b ∈ m.boxes, b.boxId = boxId → b.reconciliationRevision ≤ revision →
    b.lastCheckedRevision < revision

/-- A change beside the passes raises revisions, adds boxes, and leaves alone what was checked. -/
def StationChange (m m' : Mirror) : Prop :=
  ∀ b' ∈ m'.boxes,
    (∃ b ∈ m.boxes, b.boxId = b'.boxId ∧ b.lastCheckedRevision = b'.lastCheckedRevision ∧
      b.reconciliationRevision ≤ b'.reconciliationRevision) ∨
    ((∀ b ∈ m.boxes, b.boxId ≠ b'.boxId) ∧ b'.lastCheckedRevision = 0 ∧
      b'.reconciliationRevision = 1)

theorem Fresh.change {boxId : String} {revision : ℤ} {m m' : Mirror} (h : Fresh boxId revision m)
    (hm : StationChange m m') : Fresh boxId revision m' := by
  intro b' hb' hid hrev
  rcases hm b' hb' with ⟨b, hb, hbid, hlast, hle⟩ | ⟨-, hlast, hone⟩
  · rw [← hlast]
    exact h b hb (hbid.trans hid) (hle.trans hrev)
  · omega

/-- What is shown of a statement when it is asked for. -/
def Write.Justified (strict : Prop) (w : World) : Write H → Prop
  | .replay f _ rows => IsReplay f w.lastMembers rows ∧ (strict → Fresh f.boxId f.revision w.mirror)
  | .reclose f _ => strict → Fresh f.boxId f.revision w.mirror
  | .confirm _ _ | .recordIssue _ _ | .markChecked _ _ => True

/-- The box a statement is about. -/
def Write.boxId : Write H → String
  | .confirm f _ | .replay f _ _ | .reclose f _ | .recordIssue f _ | .markChecked f _ => f.boxId

/-! ## Effects -/

theorem guard_boxId {f : BoxReconciliationFact H} {m : Mirror} {b : BoxRow}
    (h : f.guard m b = true) : b.boxId = f.boxId := (of_decide_eq_true h).1

theorem Write.effect_boxes {m m' : Mirror} {u : Write H} (h : u.effect m = some m') :
    m'.boxes = m.boxes ∨ ∃ p : BoxRow → Bool, ∃ g : BoxRow → BoxRow,
      (∀ b, p b = true → b.boxId = u.boxId) ∧ (∀ b, (g b).boxId = b.boxId) ∧
      m'.boxes = Table.update p g m.boxes := by
  cases u with
  | confirm f now =>
    rw [effect] at h
    split at h
    · obtain rfl := Option.some.inj h
      exact .inr ⟨f.guard m, (·.confirm f.revision now), fun b => guard_boxId, fun b => rfl, rfl⟩
    · exact nomatch h
  | replay f now rows | reclose f now =>
    rw [effect] at h
    split at h
    · obtain rfl := Option.some.inj h
      exact .inr ⟨f.guard m, (·.reopen f.revision now), fun b => guard_boxId, fun b => rfl, rfl⟩
    · exact nomatch h
  | recordIssue f issue =>
    obtain rfl := Option.some.inj h
    exact .inl rfl
  | markChecked f now =>
    obtain rfl := Option.some.inj h
    exact .inr ⟨f.isAt, (·.check f.revision now), fun b hb => (of_decide_eq_true hb).1,
      fun b => rfl, rfl⟩

theorem Write.effect_codes {m m' : Mirror} {u : Write H} (h : u.effect m = some m') :
    m'.codes = m.codes := by
  cases u with
  | confirm f now | replay f now rows | reclose f now =>
    rw [effect] at h
    split at h
    · obtain rfl := Option.some.inj h
      rfl
    · exact nomatch h
  | recordIssue f issue | markChecked f now =>
    obtain rfl := Option.some.inj h
    rfl

theorem Write.effect_keyed {m m' : Mirror} {u : Write H} (h : u.effect m = some m')
    (hm : m.Keyed) : m'.Keyed where
  codes := by
    rw [effect_codes h]
    exact hm.codes
  boxes := by
    rcases effect_boxes h with hb | ⟨p, g, -, hg, hb⟩
    · rw [hb]
      exact hm.boxes
    · rw [hb]
      exact hm.boxes.update fun b _ => hg b

theorem Write.effect_fresh {m m' : Mirror} {u : Write H} {boxId : String} {revision : ℤ}
    (h : u.effect m = some m') (hne : boxId ≠ u.boxId) (hf : Fresh boxId revision m) :
    Fresh boxId revision m' := by
  rcases effect_boxes h with hb | ⟨p, g, hp, hg, hb⟩
  · intro b hmem
    rw [hb] at hmem
    exact hf b hmem
  · intro b' hmem hid
    rw [hb] at hmem
    obtain ⟨b, hbm, rfl⟩ := Table.mem_update.1 hmem
    by_cases hpb : p b = true
    · rw [if_pos hpb, hg, hp b hpb] at hid
      exact absurd hid.symm hne
    · rw [if_neg hpb] at hid ⊢
      exact hf b hbm hid

/-! ## The contract -/

/-- Whatever is changed on the station, the note of the members stays; where `strict` holds the
changes are a station's own. -/
def contract (H : Hashing) (strict : Prop) : Contract (Request H) World where
  inv w := w.mirror.Keyed
  rely w w' := w'.lastMembers = w.lastMembers ∧ (strict → StationChange w.mirror w'.mirror)
  meets _ _ := True
  pre w
    | .write u => u.Justified strict w
    | _ => True

section

variable {J : Type} {L : LocalChanges} {turn : J → Turn H Unit} {strict : Prop}

theorem runWrite_world {w w' : World} {u : Write H} {fare : Fare} {a : Except Failure Unit}
    (h : runWrite w u fare = some (a, w')) :
    (w' = w ∨ ∃ m, u.effect w.mirror = some m ∧ w' = { w with mirror := m }) ∧
      (a = .ok () → ∃ m, u.effect w.mirror = some m ∧ w' = { w with mirror := m }) := by
  cases fare with
  | done =>
    cases he : u.effect w.mirror with
    | none =>
      simp only [runWrite, he] at h
      obtain ⟨rfl, rfl⟩ := Prod.mk.inj (Option.some.inj h)
      exact ⟨.inl rfl, nofun⟩
    | some m =>
      simp only [runWrite, he] at h
      obtain ⟨rfl, rfl⟩ := Prod.mk.inj (Option.some.inj h)
      exact ⟨.inr ⟨m, rfl, rfl⟩, fun _ => ⟨m, rfl, rfl⟩⟩
  | lost =>
    obtain ⟨rfl, rfl⟩ := Prod.mk.inj (Option.some.inj h)
    cases he : u.effect w.mirror with
    | none => exact ⟨.inl rfl, nofun⟩
    | some m => exact ⟨.inr ⟨m, rfl, rfl⟩, nofun⟩
  | failed =>
    obtain ⟨rfl, rfl⟩ := Prod.mk.inj (Option.some.inj h)
    exact ⟨.inl rfl, nofun⟩
  | flag _ | time _ | results _ | evidence _ => exact nomatch h

theorem readWith_world {α : Type} {w v w' : World} {x : α} {fare : Fare} {a : Except Failure α}
    (h : readWith w v x fare = some (a, w')) :
    (w' = v ∧ a = .ok x) ∨ (w' = w ∧ a = .error .sql) := by
  cases fare with
  | done =>
    obtain ⟨rfl, rfl⟩ := Prod.mk.inj (Option.some.inj h)
    exact .inl ⟨rfl, rfl⟩
  | failed | lost =>
    obtain ⟨rfl, rfl⟩ := Prod.mk.inj (Option.some.inj h)
    exact .inr ⟨rfl, rfl⟩
  | flag _ | time _ | results _ | evidence _ => exact nomatch h

/-- A request that neither writes nor is noted. -/
def Request.Quiet : Request H → Prop
  | .members _ | .write _ => False
  | _ => True

theorem serve_quiet {w w' : World} {r : Request H} {fare : Fare} {a : r.Answer} (hr : r.Quiet)
    (h : serve w r fare = some (a, w')) : w' = w := by
  cases r with
  | due _ _ _ | current _ _ | events _ _ =>
    rcases readWith_world h with ⟨rfl, -⟩ | ⟨rfl, -⟩ <;> rfl
  | members _ | write _ => exact hr.elim
  | grantEvidence _ _ | submit _ | isCurrent | now =>
    cases fare <;> first | exact (Prod.mk.inj (Option.some.inj h)).2.symm | exact nomatch h

/-- Only a statement that writes changes the tables, and only the members that are read are noted. -/
theorem serve_world {w w' : World} {r : Request H} {fare : Fare} {a : r.Answer}
    (h : serve w r fare = some (a, w')) :
    w' = w ∨ (∃ boxId, w' = { w with lastMembers := w.mirror.members boxId }) ∨
      ∃ u m, r = .write u ∧ u.effect w.mirror = some m ∧ w' = { w with mirror := m } := by
  cases r with
  | members boxId =>
    rcases readWith_world h with ⟨rfl, -⟩ | ⟨rfl, -⟩
    · exact .inr (.inl ⟨boxId, rfl⟩)
    · exact .inl rfl
  | write u =>
    rcases (runWrite_world h).1 with rfl | ⟨m, hm, rfl⟩
    · exact .inl rfl
    · exact .inr (.inr ⟨u, m, rfl, hm, rfl⟩)
  | _ => exact .inl (serve_quiet (by trivial) h)

theorem contract_sound (hL : strict → ∀ m c, m.Keyed → StationChange m (L.change m c)) :
    (contract H strict).Sound (reconciler L turn) where
  outside w c hw := ⟨L.keyed w.mirror c hw, rfl, fun h => hL h w.mirror c hw⟩
  serve w r fare a w' hw _ _ h := by
    rcases serve_world h with rfl | ⟨-, rfl⟩ | ⟨u, m, -, hm, rfl⟩
    · exact hw
    · exact hw
    · exact Write.effect_keyed hm hw

/-! ## Reads and writes -/

/-- What happens on the station beside the pass keeps `P`. -/
def Steady (strict : Prop) (P : Mirror → Prop) : Prop :=
  ∀ m m', (strict → StationChange m m') → P m → P m'

def Known (P : Mirror → Prop) (X : List MemberRow → Prop) (w : World) : Prop :=
  P w.mirror ∧ X w.lastMembers

theorem Steady.stable {P : Mirror → Prop} (hP : Steady strict P) (X : List MemberRow → Prop) :
    (contract H strict).Stable (Known P X) := by
  rintro w w' - ⟨hmembers, hchange⟩ ⟨h, hX⟩
  exact ⟨hP _ _ hchange h, by rw [hmembers]; exact hX⟩

variable (hC : (contract H strict).Sound (reconciler L turn)) {P : Mirror → Prop}
  {X : List MemberRow → Prop} (hP : Steady strict P)
include hC hP

theorem leads_quiet {α : Type} (r : Request H) (hr : r.Quiet)
    (k : r.Answer → Except Failure α) :
    (reconciler L turn).Leads (contract H strict) (Known P X) (.ask r fun a => .done (k a))
      fun _ => Known P X :=
  System.Holds.asked hC (hP.stable X) (fun _ => hP.stable X) (fun _ _ h _ _ => h) fun w _ h _ => by
    refine ⟨?_, fun fare a w' hs => (serve_quiet hr hs).symm ▸ h⟩
    cases r with
    | write u => exact hr.elim
    | _ => exact trivial

theorem leads_isCurrent :
    (reconciler L turn).Leads (contract H strict) (Known P X) isCurrent fun _ => Known P X :=
  leads_quiet hC hP .isCurrent trivial _

theorem leads_now :
    (reconciler L turn).Leads (contract H strict) (Known P X) now fun _ => Known P X :=
  leads_quiet hC hP .now trivial _

theorem leads_whileCurrent {α : Type} {stop : α} {p : Turn H α} {B : α → World → Prop}
    (hp : (reconciler L turn).Leads (contract H strict) (Known P X) p B)
    (hstop : (contract H strict).Stable (B stop)) (h : ∀ w, Known P X w → B stop w) :
    (reconciler L turn).Leads (contract H strict) (Known P X) (whileCurrent stop p) B := by
  refine System.Leads.bind hC (leads_isCurrent hC hP) fun current => ?_
  cases current with
  | false => exact System.Leads.pure hstop fun w _ hw => h w hw
  | true => exact hp

theorem leads_readMembers (boxId : String) :
    (reconciler L turn).Leads (contract H strict) (Known P X) (readMembers boxId)
      fun members => Known P fun noted => noted = members ∧ ∀ c ∈ members, c.boxId = some boxId :=
  System.Holds.request hC (hP.stable X)
    (fun _ => Contract.Stable.forall fun _ => Contract.Stable.imp fun _ => hP.stable _)
    fun w _ h _ => ⟨trivial, fun fare a w' hs members ha => by
      rcases readWith_world hs with ⟨rfl, hok⟩ | ⟨-, hbad⟩
      · obtain rfl : w.mirror.members boxId = members := Except.ok.inj (hok.symm.trans ha)
        exact ⟨h.1, rfl, fun c hc => (Mirror.mem_members.1 hc).2⟩
      · exact nomatch hbad.symm.trans ha⟩

theorem leads_events (shiftId : String) (instants : List String) :
    (reconciler L turn).Leads (contract H strict) (Known P X)
      (Fallible.ofProcess (Process.request (Request.events shiftId instants)))
      fun events => Known P fun noted => X noted ∧ ∀ e ∈ events, e.verdict = "ok" :=
  System.Holds.request hC (hP.stable X)
    (fun _ => Contract.Stable.forall fun _ => Contract.Stable.imp fun _ => hP.stable _)
    fun w _ h _ => ⟨trivial, fun fare a w' hs events ha => by
      rcases readWith_world hs with ⟨rfl, hok⟩ | ⟨-, hbad⟩
      · obtain rfl : w'.mirror.okEvents shiftId instants = events :=
          Except.ok.inj (hok.symm.trans ha)
        refine ⟨h.1, h.2, fun e he => ?_⟩
        rw [Mirror.okEvents, List.mem_insertionSort, List.mem_filter] at he
        exact (of_decide_eq_true he.2).2.1
      · exact nomatch hbad.symm.trans ha⟩

theorem leads_current (boxId shiftId : String) :
    (reconciler L turn).Leads (contract H strict) (Known P X)
      (Fallible.ofProcess (Process.request (Request.current boxId shiftId))) fun _ => Known P X :=
  leads_quiet hC hP (.current boxId shiftId) trivial id

theorem leads_grantEvidence (f : BoxReconciliationFact H)
    (matched : List (MemberRow × EventRow)) :
    (reconciler L turn).Leads (contract H strict) (Known P X)
      (Fallible.ofProcess (Process.request (Request.grantEvidence f matched)))
      fun _ => Known P X :=
  leads_quiet hC hP (.grantEvidence f matched) trivial id

theorem leads_submit (facts : List (BoxReconciliationFact H)) :
    (reconciler L turn).Leads (contract H strict) (Known P X)
      (Fallible.ofProcess (Process.request (Request.submit facts))) fun _ => Known P X :=
  leads_quiet hC hP (.submit facts) trivial id

omit hC in
theorem leads_membersDigest (members : List MemberRow) :
    (reconciler L turn).Leads (contract H strict) (Known P X) (membersDigest members)
      fun d => Known P fun noted => X noted ∧ H.digest (members.map (·.codeHash)) = .ok d :=
  System.Leads.ofExcept (fun _ => hP.stable _) fun w _ h d hd => by
    cases hdigest : H.digest (members.map (·.codeHash)) with
    | ok d' =>
      rw [hdigest] at hd
      obtain rfl : d' = d := Except.ok.inj hd
      exact ⟨h.1, h.2, rfl⟩
    | error e =>
      rw [hdigest] at hd
      exact nomatch hd

theorem leads_write {P' : Mirror → Prop} (hP' : Steady strict P') (u : Write H)
    (hu : ∀ w, Known P X w → u.Justified strict w)
    (h : ∀ m m', P m → u.effect m = some m' → P' m') :
    (reconciler L turn).Leads (contract H strict) (Known P X) (write u) fun _ => Known P' X :=
  System.Holds.request hC (hP.stable X)
    (fun _ => Contract.Stable.forall fun _ => Contract.Stable.imp fun _ => hP'.stable X)
    fun w _ hw _ => ⟨hu w hw, fun fare a w' hs _ ha => by
      obtain ⟨m, hm, rfl⟩ := (runWrite_world hs).2 ha
      exact ⟨h _ _ hw.1 hm, hw.2⟩⟩

end

end Markiro.BoxReconciliation
