import Markiro.BoxReconciliation.Batch

/-!
# What a pass commits

A box is confirmed only at the revision and with the contents of the fact, and a replay queues each
present member once, with a scan of its code, or changes nothing. On a station that only raises
revisions, where facts are those of the pass, a box is replayed at most once at one revision
(`passes_commit_what_is_held`). A fact that outlives its pass may be replayed again
(`replayed_again`).
-/

namespace Markiro.BoxReconciliation

open Utf16 Processes

variable {H : Hashing}

/-! ## Runs -/

section

variable {J : Type} {L : LocalChanges} {turn : J → Turn H Unit} {strict : Prop}

/-- No pass is under way. -/
def begin (m : Mirror) : Config (Request.Answer (H := H)) World := ⟨⟨m, []⟩, .done ()⟩

/-- Only a statement that writes changes the tables, and only as its effect says. -/
theorem step_mirror (L : LocalChanges) (turn : J → Turn H Unit)
    (c : Config (Request.Answer (H := H)) World) (fare : Fare) :
    ((reconciler L turn).step c (.answer fare)).world.mirror = c.world.mirror ∨
      ∃ u, c.pending = some (.write u) ∧ u.effect c.world.mirror =
        some ((reconciler L turn).step c (.answer fare)).world.mirror := by
  rcases System.step_cases (reconciler L turn) c fare with heq | ⟨r, k, a, w, hp, hs, heq⟩
  · exact .inl (by rw [heq])
  · rw [heq]
    rcases serve_world hs with rfl | ⟨-, rfl⟩ | ⟨u, m, rfl, hm, rfl⟩
    · exact .inl rfl
    · exact .inl rfl
    · exact .inr ⟨u, by rw [Config.pending, hp], hm⟩

theorem lastMembers_read (L : LocalChanges) (turn : J → Turn H Unit) (m : Mirror)
    (moves : List (Move Fare L.Change J)) :
    ((reconciler L turn).run (begin m) moves).world.lastMembers = [] ∨
      ∃ d ∈ (reconciler L turn).trail (begin m) moves, ∃ boxId,
        ((reconciler L turn).run (begin m) moves).world.lastMembers =
          d.world.mirror.members boxId := by
  induction moves using List.reverseRecOn with
  | nil => exact .inl rfl
  | append_singleton moves move ih =>
    rw [System.run_concat, System.trail_concat]
    have hkept : ∀ {c' : Config (Request.Answer (H := H)) World}, c'.world.lastMembers =
        ((reconciler L turn).run (begin m) moves).world.lastMembers →
        c'.world.lastMembers = [] ∨ ∃ d ∈ (reconciler L turn).trail (begin m) moves ++
          [(reconciler L turn).run (begin m) moves], ∃ boxId,
          c'.world.lastMembers = d.world.mirror.members boxId := by
      intro c' hc'
      rcases ih with hnil | ⟨d, hd, boxId, heq⟩
      · exact .inl (hc'.trans hnil)
      · exact .inr ⟨d, List.mem_append_left _ hd, boxId, hc'.trans heq⟩
    generalize hc : (reconciler L turn).run (begin m) moves = c at hkept ⊢
    cases move with
    | outside o => exact hkept rfl
    | start j => exact hkept rfl
    | answer fare =>
      rcases System.step_cases (reconciler L turn) c fare with heq | ⟨r, k, a, w, hp, hs, heq⟩
      · exact hkept (by rw [heq])
      · rw [heq]
        rcases serve_world hs with rfl | ⟨boxId, rfl⟩ | ⟨u, m, -, -, rfl⟩
        · exact hkept rfl
        · exact .inr ⟨c, List.mem_append_right _ (List.mem_singleton_self c), boxId, rfl⟩
        · exact hkept rfl

theorem kept_run (hC : (contract H strict).Sound (reconciler L turn))
    (hturn : ∀ j, (reconciler L turn).Leads (contract H strict) (fun _ => True) (turn j)
      fun _ _ => True)
    {c : Config (Request.Answer (H := H)) World}
    (h : System.Kept (reconciler L turn) (contract H strict) c)
    (moves : List (Move Fare L.Change J)) :
    System.Kept (reconciler L turn) (contract H strict) ((reconciler L turn).run c moves) := by
  have hstart : ∀ j, (reconciler L turn).Holds (contract H strict) (fun _ => True)
      ((reconciler L turn).process j) fun _ _ => True := fun j =>
    System.Holds.bind hC (hturn j) fun _ =>
      System.Holds.done (fun _ _ _ _ h => h) fun _ _ _ => trivial
  exact (h.trail hC hstart moves fun _ _ _ _ => trivial).2

theorem kept_begin (m : {m : Mirror // m.Keyed}) :
    System.Kept (reconciler L turn) (contract H strict) (begin m.1) :=
  ⟨m.2, fun _ _ => trivial⟩

end

/-! ## One commit -/

structure Held (f : BoxReconciliationFact H) (m : Mirror) (b : BoxRow) : Prop where
  boxId : b.boxId = f.boxId
  revision : b.reconciliationRevision = f.revision
  sscc : b.sscc = some f.sscc
  closedAt : b.closedAt = some f.closedAt
  palletId : b.palletId = f.devicePalletId
  members : ((m.members f.boxId).map (·.codeHash)).Perm f.codeHashes

variable {f : BoxReconciliationFact H}

theorem held_of_guard {m : Mirror} (hm : m.Keyed) {b : BoxRow}
    (h : f.guard m b = true) : Held f m b := by
  obtain ⟨hid, -, hrev, -, hsscc, hclosed, hpallet, hcount, hall⟩ := of_decide_eq_true h
  refine ⟨hid, hrev, hsscc, hclosed, hpallet, ?_⟩
  have hsub : (m.members f.boxId).map (·.codeHash) ⊆ f.codeHashes := by
    intro x hx
    obtain ⟨c, hc, rfl⟩ := List.mem_map.1 hx
    exact hall c hc
  refine (List.subperm_of_subset (hm.members_nodup f.boxId) hsub).perm_of_length_le ?_
  rw [List.length_map, hcount, f.counted]

variable {m m' : Mirror}

theorem Write.effect_row {u : Write H} (h : u.effect m = some m') {b' : BoxRow}
    (hb' : b' ∈ m'.boxes) :
    b' ∈ m.boxes ∨ ∃ b ∈ m.boxes, b'.boxId = b.boxId ∧
      b'.reconciliationRevision = b.reconciliationRevision ∧
      b'.lastCheckedRevision = b.reconciliationRevision ∧
      ((∃ f now, u = .confirm f now ∧ f.guard m b = true ∧
          b'.confirmedRevision = b.reconciliationRevision) ∨
        b'.confirmedRevision = min b.confirmedRevision (b.reconciliationRevision - 1)) := by
  have hupdate : ∀ {p : BoxRow → Bool} {g : BoxRow → BoxRow},
      b' ∈ Table.update p g m.boxes → b' ∈ m.boxes ∨ ∃ b ∈ m.boxes, p b = true ∧ b' = g b := by
    intro p g hmem
    obtain ⟨b, hb, rfl⟩ := Table.mem_update.1 hmem
    by_cases hp : p b = true
    · exact .inr ⟨b, hb, hp, by rw [if_pos hp]⟩
    · exact .inl (by rw [if_neg hp]; exact hb)
  cases u with
  | confirm f now =>
    rw [effect] at h
    split at h
    · obtain rfl := Option.some.inj h
      refine (hupdate hb').imp_right ?_
      rintro ⟨b, hb, hg, he⟩
      refine ⟨b, hb, ?_⟩
      obtain ⟨-, -, hrev, -⟩ := of_decide_eq_true hg
      rw [he]
      exact ⟨rfl, rfl, hrev.symm, .inl ⟨f, now, rfl, hg, hrev.symm⟩⟩
    · cases h
  | replay f now rows | reclose f now =>
    rw [effect] at h
    split at h
    · obtain rfl := Option.some.inj h
      refine (hupdate hb').imp_right ?_
      rintro ⟨b, hb, hg, he⟩
      refine ⟨b, hb, ?_⟩
      obtain ⟨-, -, hrev, -⟩ := of_decide_eq_true hg
      rw [he]
      exact ⟨rfl, rfl, hrev.symm, .inr rfl⟩
    · cases h
  | recordIssue f issue =>
    obtain rfl := Option.some.inj h
    exact .inl hb'
  | markChecked f now =>
    obtain rfl := Option.some.inj h
    refine (hupdate hb').imp_right ?_
    rintro ⟨b, hb, hg, he⟩
    refine ⟨b, hb, ?_⟩
    obtain ⟨-, -, hrev⟩ := of_decide_eq_true hg
    rw [he]
    exact ⟨rfl, rfl, hrev.symm, .inr rfl⟩

/-- A box is confirmed as the fact says, or a confirmation of its revision is withdrawn. -/
def ConfirmsHeld (c c' : Config (Request.Answer (H := H)) World) : Prop :=
  ∀ b ∈ c.world.mirror.boxes, ∀ b' ∈ c'.world.mirror.boxes, b'.boxId = b.boxId →
    b'.confirmedRevision ≠ b.confirmedRevision →
    (∃ f now, c.pending = some (.write (.confirm f now)) ∧
      b'.confirmedRevision = b.reconciliationRevision ∧ Held f c.world.mirror b) ∨
    b'.confirmedRevision = b.reconciliationRevision - 1 ∧ b'.confirmedRevision < b.confirmedRevision

theorem confirmsHeld_step {J : Type} {L : LocalChanges} {turn : J → Turn H Unit}
    {c : Config (Request.Answer (H := H)) World} (hm : c.world.mirror.Keyed) (fare : Fare) :
    ConfirmsHeld c ((reconciler L turn).step c (.answer fare)) := by
  intro b hb b' hb' hid hne
  rcases step_mirror L turn c fare with hsame | ⟨u, hpending, heffect⟩
  · rw [hsame] at hb'
    obtain rfl := hm.boxes.eq hb' hb hid
    exact absurd rfl hne
  · rcases Write.effect_row heffect hb' with hold | ⟨x, hx, hxid, -, -, hconf⟩
    · obtain rfl := hm.boxes.eq hold hb hid
      exact absurd rfl hne
    · obtain rfl : x = b := hm.boxes.eq hx hb (hxid.symm.trans hid)
      rcases hconf with ⟨f, now, rfl, hg, hrev⟩ | hmin
      · exact .inl ⟨f, now, hpending, hrev, held_of_guard hm hg⟩
      · right
        omega

structure Requeued (f : BoxReconciliationFact H) (rows : List OutboxRow) (m m' : Mirror) :
    Prop where
  found : ∃ b ∈ m'.boxes, b.boxId = f.boxId
  acked : ∀ b ∈ m'.boxes, b.boxId = f.boxId → b.ackedAt = none
  notQueued : ∀ o ∈ m.outbox, o.boxId ≠ some f.boxId
  outbox : m'.outbox = m.outbox ++ rows
  codes : (rows.map (·.codeHash)).Perm ((m.members f.boxId).map fun c => some c.codeHash)
  scans : ∀ row ∈ rows, row.verdict = "ok" ∧ row.boxId = some f.boxId ∧
    H.kmHash row.raw = row.codeHash

variable {members : List MemberRow}

theorem IsReplay.scanned
    {rows : List OutboxRow} (h : IsReplay f members rows) {row : OutboxRow} (hrow : row ∈ rows) :
    ∃ c ∈ members, Scanned f c row := by
  have hscans := h.scans
  clear h
  induction hscans with
  | nil => exact absurd hrow List.not_mem_nil
  | cons hc _ ih =>
    rcases List.mem_cons.1 hrow with rfl | hrow
    · exact ⟨_, List.mem_cons_self, hc⟩
    · obtain ⟨c, hmem, hscan⟩ := ih hrow
      exact ⟨c, List.mem_cons_of_mem _ hmem, hscan⟩

theorem IsReplay.map_codeHash {rows : List OutboxRow} (h : IsReplay f members rows) :
    rows.map (·.codeHash) = members.map fun c => some c.codeHash := by
  have hscans := h.scans
  clear h
  induction hscans with
  | nil => rfl
  | cons hc _ ih => rw [List.map_cons, List.map_cons, hc.code, ih]

theorem requeued_of_effect {now : String} {rows : List OutboxRow} (hm : m.Keyed)
    (hreplay : IsReplay f members rows)
    (h : (Write.replay f now rows).effect m = some m') : Requeued f rows m m' := by
  rw [Write.effect] at h
  split at h
  · next hone =>
    obtain rfl := Option.some.inj h
    obtain ⟨b, hb, hboth⟩ := List.countP_pos_iff.1 (hone ▸ Nat.one_pos)
    obtain ⟨hguard, hqueued⟩ := Bool.and_eq_true_iff.1 hboth
    have hheld := held_of_guard hm hguard
    have hreopened : b.reopen f.revision now ∈
        Table.update (f.guard m) (fun b => b.reopen f.revision now) m.boxes :=
      Table.mem_update.2 ⟨b, hb, by rw [if_pos hguard]⟩
    refine ⟨⟨_, hreopened, hheld.boxId⟩, fun b' hb' hid => ?_, fun o ho hid => ?_, rfl, ?_,
      fun row hrow => ?_⟩
    · obtain ⟨x, hx, hif⟩ := Table.mem_update.1 hb'
      have hxid : x.boxId = b.boxId := by
        rw [← hif] at hid
        split at hid <;> exact hid.trans hheld.boxId.symm
      obtain rfl := hm.boxes.eq hx hb hxid
      rw [if_pos hguard] at hif
      rw [← hif]
      rfl
    · have hany : (m.outbox.any fun o => o.boxId = some f.boxId) = true :=
        List.any_eq_true.2 ⟨o, ho, decide_eq_true hid⟩
      rw [hany] at hqueued
      cases hqueued
    · have hcodes := (hreplay.codes.trans hheld.members.symm).map some
      rw [List.map_map, List.map_map] at hcodes
      rw [hreplay.map_codeHash]
      exact hcodes
    · obtain ⟨c, -, hscan⟩ := hreplay.scanned hrow
      exact ⟨hscan.verdict, hscan.boxId, hscan.raw.trans hscan.code.symm⟩
  · cases h

def InstantsRead (f : BoxReconciliationFact H) (rows : List OutboxRow)
    (trail : List (Config (Request.Answer (H := H)) World)) : Prop :=
  ∀ row ∈ rows, ∃ d ∈ trail, ∃ c ∈ d.world.mirror.members f.boxId,
    row.codeHash = some c.codeHash ∧ row.scannedAt = c.scannedAt

/-- A replay changes nothing, or queues the scans of the box again. -/
def ReplaysHeld (trail : List (Config (Request.Answer (H := H)) World))
    (c c' : Config (Request.Answer (H := H)) World) : Prop :=
  ∀ f now rows, c.pending = some (.write (.replay f now rows)) →
    c'.world.mirror = c.world.mirror ∨
      Requeued f rows c.world.mirror c'.world.mirror ∧ InstantsRead f rows trail

theorem replaysHeld_step {J : Type} {L : LocalChanges} {turn : J → Turn H Unit} {strict : Prop}
    (m : Mirror) (moves : List (Move Fare L.Change J))
    (h : System.Kept (reconciler L turn) (contract H strict)
      ((reconciler L turn).run (begin m) moves)) (fare : Fare) :
    ReplaysHeld ((reconciler L turn).trail (begin m) moves)
      ((reconciler L turn).run (begin m) moves)
      ((reconciler L turn).step ((reconciler L turn).run (begin m) moves) (.answer fare)) := by
  intro f now rows hpending
  have hreplay : IsReplay f _ rows := (h.pre hpending trivial).1
  rcases step_mirror L turn _ fare with hsame | ⟨u, hu, heffect⟩
  · exact .inl hsame
  · obtain rfl : Write.replay f now rows = u :=
      Request.write.inj (Option.some.inj (hpending.symm.trans hu))
    refine .inr ⟨requeued_of_effect h.1 hreplay heffect, fun row hrow => ?_⟩
    obtain ⟨c, hc, hscan⟩ := hreplay.scanned hrow
    rcases lastMembers_read L turn m moves with hnil | ⟨d, hd, boxId, hread⟩
    · rw [hnil] at hc
      exact absurd hc List.not_mem_nil
    · have hbox := hreplay.boxId c hc
      rw [hread] at hc
      obtain ⟨hcodes, hbox'⟩ := Mirror.mem_members.1 hc
      exact ⟨d, hd, c, Mirror.mem_members.2 ⟨hcodes, hbox⟩, hscan.code, hscan.scannedAt⟩

/-! ## Replays of one box -/

/-- The box whose scans or whose closure a statement sends again. -/
def Write.replayed : Write H → Option String
  | .replay f _ _ | .reclose f _ => some f.boxId
  | .confirm _ _ | .recordIssue _ _ | .markChecked _ _ => none

def replayOf {O J : Type} (c : Config (Request.Answer (H := H)) World) :
    Move Fare O J → Option String
  | .answer .done | .answer .lost =>
    match c.pending with
    | some (.write u) => if (u.effect c.world.mirror).isSome then u.replayed else none
    | _ => none
  | _ => none

/-- How often a run replays a box. -/
def replays {J : Type} (L : LocalChanges) (turn : J → Turn H Unit)
    (c : Config (Request.Answer (H := H)) World) (boxId : String) :
    List (Move Fare L.Change J) → ℕ
  | [] => 0
  | m :: moves =>
    (if replayOf c m = some boxId then 1 else 0) +
      replays L turn ((reconciler L turn).step c m) boxId moves

/-- A station on which nothing but the passes checks a box, and no revision goes down. -/
structure StationChanges extends LocalChanges where
  station : ∀ m c, m.Keyed → StationChange m (change m c)

def AtRevision (boxId : String) (revision : ℤ) (m : Mirror) : Prop :=
  ∃ b ∈ m.boxes, b.boxId = boxId ∧ b.reconciliationRevision = revision

instance (boxId : String) (revision : ℤ) (m : Mirror) : Decidable (AtRevision boxId revision m) :=
  inferInstanceAs (Decidable (∃ b ∈ m.boxes, _ ∧ _))

def Checked (boxId : String) (revision : ℤ) (m : Mirror) : Prop :=
  ∃ b ∈ m.boxes, b.boxId = boxId ∧ b.reconciliationRevision = revision ∧
    b.lastCheckedRevision = revision

theorem Checked.change {boxId : String} {revision : ℤ} (hm : m.Keyed)
    (h : Checked boxId revision m) (hchange : StationChange m m')
    (hat : AtRevision boxId revision m') : Checked boxId revision m' := by
  obtain ⟨b, hb, hid, -, hlast⟩ := h
  obtain ⟨b', hb', hid', hrev'⟩ := hat
  rcases hchange b' hb' with ⟨x, hx, hxid, hxlast, -⟩ | ⟨hnew, -⟩
  · obtain rfl := hm.boxes.eq hx hb (hxid.trans (hid'.trans hid.symm))
    exact ⟨b', hb', hid', hrev', hxlast.symm.trans hlast⟩
  · exact absurd (hid.trans hid'.symm) (hnew b hb)

theorem Checked.effect {boxId : String} {revision : ℤ} {u : Write H}
    (hm : m.Keyed) (h : Checked boxId revision m) (he : u.effect m = some m')
    (hat : AtRevision boxId revision m') : Checked boxId revision m' := by
  obtain ⟨b, hb, hid, hrev, hlast⟩ := h
  obtain ⟨b', hb', hid', hrev'⟩ := hat
  rcases Write.effect_row he hb' with hold | ⟨x, hx, hxid, -, hxlast, -⟩
  · obtain rfl := hm.boxes.eq hold hb (hid'.trans hid.symm)
    exact ⟨b', hb', hid, hrev, hlast⟩
  · obtain rfl := hm.boxes.eq hx hb (hxid.symm.trans (hid'.trans hid.symm))
    exact ⟨b', hb', hid', hrev', hxlast.trans hrev⟩

theorem replay_checks {boxId : String} {revision : ℤ} {u : Write H} (hm : m.Keyed)
    {w : World} (hw : w.mirror = m) (hu : u.Justified True w) (hreplayed : u.replayed = some boxId)
    (he : u.effect m = some m') (hat : AtRevision boxId revision m) :
    ¬Checked boxId revision m ∧ Checked boxId revision m' := by
  subst hw
  have key : ∀ {f : BoxReconciliationFact H} {now : String}, f.boxId = boxId →
      Fresh f.boxId f.revision w.mirror →
      (∃ b ∈ w.mirror.boxes, f.guard w.mirror b = true) →
      m'.boxes = Table.update (f.guard w.mirror) (fun b => b.reopen f.revision now) w.mirror.boxes →
      ¬Checked boxId revision w.mirror ∧ Checked boxId revision m' := by
    intro f now hid hfresh ⟨x, hx, hg⟩ hboxes
    obtain ⟨b, hb, hbid, hrev⟩ := hat
    have hheld := held_of_guard hm hg
    obtain rfl := hm.boxes.eq hx hb (hheld.boxId.trans (hid.trans hbid.symm))
    have hlt := hfresh x hx hheld.boxId hheld.revision.le
    refine ⟨?_, x.reopen f.revision now, ?_, hbid, hrev, ?_⟩
    · rintro ⟨y, hy, hyid, _, hylast⟩
      obtain rfl := hm.boxes.eq hy hx (hyid.trans hbid.symm)
      rw [hylast, ← hheld.revision, hrev] at hlt
      exact lt_irrefl _ hlt
    · rw [hboxes]
      exact Table.mem_update.2 ⟨x, hx, by rw [if_pos hg]⟩
    · exact hheld.revision.symm.trans hrev
  cases u with
  | replay f now rows =>
    rw [Write.effect] at he
    split at he
    · next hone =>
      obtain rfl := Option.some.inj he
      obtain ⟨b, hb, hboth⟩ := List.countP_pos_iff.1 (hone ▸ Nat.one_pos)
      exact key (Option.some.inj hreplayed) (hu.2 trivial)
        ⟨b, hb, (Bool.and_eq_true_iff.1 hboth).1⟩ rfl
    · cases he
  | reclose f now =>
    rw [Write.effect] at he
    split at he
    · next hone =>
      obtain rfl := Option.some.inj he
      obtain ⟨b, hb, hg⟩ := List.countP_pos_iff.1 (hone ▸ Nat.one_pos)
      exact key (Option.some.inj hreplayed) (hu trivial) ⟨b, hb, hg⟩ rfl
    · cases he
  | confirm f now | recordIssue f issue | markChecked f now => cases hreplayed

section

variable {J : Type} {L : LocalChanges} {turn : J → Turn H Unit}

theorem replayOf_effect (turn : J → Turn H Unit)
    {c : Config (Request.Answer (H := H)) World} {fare : Fare}
    {boxId : String} (h : replayOf (O := L.Change) (J := J) c (.answer fare) = some boxId) :
    ∃ u, c.pending = some (.write u) ∧ u.replayed = some boxId ∧
      u.effect c.world.mirror =
        some ((reconciler L turn).step c (.answer fare)).world.mirror := by
  have hwrite : ∀ {u : Write H} {m : Mirror}, c.pending = some (.write u) →
      u.effect c.world.mirror = some m → (fare = .done ∨ fare = .lost) →
      ((reconciler L turn).step c (.answer fare)).world.mirror = m := by
    intro u m hpending he hfare
    obtain ⟨k, hp⟩ := Config.ask_of_pending hpending
    rcases hfare with rfl | rfl
    · have hs : (reconciler L turn).serve c.world (.write u) .done =
          some ((.ok () : Except Failure Unit), { c.world with mirror := m }) := by
        simp only [reconciler, serve, runWrite, he]
      rw [System.step_answer _ hp hs]
    · have hs : (reconciler L turn).serve c.world (.write u) .lost =
          some ((.error .sql : Except Failure Unit), { c.world with mirror := m }) := by
        simp only [reconciler, serve, runWrite, he, Option.getD_some]
      rw [System.step_answer _ hp hs]
  have hboth : replayOf (J := J) c (.answer .done : Move Fare L.Change J) = some boxId ∧
      (fare = .done ∨ fare = .lost) := by
    cases fare with
    | done => exact ⟨h, .inl rfl⟩
    | lost => exact ⟨h, .inr rfl⟩
    | _ => cases h
  obtain ⟨hmatch, hfare⟩ := hboth
  simp only [replayOf] at hmatch
  split at hmatch
  · next u hpending =>
    split at hmatch
    · next hsome =>
      obtain ⟨m, he⟩ := Option.isSome_iff_exists.1 hsome
      exact ⟨u, hpending, hmatch, by rw [hwrite hpending he hfare]; exact he⟩
    · cases hmatch
  · cases hmatch

theorem checked_step (hC : (contract H True).Sound (reconciler L turn))
    {c : Config (Request.Answer (H := H)) World}
    (h : System.Kept (reconciler L turn) (contract H True) c) {boxId : String} {revision : ℤ}
    (hat : AtRevision boxId revision c.world.mirror) (m : Move Fare L.Change J)
    (hat' : AtRevision boxId revision ((reconciler L turn).step c m).world.mirror) :
    (Checked boxId revision c.world.mirror → replayOf c m ≠ some boxId ∧
      Checked boxId revision ((reconciler L turn).step c m).world.mirror) ∧
    (replayOf c m = some boxId →
      Checked boxId revision ((reconciler L turn).step c m).world.mirror) := by
  cases m with
  | outside o =>
    have hchange := (hC.outside c.world o h.1).2.2 trivial
    exact ⟨fun hchecked => ⟨nofun, hchecked.change h.1 hchange hat'⟩, nofun⟩
  | start j => exact ⟨fun hchecked => ⟨nofun, hchecked⟩, nofun⟩
  | answer fare =>
    have hreplay : replayOf (O := L.Change) (J := J) c (.answer fare) = some boxId →
        ¬Checked boxId revision c.world.mirror ∧
          Checked boxId revision ((reconciler L turn).step c (.answer fare)).world.mirror := by
      intro hr
      obtain ⟨u, hpending, hreplayed, he⟩ := replayOf_effect turn hr
      exact replay_checks h.1 rfl (h.pre hpending trivial) hreplayed he hat
    refine ⟨fun hchecked => ⟨fun hr => (hreplay hr).1 hchecked, ?_⟩, fun hr => (hreplay hr).2⟩
    rcases step_mirror L turn c fare with hsame | ⟨u, -, he⟩
    · rw [hsame]
      exact hchecked
    · exact hchecked.effect h.1 he hat'

def Stays (L : LocalChanges) (turn : J → Turn H Unit)
    (c : Config (Request.Answer (H := H)) World) (boxId : String) (revision : ℤ)
    (moves : List (Move Fare L.Change J)) : Prop :=
  ∀ d ∈ (reconciler L turn).trail c moves ++ [(reconciler L turn).run c moves],
    AtRevision boxId revision d.world.mirror

instance (L : LocalChanges) (turn : J → Turn H Unit) (c : Config (Request.Answer (H := H)) World)
    (boxId : String) (revision : ℤ) (moves : List (Move Fare L.Change J)) :
    Decidable (Stays L turn c boxId revision moves) :=
  inferInstanceAs (Decidable (∀ d ∈ (reconciler L turn).trail c moves ++
    [(reconciler L turn).run c moves], AtRevision boxId revision d.world.mirror))

theorem replays_le_one (hC : (contract H True).Sound (reconciler L turn))
    (hturn : ∀ j, (reconciler L turn).Leads (contract H True) (fun _ => True) (turn j)
      fun _ _ => True)
    {c : Config (Request.Answer (H := H)) World}
    (h : System.Kept (reconciler L turn) (contract H True) c) {boxId : String} {revision : ℤ}
    (moves : List (Move Fare L.Change J)) (hstays : Stays L turn c boxId revision moves) :
    replays L turn c boxId moves ≤ 1 ∧
      (Checked boxId revision c.world.mirror → replays L turn c boxId moves = 0) := by
  induction moves generalizing c with
  | nil => exact ⟨Nat.zero_le 1, fun _ => rfl⟩
  | cons m moves ih =>
    have hnext : System.Kept (reconciler L turn) (contract H True)
        ((reconciler L turn).step c m) := kept_run hC hturn h [m]
    have hat : AtRevision boxId revision c.world.mirror := hstays c List.mem_cons_self
    have hrest : Stays L turn ((reconciler L turn).step c m) boxId revision moves :=
      fun d hd => hstays d (List.mem_cons_of_mem _ hd)
    have hat' : AtRevision boxId revision ((reconciler L turn).step c m).world.mirror := by
      cases moves with
      | nil => exact hrest _ (List.mem_singleton_self _)
      | cons m' moves => exact hrest _ List.mem_cons_self
    obtain ⟨hchecked, hreplay⟩ := checked_step hC h hat m hat'
    obtain ⟨hle, hzero⟩ := ih hnext hrest
    rw [replays]
    by_cases hr : replayOf c m = some boxId
    · rw [if_pos hr, hzero (hreplay hr)]
      exact ⟨le_rfl, fun hc => absurd hr (hchecked hc).1⟩
    · rw [if_neg hr, Nat.zero_add]
      exact ⟨hle, fun hc => hzero (hchecked hc).2⟩

end

/-! ## Every run -/

structure PassArgs where
  shiftId : Option String
  limit : ℕ
  checkedBefore : Option String

def PassArgs.turn (a : PassArgs) : Turn H Unit :=
  reconcileBoxes a.shiftId a.limit a.checkedBefore

theorem leads_job {L : LocalChanges} (j : Job H) :
    (reconciler L Job.turn).Leads (contract H False) (fun _ => True) j.turn fun _ _ => True := by
  have hC : (contract H False).Sound (reconciler L Job.turn) := contract_sound fun h => h.elim
  cases j with
  | apply facts results =>
    exact (leads_applyBoxReconciliationResults hC facts results).imp fun _ _ _ => ⟨nofun, trivial⟩
  | pass shiftId limit checkedBefore => exact leads_reconcileBoxes hC shiftId limit checkedBefore

/-- **A pass commits only what the box holds**: with any facts, answers and local changes a box is
confirmed at its revision with the contents of the fact, and a replay is whole or nothing; passes
with their own facts replay a box at most once at one revision. -/
theorem passes_commit_what_is_held (H : Hashing) :
    (∀ (L : LocalChanges) (m : {m : Mirror // m.Keyed}) (moves : List (Move Fare L.Change (Job H)))
      (fare : Fare),
      let c := (reconciler L Job.turn).run (begin m.1) moves
      let c' := (reconciler L Job.turn).step c (.answer fare)
      ConfirmsHeld c c' ∧ ReplaysHeld ((reconciler L Job.turn).trail (begin m.1) moves) c c') ∧
    ∀ (L : StationChanges) (m : {m : Mirror // m.Keyed})
      (moves : List (Move Fare L.Change PassArgs)) (boxId : String) (revision : ℤ),
      Stays (H := H) L.toLocalChanges PassArgs.turn (begin m.1) boxId revision moves →
      replays (H := H) L.toLocalChanges PassArgs.turn (begin m.1) boxId moves ≤ 1 := by
  constructor
  · intro L m moves fare
    have hC : (contract H False).Sound (reconciler L Job.turn) := contract_sound fun h => h.elim
    have hkept := kept_run hC leads_job (kept_begin m) moves
    exact ⟨confirmsHeld_step hkept.1 fare, replaysHeld_step m.1 moves hkept fare⟩
  · intro L m moves boxId revision hstays
    have hC : (contract H True).Sound (reconciler L.toLocalChanges (PassArgs.turn (H := H))) :=
      contract_sound fun _ => L.station
    exact (replays_le_one hC (fun a => leads_reconcileBoxes hC a.shiftId a.limit a.checkedBefore)
      (kept_begin m) moves hstays).1

/-! ## A fact that outlives its pass -/

namespace Sample

def hash : String := "aaaaaaaaaaaaaaaaaaaaaaaaaaaaaaaaaaaaaaaaaaaaaaaaaaaaaaaaaaaaaaaa"

def hashing : Hashing where
  Digest := List String
  decEq := inferInstance
  km _ := hash
  ofLines lines := lines
  injective xs ys d hx hy h := by
    have hsorted : ∀ {zs : List String}, boxMembershipDigestV1 (fun lines => lines) zs = .ok d →
        (h ∈ zs ↔ h ∈ d) := by
      intro zs hz
      unfold boxMembershipDigestV1 at hz
      split at hz
      · obtain rfl := Except.ok.inj hz
        exact (List.mem_insertionSort _).symm
      · exact nomatch hz
    exact (hsorted hx).trans (hsorted hy).symm

def box : BoxRow where
  boxId := "box"
  shiftId := "shift"
  sscc := some "sscc"
  closedAt := some "closed"
  ackedAt := some "acked"
  palletId := none
  disassembledAt := none
  reconciliationRevision := 1
  lastCheckedRevision := 0
  confirmedRevision := 0
  serverReconciledAt := none

def member : MemberRow := ⟨hash, "04006381333931", "abc", "scanned", some "box"⟩

def event : EventRow where
  id := 1
  shiftId := "shift"
  terminalId := none
  raw := encode "010400638133393121abc"
  verdict := "ok"
  scannedAt := "scanned"
  operatorId := none
  codeHash := none
  boxId := none

def mirror : Mirror := ⟨[box], [member], [event], [], []⟩

theorem mirror_keyed : mirror.Keyed := ⟨List.nodup_singleton _, List.nodup_singleton _⟩

def acknowledge (m : Mirror) : Mirror :=
  { m with outbox := [], boxes := m.boxes.map fun b => { b with ackedAt := some "acked" } }

def sent : StationChanges where
  Change := Unit
  change m _ := acknowledge m
  keyed m _ hm := by
    refine ⟨?_, hm.codes⟩
    have hids : (acknowledge m).boxes.map BoxRow.boxId = m.boxes.map BoxRow.boxId := by
      rw [acknowledge, List.map_map]
      rfl
    unfold Table.Unique
    rw [hids]
    exact hm.boxes
  station m _ _ b' hb' := by
    obtain ⟨b, hb, rfl⟩ := List.mem_map.1 hb'
    exact .inl ⟨b, hb, rfl, rfl, le_rfl⟩

def fact : BoxReconciliationFact hashing where
  shiftId := "shift"
  boxId := "box"
  sscc := "sscc"
  closedAt := "closed"
  devicePalletId := none
  itemCount := 1
  membershipDigest := [hash]
  revision := 1
  controlAfterReplay := false
  codeHashes := [hash]
  counted := rfl
  digested := by decide +kernel

def absent : BoxReconciliationResult := ⟨"box", .replayRequired, "box_absent", none⟩

/-- The answers to all that is asked until the replay is committed. -/
def replaying {O J : Type} : List (Move Fare O J) :=
  [.flag true, .done, .flag true, .done, .flag true, .done, .flag true, .done, .flag true,
    .flag true, .evidence [], .flag true, .flag true, .time "now", .done].map .answer

/-- The same fact is applied twice, and its replay is acknowledged in between. -/
def twice : List (Move Fare sent.Change (Job hashing)) :=
  .start (.apply [fact] [absent]) :: replaying ++
    .outside () :: .start (.apply [fact] [absent]) :: replaying

def onePass : List (Move Fare sent.Change PassArgs) :=
  .start ⟨none, 200, none⟩ :: [.done, .flag true, .done, .flag true, .flag true,
    .results [absent], .flag true].map .answer ++ replaying

end Sample

open Sample

/-- A fact that is applied once more after its replay was acknowledged is replayed again. -/
theorem replayed_again :
    Stays sent.toLocalChanges Job.turn (begin mirror) "box" 1 twice ∧
      replays sent.toLocalChanges Job.turn (begin mirror) "box" twice = 2 := by
  decide +kernel

/-- A pass over one box that the server does not know, which it replays. -/
theorem one_pass_replays :
    replays sent.toLocalChanges PassArgs.turn (H := hashing) (begin mirror)
        "box" onePass = 1 ∧
      replays sent.toLocalChanges PassArgs.turn (H := hashing) (begin mirror)
        "box" onePass ≤ 1 :=
  ⟨by decide +kernel, (passes_commit_what_is_held hashing).2 sent
    ⟨mirror, mirror_keyed⟩ onePass "box" 1 (by decide +kernel)⟩

end Markiro.BoxReconciliation
