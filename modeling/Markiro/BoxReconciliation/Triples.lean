import Markiro.BoxReconciliation.Guards

/-!
# The pass, step by step

Every statement that a pass asks for is justified: the rows of a replay are the scans of the members
that were last read, and on a station that only raises revisions a fact without
`controlAfterReplay` is of a box that was not checked at its revision.
-/

namespace Markiro.BoxReconciliation

open Utf16 Processes

variable {H : Hashing}

/-! ## The evidence -/

theorem byHash_mem {boxId : String} {events : List EventRow} {l : List (String × EventRow)}
    (h : byHash (H := H) boxId events = some l) :
    ∀ p ∈ l, p.2 ∈ events ∧ H.kmHash p.2.raw = some p.1 := by
  induction events generalizing l with
  | nil =>
    obtain rfl : [] = l := Option.some.inj h
    exact fun p hp => absurd hp List.not_mem_nil
  | cons event rest ih =>
    have hrest : ∀ {l'}, byHash (H := H) boxId rest = some l' →
        ∀ p ∈ l', p.2 ∈ event :: rest ∧ H.kmHash p.2.raw = some p.1 := fun h' p hp =>
      ⟨List.mem_cons_of_mem _ (ih h' p hp).1, (ih h' p hp).2⟩
    rw [byHash] at h
    split at h
    · exact hrest h
    · next hash hkm =>
      split at h
      · exact nomatch h
      · split at h
        · exact hrest h
        · obtain ⟨l', hl', rfl⟩ := Option.map_eq_some_iff.1 h
          intro p hp
          rcases List.mem_cons.1 hp with rfl | hp
          · exact ⟨List.mem_cons_self, hkm⟩
          · exact hrest hl' p hp

theorem matchMembers_events {events : List (String × EventRow)} {members : List MemberRow}
    {matched : List (MemberRow × EventRow)} (h : matchMembers events members = some matched) :
    List.Forall₂ (fun c m => m.1 = c ∧ (c.codeHash, m.2) ∈ events ∧ m.2.scannedAt = c.scannedAt)
      members matched := by
  induction members generalizing matched with
  | nil =>
    obtain rfl : [] = matched := Option.some.inj h
    exact .nil
  | cons member rest ih =>
    rw [matchMembers] at h
    split at h
    · next e hone =>
      obtain ⟨l, hl, rfl⟩ := Option.map_eq_some_iff.1 h
      have he : e ∈ events.filter fun e =>
          e.1 = member.codeHash ∧ e.2.scannedAt = member.scannedAt := by
        rw [hone]
        exact List.mem_singleton_self e
      obtain ⟨hmem, hboth⟩ := List.mem_filter.1 he
      obtain ⟨hhash, hscanned⟩ := of_decide_eq_true hboth
      exact .cons ⟨rfl, by rw [← hhash]; exact hmem, hscanned⟩ (ih hl)
    · exact nomatch h

theorem perm_codeHashes {f : BoxReconciliationFact H} {members : List MemberRow}
    (h : H.digest (members.map (·.codeHash)) = .ok f.membershipDigest) :
    (members.map (·.codeHash)).Perm f.codeHashes :=
  (List.perm_ext_iff_of_nodup (nodup_of_digest h) (nodup_of_digest f.digested)).2
    (H.injective _ _ _ h f.digested)

theorem isReplay_replayRows {f : BoxReconciliationFact H} {members : List MemberRow}
    {events : List EventRow} {matched : List (MemberRow × EventRow)}
    {evidence : List (String × String)} {rows : List OutboxRow}
    (hbox : ∀ c ∈ members, c.boxId = some f.boxId)
    (hdigest : H.digest (members.map (·.codeHash)) = .ok f.membershipDigest)
    (hok : ∀ e ∈ events, e.verdict = "ok")
    (hmatched : matchEvents (H := H) f.boxId members events = some matched)
    (hrows : replayRows f matched evidence = some rows) : IsReplay f members rows := by
  refine ⟨?_, perm_codeHashes hdigest, hbox⟩
  obtain ⟨found, hfound, hmatch⟩ := Option.bind_eq_some_iff.1 hmatched
  rw [replayRows] at hrows
  split at hrows
  · obtain rfl := Option.some.inj hrows
    rw [List.forall₂_map_right_iff]
    refine (matchMembers_events hmatch).imp fun c m hm => ?_
    obtain ⟨rfl, hmem, hscanned⟩ := hm
    obtain ⟨hevent, hraw⟩ := byHash_mem hfound _ hmem
    exact
      { verdict := hok _ hevent, code := rfl, raw := hraw, scannedAt := hscanned, boxId := rfl }
  · exact nomatch hrows

/-! ## One answer -/

section

variable {J : Type} {L : LocalChanges} {turn : J → Turn H Unit} {strict : Prop}
  (hC : (contract H strict).Sound (reconciler L turn))

/-- `P` is untouched by what a pass writes about the box of `f`. -/
structure Beside (strict : Prop) (f : BoxReconciliationFact H) (P : Mirror → Prop) : Prop where
  steady : Steady strict P
  effect : ∀ u : Write H, u.boxId = f.boxId → ∀ m m', P m → u.effect m = some m' → P m'

def Ready (f : BoxReconciliationFact H) (m : Mirror) : Prop :=
  f.controlAfterReplay = false → Fresh f.boxId f.revision m

theorem Ready.change {f : BoxReconciliationFact H} {m m' : Mirror} (h : Ready f m)
    (hm : StationChange m m') : Ready f m' := fun hc => (h hc).change hm

def WithReady (strict : Prop) (f : BoxReconciliationFact H) (P : Mirror → Prop)
    (m : Mirror) : Prop := P m ∧ (strict → Ready f m)

theorem Steady.withReady {P : Mirror → Prop} (hP : Steady strict P)
    (f : BoxReconciliationFact H) : Steady strict (WithReady strict f P) :=
  fun _ _ hm h => ⟨hP _ _ hm h.1, fun hs => (h.2 hs).change (hm hs)⟩

include hC

theorem leads_reconstructBox {P : Mirror → Prop} (hP : Steady strict P)
    (f : BoxReconciliationFact H) :
    (reconciler L turn).Leads (contract H strict) (Known P fun _ => True) (reconstructBox f)
      fun replay => Known P fun noted => ∀ rows, replay = some rows → IsReplay f noted rows := by
  have hnone : ∀ {X : List MemberRow → Prop}, (reconciler L turn).Leads (contract H strict)
      (Known P X) (pure none : Turn H (Option (List OutboxRow)))
      fun replay => Known P fun noted => ∀ rows, replay = some rows → IsReplay f noted rows :=
    System.Leads.pure (hP.stable _) fun w _ h => ⟨h.1, nofun⟩
  refine System.Leads.bind hC (leads_readMembers hC hP f.boxId) fun members => ?_
  refine leads_whileCurrent hC hP ?_ (hP.stable _) fun w h => ⟨h.1, nofun⟩
  split
  · exact hnone
  · refine System.Leads.bind hC (leads_membersDigest hP members) fun d => ?_
    split
    · exact hnone
    · next hd =>
      obtain rfl : d = f.membershipDigest := not_not.1 hd
      refine System.Leads.bind hC (leads_events hC hP _ _) fun events => ?_
      refine leads_whileCurrent hC hP ?_ (hP.stable _) fun w h => ⟨h.1, nofun⟩
      split
      · exact hnone
      · next matched hmatched =>
        refine leads_whileCurrent hC hP ?_ (hP.stable _) fun w h => ⟨h.1, nofun⟩
        refine System.Leads.bind hC (leads_grantEvidence hC hP f matched) fun evidence => ?_
        refine leads_whileCurrent hC hP ?_ (hP.stable _) fun w h => ⟨h.1, nofun⟩
        refine System.Leads.pure (hP.stable _) fun w _ h => ⟨h.1, fun rows hrows => ?_⟩
        obtain ⟨⟨⟨hnoted, hbox⟩, hdigest⟩, hok⟩ := h.2
        rw [hnoted]
        exact isReplay_replayRows hbox hdigest hok hmatched hrows

omit hC in
theorem leads_true {P : Mirror → Prop} (hP : Steady strict P) {X : List MemberRow → Prop}
    {α : Type} (a : α) :
    (reconciler L turn).Leads (contract H strict) (Known P X) (pure a : Turn H α)
      fun _ => Known P fun _ => True :=
  System.Leads.pure (hP.stable _) fun _ _ h => ⟨h.1, trivial⟩

variable {f : BoxReconciliationFact H} {P : Mirror → Prop} (hP : Beside strict f P)
include hP

theorem leads_reportIssue (result : BoxReconciliationResult) (status reasonCode : String)
    {X : List MemberRow → Prop} :
    (reconciler L turn).Leads (contract H strict) (Known (WithReady strict f P) X)
      (reportIssue f result status reasonCode) fun _ => Known P fun _ => True := by
  have hsteady := hP.steady
  refine System.Leads.imp ?_ fun w _ h => (⟨h.1.1, h.2⟩ : Known P X w)
  refine System.Leads.bind hC (leads_now hC hsteady) fun checkedAt => ?_
  refine System.Leads.bind hC (leads_write hC hsteady hsteady _ (fun _ _ => trivial)
    fun m m' h hm => hP.effect (.recordIssue f _) rfl m m' h hm) fun _ => ?_
  refine System.Leads.bind hC (leads_now hC hsteady) fun reconciledAt => ?_
  refine System.Leads.bind hC (leads_write hC hsteady hsteady _ (fun _ _ => trivial)
    fun m m' h hm => hP.effect (.markChecked f _) rfl m m' h hm) fun _ => ?_
  exact leads_true hsteady true

theorem leads_replayBox (hcontrol : f.controlAfterReplay = false)
    (result : BoxReconciliationResult) :
    (reconciler L turn).Leads (contract H strict)
      (Known (WithReady strict f P) fun _ => True) (replayBox f result)
      fun _ => Known P fun _ => True := by
  have hready := hP.steady.withReady f
  refine System.Leads.bind hC (leads_reconstructBox hC hready f) fun replay => ?_
  refine leads_whileCurrent hC hready ?_ (hP.steady.stable _) fun w h => ⟨h.1.1, trivial⟩
  cases replay with
  | none => exact leads_reportIssue hC hP result _ _
  | some rows =>
    refine System.Leads.bind hC (leads_now hC hready) fun reconciledAt => ?_
    refine System.Leads.bind hC (leads_write hC hready hP.steady _
      (fun w h => ⟨h.2 rows rfl, fun hs => h.1.2 hs hcontrol⟩)
      fun m m' h hm => hP.effect (.replay f _ rows) rfl m m' h.1 hm) fun _ => ?_
    exact leads_true hP.steady true

theorem leads_settle (result : BoxReconciliationResult) {X : List MemberRow → Prop} :
    (reconciler L turn).Leads (contract H strict) (Known (WithReady strict f P) X)
      (settle f result) fun _ => Known P fun _ => True := by
  have hready := hP.steady.withReady f
  unfold settle
  cases result.status with
  | confirmed =>
    refine System.Leads.bind hC (leads_now hC hready) fun reconciledAt => ?_
    refine System.Leads.bind hC (leads_write hC hready hP.steady _ (fun _ _ => trivial)
      fun m m' h hm => hP.effect (.confirm f _) rfl m m' h.1 hm) fun _ => ?_
    exact leads_true hP.steady true
  | contentMismatch | identityConflict => exact leads_reportIssue hC hP result _ _
  | replayRequired =>
    cases hcontrol : f.controlAfterReplay with
    | true => exact leads_reportIssue hC hP result _ _
    | false =>
      simp only [Bool.false_eq_true, if_false]
      split
      · exact (leads_replayBox hC hP hcontrol result).imp fun w _ h => ⟨h.1, trivial⟩
      · split
        · refine System.Leads.bind hC (leads_now hC hready) fun reconciledAt => ?_
          refine System.Leads.bind hC (leads_write hC hready hP.steady _
            (fun w h hs => h.1.2 hs hcontrol)
            fun m m' h hm => hP.effect (.reclose f _) rfl m m' h.1 hm) fun _ => ?_
          exact leads_true hP.steady true
        · exact leads_reportIssue hC hP result _ _

theorem leads_applyResult (result : BoxReconciliationResult) :
    (reconciler L turn).Leads (contract H strict)
      (Known (WithReady strict f P) fun _ => True) (applyResult f result)
      fun _ => Known P fun _ => True := by
  have hready := hP.steady.withReady f
  have hstop : ∀ w {X : List MemberRow → Prop}, Known (WithReady strict f P) X w →
      Known P (fun _ => True) w := fun w _ h => ⟨h.1.1, trivial⟩
  have hskip : ∀ {X : List MemberRow → Prop}, (reconciler L turn).Leads (contract H strict)
      (Known (WithReady strict f P) X) (pure true : Turn H Bool)
      fun _ => Known P fun _ => True :=
    System.Leads.pure (hP.steady.stable _) fun w _ h => hstop w h
  refine leads_whileCurrent hC hready ?_ (hP.steady.stable _) fun w h => hstop w h
  refine System.Leads.bind hC (leads_current hC hready _ _) fun row => ?_
  refine leads_whileCurrent hC hready ?_ (hP.steady.stable _) fun w h => hstop w h
  split
  · exact hskip
  · refine System.Leads.bind hC (leads_readMembers hC hready _) fun members => ?_
    refine leads_whileCurrent hC hready ?_ (hP.steady.stable _) fun w h => hstop w h
    refine System.Leads.bind hC (leads_membersDigest hready members) fun d => ?_
    split
    · exact hskip
    · exact leads_settle hC hP result

end

/-! ## All answers -/

section

variable {J : Type} {L : LocalChanges} {turn : J → Turn H Unit} {strict : Prop}
  (hC : (contract H strict).Sound (reconciler L turn))

def AllReady (strict : Prop) (facts : List (BoxReconciliationFact H)) (m : Mirror) : Prop :=
  strict → (facts.map (·.boxId)).Nodup ∧ ∀ f ∈ facts, Ready f m

theorem AllReady.steady (facts : List (BoxReconciliationFact H)) :
    Steady strict (AllReady strict facts) :=
  fun _ _ hm h hs => ⟨(h hs).1, fun f hf => ((h hs).2 f hf).change (hm hs)⟩

theorem AllReady.beside {f : BoxReconciliationFact H} {facts : List (BoxReconciliationFact H)}
    (hne : strict → ∀ g ∈ facts, g.boxId ≠ f.boxId) :
    Beside strict f (AllReady strict facts) where
  steady := AllReady.steady facts
  effect u hu m m' h hm hs :=
    ⟨(h hs).1, fun g hg hc => Write.effect_fresh hm (by rw [hu]; exact hne hs g hg)
      ((h hs).2 g hg hc)⟩

include hC

theorem leads_applyNext (next : BoxReconciliationFact H × BoxReconciliationResult)
    (rest : List (BoxReconciliationFact H × BoxReconciliationResult)) (going : Bool) :
    (reconciler L turn).Leads (contract H strict)
      (Known (AllReady strict ((next :: rest).map (·.1))) fun _ => True) (applyNext going next)
      fun _ => Known (AllReady strict (rest.map (·.1))) fun _ => True := by
  have htail : ∀ w : World, Known (AllReady strict ((next :: rest).map (·.1))) (fun _ => True) w →
      Known (AllReady strict (rest.map (·.1))) (fun _ => True) w := fun w h =>
    ⟨fun hs => ⟨(List.nodup_cons.1 (h.1 hs).1).2, fun g hg =>
      (h.1 hs).2 g (List.mem_cons_of_mem _ hg)⟩, trivial⟩
  cases going with
  | false => exact System.Leads.pure ((AllReady.steady _).stable _) fun w _ h => htail w h
  | true =>
    by_cases hne : strict → ∀ g ∈ rest.map (·.1), g.boxId ≠ next.1.boxId
    · exact (leads_applyResult hC (AllReady.beside hne) next.2).imp fun w _ h =>
        ⟨⟨(htail w h).1, fun hs => (h.1 hs).2 _ List.mem_cons_self⟩, trivial⟩
    · -- two facts of one box contradict what is known
      intro w _ h
      obtain ⟨hs, hall⟩ := Classical.not_imp.1 hne
      push Not at hall
      obtain ⟨g, hg, hid⟩ := hall
      refine absurd (List.mem_map.2 ⟨g, hg, hid⟩) ?_
      have hnodup := (h.1 hs).1
      rw [List.map_cons, List.map_cons] at hnodup
      exact (List.nodup_cons.1 hnodup).1

theorem leads_applyBoxReconciliationResults (facts : List (BoxReconciliationFact H))
    (results : List BoxReconciliationResult) :
    (reconciler L turn).Leads (contract H strict)
      (Known (fun m => strict → ∀ f ∈ facts, Ready f m) fun _ => True)
      (applyBoxReconciliationResults facts results) fun _ _ => True := by
  have hsteady : Steady strict (AllReady strict ((facts.zip results).map (·.1))) :=
    AllReady.steady _
  have hempty : Steady strict (AllReady strict (([] : List (BoxReconciliationFact H ×
      BoxReconciliationResult)).map (·.1))) := AllReady.steady _
  have hrequire : (reconciler L turn).Leads (contract H strict)
      (Known (fun m => strict → ∀ f ∈ facts, Ready f m) fun _ => True)
      (Fallible.require (facts.length = results.length ∧ (results.map (·.boxId)).Nodup ∧
        facts.map (·.boxId) = results.map (·.boxId)) .incomplete : Turn H Unit)
      fun _ => Known (AllReady strict ((facts.zip results).map (·.1))) fun _ => True := by
    refine System.Leads.require (hsteady.stable _) fun w _ h hb => ?_
    obtain ⟨hlength, hnodup, hids⟩ := of_decide_eq_true hb
    rw [List.map_fst_zip hlength.le]
    exact ⟨fun hs => ⟨by rw [hids]; exact hnodup, h.1 hs⟩, trivial⟩
  refine System.Leads.bind hC hrequire fun _ => ?_
  refine System.Leads.bind hC (System.Leads.foldl hC
    (fun rest _ => Known (AllReady strict (rest.map (·.1))) fun _ => True)
    (fun _ => hempty.stable _) (fun next rest going => leads_applyNext hC next rest going)
    (facts.zip results) true) fun _ => ?_
  exact System.Leads.pure (fun _ _ _ _ _ => trivial) fun _ _ _ => trivial

end

end Markiro.BoxReconciliation
