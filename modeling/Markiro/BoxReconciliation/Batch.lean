import Markiro.BoxReconciliation.Triples

/-!
# The batch of a pass

`readBoxReconciliationBatch` takes a box whose last replay is still to be controlled with
`controlAfterReplay`, and any other box only when it was not checked at its revision, which local
changes of a station do not undo. All answers of a batch are then applied as they should be.
-/

namespace Markiro.BoxReconciliation

open Utf16 Processes

variable {H : Hashing}

section

variable {J : Type} {L : LocalChanges} {turn : J → Turn H Unit} {strict : Prop}
  (hC : (contract H strict).Sound (reconciler L turn))

/-- A box that was read as due is not checked at its revision, unless a replay is being controlled. -/
def DueBox.Ready (row : DueBox) (m : Mirror) : Prop :=
  ¬(row.reconciliationRevision ≤ row.lastCheckedRevision ∧
    row.confirmedRevision < row.reconciliationRevision) →
    Fresh row.boxId row.reconciliationRevision m

theorem BoxRow.due?_eq {b : BoxRow} {row : DueBox} (h : b.due? = some row) :
    row.boxId = b.boxId ∧ row.reconciliationRevision = b.reconciliationRevision ∧
      row.lastCheckedRevision = b.lastCheckedRevision ∧
      row.confirmedRevision = b.confirmedRevision := by
  unfold due? at h
  obtain ⟨sscc, -, h⟩ := Option.bind_eq_some_iff.1 h
  obtain ⟨closedAt, -, h⟩ := Option.bind_eq_some_iff.1 h
  obtain rfl := Option.some.inj h
  exact ⟨rfl, rfl, rfl, rfl⟩

theorem Mirror.due_ready {m : Mirror} (hm : m.Keyed) {shiftId checkedBefore : Option String}
    {limit : ℕ} {row : DueBox} (h : row ∈ m.due shiftId checkedBefore limit) : row.Ready m := by
  obtain ⟨b, hb, hrow⟩ := List.mem_filterMap.1 (List.mem_of_mem_take h)
  obtain ⟨hmem, hdue⟩ := List.mem_filter.1 hb
  obtain ⟨hid, hrev, hlast, hconf⟩ := BoxRow.due?_eq hrow
  intro hcontrol b' hb' hid' _
  obtain rfl : b' = b := hm.boxes.eq hb' hmem (hid'.trans hid)
  obtain ⟨-, -, hwhen, -⟩ := of_decide_eq_true hdue
  rw [hrev, hlast, hconf] at hcontrol
  rw [hrev]
  rcases hwhen with hlt | ⟨hlt, -⟩ | ⟨hlt, -⟩
  · exact hlt
  · exact not_le.1 fun hle => hcontrol ⟨hle, hlt⟩
  · exact not_le.1 fun hle => hcontrol ⟨hle, hlt⟩

theorem factOf_ready {row : DueBox} {members : List MemberRow} {f : BoxReconciliationFact H}
    (h : factOf row members = .ok f) {m : Mirror} (hrow : row.Ready m) : Ready f m := by
  unfold factOf at h
  split at h
  · exact nomatch h
  · obtain rfl := Except.ok.inj h
    exact fun hcontrol => hrow (of_decide_eq_false hcontrol)

def BatchReady (strict : Prop) (rows : List DueBox)
    (facts : Option (List (BoxReconciliationFact H))) (m : Mirror) : Prop :=
  strict → (∀ row ∈ rows, row.Ready m) ∧ ∀ fs, facts = some fs → ∀ f ∈ fs, Ready f m

theorem BatchReady.steady (rows : List DueBox)
    (facts : Option (List (BoxReconciliationFact H))) :
    Steady strict (BatchReady strict rows facts) :=
  fun _ _ hm h hs => ⟨fun row hrow hc => ((h hs).1 row hrow hc).change (hm hs),
    fun fs hfs f hf => ((h hs).2 fs hfs f hf).change (hm hs)⟩

include hC

theorem leads_readFact {P : Mirror → Prop} (hP : Steady strict P) (row : DueBox)
    (hrow : ∀ m, P m → strict → row.Ready m) :
    (reconciler L turn).Leads (contract H strict) (Known P fun _ => True) (readFact row)
      fun fact => Known (fun m => P m ∧ (strict → ∀ f, fact = some f → Ready f m))
        fun _ => True := by
  have hpost : ∀ fact : Option (BoxReconciliationFact H),
      Steady strict fun m => P m ∧ (strict → ∀ f, fact = some f → Ready f m) :=
    fun fact m m' hm h => ⟨hP _ _ hm h.1, fun hs f hf => (h.2 hs f hf).change (hm hs)⟩
  have hnone : ∀ w {X : List MemberRow → Prop}, Known P X w →
      Known (fun m => P m ∧ (strict → ∀ f : BoxReconciliationFact H, none = some f → Ready f m))
        (fun _ => True) w := fun w _ h => ⟨⟨h.1, nofun⟩, trivial⟩
  refine leads_whileCurrent hC hP ?_ ((hpost none).stable _) fun w h => hnone w h
  refine System.Leads.bind hC (leads_readMembers hC hP _) fun members => ?_
  refine leads_whileCurrent hC hP ?_ ((hpost none).stable _) fun w h => hnone w h
  have hfact : (reconciler L turn).Leads (contract H strict)
      (Known P fun noted => noted = members ∧ ∀ c ∈ members, c.boxId = some row.boxId)
      (Fallible.ofExcept (factOf row members) : Turn H (BoxReconciliationFact H))
      fun fact => Known (fun m => P m ∧ (strict → ∀ f, some fact = some f → Ready f m))
        fun _ => True := by
    refine System.Leads.ofExcept (fun fact => (hpost (some fact)).stable _)
      fun w _ h fact hf => ⟨⟨h.1, fun hs f he => ?_⟩, trivial⟩
    obtain rfl : fact = f := Option.some.inj he
    exact factOf_ready hf (hrow _ h.1 hs)
  exact System.Leads.bind hC hfact fun fact =>
    System.Leads.pure ((hpost (some fact)).stable _) fun w _ h => h

theorem leads_readNextFact (row : DueBox) (rest : List DueBox)
    (facts : Option (List (BoxReconciliationFact H))) :
    (reconciler L turn).Leads (contract H strict)
      (Known (BatchReady strict (row :: rest) facts) fun _ => True) (readNextFact facts row)
      fun facts => Known (BatchReady strict rest facts) fun _ => True := by
  have hrest : ∀ {m}, BatchReady strict (row :: rest) facts m → strict →
      ∀ r ∈ rest, r.Ready m := fun h hs r hr => (h hs).1 r (List.mem_cons_of_mem _ hr)
  cases facts with
  | none =>
    exact System.Leads.pure ((BatchReady.steady rest none).stable _) fun w _ h =>
      ⟨fun hs => ⟨hrest h.1 hs, nofun⟩, trivial⟩
  | some facts =>
    refine System.Leads.bind hC (leads_readFact hC (BatchReady.steady _ _) row
      fun m h hs => (h hs).1 row List.mem_cons_self) fun fact => ?_
    refine System.Leads.pure ((BatchReady.steady rest _).stable _) fun w _ h =>
      ⟨fun hs => ⟨hrest h.1.1 hs, fun fs hfs f hf => ?_⟩, trivial⟩
    obtain ⟨fact', hfact', rfl⟩ := Option.map_eq_some_iff.1 hfs
    rcases List.mem_append.1 hf with hf | hf
    · exact (h.1.1 hs).2 facts rfl f hf
    · obtain rfl : f = fact' := List.mem_singleton.1 hf
      exact h.1.2 hs f hfact'

theorem leads_due (shiftId checkedBefore : Option String) (limit : ℕ) :
    (reconciler L turn).Leads (contract H strict) (Known (fun _ => True) fun _ => True)
      (Fallible.ofProcess (Process.request (Request.due shiftId checkedBefore limit)))
      fun rows => Known (BatchReady strict rows (some ([] : List (BoxReconciliationFact H))))
        fun _ => True :=
  System.Holds.request hC (fun _ _ _ _ h => h)
    (fun _ => Contract.Stable.forall fun _ => Contract.Stable.imp fun _ =>
      (BatchReady.steady _ _).stable _)
    fun w hw _ _ => ⟨trivial, fun fare a w' hs rows ha => by
      rcases readWith_world hs with ⟨rfl, hok⟩ | ⟨-, hbad⟩
      · obtain rfl : w'.mirror.due shiftId checkedBefore limit = rows :=
          Except.ok.inj (hok.symm.trans ha)
        refine ⟨fun _ => ⟨fun row hrow => Mirror.due_ready hw hrow, fun fs hfs f hf => ?_⟩, trivial⟩
        obtain rfl : [] = fs := Option.some.inj hfs
        exact absurd hf List.not_mem_nil
      · exact nomatch hbad.symm.trans ha⟩

theorem leads_readBoxReconciliationBatch (shiftId : Option String) (limit : ℕ)
    (checkedBefore : Option String) :
    (reconciler L turn).Leads (contract H strict) (fun _ => True)
      (readBoxReconciliationBatch shiftId limit checkedBefore)
      fun facts => Known (fun m => strict → ∀ f ∈ facts, Ready f m) fun _ => True := by
  refine System.Leads.bind hC (System.Leads.require (B := fun _ => Known (fun _ => True)
    fun _ => True) (fun _ _ _ _ h => h) fun _ _ _ _ => ⟨trivial, trivial⟩) fun _ => ?_
  refine System.Leads.bind hC (leads_due hC shiftId checkedBefore limit) fun rows => ?_
  refine System.Leads.bind hC (System.Leads.foldl hC
    (fun rest facts => Known (BatchReady strict rest facts) fun _ => True)
    (fun facts => (BatchReady.steady [] facts).stable _)
    (fun row rest facts => leads_readNextFact hC row rest facts) rows (some [])) fun facts => ?_
  have hsteady : Steady strict fun m => strict → ∀ f ∈ facts.getD [], Ready f m :=
    fun m m' hm h hs f hf => (h hs f hf).change (hm hs)
  refine System.Leads.pure (hsteady.stable _) fun w _ h => ⟨fun hs f hf => ?_, trivial⟩
  cases facts with
  | none => exact absurd hf List.not_mem_nil
  | some fs => exact (h.1 hs).2 fs rfl f hf

theorem leads_reconcileBoxes (shiftId : Option String) (limit : ℕ)
    (checkedBefore : Option String) :
    (reconciler L turn).Leads (contract H strict) (fun _ => True)
      (reconcileBoxes shiftId limit checkedBefore) fun _ _ => True := by
  have hdone : (contract H strict).Stable fun _ => True := fun _ _ _ _ h => h
  refine System.Leads.bind hC
    (leads_readBoxReconciliationBatch hC shiftId limit checkedBefore) fun facts => ?_
  have hsteady : Steady strict fun m => strict → ∀ f ∈ facts, Ready f m :=
    fun m m' hm h hs f hf => (h hs f hf).change (hm hs)
  split
  · exact System.Leads.pure hdone fun _ _ _ => trivial
  · refine leads_whileCurrent hC hsteady ?_ hdone fun _ _ => trivial
    refine System.Leads.bind hC (leads_submit hC hsteady facts) fun results => ?_
    exact leads_whileCurrent hC hsteady (leads_applyBoxReconciliationResults hC facts results)
      hdone fun _ _ => trivial

end

end Markiro.BoxReconciliation
