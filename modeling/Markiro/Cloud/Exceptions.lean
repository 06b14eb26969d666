import Markiro.Cloud.Membership

/-!
# Closures, exceptions and reclaimed codes

The parts of a batch after its scans. A closure and a reprint touch no membership; an undo, a clear
and a disassembly end live rows and release the registry rows behind them; at last the codes that
the batch's own exceptions released go to the earliest scan of the batch they left standing.
-/

namespace Markiro.Cloud

/-! ## Closures -/

section Exceptions

variable {srv : Server} {now : ℤ} {terminal : String} {t : Tables}

theorem boxAt_map {f : BoxRow → BoxRow} (hf : ∀ row, (f row).key = row.key) (boxes : List BoxRow)
    (key : BoxKey) : boxAt (boxes.map f) key = (boxAt boxes key).map f := by
  rw [boxAt, List.find?_map, boxAt]
  congr 2
  funext row
  simp [hf]

/-- A change of the boxes that takes none apart. -/
theorem Tables.Sound.mapBoxes {f : BoxRow → BoxRow} (ht : t.Sound)
    (hf : ∀ row, (f row).key = row.key)
    (hd : ∀ row h addedAt, liveAt t.boxItems row.key h = some addedAt → row.disassembledAt = none →
      (f row).disassembledAt = none) :
    Tables.Sound { t with boxes := t.boxes.map f } where
  unique := by
    have hu : (t.boxes.map f).map (·.key) = t.boxes.map (·.key) := by
      rw [List.map_map]
      exact List.map_congr_left fun row _ => hf row
    rw [Table.Unique, hu]
    exact ht.unique
  owned := ht.owned
  standing {box h addedAt} hl := by
    obtain ⟨row, hb, hrow⟩ := ht.standing hl
    refine ⟨f row, by rw [boxAt_map hf, hb]; rfl, hd row h addedAt ?_ hrow⟩
    rwa [(boxAt_mem hb).2]
  single := ht.single

theorem applyClosure_sound (ht : t.Sound) (closure : BoxClosure) :
    (applyClosure terminal t closure).Sound := by
  refine ht.mapBoxes (fun row => ?_) (fun row _ _ _ hd => ?_)
  · split <;> rfl
  · split <;> exact hd

theorem applyClosures_sound (ht : t.Sound) (closures : List BoxClosure) :
    (applyClosures srv terminal closures t).Sound := by
  rw [applyClosures]
  generalize sortClosures srv closures = sorted
  induction sorted generalizing t with
  | nil => exact ht
  | cons c sorted ih => exact ih (applyClosure_sound ht c)

/-! ## Exceptions -/

section Empty

variable {key : BoxKey} {occurredAt : Option ℤ} {box : BoxKey} {h : String} {addedAt : ℤ}

theorem emptyBox_boxItems : (emptyBox now key occurredAt t).boxItems =
    removeWhere now (fun box _ addedAt => box == key && reachedBy occurredAt addedAt) t.boxItems :=
  rfl

theorem liveAt_emptyBox : liveAt (emptyBox now key occurredAt t).boxItems box h = some addedAt ↔
    liveAt t.boxItems box h = some addedAt ∧ ¬
    (box = key ∧ reachedBy occurredAt addedAt = true) := by
  rw [emptyBox_boxItems, liveAt_removeWhere_eq_some]
  refine and_congr_right fun _ => ?_
  rw [← Bool.not_eq_true, Bool.and_eq_true, beq_iff_eq]

theorem emptyBox_registry {scan : Scan} :
    (emptyBox now key occurredAt t).codeRegistry h = some scan ↔
      t.codeRegistry h = some scan ∧ ∀ addedAt, liveAt t.boxItems key h = some addedAt →
        reachedBy occurredAt addedAt = true → scan ≠ ⟨key.shiftId, key.terminalId, addedAt⟩ := by
  dsimp only [emptyBox]
  cases hi : t.boxItems key h with
  | none => simp [liveAt, hi]
  | some row =>
    by_cases hl : row.live = true
    · have hlive : liveAt t.boxItems key h = some row.addedAt := liveAt_eq_some.2 ⟨row, hi, hl, rfl⟩
      by_cases hr : reachedBy occurredAt row.addedAt = true
      · simp only [hl, hr, Bool.and_self, if_true, releaseCode_eq_some, true_and, hlive,
          Option.some.injEq]
        refine and_congr_right fun _ => ⟨?_, ?_⟩
        · rintro hne _ rfl _
          exact hne
        · intro hne
          exact hne _ rfl hr
      · simp only [hl, hr, Bool.and_false, hlive, Option.some.injEq]
        simp [hr]
    · simp only [hl, Bool.false_and]
      have hlive : liveAt t.boxItems key h = none := by simp [liveAt, hi, hl]
      simp [hlive]

theorem emptyBox_sound (ht : t.Sound) : (emptyBox now key occurredAt t).Sound where
  unique := ht.unique
  owned {box h addedAt} hl := by
    obtain ⟨hl, hkeep⟩ := liveAt_emptyBox.1 hl
    refine emptyBox_registry.2 ⟨ht.owned hl, fun addedAt' hl' hr hscan => ?_⟩
    obtain rfl := ht.single hl hl'
    cases hscan
    exact hkeep ⟨rfl, hr⟩
  standing hl := ht.standing (liveAt_emptyBox.1 hl).1
  single hl hl' := ht.single (liveAt_emptyBox.1 hl).1 (liveAt_emptyBox.1 hl').1

theorem retireBox_sound {at' : ℤ} (ht : t.Sound) (hno : ∀ h, liveAt t.boxItems key h = none) :
    (retireBox key at' t).Sound := by
  refine ht.mapBoxes (fun row => ?_) (fun row h addedAt hl hd => ?_)
  · split <;> rfl
  · rw [if_neg]
    · exact hd
    · rintro ⟨rfl, -⟩
      rw [hno] at hl
      cases hl

theorem undoScan_boxItems {codeHash : String} {target : ℤ} :
    (undoScan now key codeHash target t).boxItems = removeWhere now
      (fun box h addedAt => box == key && h == codeHash && addedAt == target) t.boxItems :=
  rfl

theorem liveAt_undoScan {codeHash : String} {target : ℤ} :
    liveAt (undoScan now key codeHash target t).boxItems box h = some addedAt ↔
      liveAt t.boxItems box h = some addedAt ∧ ¬ (box = key ∧ h = codeHash ∧ addedAt = target) := by
  rw [undoScan_boxItems, liveAt_removeWhere_eq_some]
  refine and_congr_right fun _ => ?_
  rw [← Bool.not_eq_true, Bool.and_eq_true, Bool.and_eq_true, beq_iff_eq, beq_iff_eq, beq_iff_eq,
    and_assoc]

theorem undoScan_sound {codeHash : String} {target : ℤ} (ht : t.Sound)
    (haim : ∀ box, liveAt t.boxItems box codeHash = some target → box.shiftId = key.shiftId →
      box.terminalId = key.terminalId → box = key) :
    (undoScan now key codeHash target t).Sound where
  unique := ht.unique
  owned {box h addedAt} hl := by
    obtain ⟨hlive, hkeep⟩ := liveAt_undoScan.1 hl
    refine releaseCode_eq_some.2 ⟨ht.owned hlive, ?_⟩
    rintro ⟨rfl, hscan⟩
    simp only [Scan.mk.injEq] at hscan
    obtain ⟨hs, hterm, rfl⟩ := hscan
    exact hkeep ⟨haim _ hlive hs hterm, rfl, rfl⟩
  standing hl := ht.standing (liveAt_undoScan.1 hl).1
  single hl hl' := ht.single (liveAt_undoScan.1 hl).1 (liveAt_undoScan.1 hl').1

end Empty

variable {ex : ExceptionFact}

/-- The undo releases a scan whose live row, if any, is in the box it names. -/
def UndoAims (t : Tables) (terminal : String) (ex : ExceptionFact) : Prop :=
  ex.kind = .undo → boxAt t.boxes (ex.boxKey terminal) ≠ none →
    ∀ codeHash ∈ ex.codeHash, ∀ target ∈ ex.targetScannedAt, ∀ box : BoxKey,
      liveAt t.boxItems box codeHash = some target → box.shiftId = ex.shiftId →
        box.terminalId = some terminal → box = ex.boxKey terminal

theorem applyException_cases (now : ℤ) (terminal : String) (t : Tables) (ex : ExceptionFact) :
    applyException now terminal t ex = t ∨
    (∃ row codeHash target, boxAt t.boxes (ex.boxKey terminal) = some row ∧ ex.kind = .undo ∧
      ex.codeHash = some codeHash ∧ ex.targetScannedAt = some target ∧
      applyException now terminal t ex = undoScan now (ex.boxKey terminal) codeHash target t) ∨
    (∃ row, boxAt t.boxes (ex.boxKey terminal) = some row ∧ ex.kind = .clear ∧
      row.disassembledAt = none ∧ (∀ closedAt ∈ row.closedAt, ex.occurredAt ≤ closedAt) ∧
      applyException now terminal t ex =
        emptyBox now (ex.boxKey terminal) (some ex.occurredAt) t) ∨
    (∃ row, boxAt t.boxes (ex.boxKey terminal) = some row ∧ ex.kind = .disassemble ∧
      row.closedAt ≠ none ∧ row.disassembledAt = none ∧
      applyException now terminal t ex = retireBox (ex.boxKey terminal) ex.occurredAt
        (emptyBox now (ex.boxKey terminal) none t)) := by
  rw [applyException]
  cases hb : boxAt t.boxes (ex.boxKey terminal) with
  | none => exact .inl rfl
  | some row =>
    cases hk : ex.kind with
    | reprint => exact .inl rfl
    | undo =>
      cases hc : ex.codeHash with
      | none => exact .inl rfl
      | some codeHash =>
        cases hg : ex.targetScannedAt with
        | none => exact .inl rfl
        | some target => exact .inr (.inl ⟨row, codeHash, target, rfl, rfl, rfl, rfl, rfl⟩)
    | clear =>
      simp only
      split
      case isTrue hcl => exact .inr (.inr (.inl ⟨row, rfl, trivial, hcl.1, hcl.2, rfl⟩))
      case isFalse => exact .inl rfl
    | disassemble =>
      simp only
      split
      case isTrue hcl => exact .inr (.inr (.inr ⟨row, rfl, trivial, hcl.1, hcl.2, rfl⟩))
      case isFalse => exact .inl rfl

theorem applyException_sound (ht : t.Sound) (haim : UndoAims t terminal ex) :
    (applyException now terminal t ex).Sound := by
  obtain h | ⟨row, codeHash, target, hb, hk, hc, hg, h⟩ | ⟨row, -, -, -, -, h⟩ |
    ⟨row, -, -, -, -, h⟩ := applyException_cases now terminal t ex
  · rw [h]
    exact ht
  · rw [h]
    exact undoScan_sound ht fun box hl hs hterm =>
      haim hk (by rw [hb]; exact Option.some_ne_none row) codeHash (by rw [hc]; rfl) target
        (by rw [hg]; rfl) box hl hs hterm
  · rw [h]
    exact emptyBox_sound ht
  · rw [h]
    refine retireBox_sound (emptyBox_sound ht) fun h => ?_
    rw [Option.eq_none_iff_forall_ne_some]
    intro addedAt hl
    exact (liveAt_emptyBox.1 hl).2 ⟨rfl, rfl⟩

theorem liveAt_applyException {box : BoxKey} {h : String} {addedAt : ℤ}
    (hl : liveAt (applyException now terminal t ex).boxItems box h = some addedAt) :
    liveAt t.boxItems box h = some addedAt := by
  obtain he | ⟨row, codeHash, target, -, -, -, -, he⟩ | ⟨row, -, -, -, -, he⟩ |
    ⟨row, -, -, -, -, he⟩ := applyException_cases now terminal t ex
  · rwa [he] at hl
  · rw [he] at hl
    exact (liveAt_undoScan.1 hl).1
  · rw [he] at hl
    exact (liveAt_emptyBox.1 hl).1
  · rw [he] at hl
    change liveAt (emptyBox now (ex.boxKey terminal) none t).boxItems box h = some addedAt at hl
    exact (liveAt_emptyBox.1 hl).1

theorem applyException_known {key : BoxKey}
    (hb : boxAt (applyException now terminal t ex).boxes key ≠ none) :
    boxAt t.boxes key ≠ none := by
  obtain he | ⟨row, codeHash, target, -, -, -, -, he⟩ | ⟨row, -, -, -, -, he⟩ |
    ⟨row, -, -, -, -, he⟩ := applyException_cases now terminal t ex
  · rwa [he] at hb
  · rwa [he] at hb
  · rwa [he] at hb
  · rw [he] at hb
    intro hn
    refine hb ?_
    change boxAt (t.boxes.map _) key = none
    rw [boxAt_map (fun row => by split <;> rfl), hn]
    rfl

theorem foldl_applyException_sound {exceptions : List ExceptionFact} (ht : t.Sound)
    (haim : ∀ ex ∈ exceptions, UndoAims t terminal ex) :
    (exceptions.foldl (applyException now terminal) t).Sound := by
  induction exceptions generalizing t with
  | nil => exact ht
  | cons ex exceptions ih =>
    refine ih (applyException_sound ht (haim ex List.mem_cons_self)) ?_
    intro e he hk hb c hc g hg box hl
    exact haim e (List.mem_cons_of_mem _ he) hk (applyException_known hb) c hc g hg box
      (liveAt_applyException hl)

end Exceptions

/-! ## Reclaimed codes -/

section Reclaim

variable {srv : Server} {now : ℤ} {scans : List BatchScan} {exceptions : List ExceptionFact}
variable {acc : Tables × Echo} {codeHash : String}

theorem reclaimCode_cases (now : ℤ) (scans : List BatchScan) (exceptions : List ExceptionFact)
    (acc : Tables × Echo) (codeHash : String) :
    reclaimCode now scans exceptions acc codeHash = acc ∨
    ∃ holder later, heldScans scans exceptions codeHash = holder :: later ∧
      (∀ key, holder.boxKey? = some key →
        ∃ row, boxAt acc.1.boxes key = some row ∧ row.disassembledAt = none) ∧
      acc.1.codeRegistry codeHash = none ∧
      (reclaimCode now scans exceptions acc codeHash).1.boxes = acc.1.boxes ∧
      (reclaimCode now scans exceptions acc codeHash).1.codeRegistry =
        Function.update acc.1.codeRegistry codeHash (some holder.toScan) ∧
      (reclaimCode now scans exceptions acc codeHash).1.boxItems = fun box h =>
        if holder.boxKey? = some box ∧ h = codeHash then some ⟨holder.scannedAt, none, none⟩
        else acc.1.boxItems box h := by
  rw [reclaimCode]
  cases hh : heldScans scans exceptions codeHash with
  | nil => exact .inl rfl
  | cons holder later =>
    simp only
    split
    case isTrue => exact .inl rfl
    case isFalse hbox =>
      split
      case isTrue => exact .inl rfl
      case isFalse hreg =>
        refine .inr ⟨holder, later, rfl, fun key hk => ?_, not_not.1 hreg, rfl, rfl, rfl⟩
        rw [hk, Option.any_some, Bool.not_eq_true] at hbox
        cases hb : boxAt acc.1.boxes key with
        | none => simp [hb] at hbox
        | some row => exact ⟨row, rfl, by simpa [hb] using hbox⟩

theorem reclaimCode_sound (ht : acc.1.Sound) :
    (reclaimCode now scans exceptions acc codeHash).1.Sound := by
  obtain h | ⟨holder, later, -, hstand, hreg, hboxes, hregistry, hitems⟩ :=
    reclaimCode_cases now scans exceptions acc codeHash
  · rw [h]
    exact ht
  -- A code without a registry row has no live membership, so the holder's is its only one.
  have hno : ∀ box, liveAt acc.1.boxItems box codeHash = none := by
    intro box
    rw [Option.eq_none_iff_forall_ne_some]
    intro a hl
    rw [ht.owned hl] at hreg
    cases hreg
  have hlive : ∀ {box h a},
      liveAt (reclaimCode now scans exceptions acc codeHash).1.boxItems box h = some a →
      (h = codeHash ∧ holder.boxKey? = some box ∧ a = holder.scannedAt) ∨
        (h ≠ codeHash ∧ liveAt acc.1.boxItems box h = some a) := by
    intro box h a hl
    rw [hitems, liveAt] at hl
    by_cases hc : holder.boxKey? = some box ∧ h = codeHash
    · rw [if_pos hc] at hl
      exact .inl ⟨hc.2, hc.1, by simpa [BoxItem.live] using hl.symm⟩
    · rw [if_neg hc] at hl
      refine .inr ⟨?_, hl⟩
      rintro rfl
      change liveAt acc.1.boxItems box h = some a at hl
      rw [hno box] at hl
      cases hl
  constructor
  · rw [hboxes]
    exact ht.unique
  · intro box h a hl
    rw [hregistry]
    obtain ⟨rfl, hk, rfl⟩ | ⟨hne, hl⟩ := hlive hl
    · rw [Function.update_self]
      obtain ⟨-, hs, hterm⟩ := BatchScan.boxKey?_eq_some.1 hk
      rw [← hs, ← hterm]
    · rw [Function.update_of_ne hne]
      exact ht.owned hl
  · intro box h a hl
    rw [hboxes]
    obtain ⟨-, hk, -⟩ | ⟨-, hl⟩ := hlive hl
    · exact hstand box hk
    · exact ht.standing hl
  · intro box box' h a a' hl hl'
    obtain ⟨rfl, hk, -⟩ | ⟨hne, hl⟩ := hlive hl
    · obtain ⟨-, hk', -⟩ | ⟨hne, -⟩ := hlive hl'
      · exact Option.some.inj (hk.symm.trans hk')
      · exact absurd rfl hne
    · obtain ⟨rfl, -, -⟩ | ⟨-, hl'⟩ := hlive hl'
      · exact absurd rfl hne
      · exact ht.single hl hl'

theorem reclaimReleasedCodes_sound (ht : acc.1.Sound) :
    (reclaimReleasedCodes srv now scans exceptions acc).1.Sound := by
  rw [reclaimReleasedCodes]
  refine List.foldlRecOn (motive := fun acc : Tables × Echo => acc.1.Sound) _ _ ?_
    fun acc hacc h _ => reclaimCode_sound hacc
  exact ⟨ht.unique, ht.owned, ht.standing, ht.single⟩

end Reclaim

end Markiro.Cloud
