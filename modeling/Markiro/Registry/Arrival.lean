import Markiro.Lib.Earliest
import Markiro.Registry.Owners

/-!
# The order scans arrive in

Stations deliver their scans late and in any order. As long as nothing frees a code, its row in the
registry and its conflicts are a contest its accepted scans hold for it by their instants
(`Contested`): the earliest scan owns the code and every other scan lost it once, whatever the order
of arrival.
-/

namespace Markiro

open Table (Unique)

def ScanRow.claims (hash : String) (s : ScanRow) : Bool :=
  decide (s.verdict = .ok ∧ s.codeHash = some hash)

/-- The accepted scans of a code since the tables were `base`, in the order they arrived in. -/
def Db.scansSince (hash : String) (base db : Db) : List ScanRow :=
  (db.scans.drop base.scans.length).filter (ScanRow.claims hash)

def Db.conflictsSince (hash : String) (base db : Db) : List CodeConflictRow :=
  (db.codeConflicts.drop base.codeConflicts.length).filter fun c => c.codeHash = hash

def Db.Owns (hash : String) (db : Db) : Prop := ∃ o ∈ db.codeOwners, o.codeHash = hash

instance (hash : String) (db : Db) : Decidable (db.Owns hash) :=
  inferInstanceAs (Decidable (∃ o ∈ db.codeOwners, o.codeHash = hash))

/-- An arrival that does not free the code. -/
def Keeps (k : Crates) (hash : String) (db db' : Db) : Prop :=
  Arrives k db db' ∧ (db.Owns hash → db'.Owns hash)

def Db.contest (hash : String) (base db : Db) : Contest ScanRow :=
  Contest.after (·.scannedAt) (Db.scansSince hash base db)

/-- **The registry is the contest**: the owner row is the holder's, and each conflict names a loser. -/
structure Contested (k : Crates) (hash : String) (base db : Db) : Prop where
  scans_le : base.scans.length ≤ db.scans.length
  conflicts_le : base.codeConflicts.length ≤ db.codeConflicts.length
  cloud : db.cloud.completedOwner hash = none
  instants : ∀ r ∈ Db.scansSince hash base db, (deviceInstant k r.scannedAt).isSome = true
  holder : db.codeOwners.find? (fun o => o.codeHash = hash) =
    (Db.contest hash base db).holder.map (·.owner hash)
  losers : (Db.conflictsSince hash base db).map (·.loserScanId) =
    (Db.contest hash base db).losers.map (·.id)

section

variable {k : Crates} {now hash : String} {row : ScanRow} {base db db' : Db}

/-! ## Changes that are no scan -/

/-- No change but a scan's adds an owner, a scan or a conflict. -/
structure SameScans (db db' : Db) : Prop where
  scans : db'.scans = db.scans
  conflicts : db'.codeConflicts = db.codeConflicts
  owners : db'.codeOwners.Sublist db.codeOwners
  cloud : ∀ hash, db.cloud.completedOwner hash = none → db'.cloud.completedOwner hash = none

theorem Written.sameScans (h : Written k now db db') : SameScans db db' := by
  cases h with
  | cloud c hc => exact ⟨rfl, rfl, .refl _, hc⟩
  | takeOut => exact ⟨rfl, rfl, List.filter_sublist, fun _ h => h⟩
  | emptyBox => exact ⟨rfl, rfl, List.filter_sublist, fun _ h => h⟩
  | closePallet =>
    rw [Db.closePallet]
    split <;> exact ⟨rfl, rfl, .refl _, fun _ h => h⟩
  | _ => exact ⟨rfl, rfl, .refl _, fun _ h => h⟩

theorem Filed.sameScans (h : Filed db db') : SameScans db db' := by
  cases h <;> exact ⟨rfl, rfl, .refl _, fun _ h => h⟩

theorem Files.sameScans (h : Files k now db db') : SameScans db db' := by
  induction h with
  | refl => exact ⟨rfl, rfl, .refl _, fun _ h => h⟩
  | tail _ hw ih =>
    have h := hw.elim Written.sameScans Filed.sameScans
    exact ⟨h.scans.trans ih.scans, h.conflicts.trans ih.conflicts, h.owners.trans ih.owners,
      fun hash hc => h.cloud hash (ih.cloud hash hc)⟩

theorem find_owner_of_sublist {owners owners' : List CodeOwnerRow}
    (hu : Unique (·.codeHash) owners) (hsub : owners'.Sublist owners)
    (hkeep : (∃ o ∈ owners, o.codeHash = hash) → ∃ o ∈ owners', o.codeHash = hash) :
    owners'.find? (fun o => o.codeHash = hash) = owners.find? (fun o => o.codeHash = hash) := by
  cases ho : owners.find? (fun o => decide (o.codeHash = hash)) with
  | none =>
    rw [List.find?_eq_none] at ho ⊢
    exact fun o h => ho o (hsub.subset h)
  | some o =>
    have hmem := List.mem_of_find?_eq_some ho
    have hhash : o.codeHash = hash := by simpa using List.find?_some ho
    obtain ⟨o', ho', hh⟩ := hkeep ⟨o, hmem, hhash⟩
    obtain rfl : o' = o := hu.eq (hsub.subset ho') hmem (hh.trans hhash.symm)
    subst hhash
    exact Unique.find? (hu.sublist (hsub.map _)) ho'

theorem Contested.sameScans (hc : Contested k hash base db) (h : SameScans db db')
    (howner : db'.codeOwners.find? (fun o => o.codeHash = hash) =
      db.codeOwners.find? (fun o => o.codeHash = hash)) : Contested k hash base db' := by
  have hscans : Db.scansSince hash base db' = Db.scansSince hash base db := by
    rw [Db.scansSince, h.scans, Db.scansSince]
  refine ⟨h.scans ▸ hc.scans_le, h.conflicts ▸ hc.conflicts_le, h.cloud hash hc.cloud, ?_, ?_, ?_⟩
  · rw [hscans]
    exact hc.instants
  · rw [howner, hc.holder, Db.contest, Db.contest, hscans]
  · have hconf : Db.conflictsSince hash base db' = Db.conflictsSince hash base db := by
      rw [Db.conflictsSince, h.conflicts, Db.conflictsSince]
    rw [hconf, hc.losers, Db.contest, Db.contest, hscans]

theorem Contested.files (hc : Contested k hash base db) (hu : Unique (·.codeHash) db.codeOwners)
    (h : Files k now db db') (hkeep : db.Owns hash → db'.Owns hash) :
    Contested k hash base db' :=
  hc.sameScans h.sameScans (find_owner_of_sublist hu h.sameScans.owners hkeep)

theorem Contested.beside (hc : Contested k hash base db) (h : Beside k now db db') :
    Contested k hash base db' :=
  hc.sameScans h.1.files.sameScans (by rw [h.2])

theorem Contested.filed (hc : Contested k hash base db) (h : Filed db db') :
    Contested k hash base db' := by
  refine hc.sameScans h.sameScans ?_
  cases h <;> rfl

/-! ## Scans -/

theorem scansSince_append (hle : base.scans.length ≤ db.scans.length)
    (h : db'.scans = db.scans ++ [row]) :
    Db.scansSince hash base db' =
      Db.scansSince hash base db ++ if row.claims hash then [row] else [] := by
  rw [Db.scansSince, h, List.drop_append_of_le_length hle, List.filter_append, Db.scansSince]
  by_cases hr : row.claims hash = true
  · simp [hr]
  · simp [hr]

theorem conflictsSince_append {c : CodeConflictRow}
    (hle : base.codeConflicts.length ≤ db.codeConflicts.length)
    (h : db'.codeConflicts = db.codeConflicts ++ [c]) :
    Db.conflictsSince hash base db' =
      Db.conflictsSince hash base db ++ if c.codeHash = hash then [c] else [] := by
  rw [Db.conflictsSince, h, List.drop_append_of_le_length hle, List.filter_append,
    Db.conflictsSince]
  by_cases hc : c.codeHash = hash
  · simp [hc]
  · simp [hc]

theorem Contested.other (hc : Contested k hash base db) (hrow : row.claims hash = false)
    (hscans : db'.scans = db.scans ++ [row])
    (hcloud : db'.cloud.completedOwner hash = none)
    (hconf : Db.conflictsSince hash base db' = Db.conflictsSince hash base db)
    (hlen : db.codeConflicts.length ≤ db'.codeConflicts.length)
    (howner : db'.codeOwners.find? (fun o => o.codeHash = hash) =
      db.codeOwners.find? (fun o => o.codeHash = hash)) : Contested k hash base db' := by
  have hsince : Db.scansSince hash base db' = Db.scansSince hash base db := by
    rw [scansSince_append hc.scans_le hscans]
    simp [hrow]
  refine ⟨?_, hc.conflicts_le.trans hlen, hcloud, hsince ▸ hc.instants, ?_, ?_⟩
  · rw [hscans, List.length_append]
    exact hc.scans_le.trans (Nat.le_add_right _ _)
  · rw [howner, hc.holder, Db.contest, Db.contest, hsince]
  · rw [hconf, hc.losers, Db.contest, Db.contest, hsince]

theorem Contested.mine (hc : Contested k hash base db) (hrow : row.claims hash = true)
    (hscans : db'.scans = db.scans ++ [row])
    (hcloud : db'.cloud.completedOwner hash = none)
    (hinstant : (deviceInstant k row.scannedAt).isSome = true)
    (hlen : db.codeConflicts.length ≤ db'.codeConflicts.length)
    (hholder : db'.codeOwners.find? (fun o => o.codeHash = hash) =
      ((Db.contest hash base db).arrive (·.scannedAt) row).holder.map (·.owner hash))
    (hlosers : (Db.conflictsSince hash base db').map (·.loserScanId) =
      ((Db.contest hash base db).arrive (·.scannedAt) row).losers.map (·.id)) :
    Contested k hash base db' := by
  have hsince : Db.scansSince hash base db' = Db.scansSince hash base db ++ [row] := by
    rw [scansSince_append hc.scans_le hscans, if_pos hrow]
  have hcontest : Db.contest hash base db' =
      (Db.contest hash base db).arrive (·.scannedAt) row := by
    rw [Db.contest, hsince, Contest.after_concat, Db.contest]
  refine ⟨?_, hc.conflicts_le.trans hlen, hcloud, ?_, ?_, ?_⟩
  · rw [hscans, List.length_append]
    exact hc.scans_le.trans (Nat.le_add_right _ _)
  · rw [hsince]
    intro r hr
    rcases List.mem_append.1 hr with hr | hr
    · exact hc.instants r hr
    · rwa [List.mem_singleton.1 hr]
  · rw [hholder, hcontest]
  · rw [hlosers, hcontest]

theorem Contested.holder_of_find (hc : Contested k hash base db) {o : CodeOwnerRow}
    (ho : db.codeOwners.find? (fun o => o.codeHash = hash) = some o) :
    ∃ w, (Db.contest hash base db).holder = some w ∧ w.owner hash = o := by
  rw [hc.holder] at ho
  exact Option.map_eq_some_iff.1 ho

theorem claims_of {hash' : String} (hok : row.verdict = .ok) (hhash : row.codeHash = some hash') :
    row.claims hash = decide (hash' = hash) := by
  simp [ScanRow.claims, hok, hhash]

theorem find_update_owner {o : CodeOwnerRow} {owners : List CodeOwnerRow}
    (ho : owners.find? (fun o => o.codeHash = hash) = some o) :
    (Table.update (fun o => o.codeHash = hash) (fun _ => row.owner hash) owners).find?
      (fun o => o.codeHash = hash) = some (row.owner hash) := by
  rw [Table.update, List.find?_map]
  have hp : ((fun o => decide (o.codeHash = hash)) ∘ fun o : CodeOwnerRow =>
      if decide (o.codeHash = hash) = true then row.owner hash else o) =
      fun o => decide (o.codeHash = hash) := by
    funext x
    by_cases hx : x.codeHash = hash
    · simp [hx, ScanRow.owner]
    · simp [hx]
  rw [hp, ho]
  have hhash : o.codeHash = hash := by simpa using List.find?_some ho
  simp [hhash]

theorem find_update_other {hash' : String} {owners : List CodeOwnerRow} (hne : hash' ≠ hash) :
    (Table.update (fun o => o.codeHash = hash') (fun _ => row.owner hash') owners).find?
      (fun o => o.codeHash = hash) = owners.find? (fun o => o.codeHash = hash) := by
  induction owners with
  | nil => rfl
  | cons o rest ih =>
    rw [Table.update] at ih ⊢
    by_cases ho : o.codeHash = hash'
    · have hne' : o.codeHash ≠ hash := fun h => hne (ho.symm.trans h)
      simpa [ho, ScanRow.owner, hne, hne'] using ih
    · by_cases hh : o.codeHash = hash
      · simp [hh, hne.symm]
      · simpa [ho, hh] using ih

theorem Contested.scanned (hc : Contested k hash base db) (h : Scanned k now row db db') :
    Contested k hash base db' := by
  cases h with
  | noted hok hnew =>
    exact hc.other (by simp [ScanRow.claims, hok]) rfl hc.cloud rfl le_rfl rfl
  | imported hash' conflicts hok hhash hnew himp =>
    have hne : hash' ≠ hash := fun h => himp (h ▸ hc.cloud)
    exact hc.other (by simp [claims_of hok hhash, hne]) rfl hc.cloud rfl le_rfl rfl
  | late hash' id o hok hhash hnew ho hle hid =>
    by_cases hh : hash' = hash
    · subst hh
      obtain ⟨w, hw, rfl⟩ := hc.holder_of_find ho
      have harr : (Db.contest hash' base db).arrive (·.scannedAt) row =
          ⟨some w, (Db.contest hash' base db).losers ++ [row]⟩ := by
        simp only [Contest.arrive, hw]
        exact if_pos hle
      refine hc.mine (by simp [claims_of hok hhash]) rfl hc.cloud hnew.instant (by simp) ?_ ?_
      · rw [harr]
        exact ho
      · rw [harr, conflictsSince_append hc.conflicts_le rfl]
        simp [hc.losers]
    · refine hc.other (by simp [claims_of hok hhash, hh]) rfl hc.cloud ?_ (by simp) rfl
      rw [conflictsSince_append hc.conflicts_le rfl]
      simp [hh]
  | took hash' id o hok hhash hnew ho hlt hid hfree hfit =>
    by_cases hh : hash' = hash
    · subst hh
      obtain ⟨w, hw, rfl⟩ := hc.holder_of_find ho
      have harr : (Db.contest hash' base db).arrive (·.scannedAt) row =
          ⟨some row, (Db.contest hash' base db).losers ++ [w]⟩ := by
        simp only [Contest.arrive, hw]
        exact if_neg (not_le.2 hlt)
      refine hc.mine (by simp [claims_of hok hhash]) rfl hc.cloud hnew.instant (by simp) ?_ ?_
      · rw [harr]
        exact find_update_owner ho
      · rw [harr, conflictsSince_append hc.conflicts_le rfl]
        simp [hc.losers, ScanRow.owner]
    · refine hc.other (by simp [claims_of hok hhash, hh]) rfl hc.cloud ?_ (by simp)
        (find_update_other hh)
      rw [conflictsSince_append hc.conflicts_le rfl]
      simp [hh]
  | claimed hash' hok hhash hnew hfree hfit =>
    by_cases hh : hash' = hash
    · subst hh
      have hnone : db.codeOwners.find? (fun o => decide (o.codeHash = hash')) = none :=
        List.find?_eq_none.2 fun o ho => by simpa using (hfree o ho).1
      have hw : (Db.contest hash' base db).holder = none := by
        simpa [hnone] using hc.holder.symm
      have harr : (Db.contest hash' base db).arrive (·.scannedAt) row =
          ⟨some row, (Db.contest hash' base db).losers⟩ := by
        simp only [Contest.arrive, hw]
      refine hc.mine (by simp [claims_of hok hhash]) rfl hc.cloud hnew.instant le_rfl ?_ ?_
      · rw [harr]
        show (db.codeOwners ++ [row.owner hash']).find? _ = _
        rw [List.find?_append, hnone]
        simp [ScanRow.owner]
      · rw [harr]
        exact hc.losers
    · refine hc.other (by simp [claims_of hok hhash, hh]) rfl hc.cloud rfl le_rfl ?_
      show (db.codeOwners ++ [row.owner hash']).find? _ = _
      rw [List.find?_append]
      simp [ScanRow.owner, hh]

/-! ## Arrivals -/

theorem Contested.arrives (hc : Contested k hash base db) (ho : db.Owned)
    (h : Keeps k hash db db') : Contested k hash base db' := by
  obtain ⟨now, ⟨mid, hr, hf⟩ | hw⟩ := h.1.cases
  · have howns : db.Owns hash → mid.Owns hash := by
      rcases hf with rfl | hf
      · exact h.2
      · cases hf <;> exact h.2
    have hmid : Contested k hash base mid := by
      rcases hr with hw | ⟨before, after, row, h1, hs, h2⟩
      · exact hc.files ho.hashes_unique hw.files howns
      · exact ((hc.beside h1).scanned hs).beside h2
    rcases hf with rfl | hf
    · exact hmid
    · exact hmid.filed hf
  · exact hc.files ho.hashes_unique hw h.2

theorem Contested.start (hfree : ¬db.Owns hash) (hcloud : db.cloud.completedOwner hash = none) :
    Contested k hash db db := by
  have hscans : Db.scansSince hash db db = [] := by simp [Db.scansSince]
  refine ⟨le_rfl, le_rfl, hcloud, by simp [hscans], ?_, ?_⟩
  · rw [Db.contest, hscans, Contest.after_nil, Option.map_none, List.find?_eq_none]
    intro o ho hh
    exact hfree ⟨o, ho, by simpa using hh⟩
  · simp [Db.contest, hscans, Db.conflictsSince]

theorem contested_of_keeps (ho : base.Owned) (hfree : ¬base.Owns hash)
    (hcloud : base.cloud.completedOwner hash = none)
    (h : Relation.ReflTransGen (Keeps k hash) base db) :
    Contested k hash base db ∧ db.Owned := by
  induction h with
  | refl => exact ⟨.start hfree hcloud, ho⟩
  | tail _ hk ih => exact ⟨ih.1.arrives ih.2 hk, hk.1.invariant Change.owned ih.2⟩

end

/-! ## The outcome -/

def Db.lostSince (hash : String) (base db : Db) : List ScanRow :=
  (Db.scansSince hash base db).filter fun r =>
    (Db.conflictsSince hash base db).any fun c => c.loserScanId = r.id

/-- A scan as its device sent it, without what the host gave its row. -/
def ScanRow.sent (s : ScanRow) : ScanRow := { s with id := "", receivedAt := "" }

/-- The scan `w` is the earliest of a code since `base` and owns it; its item, if it has a box, is
the only live one; every other scan lost the code once. -/
structure EarliestOwns (k : Crates) (hash : String) (base db : Db) (w : ScanRow) : Prop where
  mem : w ∈ Db.scansSince hash base db
  earliest : ∀ r ∈ Db.scansSince hash base db, r.id ≠ w.id →
    ∃ a b, deviceInstant k w.scannedAt = some a ∧ deviceInstant k r.scannedAt = some b ∧
      a.nanos < b.nanos
  owner : db.codeOwners.find? (fun o => o.codeHash = hash) = some (w.owner hash)
  live : ((db.boxItems.filter fun i => i.live && decide (i.codeHash = hash)).map
    fun i => (i.scanId, i.boxId)) = (w.boxId.map (Prod.mk w.id)).toList
  conflicts : (Db.conflictsSince hash base db).length + 1 = (Db.scansSince hash base db).length
  losers : ∀ r ∈ Db.scansSince hash base db,
    (Db.conflictsSince hash base db).countP (fun c => c.loserScanId = r.id) =
      if r.id = w.id then 0 else 1

section

variable {k : Crates} {hash : String} {base db : Db} {w : ScanRow}

theorem scansSince_unique (ho : db.Owned) : Unique (·.id) (Db.scansSince hash base db) :=
  ho.scans_unique.sublist ((List.filter_sublist.trans (List.drop_sublist _ _)).map _)

theorem Db.Owned.live_items (ho : db.Owned) {o : CodeOwnerRow}
    (hfind : db.codeOwners.find? (fun o => o.codeHash = hash) = some o) :
    ((db.boxItems.filter fun i => i.live && decide (i.codeHash = hash)).map
      fun i => (i.scanId, i.boxId)) = (o.boxId.map (Prod.mk o.scanId)).toList := by
  have hmem := List.mem_of_find?_eq_some hfind
  obtain rfl : o.codeHash = hash := by simpa using List.find?_some hfind
  have hlive : ∀ i ∈ db.boxItems.filter fun i => i.live && decide (i.codeHash = o.codeHash),
      i.scanId = o.scanId ∧ o.boxId = some i.boxId := by
    intro i hi
    simp only [List.mem_filter, Bool.and_eq_true, decide_eq_true_eq] at hi
    obtain ⟨x, hx, hxc, hxs, hxb⟩ := ho.owned i hi.1 hi.2.1
    obtain rfl := ho.hashes_unique.eq hx hmem (hxc.trans hi.2.2)
    exact ⟨hxs.symm, hxb⟩
  have hlen := Owned.live_le_one ho o.codeHash
  rw [List.countP_eq_length_filter] at hlen
  have hsome : ∀ b, o.boxId = some b →
      db.boxItems.filter (fun i => i.live && decide (i.codeHash = o.codeHash)) ≠ [] := by
    intro b hb
    obtain ⟨i, hi, hl, -, -, hhash⟩ := ho.boxed o hmem b hb
    exact List.ne_nil_of_mem (a := i) (by simp [hi, hl, hhash])
  generalize db.boxItems.filter (fun i => i.live && decide (i.codeHash = o.codeHash)) = items at *
  match items with
  | [] =>
    cases hb : o.boxId with
    | none => rfl
    | some b => exact absurd rfl (hsome b hb)
  | [i] =>
    obtain ⟨hid, hbox⟩ := hlive i List.mem_cons_self
    simp [hid, hbox]
  | _ :: _ :: _ => simp at hlen

theorem Contested.earliestOwns (hc : Contested k hash base db) (ho : db.Owned)
    (hd : ((Db.scansSince hash base db).map (·.scannedAt)).Nodup)
    (hw : (Db.contest hash base db).holder = some w) : EarliestOwns k hash base db w := by
  have hmem : w ∈ Db.scansSince hash base db := Contest.holder_mem hw
  have hu : Table.Unique (·.id) (Db.scansSince hash base db) := scansSince_unique ho
  have hperm : ((Db.contest hash base db).holder.toList ++
      (Db.contest hash base db).losers).Perm (Db.scansSince hash base db) := Contest.after_perm _ _
  have hids : (w.id :: (Db.conflictsSince hash base db).map (·.loserScanId)).Perm
      ((Db.scansSince hash base db).map (·.id)) := by
    rw [hc.losers]
    simpa [hw] using hperm.map (·.id)
  have hfind : db.codeOwners.find? (fun o => o.codeHash = hash) = some (w.owner hash) := by
    rw [hc.holder, hw]
    rfl
  refine ⟨hmem, ?_, hfind, ho.live_items hfind, ?_, ?_⟩
  · intro r hr hne
    have hlt : w.scannedAt < r.scannedAt :=
      Contest.after_lt hw hd hr fun h => hne (congrArg ScanRow.id h)
    obtain ⟨a, ha⟩ := Option.isSome_iff_exists.1 (hc.instants w hmem)
    obtain ⟨b, hb⟩ := Option.isSome_iff_exists.1 (hc.instants r hr)
    exact ⟨a, b, ha, hb, (deviceInstant_lt ha hb).1 hlt⟩
  · simpa using hids.length_eq
  · intro r hr
    have hone : ((Db.scansSince hash base db).map (·.id)).count r.id = 1 :=
      List.count_eq_one_of_mem hu (List.mem_map_of_mem hr)
    rw [← hids.count_eq, List.count_cons] at hone
    have hcount : ((Db.conflictsSince hash base db).map (·.loserScanId)).count r.id =
        (Db.conflictsSince hash base db).countP fun c => c.loserScanId = r.id := by
      rw [List.count_eq_countP, List.countP_map]
      exact List.countP_congr fun c _ => by simp
    rw [hcount] at hone
    by_cases hid : r.id = w.id
    · rw [if_pos hid]
      simpa [hid] using hone
    · rw [if_neg hid]
      simpa [Ne.symm hid] using hone

theorem Contested.lost_perm (hc : Contested k hash base db) (ho : db.Owned) :
    (Db.lostSince hash base db).Perm (Db.contest hash base db).losers := by
  have hu : Table.Unique (·.id) (Db.scansSince hash base db) := scansSince_unique ho
  have hperm : ((Db.contest hash base db).holder.toList ++
      (Db.contest hash base db).losers).Perm (Db.scansSince hash base db) := Contest.after_perm _ _
  have hids := hu.perm hperm.symm
  have hlost : ∀ r : ScanRow,
      ((Db.conflictsSince hash base db).any fun c => c.loserScanId = r.id) = true ↔
        r.id ∈ (Db.contest hash base db).losers.map (·.id) := by
    intro r
    rw [← hc.losers]
    simp
  refine (hperm.symm.filter _).trans ?_
  rw [List.filter_append, List.filter_eq_nil_iff.2, List.nil_append, List.filter_eq_self.2]
  · intro r hr
    exact (hlost r).2 (List.mem_map_of_mem hr)
  · intro r hr
    rw [hlost r]
    intro hmem
    rw [Table.Unique, List.map_append] at hids
    exact List.disjoint_of_nodup_append hids (List.mem_map_of_mem hr) hmem

end

/-- **Whatever the order scans arrive in, the earliest owns the code.** From any state of the host in
which a code is free, and as long as nothing frees it again: among its accepted scans, no two at one
instant, the chronologically first owns it, with the only live item if it has a box; each of the
others is the loser of one conflict. Any other order of the same scans ends with the same owner and
the same losers. -/
theorem earliest_scan_owns (k : Crates) (db : Db) (calls : List Call) (hash : String) :
    let base := run k { db with scans := [], boxes := [], boxItems := [], codeOwners := [] } calls
    ¬base.Owns hash → base.cloud.completedOwner hash = none →
    ∀ s, Relation.ReflTransGen (Keeps k hash) base s →
      Db.scansSince hash base s ≠ [] →
      ((Db.scansSince hash base s).map (·.scannedAt)).Nodup →
      ∃ w, EarliestOwns k hash base s w ∧
        ∀ s', Relation.ReflTransGen (Keeps k hash) base s' →
          ((Db.scansSince hash base s).map ScanRow.sent).Perm
            ((Db.scansSince hash base s').map ScanRow.sent) →
          ∃ w', EarliestOwns k hash base s' w' ∧ w'.sent = w.sent ∧
            ((Db.lostSince hash base s).map ScanRow.sent).Perm
              ((Db.lostSince hash base s').map ScanRow.sent) := by
  intro base hfree hcloud s hs hne hd
  have hbase : base.Owned := by
    refine run_invariant (P := Db.Owned) Change.owned ?_ calls
    exact Owned.empty
  obtain ⟨hc, ho⟩ := contested_of_keeps hbase hfree hcloud hs
  have hsome : (Db.contest hash base s).holder ≠ none := mt Contest.holder_eq_none.1 hne
  obtain ⟨w, hw⟩ := Option.ne_none_iff_exists'.1 hsome
  refine ⟨w, hc.earliestOwns ho hd hw, fun s' hs' hp => ?_⟩
  obtain ⟨hc', ho'⟩ := contested_of_keeps hbase hfree hcloud hs'
  have htimes : ∀ rows : List ScanRow,
      (rows.map ScanRow.sent).map (·.scannedAt) = rows.map (·.scannedAt) := by
    intro rows
    rw [List.map_map]
    rfl
  have hsent : ∀ rows : List ScanRow, Contest.after ScanRow.scannedAt (rows.map ScanRow.sent) =
      ⟨(Contest.after ScanRow.scannedAt rows).holder.map ScanRow.sent,
        (Contest.after ScanRow.scannedAt rows).losers.map ScanRow.sent⟩ :=
    Contest.after_map fun _ => rfl
  have hholder := Contest.holder_of_perm ScanRow.scannedAt hp (by rwa [htimes])
  have hlosers := Contest.losers_of_perm ScanRow.scannedAt hp (by rwa [htimes])
  rw [hsent, hsent] at hholder hlosers
  have hw' : (Contest.after ScanRow.scannedAt (Db.scansSince hash base s)).holder = some w := hw
  simp only [hw', Option.map_some] at hholder
  obtain ⟨w', hw', hww⟩ := Option.map_eq_some_iff.1 hholder.symm
  have hd' : ((Db.scansSince hash base s').map (·.scannedAt)).Nodup := by
    rw [← htimes, ← (hp.map _).nodup_iff, htimes]
    exact hd
  refine ⟨w', hc'.earliestOwns ho' hd' hw', hww, ?_⟩
  exact ((hc.lost_perm ho).map _).trans (hlosers.trans ((hc'.lost_perm ho').map _).symm)

namespace Sample

/-- A scan at half past ten. -/
def laterScan (db : Db) : Option Db :=
  deliver Crates.sample (env "a") station (scan "33333333-3333-4333-8333-333333333333"
    "2024-01-01T10:30:00.000Z" (some "44444444-4444-4444-8444-444444444444")) db

/-- A scan at ten, into another box. -/
def earlierScan (db : Db) : Option Db :=
  deliver Crates.sample (env "b") station (scan "33333333-3333-4333-8333-333333333334"
    "2024-01-01T10:00:00.000Z" (some "44444444-4444-4444-8444-444444444445")) db

def oneScan : Db := (laterScan (site .aggregation)).get (by decide +kernel)

/-- The site after both, in the wrong order. -/
def twoScans : Db := (earlierScan oneScan).get (by decide +kernel)

theorem twoScans_eval : oneScan.Owns code ∧ twoScans.Owns code ∧
    ((Db.scansSince code (site .aggregation) twoScans).map (·.scannedAt) =
      ["2024-01-01T10:30:00.000Z", "2024-01-01T10:00:00.000Z"]) := by
  decide +kernel

end Sample

open Sample

theorem earliest_scan_owns_sample :
    ∃ w, EarliestOwns Crates.sample code (site .aggregation) twoScans w := by
  obtain ⟨hone, htwo, hscans⟩ := twoScans_eval
  have h1 : Arrives Crates.sample (site .aggregation) oneScan :=
    Arrives.deliver (Option.some_get _).symm
  have h2 : Arrives Crates.sample oneScan twoScans :=
    Arrives.deliver (Option.some_get _).symm
  have hrun : Relation.ReflTransGen (Keeps Crates.sample code) (site .aggregation)
      twoScans :=
    .tail (.single ⟨h1, fun _ => hone⟩) ⟨h2, fun _ => htwo⟩
  have hne : Db.scansSince code (site .aggregation) twoScans ≠ [] := by
    intro h
    simp [h] at hscans
  obtain ⟨w, hw, -⟩ := earliest_scan_owns Crates.sample (site .aggregation) [] code
    (by decide) rfl twoScans hrun hne (hscans ▸ (by decide))
  exact ⟨w, hw⟩

end Markiro
