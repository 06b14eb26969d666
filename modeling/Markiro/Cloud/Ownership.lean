import Markiro.Cloud.StationScans

/-!
# What the ownership part of a batch decides

`claimCodes` folds a batch's claims into the registry: a code without a row takes the batch's
earliest scan, a code with one gives way only to a strictly earlier scan, and the owners the
membership part reads are exactly the rows the registry then holds.
-/

namespace Markiro.Cloud

@[simp] theorem sameScan_iff {a b : Scan} : sameScan a b = true ↔ a = b := by
  cases a
  cases b
  simp [sameScan, and_assoc]

theorem sameScan_false {a b : Scan} : sameScan a b = false ↔ a ≠ b := by
  rw [← Bool.not_eq_true, sameScan_iff]

theorem sublist_of_filterMap {α β γ : Type} {f : α → Option β} {g : β → γ} {k : α → γ} {l : List α}
    (hf : ∀ a b, f a = some b → g b = k a) : ((l.filterMap f).map g).Sublist (l.map k) := by
  induction l with
  | nil => simp
  | cons a l ih =>
    rw [List.filterMap_cons]
    cases hfa : f a with
    | none => exact ih.trans (List.sublist_cons_self _ _)
    | some b =>
      simp only [List.map_cons, hf a b hfa]
      exact ih.cons_cons _

/-! ## Collapsing claims -/

section Collapse

variable {items : List ClaimItem} {c : ClaimItem} {h : String}

theorem foldl_earliest (rest : List ClaimItem) (first : ClaimItem) :
    (rest.foldl (fun winner candidate =>
      if candidate.scannedAt < winner.scannedAt then candidate else winner) first) ∈ first :: rest ∧
    ∀ x ∈ first :: rest, (rest.foldl (fun winner candidate =>
      if candidate.scannedAt < winner.scannedAt then candidate else winner) first).scannedAt ≤
        x.scannedAt := by
  induction rest generalizing first with
  | nil => simp
  | cons y rest ih =>
    rw [List.foldl_cons]
    by_cases hy : y.scannedAt < first.scannedAt
    · rw [if_pos hy]
      obtain ⟨hmem, hle⟩ := ih y
      refine ⟨List.mem_cons_of_mem _ hmem, fun x hx => ?_⟩
      rcases List.mem_cons.1 hx with rfl | hx
      · exact (hle y List.mem_cons_self).trans hy.le
      · exact hle x hx
    · rw [if_neg hy]
      obtain ⟨hmem, hle⟩ := ih first
      refine ⟨?_, fun x hx => ?_⟩
      · rcases List.mem_cons.1 hmem with hm | hm
        · rw [hm]
          exact List.mem_cons_self
        · exact List.mem_cons_of_mem _ (List.mem_cons_of_mem _ hm)
      · rcases List.mem_cons.1 hx with rfl | hx
        · exact hle x List.mem_cons_self
        · rcases List.mem_cons.1 hx with rfl | hx
          · exact (hle first List.mem_cons_self).trans (not_lt.1 hy)
          · exact hle x (List.mem_cons_of_mem _ hx)

theorem earliest_eq_none : earliest items = none ↔ items = [] := by
  cases items <;> simp [earliest]

theorem earliest_mem (hc : earliest items = some c) : c ∈ items := by
  cases items with
  | nil => simp [earliest] at hc
  | cons first rest =>
    rw [earliest, Option.some.injEq] at hc
    exact hc ▸ (foldl_earliest rest first).1

theorem earliest_le (hc : earliest items = some c) : ∀ x ∈ items, c.scannedAt ≤ x.scannedAt := by
  cases items with
  | nil => simp
  | cons first rest =>
    rw [earliest, Option.some.injEq] at hc
    exact hc ▸ (foldl_earliest rest first).2

theorem earliest_filter_codeHash (hc : earliest (items.filter (·.codeHash == h)) = some c) :
    c.codeHash = h := by
  simpa using (List.mem_filter.1 (earliest_mem hc)).2

theorem mem_collapseClaims :
    c ∈ collapseClaims items ↔ earliest (items.filter (·.codeHash == c.codeHash)) = some c := by
  rw [collapseClaims, List.mem_filterMap]
  constructor
  · rintro ⟨h, -, hc⟩
    rwa [earliest_filter_codeHash hc]
  · intro hc
    refine ⟨c.codeHash, ?_, hc⟩
    rw [List.mem_dedup]
    exact List.mem_map_of_mem (List.mem_filter.1 (earliest_mem hc)).1

theorem claimsByHash_eq (items : List ClaimItem) (h : String) :
    claimsByHash items h = earliest (items.filter (·.codeHash == h)) := by
  rw [claimsByHash]
  cases hf : (collapseClaims items).find? (·.codeHash == h) with
  | some c =>
    have hh : c.codeHash = h := by simpa using List.find?_some hf
    rw [← hh]
    exact (mem_collapseClaims.1 (List.mem_of_find?_eq_some hf)).symm
  | none =>
    cases he : earliest (items.filter (·.codeHash == h)) with
    | none => rfl
    | some c =>
      have hh := earliest_filter_codeHash he
      refine absurd (List.find?_eq_none.1 hf c (mem_collapseClaims.2 (hh ▸ he))) ?_
      simp [hh]

theorem claimsByHash_mem (hc : claimsByHash items h = some c) : c ∈ items ∧ c.codeHash = h := by
  rw [claimsByHash_eq] at hc
  exact ⟨(List.mem_filter.1 (earliest_mem hc)).1, earliest_filter_codeHash hc⟩

theorem claimsByHash_le (hc : claimsByHash items h = some c) {x : ClaimItem} (hx : x ∈ items)
    (hh : x.codeHash = h) : c.scannedAt ≤ x.scannedAt := by
  rw [claimsByHash_eq] at hc
  exact earliest_le hc x (List.mem_filter.2 ⟨hx, by simpa using hh⟩)

theorem claimsByHash_eq_none : claimsByHash items h = none ↔ ∀ x ∈ items, x.codeHash ≠ h := by
  rw [claimsByHash_eq, earliest_eq_none, List.filter_eq_nil_iff]
  simp

theorem mem_claimHashes : h ∈ claimHashes items ↔ ∃ x ∈ items, x.codeHash = h := by
  rw [claimHashes, List.mem_insertionSort, List.mem_dedup, List.mem_map]

theorem nodup_claimHashes : (claimHashes items).Nodup :=
  (List.perm_insertionSort _ _).nodup_iff.2 (List.nodup_dedup _)

theorem claimsByHash_isSome : (claimsByHash items h).isSome ↔ h ∈ claimHashes items := by
  rw [mem_claimHashes, Option.isSome_iff_ne_none, ne_eq, claimsByHash_eq_none]
  simp

theorem exists_claim (hh : h ∈ claimHashes items) : ∃ c, claimsByHash items h = some c :=
  Option.isSome_iff_exists.1 (claimsByHash_isSome.2 hh)

end Collapse

/-! ## The registry after the claims -/

/-- A claim takes a code that no scan owns, or whose owner was scanned strictly later. -/
def settleClaim (owner : Option Scan) (claim : Scan) : Scan :=
  match owner with
  | none => claim
  | some row => if claim.scannedAt < row.scannedAt then claim else row

theorem settleClaim_le (owner : Option Scan) (claim : Scan) :
    (settleClaim owner claim).scannedAt ≤ claim.scannedAt ∧
      ∀ row ∈ owner, (settleClaim owner claim).scannedAt ≤ row.scannedAt := by
  cases owner with
  | none => simp [settleClaim]
  | some row =>
    rw [settleClaim]
    split
    case isTrue hlt => simpa using hlt.le
    case isFalse hlt => simpa using hlt

section Claim

variable {registry : String → Option Scan} {items : List ClaimItem} {c : ClaimItem} {h : String}

theorem claimCodes_registry_of_claim (hc : claimsByHash items h = some c) :
    (claimCodes registry items).registry h = some (settleClaim (registry h) c.toScan) := by
  simp only [claimCodes, upsertClaims, upsertWrites, insertClaims, hc, Option.map_some]
  cases registry h with
  | none => simp [settleClaim]
  | some row =>
    by_cases hlt : c.scannedAt < row.scannedAt
    · simp [settleClaim, hlt]
    · simp [settleClaim, hlt]

theorem claimCodes_registry_of_not (hh : h ∉ claimHashes items) :
    (claimCodes registry items).registry h = registry h := by
  have hc : claimsByHash items h = none := by
    rwa [← Option.not_isSome_iff_eq_none, claimsByHash_isSome]
  simp only [claimCodes, upsertClaims, upsertWrites, insertClaims, hc]
  cases registry h <;> simp

theorem mem_won_of_fresh (hh : h ∈ claimHashes items) (hr : registry h = none) :
    h ∈ (claimHashes items).filter (fun h => (registry h).isNone) ++
      (claimHashes items).filter
        (upsertWrites (claimsByHash items) (insertClaims (claimsByHash items) registry)) :=
  List.mem_append_left _ (List.mem_filter.2 ⟨hh, by simp [hr]⟩)

theorem mem_won_iff {row : Scan} (hc : claimsByHash items h = some c) (hr : registry h = some row) :
    h ∈ (claimHashes items).filter (fun h => (registry h).isNone) ++
      (claimHashes items).filter
        (upsertWrites (claimsByHash items) (insertClaims (claimsByHash items) registry)) ↔
    c.scannedAt < row.scannedAt := by
  have hh : h ∈ claimHashes items := claimsByHash_isSome.1 (by rw [hc]; rfl)
  rw [List.mem_append, List.mem_filter, List.mem_filter]
  simp [hh, hr, upsertWrites, insertClaims, hc]

theorem claimCodes_ownerByHash (hh : h ∈ claimHashes items) :
    (claimCodes registry items).ownerByHash h = (claimCodes registry items).registry h := by
  obtain ⟨c, hc⟩ := exists_claim hh
  rw [claimCodes_registry_of_claim hc]
  simp only [claimCodes, if_pos hh, hc, Option.map_some]
  cases hr : registry h with
  | none => rw [if_pos (mem_won_of_fresh hh hr), settleClaim]
  | some row =>
    by_cases hlt : c.scannedAt < row.scannedAt
    · rw [if_pos ((mem_won_iff hc hr).2 hlt), settleClaim, if_pos hlt]
    · rw [if_neg fun hw => hlt ((mem_won_iff hc hr).1 hw), settleClaim, if_neg hlt]
      simp [insertClaims, hr]

@[simp] theorem claimCodes_hashes : (claimCodes registry items).hashes = claimHashes items := rfl

/-! ## The conflicts it records -/

theorem claimCodes_ownLosses :
    (claimCodes registry items).ownLosses = items.filterMap fun item =>
      ((claimCodes registry items).registry item.codeHash).bind fun owner =>
        if item.toScan = owner then none else some ⟨item.codeHash, item.toScan, owner⟩ := by
  change conflictsAgainstOwner items (claimCodes registry items).ownerByHash = _
  rw [conflictsAgainstOwner]
  refine List.filterMap_congr fun item hitem => ?_
  rw [claimCodes_ownerByHash (mem_claimHashes.2 ⟨item, hitem, rfl⟩)]
  cases (claimCodes registry items).registry item.codeHash with
  | none => rfl
  | some owner =>
    by_cases ho : item.toScan = owner
    · simp [ho]
    · simp [ho]

/-- The displaced incumbents: the owners that gave way to a strictly earlier claim. -/
theorem mem_displaced {x : ConflictRow} :
    x ∈ (claimCodes registry items).displaced ↔
      ∃ c, claimsByHash items x.codeHash = some c ∧ registry x.codeHash = some x.losing ∧
        c.scannedAt < x.losing.scannedAt ∧ x.winning = c.toScan := by
  change x ∈ displacedIncumbents ((claimHashes items).filterMap (claimsByHash items)) _ _ ↔ _
  rw [displacedIncumbents, List.mem_filterMap]
  constructor
  · rintro ⟨c, hc, hx⟩
    obtain ⟨h, hh, hch⟩ := List.mem_filterMap.1 hc
    have hcode := (claimsByHash_mem hch).2
    subst hcode
    split at hx
    case isFalse => cases hx
    case isTrue hw =>
      cases hr : registry c.codeHash with
      | none => simp [insertClaims, hr, hch] at hx
      | some row =>
        have hlt := (mem_won_iff hch hr).1 hw
        simp only [insertClaims, hr] at hx
        split at hx
        · cases hx
        · cases hx
          exact ⟨c, hch, hr, hlt, rfl⟩
  · rintro ⟨c, hc, hr, hlt, hw⟩
    have hcode := (claimsByHash_mem hc).2
    refine ⟨c, List.mem_filterMap.2 ⟨x.codeHash, claimsByHash_isSome.1 (by rw [hc]; rfl), hc⟩, ?_⟩
    have hne : sameScan x.losing c.toScan = false := by
      rw [sameScan_false]
      intro he
      rw [he] at hlt
      exact lt_irrefl _ hlt
    rw [hcode, if_pos ((mem_won_iff hc hr).2 hlt)]
    simp only [insertClaims, hr, hne]
    cases x
    cases hw
    rfl

theorem nodup_displaced : ((claimCodes registry items).displaced.map (·.codeHash)).Nodup := by
  have hclaims : (((claimHashes items).filterMap (claimsByHash items)).map (·.codeHash)).Sublist
      ((claimHashes items).map id) :=
    sublist_of_filterMap fun h c hc => (claimsByHash_mem hc).2
  rw [List.map_id] at hclaims
  refine (nodup_claimHashes.sublist hclaims).sublist (sublist_of_filterMap fun c x hx => ?_)
  split at hx
  case isFalse => cases hx
  case isTrue =>
    split at hx
    · cases hx
    · split at hx
      · cases hx
      · cases hx
        rfl

end Claim

end Markiro.Cloud
