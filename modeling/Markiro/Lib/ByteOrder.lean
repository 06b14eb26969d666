import Markiro.Lib.Lines

/-!
# Texts in the order of their bytes

Lists of numbers in the order of a dictionary (`notAfter`), sorts by such a key, which give the same
keys for every order of the list (`map_insertionSort_of_perm`), and the texts that their bytes tell
apart: those without unpaired surrogates (`utf8Bytes_inj`).
-/

namespace Utf16

/-! ## The order of a dictionary -/

/-- Whether a list of numbers comes before another in a dictionary, or is it. -/
def notAfter : List ℕ → List ℕ → Bool
  | [], _ => true
  | _ :: _, [] => false
  | a :: l, b :: m => decide (a < b) || (a == b && notAfter l m)

theorem notAfter_cons {a b : ℕ} {l m : List ℕ} :
    notAfter (a :: l) (b :: m) = true ↔ a < b ∨ a = b ∧ notAfter l m = true := by
  simp [notAfter]

theorem notAfter_total (l m : List ℕ) : notAfter l m = true ∨ notAfter m l = true := by
  induction l generalizing m with
  | nil => exact .inl rfl
  | cons a l ih =>
    cases m with
    | nil => exact .inr rfl
    | cons b m =>
      rw [notAfter_cons, notAfter_cons]
      have h := ih m
      by_cases hab : a = b
      · exact h.imp (fun h => .inr ⟨hab, h⟩) fun h => .inr ⟨hab.symm, h⟩
      · rcases Nat.lt_or_gt_of_ne hab with hlt | hlt
        · exact .inl (.inl hlt)
        · exact .inr (.inl hlt)

theorem notAfter_trans {l m n : List ℕ} (h : notAfter l m = true) (h' : notAfter m n = true) :
    notAfter l n = true := by
  induction l generalizing m n with
  | nil => rfl
  | cons a l ih =>
    cases m with
    | nil => cases h
    | cons b m =>
      cases n with
      | nil => cases h'
      | cons c n =>
        rw [notAfter_cons] at h h' ⊢
        rcases h with h | ⟨rfl, h⟩
        · rcases h' with h' | ⟨rfl, -⟩
          · exact .inl (h.trans h')
          · exact .inl h
        · exact h'.imp id fun h' => ⟨h'.1, ih h h'.2⟩

theorem notAfter_antisymm {l m : List ℕ} (h : notAfter l m = true) (h' : notAfter m l = true) :
    l = m := by
  induction l generalizing m with
  | nil =>
    cases m with
    | nil => rfl
    | cons b m => cases h'
  | cons a l ih =>
    cases m with
    | nil => cases h
    | cons b m =>
      rw [notAfter_cons] at h h'
      rcases h with h | ⟨rfl, h⟩
      · rcases h' with h' | ⟨rfl, -⟩ <;> omega
      · rcases h' with h' | ⟨-, h'⟩
        · omega
        · rw [ih h h']

/-! ## Sorts by a key -/

section Keys

variable {α : Type} (key : α → List ℕ) {l l' : List α}

instance : Std.Total fun a b : α => notAfter (key a) (key b) = true :=
  ⟨fun a b => notAfter_total (key a) (key b)⟩

instance : IsTrans α fun a b : α => notAfter (key a) (key b) = true :=
  ⟨fun _ _ _ => notAfter_trans⟩

/-- The elements in the order of their keys. -/
def sortByKey (l : List α) : List α := l.insertionSort fun a b => notAfter (key a) (key b) = true

theorem perm_sortByKey : (sortByKey key l).Perm l := List.perm_insertionSort _ _

@[simp] theorem mem_sortByKey {a : α} : a ∈ sortByKey key l ↔ a ∈ l := (perm_sortByKey key).mem_iff

theorem pairwise_sortByKey :
    (sortByKey key l).Pairwise fun a b => notAfter (key a) (key b) = true :=
  List.pairwise_insertionSort _ _

/-- **The keys of a sorted list do not depend on the order it had.** -/
theorem map_sortByKey_of_perm (h : l.Perm l') :
    (sortByKey key l).map key = (sortByKey key l').map key := by
  have hsorted : ∀ l : List α,
      ((sortByKey key l).map key).Pairwise fun a b => notAfter a b = true := fun l => List.pairwise_map.2 (pairwise_sortByKey key)
  refine List.Perm.eq_of_pairwise (fun _ _ _ _ => notAfter_antisymm) (hsorted l) (hsorted l') ?_
  exact ((perm_sortByKey key).trans (h.trans (perm_sortByKey key).symm)).map key

/-- What the keys tell apart does not depend on it either. -/
theorem map_sortByKey_congr {β : Type} {f : α → β} (h : l.Perm l')
    (hf : ∀ a ∈ l, ∀ b ∈ l, key a = key b → f a = f b) :
    (sortByKey key l).map f = (sortByKey key l').map f := by
  have hkeys := map_sortByKey_of_perm key h
  have hmem : ∀ a ∈ sortByKey key l, a ∈ l := fun a => (mem_sortByKey key).1
  have hmem' : ∀ a ∈ sortByKey key l', a ∈ l := fun a ha => h.mem_iff.2 ((mem_sortByKey key).1 ha)
  generalize sortByKey key l = s at hkeys hmem
  generalize sortByKey key l' = s' at hkeys hmem'
  induction s generalizing s' with
  | nil =>
    cases s' with
    | nil => rfl
    | cons b s' => cases hkeys
  | cons a s ih =>
    cases s' with
    | nil => cases hkeys
    | cons b s' =>
      obtain ⟨hab, hrest⟩ := List.cons.inj hkeys
      rw [List.map_cons, List.map_cons, hf a (hmem a List.mem_cons_self) b
        (hmem' b List.mem_cons_self) hab, ih (fun c hc => hmem c (List.mem_cons_of_mem _ hc)) _
        hrest fun c hc => hmem' c (List.mem_cons_of_mem _ hc)]

theorem sortByKey_of_perm (h : l.Perm l') (hnodup : (l.map key).Nodup) :
    sortByKey key l = sortByKey key l' := by
  have heq := map_sortByKey_congr key (f := id) h fun a ha b hb hab =>
    List.inj_on_of_nodup_map hnodup ha hb hab
  simpa using heq

theorem forall₂_sortByKey {β : Type} {key' : β → List ℕ} {R : α → β → Prop} {m : List β}
    (hR : ∀ a b, R a b → key a = key' b) (h : List.Forall₂ R l m) :
    List.Forall₂ R (sortByKey key l) (sortByKey key' m) := by
  have hinsert : ∀ {a b} {l : List α} {m : List β}, R a b → List.Forall₂ R l m →
      List.Forall₂ R (l.orderedInsert (fun a b => notAfter (key a) (key b) = true) a)
        (m.orderedInsert (fun a b => notAfter (key' a) (key' b) = true) b) := by
    intro a b l m hab hlm
    induction hlm with
    | nil => exact .cons hab .nil
    | @cons x y l m hxy hlm ih =>
      rw [List.orderedInsert, List.orderedInsert, hR a b hab, hR x y hxy]
      split_ifs
      · exact .cons hab (.cons hxy hlm)
      · exact .cons hxy ih
  induction h with
  | nil => exact .nil
  | cons hab _ ih => exact hinsert hab ih

end Keys

/-! ## Texts told apart by their bytes -/

def paired : Units → Bool
  | [] => true
  | u :: rest =>
    if isHighSurrogate u then
      match rest with
      | [] => false
      | v :: rest => isLowSurrogate v && paired rest
    else !isLowSurrogate u && paired rest

def unitsOfPoint (n : ℕ) : Units :=
  if n < 0x10000 then [UInt16.ofNat n]
  else [UInt16.ofNat (0xd800 + (n - 0x10000) / 0x400),
    UInt16.ofNat (0xdc00 + (n - 0x10000) % 0x400)]

/-- A text whose surrogates stand in pairs is read back from its code points. -/
theorem flatMap_points {s : Units} (h : paired s = true) : (points s).flatMap unitsOfPoint = s := by
  induction s using points.induct with
  | case1 => rfl
  | case2 u hu => simp [paired, hu] at h
  | case3 u hu v rest hv ih =>
    have hpair : paired rest = true := by
      rw [paired] at h
      simpa [hu, hv] using h
    rw [points]
    simp only [hu, hv, if_true, List.flatMap_cons]
    rw [ih hpair]
    simp only [isHighSurrogate, isLowSurrogate, Bool.and_eq_true, decide_eq_true_eq,
      UInt16.le_iff_toNat_le] at hu hv
    have hu1 : 0xd800 ≤ u.toNat := hu.1
    have hv1 : 0xdc00 ≤ v.toNat := hv.1
    have hv2 : v.toNat ≤ 0xdfff := hv.2
    have hlead : 0xd800 + (0x10000 + (u.toNat - 0xd800) * 0x400 + (v.toNat - 0xdc00) - 0x10000) /
        0x400 = u.toNat := by omega
    have htrail : 0xdc00 + (0x10000 + (u.toNat - 0xd800) * 0x400 + (v.toNat - 0xdc00) - 0x10000) %
        0x400 = v.toNat := by omega
    rw [unitsOfPoint, if_neg (by omega), hlead, htrail, UInt16.ofNat_toNat, UInt16.ofNat_toNat]
    rfl
  | case4 u hu v rest hv ih => simp [paired, hu, hv] at h
  | case5 u rest hu hlow ih =>
    rw [paired.eq_def] at h
    simp [hu, hlow] at h
  | case6 u rest hu hlow ih =>
    have hpair : paired rest = true := by
      rw [paired.eq_def] at h
      simpa [hu, hlow] using h
    rw [points.eq_def]
    simp only [hu, hlow, Bool.false_eq_true, if_false, List.flatMap_cons]
    rw [ih hpair, unitsOfPoint, if_pos (UInt16.toNat_lt u), UInt16.ofNat_toNat]
    rfl

theorem utf8Point_append_inj {m n : ℕ} {s t : List UInt8} (hm : m < 0x110000) (hn : n < 0x110000)
    (h : utf8Point m ++ s = utf8Point n ++ t) : m = n ∧ s = t := by
  have hbyte : ∀ {a b : ℕ}, UInt8.ofNat a = UInt8.ofNat b → a % 256 = b % 256 := by
    intro a b hab
    have htoNat := congrArg UInt8.toNat hab
    rwa [UInt8.toNat_ofNat', UInt8.toNat_ofNat'] at htoNat
  unfold utf8Point at h
  -- Of two code points whose bytes are of different number the first bytes differ.
  split_ifs at h <;> simp only [List.cons_append, List.nil_append, List.cons.injEq] at h
  all_goals have hlead := hbyte h.1
  all_goals first
    | omega
    | exact ⟨by omega, h.2⟩
    | exact ⟨by have h1 := hbyte h.2.1; omega, h.2.2⟩
    | exact ⟨by have h1 := hbyte h.2.1; have h2 := hbyte h.2.2.1; omega, h.2.2.2⟩
    | exact ⟨by have h1 := hbyte h.2.1; have h2 := hbyte h.2.2.1; have h3 := hbyte h.2.2.2.1; omega,
        h.2.2.2.2⟩

theorem flatMap_utf8Point_inj {l m : List ℕ} (hl : ∀ n ∈ l, n < 0x110000)
    (hm : ∀ n ∈ m, n < 0x110000) (h : l.flatMap utf8Point = m.flatMap utf8Point) : l = m := by
  have hne : ∀ n, utf8Point n ≠ [] := by
    intro n
    unfold utf8Point
    split_ifs <;> exact List.cons_ne_nil _ _
  induction l generalizing m with
  | nil =>
    cases m with
    | nil => rfl
    | cons n m => exact absurd (List.append_eq_nil_iff.1 h.symm).1 (hne n)
  | cons k l ih =>
    cases m with
    | nil => exact absurd (List.append_eq_nil_iff.1 h).1 (hne k)
    | cons n m =>
      rw [List.flatMap_cons, List.flatMap_cons] at h
      obtain ⟨rfl, hrest⟩ := utf8Point_append_inj (hl k List.mem_cons_self)
        (hm n List.mem_cons_self) h
      rw [ih (fun x hx => hl x (List.mem_cons_of_mem _ hx))
        (fun x hx => hm x (List.mem_cons_of_mem _ hx)) hrest]

/-- **The bytes tell texts apart whose surrogates stand in pairs.** -/
theorem utf8Bytes_inj {s t : Units} (hs : paired s = true) (ht : paired t = true)
    (h : utf8Bytes s = utf8Bytes t) : s = t := by
  rw [← flatMap_points hs, ← flatMap_points ht, flatMap_utf8Point_inj (points_lt s) (points_lt t) h]

end Utf16
