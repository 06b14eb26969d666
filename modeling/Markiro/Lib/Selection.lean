import Mathlib

/-!
# Selections that do not depend on the path

A selection keeps a part of every finite set. Selecting again and again while the set grows ends
where selecting once from everything ends, when two things hold: what is kept of a larger set is kept
of a smaller one that has it (`Selection.heritage`), and what was not kept can go without changing
what is kept (`SettledBy`). `firsts` keeps the newest element of each of the `n` newest keys; it is
settled, and so is a union of such selections with one that looks no further than the newest element.
-/

namespace Selections

variable {α β κ : Type} [LinearOrder β] [DecidableEq κ]

/-- A selection: it keeps elements of the set, and keeps of a part what it keeps of the whole. -/
structure Selection (S : Finset α → Finset α) : Prop where
  subset : ∀ A, S A ⊆ A
  heritage : ∀ {A B x}, A ⊆ B → x ∈ S B → x ∈ A → x ∈ S A

/-- What `T` keeps does not grow when elements go that `S` does not keep. -/
def SettledBy (S T : Finset α → Finset α) : Prop :=
  ∀ A B, S A ⊆ B → B ⊆ A → T B ⊆ T A

section

variable {S T : Finset α → Finset α} {A B : Finset α}

theorem SettledBy.mono {S' : Finset α → Finset α} (h : SettledBy S T) (hS : ∀ A, S A ⊆ S' A) :
    SettledBy S' T :=
  fun A B hsub hB => h A B ((hS A).trans hsub) hB

theorem Selection.eq_of_between (hS : Selection S) (h : SettledBy S S) (hsub : S A ⊆ B)
    (hB : B ⊆ A) : S B = S A := by
  apply Finset.Subset.antisymm
  · exact h A B hsub hB
  · intro x hx
    exact hS.heritage hB hx (hsub hx)

theorem Selection.idempotent (hS : Selection S) (h : SettledBy S S) : S (S A) = S A :=
  hS.eq_of_between h (Finset.Subset.refl _) (hS.subset A)

variable [DecidableEq α]

theorem Selection.union (hS : Selection S) (hT : Selection T) : Selection fun A => S A ∪ T A where
  subset A := Finset.union_subset (hS.subset A) (hT.subset A)
  heritage := by
    intro A B x hAB hx hxA
    rcases Finset.mem_union.1 hx with hx | hx
    · exact Finset.mem_union_left _ (hS.heritage hAB hx hxA)
    · exact Finset.mem_union_right _ (hT.heritage hAB hx hxA)

theorem SettledBy.union {U : Finset α → Finset α} (hS : SettledBy U S) (hT : SettledBy U T) :
    SettledBy U fun A => S A ∪ T A :=
  fun A B hsub hB => Finset.union_subset_union (hS A B hsub hB) (hT A B hsub hB)

/-- **Path independence**: selecting from what was selected before, with what has come since, is
selecting from everything. -/
theorem Selection.path_independent (hS : Selection S) (h : SettledBy S S) :
    S (S A ∪ B) = S (A ∪ B) := by
  apply hS.eq_of_between h
  · intro x hx
    rcases Finset.mem_union.1 (hS.subset _ hx) with hxA | hxB
    · exact Finset.mem_union_left _ (hS.heritage Finset.subset_union_left hx hxA)
    · exact Finset.mem_union_right _ hxB
  · exact Finset.union_subset_union (hS.subset A) (Finset.Subset.refl B)

end

/-! ## The newest of each of the newest keys -/

section Firsts

variable (rank : α → β) (key : α → κ) (n : ℕ)

/-- The keys of the elements newer than `x`. -/
def keysAbove (A : Finset α) (x : α) : Finset κ := (A.filter fun y => rank x < rank y).image key

/-- The newest element of each of the `n` newest keys. -/
def firsts (A : Finset α) : Finset α :=
  A.filter fun x => (∀ y ∈ A, rank x < rank y → key y ≠ key x) ∧ (keysAbove rank key A x).card < n

variable {rank key n} {A B : Finset α} {x y : α} {k : κ}

theorem mem_keysAbove : k ∈ keysAbove rank key A x ↔ ∃ y ∈ A, rank x < rank y ∧ key y = k := by
  rw [keysAbove, Finset.mem_image]
  constructor
  · rintro ⟨y, hy, rfl⟩
    obtain ⟨h1, h2⟩ := Finset.mem_filter.1 hy
    exact ⟨y, h1, h2, rfl⟩
  · rintro ⟨y, h1, h2, rfl⟩
    exact ⟨y, Finset.mem_filter.2 ⟨h1, h2⟩, rfl⟩

theorem keysAbove_mono (h : A ⊆ B) : keysAbove rank key A x ⊆ keysAbove rank key B x := by
  intro k hk
  obtain ⟨y, h1, h2⟩ := mem_keysAbove.1 hk
  exact mem_keysAbove.2 ⟨y, h h1, h2⟩

theorem keysAbove_anti (h : rank x ≤ rank y) : keysAbove rank key A y ⊆ keysAbove rank key A x := by
  intro k hk
  obtain ⟨z, h1, h2, h3⟩ := mem_keysAbove.1 hk
  exact mem_keysAbove.2 ⟨z, h1, h.trans_lt h2, h3⟩

theorem mem_firsts : x ∈ firsts rank key n A ↔
    x ∈ A ∧ (∀ y ∈ A, rank x < rank y → key y ≠ key x) ∧ (keysAbove rank key A x).card < n :=
  Finset.mem_filter

theorem firsts_selection : Selection (firsts rank key n (α := α)) where
  subset _ := Finset.filter_subset _ _
  heritage := by
    intro A B x hAB hx hxA
    obtain ⟨-, htop, hcard⟩ := mem_firsts.1 hx
    refine mem_firsts.2 ⟨hxA, fun y hy => htop y (hAB hy), ?_⟩
    exact (Finset.card_le_card (keysAbove_mono hAB)).trans_lt hcard

theorem exists_first (hy : y ∈ A) (hcard : (keysAbove rank key A y).card < n) :
    ∃ z ∈ firsts rank key n A, key z = key y ∧ rank y ≤ rank z := by
  obtain ⟨z, hz, hmax⟩ := (A.filter fun z => key z = key y).exists_max_image rank
    ⟨y, Finset.mem_filter.2 ⟨hy, rfl⟩⟩
  obtain ⟨hzA, hzk⟩ := Finset.mem_filter.1 hz
  have hle : rank y ≤ rank z := hmax y (Finset.mem_filter.2 ⟨hy, rfl⟩)
  refine ⟨z, mem_firsts.2 ⟨hzA, fun w hw hlt hk => ?_, ?_⟩, hzk, hle⟩
  · exact absurd (hmax w (Finset.mem_filter.2 ⟨hw, hk.trans hzk⟩)) (not_le.2 hlt)
  · exact (Finset.card_le_card (keysAbove_anti hle)).trans_lt hcard

/-- The elements newer than `x` that fewer than `n` keys stand above. -/
def high (rank : α → β) (key : α → κ) (n : ℕ) (A : Finset α) (x : α) : Finset α :=
  A.filter fun y => rank x < rank y ∧ (keysAbove rank key A y).card < n

theorem le_card_high (h : n ≤ (keysAbove rank key A x).card) :
    n ≤ ((high rank key n A x).image key).card := by
  classical
  by_contra hlt
  rw [not_le] at hlt
  have hne : ((A.filter fun y => rank x < rank y) \ high rank key n A x).Nonempty := by
    rw [Finset.nonempty_iff_ne_empty]
    intro hempty
    have hsub := Finset.card_le_card (Finset.image_subset_image (f := key)
      (Finset.sdiff_eq_empty_iff_subset.1 hempty))
    exact absurd (h.trans hsub) (not_le.2 hlt)
  obtain ⟨w, hw, hmax⟩ := Finset.exists_max_image _ rank hne
  obtain ⟨hwW, hwU⟩ := Finset.mem_sdiff.1 hw
  obtain ⟨hwA, hxw⟩ := Finset.mem_filter.1 hwW
  apply hwU
  refine Finset.mem_filter.2 ⟨hwA, hxw, lt_of_le_of_lt (Finset.card_le_card ?_) hlt⟩
  intro k hk
  obtain ⟨y, hy, hwy, rfl⟩ := mem_keysAbove.1 hk
  refine Finset.mem_image_of_mem _ ?_
  by_contra hyU
  have hyW : y ∈ A.filter fun y => rank x < rank y := Finset.mem_filter.2 ⟨hy, hxw.trans hwy⟩
  exact absurd (hmax y (Finset.mem_sdiff.2 ⟨hyW, hyU⟩)) (not_le.2 hwy)

theorem high_keys (hsub : firsts rank key n A ⊆ B) :
    (high rank key n A x).image key ⊆ keysAbove rank key B x := by
  intro k hk
  obtain ⟨y, hy, rfl⟩ := Finset.mem_image.1 hk
  obtain ⟨hyA, hxy, hcard⟩ := Finset.mem_filter.1 hy
  obtain ⟨z, hz, hzk, hle⟩ := exists_first hyA hcard
  exact mem_keysAbove.2 ⟨z, hsub hz, hxy.trans_le hle, hzk⟩

/-- **The newest of the newest keys are settled**: what goes stands behind what stays. -/
theorem firsts_settled : SettledBy (firsts rank key n (α := α)) (firsts rank key n) := by
  intro A B hsub hBA x hx
  obtain ⟨hxB, htop, hcard⟩ := mem_firsts.1 hx
  have hfew : (keysAbove rank key A x).card < n := by
    by_contra hmany
    rw [not_lt] at hmany
    have hle := Finset.card_le_card (high_keys (x := x) hsub)
    exact absurd ((le_card_high hmany).trans hle) (not_le.2 hcard)
  refine mem_firsts.2 ⟨hBA hxB, fun y hy hlt hk => ?_, hfew⟩
  have hyfew : (keysAbove rank key A y).card < n :=
    (Finset.card_le_card (keysAbove_anti hlt.le)).trans_lt hfew
  obtain ⟨z, hz, hzk, hle⟩ := exists_first hy hyfew
  exact htop z (hsub hz) (hlt.trans_le hle) (hzk.trans hk)

theorem newest_mem_firsts (hn : 0 < n) (hx : x ∈ A) (hmax : ∀ y ∈ A, rank y ≤ rank x) :
    x ∈ firsts rank key n A := by
  refine mem_firsts.2 ⟨hx, fun y hy hlt => absurd (hmax y hy) (not_le.2 hlt), ?_⟩
  have hempty : keysAbove rank key A x = ∅ := by
    rw [Finset.eq_empty_iff_forall_notMem]
    intro k hk
    obtain ⟨y, hy, hlt, -⟩ := mem_keysAbove.1 hk
    exact absurd (hmax y hy) (not_le.2 hlt)
  rw [hempty, Finset.card_empty]
  exact hn

end Firsts

/-! ## Close behind the newest -/

section Near

variable {rank : α → β} (near : α → α → Prop) [DecidableRel near]

/-- The elements that are near every element of the set. -/
def nearAll (A : Finset α) : Finset α := A.filter fun x => ∀ y ∈ A, near y x

variable {near} {S : Finset α → Finset α}

theorem nearAll_selection : Selection (nearAll near) where
  subset _ := Finset.filter_subset _ _
  heritage := by
    intro A B x hAB hx hxA
    obtain ⟨-, hnear⟩ := Finset.mem_filter.1 hx
    exact Finset.mem_filter.2 ⟨hxA, fun y hy => hnear y (hAB hy)⟩

theorem nearAll_settled (hnear : ∀ x y z, rank y ≤ rank z → near z x → near y x)
    (hnewest : ∀ A x, x ∈ A → (∀ y ∈ A, rank y ≤ rank x) → x ∈ S A) :
    SettledBy S (nearAll near) := by
  intro A B hsub hBA x hx
  obtain ⟨hxB, hall⟩ := Finset.mem_filter.1 hx
  obtain ⟨m, hm, hmax⟩ := A.exists_max_image rank ⟨x, hBA hxB⟩
  refine Finset.mem_filter.2 ⟨hBA hxB, fun y hy => ?_⟩
  exact hnear x y m (hmax y hy) (hall m (hsub (hnewest A m hm hmax)))

end Near

/-! ## Picking from a sorted list -/

section Pick

variable (key : α → κ) (n : ℕ)

def see (x : α) (seen : List κ) : List κ :=
  if seen.length < n ∧ key x ∉ seen then seen ++ [key x] else seen

/-- Go through a list and take the first element of each of the first `n` keys that are not seen
yet. -/
def pick : List α → List κ → List α
  | [], _ => []
  | x :: l, seen =>
    if seen.length < n ∧ key x ∉ seen then x :: pick l (seen ++ [key x]) else pick l seen

variable {key n} {l : List α} {seen : List κ} {x : α}

theorem mem_pick_cons {y : α} : x ∈ pick key n (y :: l) seen ↔
    (seen.length < n ∧ key y ∉ seen) ∧ x = y ∨ x ∈ pick key n l (see key n y seen) := by
  rw [pick, see]
  split_ifs with h
  · rw [List.mem_cons]
    tauto
  · tauto

theorem pick_full (h : ¬ seen.length < n) : pick key n l seen = [] := by
  induction l with
  | nil => rfl
  | cons y l ih =>
    rw [pick, if_neg fun hc => h hc.1]
    exact ih

theorem mem_pick (hseen : seen.Nodup) : x ∈ pick key n l seen ↔
    ∃ l₁ l₂, l = l₁ ++ x :: l₂ ∧ key x ∉ seen ∧ (∀ y ∈ l₁, key y ≠ key x) ∧
      (seen ++ l₁.map key).toFinset.card < n := by
  induction l generalizing seen with
  | nil => simp [pick]
  | cons y l ih =>
    have hcard : seen.toFinset.card = seen.length := List.toFinset_card_of_nodup hseen
    rw [pick]
    split_ifs with hc
    · have hnodup : (seen ++ [key y]).Nodup := by
        rw [List.nodup_append]
        exact ⟨hseen, List.nodup_singleton _, fun a ha b hb hab =>
          hc.2 (List.mem_singleton.1 hb ▸ hab ▸ ha)⟩
      rw [List.mem_cons, ih hnodup]
      constructor
      · rintro (rfl | ⟨l₁, l₂, rfl, hx, hl, hn⟩)
        · refine ⟨[], l, rfl, hc.2, nofun, ?_⟩
          rw [List.map_nil, List.append_nil, hcard]
          exact hc.1
        · rw [List.mem_append, List.mem_singleton, not_or] at hx
          refine ⟨y :: l₁, l₂, rfl, hx.1, ?_, ?_⟩
          · intro z hz
            rcases List.mem_cons.1 hz with rfl | hz
            · exact Ne.symm hx.2
            · exact hl z hz
          · rw [List.map_cons, List.append_cons]
            exact hn
      · rintro ⟨l₁, l₂, hl, hx, hk, hn⟩
        cases l₁ with
        | nil => exact .inl (List.cons.inj hl).1.symm
        | cons z l₁ =>
          obtain ⟨rfl, rfl⟩ := List.cons.inj hl
          refine .inr ⟨l₁, l₂, rfl, ?_, fun w hw => hk w (List.mem_cons_of_mem _ hw), ?_⟩
          · rw [List.mem_append, List.mem_singleton, not_or]
            exact ⟨hx, Ne.symm (hk y List.mem_cons_self)⟩
          · rw [List.map_cons, List.append_cons] at hn
            exact hn
    · rw [ih hseen]
      by_cases hfull : seen.length < n
      · have hy : key y ∈ seen := by
          by_contra hy
          exact hc ⟨hfull, hy⟩
        have hset : ∀ l₁ : List α, (seen ++ (y :: l₁).map key).toFinset =
            (seen ++ l₁.map key).toFinset := by
          intro l₁
          ext k
          simp only [List.map_cons, List.mem_toFinset, List.mem_append, List.mem_cons]
          constructor
          · rintro (h | rfl | h)
            · exact .inl h
            · exact .inl hy
            · exact .inr h
          · rintro (h | h)
            · exact .inl h
            · exact .inr (.inr h)
        constructor
        · rintro ⟨l₁, l₂, rfl, hx, hk, hn⟩
          refine ⟨y :: l₁, l₂, rfl, hx, ?_, ?_⟩
          · intro z hz
            rcases List.mem_cons.1 hz with rfl | hz
            · exact fun h => hx (h ▸ hy)
            · exact hk z hz
          · rw [hset]
            exact hn
        · rintro ⟨l₁, l₂, hl, hx, hk, hn⟩
          cases l₁ with
          | nil => exact absurd ((List.cons.inj hl).1 ▸ hy) hx
          | cons z l₁ =>
            obtain ⟨rfl, rfl⟩ := List.cons.inj hl
            refine ⟨l₁, l₂, rfl, hx, fun w hw => hk w (List.mem_cons_of_mem _ hw), ?_⟩
            rw [hset] at hn
            exact hn
      · have hmany : ∀ l₁ : List α, ¬ (seen ++ l₁.map key).toFinset.card < n := by
          intro l₁ hlt
          have hle : seen.toFinset.card ≤ (seen ++ l₁.map key).toFinset.card := by
            apply Finset.card_le_card
            intro k hk
            rw [List.mem_toFinset] at hk ⊢
            exact List.mem_append_left _ hk
          omega
        constructor
        · rintro ⟨l₁, -, -, -, -, hn⟩
          exact absurd hn (hmany l₁)
        · rintro ⟨l₁, -, -, -, -, hn⟩
          exact absurd hn (hmany l₁)

theorem pick_eq_take (h : (seen ++ l.map key).Nodup) :
    pick key n l seen = l.take (n - seen.length) := by
  induction l generalizing seen with
  | nil => rw [pick, List.take_nil]
  | cons y l ih =>
    rw [List.map_cons, List.append_cons] at h
    by_cases hlt : seen.length < n
    · have hy : key y ∉ seen := by
        intro hy
        have h2 := (List.nodup_append.1 (List.nodup_append.1 h).1).2.2
        exact h2 _ hy _ (List.mem_singleton.2 rfl) rfl
      rw [pick, if_pos ⟨hlt, hy⟩, ih h, List.length_append, List.length_singleton,
        show n - seen.length = n - (seen.length + 1) + 1 by omega, List.take_succ_cons]
    · rw [pick_full hlt, Nat.sub_eq_zero_of_le (not_lt.1 hlt), List.take_zero]

variable {rank : α → β}

theorem mem_before [DecidableEq α] {l₁ l₂ : List α}
    (hl : (l₁ ++ x :: l₂).Pairwise fun a b => rank b < rank a) {y : α} :
    y ∈ l₁ ↔ y ∈ l₁ ++ x :: l₂ ∧ rank x < rank y := by
  obtain ⟨-, h2, h3⟩ := List.pairwise_append.1 hl
  constructor
  · intro hy
    exact ⟨List.mem_append_left _ hy, h3 y hy x List.mem_cons_self⟩
  · rintro ⟨hy, hlt⟩
    rcases List.mem_append.1 hy with hy | hy
    · exact hy
    · rcases List.mem_cons.1 hy with rfl | hy
      · exact absurd hlt (lt_irrefl _)
      · exact absurd hlt ((List.pairwise_cons.1 h2).1 y hy).asymm

/-- **Picking from the newest on is the selection of the newest of the newest keys.** -/
theorem mem_pick_iff [DecidableEq α] (hl : l.Pairwise fun a b => rank b < rank a) :
    x ∈ pick key n l [] ↔ x ∈ firsts rank key n l.toFinset := by
  have hkeys : ∀ {l₁ l₂ : List α}, l = l₁ ++ x :: l₂ →
      keysAbove rank key l.toFinset x = ([] ++ l₁.map key).toFinset := by
    rintro l₁ l₂ rfl
    ext k
    rw [mem_keysAbove, List.nil_append, List.mem_toFinset, List.mem_map]
    constructor
    · rintro ⟨y, hy, hlt, hk⟩
      exact ⟨y, (mem_before hl).2 ⟨List.mem_toFinset.1 hy, hlt⟩, hk⟩
    · rintro ⟨y, hy, hk⟩
      obtain ⟨h1, h2⟩ := (mem_before hl).1 hy
      exact ⟨y, List.mem_toFinset.2 h1, h2, hk⟩
  rw [mem_pick List.nodup_nil, mem_firsts, List.mem_toFinset]
  constructor
  · rintro ⟨l₁, l₂, heq, -, htop, hn⟩
    refine ⟨heq ▸ List.mem_append_right _ List.mem_cons_self, fun y hy hlt => ?_, ?_⟩
    · refine htop y ?_
      rw [mem_before (heq ▸ hl), ← heq]
      exact ⟨List.mem_toFinset.1 hy, hlt⟩
    · rw [hkeys heq]
      exact hn
  · rintro ⟨hx, htop, hn⟩
    obtain ⟨l₁, l₂, heq⟩ := List.append_of_mem hx
    refine ⟨l₁, l₂, heq, List.not_mem_nil, fun y hy => ?_, ?_⟩
    · obtain ⟨h1, h2⟩ := (mem_before (heq ▸ hl)).1 hy
      exact htop y (List.mem_toFinset.2 (heq ▸ h1)) h2
    · rw [← hkeys heq]
      exact hn

end Pick

end Selections
