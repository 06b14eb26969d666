import Markiro.Host.Retention
import Markiro.Lib.Selection

/-!
# Retention does not depend on the path

What `keep` answers for a folder is a selection: the newest copy of each of the newest names, days
and months, with the copies before an upgrade that are near the newest (`kept_iff`). The first three
are settled by themselves and settle the fourth, so pruning a folder after every new copy keeps what
pruning its whole history once would keep.
-/

namespace Markiro.Backups

open Selections

/-- The copies of a folder: no name twice. -/
abbrev Folder := { copies : List Copy // (copies.map Prod.fst).Nodup }

/-- What orders two copies: the moment, then the name. -/
def rank (c : Copy) : ℤ ×ₗ String := toLex (c.2.nanos, c.1)

def near (y x : Copy) : Prop := isPreUpgrade x.1 = true ∧ y.2.nanos - keepNanos ≤ x.2.nanos

instance : DecidableRel near := fun _ _ => inferInstanceAs (Decidable (_ ∧ _))

def newest (A : Finset Copy) : Finset Copy :=
  firsts rank Prod.fst hourly A ∪ firsts rank day daily A ∪ firsts rank month monthly A

/-- What is kept of a set of copies. -/
def select (A : Finset Copy) : Finset Copy := newest A ∪ nearAll near A

/-! ## The selection -/

theorem rank_le_nanos {a b : Copy} (h : rank a ≤ rank b) : a.2.nanos ≤ b.2.nanos := by
  rcases Prod.Lex.toLex_le_toLex.1 h with h | h
  · exact h.le
  · exact h.1.le

theorem near_of_older {x y z : Copy} (h : rank y ≤ rank z) (hn : near z x) : near y x :=
  ⟨hn.1, (sub_le_sub_right (rank_le_nanos h) _).trans hn.2⟩

theorem newest_selection : Selection newest :=
  (firsts_selection.union firsts_selection).union firsts_selection

theorem select_selection : Selection select := newest_selection.union nearAll_selection

theorem newest_subset_select (A : Finset Copy) : newest A ⊆ select A := Finset.subset_union_left

theorem hourly_subset (A : Finset Copy) : firsts rank Prod.fst hourly A ⊆ select A :=
  fun _ h => newest_subset_select A (Finset.mem_union_left _ (Finset.mem_union_left _ h))

theorem daily_subset (A : Finset Copy) : firsts rank day daily A ⊆ select A :=
  fun _ h => newest_subset_select A (Finset.mem_union_left _ (Finset.mem_union_right _ h))

theorem monthly_subset (A : Finset Copy) : firsts rank month monthly A ⊆ select A :=
  fun _ h => newest_subset_select A (Finset.mem_union_right _ h)

theorem newest_mem_select {A : Finset Copy} {x : Copy} (hx : x ∈ A)
    (hmax : ∀ y ∈ A, rank y ≤ rank x) : x ∈ select A :=
  hourly_subset A (newest_mem_firsts (by decide) hx hmax)

/-- **What is kept settles itself.** -/
theorem select_settled : SettledBy select select := by
  have hnewest : SettledBy select newest :=
    ((firsts_settled.mono hourly_subset).union (firsts_settled.mono daily_subset)).union
      (firsts_settled.mono monthly_subset)
  exact hnewest.union (nearAll_settled (fun _ _ _ => near_of_older) fun _ _ => newest_mem_select)

/-! ## What the code keeps -/

theorem newestFirst_perm (copies : List Copy) : (newestFirst copies).Perm copies :=
  List.perm_insertionSort _ _

theorem mem_newestFirst {copies : List Copy} {c : Copy} : c ∈ newestFirst copies ↔ c ∈ copies :=
  (newestFirst_perm copies).mem_iff

theorem sortsBefore_iff {a b : Copy} : SortsBefore a b ↔ rank b ≤ rank a := by
  unfold SortsBefore rank
  rw [Prod.Lex.toLex_le_toLex]

instance : Std.Total SortsBefore :=
  ⟨fun a b => (le_total (rank b) (rank a)).imp sortsBefore_iff.2 sortsBefore_iff.2⟩

instance : IsTrans Copy SortsBefore :=
  ⟨fun _ _ _ h1 h2 => sortsBefore_iff.2 ((sortsBefore_iff.1 h2).trans (sortsBefore_iff.1 h1))⟩

theorem newestFirst_sorted (u : Folder) :
    (newestFirst u.1).Pairwise fun a b => rank b < rank a := by
  have hnames : (newestFirst u.1).Pairwise fun a b => a.1 ≠ b.1 :=
    List.pairwise_map.1 (((newestFirst_perm u.1).map Prod.fst).nodup_iff.2 u.2)
  refine ((List.pairwise_insertionSort SortsBefore u.1).and hnames).imp fun {a b} h => ?_
  refine lt_of_le_of_ne (sortsBefore_iff.1 h.1) fun heq => h.2 ?_
  exact (congrArg Prod.snd (toLex.injective heq)).symm

theorem takeDay_names (k : Kept) (c : Copy) (n : String) : n ∈ (k.takeDay c).names ↔
    n ∈ k.names ∨ (k.days.length < daily ∧ day c ∉ k.days) ∧ n = c.1 := by
  unfold Kept.takeDay
  split_ifs with h
  · rw [Finset.mem_insert]
    tauto
  · tauto

theorem takeMonth_names (k : Kept) (c : Copy) (n : String) : n ∈ (k.takeMonth c).names ↔
    n ∈ k.names ∨ (k.months.length < monthly ∧ month c ∉ k.months) ∧ n = c.1 := by
  unfold Kept.takeMonth
  split_ifs with h
  · rw [Finset.mem_insert]
    tauto
  · tauto

theorem take_days (k : Kept) (c : Copy) : (k.take c).days = see day daily c k.days := by
  unfold Kept.take Kept.takeMonth Kept.takeDay see
  split_ifs <;> rfl

theorem takeDay_months (k : Kept) (c : Copy) : (k.takeDay c).months = k.months := by
  unfold Kept.takeDay
  split_ifs <;> rfl

theorem take_months (k : Kept) (c : Copy) :
    (k.take c).months = see month monthly c k.months := by
  unfold Kept.take Kept.takeMonth see
  rw [takeDay_months]
  split_ifs
  · rfl
  · exact takeDay_months k c

theorem take_names (k : Kept) (c : Copy) (n : String) : n ∈ (k.take c).names ↔ n ∈ k.names ∨
    (k.days.length < daily ∧ day c ∉ k.days) ∧ n = c.1 ∨
    (k.months.length < monthly ∧ month c ∉ k.months) ∧ n = c.1 := by
  rw [Kept.take, takeMonth_names, takeDay_names, takeDay_months, or_assoc]

theorem foldl_take_names (l : List Copy) (k : Kept) (n : String) :
    n ∈ (l.foldl Kept.take k).names ↔ n ∈ k.names ∨
      (∃ c ∈ pick day daily l k.days, c.1 = n) ∨ ∃ c ∈ pick month monthly l k.months, c.1 = n := by
  induction l generalizing k with
  | nil => simp [pick]
  | cons c l ih =>
    rw [List.foldl_cons, ih, take_names, take_days, take_months, or_assoc, or_or_or_comm]
    simp only [mem_pick_cons, or_and_right, exists_or, and_assoc, exists_and_left, exists_eq_left,
      eq_comm (a := n)]

theorem foldl_upgrade_names (l : List Copy) (p : Copy → Prop) [DecidablePred p]
    (names : Finset String) (n : String) :
    n ∈ l.foldl (fun names c => if p c then insert c.1 names else names) names ↔
      n ∈ names ∨ ∃ c ∈ l, p c ∧ c.1 = n := by
  induction l generalizing names with
  | nil => simp
  | cons c l ih =>
    rw [List.foldl_cons, ih, List.exists_mem_cons_iff]
    split_ifs with h
    · rw [Finset.mem_insert, eq_comm]
      tauto
    · tauto

theorem mem_pick_newestFirst {κ : Type} [DecidableEq κ] {key : Copy → κ} {m : ℕ} (u : Folder)
    {c : Copy} : c ∈ pick key m (newestFirst u.1) [] ↔ c ∈ firsts rank key m u.1.toFinset := by
  rw [mem_pick_iff (newestFirst_sorted u),
    List.toFinset_eq_of_perm _ _ (newestFirst_perm u.1)]

theorem take_hourly (u : Folder) :
    (newestFirst u.1).take hourly = pick Prod.fst hourly (newestFirst u.1) [] := by
  rw [pick_eq_take]
  · rfl
  · exact ((newestFirst_perm u.1).map Prod.fst).nodup_iff.2 u.2

theorem mem_nearAll_iff (u : Folder) {first : Copy} {rest : List Copy}
    (hl : newestFirst u.1 = first :: rest) {c : Copy} : c ∈ nearAll near u.1.toFinset ↔
      c ∈ newestFirst u.1 ∧ first.2.nanos - keepNanos ≤ c.2.nanos ∧ isPreUpgrade c.1 = true := by
  rw [nearAll, Finset.mem_filter, List.mem_toFinset, ← mem_newestFirst (c := c)]
  refine and_congr_right fun hc => ?_
  have hfirst : first ∈ u.1 := mem_newestFirst.1 (hl ▸ List.mem_cons_self)
  constructor
  · intro hall
    have h := hall first (List.mem_toFinset.2 hfirst)
    exact ⟨h.2, h.1⟩
  · rintro ⟨h1, h2⟩ y hy
    refine near_of_older ?_ ⟨h2, h1⟩
    have hy' : y ∈ newestFirst u.1 := mem_newestFirst.2 (List.mem_toFinset.1 hy)
    have hsorted := newestFirst_sorted u
    rw [hl] at hy' hsorted
    rcases List.mem_cons.1 hy' with rfl | hy'
    · exact le_rfl
    · exact ((List.pairwise_cons.1 hsorted).1 y hy').le

/-- **What `keep` names is the selection of the folder's copies.** -/
theorem mem_keep (u : Folder) (n : String) :
    n ∈ keep u.1 ↔ ∃ c ∈ select u.1.toFinset, c.1 = n := by
  have hnewest : n ∈ ((newestFirst u.1).foldl Kept.take
      ⟨[], [], (((newestFirst u.1).take hourly).map Prod.fst).toFinset⟩).names ↔
      ∃ c ∈ newest u.1.toFinset, c.1 = n := by
    rw [foldl_take_names, take_hourly, List.mem_toFinset, List.mem_map]
    simp only [mem_pick_newestFirst, newest, Finset.mem_union, or_and_right, exists_or, or_assoc]
  unfold keep keepAnchored
  cases hl : newestFirst u.1 with
  | nil =>
    have hperm := newestFirst_perm u.1
    rw [hl] at hperm
    have hempty : u.1 = [] := hperm.nil_eq.symm
    have hnone : ∀ c, c ∉ select u.1.toFinset := by
      intro c hc
      have h := select_selection.subset _ hc
      rw [hempty] at h
      exact Finset.notMem_empty c h
    show n ∈ (∅ : Finset String) ↔ _
    constructor
    · intro h
      exact absurd h (Finset.notMem_empty n)
    · rintro ⟨c, hc, -⟩
      exact absurd hc (hnone c)
  | cons first rest =>
    have hupgrade : (∃ c ∈ nearAll near u.1.toFinset, c.1 = n) ↔
        ∃ c ∈ newestFirst u.1, (first.2.nanos - keepNanos ≤ c.2.nanos ∧
          isPreUpgrade c.1 = true) ∧ c.1 = n := by
      simp only [mem_nearAll_iff u hl, and_assoc]
    show n ∈ List.foldl _ _ _ ↔ _
    rw [← hl, foldl_upgrade_names, hnewest, ← hupgrade, select]
    simp only [Finset.mem_union, or_and_right, exists_or]

/-! ## Pruning -/

namespace Folder

/-- The copies that stay when the folder is pruned. -/
def kept (u : Folder) : Folder :=
  ⟨u.1.filter fun c => c.1 ∈ keep u.1, (List.filter_sublist.map Prod.fst).nodup u.2⟩

theorem eq_of_name (u : Folder) {c d : Copy} (hc : c ∈ u.1) (hd : d ∈ u.1) (h : c.1 = d.1) :
    c = d := List.inj_on_of_nodup_map u.2 hc hd h

theorem mem_kept (u : Folder) {c : Copy} : c ∈ u.kept.1 ↔ c ∈ select u.1.toFinset := by
  show c ∈ u.1.filter _ ↔ _
  rw [List.mem_filter, decide_eq_true_iff, mem_keep]
  constructor
  · rintro ⟨hc, d, hd, hname⟩
    have hdu : d ∈ u.1 := List.mem_toFinset.1 (select_selection.subset _ hd)
    exact u.eq_of_name hdu hc hname ▸ hd
  · intro hc
    exact ⟨List.mem_toFinset.1 (select_selection.subset _ hc), c, hc, rfl⟩

theorem kept_toFinset (u : Folder) : u.kept.1.toFinset = select u.1.toFinset := by
  ext c
  rw [List.mem_toFinset, mem_kept]

/-- `u` holds the copies of `a` and those of `b`, in any order. -/
def IsUnion (u a b : Folder) : Prop := ∀ c, c ∈ u.1 ↔ c ∈ a.1 ∨ c ∈ b.1

theorem IsUnion.toFinset {u a b : Folder} (h : u.IsUnion a b) :
    u.1.toFinset = a.1.toFinset ∪ b.1.toFinset := by
  ext c
  rw [Finset.mem_union, List.mem_toFinset, List.mem_toFinset, List.mem_toFinset, h c]

end Folder

/-- **Retention does not depend on the path.** Pruning what pruning left together with what came
since keeps what pruning everything at once keeps; pruning twice is pruning once; the order of the
copies does not matter; the newest copy stays; and a copy dropped once is dropped from every folder
that has all the copies there were. -/
theorem keep_path_independent :
    (∀ u a b k : Folder, u.IsUnion a b → k.IsUnion a.kept b → ∀ c, c ∈ k.kept.1 ↔ c ∈ u.kept.1) ∧
    (∀ a : Folder, a.kept.kept.1 = a.kept.1) ∧
    (∀ a b : Folder, a.1.Perm b.1 → keep a.1 = keep b.1) ∧
    (∀ a : Folder, ∀ c ∈ a.1, (∀ d ∈ a.1, rank d ≤ rank c) → c ∈ a.kept.1) ∧
    ∀ a u : Folder, (∀ c ∈ a.1, c ∈ u.1) → ∀ c ∈ a.1, c ∉ a.kept.1 → c ∉ u.kept.1 := by
  refine ⟨fun u a b k hu hk c => ?_, fun a => ?_, fun a b hperm => ?_, fun a c hc hmax => ?_,
    fun a u hsub c hc hout hin => ?_⟩
  · rw [Folder.mem_kept, Folder.mem_kept, hk.toFinset, hu.toFinset, Folder.kept_toFinset,
      select_selection.path_independent select_settled]
  · refine List.filter_eq_self.2 fun c hc => decide_eq_true ?_
    rw [mem_keep, Folder.kept_toFinset, select_selection.idempotent select_settled]
    exact ⟨c, a.mem_kept.1 hc, rfl⟩
  · ext n
    rw [mem_keep, mem_keep, List.toFinset_eq_of_perm _ _ hperm]
  · refine a.mem_kept.2 (newest_mem_select (List.mem_toFinset.2 hc) fun d hd => ?_)
    exact hmax d (List.mem_toFinset.1 hd)
  · refine hout (a.mem_kept.2 ?_)
    refine select_selection.heritage (fun d hd => ?_) (u.mem_kept.1 hin) (List.mem_toFinset.2 hc)
    exact List.mem_toFinset.2 (hsub d (List.mem_toFinset.1 hd))

end Markiro.Backups
