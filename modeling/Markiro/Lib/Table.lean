import Mathlib

/-!
# Tables as lists of rows

The statements of a database over a table kept as a list: `update` changes the rows a condition
selects, `delete` takes them out. A unique column is a column whose values have no duplicates
(`Unique`); the lemmas say what each statement does to membership, to a column, and to a count.
-/

namespace Table

variable {α β : Type}

/-- Change the rows `p` selects by `f`. -/
def update (p : α → Bool) (f : α → α) (t : List α) : List α :=
  t.map fun r => if p r then f r else r

/-- Take out the rows `p` selects. -/
def delete (p : α → Bool) (t : List α) : List α := t.filter fun r => !p r

/-- The column `k` has no value twice. -/
def Unique (k : α → β) (t : List α) : Prop := (t.map k).Nodup

instance [DecidableEq β] (k : α → β) (t : List α) : Decidable (Unique k t) :=
  inferInstanceAs (Decidable (t.map k).Nodup)

/-- The column `k`, where it is set, has no value twice. -/
def UniqueSome (k : α → Option β) (t : List α) : Prop := (t.filterMap k).Nodup

section

variable {p : α → Bool} {f : α → α} {t : List α} {r : α}

theorem mem_update : r ∈ update p f t ↔ ∃ x ∈ t, (if p x then f x else x) = r := by
  simp [update]

theorem mem_update_of_mem (h : r ∈ t) : (if p r then f r else r) ∈ update p f t :=
  mem_update.2 ⟨r, h, rfl⟩

theorem mem_update_of_not (h : r ∈ t) (hp : p r = false) : r ∈ update p f t := by
  have := mem_update_of_mem (p := p) (f := f) h
  rwa [if_neg (by simp [hp])] at this

theorem mem_delete : r ∈ delete p t ↔ r ∈ t ∧ p r = false := by
  simp [delete]

@[simp] theorem update_id : update p id t = t := by
  rw [update, List.map_congr_left (g := id) (fun x _ => by simp), List.map_id]

@[simp] theorem length_update : (update p f t).length = t.length := by
  simp [update]

variable {q : α → Bool}

theorem update_congr (h : ∀ x ∈ t, p x = q x) : update p f t = update q f t :=
  List.map_congr_left fun x hx => by rw [h x hx]

theorem update_congr_right {g : α → α} (h : ∀ x ∈ t, p x = true → f x = g x) :
    update p f t = update p g t := by
  refine List.map_congr_left fun x hx => ?_
  by_cases hp : p x = true
  · simp [hp, h x hx hp]
  · simp [hp]

theorem update_of_none (h : ∀ x ∈ t, p x = false) : update p f t = t := by
  rw [update_congr_right (g := id) fun x hx hp => absurd hp (by simp [h x hx]), update_id]

theorem update_update (hf : ∀ x, f (f x) = f x) (hq : ∀ x, q (f x) = q x) :
    update q f (update p f t) = update (fun x => p x || q x) f t := by
  rw [update, update, List.map_map]
  refine List.map_congr_left fun x _ => ?_
  show (if q (if p x then f x else x) then f (if p x then f x else x) else if p x then f x else x) =
    if p x || q x then f x else x
  cases hp : p x <;> cases hqx : q x <;> simp [hf, hq, hqx]

variable {k : α → β}

theorem map_update (h : ∀ x, p x = true → k (f x) = k x) : (update p f t).map k = t.map k := by
  rw [update, List.map_map]
  refine List.map_congr_left fun x _ => ?_
  by_cases hp : p x = true
  · simp [hp, h x hp]
  · simp [hp]

theorem map_update_mem (h : ∀ x ∈ t, p x = true → k (f x) = k x) :
    (update p f t).map k = t.map k := by
  rw [update, List.map_map]
  refine List.map_congr_left fun x hx => ?_
  by_cases hp : p x = true
  · simp [hp, h x hx hp]
  · simp [hp]

theorem filterMap_update {g : α → Option β} (h : ∀ x ∈ t, p x = true → g (f x) = g x) :
    (update p f t).filterMap g = t.filterMap g := by
  rw [update, List.filterMap_map]
  refine List.filterMap_congr fun x hx => ?_
  by_cases hp : p x = true
  · simp [hp, h x hx hp]
  · simp [hp]

theorem Unique.update (hk : Unique k t) (h : ∀ x, p x = true → k (f x) = k x) :
    Unique k (update p f t) := by
  rw [Unique, map_update h]
  exact hk

theorem Unique.delete (hk : Unique k t) : Unique k (delete p t) :=
  hk.sublist (List.filter_sublist.map k)

theorem Unique.append (hk : Unique k t) (h : ∀ x ∈ t, k x ≠ k r) : Unique k (t ++ [r]) := by
  rw [Unique, List.map_append, List.nodup_append]
  refine ⟨hk, by simp, ?_⟩
  rintro a ha b hb
  obtain ⟨x, hx, rfl⟩ := List.mem_map.1 ha
  rw [List.mem_singleton.1 hb]
  exact h x hx

theorem Unique.eq (hk : Unique k t) {x y : α} (hx : x ∈ t) (hy : y ∈ t) (h : k x = k y) : x = y :=
  List.inj_on_of_nodup_map hk hx hy h

theorem Unique.find? [DecidableEq β] {k : α → β} (hk : Unique k t) (hr : r ∈ t) :
    t.find? (fun x => decide (k x = k r)) = some r := by
  cases h : t.find? (fun x => decide (k x = k r)) with
  | none => exact absurd (List.find?_eq_none.1 h r hr) (by simp)
  | some x =>
    have hx := List.find?_some h
    rw [hk.eq (List.mem_of_find?_eq_some h) hr (by simpa using hx)]

theorem Unique.filter_eq [DecidableEq β] {k : α → β} (hk : Unique k t) (hr : r ∈ t) :
    t.filter (fun x => decide (k x = k r)) = [r] := by
  induction t with
  | nil => exact absurd hr List.not_mem_nil
  | cons x t ih =>
    obtain ⟨hx, hrest⟩ := List.nodup_cons.1 hk
    rw [List.filter_cons]
    rcases List.mem_cons.1 hr with rfl | hr
    · have hnone : t.filter (fun y => decide (k y = k r)) = [] := by
        rw [List.filter_eq_nil_iff]
        intro y hy heq
        exact hx (List.mem_map.2 ⟨y, hy, of_decide_eq_true heq⟩)
      rw [if_pos (decide_eq_true rfl), hnone]
    · have hne : k x ≠ k r := fun heq => hx (List.mem_map.2 ⟨r, hr, heq.symm⟩)
      rw [decide_eq_false hne]
      exact ih hrest hr

theorem filter_update (h : ∀ x, q (f x) = false) :
    (update p f t).filter q = (t.filter q).filter fun x => !p x := by
  induction t with
  | nil => rfl
  | cons x t ih =>
    rw [update] at ih
    rw [update, List.map_cons]
    cases hp : p x <;> cases hq : q x <;> simp [hp, hq, h, ih]

theorem filter_update_of_not (h : ∀ x, p x = true → q x = false ∧ q (f x) = false) :
    (update p f t).filter q = t.filter q := by
  induction t with
  | nil => rfl
  | cons x t ih =>
    rw [update, List.map_cons, List.filter_cons, List.filter_cons, ← update, ih]
    split_ifs with hp h1 h2 h2
    · rw [(h x hp).2] at h1
      cases h1
    · rw [(h x hp).2] at h1
      cases h1
    · rw [(h x hp).1] at h2
      cases h2
    all_goals rfl

theorem forall_update_one [DecidableEq β] {P : α → Prop} (hk : Unique k t) (hr : r ∈ t)
    (hf : P (f r)) (ho : ∀ x ∈ t, k x ≠ k r → P x) :
    ∀ x ∈ update (fun x => decide (k x = k r)) f t, P x := by
  intro x hx
  obtain ⟨y, hy, rfl⟩ := mem_update.1 hx
  split_ifs with hyr
  · rw [hk.eq hy hr (of_decide_eq_true hyr)]
    exact hf
  · exact ho y hy fun h => hyr (decide_eq_true h)

theorem find?_update (h : ∀ x, p x = true → q (f x) = q x) :
    (update p f t).find? q = (t.find? q).map fun x => if p x then f x else x := by
  have hq : (q ∘ fun x => if p x then f x else x) = q := by
    funext x
    by_cases hp : p x = true
    · simp [hp, h x hp]
    · simp [hp]
  rw [update, List.find?_map, hq]

theorem find?_update_of_not (h : ∀ x ∈ t, p x = true → q x = false ∧ q (f x) = false) :
    (update p f t).find? q = t.find? q := by
  induction t with
  | nil => rfl
  | cons x t ih =>
    have ih := ih fun y hy => h y (List.mem_cons_of_mem _ hy)
    rw [update] at ih
    rw [update, List.map_cons, List.find?_cons, List.find?_cons, ih]
    by_cases hp : p x = true
    · obtain ⟨h1, h2⟩ := h x List.mem_cons_self hp
      simp [hp, h1, h2]
    · simp [hp]

theorem find?_delete (h : ∀ x ∈ t, p x = true → q x = false) :
    (delete p t).find? q = t.find? q := by
  rw [delete, List.find?_filter]
  induction t with
  | nil => rfl
  | cons x t ih =>
    have ih := ih fun y hy => h y (List.mem_cons_of_mem _ hy)
    rw [List.find?_cons, List.find?_cons, ih]
    by_cases hp : p x = true
    · simp [hp, h x List.mem_cons_self hp]
    · simp [hp]

theorem map_update_comm {g : α → β} {q : β → Bool} {h : β → β} (hp : ∀ x, q (g x) = p x)
    (hf : ∀ x, p x = true → g (f x) = h (g x)) :
    (update p f t).map g = update q h (t.map g) := by
  rw [update, update, List.map_map, List.map_map]
  refine List.map_congr_left fun x _ => ?_
  by_cases hx : p x = true
  · simp [hp, hx, hf x hx]
  · simp [hp, hx]

/-- A row of a unique column, changed, and the rest as it was. -/
theorem Unique.perm_update [DecidableEq β] {k : α → β} (hk : Unique k t) (hr : r ∈ t) :
    (Table.update (fun x => decide (k x = k r)) f t).Perm
      (f r :: Table.delete (fun x => decide (k x = k r)) t) := by
  induction t with
  | nil => simp at hr
  | cons x xs ih =>
    rw [Unique, List.map_cons, List.nodup_cons] at hk
    by_cases hx : k x = k r
    · have hrest : ∀ y ∈ xs, ¬k y = k r := fun y hy h =>
        hk.1 (hx ▸ h ▸ List.mem_map_of_mem hy)
      have hxr : x = r := by
        rcases List.mem_cons.1 hr with rfl | hmem
        · rfl
        · exact absurd rfl (hrest r hmem)
      have hupd : Table.update (fun x => decide (k x = k r)) f xs = xs := by
        rw [Table.update]
        conv_rhs => rw [← List.map_id xs]
        exact List.map_congr_left fun y hy => by simp [hrest y hy]
      have hdel : Table.delete (fun x => decide (k x = k r)) xs = xs :=
        List.filter_eq_self.2 fun y hy => by simp [hrest y hy]
      have h1 : Table.update (fun x => decide (k x = k r)) f (x :: xs) = f r :: xs := by
        conv_rhs => rw [← hupd]
        simp [Table.update, hxr]
      have h2 : Table.delete (fun x => decide (k x = k r)) (x :: xs) = xs := by
        conv_rhs => rw [← hdel]
        simp [Table.delete, hx]
      rw [h1, h2]
    · have hmem : r ∈ xs := by
        rcases List.mem_cons.1 hr with rfl | hmem
        · exact absurd rfl hx
        · exact hmem
      have h1 : Table.update (fun x => decide (k x = k r)) f (x :: xs) =
          x :: Table.update (fun x => decide (k x = k r)) f xs := by
        simp [Table.update, hx]
      have h2 : Table.delete (fun x => decide (k x = k r)) (x :: xs) =
          x :: Table.delete (fun x => decide (k x = k r)) xs := by
        simp [Table.delete, hx]
      rw [h1, h2]
      exact ((ih hk.2 hmem).cons x).trans (List.Perm.swap _ _ _)

theorem Unique.perm {t' : List α} (hk : Unique k t) (h : t.Perm t') : Unique k t' :=
  (h.map k).nodup_iff.1 hk

theorem Unique.perm_delete [DecidableEq β] {k : α → β} (hk : Unique k t) (hr : r ∈ t) :
    t.Perm (r :: Table.delete (fun x => decide (k x = k r)) t) := by
  have h := hk.perm_update (f := id) hr
  rwa [Table.update, List.map_congr_left (g := id) (fun x _ => by simp), List.map_id] at h

theorem Unique.perm_filterMap_update {γ : Type} [DecidableEq β] {k : α → β} {g : α → Option γ}
    {y : γ}
    (hk : Unique k t) (hr : r ∈ t) (hbefore : g r = none) (hafter : g (f r) = some y) :
    ((Table.update (fun x => decide (k x = k r)) f t).filterMap g).Perm (y :: t.filterMap g) := by
  have h1 := (hk.perm_update (f := f) hr).filterMap g
  have h2 := (hk.perm_delete hr).filterMap g
  rw [List.filterMap_cons_some hafter] at h1
  rw [List.filterMap_cons_none hbefore] at h2
  exact h1.trans (h2.symm.cons y)

theorem filterMap_delete {γ : Type} {g : α → Option γ} (h : ∀ x ∈ t, p x = true → g x = none) :
    (delete p t).filterMap g = t.filterMap g := by
  rw [delete, List.filterMap_filter]
  refine List.filterMap_congr fun x hx => ?_
  by_cases hp : p x = true
  · simp [hp, h x hx hp]
  · simp [hp]

theorem UniqueSome.eq {k : α → Option β} (hk : UniqueSome k t) {x y : α} (hx : x ∈ t) (hy : y ∈ t)
    {v : β} (hxv : k x = some v) (hyv : k y = some v) : x = y := by
  by_contra hne
  have hsymm : Std.Symm fun a b : α => ∀ v, k a = some v → ∀ w, k b = some w → v ≠ w :=
    ⟨fun a b hab v hv w hw heq => hab w hw v hv heq.symm⟩
  exact (List.pairwise_filterMap.1 hk).forall hx hy hne v hxv v hyv rfl

theorem UniqueSome.append_none {k : α → Option β} (hk : UniqueSome k t) (hr : k r = none) :
    UniqueSome k (t ++ [r]) := by
  rw [UniqueSome, List.filterMap_append, List.filterMap_cons_none hr, List.filterMap_nil,
    List.append_nil]
  exact hk

/-! ## Counts -/

theorem Unique.countP_le_one (hk : Unique k t)
    (h : ∀ x ∈ t, ∀ y ∈ t, q x = true → q y = true → k x = k y) : t.countP q ≤ 1 := by
  rw [List.countP_eq_length_filter]
  have hsub : Unique k (t.filter q) := hk.sublist (List.filter_sublist.map k)
  have hmem : ∀ x ∈ t.filter q, x ∈ t ∧ q x = true := fun x hx => List.mem_filter.1 hx
  cases hq : t.filter q with
  | nil => simp
  | cons x xs =>
    cases xs with
    | nil => simp
    | cons y ys =>
      rw [hq] at hsub hmem
      obtain ⟨hx, hqx⟩ := hmem x (by simp)
      obtain ⟨hy, hqy⟩ := hmem y (by simp)
      have hxy := h x hx y hy hqx hqy
      simp [Unique, hxy] at hsub

theorem eq_of_countP_le_one (h : t.countP q ≤ 1) {x y : α} (hx : x ∈ t) (hy : y ∈ t)
    (hqx : q x = true) (hqy : q y = true) : x = y := by
  rw [List.countP_eq_length_filter] at h
  have hmx : x ∈ t.filter q := List.mem_filter.2 ⟨hx, hqx⟩
  have hmy : y ∈ t.filter q := List.mem_filter.2 ⟨hy, hqy⟩
  match hf : t.filter q with
  | [] => simp [hf] at hmx
  | [z] =>
    rw [hf, List.mem_singleton] at hmx hmy
    rw [hmx, hmy]
  | _ :: _ :: _ => simp [hf] at h

theorem Unique.countP_eq_one (hk : Unique k t) (hr : r ∈ t)
    (hq : q r = true) (h : ∀ x ∈ t, q x = true → k x = k r) : t.countP q = 1 := by
  have hle := hk.countP_le_one fun x hx y hy hqx hqy => (h x hx hqx).trans (h y hy hqy).symm
  have hpos : 0 < t.countP q := List.countP_pos_iff.2 ⟨r, hr, hq⟩
  omega

theorem countP_eq_sum [DecidableEq β] {key : α → β} {keys : List β}
    (hkeys : keys.Nodup) (h : ∀ x ∈ t, q x = true → key x ∈ keys) :
    t.countP q = (keys.map fun k => t.countP fun x => q x && decide (key x = k)).sum := by
  induction t with
  | nil => simp
  | cons x rest ih =>
    have hrest := ih fun y hy => h y (List.mem_cons_of_mem _ hy)
    have hcount : ∀ ks : List β, (ks.map fun k => if (q x && decide (key x = k)) = true then 1
        else 0).sum = if q x = true then ks.count (key x) else 0 := by
      intro ks
      induction ks with
      | nil => simp
      | cons k ks ih =>
        rw [List.map_cons, List.sum_cons, ih, List.count_cons]
        by_cases hk : key x = k
        · simp only [hk, beq_self_eq_true, decide_true, Bool.and_true, if_true]
          split <;> omega
        · simp [hk, Ne.symm hk]
    have hone : (keys.map fun k => if (q x && decide (key x = k)) = true then 1 else 0).sum =
        if q x = true then 1 else 0 := by
      rw [hcount]
      by_cases hq : q x = true
      · rw [if_pos hq, if_pos hq, List.count_eq_one_of_mem hkeys (h x (by simp) hq)]
      · rw [if_neg hq, if_neg hq]
    simp only [List.countP_cons, List.sum_map_add, hrest, hone]

end

end Table
