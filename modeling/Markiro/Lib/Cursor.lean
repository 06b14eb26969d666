import Mathlib

/-!
# Reading a growing log in pages

The entries of a log are read in the order of their keys, a page at a time, each page from the last
key of the page before it. What a reader holds is then always what the log has up to the reader's
cursor, as long as an entry that joins the log has a key above all the keys it meets (`Grows`).
-/

namespace Cursor

variable {α κ : Type} [LinearOrder κ] {key : α → κ}

/-- The entries in the order of their keys. -/
def sorted (key : α → κ) (l : List α) : List α := l.insertionSort fun a b => key a ≤ key b

/-- The entry stands after the cursor. -/
def after (key : α → κ) (c : Option κ) (x : α) : Bool := decide (∀ k ∈ c, k < key x)

/-- The first entries after the cursor, up to `limit` of them. -/
def page (key : α → κ) (limit : ℕ) (c : Option κ) (l : List α) : List α :=
  ((sorted key l).filter (after key c)).take limit

/-- The cursor after a page; an empty page leaves it where it was. -/
def next (key : α → κ) (c : Option κ) (p : List α) : Option κ := (p.getLast?.map key).or c

/-- The entries up to the cursor. -/
def upTo (key : α → κ) (c : Option κ) (l : List α) : List α :=
  (sorted key l).filter fun x => !after key c x

/-! ## The order of the entries -/

theorem sorted_perm (l : List α) : (sorted key l).Perm l := List.perm_insertionSort _ _

theorem mem_sorted {l : List α} {x : α} : x ∈ sorted key l ↔ x ∈ l := (sorted_perm l).mem_iff

theorem sorted_pairwise {l : List α} (h : (l.map key).Nodup) :
    (sorted key l).Pairwise fun a b => key a < key b := by
  have hle : (sorted key l).Pairwise fun a b => key a ≤ key b :=
    haveI : Std.Total fun a b : α => key a ≤ key b := ⟨fun a b => le_total _ _⟩
    haveI : IsTrans α fun a b => key a ≤ key b := ⟨fun a b c => le_trans⟩
    List.pairwise_insertionSort _ _
  have hne : (sorted key l).Pairwise fun a b => key a ≠ key b := by
    rw [← List.pairwise_map]
    exact (((sorted_perm l).map key).nodup_iff).2 h
  exact hle.imp₂ (fun a b hab hne => lt_of_le_of_ne hab hne) hne

theorem eq_of_pairwise {l l' : List α} (hp : l.Perm l') (h : l.Pairwise fun a b => key a < key b)
    (h' : l'.Pairwise fun a b => key a < key b) : l = l' :=
  hp.eq_of_pairwise (fun _ _ _ _ hab hba => absurd hab hba.asymm) h h'

@[simp] theorem after_none (x : α) : after key none x = true := by simp [after]

@[simp] theorem after_some (k : κ) (x : α) : after key (some k) x = decide (k < key x) := by
  simp [after]

@[simp] theorem upTo_none (l : List α) : upTo key none l = [] := by simp [upTo]

/-! ## A page -/

/-- In strict order, the entries up to the cursor come first. -/
theorem filter_after {s : List α} (h : s.Pairwise fun a b => key a < key b) (c : Option κ) :
    s = s.filter (fun x => !after key c x) ++ s.filter (after key c) := by
  induction s with
  | nil => rfl
  | cons x s ih =>
    obtain ⟨hx, hs⟩ := List.pairwise_cons.1 h
    cases hc : after key c x with
    | false => rw [List.filter_cons_of_pos (by simp [hc]), List.filter_cons_of_neg (by simp [hc]),
        List.cons_append, ← ih hs]
    | true =>
      have hall : ∀ y ∈ s, after key c y = true := by
        intro y hy
        simp only [after, decide_eq_true_eq] at hc ⊢
        exact fun k hk => (hc k hk).trans (hx y hy)
      rw [List.filter_eq_nil_iff.2, List.nil_append, List.filter_eq_self.2]
      · intro y hy
        rcases List.mem_cons.1 hy with rfl | hy
        · exact hc
        · exact hall y hy
      · intro y hy
        rcases List.mem_cons.1 hy with rfl | hy
        · simp [hc]
        · simp [hall y hy]

theorem filter_upTo {a b : List α} {x : α}
    (h : (a ++ x :: b).Pairwise fun a b => key a < key b) :
    ((a ++ x :: b).filter fun y => !after key (some (key x)) y) = a ++ [x] := by
  obtain ⟨ha, hxb, hab⟩ := List.pairwise_append.1 h
  have hb := (List.pairwise_cons.1 hxb).1
  rw [List.filter_append, List.filter_cons_of_pos (by simp), List.filter_eq_self.2,
    List.filter_eq_nil_iff.2]
  · intro y hy
    simpa using hb y hy
  · intro y hy
    simpa using (hab y hy x List.mem_cons_self).le

/-- **A page is what comes next.** -/
theorem upTo_page {l : List α} (h : (l.map key).Nodup) (limit : ℕ) (c : Option κ) :
    upTo key (next key c (page key limit c l)) l = upTo key c l ++ page key limit c l := by
  have hs := sorted_pairwise h
  have hsplit := filter_after hs c
  rcases List.eq_nil_or_concat (page key limit c l) with hp | ⟨init, x, hp⟩
  · rw [hp, List.append_nil]
    rfl
  · rw [List.concat_eq_append] at hp
    have hrest : (sorted key l).filter (after key c) =
        init ++ x :: ((sorted key l).filter (after key c)).drop limit := by
      conv_lhs => rw [← List.take_append_drop limit ((sorted key l).filter (after key c))]
      rw [← page, hp, List.append_assoc, List.singleton_append]
    have hwhole : sorted key l =
        (upTo key c l ++ init) ++ x :: ((sorted key l).filter (after key c)).drop limit := by
      rw [List.append_assoc, ← hrest]
      exact hsplit
    have hnext : next key c (init ++ [x]) = some (key x) := by
      rw [next, List.getLast?_concat]
      rfl
    rw [hp, hnext, upTo, hwhole, filter_upTo (hwhole ▸ hs), List.append_assoc]

/-- **After a page that is not full there is nothing more.** -/
theorem upTo_last {l : List α} (h : (l.map key).Nodup) {limit : ℕ} {c : Option κ}
    (hshort : (page key limit c l).length < limit) :
    upTo key (next key c (page key limit c l)) l = sorted key l := by
  have hall : page key limit c l = (sorted key l).filter (after key c) := by
    rw [page, List.length_take] at hshort
    exact List.take_of_length_le (by omega)
  rw [upTo_page h, hall]
  exact (filter_after (sorted_pairwise h) c).symm

/-! ## Growth -/

/-- What joined the log has keys above all the keys it met. -/
structure Grows (key : α → κ) (l l' : List α) : Prop where
  distinct : (l'.map key).Nodup
  added : ∃ new, l'.Perm (l ++ new) ∧ ∀ x ∈ new, ∀ y ∈ l, key y < key x

/-- The cursor is none, or the key of an entry. -/
def At (key : α → κ) (c : Option κ) (l : List α) : Prop := ∀ k ∈ c, ∃ x ∈ l, key x = k

theorem Grows.at {l l' : List α} (h : Grows key l l') {c : Option κ} (hc : At key c l) :
    At key c l' := by
  intro k hk
  obtain ⟨x, hx, rfl⟩ := hc k hk
  obtain ⟨new, hp, -⟩ := h.added
  exact ⟨x, hp.mem_iff.2 (List.mem_append_left _ hx), rfl⟩

/-- **Nothing joins the log below a cursor.** -/
theorem Grows.upTo {l l' : List α} (h : Grows key l l') {c : Option κ} (hc : At key c l) :
    upTo key c l' = upTo key c l := by
  obtain ⟨new, hp, hnew⟩ := h.added
  have hl : (l.map key).Nodup := by
    have h2 := ((hp.map key).nodup_iff).1 h.distinct
    rw [List.map_append] at h2
    exact h2.of_append_left
  have hnone : new.filter (fun x => !after key c x) = [] := by
    rw [List.filter_eq_nil_iff]
    intro x hx
    cases c with
    | none => simp
    | some k =>
      obtain ⟨y, hy, rfl⟩ := hc k rfl
      simpa using hnew x hx y hy
  have hperm : (Cursor.upTo key c l').Perm (Cursor.upTo key c l) := by
    have h1 : (Cursor.upTo key c l').Perm ((l ++ new).filter fun x => !after key c x) :=
      ((sorted_perm l').trans hp).filter _
    rw [List.filter_append, hnone, List.append_nil] at h1
    exact h1.trans ((sorted_perm l).filter _).symm
  exact eq_of_pairwise hperm ((sorted_pairwise h.distinct).filter _) ((sorted_pairwise hl).filter _)

theorem At.page {l : List α} {c : Option κ} (hc : At key c l) (limit : ℕ) :
    At key (next key c (Cursor.page key limit c l)) l := by
  intro k hk
  rw [next] at hk
  cases hp : (Cursor.page key limit c l).getLast? with
  | none =>
    rw [hp] at hk
    exact hc k hk
  | some x =>
    rw [hp, Option.map_some, Option.some_or, Option.mem_some_iff] at hk
    have hx : x ∈ Cursor.page key limit c l := List.mem_of_getLast? hp
    exact ⟨x, mem_sorted.1 (List.mem_of_mem_filter (List.mem_of_mem_take hx)), hk⟩

end Cursor
