import Mathlib

/-!
# Replicas of a revisioned source

A source keeps values under keys and gives every change a revision; a replica reads its entries in
the order of their revisions, one window of revisions after the other, while the source moves on. The
replica is right wherever the source holds no newer entry than it has read (`Synced`): that survives
the source's commits and the windows the replica reads.
-/

namespace Replica

/-! ## Windows of an ordered list -/

section Windows

variable {α : Type} {rev : α → ℕ} {l a b : List α} {r s : ℕ}

/-- Oldest first. -/
def Ordered (rev : α → ℕ) (l : List α) : Prop := l.Pairwise fun x y => rev x ≤ rev y

/-- The entries after one revision up to another. -/
def window (rev : α → ℕ) (lo hi : ℕ) (l : List α) : List α :=
  l.filter fun x => lo < rev x ∧ rev x ≤ hi

theorem mem_window {x : α} : x ∈ window rev r s l ↔ x ∈ l ∧ r < rev x ∧ rev x ≤ s := by
  simp [window]

theorem eq_upTo (h : l = a ++ b) (ha : ∀ x ∈ a, rev x ≤ r) (hb : ∀ y ∈ b, r < rev y) :
    a = l.filter fun x => rev x ≤ r := by
  have h1 : a.filter (fun x => decide (rev x ≤ r)) = a :=
    List.filter_eq_self.2 fun x hx => decide_eq_true (ha x hx)
  have h2 : b.filter (fun x => decide (rev x ≤ r)) = [] := by
    refine List.filter_eq_nil_iff.2 fun y hy => ?_
    simpa using hb y hy
  rw [h, List.filter_append, h1, h2, List.append_nil]

theorem Ordered.sublist (h : Ordered rev l) (ha : a.Sublist l) : Ordered rev a :=
  List.Pairwise.sublist ha h

theorem Ordered.le_getLast (h : Ordered rev l) {y : α} (hy : l.getLast? = some y) :
    ∀ x ∈ l, rev x ≤ rev y := by
  intro x hx
  obtain ⟨pre, rfl⟩ := List.getLast?_eq_some_iff.1 hy
  rcases List.mem_append.1 hx with hx | hx
  · exact (List.pairwise_append.1 h).2.2 x hx y (by simp)
  · obtain rfl := List.mem_singleton.1 hx
    exact le_rfl

theorem Ordered.lt_dropWhile {x : α} (h : Ordered rev (x :: l)) :
    ∀ y ∈ l.dropWhile (fun z => rev z = rev x), rev x < rev y := by
  obtain ⟨hx, hl⟩ := List.pairwise_cons.1 h
  intro y hy
  cases hd : l.dropWhile (fun z => decide (rev z = rev x)) with
  | nil => simp [hd] at hy
  | cons z rest =>
    have hz : rev z ≠ rev x := by
      have := List.head?_dropWhile_not (fun z => decide (rev z = rev x)) l
      simpa [hd] using this
    have hsuffix := List.dropWhile_suffix (l := l) fun z => decide (rev z = rev x)
    rw [hd] at hsuffix hy
    have hxz : rev x < rev z := lt_of_le_of_ne (hx z (hsuffix.subset (by simp))) (Ne.symm hz)
    rcases List.mem_cons.1 hy with rfl | hy
    · exact hxz
    · exact lt_of_lt_of_le hxz ((List.pairwise_cons.1 (hl.sublist hsuffix.sublist)).1 y hy)

/-- Two windows that meet are one. -/
theorem window_append (h : Ordered rev l) {t : ℕ} (hrs : r ≤ s) (hst : s ≤ t) :
    window rev r s l ++ window rev s t l = window rev r t l := by
  induction l with
  | nil => rfl
  | cons x rest ih =>
    obtain ⟨hx, hrest⟩ := List.pairwise_cons.1 h
    have ih := ih hrest
    simp only [window, List.filter_cons] at ih ⊢
    by_cases hlow : r < rev x ∧ rev x ≤ s
    · rw [if_pos (decide_eq_true hlow), if_neg (by simp; omega),
        if_pos (decide_eq_true (by omega)), List.cons_append, ih]
    · rw [if_neg (by simpa using hlow)]
      by_cases hhigh : s < rev x ∧ rev x ≤ t
      · -- Everything from here on is newer than the first window.
        have hnone : rest.filter (fun x => decide (r < rev x ∧ rev x ≤ s)) = [] := by
          refine List.filter_eq_nil_iff.2 fun y hy => ?_
          have := hx y hy
          simp
          omega
        rw [hnone, List.nil_append] at ih ⊢
        rw [if_pos (decide_eq_true hhigh), if_pos (decide_eq_true (by omega)), ih]
      · rw [if_neg (by simpa using hhigh), if_neg (by simp; omega)]
        exact ih

end Windows

/-! ## Replicas -/

variable {K V : Type} [DecidableEq K]

/-- What the source says of a key at a revision: its value, or that it is gone. -/
structure Entry (K V : Type) where
  key : K
  rev : ℕ
  value : Option V

/-- Take over an entry. -/
def put (m : K → Option V) (e : Entry K V) : K → Option V := Function.update m e.key e.value

def replay (m : K → Option V) (es : List (Entry K V)) : K → Option V := es.foldl put m

theorem replay_append (m : K → Option V) (es es' : List (Entry K V)) :
    replay m (es ++ es') = replay (replay m es) es' := List.foldl_append

theorem replay_of_not_mem {m : K → Option V} {es : List (Entry K V)} {key : K}
    (h : ∀ e ∈ es, e.key ≠ key) : replay m es key = m key := by
  induction es generalizing m with
  | nil => rfl
  | cons e rest ih =>
    rw [replay, List.foldl_cons]
    rw [show List.foldl put (put m e) rest key = put m e key from
      ih fun x hx => h x (List.mem_cons_of_mem _ hx)]
    exact Function.update_of_ne (Ne.symm (h e (by simp))) _ _

theorem replay_of_last {m : K → Option V} {pre post : List (Entry K V)} {e : Entry K V}
    (h : ∀ x ∈ post, x.key ≠ e.key) : replay m (pre ++ e :: post) e.key = e.value := by
  rw [replay_append, replay, List.foldl_cons]
  exact (replay_of_not_mem h).trans (Function.update_self _ _ _)

/-- A source at one moment: its entries, oldest first, and the values they stand for. The last entry
of a key tells its value; a key without entries has none. -/
structure Source (K V : Type) where
  revision : ℕ
  entries : List (Entry K V)
  values : K → Option V
  ordered : Ordered Entry.rev entries
  bounded : ∀ e ∈ entries, e.rev ≤ revision
  told : ∀ pre e post, entries = pre ++ e :: post → (∀ x ∈ post, x.key ≠ e.key) →
    e.value = values e.key
  unknown : ∀ key, (∀ e ∈ entries, e.key ≠ key) → values key = none

/-- What a commit does to a key: it keeps its value and takes back nothing that was said of it, or
it says something at a new revision. -/
def Commits (a b : Source K V) : Prop :=
  a.revision ≤ b.revision ∧ ∀ key,
    (b.values key = a.values key ∧
      ∀ e ∈ a.entries, e.key = key → ∃ x ∈ b.entries, x.key = key ∧ e.rev ≤ x.rev) ∨
    ∃ x ∈ b.entries, x.key = key ∧ a.revision < x.rev

/-- The replica that has read up to `r` is right about every key the source says nothing newer
of. -/
def Synced (s : Source K V) (r : ℕ) (m : K → Option V) : Prop :=
  r ≤ s.revision ∧ ∀ key, (∀ e ∈ s.entries, e.key = key → e.rev ≤ r) → m key = s.values key

theorem exists_last {α : Type} {p : α → Prop} {l : List α} (h : ∃ x ∈ l, p x) :
    ∃ pre x post, l = pre ++ x :: post ∧ p x ∧ ∀ y ∈ post, ¬p y := by
  induction l with
  | nil => simp at h
  | cons a rest ih =>
    by_cases hrest : ∃ x ∈ rest, p x
    · obtain ⟨pre, x, post, rfl, hx, hpost⟩ := ih hrest
      exact ⟨a :: pre, x, post, rfl, hx, hpost⟩
    · obtain ⟨x, hx, hp⟩ := h
      rcases List.mem_cons.1 hx with rfl | hx
      · exact ⟨[], x, rest, rfl, hp, fun y hy hpy => hrest ⟨y, hy, hpy⟩⟩
      · exact absurd ⟨x, hx, hp⟩ hrest

omit [DecidableEq K] in
theorem Synced.fresh {s : Source K V} (h : ∀ e ∈ s.entries, 0 < e.rev) :
    Synced s 0 fun _ => none := by
  refine ⟨Nat.zero_le _, fun key hkey => (s.unknown key fun e he hek => ?_).symm⟩
  have hpos := h e he
  have hzero := hkey e he hek
  omega

omit [DecidableEq K] in
/-- **A commit leaves a replica right.** -/
theorem Synced.commit {a b : Source K V} {r : ℕ} {m : K → Option V} (h : Synced a r m)
    (hc : Commits a b) : Synced b r m := by
  refine ⟨le_trans h.1 hc.1, fun key hkey => ?_⟩
  rcases hc.2 key with ⟨hvalue, hkept⟩ | ⟨x, hx, hxk, hnew⟩
  · rw [hvalue]
    refine h.2 key fun e he hek => ?_
    obtain ⟨x, hx, hxk, hle⟩ := hkept e he hek
    exact le_trans hle (hkey x hx hxk)
  · have hold := hkey x hx hxk
    have hread := h.1
    omega

/-- **So does reading the next window.** -/
theorem Synced.read {s : Source K V} {r n : ℕ} {m : K → Option V} (h : Synced s r m)
    (hle : n ≤ s.revision) :
    Synced s n (replay m (window Entry.rev r n s.entries)) := by
  refine ⟨hle, fun key hkey => ?_⟩
  by_cases hnew : ∃ e ∈ s.entries, e.key = key ∧ r < e.rev
  · -- The last thing said of the key is in the window.
    obtain ⟨e, he, hek, hre⟩ := hnew
    obtain ⟨pre, x, post, hsplit, hxk, hpost⟩ := exists_last (p := fun x => x.key = key) ⟨e, he, hek⟩
    have hmem : x ∈ s.entries := by rw [hsplit]; simp
    have hex : e.rev ≤ x.rev := by
      have hord := s.ordered
      rw [hsplit] at he hord
      obtain ⟨-, hxpost, hcross⟩ := List.pairwise_append.1 hord
      rcases List.mem_append.1 he with he | he
      · exact hcross e he x (by simp)
      · rcases List.mem_cons.1 he with rfl | he
        · exact le_rfl
        · exact absurd hek (hpost e he)
    have hin : r < x.rev ∧ x.rev ≤ n := ⟨lt_of_lt_of_le hre hex, hkey x hmem hxk⟩
    have hwindow : window Entry.rev r n s.entries =
        window Entry.rev r n pre ++ x :: window Entry.rev r n post := by
      rw [hsplit, window, List.filter_append, List.filter_cons, if_pos (decide_eq_true hin)]
      rfl
    subst hxk
    rw [hwindow, replay_of_last fun y hy => hpost y (mem_window.1 hy).1]
    exact s.told pre x post hsplit hpost
  · have hnone : ∀ e ∈ window Entry.rev r n s.entries, e.key ≠ key := by
      intro e he hek
      obtain ⟨hmem, hre, -⟩ := mem_window.1 he
      exact hnew ⟨e, hmem, hek, hre⟩
    rw [replay_of_not_mem hnone]
    refine h.2 key fun e he hek => ?_
    by_contra hlt
    exact hnew ⟨e, he, hek, by omega⟩

omit [DecidableEq K] in
theorem Synced.whole {s : Source K V} {m : K → Option V} (h : Synced s s.revision m) :
    m = s.values := by
  funext key
  exact h.2 key fun e he _ => s.bounded e he

end Replica
