import Mathlib

/-!
# Walks over stamped items

A source holds at most one item of each key and stamps every change of an item no lower than the
stamps before it. A reader walks the source again and again: a walk reads the items between two
stamps in the order of stamp and key, page by page, while the source moves on, and the next walk
begins where the window of the last ended. `Synced` is what holds throughout: an item was the last
thing read of its key, or a walk still owes it, or the first walk passed over it.
-/

namespace Delta

variable {α T K : Type}

/-- How items are read: by key and stamp; a first walk passes over the hidden ones. -/
structure View (α T K : Type) where
  key : α → K
  stamp : α → T
  hidden : α → Bool

/-- Where an item stands in a walk. -/
def View.pos (v : View α T K) (x : α) : T ×ₗ K := toLex (v.stamp x, v.key x)

/-! ## What was read last -/

/-- The item is the last of its key in the log. -/
def Latest (key : α → K) (log : List α) (x : α) : Prop :=
  ∃ pre post, log = pre ++ x :: post ∧ ∀ y ∈ post, key y ≠ key x

section Latest

variable {key : α → K} {log page : List α} {x : α}

theorem Latest.append (h : Latest key log x) (hpage : ∀ y ∈ page, key y ≠ key x) :
    Latest key (log ++ page) x := by
  obtain ⟨pre, post, rfl, hpost⟩ := h
  refine ⟨pre, post ++ page, by simp, ?_⟩
  intro y hy
  rcases List.mem_append.1 hy with hy | hy
  · exact hpost y hy
  · exact hpage y hy

/-- An item that is read is the last of its key when the page has no other item of the key. -/
theorem Latest.of_mem (hx : x ∈ page) (hpage : ∀ y ∈ page, key y = key x → y = x) :
    Latest key (log ++ page) x := by
  induction page using List.reverseRecOn with
  | nil => cases hx
  | append_singleton page y ih =>
    by_cases hy : key y = key x
    · obtain rfl := hpage y (by simp) hy
      exact ⟨log ++ page, [], by simp, by simp⟩
    · have hmem : x ∈ page := by
        rcases List.mem_append.1 hx with hx | hx
        · exact hx
        · exact absurd (congrArg key (List.mem_singleton.1 hx)).symm hy
      rw [← List.append_assoc]
      refine (ih hmem fun z hz => hpage z (List.mem_append_left _ hz)).append ?_
      intro z hz
      rw [List.mem_singleton.1 hz]
      exact hy

end Latest

/-! ## Walks -/

variable [LinearOrder T] [LinearOrder K]

/-- The window of a walk: from a stamp, if it is not the first walk, up to a stamp. -/
structure Window (T : Type) where
  since : Option T
  «until» : T

/-- What a walk over the window reads. -/
structure View.In (v : View α T K) (w : Window T) (x : α) : Prop where
  since : ∀ t ∈ w.since, t ≤ v.stamp x
  «until» : v.stamp x ≤ w.until
  shown : w.since = none → v.hidden x = false

/-- Between two walks, or in one after a position. -/
inductive Walk (T K : Type) where
  | idle (since : Option T)
  | reading (w : Window T) (after : Option (T ×ₗ K))

/-- The item comes after the position. -/
def View.After (v : View α T K) (after : Option (T ×ₗ K)) (x : α) : Prop := ∀ p ∈ after, p < v.pos x

/-- What the walk, or the next one, is going to read; `still` are the items that did not change since
the walk began. -/
def View.Owed (v : View α T K) (still : List α) : Walk T K → α → Prop
  | .idle none, _ => True
  | .idle (some u), x => u ≤ v.stamp x
  | .reading w after, x => (x ∉ still ∧ w.until ≤ v.stamp x) ∨ (v.In w x ∧ v.After after x)

/-- The stamps named so far as the ends of windows. -/
def Walk.Below (t : T) : Walk T K → Prop
  | .idle none => True
  | .idle (some u) => u ≤ t
  | .reading w _ => w.until ≤ t

/-- Every item was read last, is owed, or was passed over. -/
structure View.Synced (v : View α T K) (s still skipped log : List α) (walk : Walk T K) : Prop where
  known : ∀ x ∈ s, Latest v.key log x ∨ v.Owed still walk x ∨ x ∈ skipped
  still : still ⊆ s

/-- What a page of a walk reads: items of the window after the position, and all of them up to the
position it names for the next page. -/
structure View.IsPage (v : View α T K) (s : List α) (w : Window T) (after : Option (T ×ₗ K))
    (page : List α) (next : Option (T ×ₗ K)) : Prop where
  sound : ∀ x ∈ page, x ∈ s ∧ v.In w x ∧ v.After after x
  complete : ∀ x ∈ s, v.In w x → v.After after x → x ∈ page ∨ ∃ p ∈ next, p < v.pos x
  progress : ∀ p ∈ next, ∃ x ∈ page, v.pos x = p

/-- The walk after a page. -/
def Window.next (w : Window T) : Option (T ×ₗ K) → Walk T K
  | some p => .reading w (some p)
  | none => .idle (some w.until)

/-- The items of the window after the position, in order: their first `n` are a page. -/
theorem View.IsPage.of_sorted {v : View α T K} {s rows : List α} {w : Window T}
    {after : Option (T ×ₗ K)} {n : ℕ} (hn : 0 < n)
    (hsorted : rows.Pairwise fun x y => v.pos x < v.pos y)
    (hrows : ∀ x, x ∈ rows ↔ x ∈ s ∧ v.In w x ∧ v.After after x) :
    v.IsPage s w after (rows.take n)
      (if n < rows.length then (rows.take n).getLast?.map v.pos else none) := by
  refine ⟨fun x hx => (hrows x).1 (List.mem_of_mem_take hx), ?_, ?_⟩
  · intro x hx hin hafter
    have hmem : x ∈ rows.take n ++ rows.drop n := by
      rw [List.take_append_drop]
      exact (hrows x).2 ⟨hx, hin, hafter⟩
    rcases List.mem_append.1 hmem with hmem | hmem
    · exact .inl hmem
    · right
      have hlen : n < rows.length := by
        have := List.length_pos_of_mem hmem
        rw [List.length_drop] at this
        omega
      have hne : rows.take n ≠ [] := by
        intro h
        have := congrArg List.length h
        rw [List.length_take] at this
        simp only [List.length_nil] at this
        omega
      rw [if_pos hlen, List.getLast?_eq_some_getLast hne]
      refine ⟨_, rfl, ?_⟩
      rw [← List.take_append_drop n rows] at hsorted
      exact (List.pairwise_append.1 hsorted).2.2 _ (List.getLast_mem hne) x hmem
  · intro p hp
    split at hp
    · obtain ⟨x, hx, rfl⟩ := Option.map_eq_some_iff.1 hp
      exact ⟨x, List.mem_of_getLast? hx, rfl⟩
    · cases hp

section Synced

variable {v : View α T K} {s s' still skipped log page : List α} {w : Window T}
  {after next : Option (T ×ₗ K)} {walk : Walk T K} {t : T}

/-- **The source moves on**: what changed is stamped at or above the ends named so far. -/
theorem View.Synced.advance [DecidableEq α] (h : v.Synced s still skipped log walk)
    (hbelow : walk.Below t) (hs : ∀ x ∈ s', x ∈ s ∨ t ≤ v.stamp x) :
    v.Synced s' (still.filter (· ∈ s')) skipped log walk := by
  refine ⟨?_, fun x hx => by simpa using (List.mem_filter.1 hx).2⟩
  intro x hx
  have hnew : x ∉ s → v.Owed (still.filter (· ∈ s')) walk x := by
    intro hxs
    have ht := (hs x hx).resolve_left hxs
    match walk, hbelow with
    | .idle none, _ => trivial
    | .idle (some u), hu => exact le_trans hu ht
    | .reading w after, hu =>
      exact .inl ⟨fun hmem => hxs (h.still ((List.mem_filter.1 hmem).1)), le_trans hu ht⟩
  by_cases hxs : x ∈ s
  · rcases h.known x hxs with hlatest | howed | hskip
    · exact .inl hlatest
    · refine .inr (.inl ?_)
      match walk, howed with
      | .idle none, _ => trivial
      | .idle (some u), hu => exact hu
      | .reading w after, .inl ⟨hstill, hu⟩ =>
        exact .inl ⟨fun hmem => hstill ((List.mem_filter.1 hmem).1), hu⟩
      | .reading w after, .inr hin => exact .inr hin
    · exact .inr (.inr hskip)
  · exact .inr (.inl (hnew hxs))

/-- **A walk begins**: its window ends at or above every stamp of the source. -/
theorem View.Synced.begin {since : Option T} {u : T}
    (h : v.Synced s still skipped log (.idle since))
    (hu : ∀ x ∈ s, v.stamp x ≤ u)
    (hskip : since = none → ∀ x ∈ s, v.hidden x = true → x ∈ skipped) :
    v.Synced s s skipped log (.reading ⟨since, u⟩ none) := by
  refine ⟨?_, fun _ hx => hx⟩
  intro x hx
  rcases h.known x hx with hlatest | howed | hskipped
  · exact .inl hlatest
  · cases since with
    | none =>
      by_cases hhidden : v.hidden x = true
      · exact .inr (.inr (hskip rfl x hx hhidden))
      · exact .inr (.inl (.inr ⟨⟨by simp, hu x hx, fun _ => by simpa using hhidden⟩, by rintro _ ⟨⟩⟩))
    | some t =>
      refine .inr (.inl (.inr ⟨⟨?_, hu x hx, by rintro ⟨⟩⟩, by rintro _ ⟨⟩⟩))
      rintro _ ⟨⟩
      exact howed
  · exact .inr (.inr hskipped)

/-- **A page is read.** -/
theorem View.Synced.read (h : v.Synced s still skipped log (.reading w after))
    (hunique : ∀ x ∈ s, ∀ y ∈ s, v.key x = v.key y → x = y)
    (hpage : v.IsPage s w after page next) :
    v.Synced s still skipped (log ++ page) (w.next next) := by
  refine ⟨?_, h.still⟩
  intro x hx
  have hkey : ∀ y ∈ page, v.key y = v.key x → y = x :=
    fun y hy hk => hunique y (hpage.sound y hy).1 x hx hk
  by_cases hmem : x ∈ page
  · exact .inl (Latest.of_mem hmem hkey)
  rcases h.known x hx with hlatest | howed | hskip
  · exact .inl (hlatest.append fun y hy hk => hmem (hkey y hy hk ▸ hy))
  · refine .inr (.inl ?_)
    rcases howed with ⟨hstill, hu⟩ | ⟨hin, hafter⟩
    · cases next with
      | none => exact hu
      | some p => exact .inl ⟨hstill, hu⟩
    · obtain ⟨p, hp, hlt⟩ := (hpage.complete x hx hin hafter).resolve_left hmem
      obtain rfl := Option.mem_def.1 hp
      refine .inr ⟨hin, ?_⟩
      rintro _ ⟨⟩
      exact hlt
  · exact .inr (.inr hskip)

/-- **The end of a walk**: what did not change since it began was read. -/
theorem View.Synced.read_end (h : v.Synced s still skipped log (.reading w after))
    (hunique : ∀ x ∈ s, ∀ y ∈ s, v.key x = v.key y → x = y)
    (hpage : v.IsPage s w after page none) :
    ∀ x ∈ still, Latest v.key (log ++ page) x ∨ x ∈ skipped := by
  intro x hx
  have hxs := h.still hx
  have hkey : ∀ y ∈ page, v.key y = v.key x → y = x :=
    fun y hy hk => hunique y (hpage.sound y hy).1 x hxs hk
  by_cases hmem : x ∈ page
  · exact .inl (Latest.of_mem hmem hkey)
  rcases h.known x hxs with hlatest | howed | hskip
  · exact .inl (hlatest.append fun y hy hk => hmem (hkey y hy hk ▸ hy))
  · rcases howed with ⟨hstill, -⟩ | ⟨hin, hafter⟩
    · exact absurd hx hstill
    · obtain ⟨p, hp, -⟩ := (hpage.complete x hxs hin hafter).resolve_left hmem
      cases hp
  · exact .inr hskip

theorem View.Synced.skip {more : List α} (h : v.Synced s still skipped log walk)
    (hmore : skipped ⊆ more) : v.Synced s still more log walk :=
  ⟨fun x hx => (h.known x hx).imp_right (Or.imp_right (hmore ·)), h.still⟩

end Synced

/-! ## Readers -/

/-- A reader with what an observer notes: the items that did not change since its walk began, and
those its first walk passed over. -/
structure Reader (α T K : Type) where
  walk : Walk T K
  still : List α
  skipped : List α
  log : List α

inductive View.Reads (v : View α T K) (s : List α) : Reader α T K → Reader α T K → Prop
  | first {since : Option T} {u : T} {still skipped log page : List α} {next : Option (T ×ₗ K)} :
      (∀ x ∈ s, v.stamp x ≤ u) → v.IsPage s ⟨since, u⟩ none page next →
      v.Reads s ⟨.idle since, still, skipped, log⟩ ⟨Window.next ⟨since, u⟩ next, s,
        skipped ++ if since.isNone then s.filter v.hidden else [], log ++ page⟩
  | next {w : Window T} {after next : Option (T ×ₗ K)} {still skipped log page : List α} :
      v.IsPage s w after page next →
      v.Reads s ⟨.reading w after, still, skipped, log⟩ ⟨w.next next, still, skipped, log ++ page⟩

/-- Pages read one after the other, while the source stands still. -/
inductive View.Pages (v : View α T K) (s : List α) : ℕ → Reader α T K → Reader α T K → Prop
  | nil (r : Reader α T K) : v.Pages s 0 r r
  | cons {n : ℕ} {a b c : Reader α T K} : v.Reads s a b → v.Pages s n b c → v.Pages s (n + 1) a c

def View.Follows (v : View α T K) (s : List α) (r : Reader α T K) : Prop :=
  v.Synced s r.still r.skipped r.log r.walk

/-- Every item was read last or passed over. -/
def View.Settled (v : View α T K) (s : List α) (r : Reader α T K) : Prop :=
  ∀ x ∈ s, Latest v.key r.log x ∨ x ∈ r.skipped

section Reader

variable {v : View α T K} {s : List α} {r r' : Reader α T K}

theorem View.Synced.first {since : Option T} {u : T} {still skipped log : List α}
    (h : v.Synced s still skipped log (.idle since)) (hu : ∀ x ∈ s, v.stamp x ≤ u) :
    v.Synced s s (skipped ++ if since.isNone then s.filter v.hidden else []) log
      (.reading ⟨since, u⟩ none) := by
  refine (h.skip (List.subset_append_left _ _)).begin hu ?_
  rintro rfl x hx hhidden
  exact List.mem_append_right _ (List.mem_filter.2 ⟨hx, hhidden⟩)

/-- **A page keeps what a reader follows.** -/
theorem View.Reads.follows (h : v.Reads s r r')
    (hunique : ∀ x ∈ s, ∀ y ∈ s, v.key x = v.key y → x = y) (hr : v.Follows s r) :
    v.Follows s r' := by
  cases h with
  | first hu hpage => exact (View.Synced.first hr hu).read hunique hpage
  | next hpage => exact View.Synced.read hr hunique hpage

theorem View.Reads.settled (h : v.Reads s r r')
    (hunique : ∀ x ∈ s, ∀ y ∈ s, v.key x = v.key y → x = y) (hr : v.Settled s r) :
    v.Settled s r' := by
  have hread : ∀ {w : Window T} {after next : Option (T ×ₗ K)} {log page : List α},
      v.IsPage s w after page next → ∀ x ∈ s, Latest v.key log x → Latest v.key (log ++ page) x := by
    intro w after next log page hpage x hx hlatest
    have hkey : ∀ y ∈ page, v.key y = v.key x → y = x :=
      fun y hy hk => hunique y (hpage.sound y hy).1 x hx hk
    by_cases hmem : x ∈ page
    · exact Latest.of_mem hmem hkey
    · exact hlatest.append fun y hy hk => hmem (hkey y hy hk ▸ hy)
  intro x hx
  cases h with
  | first hu hpage => exact (hr x hx).imp (hread hpage x hx) (List.mem_append_left _)
  | next hpage => exact (hr x hx).imp_left (hread hpage x hx)

/-- **At the end of a walk** what did not change since it began was read last or passed over. -/
theorem View.Reads.ended (h : v.Reads s r r')
    (hunique : ∀ x ∈ s, ∀ y ∈ s, v.key x = v.key y → x = y) (hr : v.Follows s r)
    (hidle : ∃ since, r'.walk = .idle since) :
    ∀ x ∈ r'.still, Latest v.key r'.log x ∨ x ∈ r'.skipped := by
  obtain ⟨since', hidle⟩ := hidle
  cases h with
  | @first since u still skipped log page next hu hpage =>
    cases next with
    | none => exact (View.Synced.first hr hu).read_end hunique hpage
    | some p => cases hidle
  | @next w after next still skipped log page hpage =>
    cases next with
    | none => exact View.Synced.read_end hr hunique hpage
    | some p => cases hidle

/-! ### How many pages are left -/

open Classical in
/-- How many items a walk has before it. -/
noncomputable def View.left (v : View α T K) (s : List α) (w : Window T)
    (after : Option (T ×ₗ K)) : ℕ :=
  s.countP fun x => v.In w x ∧ v.After after x

theorem View.left_le (v : View α T K) (s : List α) (w : Window T) (after : Option (T ×ₗ K)) :
    v.left s w after ≤ s.length := List.countP_le_length

/-- A page that names a next one leaves fewer items. -/
theorem View.IsPage.left_lt {w : Window T} {after : Option (T ×ₗ K)} {page : List α} {p : T ×ₗ K}
    (h : v.IsPage s w after page (some p)) : v.left s w (some p) < v.left s w after := by
  classical
  obtain ⟨y, hy, hpos⟩ := h.progress p rfl
  obtain ⟨hys, hin, hafter⟩ := h.sound y hy
  have hmono : ∀ x, v.After (some p) x → v.After after x := by
    intro x hx q hq
    calc q < v.pos y := hafter q hq
      _ = p := hpos
      _ < v.pos x := hx p rfl
  have hle : ∀ t : List α, t.countP (fun x => v.In w x ∧ v.After (some p) x) ≤
      t.countP fun x => v.In w x ∧ v.After after x := by
    refine fun t => List.countP_mono_left fun x _ hx => ?_
    rw [decide_eq_true_eq] at hx ⊢
    exact ⟨hx.1, hmono x hx.2⟩
  -- The last item of the page was before it and is not before the next one.
  have hy : ¬v.After (some p) y := fun hx => absurd (hx p rfl) (hpos ▸ lt_irrefl _)
  obtain ⟨pre, post, rfl⟩ := List.append_of_mem hys
  have h1 := hle pre
  have h2 := hle post
  simp only [View.left, List.countP_append, List.countP_cons, hin, hafter, hy, and_self, and_false,
    decide_true, decide_false, if_true, Bool.false_eq_true, if_false]
  omega

/-- Everything is settled in fewer than `n + 1` pages: now, at the end of the walk that goes on, of
the next one, or of the one after it. -/
def View.Due (v : View α T K) (s : List α) (n : ℕ) (r : Reader α T K) : Prop :=
  v.Settled s r ∨
    match r.walk with
    | .idle _ => s.length < n
    | .reading w after => (s ⊆ r.still ∧ v.left s w after < n) ∨ v.left s w after + s.length + 1 < n

theorem View.Due.zero (h : v.Due s 0 r) : v.Settled s r := by
  rcases h with hsettled | hdue
  · exact hsettled
  · cases hw : r.walk <;> simp [hw] at hdue

theorem View.due (v : View α T K) (s : List α) (r : Reader α T K) :
    v.Due s (2 * (s.length + 1)) r := by
  right
  cases h : r.walk with
  | idle since =>
    show s.length < 2 * (s.length + 1)
    omega
  | reading w after =>
    right
    have := v.left_le s w after
    omega

theorem View.IsPage.due {w : Window T} {after next : Option (T ×ₗ K)} {n : ℕ}
    {skipped log page : List α} {still : List α} (hpage : v.IsPage s w after page next)
    (hunique : ∀ x ∈ s, ∀ y ∈ s, v.key x = v.key y → x = y)
    (h : v.Synced s still skipped log (.reading w after)) (hstill : s ⊆ still)
    (hleft : v.left s w after < n + 1) :
    v.Due s n ⟨w.next next, still, skipped, log ++ page⟩ := by
  cases next with
  | none => exact .inl fun x hx => h.read_end hunique hpage x (hstill hx)
  | some p =>
    have := hpage.left_lt
    exact .inr (.inl ⟨hstill, by omega⟩)

theorem View.Reads.due (h : v.Reads s r r')
    (hunique : ∀ x ∈ s, ∀ y ∈ s, v.key x = v.key y → x = y) (hr : v.Follows s r) {n : ℕ}
    (hdue : v.Due s (n + 1) r) : v.Due s n r' := by
  rcases hdue with hsettled | hdue
  · exact .inl (h.settled hunique hsettled)
  cases h with
  | @first since u still skipped log page next hu hpage =>
    have hlength : s.length < n + 1 := hdue
    have := v.left_le s ⟨since, u⟩ none
    exact hpage.due hunique (View.Synced.first hr hu) (fun _ hx => hx) (by omega)
  | @next w after next still skipped log page hpage =>
    rcases hdue with ⟨hstill, hleft⟩ | hleft
    · exact hpage.due hunique hr hstill hleft
    · right
      cases next with
      | none =>
        show s.length < n
        omega
      | some p =>
        have := hpage.left_lt
        exact .inr (by omega)

/-- **Two walks settle everything.** -/
theorem View.Pages.settled {n : ℕ} (h : v.Pages s n r r')
    (hunique : ∀ x ∈ s, ∀ y ∈ s, v.key x = v.key y → x = y) (hr : v.Follows s r)
    (hn : 2 * (s.length + 1) ≤ n) : v.Settled s r' := by
  have hdue : ∀ {m : ℕ} {r : Reader α T K}, v.Pages s n r r' → v.Follows s r → v.Due s m r →
      m ≤ n → v.Settled s r' := by
    clear h hr hn
    intro m r h
    induction h generalizing m with
    | nil r =>
      rintro - hdue hm
      obtain rfl : m = 0 := by omega
      exact hdue.zero
    | cons hreads _ ih =>
      intro hr hdue hm
      cases m with
      | zero =>
        exact ih (hreads.follows hunique hr) (.inl (hreads.settled hunique hdue.zero)) (Nat.zero_le _)
      | succ m => exact ih (hreads.follows hunique hr) (hreads.due hunique hr hdue) (by omega)
  exact hdue h hr (v.due s r) hn

end Reader

end Delta
