import Mathlib

/-!
# Computations that may fail

What a computation in `Except` that returns has done: each step returned, and a loop over a list ran
its step on every item.
-/

namespace Results

variable {ε α β : Type}

theorem ok_bind (a : α) (f : α → Except ε β) : ((Except.ok a : Except ε α) >>= f) = f a := rfl

variable {f : α → Except ε β} {x : Except ε α}

theorem bind_eq_ok {b : β} : (x >>= f) = .ok b ↔ ∃ a, x = .ok a ∧ f a = .ok b := by
  cases x with
  | error e => simp [bind, Except.bind]
  | ok a => simp [bind, Except.bind]

theorem map_eq_ok {f : α → β} {b : β} : x.map f = .ok b ↔ ∃ a, x = .ok a ∧ f a = b := by
  cases x with
  | error e => simp [Except.map]
  | ok a => simp [Except.map]

theorem pure_eq_ok {a b : α} : (pure a : Except ε α) = .ok b ↔ a = b := by
  show (Except.ok a : Except ε α) = .ok b ↔ a = b
  simp

theorem pair_eq_ok {a c : α} {b d : β} :
    (pure (a, b) : Except ε (α × β)) = .ok (c, d) ↔ a = c ∧ b = d := by
  rw [pure_eq_ok, Prod.mk.injEq]

variable {l : List α}

theorem mapM_eq_ok {out : List β} :
    l.mapM f = .ok out ↔ List.Forall₂ (fun a b => f a = .ok b) l out := by
  induction l generalizing out with
  | nil =>
    rw [List.mapM_nil, pure_eq_ok, List.forall₂_nil_left_iff]
    exact eq_comm
  | cons a l ih =>
    rw [List.mapM_cons]
    simp only [bind_eq_ok, pure_eq_ok, ih]
    constructor
    · rintro ⟨b, hb, bs, hbs, rfl⟩
      exact .cons hb hbs
    · rintro (_ | ⟨hb, hbs⟩)
      exact ⟨_, hb, _, hbs, rfl⟩

theorem mapM_eq_map {g : α → β} {out : List β}
    (h : l.mapM f = .ok out) (hf : ∀ a ∈ l, ∀ b, f a = .ok b → g a = b) : out = l.map g := by
  have h2 := mapM_eq_ok.1 h
  clear h
  induction h2 with
  | nil => rfl
  | @cons a b l out hab _ ih =>
    rw [List.map_cons, hf a List.mem_cons_self b hab,
      ← ih fun x hx => hf x (List.mem_cons_of_mem _ hx)]

/-- A loop that may miss: it gives what its steps give, if none misses. -/
theorem mapM_option {f : α → Option β} (l : List α) :
    l.mapM f = if ∀ a ∈ l, f a ≠ none then some (l.filterMap f) else none := by
  induction l with
  | nil => rfl
  | cons a l ih =>
    rw [List.mapM_cons, ih]
    cases ha : f a with
    | none =>
      have hall : ¬ ∀ x ∈ a :: l, f x ≠ none := fun h => h a List.mem_cons_self ha
      rw [if_neg hall]
      rfl
    | some b =>
      by_cases hl : ∀ x ∈ l, f x ≠ none
      · have hall : ∀ x ∈ a :: l, f x ≠ none := List.forall_mem_cons.2 ⟨by simp [ha], hl⟩
        rw [if_pos hl, if_pos hall, List.filterMap_cons_some ha]
        rfl
      · have hall : ¬ ∀ x ∈ a :: l, f x ≠ none := fun h =>
          hl fun x hx => h x (List.mem_cons_of_mem _ hx)
        rw [if_neg hl, if_neg hall]
        rfl

theorem foldlM_inv {f : β → α → Except ε β} {P : β → Prop} {b b' : β}
    (hf : ∀ a ∈ l, ∀ b b', P b → f b a = .ok b' → P b') (hb : P b)
    (h : l.foldlM f b = .ok b') : P b' := by
  induction l generalizing b with
  | nil =>
    rw [List.foldlM_nil, pure_eq_ok] at h
    exact h ▸ hb
  | cons a l ih =>
    rw [List.foldlM_cons, bind_eq_ok] at h
    obtain ⟨b1, h1, h2⟩ := h
    exact ih (fun x hx => hf x (List.mem_cons_of_mem _ hx)) (hf a List.mem_cons_self b b1 hb h1) h2

theorem mapM_isOk (h : ∀ a ∈ l, ∃ b, f a = .ok b) : ∃ out, l.mapM f = .ok out := by
  induction l with
  | nil => exact ⟨[], List.mapM_nil⟩
  | cons a l ih =>
    obtain ⟨b, hb⟩ := h a List.mem_cons_self
    obtain ⟨out, hout⟩ := ih fun x hx => h x (List.mem_cons_of_mem _ hx)
    exact ⟨b :: out, by rw [List.mapM_cons, hb, hout]; rfl⟩

theorem mapM_append_ok {l l' : List α} {out out' : List β}
    (h : l.mapM f = .ok out) (h' : l'.mapM f = .ok out') :
    (l ++ l').mapM f = .ok (out ++ out') :=
  mapM_eq_ok.2 (List.rel_append (mapM_eq_ok.1 h) (mapM_eq_ok.1 h'))

variable {R : α → β → Prop}

theorem forall₂_trans {γ : Type} {S : β → γ → Prop} {T : α → γ → Prop}
    (h : ∀ a b c, R a b → S b c → T a c) {m : List β} {n : List γ}
    (h1 : List.Forall₂ R l m) (h2 : List.Forall₂ S m n) : List.Forall₂ T l n := by
  induction h1 generalizing n with
  | nil =>
    cases h2
    exact .nil
  | cons hab _ ih =>
    cases h2 with
    | cons hbc hrest => exact .cons (h _ _ _ hab hbc) (ih hrest)

theorem forall₂_append_left {l l' : List α} {m : List β} (h : List.Forall₂ R (l ++ l') m) :
    ∃ n n', List.Forall₂ R l n ∧ List.Forall₂ R l' n' ∧ m = n ++ n' := by
  induction l generalizing m with
  | nil => exact ⟨[], m, .nil, h, rfl⟩
  | cons a l ih =>
    cases h with
    | cons hab h =>
      obtain ⟨n, n', h1, h2, rfl⟩ := ih h
      exact ⟨_ :: n, n', .cons hab h1, h2, rfl⟩

theorem forall₂_mem {m : List β}
    (h : List.Forall₂ R l m) {a : α} (ha : a ∈ l) : ∃ b ∈ m, R a b := by
  obtain ⟨i, hi, rfl⟩ := List.getElem_of_mem ha
  have hlen := h.length_eq
  exact ⟨m.get ⟨i, by omega⟩, List.getElem_mem _, h.get hi (by omega)⟩

theorem zip_of_forall₂ {m : List β}
    (h : List.Forall₂ R l m) : (l.zip m).map (·.1) = l ∧ ∀ p ∈ l.zip m, p.1 ∈ l ∧ R p.1 p.2 := by
  induction h with
  | nil => exact ⟨rfl, fun _ hp => absurd hp List.not_mem_nil⟩
  | cons hab _ ih =>
    refine ⟨by rw [List.zip_cons_cons, List.map_cons, ih.1], fun p hp => ?_⟩
    rcases List.mem_cons.1 hp with rfl | hp
    · exact ⟨List.mem_cons_self, hab⟩
    · exact ⟨List.mem_cons_of_mem _ (ih.2 p hp).1, (ih.2 p hp).2⟩

/-! ## Two computations side by side -/

/-- Both return related values, or both throw the same. -/
inductive Matched (Q : α → β → Prop) : Except ε α → Except ε β → Prop where
  | ok {a : α} {b : β} (h : Q a b) : Matched Q (.ok a) (.ok b)
  | error (e : ε) : Matched Q (.error e) (.error e)

theorem Matched.bind_of {γ δ : Type} {Q : α → β → Prop} {R : γ → δ → Prop}
    {y : Except ε β} {f : α → Except ε γ} {g : β → Except ε δ} (h : Matched Q x y)
    (hfg : ∀ a b, x = .ok a → Q a b → Matched R (f a) (g b)) : Matched R (x >>= f) (y >>= g) := by
  cases h with
  | ok hab => exact hfg _ _ rfl hab
  | error e => exact .error e

theorem Matched.bind {γ δ : Type} {Q : α → β → Prop} {R : γ → δ → Prop}
    {y : Except ε β} {f : α → Except ε γ} {g : β → Except ε δ} (h : Matched Q x y)
    (hfg : ∀ a b, Q a b → Matched R (f a) (g b)) : Matched R (x >>= f) (y >>= g) :=
  h.bind_of fun a b _ hab => hfg a b hab

theorem Matched.imp {Q R : α → β → Prop} {y : Except ε β} (h : Matched Q x y)
    (hQR : ∀ a b, Q a b → R a b) : Matched R x y := by
  cases h with
  | ok hab => exact .ok (hQR _ _ hab)
  | error e => exact .error e

theorem Matched.bind_same {γ δ : Type} {R : γ → δ → Prop} (x : Except ε α) {f : α → Except ε γ}
    {g : α → Except ε δ} (h : ∀ a, x = .ok a → Matched R (f a) (g a)) :
    Matched R (x >>= f) (x >>= g) := by
  cases x with
  | error e => exact .error e
  | ok a => exact h a rfl

/-! ## What a computation does not throw -/

theorem bind_ne_error {e : ε} (hx : x ≠ .error e)
    (hf : ∀ a, f a ≠ .error e) : (x >>= f) ≠ .error e := by
  cases x with
  | error e' => exact fun h => hx (congrArg Except.error (Except.error.inj h))
  | ok a => exact hf a

theorem mapM_ne_error {e : ε} (hf : ∀ a, f a ≠ .error e) (l : List α) : l.mapM f ≠ .error e := by
  induction l with
  | nil =>
    rw [List.mapM_nil]
    exact nofun
  | cons a l ih =>
    rw [List.mapM_cons]
    exact bind_ne_error (hf a) fun b => bind_ne_error ih fun bs => nofun

theorem foldlM_ne_error {f : β → α → Except ε β} {e : ε} (hf : ∀ b a, f b a ≠ .error e)
    (l : List α) (b : β) : l.foldlM f b ≠ .error e := by
  induction l generalizing b with
  | nil =>
    rw [List.foldlM_nil]
    exact nofun
  | cons a l ih =>
    rw [List.foldlM_cons]
    exact bind_ne_error (hf b a) ih

end Results
