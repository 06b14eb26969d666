import Mathlib

/-!
# Transactions that refuse and fail

A handler runs inside a write transaction over a state `σ`. It ends in one of three ways:

1. `done a s`: it answers `a`, and the state is `s`;
2. `refused r s`: the work stops with a refusal `r`, which is an answer too, so whatever was
   written before the refusal is kept (`s`);
3. `failed e`: an error, after which the transaction rolls back and no state is left to name.

The inversion lemmas (`bind_done`, `bind_refused`) take a run of a `do` block apart into the runs
of its statements. Two notions are closed under composition and carry whole handlers:

* `Clean x`: a refusal of `x` leaves the state as `x` found it;
* `Silent x`: `x` writes nothing at all.
-/

namespace Txn

/-- How a transaction's body ends. -/
inductive Outcome (ε ρ σ α : Type) where
  | done (a : α) (s : σ)
  | refused (r : ρ) (s : σ)
  | failed (e : ε)
  deriving DecidableEq

/-- The answer and the state of a body that is answered. -/
def Outcome.done? {ε ρ σ α : Type} : Outcome ε ρ σ α → Option (α × σ)
  | .done a s => some (a, s)
  | .refused _ _ => none
  | .failed _ => none

theorem Outcome.done?_eq_some {ε ρ σ α : Type} {o : Outcome ε ρ σ α} {x : α × σ} :
    o.done? = some x ↔ o = .done x.1 x.2 := by
  cases o <;> simp [Outcome.done?, Prod.ext_iff]

end Txn

/-- A computation over a state `σ` that may refuse with `ρ` or fail with `ε`. -/
def Txn (ε ρ σ α : Type) := σ → Txn.Outcome ε ρ σ α

namespace Txn

variable {ε ρ σ α β : Type}

instance : Monad (Txn ε ρ σ) where
  pure a := fun s => .done a s
  bind x f := fun s =>
    match x s with
    | .done a s' => f a s'
    | .refused r s' => .refused r s'
    | .failed e => .failed e

/-- Stop with a refusal; what was written so far stays. -/
def refuse (r : ρ) : Txn ε ρ σ α := fun s => .refused r s

/-- Stop with an error; the transaction rolls back. -/
def fail (e : ε) : Txn ε ρ σ α := fun _ => .failed e

/-- Read the state through `f`. -/
def query (f : σ → α) : Txn ε ρ σ α := fun s => .done (f s) s

/-- Change the state by `f`. -/
def write (f : σ → σ) : Txn ε ρ σ Unit := fun s => .done () (f s)

def require (p : Prop) [Decidable p] (r : ρ) : Txn ε ρ σ Unit :=
  if p then pure () else refuse r

def assert (p : Prop) [Decidable p] (e : ε) : Txn ε ρ σ Unit :=
  if p then pure () else fail e

def orRefuse (o : Option α) (r : ρ) : Txn ε ρ σ α :=
  match o with
  | some a => pure a
  | none => refuse r

/-- The value of an option, or the error `e`. -/
def orFail (o : Option α) (e : ε) : Txn ε ρ σ α :=
  match o with
  | some a => pure a
  | none => fail e

def check (x : Except ρ α) : Txn ε ρ σ α :=
  match x with
  | .ok a => pure a
  | .error r => refuse r

/-- Run `x` only when `p` holds. -/
def onlyIf (p : Prop) [Decidable p] (x : Txn ε ρ σ Unit) : Txn ε ρ σ Unit :=
  if p then x else pure ()

/-- Run `f` on the value of an option, if it has one. -/
def forSome (o : Option α) (f : α → Txn ε ρ σ Unit) : Txn ε ρ σ Unit :=
  match o with
  | some a => f a
  | none => pure ()

/-- Run `f` on the elements of a list, one after the other. -/
def each (f : α → Txn ε ρ σ β) : List α → Txn ε ρ σ (List β)
  | [] => pure []
  | a :: rest => do
    let b ← f a
    let bs ← each f rest
    pure (b :: bs)

/-- A refusal turned into an answer: the transaction goes on either way. -/
def attempt (x : Txn ε ρ σ α) : Txn ε ρ σ (Except ρ α) := fun s =>
  match x s with
  | .done a s' => .done (.ok a) s'
  | .refused r s' => .done (.error r) s'
  | .failed e => .failed e

theorem bind_assoc {γ : Type} (x : Txn ε ρ σ α) (f : α → Txn ε ρ σ β) (g : β → Txn ε ρ σ γ) :
    (x >>= f) >>= g = x >>= fun a => f a >>= g := by
  funext s
  simp only [bind]
  cases x s <;> rfl

theorem each_map {γ : Type} (f : β → Txn ε ρ σ γ) (g : α → β) (xs : List α) :
    each f (xs.map g) = each (fun x => f (g x)) xs := by
  induction xs with
  | nil => rfl
  | cons x xs ih => simp only [List.map_cons, each, ih]

/-! ## Inversion -/

section Inversion

variable {s s' : σ} {a a' : α} {b : β} {r r' : ρ} {e : ε} {u : Unit}

@[simp] theorem pure_done : (pure a : Txn ε ρ σ α) s = .done a' s' ↔ a = a' ∧ s = s' := by
  simp [pure]

@[simp] theorem pure_refused : (pure a : Txn ε ρ σ α) s = .refused r s' ↔ False := by
  simp [pure]

variable {x : Txn ε ρ σ α}

@[simp] theorem bind_done {f : α → Txn ε ρ σ β} :
    (x >>= f) s = .done b s' ↔ ∃ a t, x s = .done a t ∧ f a t = .done b s' := by
  simp only [bind]
  cases hx : x s <;> simp

@[simp] theorem bind_refused {f : α → Txn ε ρ σ β} : (x >>= f) s = .refused r s' ↔
      x s = .refused r s' ∨ ∃ a t, x s = .done a t ∧ f a t = .refused r s' := by
  simp only [bind]
  cases hx : x s <;> simp

@[simp] theorem refuse_done : (refuse r : Txn ε ρ σ α) s = .done a s' ↔ False := by
  simp [refuse]

@[simp] theorem refuse_refused : (refuse r : Txn ε ρ σ α) s = .refused r' s' ↔ r = r' ∧ s = s' := by
  simp [refuse]

@[simp] theorem fail_done : (fail e : Txn ε ρ σ α) s = .done a s' ↔ False := by
  simp [fail]

@[simp] theorem fail_refused : (fail e : Txn ε ρ σ α) s = .refused r s' ↔ False := by
  simp [fail]

@[simp] theorem query_done {f : σ → α} :
    (query f : Txn ε ρ σ α) s = .done a s' ↔ f s = a ∧ s = s' := by
  simp [query]

@[simp] theorem query_refused {f : σ → α} : (query f : Txn ε ρ σ α) s = .refused r s' ↔ False := by
  simp [query]

@[simp] theorem write_done {f : σ → σ} : (write f : Txn ε ρ σ Unit) s = .done u s' ↔ f s = s' := by
  simp [write]

@[simp] theorem write_refused {f : σ → σ} :
    (write f : Txn ε ρ σ Unit) s = .refused r s' ↔ False := by
  simp [write]

@[simp] theorem require_done {p : Prop} [Decidable p] :
    (require p r : Txn ε ρ σ Unit) s = .done u s' ↔ p ∧ s = s' := by
  unfold require
  split <;> simp_all

@[simp] theorem require_refused {p : Prop} [Decidable p] :
    (require p r : Txn ε ρ σ Unit) s = .refused r' s' ↔ ¬p ∧ r = r' ∧ s = s' := by
  unfold require
  split <;> simp_all

@[simp] theorem assert_done {p : Prop} [Decidable p] :
    (assert p e : Txn ε ρ σ Unit) s = .done u s' ↔ p ∧ s = s' := by
  unfold assert
  split <;> simp_all

@[simp] theorem assert_refused {p : Prop} [Decidable p] :
    (assert p e : Txn ε ρ σ Unit) s = .refused r s' ↔ False := by
  unfold assert
  split <;> simp

variable {o : Option α}

@[simp] theorem orRefuse_done :
    (orRefuse o r : Txn ε ρ σ α) s = .done a s' ↔ o = some a ∧ s = s' := by
  cases o <;> simp [orRefuse]

@[simp] theorem orRefuse_refused :
    (orRefuse o r : Txn ε ρ σ α) s = .refused r' s' ↔ o = none ∧ r = r' ∧ s = s' := by
  cases o <;> simp [orRefuse]

@[simp] theorem orFail_done : (orFail o e : Txn ε ρ σ α) s = .done a s' ↔ o = some a ∧ s = s' := by
  cases o <;> simp [orFail]

@[simp] theorem orFail_refused : (orFail o e : Txn ε ρ σ α) s = .refused r s' ↔ False := by
  cases o <;> simp [orFail]

@[simp] theorem check_done {x : Except ρ α} :
    (check x : Txn ε ρ σ α) s = .done a s' ↔ x = .ok a ∧ s = s' := by
  cases x <;> simp [check]

@[simp] theorem check_refused {x : Except ρ α} :
    (check x : Txn ε ρ σ α) s = .refused r s' ↔ x = .error r ∧ s = s' := by
  cases x <;> simp [check]

@[simp] theorem onlyIf_done {p : Prop} [Decidable p] {x : Txn ε ρ σ Unit} :
    onlyIf p x s = .done u s' ↔ p ∧ x s = .done u s' ∨ ¬p ∧ s = s' := by
  unfold onlyIf
  split <;> simp_all

@[simp] theorem forSome_done {f : α → Txn ε ρ σ Unit} : forSome o f s = .done u s' ↔
      (∃ a, o = some a ∧ f a s = .done u s') ∨ o = none ∧ s = s' := by
  cases o <;> simp [forSome]

@[simp] theorem attempt_done_ok : attempt x s = .done (.ok a) s' ↔ x s = .done a s' := by
  unfold attempt
  cases x s <;> simp

@[simp] theorem attempt_done_error : attempt x s = .done (.error r) s' ↔ x s = .refused r s' := by
  unfold attempt
  cases x s <;> simp

@[simp] theorem attempt_refused : attempt x s = .refused r s' ↔ False := by
  unfold attempt
  cases x s <;> simp

end Inversion

/-! ## Clean refusals -/

/-- A refusal of `x` leaves the state as it was. -/
def Clean (x : Txn ε ρ σ α) : Prop :=
  ∀ s r s', x s = .refused r s' → s' = s

def NeverRefuses (x : Txn ε ρ σ α) : Prop :=
  ∀ s r s', x s ≠ .refused r s'

/-- `x` only reads: neither an answer nor a refusal changes the state. -/
def Silent (x : Txn ε ρ σ α) : Prop :=
  Clean x ∧ ∀ s a s', x s = .done a s' → s' = s

variable {x : Txn ε ρ σ α}

theorem NeverRefuses.clean (h : NeverRefuses x) : Clean x :=
  fun s r s' hx => absurd hx (h s r s')

theorem Silent.clean (h : Silent x) : Clean x := h.1

variable {f : α → Txn ε ρ σ β}

theorem Clean.bind (hx : Silent x) (hf : ∀ a, Clean (f a)) : Clean (x >>= f) := by
  intro s r s' h
  rcases bind_refused.1 h with h | ⟨a, t, ha, h⟩
  · exact hx.1 s r s' h
  · rw [hf a t r s' h, hx.2 s a t ha]

theorem Clean.bind_neverRefuses (hx : Clean x)
    (hf : ∀ a, NeverRefuses (f a)) : Clean (x >>= f) := by
  intro s r s' h
  rcases bind_refused.1 h with h | ⟨a, t, _, h⟩
  · exact hx s r s' h
  · exact absurd h (hf a t r s')

theorem NeverRefuses.bind (hx : NeverRefuses x)
    (hf : ∀ a, NeverRefuses (f a)) : NeverRefuses (x >>= f) := by
  intro s r s' h
  rcases bind_refused.1 h with h | ⟨a, t, _, h⟩
  · exact hx s r s' h
  · exact hf a t r s' h

theorem Silent.bind (hx : Silent x) (hf : ∀ a, Silent (f a)) : Silent (x >>= f) := by
  refine ⟨Clean.bind hx fun a => (hf a).1, fun s b s' h => ?_⟩
  obtain ⟨a, t, ha, hb⟩ := bind_done.1 h
  rw [(hf a).2 t b s' hb, hx.2 s a t ha]

theorem silent_pure (a : α) : Silent (pure a : Txn ε ρ σ α) :=
  ⟨fun _ _ _ h => (pure_refused.1 h).elim, fun _ _ _ h => (pure_done.1 h).2.symm⟩

theorem silent_query (f : σ → α) : Silent (query f : Txn ε ρ σ α) :=
  ⟨fun _ _ _ h => (query_refused.1 h).elim, fun _ _ _ h => (query_done.1 h).2.symm⟩

theorem silent_refuse (r : ρ) : Silent (refuse r : Txn ε ρ σ α) :=
  ⟨fun _ _ _ h => (refuse_refused.1 h).2.symm, fun _ _ _ h => (refuse_done.1 h).elim⟩

theorem silent_fail (e : ε) : Silent (fail e : Txn ε ρ σ α) :=
  ⟨fun _ _ _ h => (fail_refused.1 h).elim, fun _ _ _ h => (fail_done.1 h).elim⟩

theorem silent_require (p : Prop) [Decidable p] (r : ρ) : Silent (require p r : Txn ε ρ σ Unit) :=
  ⟨fun _ _ _ h => (require_refused.1 h).2.2.symm, fun _ _ _ h => (require_done.1 h).2.symm⟩

theorem silent_assert (p : Prop) [Decidable p] (e : ε) : Silent (assert p e : Txn ε ρ σ Unit) :=
  ⟨fun _ _ _ h => (assert_refused.1 h).elim, fun _ _ _ h => (assert_done.1 h).2.symm⟩

theorem silent_orRefuse (o : Option α) (r : ρ) : Silent (orRefuse o r : Txn ε ρ σ α) :=
  ⟨fun _ _ _ h => (orRefuse_refused.1 h).2.2.symm, fun _ _ _ h => (orRefuse_done.1 h).2.symm⟩

theorem silent_orFail (o : Option α) (e : ε) : Silent (orFail o e : Txn ε ρ σ α) :=
  ⟨fun _ _ _ h => (orFail_refused.1 h).elim, fun _ _ _ h => (orFail_done.1 h).2.symm⟩

theorem silent_check (x : Except ρ α) : Silent (check x : Txn ε ρ σ α) :=
  ⟨fun _ _ _ h => (check_refused.1 h).2.symm, fun _ _ _ h => (check_done.1 h).2.symm⟩

theorem NeverRefuses.onlyIf {p : Prop} [Decidable p] {x : Txn ε ρ σ Unit}
    (hx : NeverRefuses x) : NeverRefuses (onlyIf p x) := by
  unfold Txn.onlyIf
  split
  · exact hx
  · exact fun _ _ _ h => pure_refused.1 h

theorem NeverRefuses.forSome {o : Option α} {f : α → Txn ε ρ σ Unit}
    (hf : ∀ a, NeverRefuses (f a)) : NeverRefuses (forSome o f) := by
  cases o with
  | none => exact fun _ _ _ h => pure_refused.1 h
  | some a => exact hf a

theorem Clean.forSome {o : Option α} {f : α → Txn ε ρ σ Unit} (hf : ∀ a, Clean (f a)) :
    Clean (forSome o f) := by
  cases o with
  | none => exact (silent_pure _).clean
  | some a => exact hf a

theorem Silent.forSome {o : Option α} {f : α → Txn ε ρ σ Unit} (hf : ∀ a, Silent (f a)) :
    Silent (forSome o f) := by
  cases o with
  | none => exact silent_pure _
  | some a => exact hf a

theorem neverRefuses_pure (a : α) : NeverRefuses (pure a : Txn ε ρ σ α) :=
  fun _ _ _ h => pure_refused.1 h

/-! ## What an answer can be -/

def Returns (P : α → Prop) (x : Txn ε ρ σ α) : Prop :=
  ∀ s a s', x s = .done a s' → P a

theorem returns_pure {P : α → Prop} {a : α} (h : P a) : Returns P (pure a : Txn ε ρ σ α) := by
  intro s a' s' hx
  obtain ⟨rfl, -⟩ := pure_done.1 hx
  exact h

theorem returns_bind {P : β → Prop} (hf : ∀ a, Returns P (f a)) : Returns P (x >>= f) := by
  intro s b s' hx
  obtain ⟨a, t, -, h⟩ := bind_done.1 hx
  exact hf a t b s' h

end Txn
