import Mathlib

/-!
# Processes that ask a world and may be cut short

A process is done, or asks its world and goes on with the answer (`Process`). A system answers the
requests, lets other things happen to the world between any two of them, and may start a process at
any moment, which cuts the one before short and loses what it knew (`System.step`). What a process
does under all of this is shown by triples: an assertion it starts from and one it ends in, both
untouched by what happens beside it (`System.Holds`), with one rule for a request, one for a
sequence and one for a loop.
-/

namespace Processes

/-- A process over the requests `R`: it is done, or it asks and goes on with the answer. -/
inductive Process {R : Type} (Answer : R → Type) (α : Type) : Type
  | done (a : α)
  | ask (r : R) (k : Answer r → Process Answer α)

variable {R : Type} {Answer : R → Type} {ε α β γ : Type}

namespace Process

def bind : Process Answer α → (α → Process Answer β) → Process Answer β
  | done a, f => f a
  | ask r k, f => ask r fun a => (k a).bind f

instance : Monad (Process Answer) where
  pure := done
  bind := bind

/-- Ask once. -/
def request (r : R) : Process Answer (Answer r) := ask r done

/-- What a process ends in when nothing happens beside it. -/
def evaluate {W : Type} (serve : W → (r : R) → Answer r × W) : Process Answer α → W → α × W
  | done a, w => (a, w)
  | ask r k, w => (k (serve w r).1).evaluate serve (serve w r).2

theorem evaluate_bind {W : Type} (serve : W → (r : R) → Answer r × W) (p : Process Answer α)
    (f : α → Process Answer β) (w : W) :
    (p.bind f).evaluate serve w =
      (f (p.evaluate serve w).1).evaluate serve (p.evaluate serve w).2 := by
  induction p generalizing w with
  | done a => rfl
  | ask r k ih => exact ih (serve w r).1 (serve w r).2

end Process

/-- A process that may end in an error. -/
def Fallible {R : Type} (Answer : R → Type) (ε α : Type) : Type := Process Answer (Except ε α)

namespace Fallible

def throw (e : ε) : Fallible Answer ε α := .done (.error e)

/-- Goes on with what `p` gives, or ends with its error. -/
def andThen (f : α → Fallible Answer ε β) : Except ε α → Process Answer (Except ε β)
  | .ok a => f a
  | .error e => .done (.error e)

instance : Monad (Fallible Answer ε) where
  pure a := .done (.ok a)
  bind p f := Process.bind p (andThen f)

/-- Ask once, for an answer that cannot be an error. -/
def query (r : R) : Fallible Answer ε (Answer r) := .ask r fun a => .done (.ok a)

/-- Go on when `b` holds. -/
def require (b : Bool) (e : ε) : Fallible Answer ε Unit := if b then pure () else throw e

def ofExcept (r : Except ε α) : Fallible Answer ε α := .done r

/-- A process whose answer says whether it failed. -/
def ofProcess (p : Process Answer (Except ε α)) : Fallible Answer ε α := p

/-- Whatever `p` ends in, go on. -/
def quietly (p : Fallible Answer ε Unit) : Fallible Answer ε Unit :=
  Process.bind p fun _ => .done (.ok ())

/-- Take the elements of a list one after the other. -/
def foldl (f : β → α → Fallible Answer ε β) : β → List α → Fallible Answer ε β
  | b, [] => pure b
  | b, a :: rest => do
    let b ← f b a
    foldl f b rest

end Fallible

/-- A system around a process: how a request may be answered, given how it fares, what happens
beside the process, and the process of each job. -/
structure System (R : Type) (Answer : R → Type) (W F O J : Type) where
  serve : W → (r : R) → F → Option (Answer r × W)
  outside : W → O → W
  process : J → Process Answer Unit

/-- One move of a system: the pending request is answered, something happens beside the process, or
a job starts, which cuts short what is not done. -/
inductive Move (F O J : Type)
  | answer (f : F)
  | outside (o : O)
  | start (j : J)

structure Config {R : Type} (Answer : R → Type) (W : Type) where
  world : W
  process : Process Answer Unit

variable {W F O J : Type}

namespace System

variable (S : System R Answer W F O J)

/-- The next configuration; an answer the world cannot give leaves it as it is. -/
def step (c : Config Answer W) : Move F O J → Config Answer W
  | .answer f =>
    match c.process with
    | .done _ => c
    | .ask r k =>
      match S.serve c.world r f with
      | some (a, w) => ⟨w, k a⟩
      | none => c
  | .outside o => { c with world := S.outside c.world o }
  | .start j => { c with process := S.process j }

theorem step_answer {c : Config Answer W} {r : R} {k : Answer r → Process Answer Unit} {f : F}
    {a : Answer r} {w : W} (hp : c.process = .ask r k) (hs : S.serve c.world r f = some (a, w)) :
    S.step c (.answer f) = ⟨w, k a⟩ := by
  simp only [step, hp, hs]

/-- The pending request is answered, or nothing changes. -/
theorem step_cases (c : Config Answer W) (f : F) : S.step c (.answer f) = c ∨
    ∃ r k a w, c.process = .ask r k ∧ S.serve c.world r f = some (a, w) ∧
      S.step c (.answer f) = ⟨w, k a⟩ := by
  cases hp : c.process with
  | done _ => exact .inl (by simp only [step, hp])
  | ask r k =>
    cases hs : S.serve c.world r f with
    | none => exact .inl (by simp only [step, hp, hs])
    | some answer => exact .inr ⟨r, k, answer.1, answer.2, rfl, hs, S.step_answer hp hs⟩

def run (c : Config Answer W) (moves : List (Move F O J)) : Config Answer W := moves.foldl S.step c

/-- The configurations a run goes through before its last move. -/
def trail (c : Config Answer W) : List (Move F O J) → List (Config Answer W)
  | [] => []
  | m :: moves => c :: trail (S.step c m) moves

/-- `P` holds of every move of a run in the configuration where it is made. -/
def Along (P : Config Answer W → Move F O J → Prop) : Config Answer W → List (Move F O J) → Prop
  | _, [] => True
  | c, m :: moves => P c m ∧ Along P (S.step c m) moves

instance decidableAlong {P : Config Answer W → Move F O J → Prop} [∀ c m, Decidable (P c m)] :
    (c : Config Answer W) → (moves : List (Move F O J)) → Decidable (S.Along P c moves)
  | _, [] => .isTrue trivial
  | c, m :: moves => @instDecidableAnd _ _ (inferInstanceAs (Decidable (P c m)))
      (decidableAlong (S.step c m) moves)

theorem run_keeps {T : W → W → Prop} (hrefl : ∀ w, T w w)
    (htrans : ∀ w w' w'', T w w' → T w' w'' → T w w'')
    (hserve : ∀ w r f a w', S.serve w r f = some (a, w') → T w w')
    (houtside : ∀ w o, T w (S.outside w o)) (c : Config Answer W) (moves : List (Move F O J)) :
    T c.world (S.run c moves).world := by
  induction moves generalizing c with
  | nil => exact hrefl _
  | cons m moves ih =>
    have hstep : T c.world (S.step c m).world := by
      cases m with
      | answer f =>
        rcases S.step_cases c f with heq | ⟨r, k, a, w, -, hs, heq⟩
        · rw [heq]
          exact hrefl _
        · rw [heq]
          exact hserve _ _ _ _ _ hs
      | outside o => exact houtside _ _
      | start j => exact hrefl _
    exact htrans _ _ _ hstep (ih (S.step c m))

theorem run_concat (c : Config Answer W) (moves : List (Move F O J)) (m : Move F O J) :
    S.run c (moves ++ [m]) = S.step (S.run c moves) m := List.foldl_append

theorem trail_concat (c : Config Answer W) (moves : List (Move F O J)) (m : Move F O J) :
    S.trail c (moves ++ [m]) = S.trail c moves ++ [S.run c moves] := by
  induction moves generalizing c with
  | nil => rfl
  | cons m' moves ih =>
    rw [List.cons_append, trail, trail, ih]
    rfl

end System

/-- The request a configuration waits for. -/
def Config.pending (c : Config Answer W) : Option R :=
  match c.process with
  | .done _ => none
  | .ask r _ => some r

theorem Config.ask_of_pending {c : Config Answer W} {r : R} (h : c.pending = some r) :
    ∃ k, c.process = .ask r k := by
  unfold pending at h
  cases hp : c.process with
  | done _ =>
    rw [hp] at h
    exact nomatch h
  | ask r' k =>
    rw [hp] at h
    obtain rfl : r' = r := Option.some.inj h
    exact ⟨k, rfl⟩

/-- What is shown of a system: an invariant of its worlds, how a world may change beside the
process, what is assumed of a request when it is asked, and what is shown of it. -/
structure Contract (R W : Type) where
  inv : W → Prop
  rely : W → W → Prop
  meets : W → R → Prop
  pre : W → R → Prop

/-- A contract a system can be held to: what happens beside the process keeps the invariant and is
what the process relies on, and a request asked as it should be keeps the invariant. -/
structure Contract.Sound (C : Contract R W) (S : System R Answer W F O J) : Prop where
  outside : ∀ w o, C.inv w → C.inv (S.outside w o) ∧ C.rely w (S.outside w o)
  serve : ∀ w r f a w', C.inv w → C.meets w r → C.pre w r → S.serve w r f = some (a, w') → C.inv w'

namespace Contract

variable (C : Contract R W)

/-- `w'` comes from `w` by what may happen beside the process. -/
def Later : W → W → Prop := Relation.ReflTransGen fun w w' => C.rely w w' ∧ C.inv w'

/-- What may happen beside the process does not undo `A`. -/
def Stable (A : W → Prop) : Prop := ∀ w w', C.inv w → C.rely w w' → A w → A w'

variable {C}

theorem Later.inv {w w' : W} (h : C.Later w w') (hw : C.inv w) : C.inv w' := by
  induction h with
  | refl => exact hw
  | tail _ hs _ => exact hs.2

theorem Stable.later {A : W → Prop} (hA : C.Stable A) {w w' : W} (h : C.Later w w')
    (hw : C.inv w) (ha : A w) : A w' := by
  induction h with
  | refl => exact ha
  | tail h hs ih => exact hA _ _ (Later.inv h hw) hs.1 ih

theorem Stable.and {A B : W → Prop} (hA : C.Stable A) (hB : C.Stable B) :
    C.Stable fun w => A w ∧ B w :=
  fun w w' hw hr h => ⟨hA w w' hw hr h.1, hB w w' hw hr h.2⟩

theorem Stable.forall {ι : Type} {A : ι → W → Prop} (hA : ∀ i, C.Stable (A i)) :
    C.Stable fun w => ∀ i, A i w :=
  fun w w' hw hr h i => hA i w w' hw hr (h i)

theorem Stable.imp {P : Prop} {A : W → Prop} (hA : P → C.Stable A) : C.Stable fun w => P → A w :=
  fun w w' hw hr h hp => hA hp w w' hw hr (h hp)

theorem Stable.const (P : Prop) : C.Stable fun _ => P := fun _ _ _ _ h => h

end Contract

namespace System

variable (S : System R Answer W F O J) (C : Contract R W)

/-- From `w` on, every request the process asks is asked as it should be, and it ends as `Q` says. -/
def Keeps : Process Answer α → (α → W → Prop) → W → Prop
  | .done a, Q, w => ∀ w', C.Later w w' → Q a w'
  | .ask r k, Q, w => ∀ w', C.Later w w' → C.meets w' r →
      C.pre w' r ∧ ∀ f a w'', S.serve w' r f = some (a, w'') → Keeps (k a) Q w''

/-- A process that starts where `A` holds asks as it should and ends as `Q` says. -/
def Holds (A : W → Prop) (p : Process Answer α) (Q : α → W → Prop) : Prop :=
  ∀ w, C.inv w → A w → S.Keeps C p Q w

/-- The same of a process that may end in an error, of which nothing more is said. -/
def Leads (A : W → Prop) (p : Fallible Answer ε α) (B : α → W → Prop) : Prop :=
  S.Holds C A p fun r w => ∀ a, r = .ok a → B a w

def ending (B : α → W → Prop) (E : W → Prop) : Except ε α → W → Prop
  | .ok a => B a
  | .error _ => E

/-- The same as `Leads` with what is known after an error. -/
def Ends (A : W → Prop) (p : Fallible Answer ε α) (B : α → W → Prop) (E : W → Prop) : Prop :=
  S.Holds C A p (ending B E)

variable {S C}

variable {Q : α → W → Prop}

theorem Keeps.later {p : Process Answer α} {w w' : W} (h : S.Keeps C p Q w)
    (hl : C.Later w w') : S.Keeps C p Q w' := by
  cases p with
  | done a => exact fun w'' hl' => h w'' (hl.trans hl')
  | ask r k => exact fun w'' hl' => h w'' (hl.trans hl')

variable {A : W → Prop}

theorem Holds.done {a : α} (hQ : C.Stable (Q a))
    (h : ∀ w, C.inv w → A w → Q a w) : S.Holds C A (.done a) Q :=
  fun w hw hA _ hl => hQ.later hl hw (h w hw hA)

theorem Holds.imp {A B : W → Prop} {p : Process Answer α}
    (h : S.Holds C B p Q) (hA : ∀ w, C.inv w → A w → B w) : S.Holds C A p Q :=
  fun w hw hAw => h w hw (hA w hw hAw)

theorem Keeps.post {p : Process Answer α} {Q Q' : α → W → Prop} {w : W} (h : S.Keeps C p Q w)
    (hQ : ∀ a w, Q a w → Q' a w) : S.Keeps C p Q' w := by
  induction p generalizing w with
  | done a => exact fun w' hl => hQ a w' (h w' hl)
  | ask r k ih =>
    intro w' hl hm
    obtain ⟨hpre, hk⟩ := h w' hl hm
    exact ⟨hpre, fun f a w'' hs => ih a (hk f a w'' hs)⟩

variable {p : Fallible Answer ε α}

theorem Leads.imp {A B : W → Prop}
    (h : S.Leads C B p Q) (hA : ∀ w, C.inv w → A w → B w) : S.Leads C A p Q :=
  Holds.imp h hA

variable {B : α → W → Prop}

theorem Leads.pure {a : α} (hB : C.Stable (B a))
    (h : ∀ w, C.inv w → A w → B a w) : S.Leads C A (Pure.pure a : Fallible Answer ε α) B := by
  intro w hw hA w' hl a' ha
  obtain rfl : a = a' := Except.ok.inj ha
  exact hB.later hl hw (h w hw hA)

theorem Leads.throw {e : ε} : S.Leads C A (Fallible.throw e : Fallible Answer ε α) B :=
  fun _ _ _ _ _ _ ha => nomatch ha

theorem Leads.ofExcept {r : Except ε α}
    (hB : ∀ a, C.Stable (B a)) (h : ∀ w, C.inv w → A w → ∀ a, r = .ok a → B a w) :
    S.Leads C A (Fallible.ofExcept r : Fallible Answer ε α) B :=
  fun w hw hA _ hl a ha => (hB a).later hl hw (h w hw hA a ha)

theorem Leads.require {b : Bool} {e : ε} {B : Unit → W → Prop}
    (hB : C.Stable (B ())) (h : ∀ w, C.inv w → A w → b = true → B () w) :
    S.Leads C A (Fallible.require b e : Fallible Answer ε Unit) B := by
  unfold Fallible.require
  split
  · next hb => exact Leads.pure hB fun w hw hA => h w hw hA hb
  · exact Leads.throw

variable {E : W → Prop}

theorem Ends.imp {A A' : W → Prop}
    (h : S.Ends C A' p B E) (hA : ∀ w, C.inv w → A w → A' w) : S.Ends C A p B E :=
  Holds.imp h hA

theorem Ends.post {B B' : α → W → Prop} {E E' : W → Prop}
    (h : S.Ends C A p B E) (hB : ∀ a w, B a w → B' a w) (hE : ∀ w, E w → E' w) :
    S.Ends C A p B' E' := by
  intro w hw hA
  refine Keeps.post (h w hw hA) fun r w h => ?_
  cases r with
  | ok a => exact hB a w h
  | error e => exact hE w h

theorem Ends.pure {a : α} (hB : C.Stable (B a))
    (h : ∀ w, C.inv w → A w → B a w) : S.Ends C A (Pure.pure a : Fallible Answer ε α) B E :=
  Holds.done hB h

theorem Ends.throw {e : ε} (hE : C.Stable E)
    (h : ∀ w, C.inv w → A w → E w) : S.Ends C A (Fallible.throw e : Fallible Answer ε α) B E :=
  Holds.done hE h

theorem Ends.require {b : Bool} {e : ε} {B : Unit → W → Prop}
    (hB : C.Stable (B ())) (hE : C.Stable E) (h : ∀ w, C.inv w → A w → b = true → B () w)
    (hfalse : ∀ w, C.inv w → A w → b = false → E w) :
    S.Ends C A (Fallible.require b e : Fallible Answer ε Unit) B E := by
  unfold Fallible.require
  cases hb : b with
  | true => exact Ends.pure hB fun w hw hA => h w hw hA hb
  | false => exact Ends.throw hE fun w hw hA => hfalse w hw hA hb

theorem Holds.absurd {p : Process Answer α} (h : ∀ w, C.inv w → ¬A w) : S.Holds C A p Q :=
  fun w hw hA => (h w hw hA).elim

section Sound

variable (hC : C.Sound S)
include hC

variable {B : α → W → Prop} {Q : β → W → Prop}

theorem Keeps.bind {p : Process Answer α} {f : α → Process Answer β} {w : W} (hw : C.inv w)
    (h : S.Keeps C p B w)
    (hf : ∀ a, S.Holds C (B a) (f a) Q) : S.Keeps C (p.bind f) Q w := by
  induction p generalizing w with
  | done a => exact hf a w hw (h w .refl)
  | ask r k ih =>
    intro w' hl hm
    obtain ⟨hpre, hk⟩ := h w' hl hm
    have hw' := hl.inv hw
    exact ⟨hpre, fun f a w'' hs => ih a (hC.serve w' r f a w'' hw' hm hpre hs) (hk f a w'' hs)⟩

variable {A : W → Prop}

/-- **Sequence**: the second process starts where the first ends. -/
theorem Holds.bind {p : Process Answer α} {f : α → Process Answer β} (h : S.Holds C A p B)
    (hf : ∀ a, S.Holds C (B a) (f a) Q) : S.Holds C A (p >>= f) Q :=
  fun w hw hA => Keeps.bind hC hw (h w hw hA) hf

/-- **Request**: it is asked as it should be, and each answer leaves what is wanted. -/
theorem Holds.asked {r : R} {k : Answer r → γ} {B : Answer r → W → Prop} {Q : γ → W → Prop}
    (hA : C.Stable A) (hB : ∀ a, C.Stable (B a)) (hQ : ∀ a w, B a w → Q (k a) w)
    (h : ∀ w, C.inv w → A w → C.meets w r →
      C.pre w r ∧ ∀ f a w', S.serve w r f = some (a, w') → B a w') :
    S.Holds C A (.ask r fun a => .done (k a)) Q := by
  intro w hw hAw w' hl hm
  obtain ⟨hpre, hserve⟩ := h w' (hl.inv hw) (hA.later hl hw hAw) hm
  exact ⟨hpre, fun f a w'' hs _ hl' => hQ a _
    ((hB a).later hl' (hC.serve w' r f a w'' (hl.inv hw) hm hpre hs) (hserve f a w'' hs))⟩

theorem Holds.request {r : R} {B : Answer r → W → Prop} (hA : C.Stable A) (hB : ∀ a, C.Stable (B a))
    (h : ∀ w, C.inv w → A w → C.meets w r →
      C.pre w r ∧ ∀ f a w', S.serve w r f = some (a, w') → B a w') :
    S.Holds C A (Process.request r) B :=
  Holds.asked hC hA hB (fun _ _ h => h) h

theorem Leads.query {r : R} {B : Answer r → W → Prop} (hA : C.Stable A) (hB : ∀ a, C.Stable (B a))
    (h : ∀ w, C.inv w → A w → C.meets w r →
      C.pre w r ∧ ∀ f a w', S.serve w r f = some (a, w') → B a w') :
    S.Leads C A (Fallible.query r : Fallible Answer ε (Answer r)) B :=
  Holds.asked hC hA hB (fun _ _ hB _ hok => Except.ok.inj hok ▸ hB) h

theorem Leads.bind {p : Fallible Answer ε α} {f : α → Fallible Answer ε β} (h : S.Leads C A p B)
    (hf : ∀ a, S.Leads C (B a) (f a) Q) : S.Leads C A (p >>= f) Q := by
  intro w hw hA
  refine Keeps.bind hC hw (h w hw hA) fun r => ?_
  cases r with
  | ok a => exact (hf a).imp fun w _ hB => hB a rfl
  | error e => exact Leads.throw

theorem Leads.quietly {p : Fallible Answer ε Unit} {B : Unit → W → Prop}
    (h : S.Leads C A p B) : S.Leads C A (Fallible.quietly p) fun _ _ => True :=
  Holds.bind hC h fun _ => Holds.done (fun _ _ _ _ _ _ _ => trivial) fun _ _ _ _ _ => trivial

theorem Ends.query {r : R} {B : Answer r → W → Prop} {E : W → Prop}
    (hA : C.Stable A) (hB : ∀ a, C.Stable (B a))
    (h : ∀ w, C.inv w → A w → C.meets w r →
      C.pre w r ∧ ∀ f a w', S.serve w r f = some (a, w') → B a w') :
    S.Ends C A (Fallible.query r : Fallible Answer ε (Answer r)) B E :=
  Holds.asked hC hA hB (fun _ _ hB => hB) h

theorem Ends.bind {p : Fallible Answer ε α} {f : α → Fallible Answer ε β} {E : W → Prop}
    (hE : C.Stable E)
    (h : S.Ends C A p B E) (hf : ∀ a, S.Ends C (B a) (f a) Q E) : S.Ends C A (p >>= f) Q E := by
  intro w hw hA
  refine Keeps.bind hC hw (h w hw hA) fun r => ?_
  cases r with
  | ok a => exact hf a
  | error e => exact Holds.done hE fun _ _ h => h

theorem Ends.foldl {f : β → α → Fallible Answer ε β} (I : List α → β → W → Prop) {E : W → Prop}
    (hE : C.Stable E) (hI : ∀ b, C.Stable (I [] b))
    (h : ∀ a rest b, S.Ends C (I (a :: rest) b) (f b a) (fun b => I rest b) E) (l : List α) (b : β) :
    S.Ends C (I l b) (Fallible.foldl f b l) (fun b => I [] b) E := by
  induction l generalizing b with
  | nil => exact Ends.pure (hI b) fun _ _ h => h
  | cons a rest ih => exact Ends.bind hC hE (h a rest b) ih

/-- **Loop**: what holds while the elements of a list are taken, of those that are left. -/
theorem Leads.foldl {f : β → α → Fallible Answer ε β} (I : List α → β → W → Prop)
    (hI : ∀ b, C.Stable (I [] b))
    (h : ∀ a rest b, S.Leads C (I (a :: rest) b) (f b a) fun b => I rest b) (l : List α) (b : β) :
    S.Leads C (I l b) (Fallible.foldl f b l) fun b => I [] b := by
  induction l generalizing b with
  | nil => exact Leads.pure (hI b) fun _ _ h => h
  | cons a rest ih => exact Leads.bind hC (h a rest b) ih

/-- What is known of a configuration of a run whose processes end as `Q` says. -/
def Bound (S : System R Answer W F O J) (C : Contract R W) (Q : W → Prop) (c : Config Answer W) :
    Prop :=
  C.inv c.world ∧ S.Keeps C c.process (fun _ => Q) c.world

variable {c : Config Answer W}

theorem Bound.step {Q : W → Prop} (h : Bound S C Q c)
    {m : Move F O J} (hm : ∀ f, m = .answer f → ∀ r ∈ c.pending, C.meets c.world r)
    (hstart : ∀ j, m = .start j → S.Keeps C (S.process j) (fun _ => Q) c.world) :
    Bound S C Q (S.step c m) := by
  obtain ⟨hw, hk⟩ := h
  cases m with
  | answer f =>
    rcases S.step_cases c f with heq | ⟨r, k, a, w, hp, hs, heq⟩
    · rw [heq]
      exact ⟨hw, hk⟩
    · rw [hp] at hk
      have hmeets := hm f rfl r (by rw [Config.pending, hp]; rfl)
      obtain ⟨hpre, hnext⟩ := hk c.world .refl hmeets
      rw [heq]
      exact ⟨hC.serve _ r f a w hw hmeets hpre hs, hnext f a w hs⟩
  | outside o =>
    obtain ⟨hinv, hrely⟩ := hC.outside c.world o hw
    exact ⟨hinv, hk.later (.single ⟨hrely, hinv⟩)⟩
  | start j => exact ⟨hw, hstart j rfl⟩

/-- **A run whose moves are made as `P` says** keeps the invariant, and its processes end as `Q`
says, where `P` lets a process start only if it will. -/
theorem Bound.run {Q : W → Prop} {P : Config Answer W → Move F O J → Prop}
    (hP : ∀ c m, Bound S C Q c → P c m →
      (∀ f, m = .answer f → ∀ r ∈ c.pending, C.meets c.world r) ∧
      ∀ j, m = .start j → S.Keeps C (S.process j) (fun _ => Q) c.world) (h : Bound S C Q c) {moves : List (Move F O J)}
    (halong : S.Along P c moves) : Bound S C Q (S.run c moves) := by
  induction moves generalizing c with
  | nil => exact h
  | cons m moves ih =>
    obtain ⟨hm, hrest⟩ := halong
    obtain ⟨hmeets, hstart⟩ := hP c m h hm
    exact ih (h.step hC hmeets hstart) hrest

/-- The same of processes of whose end nothing is said. -/
def Kept (S : System R Answer W F O J) (C : Contract R W) (c : Config Answer W) : Prop :=
  C.inv c.world ∧ S.Keeps C c.process (fun _ _ => True) c.world

theorem Kept.step (hstart : ∀ j, S.Holds C (fun _ => True) (S.process j) fun _ _ => True)
    (h : Kept S C c) (hm : ∀ r ∈ c.pending, C.meets c.world r)
    (m : Move F O J) : Kept S C (S.step c m) :=
  Bound.step hC h (fun _ _ => hm) fun j _ => hstart j _ h.1 trivial

/-- **Every configuration of a run keeps the invariant**, and what waits there is asked as it should
be, as long as all requests so far met what is assumed of them. -/
theorem Kept.trail (hstart : ∀ j, S.Holds C (fun _ => True) (S.process j) fun _ _ => True)
    (h : Kept S C c) (moves : List (Move F O J))
    (hm : ∀ d ∈ S.trail c moves, ∀ r ∈ d.pending, C.meets d.world r) :
    (∀ d ∈ S.trail c moves, Kept S C d) ∧ Kept S C (S.run c moves) := by
  induction moves generalizing c with
  | nil => exact ⟨fun _ hd => absurd hd List.not_mem_nil, h⟩
  | cons m moves ih =>
    have hnext := h.step hC hstart (hm c List.mem_cons_self) m
    obtain ⟨hall, hlast⟩ := ih hnext fun d hd => hm d (List.mem_cons_of_mem _ hd)
    refine ⟨fun d hd => ?_, hlast⟩
    rcases List.mem_cons.1 hd with rfl | hd
    · exact h
    · exact hall d hd

end Sound

theorem Bound.done {Q : W → Prop} {c : Config Answer W} (h : Bound S C Q c)
    (hp : c.process = .done ()) : Q c.world := by
  have hk := h.2
  rw [hp] at hk
  exact hk c.world .refl

theorem Kept.pre {c : Config Answer W} (h : Kept S C c) {r : R} (hr : c.pending = some r)
    (hm : C.meets c.world r) : C.pre c.world r := by
  obtain ⟨k, hp⟩ := Config.ask_of_pending hr
  have hk := h.2
  rw [hp] at hk
  exact (hk c.world .refl hm).1

end System

end Processes
