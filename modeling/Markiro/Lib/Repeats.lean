import Markiro.Lib.Txn

/-!
# Messages sent again

A service that remembers what it answered (`Remembers`): a message that repeats one it answered gets
the same answer and changes nothing, however often it comes and whatever came in between. Repeats put
into a batch of messages leave the outcome of the batch as it was (`each_padded`).
-/

namespace Txn

variable {ε ρ σ α β : Type}

/-- Two outcomes agree: they end the same way in the same state, with values in `P`. -/
def Outcome.Agrees (P : α → β → Prop) : Outcome ε ρ σ α → Outcome ε ρ σ β → Prop
  | .done a s, .done b s' => P a b ∧ s = s'
  | .refused r s, .refused r' s' => r = r' ∧ s = s'
  | .failed e, .failed e' => e = e'
  | _, _ => False

/-- The computations agree, so what is done with their values does. -/
theorem Outcome.Agrees.bind {α' β' : Type} {P : α → β → Prop} {Q : α' → β' → Prop}
    {x : Txn ε ρ σ α} {y : Txn ε ρ σ β} {f : α → Txn ε ρ σ α'} {g : β → Txn ε ρ σ β'} {s : σ}
    (h : (x s).Agrees P (y s))
    (hfg : ∀ a b t, x s = .done a t → P a b → (f a t).Agrees Q (g b t)) :
    ((x >>= f) s).Agrees Q ((y >>= g) s) := by
  simp only [Bind.bind]
  cases hx : x s with
  | done a t =>
    cases hy : y s with
    | done b t' =>
      rw [hx, hy] at h
      obtain ⟨hab, rfl⟩ := h
      exact hfg a b t hx hab
    | refused => simp [hx, hy, Agrees] at h
    | failed => simp [hx, hy, Agrees] at h
  | refused r t =>
    cases hy : y s with
    | refused => simpa [hx, hy, Agrees] using h
    | done => simp [hx, hy, Agrees] at h
    | failed => simp [hx, hy, Agrees] at h
  | failed e =>
    cases hy : y s with
    | failed => simpa [hx, hy, Agrees] using h
    | done => simp [hx, hy, Agrees] at h
    | refused => simp [hx, hy, Agrees] at h

theorem Outcome.Agrees.refl {P : α → α → Prop} (hP : ∀ a, P a a) (o : Outcome ε ρ σ α) :
    o.Agrees P o := by
  cases o with
  | done a s => exact ⟨hP a, rfl⟩
  | refused => exact ⟨rfl, rfl⟩
  | failed => exact rfl

end Txn

namespace Repeats

open Txn

variable {ε ρ σ V R : Type} {Same : V → V → Prop}

/-- The second list is the first with repeats put in: of messages in `seen`, or of earlier ones of
the list. -/
inductive Padded (Same : V → V → Prop) : List V → List V → List V → Prop
  | nil {seen : List V} : Padded Same seen [] []
  | sent {seen vs vs' : List V} {v : V} :
      Padded Same (seen ++ [v]) vs vs' → Padded Same seen (v :: vs) (v :: vs')
  | again {seen vs vs' : List V} {v w : V} :
      v ∈ seen → Same v w → Padded Same seen vs vs' → Padded Same seen vs (w :: vs')

/-- The second list of messages and answers is the first with repeats put in, each of which got the
answer its message had got every time. -/
inductive Told (Same : V → V → Prop) : List (V × R) → List (V × R) → List (V × R) → Prop
  | nil {log : List (V × R)} : Told Same log [] []
  | sent {log es es' : List (V × R)} {e : V × R} :
      Told Same (log ++ [e]) es es' → Told Same log (e :: es) (e :: es')
  | again {log es es' : List (V × R)} {v w : V} {r : R} :
      v ∈ log.map Prod.fst → Same v w → (∀ e ∈ log, Same e.1 w → e.2 = r) →
      Told Same log es es' → Told Same log es ((w, r) :: es')

theorem Padded.length_le {seen vs vs' : List V} (h : Padded Same seen vs vs') :
    vs.length ≤ vs'.length := by
  induction h with
  | nil => exact Nat.le_refl _
  | sent _ ih => exact Nat.succ_le_succ ih
  | again _ _ _ ih => exact Nat.le_succ_of_le ih

theorem Told.refl (log es : List (V × R)) : Told Same log es es := by
  induction es generalizing log with
  | nil => exact .nil
  | cons e es ih => exact .sent (ih _)

theorem Told.append {log es es' fs fs' : List (V × R)} (h : Told Same log es es')
    (h' : Told Same (log ++ es) fs fs') : Told Same log (es ++ fs) (es' ++ fs') := by
  induction h with
  | nil => simpa using h'
  | sent _ ih => exact .sent (ih (by simpa using h'))
  | again hv hs hr _ ih => exact .again hv hs hr (ih h')

/-- A service remembers its answers: `Known s v r` says that at `s` the message `v` is answered `r`
for good. -/
structure Remembers (f : V → Txn ε ρ σ R) (Same : V → V → Prop) (Proper : V → Prop)
    (Known : σ → V → R → Prop) : Prop where
  answers : ∀ {s v r}, Known s v r → f v s = .done r s
  learns : ∀ {s s' v w r}, Proper v → f v s = .done r s' → Same v w → Known s' w r
  keeps : ∀ {s s' v w r q}, Known s v r → f w s = .done q s' → Known s' v r

variable {f : V → Txn ε ρ σ R} {Proper : V → Prop} {Known : σ → V → R → Prop}

theorem Remembers.keeps_each (hf : Remembers f Same Proper Known) {vs : List V} {rs : List R}
    {s s' : σ} {v : V} {r : R} (hk : Known s v r) (h : each f vs s = .done rs s') :
    Known s' v r := by
  induction vs generalizing s rs with
  | nil =>
    simp only [each, pure_done] at h
    exact h.2 ▸ hk
  | cons w vs ih =>
    simp only [each, bind_done, pure_done] at h
    obtain ⟨q, t, hq, qs, t', hqs, -, rfl⟩ := h
    exact ih (hf.keeps hk hq) hqs

theorem Remembers.learns_each (hf : Remembers f Same Proper Known) {vs : List V} {rs : List R}
    {s s' : σ} (hproper : ∀ v ∈ vs, Proper v) (h : each f vs s = .done rs s') :
    ∀ e ∈ vs.zip rs, ∀ w, Same e.1 w → Known s' w e.2 := by
  induction vs generalizing s rs with
  | nil => simp
  | cons v vs ih =>
    simp only [each, bind_done, pure_done] at h
    obtain ⟨q, t, hq, qs, t', hqs, rfl, rfl⟩ := h
    intro e he w hs
    rcases List.mem_cons.1 he with rfl | he
    · exact hf.keeps_each (hf.learns (hproper v List.mem_cons_self) hq hs) hqs
    · exact ih (fun v hv => hproper v (List.mem_cons_of_mem _ hv)) hqs e he w hs

/-- **Repeats leave a batch as it was.** -/
theorem each_padded (hf : Remembers f Same Proper Known) {log : List (V × R)} {vs vs' : List V}
    {s : σ} (hp : Padded Same (log.map Prod.fst) vs vs') (hproper : ∀ v ∈ vs, Proper v)
    (hlog : ∀ e ∈ log, ∀ w, Same e.1 w → Known s w e.2) :
    (each f vs s).Agrees (fun rs rs' => Told Same log (vs.zip rs) (vs'.zip rs')) (each f vs' s) := by
  generalize hseen : log.map Prod.fst = seen at hp
  induction hp generalizing log s with
  | nil => exact ⟨.nil, rfl⟩
  | @sent seen vs vs' v hp ih =>
    subst hseen
    -- The batch stops here when `v` is not answered; an answer is remembered from here on.
    cases hv : f v s with
    | done r t =>
      have hknown : ∀ e ∈ log ++ [(v, r)], ∀ w, Same e.1 w → Known t w e.2 := by
        intro e he w hs
        rcases List.mem_append.1 he with he | he
        · exact hf.keeps (hlog e he w hs) hv
        · obtain rfl := List.mem_singleton.1 he
          exact hf.learns (hproper v (by simp)) hv hs
      have hrest := ih (fun w hw => hproper w (List.mem_cons_of_mem _ hw)) hknown (by simp)
      simp only [each, Bind.bind, hv]
      exact Outcome.Agrees.bind hrest fun rs rs' t _ h => ⟨.sent h, rfl⟩
    | refused r t =>
      simp only [each, Bind.bind, hv]
      exact ⟨rfl, rfl⟩
    | failed e =>
      simp only [each, Bind.bind, hv]
      exact rfl
  | @again seen vs vs' v w hmem hs hp ih =>
    subst hseen
    obtain ⟨e, he, rfl⟩ := List.mem_map.1 hmem
    have hw : f w s = .done e.2 s := hf.answers (hlog e he w hs)
    have hall : ∀ e' ∈ log, Same e'.1 w → e'.2 = e.2 := by
      intro e' he' hs'
      have := (hf.answers (hlog e' he' w hs')).symm.trans hw
      simpa using this
    have hrest := ih hproper hlog rfl
    have hcons : each f (w :: vs') s = (each f vs' >>= fun rs => pure (e.2 :: rs)) s := by
      simp only [each, Bind.bind, hw]
    have hpure : each f vs s = (each f vs >>= pure) s := by
      simp only [Bind.bind]
      cases each f vs s <;> rfl
    rw [hcons, hpure]
    exact Outcome.Agrees.bind hrest fun rs rs' t _ h => ⟨.again hmem hs hall h, rfl⟩

end Repeats
