import Markiro.Domain.Gs1

/-!
# What the GS1 check digit guarantees

The weights 3 and 1 take turns from the right, so the check digit completes a sum that is divisible
by ten. Both weights are prime to ten: a changed digit always shows, two exchanged neighbours do
unless they differ by five, and zeros in front weigh nothing.
-/

namespace Markiro

open Utf16

/-! ## Weights that take turns -/

/-- The sum of a list under two weights that take turns, `w` on the first. -/
def alternating (w v : ℕ) : List ℕ → ℕ
  | [] => 0
  | a :: l => w * a + alternating v w l

section Alternating

variable {w v n : ℕ} {l : List ℕ}

theorem alternating_append (w v : ℕ) (l m : List ℕ) : alternating w v (l ++ m) =
    alternating w v l + if l.length % 2 = 0 then alternating w v m else alternating v w m := by
  induction l generalizing w v with
  | nil => simp [alternating]
  | cons a l ih =>
    rw [List.cons_append, alternating, alternating, ih, List.length_cons]
    split <;> split
    · omega
    · omega
    · omega
    · omega

theorem alternating_zeros (w v k : ℕ) : alternating w v (List.replicate k 0) = 0 := by
  induction k generalizing w v with
  | zero => rfl
  | succ k ih => rw [List.replicate_succ, alternating, ih, Nat.mul_zero]

theorem alternating_change (hw : n.Coprime w) (hv : n.Coprime v) (l m : List ℕ) (a b : ℕ) :
    alternating w v (l ++ a :: m) ≡ alternating w v (l ++ b :: m) [MOD n] ↔ a ≡ b [MOD n] := by
  rw [alternating_append, alternating_append]
  refine ⟨fun h => ?_, fun h => ?_⟩
  · have hrest := Nat.ModEq.add_left_cancel' _ h
    split at hrest
    · exact Nat.ModEq.cancel_left_of_coprime hw (Nat.ModEq.add_right_cancel' _ hrest)
    · exact Nat.ModEq.cancel_left_of_coprime hv (Nat.ModEq.add_right_cancel' _ hrest)
  · apply Nat.ModEq.add_left
    split
    · exact (h.mul_left w).add_right _
    · exact (h.mul_left v).add_right _

/-- The sums before and after two neighbours are exchanged. -/
theorem alternating_exchange (l m : List ℕ) (a b : ℕ) :
    alternating w v (l ++ a :: b :: m) ≡ alternating w v (l ++ b :: a :: m) [MOD n] ↔
      w * a + v * b ≡ w * b + v * a [MOD n] := by
  have hcore : ∀ w v, alternating w v (a :: b :: m) ≡ alternating w v (b :: a :: m) [MOD n] ↔
      w * a + v * b ≡ w * b + v * a [MOD n] := by
    intro w v
    rw [alternating, alternating, alternating, alternating, ← Nat.add_assoc, ← Nat.add_assoc]
    exact ⟨Nat.ModEq.add_right_cancel' _, fun h => h.add_right _⟩
  rw [alternating_append, alternating_append]
  constructor
  · intro h
    have hrest := Nat.ModEq.add_left_cancel' _ h
    split at hrest
    · exact (hcore w v).1 hrest
    · have hflip := ((hcore v w).1 hrest).symm
      rwa [Nat.add_comm (v * b), Nat.add_comm (v * a)] at hflip
  · intro h
    apply Nat.ModEq.add_left
    split
    · exact (hcore w v).2 h
    · rw [hcore, Nat.add_comm (v * a), Nat.add_comm (v * b)]
      exact h.symm

end Alternating

/-! ## Digits and their sum -/

/-- A text of digits. -/
def Digits (s : Units) : Prop := ∀ u ∈ s, isDigit u = true

instance (s : Units) : Decidable (Digits s) := inferInstanceAs (Decidable (∀ u ∈ s, _))

theorem digitOf_lt {u : UInt16} (h : isDigit u = true) : digitOf u < 10 := by
  rw [isDigit, Bool.and_eq_true, decide_eq_true_iff, decide_eq_true_iff, UInt16.le_iff_toNat_le,
    UInt16.le_iff_toNat_le] at h
  have h1 : (48 : UInt16).toNat = 48 := rfl
  have h2 : (57 : UInt16).toNat = 57 := rfl
  unfold digitOf
  omega

theorem digitOf_inj {u v : UInt16} (hu : isDigit u = true) (hv : isDigit v = true)
    (h : digitOf u = digitOf v) : u = v := by
  rw [isDigit, Bool.and_eq_true, decide_eq_true_iff, decide_eq_true_iff, UInt16.le_iff_toNat_le,
    UInt16.le_iff_toNat_le] at hu hv
  have h1 : (48 : UInt16).toNat = 48 := rfl
  apply UInt16.toNat_inj.1
  unfold digitOf at h
  omega

/-- The weighted sum of a complete code: weight 1 on its last digit, 3 and 1 by turns before it. -/
def weightedSum (code : Units) : ℕ := alternating 1 3 (code.reverse.map digitOf)

theorem zipIdx_sum (l : Units) (n : ℕ) :
    ((l.zipIdx n).map fun (u, i) => if i % 2 = 0 then digitOf u * 3 else digitOf u).sum =
      if n % 2 = 0 then alternating 3 1 (l.map digitOf) else alternating 1 3 (l.map digitOf) := by
  induction l generalizing n with
  | nil => simp [alternating]
  | cons u l ih =>
    rw [List.zipIdx_cons, List.map_cons, List.sum_cons, ih, List.map_cons, alternating, alternating]
    dsimp only
    split <;> split
    · omega
    · omega
    · omega
    · omega

theorem weightedSum_concat (d : Units) (c : UInt16) :
    weightedSum (d ++ [c]) = digitOf c + alternating 3 1 (d.reverse.map digitOf) := by
  rw [weightedSum, List.reverse_concat, List.map_cons, alternating, Nat.one_mul]

theorem gs1CheckDigit_eq (d : Units) :
    gs1CheckDigit d = (10 - alternating 3 1 (d.reverse.map digitOf) % 10) % 10 := by
  unfold gs1CheckDigit
  rw [zipIdx_sum]
  rfl

theorem weightedSum_divisible_iff (d : Units) {c : UInt16} (hc : isDigit c = true) :
    weightedSum (d ++ [c]) % 10 = 0 ↔ digitOf c = gs1CheckDigit d := by
  have hlt := digitOf_lt hc
  rw [weightedSum_concat, gs1CheckDigit_eq]
  omega

theorem hasValidCheckDigit_iff {code : Units} (h : Digits code) (hlen : 2 ≤ code.length) :
    hasValidCheckDigit code = true ↔ weightedSum code % 10 = 0 := by
  obtain ⟨d, c, rfl⟩ : ∃ d c, code = d ++ [c] := by
    refine ⟨code.dropLast, code.getLast (List.ne_nil_of_length_pos (by omega)), ?_⟩
    exact (List.dropLast_append_getLast _).symm
  have hall : (d ++ [c]).all isDigit = true := List.all_eq_true.2 h
  rw [weightedSum_divisible_iff d (h c (by simp))]
  unfold hasValidCheckDigit
  rw [decide_eq_true hlen, hall, List.getLast?_concat, List.dropLast_concat, Bool.true_and,
    Bool.true_and, Option.any_some, beq_iff_eq]
  exact eq_comm

theorem weightedSum_change (pre post : Units) {u v : UInt16} (hu : isDigit u = true)
    (hv : isDigit v = true) :
    weightedSum (pre ++ u :: post) ≡ weightedSum (pre ++ v :: post) [MOD 10] ↔ u = v := by
  have hsplit : ∀ x : UInt16, (pre ++ x :: post).reverse.map digitOf =
      post.reverse.map digitOf ++ digitOf x :: pre.reverse.map digitOf := by simp
  rw [weightedSum, weightedSum, hsplit, hsplit, alternating_change (by decide) (by decide)]
  refine ⟨fun h => digitOf_inj hu hv ?_, fun h => by rw [h]⟩
  exact Nat.ModEq.eq_of_lt_of_lt h (digitOf_lt hu) (digitOf_lt hv)

theorem weightedSum_exchange (pre post : Units) {u v : UInt16} (hu : isDigit u = true)
    (hv : isDigit v = true) :
    weightedSum (pre ++ u :: v :: post) ≡ weightedSum (pre ++ v :: u :: post) [MOD 10] ↔
      digitOf u % 5 = digitOf v % 5 := by
  have hsplit : ∀ x y : UInt16, (pre ++ x :: y :: post).reverse.map digitOf =
      post.reverse.map digitOf ++ digitOf y :: digitOf x :: pre.reverse.map digitOf := by simp
  have hu := digitOf_lt hu
  have hv := digitOf_lt hv
  rw [weightedSum, weightedSum, hsplit, hsplit, alternating_exchange]
  unfold Nat.ModEq
  omega

theorem digitOf_zeros (k : ℕ) :
    (List.replicate k (48 : UInt16)).reverse.map digitOf = List.replicate k 0 := by
  rw [List.reverse_replicate, List.map_replicate]
  rfl

theorem alternating_leading (w v k : ℕ) (d : Units) :
    alternating w v ((List.replicate k (48 : UInt16) ++ d).reverse.map digitOf) =
      alternating w v (d.reverse.map digitOf) := by
  rw [List.reverse_append, List.map_append, digitOf_zeros, alternating_append, alternating_zeros,
    alternating_zeros]
  split <;> rfl

theorem gs1CheckDigit_leading (k : ℕ) (d : Units) :
    gs1CheckDigit (List.replicate k 48 ++ d) = gs1CheckDigit d := by
  rw [gs1CheckDigit_eq, gs1CheckDigit_eq, alternating_leading]

theorem digits_leading {d : Units} (k : ℕ) (h : Digits d) :
    Digits (List.replicate k 48 ++ d) := by
  intro u hu
  rcases List.mem_append.1 hu with hu | hu
  · rw [List.eq_of_mem_replicate hu]
    rfl
  · exact h u hu

theorem hasValidCheckDigit_leading {d : Units} (k : ℕ) (h : Digits d) (hlen : 2 ≤ d.length) :
    hasValidCheckDigit (List.replicate k 48 ++ d) = hasValidCheckDigit d := by
  have hlen' : 2 ≤ (List.replicate k (48 : UInt16) ++ d).length := by
    rw [List.length_append]
    omega
  rw [Bool.eq_iff_iff, hasValidCheckDigit_iff (digits_leading k h) hlen',
    hasValidCheckDigit_iff h hlen, weightedSum, alternating_leading]
  rfl

/-! ## GTINs -/

def isValidGtin (input : Units) : Bool := (normalizeToGtin14 input).isOk

def IsGtinText (s : Units) : Prop := Digits s ∧ s.length ∈ [8, 12, 13, 14]

/-- One of the texts is the other with zeros in front. -/
def SameButZeros (s t : Units) : Prop :=
  ∃ k, s = List.replicate k 48 ++ t ∨ t = List.replicate k 48 ++ s

theorem leftpad_eq (s : Units) : s.leftpad 14 48 = List.replicate (14 - s.length) 48 ++ s := rfl

theorem gtin_lengths {s : Units} (h : IsGtinText s) : 8 ≤ s.length ∧ s.length ≤ 14 := by
  have hlen := h.2
  simp only [List.mem_cons, List.not_mem_nil, or_false] at hlen
  omega

theorem normalizeToGtin14_eq {s : Units} (h : IsGtinText s) {out : Units} :
    normalizeToGtin14 s = .ok out ↔
      hasValidCheckDigit s = true ∧ out = List.replicate (14 - s.length) 48 ++ s := by
  have hshape : ¬(s.all isDigit = false ∨ s.length ∉ [8, 12, 13, 14]) := by
    rw [not_or, not_not, Bool.not_eq_false, List.all_eq_true]
    exact h
  unfold normalizeToGtin14
  rw [if_neg hshape, leftpad_eq]
  cases hasValidCheckDigit s with
  | true =>
    rw [if_neg nofun]
    exact ⟨fun heq => ⟨rfl, (Except.ok.inj heq).symm⟩, fun heq => by rw [heq.2]⟩
  | false =>
    rw [if_pos rfl]
    exact ⟨nofun, nofun⟩

theorem isValidGtin_iff {s : Units} (h : IsGtinText s) :
    isValidGtin s = true ↔ hasValidCheckDigit s = true := by
  unfold isValidGtin
  constructor
  · intro hok
    cases heq : normalizeToGtin14 s with
    | ok out => exact ((normalizeToGtin14_eq h).1 heq).1
    | error e =>
      rw [heq] at hok
      exact nomatch hok
  · intro hvalid
    rw [(normalizeToGtin14_eq h).2 ⟨hvalid, rfl⟩]
    rfl

theorem text_of_valid {s : Units} (h : isValidGtin s = true) : IsGtinText s := by
  by_contra hno
  have hshape : s.all isDigit = false ∨ s.length ∉ [8, 12, 13, 14] := by
    rw [← Bool.not_eq_true, ← not_and_or]
    exact fun hboth => hno ⟨List.all_eq_true.1 hboth.1, hboth.2⟩
  unfold isValidGtin normalizeToGtin14 at h
  rw [if_pos hshape] at h
  exact nomatch h

theorem padded_text {s : Units} (h : IsGtinText s) :
    IsGtinText (List.replicate (14 - s.length) 48 ++ s) ∧
      (List.replicate (14 - s.length) 48 ++ s).length = 14 := by
  have hlen : (List.replicate (14 - s.length) (48 : UInt16) ++ s).length = 14 := by
    have := gtin_lengths h
    rw [List.length_append, List.length_replicate]
    omega
  exact ⟨⟨digits_leading _ h.1, by rw [hlen]; decide⟩, hlen⟩

theorem padded_eq_iff {s t : Units} (hs : IsGtinText s) (ht : IsGtinText t) :
    List.replicate (14 - s.length) 48 ++ s = List.replicate (14 - t.length) 48 ++ t ↔
      SameButZeros s t := by
  have hls := gtin_lengths hs
  have hlt := gtin_lengths ht
  have hdrop : ∀ {a b : Units} {m n : ℕ}, m ≤ n →
      List.replicate m (48 : UInt16) ++ a = List.replicate n 48 ++ b →
      a = List.replicate (n - m) 48 ++ b := by
    intro a b m n hmn heq
    obtain ⟨k, rfl⟩ := Nat.exists_eq_add_of_le hmn
    rw [List.replicate_add, List.append_assoc] at heq
    rw [Nat.add_sub_cancel_left]
    exact List.append_cancel_left heq
  constructor
  · intro heq
    rcases le_total (14 - s.length) (14 - t.length) with hle | hle
    · exact ⟨_, .inl (hdrop hle heq)⟩
    · exact ⟨_, .inr (hdrop hle heq.symm)⟩
  · rintro ⟨k, rfl | rfl⟩
    · rw [List.length_append, List.length_replicate] at hls ⊢
      rw [← List.append_assoc, ← List.replicate_add]
      congr 2
      omega
    · rw [List.length_append, List.length_replicate] at hlt ⊢
      rw [← List.append_assoc, ← List.replicate_add]
      congr 2
      omega

theorem replaced_digits {pre post : Units} {u v : UInt16} (h : Digits (pre ++ u :: post))
    (hv : isDigit v = true) : Digits (pre ++ v :: post) := by
  intro x hx
  rcases List.mem_append.1 hx with hx | hx
  · exact h x (List.mem_append_left _ hx)
  · rcases List.mem_cons.1 hx with rfl | hx
    · exact hv
    · exact h x (List.mem_append_right _ (List.mem_cons_of_mem u hx))

structure Checked (d : Units) (c : UInt16) : Prop where
  digits : Digits d
  nonempty : d ≠ []
  digit : isDigit c = true
  check : digitOf c = gs1CheckDigit d

end Markiro
