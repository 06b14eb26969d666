import Mathlib

/-!
# Buffers of bytes

Numbers in little-endian bytes, and buffers that are read and written at offsets: what is written is
read back, what stands beside it is left alone, and a buffer is the fields it is cut into.
-/

namespace Bytes

/-! ## Numbers -/

/-- The low `n` bytes of a number, the lowest first. -/
def toLe : ℕ → ℕ → List UInt8
  | 0, _ => []
  | n + 1, v => UInt8.ofNat v :: toLe n (v / 256)

/-- The number that bytes spell, the lowest first. -/
def ofLe : List UInt8 → ℕ
  | [] => 0
  | b :: bs => b.toNat + 256 * ofLe bs

@[simp] theorem length_toLe (n v : ℕ) : (toLe n v).length = n := by
  induction n generalizing v with
  | zero => rfl
  | succ n ih => simp [toLe, ih]

theorem ofLe_toLe (n v : ℕ) : ofLe (toLe n v) = v % 256 ^ n := by
  induction n generalizing v with
  | zero => simp [toLe, ofLe, Nat.mod_one]
  | succ n ih =>
    have hbyte : (UInt8.ofNat v).toNat = v % 256 := by simp
    rw [toLe, ofLe, ih, hbyte, Nat.pow_succ, Nat.mul_comm (256 ^ n) 256, Nat.mod_mul]

theorem ofLe_toLe_of_lt {n v : ℕ} (h : v < 256 ^ n) : ofLe (toLe n v) = v := by
  rw [ofLe_toLe, Nat.mod_eq_of_lt h]

theorem ofLe_lt (bs : List UInt8) : ofLe bs < 256 ^ bs.length := by
  induction bs with
  | nil => simp [ofLe]
  | cons b bs ih =>
    have hb : b.toNat < 256 := b.toNat_lt
    rw [ofLe, List.length_cons, Nat.pow_succ]
    omega

theorem toLe_ofLe (bs : List UInt8) : toLe bs.length (ofLe bs) = bs := by
  induction bs with
  | nil => rfl
  | cons b bs ih =>
    have hb : b.toNat < 256 := b.toNat_lt
    have hlow : UInt8.ofNat (b.toNat + 256 * ofLe bs) = b := by
      rw [← UInt8.toNat_inj]
      simp
    have hrest : (b.toNat + 256 * ofLe bs) / 256 = ofLe bs := by omega
    rw [List.length_cons, ofLe, toLe, hlow, hrest, ih]

theorem eq_toLe {bs : List UInt8} {n v : ℕ} (hlength : bs.length = n) (h : ofLe bs = v) :
    bs = toLe n v := by
  rw [← hlength, ← h, toLe_ofLe]

/-! ## Buffers -/

def readAt (buffer : List UInt8) (offset n : ℕ) : List UInt8 := (buffer.drop offset).take n

/-- A buffer with bytes put at an offset. -/
def writeAt : List UInt8 → ℕ → List UInt8 → List UInt8
  | buffer, _, [] => buffer
  | buffer, offset, b :: bs => writeAt (buffer.set offset b) (offset + 1) bs

section Buffers

variable {buffer bs : List UInt8} {offset o n : ℕ}

@[simp] theorem length_writeAt (buffer : List UInt8) (offset : ℕ) (bs : List UInt8) :
    (writeAt buffer offset bs).length = buffer.length := by
  induction bs generalizing buffer offset with
  | nil => rfl
  | cons b bs ih => rw [writeAt, ih, List.length_set]

theorem getElem?_writeAt (buffer : List UInt8) (offset : ℕ) (bs : List UInt8) (i : ℕ) :
    (writeAt buffer offset bs)[i]? =
      if offset ≤ i ∧ i < offset + bs.length ∧ i < buffer.length then bs[i - offset]?
      else buffer[i]? := by
  induction bs generalizing buffer offset with
  | nil =>
    rw [writeAt, if_neg]
    simp only [List.length_nil]
    omega
  | cons b bs ih =>
    rw [writeAt, ih, List.length_set, List.length_cons, List.getElem?_set]
    by_cases hhere : i = offset
    · rw [hhere]
      by_cases hlt : offset < buffer.length
      · have h1 : ¬(offset + 1 ≤ offset ∧ offset < offset + 1 + bs.length ∧
            offset < buffer.length) := by omega
        have h2 : offset ≤ offset ∧ offset < offset + (bs.length + 1) ∧
            offset < buffer.length := by omega
        rw [if_neg h1, if_pos h2, if_pos rfl, if_pos hlt, Nat.sub_self]
        rfl
      · have h1 : ¬(offset + 1 ≤ offset ∧ offset < offset + 1 + bs.length ∧
            offset < buffer.length) := by omega
        have h2 : ¬(offset ≤ offset ∧ offset < offset + (bs.length + 1) ∧
            offset < buffer.length) := by omega
        rw [if_neg h1, if_neg h2, if_pos rfl, if_neg hlt]
        exact (List.getElem?_eq_none (by omega)).symm
    · by_cases hin : offset ≤ i ∧ i < offset + (bs.length + 1) ∧ i < buffer.length
      · have h1 : offset + 1 ≤ i ∧ i < offset + 1 + bs.length ∧ i < buffer.length := by omega
        have hsub : i - offset = (i - (offset + 1)) + 1 := by omega
        rw [if_pos h1, if_pos hin, hsub, List.getElem?_cons_succ]
      · have h1 : ¬(offset + 1 ≤ i ∧ i < offset + 1 + bs.length ∧ i < buffer.length) := by omega
        rw [if_neg h1, if_neg hin, if_neg (Ne.symm hhere)]

theorem getElem?_readAt (buffer : List UInt8) (offset n i : ℕ) :
    (readAt buffer offset n)[i]? = if i < n then buffer[offset + i]? else none := by
  rw [readAt, List.getElem?_take, List.getElem?_drop]

theorem length_readAt (h : offset + n ≤ buffer.length) : (readAt buffer offset n).length = n := by
  rw [readAt, List.length_take, List.length_drop]
  omega

/-- **What was written is read.** -/
theorem readAt_writeAt_same (hn : bs.length = n) (h : offset + n ≤ buffer.length) :
    readAt (writeAt buffer offset bs) offset n = bs := by
  refine List.ext_getElem? fun i => ?_
  rw [getElem?_readAt, getElem?_writeAt]
  by_cases hi : i < n
  · have hin : offset ≤ offset + i ∧ offset + i < offset + bs.length ∧
        offset + i < buffer.length := by omega
    rw [if_pos hi, if_pos hin, Nat.add_sub_cancel_left]
  · rw [if_neg hi]
    exact (List.getElem?_eq_none (by omega)).symm

/-- **What stands beside it is left alone.** -/
theorem readAt_writeAt_beside (h : o + n ≤ offset ∨ offset + bs.length ≤ o) :
    readAt (writeAt buffer offset bs) o n = readAt buffer o n := by
  refine List.ext_getElem? fun i => ?_
  rw [getElem?_readAt, getElem?_readAt, getElem?_writeAt]
  split
  · rw [if_neg]
    omega
  · rfl

theorem readAt_add (buffer : List UInt8) (offset m n : ℕ) :
    readAt buffer offset (m + n) = readAt buffer offset m ++ readAt buffer (offset + m) n := by
  rw [readAt, readAt, readAt, List.take_add, List.drop_drop]

end Buffers

end Bytes
