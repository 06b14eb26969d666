import Markiro.Lib.Table
import Markiro.CloudSscc.Blocks

/-!
# The serials of a station

`sscc-pool.ts`: the ranges a station holds in `sscc_pool`, whose primary key is the prefix, the digit
and the first serial. A bundle deletes the ranges the cloud revoked and adds the one it hands out;
`burnSerial` takes the lowest serial that is left in one statement.
-/

namespace Markiro.CloudSscc

open Table

structure PoolRow where
  issuerPrefix : IssuerPrefix
  extensionDigit : ℕ
  fromSerial : ℕ
  toSerial : ℕ
  nextSerial : ℕ
  deriving DecidableEq

/-- The columns of the primary key. -/
def PoolRow.key (r : PoolRow) : IssuerPrefix × ℕ × ℕ :=
  (r.issuerPrefix, r.extensionDigit, r.fromSerial)

/-- The table `sscc_pool`. -/
structure Pool where
  rows : List PoolRow
  primaryKey : Unique PoolRow.key rows

def Pool.empty : Pool := ⟨[], List.nodup_nil⟩

def SsccBlock.poolKey (b : SsccBlock) : IssuerPrefix × ℕ × ℕ :=
  (b.issuerPrefix, b.extensionDigit, b.fromSerial)

/-- Where a range begins that the server hands out: past what it knows consumed, and never at the
serial 0 of a box. -/
def SsccBlock.cursor (b : SsccBlock) : ℕ :=
  let consumedCursor := match b.consumedThroughSerial with
    | some c => c + 1
    | none => b.fromSerial
  let boxMinimum := if b.extensionDigit = 0 then 1 else b.fromSerial
  max consumedCursor boxMinimum

/-- The row a range is inserted as. -/
def SsccBlock.row (b : SsccBlock) : PoolRow :=
  ⟨b.issuerPrefix, b.extensionDigit, b.fromSerial, b.toSerial, b.cursor⟩

/-- The update of a row that is there: its cursor never goes back. -/
def PoolRow.raise (next : ℕ) (r : PoolRow) : PoolRow :=
    { r with nextSerial := max r.nextSerial next }

def addRange (pool : Pool) (b : SsccBlock) : Pool :=
  if h : ∃ r ∈ pool.rows, r.key = b.poolKey then
    ⟨update (fun r => decide (r.key = b.poolKey)) (PoolRow.raise b.cursor) pool.rows,
      pool.primaryKey.update fun _ _ => rfl⟩
  else
    ⟨pool.rows ++ [b.row], pool.primaryKey.append fun r hr hk => h ⟨r, hr, hk⟩⟩

def dropRanges (pool : Pool) (issuerPrefix : IssuerPrefix) (extensionDigit : ℕ)
    (fromSerials : List ℕ) : Pool :=
  ⟨delete (fun r => decide (r.issuerPrefix = issuerPrefix ∧ r.extensionDigit = extensionDigit ∧
      r.fromSerial ∈ fromSerials)) pool.rows, pool.primaryKey.delete⟩

def PoolRow.hasRoom (issuerPrefix : IssuerPrefix) (extensionDigit : ℕ) (r : PoolRow) : Bool :=
  decide (r.issuerPrefix = issuerPrefix ∧ r.extensionDigit = extensionDigit ∧
    r.nextSerial ≤ r.toSerial)

def earliestRange (pool : Pool) (issuerPrefix : IssuerPrefix) (extensionDigit : ℕ) :
    Option PoolRow :=
  (pool.rows.filter (·.hasRoom issuerPrefix extensionDigit)).argmin (·.fromSerial)

def PoolRow.burn (r : PoolRow) : PoolRow := { r with nextSerial := r.nextSerial + 1 }

def burnSerial (pool : Pool) (issuerPrefix : IssuerPrefix) (extensionDigit : ℕ) :
    Pool × Option ℕ :=
  match earliestRange pool issuerPrefix extensionDigit with
  | none => (pool, none)
  | some r => (⟨update (fun x => decide (x.key = r.key)) PoolRow.burn pool.rows,
      pool.primaryKey.update fun _ _ => rfl⟩, some r.nextSerial)

/-- The serials left over all ranges. -/
def remaining (pool : Pool) (issuerPrefix : IssuerPrefix) (extensionDigit : ℕ) : ℕ :=
  ((pool.rows.filter (·.hasRoom issuerPrefix extensionDigit)).map
    fun r => r.toSerial - r.nextSerial + 1).sum

/-! ## Burning -/

section Burn

variable {pool : Pool} {issuer : IssuerPrefix} {digit : ℕ} {r : PoolRow}

theorem PoolRow.hasRoom_iff : r.hasRoom issuer digit = true ↔
    r.issuerPrefix = issuer ∧ r.extensionDigit = digit ∧ r.nextSerial ≤ r.toSerial :=
  decide_eq_true_iff

theorem earliestRange_some (h : earliestRange pool issuer digit = some r) :
    r ∈ pool.rows ∧ r.hasRoom issuer digit = true := by
  have := List.argmin_mem h
  exact ⟨(List.mem_filter.1 this).1, (List.mem_filter.1 this).2⟩

theorem earliestRange_none (h : earliestRange pool issuer digit = none) :
    pool.rows.filter (·.hasRoom issuer digit) = [] :=
  List.argmin_eq_none.1 h

theorem burnSerial_cases (pool : Pool) (issuer : IssuerPrefix) (digit : ℕ) :
    (pool.rows.filter (·.hasRoom issuer digit) = [] ∧
      burnSerial pool issuer digit = (pool, none)) ∨
    ∃ r ∈ pool.rows, r.hasRoom issuer digit = true ∧
      (burnSerial pool issuer digit).2 = some r.nextSerial ∧
      (burnSerial pool issuer digit).1.rows =
        update (fun x => decide (x.key = r.key)) PoolRow.burn pool.rows := by
  cases h : earliestRange pool issuer digit with
  | none =>
    refine .inl ⟨earliestRange_none h, ?_⟩
    simp [burnSerial, h]
  | some r =>
    obtain ⟨hr, hroom⟩ := earliestRange_some h
    refine .inr ⟨r, hr, hroom, ?_, ?_⟩
    · simp [burnSerial, h]
    · simp [burnSerial, h]

def PoolRow.left (issuer : IssuerPrefix) (digit : ℕ) (r : PoolRow) : ℕ :=
  if r.hasRoom issuer digit then r.toSerial - r.nextSerial + 1 else 0

theorem remaining_eq (pool : Pool) (issuer : IssuerPrefix) (digit : ℕ) :
    remaining pool issuer digit = (pool.rows.map (·.left issuer digit)).sum := by
  unfold remaining
  induction pool.rows with
  | nil => rfl
  | cons r rows ih =>
    rw [List.filter_cons, List.map_cons, List.sum_cons, ← ih, PoolRow.left]
    split
    · rw [List.map_cons, List.sum_cons]
    · rw [Nat.zero_add]

theorem PoolRow.left_burn (h : r.hasRoom issuer digit = true) :
    r.burn.left issuer digit + 1 = r.left issuer digit := by
  obtain ⟨hi, hd, hle⟩ := PoolRow.hasRoom_iff.1 h
  unfold PoolRow.left
  rw [if_pos h]
  by_cases hroom : r.burn.hasRoom issuer digit = true
  · rw [if_pos hroom]
    have hle' : r.nextSerial + 1 ≤ r.toSerial := (PoolRow.hasRoom_iff.1 hroom).2.2
    show r.toSerial - (r.nextSerial + 1) + 1 + 1 = _
    omega
  · rw [if_neg hroom]
    have hlt : ¬r.nextSerial + 1 ≤ r.toSerial := fun hle' =>
      hroom (PoolRow.hasRoom_iff.2 ⟨hi, hd, hle'⟩)
    omega

theorem remaining_burnSerial (pool : Pool) (issuer : IssuerPrefix) (digit : ℕ) :
    (burnSerial pool issuer digit).2 = none ∧ remaining pool issuer digit = 0 ∧
      remaining (burnSerial pool issuer digit).1 issuer digit = 0 ∨
    (burnSerial pool issuer digit).2.isSome = true ∧
      remaining (burnSerial pool issuer digit).1 issuer digit + 1 =
        remaining pool issuer digit := by
  rcases burnSerial_cases pool issuer digit with ⟨hnil, hburn⟩ | ⟨r, hr, hroom, hserial, hrows⟩
  · have hzero : remaining pool issuer digit = 0 := by
      rw [remaining, hnil]
      rfl
    rw [hburn]
    exact .inl ⟨rfl, hzero, hzero⟩
  · refine .inr ⟨by rw [hserial]; rfl, ?_⟩
    have hafter := ((pool.primaryKey.perm_update (f := PoolRow.burn) hr).map
      (·.left issuer digit)).sum_eq
    have hbefore := ((pool.primaryKey.perm_delete hr).map (·.left issuer digit)).sum_eq
    rw [List.map_cons, List.sum_cons] at hafter hbefore
    rw [remaining_eq, remaining_eq, hrows, hafter, hbefore, ← PoolRow.left_burn hroom]
    omega

def afterBurns (pool : Pool) (issuer : IssuerPrefix) (digit : ℕ) : ℕ → Pool
  | 0 => pool
  | n + 1 => (burnSerial (afterBurns pool issuer digit n) issuer digit).1

theorem remaining_afterBurns (pool : Pool) (issuer : IssuerPrefix) (digit n : ℕ) :
    remaining (afterBurns pool issuer digit n) issuer digit = remaining pool issuer digit - n := by
  induction n with
  | zero => rfl
  | succ n ih =>
    have := remaining_burnSerial (afterBurns pool issuer digit n) issuer digit
    rw [ih] at this
    rw [afterBurns]
    omega

theorem burn_succeeds_iff (pool : Pool) (issuer : IssuerPrefix) (digit n : ℕ) :
    (burnSerial (afterBurns pool issuer digit n) issuer digit).2.isSome = true ↔
      n < remaining pool issuer digit := by
  have hleft := remaining_afterBurns pool issuer digit n
  rcases remaining_burnSerial (afterBurns pool issuer digit n) issuer digit with
    ⟨hnone, hzero, -⟩ | ⟨hsome, hone⟩
  · rw [hnone]
    simp only [Option.isSome_none, Bool.false_eq_true, false_iff]
    omega
  · rw [hsome]
    simp only [true_iff]
    omega

end Burn

end Markiro.CloudSscc
