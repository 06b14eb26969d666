import Markiro.Lib.Ranges
import Markiro.Host.Run

/-!
# Blocks never overlap

A serial that stands in two blocks is printed on two labels. Blocks come from the counter, one serial
at a time for the office's pallets, and back from devices after a restore, on either side of the
counter. `Db.Handed` is what these writers keep of the counters and the blocks (`Ranges.Handed`);
`Forward` is what they keep of an earlier moment.
-/

namespace Markiro

open Ranges Txn

/-! ## Counters and ranges -/

/-- The prefix and the extension digit a block is counted under. -/
def BlockRow.key (x : BlockRow) : String × ℕ := (x.issuerPrefix, x.extension)

def BlockRow.range (x : BlockRow) : Range (String × ℕ) := ⟨x.key, x.fromSerial, x.toSerial⟩

/-- The row of a prefix and an extension digit. -/
def counterOf (counters : List CounterRow) (key : String × ℕ) : Option CounterRow :=
  counters.find? (CounterRow.is key.1 key.2)

/-- The next free serial, none of a prefix without a counter being taken. -/
def nextSerial (counters : List CounterRow) (key : String × ℕ) : ℕ :=
  ((counterOf counters key).map (·.nextSerial)).getD 0

def capacity (key : String × ℕ) : ℕ := serialCapacity key.1

/-- The office's sizes are within their limits, and the blocks are handed out. -/
def Db.Handed (db : Db) : Prop :=
  db.site.Sized ∧ Ranges.Handed capacity (nextSerial db.counters) (db.blocks.map BlockRow.range)

/-- A later moment of the counters and the blocks: no counter moved back, and each request of a
device has its block. -/
structure Forward (counters counters' : List CounterRow) (blocks blocks' : List BlockRow) :
    Prop where
  counter : ∀ key x, counterOf counters key = some x →
    ∃ y, counterOf counters' key = some y ∧ x.nextSerial ≤ y.nextSerial
  block : ∀ deviceId requestId x, blocks.find? (BlockRow.isOf deviceId requestId) = some x →
    ∃ y, blocks'.find? (BlockRow.isOf deviceId requestId) = some y ∧ y.toWire = x.toWire

def Db.Forward (db db' : Db) : Prop :=
  Markiro.Forward db.counters db'.counters db.blocks db'.blocks

variable {counters counters' : List CounterRow} {blocks blocks' : List BlockRow}

theorem counterOf_some {key : String × ℕ} {x : CounterRow}
    (h : counterOf counters key = some x) : (x.issuerPrefix, x.extension) = key := by
  have := List.find?_some h
  simp only [CounterRow.is, decide_eq_true_eq] at this
  rw [this.1, this.2]

theorem nextSerial_some {key : String × ℕ} {x : CounterRow}
    (h : counterOf counters key = some x) : nextSerial counters key = x.nextSerial := by
  simp [nextSerial, h]

theorem exists_counterOf {key : String × ℕ} {n : ℕ} (h : n < nextSerial counters key) :
    ∃ x, counterOf counters key = some x ∧ n < x.nextSerial := by
  cases hx : counterOf counters key with
  | none => simp [nextSerial, hx] at h
  | some x => exact ⟨x, rfl, by rwa [nextSerial_some hx] at h⟩

/-! ## Moving a counter -/

section Moves

variable {p : CounterRow → Bool} {f : CounterRow → CounterRow}

theorem counterOf_update (hkey : ∀ x, ((f x).issuerPrefix, (f x).extension) =
    (x.issuerPrefix, x.extension)) (key : String × ℕ) :
    counterOf (Table.update p f counters) key =
      (counterOf counters key).map fun x => if p x then f x else x := by
  refine Table.find?_update fun x _ => ?_
  obtain ⟨h1, h2⟩ := Prod.mk.inj (hkey x)
  simp only [CounterRow.is, h1, h2]

theorem counterOf_forward (hkey : ∀ x, ((f x).issuerPrefix, (f x).extension) =
      (x.issuerPrefix, x.extension))
    (hle : ∀ key x, counterOf counters key = some x → p x = true →
      x.nextSerial ≤ (f x).nextSerial) :
    ∀ key x, counterOf counters key = some x → ∃ y,
      counterOf (Table.update p f counters) key = some y ∧ x.nextSerial ≤ y.nextSerial := by
  intro key x hx
  refine ⟨if p x then f x else x, by rw [counterOf_update hkey, hx]; rfl, ?_⟩
  split
  · exact hle key x hx ‹_›
  · exact le_rfl

theorem nextSerial_bounded (hkey : ∀ x, ((f x).issuerPrefix, (f x).extension) =
      (x.issuerPrefix, x.extension))
    (hf : ∀ key x, counterOf counters key = some x → p x = true → (f x).nextSerial ≤ capacity key)
    (h : ∀ key, nextSerial counters key ≤ capacity key) (key : String × ℕ) :
    nextSerial (Table.update p f counters) key ≤ capacity key := by
  have hb := h key
  simp only [nextSerial, counterOf_update hkey] at hb ⊢
  cases hx : counterOf counters key with
  | none => simp
  | some x =>
    rw [hx] at hb
    show (if p x then f x else x).nextSerial ≤ capacity key
    split
    · exact hf key x hx ‹_›
    · exact hb

end Moves

theorem nextSerial_le (h : ∀ key x, counterOf counters key = some x →
    ∃ y, counterOf counters' key = some y ∧ x.nextSerial ≤ y.nextSerial) (key : String × ℕ) :
    nextSerial counters key ≤ nextSerial counters' key := by
  cases hx : counterOf counters key with
  | none => simp [nextSerial, hx]
  | some x =>
    obtain ⟨y, hy, hle⟩ := h key x hx
    rwa [nextSerial_some hx, nextSerial_some hy]

/-! ## Later moments -/

namespace Forward

theorem refl : Forward counters counters blocks blocks :=
  ⟨fun _ x h => ⟨x, h, le_rfl⟩, fun _ _ x h => ⟨x, h, rfl⟩⟩

theorem trans {counters'' : List CounterRow} {blocks'' : List BlockRow}
    (h : Forward counters counters' blocks blocks')
    (h' : Forward counters' counters'' blocks' blocks'') :
    Forward counters counters'' blocks blocks'' where
  counter := by
    intro key x hx
    obtain ⟨y, hy, hxy⟩ := h.counter key x hx
    obtain ⟨z, hz, hyz⟩ := h'.counter key y hy
    exact ⟨z, hz, le_trans hxy hyz⟩
  block := by
    intro deviceId requestId x hx
    obtain ⟨y, hy, hxy⟩ := h.block deviceId requestId x hx
    obtain ⟨z, hz, hyz⟩ := h'.block deviceId requestId y hy
    exact ⟨z, hz, hyz.trans hxy⟩

theorem issue (block : BlockRow) (h : ∀ key x, counterOf counters key = some x →
    ∃ y, counterOf counters' key = some y ∧ x.nextSerial ≤ y.nextSerial) :
    Forward counters counters' blocks (blocks ++ [block]) where
  counter := h
  block := fun _ _ x hx => ⟨x, by rw [List.find?_append, hx]; rfl, rfl⟩

end Forward

theorem consume_range (blockId : String) (serial : ℕ) (db : Db) :
    (db.consume blockId serial).blocks.map BlockRow.range = db.blocks.map BlockRow.range :=
  Table.map_update fun _ _ => rfl

theorem consume_forward (blockId : String) (serial : ℕ) (db : Db) :
    db.Forward (db.consume blockId serial) where
  counter := fun _ y hy => ⟨y, hy, le_rfl⟩
  block := by
    intro deviceId requestId x hx
    refine ⟨if decide (x.id = blockId) then x.consume serial else x, ?_, ?_⟩
    · show (Table.update _ _ db.blocks).find? _ = _
      rw [Table.find?_update (by intros; rfl), hx]
      rfl
    · split <;> rfl

/-! ## The writers -/

section Writers

variable {k : Crates} {now : String} {row : ScanRow} {db db' : Db}

theorem setCounter_forward (rev : ℕ) {issuer : String} {extension next : ℕ} {x : CounterRow}
    (hx : db.counter issuer extension = some x) (hle : x.nextSerial ≤ next) :
    ∀ key y, counterOf db.counters key = some y → ∃ z,
      counterOf (db.setCounter issuer extension next rev).counters key = some z ∧
        y.nextSerial ≤ z.nextSerial := by
  refine counterOf_forward (fun _ => rfl) ?_
  intro key y hy hp
  have hkey : (issuer, extension) = key := by
    rw [← counterOf_some hy]
    simp only [CounterRow.is, decide_eq_true_eq] at hp
    rw [hp.1, hp.2]
  subst hkey
  have hxy : some x = some y := hx.symm.trans hy
  rw [← Option.some.inj hxy]
  exact hle

theorem setCounter_bounded {issuer : String} {extension next rev : ℕ}
    (hle : next ≤ serialCapacity issuer)
    (h : ∀ key, nextSerial db.counters key ≤ capacity key) (key : String × ℕ) :
    nextSerial (db.setCounter issuer extension next rev).counters key ≤ capacity key := by
  refine nextSerial_bounded (by intro; rfl) ?_ h key
  intro key y hy hp
  have hkey := counterOf_some hy
  simp only [CounterRow.is, decide_eq_true_eq] at hp
  rw [capacity, ← hkey, hp.1]
  exact hle

theorem nextSerial_setCounter {issuer : String} {extension next rev : ℕ} {x : CounterRow}
    (hx : db.counter issuer extension = some x) :
    nextSerial (db.setCounter issuer extension next rev).counters (issuer, extension) = next := by
  have hx' : counterOf db.counters (issuer, extension) = some x := hx
  have hp : CounterRow.is issuer extension x = true := List.find?_some hx
  have hz : counterOf (db.setCounter issuer extension next rev).counters (issuer, extension) =
      some { x with nextSerial := next, rev } := by
    show counterOf (Table.update _ _ db.counters) _ = _
    rw [counterOf_update (by intro; rfl), hx']
    simp [hp]
  rw [nextSerial_some hz]

/-- A block from the counter on, whose end the counter moves past. -/
theorem handed_issue {x : CounterRow} {block : BlockRow} {rev : ℕ} (h : db.Handed)
    (hx : db.counter block.issuerPrefix block.extension = some x)
    (hfrom : block.fromSerial = x.nextSerial) (hle : block.fromSerial ≤ block.toSerial)
    (hcap : block.toSerial < serialCapacity block.issuerPrefix) :
    Ranges.Handed capacity
      (nextSerial (db.setCounter block.issuerPrefix block.extension (block.toSerial + 1)
        rev).counters) ((db.blocks ++ [block]).map BlockRow.range) := by
  have hforward := setCounter_forward rev hx
    (show x.nextSerial ≤ block.toSerial + 1 by omega)
  rw [List.map_append]
  refine (h.2.raise (nextSerial_le hforward) (setCounter_bounded (by omega) h.2.bounded)).add hle
    ?_ (h.2.past ?_)
  · show block.toSerial < nextSerial _ (block.issuerPrefix, block.extension)
    rw [nextSerial_setCounter hx]
    omega
  · show nextSerial db.counters (block.issuerPrefix, block.extension) ≤ block.fromSerial
    have hnext : nextSerial db.counters (block.issuerPrefix, block.extension) = x.nextSerial :=
      nextSerial_some hx
    rw [hnext, hfrom]

theorem raiseCounter_forward (issuer : String) (extension toSerial rev : ℕ) (db : Db) :
    ∀ key x, counterOf db.counters key = some x → ∃ y,
      counterOf (db.raiseCounter issuer extension toSerial rev).counters key = some y ∧
        x.nextSerial ≤ y.nextSerial := by
  refine counterOf_forward (fun _ => rfl) ?_
  intro key x _ hp
  simp only [Bool.and_eq_true, decide_eq_true_eq] at hp
  exact le_of_lt hp.2

/-- A block brought back, which meets no other and whose end the counter is moved past. -/
theorem handed_register {block : BlockRow} {rev : ℕ} (h : db.Handed)
    (hcounter : db.counter block.issuerPrefix block.extension ≠ none)
    (hle : block.fromSerial ≤ block.toSerial)
    (hcap : block.toSerial < serialCapacity block.issuerPrefix)
    (hover : db.overlapping block.issuerPrefix block.extension block.fromSerial
      block.toSerial = false) :
    Ranges.Handed capacity
      (nextSerial (db.raiseCounter block.issuerPrefix block.extension block.toSerial
        rev).counters) ((db.blocks ++ [block]).map BlockRow.range) := by
  have hbounded : ∀ key, nextSerial (db.raiseCounter block.issuerPrefix block.extension
      block.toSerial rev).counters key ≤ capacity key := by
    refine nextSerial_bounded (fun _ => rfl) ?_ h.2.bounded
    intro key x hx hp
    simp only [Bool.and_eq_true, CounterRow.is, decide_eq_true_eq] at hp
    have hkey := counterOf_some hx
    rw [capacity, ← hkey, hp.1.1]
    exact hcap
  have hforward := raiseCounter_forward block.issuerPrefix block.extension block.toSerial rev db
  rw [List.map_append]
  refine (h.2.raise (nextSerial_le hforward) hbounded).add hle ?_ ?_
  · obtain ⟨x, hx⟩ := Option.ne_none_iff_exists'.1 hcounter
    have hx' : counterOf db.counters block.key = some x := hx
    show block.toSerial < nextSerial (Table.update _ _ db.counters) block.key
    have hz : counterOf (Table.update (fun x => x.is block.issuerPrefix block.extension &&
        decide (x.nextSerial < block.toSerial + 1))
        (fun x => { x with nextSerial := block.toSerial + 1, rev }) db.counters) block.key = _ :=
      counterOf_update (by intros; rfl) block.key
    rw [hx', Option.map_some] at hz
    rw [nextSerial_some hz]
    have his : x.is block.issuerPrefix block.extension = true := List.find?_some hx
    by_cases hlt : x.nextSerial < block.toSerial + 1
    · simp [his, hlt]
    · simp only [his, hlt, decide_false, Bool.and_false, Bool.false_eq_true, if_false]
      omega
  · intro r hr hkey
    obtain ⟨x, hx, rfl⟩ := List.mem_map.1 hr
    rw [Db.overlapping, List.any_eq_false] at hover
    have hno := hover x hx
    obtain ⟨h1, h2⟩ := Prod.mk.inj hkey
    simp only [h1, h2, decide_eq_true_eq, true_and, not_and_or, Nat.not_le] at hno
    exact hno.symm

theorem handed_consume (blockId : String) (serial : ℕ) (hi : db.Handed) :
    (db.consume blockId serial).Handed ∧ db.Forward (db.consume blockId serial) := by
  refine ⟨⟨hi.1, ?_⟩, consume_forward _ _ _⟩
  rw [consume_range]
  exact hi.2

theorem Written.handed (h : Written k now db db') (hi : db.Handed) :
    db'.Handed ∧ db.Forward db' := by
  cases h with
  | sizes site hs => exact ⟨⟨hs, hi.2⟩, .refl⟩
  | closeBox => exact handed_consume _ _ hi
  | closePallet =>
    rw [Db.closePallet]
    split <;> exact handed_consume _ _ hi
  | closeWarehousePallet => exact handed_consume _ _ hi
  | createPallet x rev block pallet stays hx hlt hblock =>
    -- One serial of the counter is a block of its own.
    simp only [Prod.mk.injEq] at hblock
    obtain ⟨h1, h2, h3, h4, -⟩ := hblock
    have hmoved : (db.setCounter x.issuerPrefix 1 (x.nextSerial + 1) rev).counters =
        (db.setCounter block.issuerPrefix block.extension (block.toSerial + 1) rev).counters := by
      rw [h1, h2, h4]
    rw [← h1] at hlt
    rw [← h1, ← h2] at hx
    refine ⟨⟨hi.1, ?_⟩, .issue block ?_⟩
    · show Ranges.Handed capacity (nextSerial (db.setCounter _ _ _ _).counters) _
      rw [hmoved]
      exact handed_issue hi hx h3 (by omega) (by omega)
    · exact setCounter_forward _ (by rwa [← h1, ← h2]) (by omega)
  | issueBlock x rev block hx hfrom hle hcap =>
    have hle := hle hi.1
    refine ⟨⟨hi.1, handed_issue hi hx hfrom hle hcap⟩, .issue block ?_⟩
    exact setCounter_forward _ hx (by omega)
  | registerBlock rev block hcounter hle hcap hover =>
    refine ⟨⟨hi.1, handed_register hi hcounter hle hcap hover⟩, .issue block ?_⟩
    exact raiseCounter_forward _ _ _ _ _
  | setCounter x issuer extension next rev hx hle hcap =>
    have hforward := setCounter_forward rev hx hle
    refine ⟨⟨hi.1, hi.2.raise (nextSerial_le hforward) ?_⟩, hforward, ?_⟩
    · exact setCounter_bounded (le_of_lt hcap) hi.2.bounded
    · exact fun _ _ y hy => ⟨y, hy, rfl⟩
  | _ => exact ⟨hi, .refl⟩

theorem Change.handed (h : Change k now db db') (hi : db.Handed) :
    db'.Handed ∧ db.Forward db' := by
  cases h with
  | scanned h => cases h <;> exact ⟨hi, .refl⟩
  | written h => exact h.handed hi
  | filed h => cases h <;> exact ⟨hi, .refl⟩

theorem run_handed (hi : db.Handed) (calls : List Call) :
    (run k db calls).Handed ∧ db.Forward (run k db calls) := by
  refine run_invariant (P := fun s => s.Handed ∧ db.Forward s) ?_ ⟨hi, .refl⟩ calls
  intro now s s' hc ⟨hs, hf⟩
  obtain ⟨hs', hf'⟩ := hc.handed hs
  exact ⟨hs', hf.trans hf'⟩

end Writers

/-! ## A repeated request -/

section Repeats

variable {k : Crates} {env : Env} {deviceId : String} {r : SsccBlockRequest} {block : SsccBlock}
  {db db' : Db}

structure AnsweredWith (deviceId : String) (r : SsccBlockRequest) (block : SsccBlock) (db : Db) :
    Prop where
  requestId : clientUuid r.requestId = true
  extension : r.extension = 0 ∨ r.extension = 1
  asked : (block.issuerPrefix, block.extension) = (r.issuerPrefix, r.extension)
  found : ∃ x, db.requestedBlock deviceId r.requestId = some x ∧ x.toWire = block

theorem issueNewBlock_found {b b' : Batch} (hno : b.db.requestedBlock deviceId r.requestId = none)
    (h : issueNewBlock k env deviceId r b = .done block b') :
    (block.issuerPrefix, block.extension) = (r.issuerPrefix, r.extension) ∧
      ∃ x, b'.db.requestedBlock deviceId r.requestId = some x ∧ x.toWire = block := by
  simp only [issueNewBlock, insertBlock, bind_done, select_done, orFail_done, assert_done,
    nextRevision_done, execute_done, newUuid_done, insert_done, record_done, pure_done] at h
  obtain ⟨_, t, hready, _, _, ⟨rfl, rfl⟩, x, _, ⟨hx, rfl⟩, _, _, ⟨rfl, rfl⟩, _, _, ⟨hlt, rfl⟩, _,
    _, ⟨rfl, rfl⟩, _, _, rfl, _, _, ⟨rfl, rfl⟩, _, _, ⟨hfree, rfl⟩, _, _, rfl, rfl, rfl⟩ := h
  obtain rfl := requireReady_done hready
  refine ⟨rfl, _, ?_, rfl⟩
  show (t.db.blocks ++ [_]).find? (BlockRow.isOf deviceId r.requestId) = some _
  have hno : t.db.blocks.find? (BlockRow.isOf deviceId r.requestId) = none := hno
  rw [List.find?_append, hno]
  simp [BlockRow.isOf]

theorem serve_issueBlock {b : Batch}
    (h : issueBlock k env deviceId r (Batch.begin db) = .done block b) :
    serve k ⟨env, .issueBlock deviceId r⟩ db = (.ok (.block block), b.db) := by
  have hh : handle k env (.issueBlock deviceId r) (Batch.begin db) = .done (.block block) b := by
    simp only [handle, bind_done, pure_done]
    exact ⟨block, b, h, rfl, rfl⟩
  rw [serve, hh]

/-- What a device was answered is found under its request. -/
theorem serve_answered (h : serve k ⟨env, .issueBlock deviceId r⟩ db = (.ok (.block block), db')) :
    AnsweredWith deviceId r block db' := by
  unfold serve at h
  cases hh : handle k env (.issueBlock deviceId r) (Batch.begin db) with
  | done answer b' =>
    simp only [hh, Prod.mk.injEq, Except.ok.injEq] at h
    obtain ⟨rfl, rfl⟩ := h
    simp only [handle, issueBlock, bind_done, assert_done, select_done, pure_done,
      Answer.block.injEq] at hh
    obtain ⟨_, _, ⟨_, _, ⟨hid, rfl⟩, _, _, ⟨hext, rfl⟩, _, t, hkinds, o, _, ⟨ho, rfl⟩, h⟩, rfl, rfl⟩ :=
      hh
    obtain rfl := requireKinds_done hkinds
    cases o with
    | some x =>
      simp only [bind_done, assert_done, pure_done] at h
      obtain ⟨_, _, ⟨hsame, rfl⟩, rfl, rfl⟩ := h
      exact ⟨hid, hext, Prod.ext hsame.1 hsame.2, x, ho, rfl⟩
    | none =>
      obtain ⟨hasked, hfound⟩ := issueNewBlock_found ho h
      exact ⟨hid, hext, hasked, hfound⟩
  | refused => simp [hh] at h
  | failed => simp [hh] at h

theorem AnsweredWith.forward (h : AnsweredWith deviceId r block db) (hf : db.Forward db') :
    AnsweredWith deviceId r block db' := by
  obtain ⟨x, hx, hwire⟩ := h.found
  obtain ⟨y, hy, hxy⟩ := hf.block deviceId r.requestId x hx
  exact { h with found := ⟨y, hy, hxy.trans hwire⟩ }

theorem AnsweredWith.handle_again (h : AnsweredWith deviceId r block db) {answer : Answer}
    {b : Batch} :
    handle k env (.issueBlock deviceId r) (Batch.begin db) = .done answer b ↔
      (∃ kind, requireKinds env deviceId [.station, .handheld] (Batch.begin db) = .done kind b) ∧
        answer = .block block := by
  obtain ⟨x, hx, rfl⟩ := h.found
  obtain ⟨hissuer, hextension⟩ := Prod.mk.inj h.asked
  have hfind : (Batch.begin db).db.requestedBlock deviceId r.requestId = some x := hx
  simp only [handle, issueBlock, bind_done, assert_done, select_done, pure_done]
  constructor
  · rintro ⟨_, _, ⟨_, _, ⟨-, rfl⟩, _, _, ⟨-, rfl⟩, kind, t, hkinds, _, _, ⟨rfl, rfl⟩, h⟩, rfl, rfl⟩
    obtain rfl := requireKinds_done hkinds
    rw [hfind] at h
    simp only [bind_done, assert_done, pure_done] at h
    obtain ⟨_, _, ⟨-, rfl⟩, rfl, rfl⟩ := h
    exact ⟨⟨kind, hkinds⟩, rfl⟩
  · rintro ⟨⟨kind, hkinds⟩, rfl⟩
    obtain rfl := requireKinds_done hkinds
    refine ⟨_, _, ⟨(), _, ⟨h.requestId, rfl⟩, (), _, ⟨h.extension, rfl⟩, kind, _, hkinds, some x, _,
      ⟨hfind, rfl⟩, ?_⟩, rfl, rfl⟩
    simp only [bind_done, assert_done, pure_done]
    exact ⟨(), _, ⟨⟨hissuer, hextension⟩, rfl⟩, trivial, rfl⟩

theorem AnsweredWith.again (h : AnsweredWith deviceId r block db) (env : Env) :
    (serve k ⟨env, .issueBlock deviceId r⟩ db).2 = db ∧
      ∀ kind b, requireKinds env deviceId [.station, .handheld] (Batch.begin db) = .done kind b →
        (serve k ⟨env, .issueBlock deviceId r⟩ db).1 = .ok (.block block) := by
  unfold serve
  constructor
  · cases hh : handle k env (.issueBlock deviceId r) (Batch.begin db) with
    | done answer b =>
      obtain ⟨⟨kind, hkinds⟩, -⟩ := h.handle_again.1 hh
      obtain rfl := requireKinds_done hkinds
      rfl
    | refused => rfl
    | failed => rfl
  · intro kind b hkinds
    rw [h.handle_again.2 ⟨⟨kind, hkinds⟩, rfl⟩]

end Repeats

/-! ## Every run -/

theorem handed_start {db : Db} (hblocks : db.blocks = []) (hsized : db.site.Sized)
    (hcounters : ∀ x ∈ db.counters, x.nextSerial ≤ serialCapacity x.issuerPrefix) :
    db.Handed := by
  refine ⟨hsized, ?_⟩
  rw [hblocks]
  refine handed_nil fun key => ?_
  cases hx : counterOf db.counters key with
  | none => simp [nextSerial, hx]
  | some x =>
    rw [nextSerial_some hx, capacity, ← counterOf_some hx]
    exact hcounters x (List.mem_of_find?_eq_some hx)

/-- **SSCC blocks never overlap.** From no blocks and counters within their serials, after every run
of requests: two blocks of one prefix and extension share no serial; a block is a range of its
prefix's serials, below its counter; a counter stays within its serials, and no further request moves
it back; and a request for a block, repeated after any others, changes nothing and answers the block
it was answered with first. -/
theorem blocks_never_overlap (k : Crates) (db : Db) (hsized : db.site.Sized)
    (hcounters : ∀ x ∈ db.counters, x.nextSerial ≤ serialCapacity x.issuerPrefix)
    (calls : List Call) :
    let s := run k { db with blocks := [] } calls
    s.blocks.Pairwise (fun x y => x.issuerPrefix = y.issuerPrefix → x.extension = y.extension →
      x.toSerial < y.fromSerial ∨ y.toSerial < x.fromSerial) ∧
    (∀ x ∈ s.blocks, x.fromSerial ≤ x.toSerial ∧ x.toSerial < serialCapacity x.issuerPrefix ∧
      ∃ c, s.counter x.issuerPrefix x.extension = some c ∧ x.toSerial < c.nextSerial) ∧
    (∀ issuer extension c, s.counter issuer extension = some c →
      c.nextSerial ≤ serialCapacity issuer ∧
      ∀ more, ∃ c', (run k s more).counter issuer extension = some c' ∧
        c.nextSerial ≤ c'.nextSerial) ∧
    ∀ env deviceId r block s1 more env',
      serve k ⟨env, .issueBlock deviceId r⟩ s = (.ok (.block block), s1) →
      let s2 := run k s1 more
      (serve k ⟨env', .issueBlock deviceId r⟩ s2).2 = s2 ∧
      ∀ kind b, requireKinds env' deviceId [.station, .handheld] (Batch.begin s2) = .done kind b →
        (serve k ⟨env', .issueBlock deviceId r⟩ s2).1 = .ok (.block block) := by
  intro s
  have h : s.Handed := by
    refine (run_handed ?_ calls).1
    exact handed_start rfl hsized hcounters
  refine ⟨?_, ?_, ?_, ?_⟩
  · refine (List.pairwise_map.1 h.2.apart).imp fun hxy h1 h2 => ?_
    exact hxy (Prod.ext h1 h2)
  · intro x hx
    have hr := List.mem_map_of_mem (f := BlockRow.range) hx
    have hbelow : x.toSerial < nextSerial s.counters x.key := h.2.below _ hr
    exact ⟨h.2.proper _ hr, Nat.lt_of_lt_of_le hbelow (h.2.bounded x.key), exists_counterOf hbelow⟩
  · intro issuer extension c hc
    have hc : counterOf s.counters (issuer, extension) = some c := hc
    constructor
    · have hb := h.2.bounded (issuer, extension)
      rwa [nextSerial_some hc] at hb
    · intro more
      exact (run_handed h more).2.counter _ c hc
  · intro env deviceId r block s1 more env' hserve s2
    have hs1 : s1 = step k s ⟨env, .issueBlock deviceId r⟩ := by
      rw [step, hserve]
    have h1 : s1.Handed := by
      rw [hs1]
      exact (run_handed h [_]).1
    exact ((serve_answered hserve).forward (run_handed h1 more).2).again env'

namespace Sample

/-- The sample site with a counter of boxes. -/
def counted : Db := { site .aggregation with counters := [⟨"460000000", 0, 1, 1⟩] }

def blockRequest : SsccBlockRequest := ⟨"33333333-3333-4333-8333-333333333333", "460000000", 0⟩

def askBlock (request : String) : Call := ⟨env request, .issueBlock station blockRequest⟩

end Sample

open Sample

/-- The station asks for a block, and again. -/
theorem blocks_never_overlap_sample :
    let s := step Crates.sample counted (askBlock "a")
    s.blocks.map (fun x => (x.fromSerial, x.toSerial)) = [(1, 100)] ∧
      (serve Crates.sample (askBlock "b") s).2 = s := by
  have hfirst : (issueBlock Crates.sample (env "a") station blockRequest
      (Batch.begin counted)).done?.map (fun x => (x.1,
        x.2.db.blocks.map fun x => (x.fromSerial, x.toSerial))) =
      some (⟨"a0", "460000000", 0, 1, 100⟩, [(1, 100)]) := by
    decide +kernel
  obtain ⟨x, hx, heq⟩ := Option.map_eq_some_iff.1 hfirst
  have hserve := serve_issueBlock (Txn.Outcome.done?_eq_some.1 hx)
  have hstep : step Crates.sample counted (askBlock "a") = x.2.db := by
    rw [step, askBlock, hserve]
  have h := blocks_never_overlap Crates.sample counted
    ⟨by decide, by decide⟩ (by decide) []
  intro s
  have hs : s = x.2.db := hstep
  rw [hs]
  refine ⟨(Prod.mk.inj heq).2, ?_⟩
  exact (h.2.2.2 (env "a") station blockRequest x.1 x.2.db []
    (env "b") hserve).1

end Markiro
