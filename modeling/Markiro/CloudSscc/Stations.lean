import Markiro.Sscc.Codec
import Markiro.CloudSscc.Pool

/-!
# No serial is burned twice

Several stations and the cloud over one prefix and digit. A bundle is read from the cloud's tables
and reaches its station late, repeatedly, but in order; the station deletes the revoked ranges, then
adds the block it was handed. A reseed waits until every burned serial is recorded, and a station
burns after it only with a later bundle. `Since` relates the tables a bundle was read from to later
tables: either no block was revoked in between, or all of them were.
-/

namespace Markiro.CloudSscc

open Utf16 Table

/-! ## The system -/

/-- What a bundle says about the serials of its device. -/
structure Bundle where
  sscc : SsccBlock
  ssccRevokedFrom : List ℕ

/-- The block and the revocations of a bundle, read in one transaction. -/
def bundleSscc (k : Key) (deviceId : String) (size : ℕ+) : Body Bundle := fun t =>
  match allocateForBundle k deviceId size t with
  | (t', .error e) => (t', .error e)
  | (t', .ok block) => (t', .ok ⟨block, revokedFromSerials t' k deviceId⟩)

/-- The revocations of a bundle, without the block it hands out. -/
def dropRevoked (pool : Pool) (m : Bundle) : Pool :=
  dropRanges pool m.sscc.issuerPrefix m.sscc.extensionDigit
    (m.ssccRevokedFrom.filter (· ≠ m.sscc.fromSerial))

/-- A bundle on its way, with the tables it was read from and the reseeds before it. -/
structure Sent where
  bundle : Bundle
  asOf : Tables
  reseeds : ℕ

/-- A station: its pool, the bundles sent to it, the one it reached, the one whose block it has still
to add, and those it applied. -/
structure Station where
  pool : Pool
  inbox : List Sent
  reached : ℕ
  begun : Option Sent
  applied : List Sent

def Station.new : Station := ⟨Pool.empty, [], 0, none, []⟩

structure System where
  cloud : Tables
  stations : String → Station
  burned : List (String × ℕ)
  recorded : List ℕ
  reseeds : ℕ

/-- The cloud's tables empty, and no station with a serial. -/
def System.start : System := ⟨Tables.empty, fun _ => Station.new, [], [], 0⟩

/-- One station changed. -/
def System.at (w : System) (deviceId : String) (st : Station) : System :=
  { w with stations := Function.update w.stations deviceId st }

/-- After a reseed, only a bundle read later lets a station burn. -/
def System.MayBurn (w : System) (deviceId : String) : Prop :=
  w.reseeds = 0 ∨ ∃ m ∈ (w.stations deviceId).applied, m.reseeds = w.reseeds

/-- The burned serial of a station, if there was one. -/
def System.burnedWith (w : System) (deviceId : String) : Option ℕ → List (String × ℕ)
  | none => w.burned
  | some s => w.burned ++ [(deviceId, s)]

inductive Step (k : Key) (size : ℕ+) : System → System → Prop where
  | fetch (w : System) (deviceId : String) (t : Tables) (bundle : Bundle)
      (h : transaction (bundleSscc k deviceId size) w.cloud = (t, .ok bundle)) :
      Step k size w { w.at deviceId { w.stations deviceId with
        inbox := (w.stations deviceId).inbox ++ [⟨bundle, t, w.reseeds⟩] } with cloud := t }
  | drop (w : System) (deviceId : String) (i : ℕ) (m : Sent)
      (hm : (w.stations deviceId).inbox[i]? = some m) (hi : (w.stations deviceId).reached ≤ i) :
      Step k size w (w.at deviceId { w.stations deviceId with
        pool := dropRevoked (w.stations deviceId).pool m.bundle
        reached := i
        begun := some m })
  | add (w : System) (deviceId : String) (m : Sent) (hm : (w.stations deviceId).begun = some m) :
      Step k size w (w.at deviceId { w.stations deviceId with
        pool := addRange (w.stations deviceId).pool m.bundle.sscc
        begun := none
        applied := (w.stations deviceId).applied ++ [m] })
  | burn (w : System) (deviceId : String) (h : w.MayBurn deviceId) :
      Step k size w { w.at deviceId { w.stations deviceId with
        pool := (burnSerial (w.stations deviceId).pool k.issuerPrefix k.extensionDigit).1 } with
        burned := w.burnedWith deviceId
          (burnSerial (w.stations deviceId).pool k.issuerPrefix k.extensionDigit).2 }
  | record (w : System) (deviceId : String) (s : ℕ) (hs : (deviceId, s) ∈ w.burned) (sscc : Units)
      (hsscc : buildSscc k.extensionDigit k.issuerPrefix.units s = .ok sscc) :
      Step k size w { w with
        cloud := (serve (.recordConsumedSerial k.tenantId sscc) w.cloud).1
        recorded := w.recorded ++ [s] }
  | reseed (w : System) (now : ℤ) (n : ℕ) (hall : ∀ x ∈ w.burned, x.2 ∈ w.recorded)
      (h : (serve (.seedCounter now k n) w.cloud).2 = .ok ()) :
      Step k size w { w with
        cloud := (serve (.seedCounter now k n) w.cloud).1
        reseeds := w.reseeds + 1 }
  | elsewhere (w : System) (shifts : List ShiftRow) (stationDevices : List DeviceRow) :
      Step k size w { w with
        cloud := { w.cloud with shifts := shifts, stationDevices := stationDevices } }

/-- A system some run comes to. -/
def Reached (k : Key) (size : ℕ+) : System → Prop := Relation.ReflTransGen
    (Step k size) System.start

/-! ## Earlier and later tables -/

/-- A block's row at a later time. -/
structure SameRow (b b' : BlockRow) : Prop where
  key : b'.toKey = b.toKey
  device : b'.deviceId = b.deviceId
  lower : b'.fromSerial = b.fromSerial
  upper : b'.toSerial = b.toSerial

/-- Every block of the key is still there, and stands to its earlier row as `P` says. -/
def Along (k : Key) (P : BlockRow → BlockRow → Prop) (t t' : Tables) : Prop :=
  ∀ (i : ℕ) (b : BlockRow), t.ssccBlocks[i]? = some b → b.toKey = k →
    ∃ b', t'.ssccBlocks[i]? = some b' ∧ SameRow b b' ∧ P b b'

/-- No block of the key was revoked. -/
def Quiet (k : Key) : Tables → Tables → Prop := Along k fun b b' => b'.live = b.live

/-- Every block of the key was revoked. -/
def Ended (k : Key) : Tables → Tables → Prop := Along k fun _ b' => b'.live = false

def Since (k : Key) (t t' : Tables) : Prop := Quiet k t t' ∨ Ended k t t'

section Later

variable {k : Key} {t t' t'' : Tables} {P Q R : BlockRow → BlockRow → Prop}

theorem Along.trans (h : Along k P t t') (h' : Along k Q t' t'')
    (hR : ∀ b b' b'', P b b' → Q b' b'' → R b b'') : Along k R t t'' := by
  intro i b hb hk
  obtain ⟨b', hb', hsame, hP⟩ := h i b hb hk
  obtain ⟨b'', hb'', hsame', hQ⟩ := h' i b' hb' (hsame.key.trans hk)
  exact ⟨b'', hb'', ⟨hsame'.key.trans hsame.key, hsame'.device.trans hsame.device,
    hsame'.lower.trans hsame.lower, hsame'.upper.trans hsame.upper⟩, hR b b' b'' hP hQ⟩

theorem Quiet.refl (k : Key) (t : Tables) : Quiet k t t :=
  fun _ b hb _ => ⟨b, hb, ⟨rfl, rfl, rfl, rfl⟩, rfl⟩

theorem Quiet.trans (h : Quiet k t t') (h' : Quiet k t' t'') : Quiet k t t'' :=
  Along.trans h h' fun _ _ _ hP hQ => hQ.trans hP

theorem Since.trans (h : Since k t t') (h' : Since k t' t'') : Since k t t'' := by
  rcases h with h | h
  · rcases h' with h' | h'
    · exact .inl (h.trans h')
    · exact .inr (Along.trans h h' fun _ _ _ _ hQ => hQ)
  · rcases h' with h' | h'
    · exact .inr (Along.trans h h' fun _ _ _ hP hQ => hQ.trans hP)
    · exact .inr (Along.trans h h' fun _ _ _ _ hQ => hQ)

/-- A live block that is live later shows that nothing was revoked. -/
theorem Since.quiet (h : Since k t t') (h' : Since k t' t'') (hq : Quiet k t t'') {b : BlockRow}
    (hb : b ∈ t.ssccBlocks) (hk : b.toKey = k) (hlive : b.live = true) :
    Quiet k t t' ∧ Quiet k t' t'' := by
  obtain ⟨i, hi⟩ := List.getElem?_of_mem hb
  obtain ⟨c, hc, -, hclive⟩ := hq i b hi hk
  rcases h with h | h
  · refine ⟨h, ?_⟩
    rcases h' with h' | h'
    · exact h'
    · obtain ⟨b', hb', hsame, -⟩ := h i b hi hk
      obtain ⟨b'', hb'', -, hdead⟩ := h' i b' hb' (hsame.key.trans hk)
      rw [hc] at hb''
      cases hb''
      rw [hdead, hlive] at hclive
      cases hclive
  · have hended : Ended k t t'' := by
      rcases h' with h' | h'
      · exact Along.trans h h' fun _ _ _ hP hQ => hQ.trans hP
      · exact Along.trans h h' fun _ _ _ _ hQ => hQ
    obtain ⟨b'', hb'', -, hdead⟩ := hended i b hi hk
    rw [hc] at hb''
    cases hb''
    rw [hdead, hlive] at hclive
    cases hclive

theorem quiet_cut (k k' : Key) (t : Tables) (deviceId : String) (size : ℕ+) :
    Quiet k t (cut t k' deviceId size) := by
  intro i b hb _
  have hlt : i < t.ssccBlocks.length := by
    by_contra hge
    rw [List.getElem?_eq_none (not_lt.1 hge)] at hb
    cases hb
  refine ⟨b, ?_, ⟨rfl, rfl, rfl, rfl⟩, rfl⟩
  exact (List.getElem?_append_left hlt).trans hb

theorem quiet_consume (k : Key) (t : Tables) (tenantId : String) (p : ParsedSscc) :
    Quiet k t (consume t tenantId p) := by
  intro i b hb _
  refine ⟨_, (List.getElem?_map ..).trans (congrArg _ hb), ?_, ?_⟩
  · dsimp only
    split
    · exact ⟨rfl, rfl, rfl, rfl⟩
    · exact ⟨rfl, rfl, rfl, rfl⟩
  · dsimp only
    split
    · rfl
    · rfl

theorem since_reseed (k : Key) (t : Tables) (now : ℤ) (n : ℕ) : Since k t (reseed now t k n) := by
  unfold reseed
  split
  · exact .inl (Quiet.refl k t)
  · refine .inr fun i b hb hk => ⟨_, (List.getElem?_map ..).trans (congrArg _ hb), ?_, ?_⟩
    · dsimp only
      split
      · exact ⟨rfl, rfl, rfl, rfl⟩
      · exact ⟨rfl, rfl, rfl, rfl⟩
    · dsimp only
      split
      · rfl
      · rename_i hnot
        exact Bool.eq_false_iff.2 fun hlive => hnot ⟨hk, hlive⟩

end Later

end Markiro.CloudSscc
