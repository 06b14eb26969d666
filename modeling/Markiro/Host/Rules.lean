import Markiro.Host.Base

/-!
# Rules of the wire

The shapes the host checks before anything is written: `validate.rs`, `facts/rules.rs`, and what
an imported cloud history reserves (`cloud_history/mod.rs`). The two facts the registry and the
labels rest on are here: the texts of `deviceInstant` are ordered as their instants
(`deviceInstant_lt`), and the first 17 digits of an SSCC name one serial (`ssccBody_injective`).
-/

namespace Markiro

open Calendar Text

/-! ## Text -/

/-- A text's length in bytes of UTF-8. -/
def byteLen (s : String) : ℕ := (s.toList.map Char.utf8Size).sum

/-- ASCII digits only. -/
def allDigits (s : String) : Bool := s.toList.all Char.isDigit

/-- Exactly `n` ASCII digits. -/
def digits (n : ℕ) (s : String) : Bool := decide (byteLen s = n) && allDigits s

/-- The characters of Unicode's `White_Space`. -/
def isWhitespace (c : Char) : Bool :=
  let n := c.toNat
  (9 ≤ n && n ≤ 13) || n == 32 || n == 133 || n == 160 || n == 5760 || (8192 ≤ n && n ≤ 8202) ||
    n == 8232 || n == 8233 || n == 8239 || n == 8287 || n == 12288

def isControl (c : Char) : Bool := c.toNat < 32 || (127 ≤ c.toNat && c.toNat < 160)

/-- A text without the characters of `p` at its two ends. -/
def trimMatches (p : Char → Bool) (s : String) : String :=
  String.ofList ((s.toList.dropWhile p).reverse.dropWhile p).reverse

def trim (s : String) : String := trimMatches isWhitespace s

def isPlain (s : String) (max : ℕ) : Bool :=
  decide (1 ≤ s.toList.length) && decide (s.toList.length ≤ max) && !s.toList.any isControl

def cleanText (s : String) (max : ℕ) : Option String :=
  let s := trim s
  if isPlain s max then some s else none

def exceptionReasonText (s : String) : Option String := cleanText s 200

/-- The office's reason for closing a shift. -/
def closeReason (s : String) : Option String :=
  let reason := trim s
  if isPlain reason 500 && decide (3 ≤ reason.toList.length) then some reason else none

def isLowerHex (c : Char) : Bool := c.isDigit || ('a' ≤ c && c ≤ 'f')

/-- A UUID in its canonical form: lower-case and hyphenated. -/
def clientUuid (s : String) : Bool :=
  decide (s.toList.length = 36) && (s.toList.zipIdx.all fun (c, i) =>
    if i = 8 ∨ i = 13 ∨ i = 18 ∨ i = 23 then c = '-' else isLowerHex c)

/-- A SHA-256 as the domain writes it: 64 lower-case hex digits. -/
def isSha256Hex (s : String) : Bool := decide (byteLen s = 64) && s.toList.all isLowerHex

def isCodeHash (s : String) : Bool := isSha256Hex s

/-- The largest plan a shift takes. -/
def maxPlannedQty : ℕ := 10000000

/-! ## SSCC serials -/

/-- The first nine digits of the GLN. -/
def issuerPrefix (gln : String) : String := String.ofList (gln.toList.take 9)

/-- The issuer prefix of the demo data. -/
def demoPrefix : String := "290000000"

/-- How many serials fit after the prefix in an SSCC. -/
def serialCapacity (issuer : String) : ℕ := 10 ^ (16 - byteLen issuer)

/-- The first serial of an extension digit: boxes start at 1, pallets at 0. -/
def firstSerial (extension : ℕ) : ℕ := if extension = 0 then 1 else 0

/-- The digits an SSCC of the serial starts with: the extension, the prefix and the serial padded
to the prefix's width. -/
def ssccBody (extension : ℕ) (issuer : String) (serial : ℕ) : List Char :=
  Nat.toDigits 10 extension ++ issuer.toList ++ pad (16 - byteLen issuer) serial

/-- Whether `sscc` is the SSCC of `serial`, whatever its check digit. -/
def namesSerial (sscc : String) (extension : ℕ) (issuer : String) (serial : ℕ) : Bool :=
  decide (serial < serialCapacity issuer) && decide (17 ≤ sscc.toList.length) &&
    decide (sscc.toList.take 17 = ssccBody extension issuer serial)

/-! ## Digests and instants -/

def recordDigest (k : Crates) (v : Json) : String := k.sha256Hex v.text

/-- The digest of a box's members: their hashes in byte order, joined by line feeds. -/
def boxMembershipDigest (k : Crates) (codeHashes : List String) : String :=
  k.sha256Hex ("markiro:box-members:v1\n" ++
    String.intercalate "\n" (codeHashes.insertionSort (· ≤ ·)))

def deviceInstant (k : Crates) (text : String) : Option DateTime := do
  let moment ← k.parseRfc3339 text
  if milliText moment = text then some moment else none

/-- An instant as a device writes its own. -/
def deviceText (d : UtcDateTime) : String := milliText d.1

/-- When a station's close needs a reason. -/
def closeReasonRequired (plannedQty : Option ℕ) (actualQty : ℕ) : Bool :=
  match plannedQty with
  | some planned => planned != actualQty
  | none => false

def reprintReasons : List String :=
  ["damaged_label", "unreadable_label", "printer_jam", "quality_request", "other"]

/-- The reasons for taking a box or a pallet apart. -/
def disassembleReasons : List String :=
  ["wrong_product", "wrong_quantity", "damaged_package", "quality_rejected", "other"]

def shiftCloseReasons : List String :=
  ["production_defect", "material_shortage", "equipment_stop", "production_order_changed",
    "planned_quantity_error", "other_production_deviation"]

/-! ## Imported history -/

namespace CloudHistory

/-- The batch is imported to its end. -/
def completed (c : CloudHistory) (batchId : String) : Bool :=
  c.batches.any fun b => b.id = batchId ∧ b.complete

def reservedIdentity (c : CloudHistory) (id : String) : Bool :=
  (c.shifts.any fun x => x.id = id ∧ c.completed x.batchId) ||
    (c.boxes.any fun x => x.id = id ∧ c.completed x.batchId) ||
      c.pallets.any fun x => x.id = id ∧ c.completed x.batchId

def reservedSscc (c : CloudHistory) (sscc : String) : Bool :=
  (c.boxes.any fun x => x.sscc = some sscc ∧ c.completed x.batchId) ||
    c.pallets.any fun x => x.sscc = some sscc ∧ c.completed x.batchId

/-- The imported owner of a code. -/
def completedOwner (c : CloudHistory) (hash : String) : Option CloudOwnerRow :=
  c.owners.find? fun o => o.hash = hash ∧ o.releasedAt = none ∧ c.completed o.batchId

end CloudHistory

/-- No import is on its way. -/
def requireReady : Host Unit := do
  let pending ← select fun db =>
    (db.cloud.batches.any fun b => !b.complete) || db.site.replacementPending
  Txn.assert (pending = false) (.conflict "cloud_history_pending")

/-! ## The order of instants -/

section Instants

variable {k : Crates} {s t : String} {a b : DateTime}

theorem deviceInstant_eq (h : deviceInstant k s = some a) :
    k.parseRfc3339 s = some a ∧ s = milliText a := by
  unfold deviceInstant at h
  rw [Option.bind_eq_bind, Option.bind_eq_some_iff] at h
  obtain ⟨d, hd, h⟩ := h
  split_ifs at h with hw
  obtain rfl := Option.some.inj h
  exact ⟨hd, hw.symm⟩

theorem deviceInstant_atMilli (h : deviceInstant k s = some a) : a = a.atMilli := by
  obtain ⟨hp, rfl⟩ := deviceInstant_eq h
  exact Option.some.inj (hp.symm.trans (k.parse_milliText a))

theorem nanos_atMilli (a : DateTime) : a.atMilli.nanos = a.localMillis * 1000000 := by
  simp only [DateTime.nanos, DateTime.localMillis, DateTime.atMilli, DateTime.localSeconds]
  push_cast
  ring

/-- **The byte order of accepted texts is the order of the instants they name.** -/
theorem deviceInstant_lt (hs : deviceInstant k s = some a) (ht : deviceInstant k t = some b) :
    s < t ↔ a.nanos < b.nanos := by
  obtain ⟨-, rfl⟩ := deviceInstant_eq hs
  obtain ⟨-, rfl⟩ := deviceInstant_eq ht
  have ha := congrArg DateTime.nanos (deviceInstant_atMilli hs)
  have hb := congrArg DateTime.nanos (deviceInstant_atMilli ht)
  rw [nanos_atMilli] at ha hb
  rw [milliText_lt, ha, hb]
  omega

end Instants

/-! ## One body, one serial -/

theorem utf8Size_of_isDigit {c : Char} (h : c.isDigit = true) : c.utf8Size = 1 := by
  simp only [Char.isDigit, Bool.and_eq_true, decide_eq_true_eq] at h
  have h2 : (57 : UInt32) ≤ 127 := by decide
  have h3 : c.val ≤ 127 := UInt32.le_trans h.2 h2
  simp [Char.utf8Size, h3]

theorem byteLen_of_allDigits {s : String} (h : allDigits s = true) :
    byteLen s = s.toList.length := by
  have hall : ∀ c ∈ s.toList, c.utf8Size = 1 := fun c hc =>
    utf8Size_of_isDigit (List.all_eq_true.1 h c hc)
  rw [byteLen, List.map_congr_left hall]
  simp

theorem ssccBody_injective {e e' n n' : ℕ} {p p' : String} (he : e < 10) (he' : e' < 10)
    (hp : allDigits p = true) (hp' : allDigits p' = true) (hlen : byteLen p = byteLen p')
    (hw : byteLen p < 16) (hn : n < serialCapacity p) (hn' : n' < serialCapacity p')
    (h : ssccBody e p n = ssccBody e' p' n') : e = e' ∧ p = p' ∧ n = n' := by
  have hlen' : p.toList.length = p'.toList.length := by
    rw [← byteLen_of_allDigits hp, ← byteLen_of_allDigits hp', hlen]
  unfold ssccBody at h
  rw [Nat.toDigits_of_lt_base he, Nat.toDigits_of_lt_base he'] at h
  obtain ⟨h1, h2⟩ := List.append_inj h (by simp [hlen'])
  obtain ⟨h3, h4⟩ := List.cons.inj h1
  refine ⟨digitChar_inj e he e' he' h3, String.toList_injective h4, ?_⟩
  unfold serialCapacity at hn hn'
  rw [← hlen] at hn' h2
  exact pad_injective (by omega) hn hn' h2

theorem namesSerial_body {sscc p : String} {e n : ℕ} (h : namesSerial sscc e p n = true) :
    n < serialCapacity p ∧ sscc.toList.take 17 = ssccBody e p n := by
  simp only [namesSerial, Bool.and_eq_true, decide_eq_true_eq] at h
  exact ⟨h.1.1, h.2⟩

end Markiro
