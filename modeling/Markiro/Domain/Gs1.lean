import Markiro.Lib.Utf16

/-!
# GS1 codes of the domain package

The check digit and the GTIN (`gs1/check-digit.ts`, `gs1/gtin.ts`), the marking code of a unit
(`gs1/km.ts`) and the SSCC of a box or a pallet (`gs1/sscc.ts`). Texts are UTF-16 units and numbers
are rationals, as these functions take any text and any number.
-/

namespace Markiro

open Utf16

/-! ## Failures -/

inductive ErrorCode where
  | kmEmpty | kmNoGtin | kmBadGtin | kmNoSerial | kmEmptyAi | kmBadAi | kmDuplicateAi
  | kmBadEncoding | kmBadControl | kmTooLong
  | gtinInvalid
  | ssccPrefix | ssccRange | ssccFormat
  deriving DecidableEq

/-- Domain failure with a stable machine-readable code. -/
structure DomainError where
  code : ErrorCode
  message : Units
  deriving DecidableEq

/-- What a function that throws a `DomainError` gives. -/
abbrev Domain := Except DomainError

def fail {α : Type} (code : ErrorCode) (message : Units) : Domain α := .error ⟨code, message⟩

/-- A value between quotation marks. -/
def quoted (s : Units) : Units := encode "\"" ++ s ++ encode "\""

/-! ## Check digits -/

/-- `/^\d{n}$/`. -/
def isDigits (n : ℕ) (s : Units) : Bool := decide (s.length = n) && s.all isDigit

theorem isDigits_iff {n : ℕ} {s : Units} :
    isDigits n s = true ↔ s.length = n ∧ ∀ u ∈ s, isDigit u = true := by
  simp [isDigits]

def digitOf (u : UInt16) : ℕ := u.toNat - 48

/-- GS1 mod-10 check digit of a numeric body: the rightmost digit carries weight 3, alternating
leftwards. -/
def gs1CheckDigit (body : Units) : ℕ :=
  let sum := (body.reverse.zipIdx.map fun (u, i) =>
    if i % 2 = 0 then digitOf u * 3 else digitOf u).sum
  (10 - sum % 10) % 10

def hasValidCheckDigit (code : Units) : Bool :=
  decide (2 ≤ code.length) && code.all isDigit &&
    code.getLast?.any fun u => gs1CheckDigit code.dropLast == digitOf u

def normalizeToGtin14 (input : Units) : Domain Units :=
  if input.all isDigit = false ∨ input.length ∉ [8, 12, 13, 14] then
    fail .gtinInvalid (encode "not a GTIN: " ++ quoted input)
  else if hasValidCheckDigit input = false then
    fail .gtinInvalid (encode "check digit mismatch: " ++ quoted input)
  else .ok (input.leftpad 14 48)

/-! ## Marking codes -/

/-- The group separator. -/
def GS : UInt16 := 0x1d

/-- The AIM symbology identifier of a GS1 DataMatrix. -/
def aim : Units := encode "]d2"

def maxKmUtf8Bytes : ℕ := 1024

/-- One trailing AI/value pair. -/
structure KmAi where
  ai : Units
  value : Units
  deriving DecidableEq

/-- The parts of a code, the trailing AIs in the order they are met. -/
structure KmSegments where
  gtin14 : Units
  serial : Units
  ais : List KmAi
  deriving DecidableEq

/-- A code as it is accepted. The record of the trailing AIs is its entries, in the order they were
set; no key is set twice. -/
structure ParsedKm where
  gtin14 : Units
  serial : Units
  raw : Units
  ais : List KmAi
  deriving DecidableEq

/-- The loop of `parseKmSegments` over what follows the serial's GS. -/
def parseKmAis (rest : Units) (ais : List KmAi) : Domain (List KmAi) :=
  if rest.length = 0 then .ok ais
  else if [GS].isPrefixOf rest then
    fail .kmEmptyAi (encode "KM contains an empty trailing AI segment")
  else if rest.length ≤ 2 then
    fail .kmBadAi (encode "KM contains an incomplete trailing AI segment")
  else if isDigits 2 (rest.take 2) = false then
    fail .kmBadAi (encode "KM trailing AI must be two digits")
  else
    let ai := rest.take 2
    let fin := rest.idxOf? GS
    let value := (upTo fin rest).drop 2
    if value.length = 0 then
      fail .kmEmptyAi (encode "KM trailing AI " ++ ai ++ encode " has an empty value")
    else if fin = some (rest.length - 1) then
      fail .kmEmptyAi (encode "KM contains an empty trailing AI segment")
    else parseKmAis (after fin rest) (ais ++ [⟨ai, value⟩])
termination_by rest.length
decreasing_by
  cases h : rest.idxOf? GS with
  | none => simp only [after, List.length_nil]; omega
  | some i => simp only [after, List.length_drop]; omega

/-- The text without a leading `]d2`. -/
def withoutAim (s : Units) : Units := if aim.isPrefixOf s then s.drop 3 else s

/-- `01`, the GTIN, `21` and the serial, then the trailing groups. -/
def parseKmSegments (raw : Units) : Domain KmSegments :=
  if raw.length = 0 then fail .kmEmpty (encode "empty scan")
  else
    let s := withoutAim raw
    if (encode "01").isPrefixOf s = false then
      fail .kmNoGtin (encode "KM must start with AI 01")
    else
      let gtin14 := (s.take 16).drop 2
      if isDigits 14 gtin14 = false then
        fail .kmBadGtin (encode "KM AI 01 GTIN must be 14 digits")
      else
        let s := s.drop 16
        if (encode "21").isPrefixOf s = false then
          fail .kmNoSerial (encode "KM must carry AI 21 serial")
        else
          let gsAt := s.idxOf? GS
          let serial := (upTo gsAt s).drop 2
          let rest := after gsAt s
          if serial.length = 0 then fail .kmNoSerial (encode "KM serial is empty")
          else if gsAt ≠ none ∧ rest.length = 0 then
            fail .kmEmptyAi (encode "KM contains an empty trailing AI segment")
          else (parseKmAis rest []).map fun ais => ⟨gtin14, serial, ais⟩

/-- The AIs as a record: a key met again is refused. -/
def recordOfAis : List KmAi → List KmAi → Domain (List KmAi)
  | [], ais => .ok ais
  | x :: rest, ais =>
    if ais.any fun y => y.ai = x.ai then
      fail .kmDuplicateAi (encode "KM contains duplicate trailing AI " ++ x.ai)
    else recordOfAis rest (ais ++ [x])

def parseKm (raw : Units) : Domain ParsedKm := do
  let segments ← parseKmSegments raw
  let gtin14 ← normalizeToGtin14 segments.gtin14
  let ais ← recordOfAis segments.ais []
  return ⟨gtin14, segments.serial, raw, ais⟩

/-- Canonical duplicate-detection identity of a KM. -/
def kmKey (km : ParsedKm) : Units := encode "01" ++ km.gtin14 ++ encode "21" ++ km.serial

/-! ### Canonical form -/

/-- The transport whitespace: a blank or a tab. -/
def isBlank (u : UInt16) : Bool := u == 32 || u == 9

/-- Why a unit may not stand in a code, the unit after it given. -/
inductive UnitFault where
  | unpaired | control
  deriving DecidableEq

/-- The scan over the units: surrogates in pairs, no control character but GS. -/
def unitFault : Units → Option UnitFault
  | [] => none
  | u :: rest =>
    if isHighSurrogate u then
      match rest with
      | [] => some .unpaired
      | next :: rest => if isLowSurrogate next then unitFault rest else some .unpaired
    else if isLowSurrogate u then some .unpaired
    else if (u < 0x20 ∧ u ≠ GS) ∨ u = 0x7f then some .control
    else unitFault rest

/-- The bytes of the text in UTF-8; an unpaired surrogate is written as U+FFFD. -/
def utf8Length : Units → ℕ
  | [] => 0
  | u :: rest =>
    if u < 0x80 then 1 + utf8Length rest
    else if u < 0x800 then 2 + utf8Length rest
    else if isHighSurrogate u then
      match rest with
      | [] => 3
      | next :: rest =>
        if isLowSurrogate next then 4 + utf8Length rest else 3 + utf8Length (next :: rest)
    else 3 + utf8Length rest

/-- The text of a scan: edge blanks, one `]d2` and the blanks after it are removed. -/
def scannedText (raw : Units) : Units := trimBy isBlank (withoutAim (trimBy isBlank raw))

/-- Scanner text as the representation that is accepted and exported. -/
def canonicalizeKm (raw : Units) : Domain ParsedKm :=
  let canonicalRaw := scannedText raw
  if 0xfffd ∈ canonicalRaw then
    fail .kmBadEncoding (encode "KM contains a replacement character")
  else
    match unitFault canonicalRaw with
    | some .unpaired => fail .kmBadEncoding (encode "KM contains an unpaired UTF-16 surrogate")
    | some .control => fail .kmBadControl (encode "KM contains a forbidden control character")
    | none =>
      if maxKmUtf8Bytes < utf8Length canonicalRaw then
        fail .kmTooLong (encode "KM exceeds the 1024-byte UTF-8 limit")
      else parseKm canonicalRaw

/-! ## SSCC -/

theorem eq_natCast_of_isInt {q : ℚ} (hint : q.isInt = true) (h0 : 0 ≤ q) :
    q = (q.num.toNat : ℚ) := by
  have hden : q.den = 1 := by simpa [Rat.isInt] using hint
  have hnum : ((q.num.toNat : ℤ)) = q.num := Int.toNat_of_nonneg (Rat.num_nonneg.2 h0)
  calc q = (q.num : ℚ) := (Rat.coe_int_num_of_den_eq_one hden).symm
    _ = ((q.num.toNat : ℤ) : ℚ) := by rw [hnum]
    _ = (q.num.toNat : ℚ) := Int.cast_natCast _

/-- The decimal text of a whole number. -/
def numeral (n : ℕ) : Units := encodeChars (Nat.toDigits 10 n)

/-- The number a text of digits names; the ones read here are exact, being below 2^53. -/
def readNumber (s : Units) : ℕ := s.foldl (fun n u => 10 * n + digitOf u) 0

theorem digitOf_unitOf {c : Char} (h : c.isDigit = true) :
    digitOf (unitOf c) = c.toNat - '0'.toNat := by
  rw [digitOf, unitOf_toNat h]
  rfl

theorem readNumber_digits {cs : List Char} (h : ∀ c ∈ cs, c.isDigit = true) :
    readNumber (encodeChars cs) = Nat.ofDigitChars 10 cs 0 := by
  have hfold : ∀ n, (cs.map unitOf).foldl (fun n u => 10 * n + digitOf u) n =
      Nat.ofDigitChars 10 cs n := by
    induction cs with
    | nil => exact fun n => rfl
    | cons c cs ih =>
      intro n
      rw [List.map_cons, List.foldl_cons, digitOf_unitOf (h c List.mem_cons_self),
        ih fun d hd => h d (List.mem_cons_of_mem _ hd), Nat.ofDigitChars_cons]
  rw [readNumber, encodeChars_digits h, hfold]

theorem toDigits_digits (n : ℕ) : ∀ c ∈ Nat.toDigits 10 n, c.isDigit = true := fun _ hc =>
  Nat.isDigit_of_mem_toDigits (by decide) (by decide) hc

theorem numeral_isDigit (n : ℕ) : ∀ u ∈ numeral n, isDigit u = true := by
  intro u hu
  rw [numeral, encodeChars_digits (toDigits_digits n)] at hu
  obtain ⟨c, hc, rfl⟩ := List.mem_map.1 hu
  exact isDigit_unitOf (toDigits_digits n c hc)

theorem numeral_ne_nil (n : ℕ) : numeral n ≠ [] := by
  rw [numeral, encodeChars_digits (toDigits_digits n)]
  simp [Nat.toDigits_ne_nil]

@[simp] theorem readNumber_numeral (n : ℕ) : readNumber (numeral n) = n := by
  rw [numeral, readNumber_digits (toDigits_digits n), Nat.ofDigitChars_ten_toDigits]

theorem numeral_injective : Function.Injective numeral := by
  intro i j hij
  rw [← readNumber_numeral i, hij, readNumber_numeral]

/-- Serials available per prefix and extension: the serial field is 16 - |prefix| digits. -/
def ssccSerialCapacity (gs1Prefix : Units) : Domain ℕ :=
  if gs1Prefix.all isDigit = true ∧ 4 ≤ gs1Prefix.length ∧ gs1Prefix.length ≤ 12 then
    .ok (10 ^ (16 - gs1Prefix.length))
  else fail .ssccPrefix (encode "bad GS1 prefix: " ++ quoted gs1Prefix)

/-- The SSCC of an extension digit, a prefix and a serial. The texts of the failures are without the
numbers they name. -/
def buildSscc (extensionDigit : ℚ) (gs1Prefix : Units) (serial : ℚ) : Domain Units :=
  if extensionDigit.isInt = false ∨ extensionDigit < 0 ∨ 9 < extensionDigit then
    fail .ssccPrefix (encode "bad extension digit: ")
  else do
    let capacity ← ssccSerialCapacity gs1Prefix
    if serial.isInt = false ∨ serial < 0 ∨ capacity ≤ serial then
      fail .ssccRange (encode "serial outside 0..")
    else
      let body := numeral extensionDigit.num.toNat ++ gs1Prefix ++
        (numeral serial.num.toNat).leftpad (16 - gs1Prefix.length) 48
      .ok (body ++ numeral (gs1CheckDigit body))

def isValidSscc (code : Units) : Bool := isDigits 18 code && hasValidCheckDigit code

/-- The text without the application identifier, in brackets or before 18 more units. -/
def withoutSsccAi (rest : Units) : Units :=
  if (encode "(00)").isPrefixOf rest then rest.drop 4
  else if rest.length = 20 ∧ (encode "00").isPrefixOf rest = true then rest.drop 2
  else rest

/-- The bare 18-digit SSCC of what a scanner hands back; a misprinted `!1` is read on request. -/
def parseScannedSscc (raw : Units) (allowLegacyBangOnePrefix : Bool) : Option Units :=
  if (if allowLegacyBangOnePrefix then 27 else 25) < raw.length then none
  else
    let rest := if (encode "]C1").isPrefixOf raw then raw.drop 3 else raw
    let rest := if allowLegacyBangOnePrefix && (encode "!1").isPrefixOf rest then rest.drop 2
      else rest
    let rest := withoutSsccAi rest
    if isValidSscc rest then some rest else none

/-- The three fields of an SSCC's body. -/
structure ParsedSscc where
  extensionDigit : ℕ
  gs1Prefix : Units
  serial : ℕ
  deriving DecidableEq

/-- Inverse of `buildSscc`; the prefix's length is the caller's. -/
def parseSscc (sscc : Units) (prefixLength : ℚ) : Domain (Option ParsedSscc) :=
  if isValidSscc sscc = false then .ok none
  else if prefixLength.isInt = false ∨ prefixLength < 4 ∨ 12 < prefixLength then
    fail .ssccPrefix (encode "bad prefix length: ")
  else
    let width := prefixLength.num.toNat
    .ok (some ⟨readNumber (sscc.take 1), (sscc.drop 1).take width,
      readNumber ((sscc.take 17).drop (1 + width))⟩)

/-- The 20-character machine form; the shape is checked, not the check digit. -/
def formatSsccWithAi (sscc : Units) : Domain Units :=
  if isDigits 18 sscc = false then
    fail .ssccFormat (encode "not a bare 18-digit SSCC: " ++ quoted sscc)
  else .ok (encode "00" ++ sscc)

/-- The human-readable form `(00)…` of the bare digits or of the machine form. -/
def formatSsccHri (value : Units) : Domain Units :=
  let bare := if value.length = 20 ∧ (encode "00").isPrefixOf value = true then value.drop 2
    else value
  if isDigits 18 bare = false then fail .ssccFormat (encode "not an SSCC: " ++ quoted value)
  else .ok (encode "(00)" ++ bare)

/-- The whitespace of ECMAScript. -/
def isEcmaWhitespace (u : UInt16) : Bool :=
  let n := u.toNat
  (9 ≤ n && n ≤ 13) || n == 32 || n == 160 || n == 5760 || (8192 ≤ n && n ≤ 8202) ||
    n == 8232 || n == 8233 || n == 8239 || n == 8287 || n == 12288 || n == 0xfeff

/-- `String.prototype.trim`. -/
def ecmaTrim (s : Units) : Units := trimBy isEcmaWhitespace s

end Markiro
