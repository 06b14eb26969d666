import Markiro.Domain.MonoRaster
import Markiro.Labels.Dots
import Markiro.Lib.Results

/-!
# Mono rasters are read as they were written

The header of an artifact has a place for every number of a page it accepts (`geometry_writable`), so
that reading undoes writing and writing undoes reading (`mono_raster_bijective`).
-/

namespace Markiro

open Utf16 Bytes Results

/-! ## Numbers of a header -/

/-- A number a field of four bytes holds. -/
def IsUint32 (n : ℚ) : Prop := ∃ k : ℕ, k < 2 ^ 32 ∧ n = k

/-- A page whose numbers a header has room for. -/
structure MonoRasterMetadata.Writable (page : MonoRasterMetadata) : Prop where
  format : page.format = monoRasterFormat
  dpi : IsUint32 page.dpi
  widthDots : IsUint32 page.widthDots
  heightDots : IsUint32 page.heightDots
  stride : IsUint32 page.stride
  left : IsUint32 page.requiredBounds.left
  top : IsUint32 page.requiredBounds.top
  right : IsUint32 page.requiredBounds.right
  bottom : IsUint32 page.requiredBounds.bottom

theorem toUint32_natCast {k : ℕ} (h : k < 2 ^ 32) : toUint32 (k : ℚ) = k := by
  have hnot : ¬(k : ℚ) < 0 := not_lt.2 (Nat.cast_nonneg k)
  rw [toUint32, if_neg hnot, Int.floor_natCast]
  omega

theorem IsUint32.toUint32 {n : ℚ} (h : IsUint32 n) : (toUint32 n : ℚ) = n := by
  obtain ⟨k, hk, rfl⟩ := h
  rw [toUint32_natCast hk]

theorem toUint32_lt (n : ℚ) : toUint32 n < 256 ^ 4 := by
  rw [toUint32]
  have h := Int.emod_lt_of_pos (if n < 0 then ⌈n⌉ else ⌊n⌋) (show (0 : ℤ) < 2 ^ 32 by norm_num)
  have h0 := Int.emod_nonneg (if n < 0 then ⌈n⌉ else ⌊n⌋) (show (2 ^ 32 : ℤ) ≠ 0 by norm_num)
  omega

/-! ## Written bytes -/

section Fields

variable {bytes bs : List UInt8} {offset o : ℕ} {n : ℚ} {x : Float64}

@[simp] theorem length_setUint32 : (setUint32 bytes offset n).length = bytes.length :=
  length_writeAt _ _ _

@[simp] theorem length_setFloat64 : (setFloat64 bytes offset x).length = bytes.length :=
  length_writeAt _ _ _

theorem getUint32_same (h : offset + 4 ≤ bytes.length) :
    getUint32 (setUint32 bytes offset n) offset = toUint32 n := by
  rw [getUint32, setUint32, readAt_writeAt_same (length_toLe 4 _) h,
    ofLe_toLe_of_lt (toUint32_lt n)]

theorem getUint32_beside (h : o + 4 ≤ offset ∨ offset + 4 ≤ o) :
    getUint32 (setUint32 bytes offset n) o = getUint32 bytes o := by
  rw [getUint32, setUint32, readAt_writeAt_beside (by simpa using h), getUint32]

theorem getUint32_setFloat64 (h : o + 4 ≤ offset ∨ offset + 8 ≤ o) :
    getUint32 (setFloat64 bytes offset x) o = getUint32 bytes o := by
  rw [getUint32, setFloat64, readAt_writeAt_beside (by simpa using h), getUint32]

theorem getUint32_writeAt (h : o + 4 ≤ offset ∨ offset + bs.length ≤ o) :
    getUint32 (writeAt bytes offset bs) o = getUint32 bytes o := by
  rw [getUint32, readAt_writeAt_beside h, getUint32]

theorem getFloat64_same (h : offset + 8 ≤ bytes.length) :
    getFloat64 (setFloat64 bytes offset x) offset = x := by
  have hlt : x.bits.toNat < 256 ^ 8 := x.bits.toNat_lt
  rw [getFloat64, setFloat64, readAt_writeAt_same (length_toLe 8 _) h, ofLe_toLe_of_lt hlt]
  simp

theorem getFloat64_beside (h : o + 8 ≤ offset ∨ offset + 8 ≤ o) :
    getFloat64 (setFloat64 bytes offset x) o = getFloat64 bytes o := by
  rw [getFloat64, setFloat64, readAt_writeAt_beside (by simpa using h), getFloat64]

theorem getFloat64_setUint32 (h : o + 8 ≤ offset ∨ offset + 4 ≤ o) :
    getFloat64 (setUint32 bytes offset n) o = getFloat64 bytes o := by
  rw [getFloat64, setUint32, readAt_writeAt_beside (by simpa using h), getFloat64]

theorem getFloat64_writeAt (h : o + 8 ≤ offset ∨ offset + bs.length ≤ o) :
    getFloat64 (writeAt bytes offset bs) o = getFloat64 bytes o := by
  rw [getFloat64, readAt_writeAt_beside h, getFloat64]

end Fields

section Written

variable (page : MonoRaster)

@[simp] theorem length_writeMonoRaster : (writeMonoRaster page).length =
    monoRasterHeaderBytes + page.pixels.length := by
  simp [writeMonoRaster]

theorem magic_writeMonoRaster : readAt (writeMonoRaster page) 0 8 = monoRasterMagic := by
  have hmagic : monoRasterMagic.length = 8 := rfl
  have hheader : monoRasterHeaderBytes = 64 := rfl
  unfold writeMonoRaster setUint32 setFloat64
  simp (disch := simp [hmagic, hheader]) only [readAt_writeAt_beside]
  refine readAt_writeAt_same rfl ?_
  rw [List.length_replicate]
  omega

theorem getUint32_zeros (k o : ℕ) : getUint32 (List.replicate k 0) o = 0 := by
  have hzero : ∀ m, ofLe (List.replicate m 0) = 0 := by
    intro m
    induction m with
    | zero => rfl
    | succ m ih => simp [List.replicate_succ, ofLe, ih]
  simp [getUint32, readAt, hzero]

/-- The numbers of a header are where they were written. -/
theorem numbers_writeMonoRaster :
    getUint32 (writeMonoRaster page) 8 = toUint32 page.dpi ∧
    getUint32 (writeMonoRaster page) 12 = toUint32 page.widthDots ∧
    getUint32 (writeMonoRaster page) 16 = toUint32 page.heightDots ∧
    getUint32 (writeMonoRaster page) 20 = toUint32 page.stride ∧
    getFloat64 (writeMonoRaster page) 24 = page.widthMm ∧
    getFloat64 (writeMonoRaster page) 32 = page.heightMm ∧
    getUint32 (writeMonoRaster page) 40 = toUint32 page.pixels.length ∧
    getUint32 (writeMonoRaster page) 44 = 0 ∧
    getUint32 (writeMonoRaster page) 48 = toUint32 page.requiredBounds.left ∧
    getUint32 (writeMonoRaster page) 52 = toUint32 page.requiredBounds.top ∧
    getUint32 (writeMonoRaster page) 56 = toUint32 page.requiredBounds.right ∧
    getUint32 (writeMonoRaster page) 60 = toUint32 page.requiredBounds.bottom := by
  have hmagic : monoRasterMagic.length = 8 := rfl
  have hheader : monoRasterHeaderBytes = 64 := rfl
  unfold writeMonoRaster
  simp (disch := simp [hmagic, hheader]) only [getUint32_writeAt, getUint32_beside,
    getUint32_setFloat64, getFloat64_writeAt, getFloat64_setUint32, getFloat64_beside,
    getUint32_zeros, true_and]
  refine ⟨getUint32_same ?_, getUint32_same ?_, getUint32_same ?_, getUint32_same ?_,
    getFloat64_same ?_, getFloat64_same ?_, getUint32_same ?_, getUint32_same ?_,
    getUint32_same ?_, getUint32_same ?_, getUint32_same ?_⟩
  all_goals
    simp only [length_setUint32, length_setFloat64, length_writeAt, List.length_replicate, hheader]
    omega

theorem pixels_writeMonoRaster :
    (writeMonoRaster page).drop monoRasterHeaderBytes = page.pixels := by
  have hread : readAt (writeMonoRaster page) monoRasterHeaderBytes page.pixels.length =
      page.pixels := by
    unfold writeMonoRaster
    exact readAt_writeAt_same rfl (by simp)
  rw [readAt, List.take_of_length_le (by simp)] at hread
  exact hread

end Written

/-! ## What is accepted -/

section Accepted

variable {metadata : MonoRasterMetadata} {page : MonoRaster} {bytes : List UInt8} {length : ℚ}

theorem isUint32_intCast {z : ℤ} (h0 : 0 ≤ z) (h : z < 2 ^ 32) : IsUint32 (z : ℚ) := by
  refine ⟨z.toNat, by omega, ?_⟩
  have hz : ((z.toNat : ℤ) : ℚ) = (z : ℚ) := by rw [Int.toNat_of_nonneg h0]
  exact_mod_cast hz.symm

theorem mmToDots_lt {mm : ℚ} {dpi : PrinterDpi} (h : mm ≤ 300) : mmToDots mm dpi < 2 ^ 32 := by
  have hpage : mmToDots mm dpi ≤ mmToDots 300 dpi := mmToDots_mono h
  have hdots : mmToDots 300 dpi < 2 ^ 32 := by
    rw [mmToDots, mathRound, Int.floor_lt]
    cases dpi <;> norm_num [PrinterDpi.value]
  omega

theorem isSafeInteger_eq {q : ℚ} (h : isSafeInteger q = true) : q = q.num := by
  rw [isSafeInteger, decide_eq_true_eq] at h
  conv_lhs => rw [← Rat.num_div_den q, h.1]
  simp

theorem isUint32_bound {b n : ℚ} (hsafe : isSafeInteger b = true) (h0 : 0 ≤ b) (hle : b ≤ n)
    (hn : IsUint32 n) : IsUint32 b := by
  obtain ⟨k, hk, rfl⟩ := hn
  rw [isSafeInteger_eq hsafe] at h0 hle ⊢
  have h0 : 0 ≤ b.num := by exact_mod_cast h0
  have hle : b.num ≤ k := by exact_mod_cast hle
  exact isUint32_intCast h0 (by omega)

/-- **What a geometry that is accepted says.** -/
theorem geometry_writable (h : geometry metadata = .ok length) :
    metadata.Writable ∧ dpiOf metadata.dpi ≠ none ∧ length = metadata.stride * metadata.heightDots ∧
      length + monoRasterHeaderBytes ≤ monoRasterMaxBytes := by
  unfold geometry at h
  split at h
  · rename_i dpi widthMm heightMm hdpi hw hh
    split at h
    · cases h
    rename_i hchecks
    simp only at h
    split at h
    · cases h
    rename_i hlength
    cases h
    simp only [not_or, not_not, ne_eq] at hchecks
    obtain ⟨hformat, hwmm, hhmm, hwdots, hhdots, hstride, hfit⟩ := hchecks
    obtain ⟨hsafe, hlr, htb, hr, hb⟩ := hfit
    have hwidth : IsUint32 metadata.widthDots := by
      rw [hwdots]
      exact isUint32_intCast (mmToDots_nonneg (by linarith [hwmm.1])) (mmToDots_lt hwmm.2)
    have hheight : IsUint32 metadata.heightDots := by
      rw [hhdots]
      exact isUint32_intCast (mmToDots_nonneg (by linarith [hhmm.1])) (mmToDots_lt hhmm.2)
    have hmem : ∀ n ∈ [metadata.requiredBounds.left, metadata.requiredBounds.top,
        metadata.requiredBounds.right, metadata.requiredBounds.bottom],
        isSafeInteger n = true ∧ 0 ≤ n := hsafe
    refine ⟨⟨hformat, ?_, hwidth, hheight, ?_, ?_, ?_, ?_, ?_⟩, by rw [hdpi]; simp, rfl, ?_⟩
    · unfold dpiOf at hdpi
      split at hdpi
      · rename_i h203
        exact ⟨203, by norm_num, by rw [h203]; norm_num⟩
      split at hdpi
      · rename_i h300
        exact ⟨300, by norm_num, by rw [h300]; norm_num⟩
      · cases hdpi
    · rw [hstride]
      obtain ⟨k, hk, hwk⟩ := hwidth
      have h0 : (0 : ℚ) ≤ metadata.widthDots / 8 := by
        rw [hwk]
        positivity
      have hle : ⌈metadata.widthDots / 8⌉ ≤ (k : ℤ) := by
        rw [Int.ceil_le, hwk]
        push_cast
        have : (0 : ℚ) ≤ k := Nat.cast_nonneg k
        linarith
      exact isUint32_intCast (Int.ceil_nonneg h0) (by omega)
    · obtain ⟨hs, h0⟩ := hmem metadata.requiredBounds.left (by simp)
      exact isUint32_bound hs h0 (hlr.trans hr) hwidth
    · obtain ⟨hs, h0⟩ := hmem metadata.requiredBounds.top (by simp)
      exact isUint32_bound hs h0 (htb.trans hb) hheight
    · obtain ⟨hs, h0⟩ := hmem metadata.requiredBounds.right (by simp)
      exact isUint32_bound hs h0 hr hwidth
    · obtain ⟨hs, h0⟩ := hmem metadata.requiredBounds.bottom (by simp)
      exact isUint32_bound hs h0 hb hheight
    · exact not_lt.1 (not_or.1 hlength).2
  · cases h

structure MonoRaster.Accepted (page : MonoRaster) : Prop where
  writable : page.toMonoRasterMetadata.Writable
  geometry : geometry page.toMonoRasterMetadata = .ok (page.pixels.length : ℚ)
  dpi : dpiOf page.dpi ≠ none
  size : monoRasterHeaderBytes + page.pixels.length ≤ monoRasterMaxBytes
  ink : page.inkAllowed = true

theorem validatePixels_ok : validatePixels page = .ok () ↔ page.Accepted := by
  rw [validatePixels, bind_eq_ok]
  constructor
  · rintro ⟨length, hgeometry, hok⟩
    split at hok
    · cases hok
    rename_i hlength
    split at hok
    · rename_i hink
      obtain ⟨hwritable, hdpi, -, hmax⟩ := geometry_writable hgeometry
      rw [← not_not.1 hlength] at hgeometry hmax
      refine ⟨hwritable, hgeometry, hdpi, ?_, hink⟩
      rw [Nat.add_comm]
      exact_mod_cast hmax
    · cases hok
  · intro h
    refine ⟨_, h.geometry, ?_⟩
    rw [if_neg (not_not.2 rfl), if_pos h.ink]

theorem encodeMonoRaster_ok :
    encodeMonoRaster page = .ok bytes ↔ page.Accepted ∧ bytes = writeMonoRaster page := by
  rw [encodeMonoRaster, bind_eq_ok]
  constructor
  · rintro ⟨⟨⟩, hok, hbytes⟩
    exact ⟨validatePixels_ok.1 hok, (pure_eq_ok.1 hbytes).symm⟩
  · rintro ⟨hpage, rfl⟩
    exact ⟨(), validatePixels_ok.2 hpage, rfl⟩

/-- A page as a reader finds it in bytes. -/
def readPage (bytes : List UInt8) : MonoRaster where
  toMonoRasterMetadata := readMetadata bytes
  pixels := bytes.drop monoRasterHeaderBytes

theorem magic_iff : monoRasterMagic.isPrefixOf bytes = true ↔
    readAt bytes 0 8 = monoRasterMagic := by
  rw [List.isPrefixOf_iff_prefix, List.prefix_iff_eq_take, readAt, List.drop_zero]
  exact eq_comm

theorem decodeMonoRaster_ok : decodeMonoRaster bytes = .ok page ↔
    monoRasterHeaderBytes ≤ bytes.length ∧ readAt bytes 0 8 = monoRasterMagic ∧
      getUint32 bytes 44 = 0 ∧ getUint32 bytes 40 = (page.pixels.length : ℚ) ∧
      page = readPage bytes ∧ page.Accepted := by
  have hlength : monoRasterHeaderBytes ≤ bytes.length → (bytes.length : ℚ) =
      monoRasterHeaderBytes + (readPage bytes).pixels.length := by
    intro h
    have hdrop : bytes.length = monoRasterHeaderBytes + (readPage bytes).pixels.length := by
      rw [readPage, List.length_drop]
      omega
    exact_mod_cast hdrop
  unfold decodeMonoRaster
  constructor
  · intro h
    split at h
    · cases h
    rename_i hbase
    split at h
    · cases h
    rename_i hhead
    simp only [not_or, not_lt, not_not, ne_eq] at hbase hhead
    obtain ⟨length, hgeometry, h⟩ := bind_eq_ok.1 h
    split at h
    · cases h
    rename_i hsize
    simp only [not_or, not_not, ne_eq] at hsize
    obtain ⟨⟨⟩, hvalid, h⟩ := bind_eq_ok.1 h
    obtain rfl : readPage bytes = page := pure_eq_ok.1 h
    have haccepted : (readPage bytes).Accepted := validatePixels_ok.1 hvalid
    refine ⟨hbase.1, magic_iff.1 hbase.2.2, hhead.2, ?_, rfl, haccepted⟩
    have hlen := hlength hbase.1
    rw [hsize.2] at hlen
    rw [hsize.1]
    linarith
  · rintro ⟨h64, hmagic, hzero, hcount, rfl, haccepted⟩
    have hlen := hlength h64
    have hmax : bytes.length ≤ monoRasterMaxBytes := by
      have := haccepted.size
      have hdrop : bytes.length = monoRasterHeaderBytes + (readPage bytes).pixels.length := by
        exact_mod_cast hlen
      omega
    have hdpi : dpiOf (getUint32 bytes 8) ≠ none := haccepted.dpi
    rw [if_neg (by simp [h64, hmax, magic_iff.2 hmagic]), if_neg (by simp [hdpi, hzero])]
    refine bind_eq_ok.2 ⟨_, haccepted.geometry, ?_⟩
    rw [if_neg (by simp [hcount, hlen])]
    exact bind_eq_ok.2 ⟨(), validatePixels_ok.2 haccepted, rfl⟩

end Accepted

/-! ## The codec -/

section Codec

variable {page : MonoRaster} {bytes : List UInt8}

theorem readPage_writeMonoRaster (h : page.toMonoRasterMetadata.Writable) :
    readPage (writeMonoRaster page) = page := by
  obtain ⟨hdpi, hwidth, hheight, hstride, hw, hh, -, -, hleft, htop, hright, hbottom⟩ :=
    numbers_writeMonoRaster page
  obtain ⟨⟨format, widthMm, heightMm, dpi, widthDots, heightDots, stride, bounds⟩, pixels⟩ := page
  obtain ⟨left, top, right, bottom⟩ := bounds
  simp only [readPage, readMetadata, hdpi, hwidth, hheight, hstride, hw, hh, hleft, htop, hright,
    hbottom, pixels_writeMonoRaster, h.dpi.toUint32, h.widthDots.toUint32, h.heightDots.toUint32,
    h.stride.toUint32, h.left.toUint32, h.top.toUint32, h.right.toUint32, h.bottom.toUint32]
  rw [← h.format]

/-- **Written bytes are accepted exactly when the page is.** -/
theorem decode_writeMonoRaster (h : page.toMonoRasterMetadata.Writable) {page' : MonoRaster} :
    decodeMonoRaster (writeMonoRaster page) = .ok page' ↔ page.Accepted ∧ page' = page := by
  obtain ⟨-, -, -, -, -, -, hcount, hzero, -⟩ := numbers_writeMonoRaster page
  rw [decodeMonoRaster_ok, readPage_writeMonoRaster h, hcount]
  constructor
  · rintro ⟨-, -, -, -, rfl, haccepted⟩
    exact ⟨haccepted, rfl⟩
  · rintro ⟨haccepted, rfl⟩
    have hfits : page'.pixels.length < 2 ^ 32 := by
      have hsize := haccepted.size
      have hmax : monoRasterMaxBytes = 2 * 1024 * 1024 := rfl
      omega
    exact ⟨by simp, magic_writeMonoRaster page', hzero, by rw [toUint32_natCast hfits], rfl,
      haccepted⟩

theorem readAt_of_getUint32 {a b : List UInt8} {offset : ℕ} (ha : offset + 4 ≤ a.length)
    (hb : offset + 4 ≤ b.length) (h : getUint32 a offset = getUint32 b offset) :
    readAt a offset 4 = readAt b offset 4 := by
  have hvalue : ofLe (readAt a offset 4) = ofLe (readAt b offset 4) := by
    unfold getUint32 at h
    exact_mod_cast h
  exact (eq_toLe (length_readAt ha) hvalue).trans (eq_toLe (length_readAt hb) rfl).symm

theorem readAt_of_getFloat64 {a b : List UInt8} {offset : ℕ} (ha : offset + 8 ≤ a.length)
    (hb : offset + 8 ≤ b.length) (h : getFloat64 a offset = getFloat64 b offset) :
    readAt a offset 8 = readAt b offset 8 := by
  have hlt : ∀ {c : List UInt8}, offset + 8 ≤ c.length → ofLe (readAt c offset 8) < 2 ^ 64 := by
    intro c hc
    have := ofLe_lt (readAt c offset 8)
    rwa [length_readAt hc] at this
  have hbits : UInt64.ofNat (ofLe (readAt a offset 8)) = UInt64.ofNat (ofLe (readAt b offset 8)) :=
    congrArg Float64.bits h
  have hvalue : ofLe (readAt a offset 8) = ofLe (readAt b offset 8) := by
    have hnat := congrArg UInt64.toNat hbits
    rwa [UInt64.toNat_ofNat_of_lt' (hlt ha), UInt64.toNat_ofNat_of_lt' (hlt hb)] at hnat
  exact (eq_toLe (length_readAt ha) hvalue).trans (eq_toLe (length_readAt hb) rfl).symm

theorem readAt_header (b : List UInt8) : readAt b 0 64 = readAt b 0 8 ++ (readAt b 8 4 ++
    (readAt b 12 4 ++ (readAt b 16 4 ++ (readAt b 20 4 ++ (readAt b 24 8 ++ (readAt b 32 8 ++
    (readAt b 40 4 ++ (readAt b 44 4 ++ (readAt b 48 4 ++ (readAt b 52 4 ++ (readAt b 56 4 ++
    readAt b 60 4))))))))))) := by
  have hcut : (64 : ℕ) =
      8 + (4 + (4 + (4 + (4 + (8 + (8 + (4 + (4 + (4 + (4 + (4 + 4))))))))))) := rfl
  rw [hcut]
  iterate 12 rw [readAt_add]

/-- **Writing a page that was read gives the bytes it was read from.** -/
theorem writeMonoRaster_readPage (h64 : monoRasterHeaderBytes ≤ bytes.length)
    (hmagic : readAt bytes 0 8 = monoRasterMagic) (hzero : getUint32 bytes 44 = 0)
    (hcount : getUint32 bytes 40 = ((readPage bytes).pixels.length : ℚ))
    (haccepted : (readPage bytes).Accepted) : writeMonoRaster (readPage bytes) = bytes := by
  have hheader : monoRasterHeaderBytes = 64 := rfl
  have hlength : (writeMonoRaster (readPage bytes)).length = bytes.length := by
    rw [length_writeMonoRaster, readPage, List.length_drop]
    omega
  have hw : 64 ≤ (writeMonoRaster (readPage bytes)).length := by omega
  have hb : 64 ≤ bytes.length := by omega
  have hfits : IsUint32 ((readPage bytes).pixels.length : ℚ) := by
    have hsize := haccepted.size
    have hmax : monoRasterMaxBytes = 2 * 1024 * 1024 := rfl
    exact ⟨_, by omega, rfl⟩
  have hpage := haccepted.writable
  obtain ⟨hdpi, hwidth, hheight, hstride, hwmm, hhmm, hpixels, hreserved, hleft, htop, hright,
    hbottom⟩ := numbers_writeMonoRaster (readPage bytes)
  rw [hpage.dpi.toUint32] at hdpi
  rw [hpage.widthDots.toUint32] at hwidth
  rw [hpage.heightDots.toUint32] at hheight
  rw [hpage.stride.toUint32] at hstride
  rw [hfits.toUint32, ← hcount] at hpixels
  rw [← hzero] at hreserved
  rw [hpage.left.toUint32] at hleft
  rw [hpage.top.toUint32] at htop
  rw [hpage.right.toUint32] at hright
  rw [hpage.bottom.toUint32] at hbottom
  have hfield : ∀ {offset : ℕ}, offset + 4 ≤ 64 →
      getUint32 (writeMonoRaster (readPage bytes)) offset = getUint32 bytes offset →
      readAt (writeMonoRaster (readPage bytes)) offset 4 = readAt bytes offset 4 := fun ho h =>
    readAt_of_getUint32 (by omega) (by omega) h
  have hhead : readAt (writeMonoRaster (readPage bytes)) 0 64 = readAt bytes 0 64 := by
    rw [readAt_header, readAt_header, magic_writeMonoRaster, hmagic, hfield (by norm_num) hdpi,
      hfield (by norm_num) hwidth, hfield (by norm_num) hheight, hfield (by norm_num) hstride,
      readAt_of_getFloat64 (by omega) (by omega) hwmm,
      readAt_of_getFloat64 (by omega) (by omega) hhmm, hfield (by norm_num) hpixels,
      hfield (by norm_num) hreserved, hfield (by norm_num) hleft, hfield (by norm_num) htop,
      hfield (by norm_num) hright, hfield (by norm_num) hbottom]
  have hsplit : ∀ b : List UInt8, b = readAt b 0 64 ++ b.drop monoRasterHeaderBytes := fun b =>
    (List.take_append_drop 64 b).symm
  rw [hsplit (writeMonoRaster (readPage bytes)), pixels_writeMonoRaster, hhead]
  exact (hsplit bytes).symm

end Codec

/-! ## Ink -/

/-- Whether a dot of a page is black. -/
def MonoRaster.Black (page : MonoRaster) (x y : ℕ) : Prop :=
  bitSet (page.byteAt y (x / 8)) (x % 8) = true

theorem MonoRaster.Accepted.black {page : MonoRaster} (h : page.Accepted) {x y : ℕ}
    (hx : (x : ℚ) < 8 * page.stride) (hy : (y : ℚ) < page.heightDots) (hblack : page.Black x y) :
    (x : ℚ) < page.widthDots ∧ page.requiredBounds.left ≤ x ∧ (x : ℚ) < page.requiredBounds.right ∧
      page.requiredBounds.top ≤ y ∧ (y : ℚ) < page.requiredBounds.bottom := by
  obtain ⟨s, -, hs⟩ := h.writable.stride
  obtain ⟨t, -, ht⟩ := h.writable.heightDots
  have hstride : ⌈page.stride⌉.toNat = s := by
    rw [hs, Int.ceil_natCast, Int.toNat_natCast]
  have hheight : ⌈page.heightDots⌉.toNat = t := by
    rw [ht, Int.ceil_natCast, Int.toNat_natCast]
  have hxs : x < 8 * s := by
    rw [hs] at hx
    exact_mod_cast hx
  have hyt : y < t := by
    rw [ht] at hy
    exact_mod_cast hy
  have hink := h.ink
  rw [MonoRaster.inkAllowed, List.all_eq_true] at hink
  have hrow := hink y (by rw [hheight]; exact List.mem_range.2 hyt)
  have hbyte := List.all_eq_true.1 hrow (x / 8) (by rw [hstride]; exact List.mem_range.2 (by omega))
  have hnonzero : page.byteAt y (x / 8) ≠ 0 := by
    intro hzero
    rw [MonoRaster.Black, hzero] at hblack
    simp [bitSet] at hblack
  simp only [Bool.or_eq_true, beq_iff_eq, hnonzero, false_or] at hbyte
  have hbit := List.all_eq_true.1 hbyte (x % 8) (List.mem_range.2 (Nat.mod_lt _ (by norm_num)))
  have hplace : x / 8 * 8 + x % 8 = x := by omega
  have hset : bitSet (page.byteAt y (x / 8)) (x % 8) = true := hblack
  rw [hset, hplace] at hbit
  simpa [MonoRaster.allows, not_le, not_lt, and_assoc] using hbit

namespace Sample

def rasterPage : MonoRaster where
  format := monoRasterFormat
  widthMm := ⟨0x4024000000000000⟩
  heightMm := ⟨0x4024000000000000⟩
  dpi := 203
  widthDots := 80
  heightDots := 80
  stride := 10
  requiredBounds := ⟨1, 1, 2, 2⟩
  pixels := (List.replicate 800 0).set 10 0x40

end Sample

example : (geometry Sample.rasterPage.toMonoRasterMetadata).toOption = some 800 := by
  decide +kernel

end Markiro
