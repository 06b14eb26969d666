import Markiro.Export.Pieces

/-!
# Splitting a shift export

The parts of an export under a line limit: consecutive runs of pieces, none divided, each with the
lines its count says and no more than the limit, and no fewer parts are possible
(`shift_export_splits`).
-/

namespace Markiro

open Utf16 Results

/-! ## Line feeds in the files -/

section Lines

theorem count_lines {lines : List Units} (hne : lines ≠ []) (h : ∀ l ∈ lines, lineFeed ∉ l) :
    (utf8Bytes (joinWith [lineFeed] lines ++ [lineFeed])).count 10 = lines.length := by
  rw [count_utf8Bytes, count_join h, if_neg hne]
  simp

theorem count_lfText {lines : List Units} (h : ∀ l ∈ lines, lineFeed ∉ l) :
    (encodeLfText lines).count 10 = lines.length := by
  unfold encodeLfText
  split
  · rename_i hlen
    rw [hlen]
    rfl
  · rename_i hlen
    exact count_lines (fun hnil => hlen (by rw [hnil]; rfl)) h

theorem mem_replaceAll {u v : UInt16} {text s : Units} (h : v ∈ replaceAll u text s) :
    v ∈ text ∨ v ∈ s := by
  obtain ⟨x, hx, hv⟩ := List.mem_flatMap.1 h
  split at hv
  · exact .inl hv
  · rw [List.mem_singleton.1 hv]
    exact .inr hx

theorem lineFeed_csvField {s : Units} (h : lineFeed ∉ s) : lineFeed ∉ csvField s := by
  unfold csvField
  split
  · intro hmem
    rcases List.mem_cons.1 hmem with hmem | hmem
    · exact absurd hmem (by decide)
    · rcases List.mem_append.1 hmem with hmem | hmem
      · rcases mem_replaceAll hmem with hmem | hmem
        · exact absurd hmem (by decide)
        · exact h hmem
      · exact absurd hmem (by decide)
  · exact h

theorem mem_join {u : UInt16} {separator : Units} {texts : List Units}
    (h : u ∈ joinWith separator texts) : u ∈ separator ∨ ∃ t ∈ texts, u ∈ t := by
  obtain ⟨t, ht, hu⟩ := List.mem_flatten.1 h
  induction texts with
  | nil => cases ht
  | cons a texts ih =>
    cases texts with
    | nil =>
      rw [List.mem_singleton.1 ht] at hu
      exact .inr ⟨a, by simp, hu⟩
    | cons b texts =>
      rw [List.intersperse_cons_cons, List.mem_cons, List.mem_cons] at ht
      rcases ht with rfl | rfl | ht
      · exact .inr ⟨t, by simp, hu⟩
      · exact .inl hu
      · rcases ih (List.mem_flatten.2 ⟨t, ht, hu⟩) ht with hs | ⟨x, hx, hux⟩
        · exact .inl hs
        · exact .inr ⟨x, List.mem_cons_of_mem _ hx, hux⟩

theorem lineFeed_csvRow {row : List Units} (h : ∀ f ∈ row, lineFeed ∉ f) :
    lineFeed ∉ csvRow row := by
  intro hmem
  rcases mem_join hmem with hmem | ⟨t, ht, hmem⟩
  · exact absurd hmem (by decide)
  · obtain ⟨f, hf, rfl⟩ := List.mem_map.1 ht
    exact lineFeed_csvField (h f hf) hmem

theorem count_csv {mode : ShiftExportBoxMode} {rows : List (List Units)}
    (h : ∀ row ∈ rows, ∀ f ∈ row, lineFeed ∉ f) :
    (encodeSemicolonCsv (csvHeaderFor mode) rows).count 10 = 1 + rows.length := by
  have hheader : csvRow (csvHeaderFor mode) ≠ [] ∧ ∀ f ∈ csvHeaderFor mode, lineFeed ∉ f := by
    cases mode <;> decide
  have hall : ∀ t ∈ (csvHeaderFor mode :: rows).map csvRow, lineFeed ∉ t := by
    intro t ht
    obtain ⟨row, hrow, rfl⟩ := List.mem_map.1 ht
    rcases List.mem_cons.1 hrow with rfl | hrow
    · exact lineFeed_csvRow hheader.2
    · exact lineFeed_csvRow (h row hrow)
  have hne : (joinWith crlf ((csvHeaderFor mode :: rows).map csvRow)).length ≠ 0 := by
    rw [List.map_cons]
    have hpos := List.length_pos_iff.2 hheader.1
    cases rows with
    | nil =>
      show (joinWith crlf [csvRow (csvHeaderFor mode)]).length ≠ 0
      simp only [joinWith, List.intersperse_singleton, List.flatten_singleton]
      omega
    | cons row rows =>
      simp only [joinWith, List.map_cons, List.intersperse_cons_cons, List.flatten_cons,
        List.length_append]
      omega
  unfold encodeSemicolonCsv encodeSemicolonCsvRows
  simp only
  rw [if_neg hne, List.count_append, count_utf8Bytes, count_join hall, if_neg (by simp)]
  have hbom : utf8Bom.count 10 = 0 := by decide
  have hcrlf : crlf.count lineFeed = 1 := by decide
  rw [hbom, hcrlf, List.length_map, List.length_cons]
  omega

end Lines

/-! ## The XML file -/

section Xml

def xmlFile (head : List Units) (packs : List (List Units)) : List UInt8 :=
  utf8Bytes (joinWith [lineFeed] (head ++ packs.flatten ++ xmlTail) ++ [lineFeed])

def boxPack (box : GismtAggregationBox) : List Units := (boxContent box).toOption.getD []

def palletPack (pallet : GismtAggregationPallet) : List Units :=
  (palletContent pallet).toOption.getD []

/-- The attributes, trimmed. -/
def trimDocument (document : GismtAggregationDocument) : GismtAggregationDocument :=
  ⟨ecmaTrim document.documentId, ecmaTrim document.documentNumber, document.fileDateTime,
    document.operationDateTime, ecmaTrim document.organizationName⟩

theorem lineFeed_xmlText {s : Units} (h : lineFeed ∉ s) : lineFeed ∉ xmlText s := by
  intro hmem
  rcases mem_replaceAll hmem with hmem | hmem
  · exact absurd hmem (by decide)
  rcases mem_replaceAll hmem with hmem | hmem
  · exact absurd hmem (by decide)
  rcases mem_replaceAll hmem with hmem | hmem
  · exact absurd hmem (by decide)
  · exact h hmem

theorem lineFeed_xmlAttribute {s : Units} (h : lineFeed ∉ s) : lineFeed ∉ xmlAttribute s := by
  intro hmem
  rcases mem_replaceAll hmem with hmem | hmem
  · exact absurd hmem (by decide)
  · exact lineFeed_xmlText h hmem

theorem lineFeed_of_permitted {before : Option UInt16} {s : Units}
    (h : xmlProhibited before s = false) : lineFeed ∉ s := by
  induction s generalizing before with
  | nil => simp
  | cons u s ih =>
    simp only [xmlProhibited, Bool.or_eq_false_iff, decide_eq_false_iff_not] at h
    intro hmem
    rcases List.mem_cons.1 hmem with hu | hmem
    · exact h.1.1.1 (.inl (hu ▸ by decide))
    · exact ih h.2 hmem

theorem lineFeed_of_columns {pattern s : Units} (hp : lineFeed ∉ pattern)
    (h : hasColumns pattern s = true) : lineFeed ∉ s := by
  simp only [hasColumns, Bool.and_eq_true, decide_eq_true_eq, List.all_eq_true] at h
  obtain ⟨hlen, hall⟩ := h
  intro hmem
  obtain ⟨i, hi, hget⟩ := List.mem_iff_getElem.1 hmem
  have hzip : (lineFeed, pattern[i]) ∈ s.zip pattern := by
    rw [List.mem_iff_getElem]
    exact ⟨i, by rw [List.length_zip]; omega, by rw [List.getElem_zip, hget]⟩
  have := hall _ hzip
  simp only at this
  split at this
  · exact absurd this (by decide)
  · rw [decide_eq_true_eq] at this
    exact hp (this ▸ List.getElem_mem _)

theorem lineFeed_of_timestamp {value : Units} (h : isCanonicalIsoTimestamp value = true) :
    lineFeed ∉ value := by
  simp only [isCanonicalIsoTimestamp, Bool.and_eq_true, Bool.or_eq_true] at h
  obtain ⟨⟨⟨hrest, hyear⟩, -⟩, -⟩ := h
  intro hmem
  rw [← List.take_append_drop (value.length - 20) value] at hmem
  rcases List.mem_append.1 hmem with hmem | hmem
  · rcases hyear with ⟨hsigned | hsigned, -⟩ | hyear
    · exact lineFeed_of_columns (by decide) hsigned hmem
    · exact lineFeed_of_columns (by decide) hsigned hmem
    · exact lineFeed_of_columns (by decide) hyear hmem
  · exact lineFeed_of_columns (by decide) hrest hmem

theorem lineFeed_append {s t : Units} (hs : lineFeed ∉ s) (ht : lineFeed ∉ t) :
    lineFeed ∉ s ++ t := by
  rw [List.mem_append]
  exact fun h => h.elim hs ht

theorem packContent_lines {code : Units} {members : List Units} (hcode : lineFeed ∉ code)
    (hmembers : ∀ m ∈ members, lineFeed ∉ m) :
    (packContent code members).length = 3 + members.length ∧
      ∀ l ∈ packContent code members, lineFeed ∉ l := by
  constructor
  · simp only [packContent, List.length_append, List.length_cons, List.length_map, List.length_nil]
    omega
  · intro l hl
    simp only [packContent, List.mem_append, List.mem_cons, List.mem_map, List.not_mem_nil,
      or_false] at hl
    rcases hl with (rfl | rfl | ⟨m, hm, rfl⟩) | rfl
    · decide
    · exact lineFeed_append (lineFeed_append (by decide) (lineFeed_xmlText hcode))
        (by decide)
    · exact lineFeed_append (lineFeed_append (by decide) (lineFeed_xmlText (hmembers m hm)))
        (by decide)
    · decide

theorem formatGismt_eq {sscc text : Units} (h : formatGismtAggregationSscc sscc = .ok text) :
    lineFeed ∉ text := by
  unfold formatGismtAggregationSscc formatSsccWithAi at h
  split at h
  · rename_i out hout
    split at hout
    · cases hout
    · rename_i hdigits
      obtain rfl := Except.ok.inj hout
      obtain rfl := Except.ok.inj h
      exact (Unbroken.aiSscc (by simpa using hdigits)).1
  · cases h

theorem stripKmCryptoTail_eq {code cis : Units} (h : stripKmCryptoTail code = .ok cis) :
    lineFeed ∉ cis := by
  unfold stripKmCryptoTail at h
  split at h
  · simp only at h
    split at h
    · cases h
    · rename_i hallowed
      obtain rfl := Except.ok.inj h
      exact lineFeed_of_permitted (by simpa using hallowed)
  · cases h

theorem forall_of_mapM {ε α : Type} {f : α → Except ε Units} {l : List α} {out : List Units}
    (h : l.mapM f = .ok out) (hf : ∀ a b, f a = .ok b → lineFeed ∉ b) :
    out.length = l.length ∧ ∀ b ∈ out, lineFeed ∉ b := by
  have h2 := mapM_eq_ok.1 h
  clear h
  induction h2 with
  | nil => simp
  | cons hab _ ih =>
    refine ⟨by simp [ih.1], fun b hb => ?_⟩
    rcases List.mem_cons.1 hb with rfl | hb
    · exact hf _ _ hab
    · exact ih.2 b hb

theorem content_lines {α : Type} {sscc : Units} {content : List α} {read : α → Gismt Units}
    {lines : List Units} (hread : ∀ a b, read a = .ok b → lineFeed ∉ b)
    (h : (do
      let code ← formatGismtAggregationSscc sscc
      let members ← content.mapM read
      return packContent code members) = .ok lines) :
    lines.length = 3 + content.length ∧ ∀ l ∈ lines, lineFeed ∉ l := by
  obtain ⟨code, hcode, h⟩ := bind_eq_ok.1 h
  obtain ⟨members, hmembers, h⟩ := bind_eq_ok.1 h
  obtain rfl := pure_eq_ok.1 h
  obtain ⟨hlen, hall⟩ := forall_of_mapM hmembers hread
  exact hlen ▸ packContent_lines (formatGismt_eq hcode) hall

theorem boxContent_lines {box : GismtAggregationBox} {lines : List Units}
    (h : boxContent box = .ok lines) :
    lines.length = gismtAggregationBoxLineCount box ∧ ∀ l ∈ lines, lineFeed ∉ l :=
  content_lines (fun _ _ => stripKmCryptoTail_eq) h

theorem palletContent_lines {pallet : GismtAggregationPallet} {lines : List Units}
    (h : palletContent pallet = .ok lines) :
    lines.length = gismtAggregationPalletLineCount pallet ∧ ∀ l ∈ lines, lineFeed ∉ l :=
  content_lines (fun _ _ => formatGismt_eq) h

theorem flatten_lines {α : Type} {content : α → Gismt (List Units)} {count : α → ℕ} {l : List α}
    {out : List (List Units)} (h : l.mapM content = .ok out)
    (hcontent : ∀ a lines, content a = .ok lines → lines.length = count a ∧
      ∀ x ∈ lines, lineFeed ∉ x) :
    (out = l.map (fun a => (content a).toOption.getD []) ∧
        ∀ a ∈ l, content a = .ok ((content a).toOption.getD [])) ∧
      out.flatten.length = (l.map count).sum ∧ ∀ x ∈ out.flatten, lineFeed ∉ x := by
  have h2 := mapM_eq_ok.1 h
  clear h
  induction h2 with
  | nil => simp
  | @cons a lines l out hab _ ih =>
    obtain ⟨hlen, hall⟩ := hcontent a lines hab
    obtain ⟨⟨h1, h1'⟩, h2, h3⟩ := ih
    refine ⟨⟨?_, fun b hb => ?_⟩, ?_, fun x hx => ?_⟩
    · rw [List.map_cons, hab, ← h1]
      rfl
    · rcases List.mem_cons.1 hb with rfl | hb
      · rw [hab]
        rfl
      · exact h1' b hb
    · rw [List.flatten_cons, List.length_append, hlen, h2, List.map_cons, List.sum_cons]
    · rw [List.flatten_cons, List.mem_append] at hx
      exact hx.elim (hall x) (h3 x)

theorem validateDocument_ok {document valid : GismtAggregationDocument}
    (h : validateDocument document = .ok valid) : valid = trimDocument document ∧
      (lineFeed ∉ valid.documentId ∧ lineFeed ∉ valid.documentNumber ∧
        lineFeed ∉ valid.organizationName ∧ lineFeed ∉ valid.fileDateTime ∧
        lineFeed ∉ valid.operationDateTime) := by
  unfold validateDocument at h
  simp only at h
  split at h
  · cases h
  · rename_i hvalid
    simp only [not_or, Bool.not_eq_false] at hvalid
    obtain ⟨h1, h2, h3, h4, h5⟩ := hvalid
    have hwithin : ∀ {value : Units} {n : ℕ}, isWithinLength value n = true → lineFeed ∉ value := by
      intro value n hw
      simp only [isWithinLength, Bool.and_eq_true, Bool.not_eq_true'] at hw
      exact lineFeed_of_permitted hw.2
    obtain rfl := Except.ok.inj h
    exact ⟨rfl, hwithin h1, hwithin h2, hwithin h3, lineFeed_of_timestamp h4,
      lineFeed_of_timestamp h5⟩

theorem lineFeed_xmlHead {document : GismtAggregationDocument} {organizationInn : Units}
    (hinn : lineFeed ∉ organizationInn) (h : lineFeed ∉ document.documentId ∧
      lineFeed ∉ document.documentNumber ∧ lineFeed ∉ document.organizationName ∧
      lineFeed ∉ document.fileDateTime ∧ lineFeed ∉ document.operationDateTime) :
    ∀ l ∈ xmlHead document organizationInn, lineFeed ∉ l := by
  obtain ⟨h1, h2, h3, h4, h5⟩ := h
  intro l hl
  simp only [xmlHead, List.mem_cons, List.not_mem_nil, or_false] at hl
  rcases hl with rfl | rfl | rfl | rfl | rfl | rfl | rfl | rfl
  · decide
  · refine lineFeed_append (lineFeed_append (lineFeed_append (lineFeed_append (by decide)
      (lineFeed_xmlAttribute h1)) (by decide)) (lineFeed_xmlAttribute h4)) (by decide)
  · refine lineFeed_append (lineFeed_append (lineFeed_append (lineFeed_append (by decide)
      (lineFeed_xmlAttribute h5)) (by decide)) (lineFeed_xmlAttribute h2)) (by decide)
  · decide
  · decide
  · refine lineFeed_append (lineFeed_append (lineFeed_append (lineFeed_append (by decide)
      (lineFeed_xmlAttribute h3)) (by decide)) (lineFeed_xmlAttribute hinn))
      (by decide)
  · decide
  · decide

theorem xmlHead_length (document : GismtAggregationDocument) (organizationInn : Units) :
    (xmlHead document organizationInn).length = 8 := rfl

theorem xmlTail_length : xmlTail.length = 2 := rfl

theorem lineFeed_xmlTail : ∀ l ∈ xmlTail, lineFeed ∉ l := by decide

/-- **The XML file**: its packs, boxes before pallets, and the lines its count says. -/
theorem renderGismtAggregationXml_ok {organizationInn : Units} {document : GismtAggregationDocument}
    {boxes : List GismtAggregationBox} {pallets : List GismtAggregationPallet}
    {result : GismtAggregationRenderResult}
    (h : renderGismtAggregationXml organizationInn document boxes pallets = .ok result) :
    result.bytes = xmlFile (xmlHead (trimDocument document) (ecmaTrim organizationInn))
        (boxes.map boxPack ++ pallets.map palletPack) ∧
      result.physicalLineCount = 10 + ((boxes.map gismtAggregationBoxLineCount).sum +
        (pallets.map gismtAggregationPalletLineCount).sum) ∧
      result.bytes.count 10 = result.physicalLineCount ∧
      result.codeCount = (boxes.map fun box => box.codes.length).sum ∧
      result.boxCount = boxes.length ∧
      (∀ box ∈ boxes, boxContent box = .ok (boxPack box)) ∧
      ∀ pallet ∈ pallets, palletContent pallet = .ok (palletPack pallet) := by
  unfold renderGismtAggregationXml at h
  simp only at h
  split at h
  · cases h
  split at h
  · cases h
  rename_i hinn
  obtain ⟨valid, hvalid, h⟩ := bind_eq_ok.1 h
  obtain ⟨boxLines, hboxes, h⟩ := bind_eq_ok.1 h
  obtain ⟨palletLines, hpallets, h⟩ := bind_eq_ok.1 h
  obtain rfl := pure_eq_ok.1 h
  obtain ⟨rfl, hdoc⟩ := validateDocument_ok hvalid
  obtain ⟨⟨hb, hbok⟩, hblen, hbfeed⟩ := flatten_lines hboxes fun _ _ => boxContent_lines
  obtain ⟨⟨hp, hpok⟩, hplen, hpfeed⟩ := flatten_lines hpallets fun _ _ => palletContent_lines
  have hinnFeed : lineFeed ∉ ecmaTrim organizationInn := by
    have hdigits : isDigits 10 (ecmaTrim organizationInn) = true := by
      simp only [isOrganizationInn, Bool.and_eq_false_iff, not_or, Bool.not_eq_false] at hinn
      exact hinn.1
    exact (Unbroken.of_isDigits hdigits).1
  have hfeed : ∀ l ∈ xmlHead (trimDocument document) (ecmaTrim organizationInn) ++ boxLines.flatten ++
      palletLines.flatten ++ xmlTail, lineFeed ∉ l := by
    intro l hl
    rcases List.mem_append.1 hl with hl | hl
    · rcases List.mem_append.1 hl with hl | hl
      · rcases List.mem_append.1 hl with hl | hl
        · exact lineFeed_xmlHead hinnFeed hdoc l hl
        · exact hbfeed l hl
      · exact hpfeed l hl
    · exact lineFeed_xmlTail l hl
  have hne : xmlHead (trimDocument document) (ecmaTrim organizationInn) ++ boxLines.flatten ++
      palletLines.flatten ++ xmlTail ≠ [] := by
    simp [xmlTail]
  have hcount := count_lines hne hfeed
  simp only [List.length_append, hblen, hplen, xmlHead_length, xmlTail_length] at hcount
  refine ⟨?_, ?_, ?_, rfl, rfl, hbok, hpok⟩
  · have hpacks : boxLines.flatten ++ palletLines.flatten =
        (boxes.map boxPack ++ pallets.map palletPack).flatten := by
      rw [hb, hp, List.flatten_append]
      rfl
    simp only [xmlFile, ← hpacks, List.append_assoc]
  · simp only [gismtAggregationOverheadLineCount]
    omega
  · simp only [hcount, gismtAggregationOverheadLineCount]
    omega

end Xml

/-! ## The loop -/

section Loop

variable {header n : ℕ}

def ShiftExportPartBlocks.Counted (header : ℕ) (part : ShiftExportPartBlocks) : Prop :=
  part.physicalLineCount = header + (part.blocks.map (·.physicalLineCount)).sum

/-- **The loop cuts as late as it can**, and every block alone is within the limit. -/
theorem splitLoop_ok {parts out : List ShiftExportPartBlocks} {current : ShiftExportPartBlocks}
    {blocks : List ShiftExportBlock} (h : splitLoop header n parts current blocks = .ok out)
    (hcurrent : current.Counted header) (hparts : ∀ part ∈ parts, part.Counted header) :
    out.map (·.blocks) = parts.map (·.blocks) ++
        Chunks.greedy (·.physicalLineCount) header n current.blocks blocks ∧
      (∀ block ∈ blocks, header + block.physicalLineCount ≤ n) ∧
      ∀ part ∈ out, part.Counted header := by
  have happend : ∀ {part : ShiftExportPartBlocks}, part.Counted header →
      ∀ q ∈ parts ++ [part], q.Counted header := by
    intro part hpart q hq
    rcases List.mem_append.1 hq with hq | hq
    · exact hparts q hq
    · rw [List.mem_singleton.1 hq]
      exact hpart
  induction blocks generalizing parts current with
  | nil =>
    obtain rfl := Except.ok.inj h
    refine ⟨by simp [Chunks.greedy], by simp, happend hcurrent⟩
  | cons block rest ih =>
    rw [splitLoop] at h
    split at h
    · cases h
    rename_i hfits
    have hsingle : ShiftExportPartBlocks.Counted header
        ⟨[block], header + block.physicalLineCount⟩ := by
      simp [ShiftExportPartBlocks.Counted]
    have hjoined : ShiftExportPartBlocks.Counted header ⟨current.blocks ++ [block],
        current.physicalLineCount + block.physicalLineCount⟩ := by
      unfold ShiftExportPartBlocks.Counted at hcurrent ⊢
      simp only [List.map_append, List.sum_append, List.map_singleton, List.sum_singleton]
      omega
    have hcut : (0 < current.blocks.length ∧
          n < current.physicalLineCount + block.physicalLineCount) ↔
        (current.blocks ≠ [] ∧ n < header + (current.blocks.map (·.physicalLineCount)).sum +
          block.physicalLineCount) := by
      rw [List.length_pos_iff, hcurrent]
    rw [Chunks.greedy]
    split at h
    · rename_i hc
      rw [if_pos (hcut.1 hc)]
      obtain ⟨h1, h2, h3⟩ := ih h hsingle (happend hcurrent) fun {part} hpart q hq => by
        rcases List.mem_append.1 hq with hq | hq
        · exact happend hcurrent q hq
        · rw [List.mem_singleton.1 hq]
          exact hpart
      refine ⟨?_, ?_, h3⟩
      · rw [h1]
        simp
      · intro b hb
        rcases List.mem_cons.1 hb with rfl | hb
        · omega
        · exact h2 b hb
    · rename_i hc
      rw [if_neg fun hc' => hc (hcut.2 hc')]
      obtain ⟨h1, h2, h3⟩ := ih h hjoined hparts happend
      refine ⟨h1, ?_, h3⟩
      intro b hb
      rcases List.mem_cons.1 hb with rfl | hb
      · omega
      · exact h2 b hb

end Loop

/-! ## The file of a part -/

def xmlPacks (d : ShiftExportFormatDescriptor) (run : List Piece) : List (List Units) :=
  (run.flatMap (Piece.boxes d)).map boxPack ++ (run.flatMap Piece.pallets).map palletPack

def partDocument (input : RenderShiftExportInput) (base : ShiftExportDocumentMetadata)
    (partNumber : ℕ) (hasMultipleParts : Bool) : GismtAggregationDocument :=
  trimDocument (documentFor base (ecmaTrim (input.organizationName.getD [])) partNumber
    hasMultipleParts)

/-- A part is the file of a run of pieces, and its counts are those of the pieces and of its bytes. -/
structure IsFile (d : ShiftExportFormatDescriptor) (input : RenderShiftExportInput)
    (i : ℕ) (hasMultipleParts : Bool) (run : List Piece) (part : ShiftExportPart) : Prop where
  partNumber : part.partNumber = i
  text : d.extension = .txt → part.bytes = encodeLfText (run.flatMap (Piece.lines d))
  csv : d.extension = .csv →
    part.bytes = encodeSemicolonCsv (csvHeaderFor d.boxMode) (run.flatMap (Piece.rows d))
  xml : d.extension = .xml → ∃ base, input.document = some base ∧
    part.bytes = xmlFile (xmlHead (partDocument input base i hasMultipleParts)
      (ecmaTrim (input.organizationInn.getD []))) (xmlPacks d run)
  packs : d.extension = .xml →
    (∀ box ∈ run.flatMap (Piece.boxes d), boxContent box = .ok (boxPack box)) ∧
      ∀ pallet ∈ run.flatMap Piece.pallets, palletContent pallet = .ok (palletPack pallet)
  lineFeeds : part.physicalLineCount = part.bytes.count 10
  lines : part.physicalLineCount = headerLines d + (run.map (Piece.weight d)).sum
  codeCount : part.codeCount = (run.map Piece.codeCount).sum
  boxCount : part.boxCount = (run.map Piece.boxCount).sum
  palletCount : part.palletCount = (run.map Piece.palletCount).sum

section File

variable {d : ShiftExportFormatDescriptor} {run : List Piece} {blocks : List ShiftExportBlock}

theorem Holds.flatMap_lines (h : List.Forall₂ (Holds d) run blocks) (he : d.extension = .txt) :
    blocks.flatMap (fun block => block.lines.getD []) = run.flatMap (Piece.lines d) := by
  induction h with
  | nil => rfl
  | cons hp _ ih =>
    rw [List.flatMap_cons, List.flatMap_cons, ih, hp.lines he]
    rfl

theorem Holds.flatMap_rows (h : List.Forall₂ (Holds d) run blocks) (he : d.extension = .csv) :
    blocks.flatMap (fun block => block.csvRows.getD []) = run.flatMap (Piece.rows d) := by
  induction h with
  | nil => rfl
  | cons hp _ ih =>
    rw [List.flatMap_cons, List.flatMap_cons, ih, hp.rows he]
    rfl

theorem Holds.xmlBoxes (h : List.Forall₂ (Holds d) run blocks) (he : d.extension = .xml) :
    blocks.mapM collectXmlBoxes = .ok (run.map (Piece.boxes d)) := by
  rw [mapM_eq_ok, List.forall₂_map_right_iff]
  exact h.flip.imp fun _ _ hp => hp.boxes he

theorem Holds.xmlPallets (h : List.Forall₂ (Holds d) run blocks) (he : d.extension = .xml) :
    blocks.flatMap collectXmlPallets = run.flatMap Piece.pallets := by
  induction h with
  | nil => rfl
  | cons hp _ ih => rw [List.flatMap_cons, List.flatMap_cons, ih, hp.pallets he]

theorem Holds.sum {f : ShiftExportBlock → ℕ} {g : Piece → ℕ} (h : List.Forall₂ (Holds d) run blocks)
    (hfg : ∀ p block, Holds d p block → f block = g p) : (blocks.map f).sum = (run.map g).sum := by
  induction h with
  | nil => rfl
  | cons hp _ ih => rw [List.map_cons, List.map_cons, List.sum_cons, List.sum_cons, hfg _ _ hp, ih]

theorem sum_flatMap {α β : Type} {f : α → List β} {g : β → ℕ} {k : α → ℕ} {l : List α}
    (h : ∀ a ∈ l, ((f a).map g).sum = k a) : ((l.flatMap f).map g).sum = (l.map k).sum := by
  induction l with
  | nil => rfl
  | cons a l ih =>
    rw [List.flatMap_cons, List.map_append, List.sum_append, h a List.mem_cons_self,
      ih fun b hb => h b (List.mem_cons_of_mem _ hb), List.map_cons, List.sum_cons]

theorem lineFeed_lines {p : Piece} (h : p.Clean) : ∀ l ∈ p.lines d, lineFeed ∉ l := by
  have hbox : ∀ b : GismtAggregationBox, b.Clean → ∀ l ∈ boxLines d b, lineFeed ∉ l := by
    intro b hb l hl
    have hsscc := (Unbroken.boxSscc d hb.sscc).1
    have hcodes : ∀ c ∈ b.codes, lineFeed ∉ c := fun c hc => (hb.codes c hc).unbroken.1
    unfold boxLines at hl
    split at hl
    · simp only [List.mem_append, List.mem_cons, List.not_mem_nil, or_false] at hl
      rcases hl with hl | rfl | rfl
      · exact hcodes l hl
      · exact hsscc
      · simp
    · simp only [List.mem_append, List.mem_cons, List.not_mem_nil, or_false] at hl
      rcases hl with (rfl | hl) | rfl
      · exact hsscc
      · exact hcodes l hl
      · simp
  cases p with
  | code c =>
    intro l hl
    rw [List.mem_singleton.1 hl]
    exact CanonicalKm.unbroken h |>.1
  | box b => exact hbox b h
  | pallet p =>
    obtain ⟨hsscc, hboxes⟩ := h
    intro l hl
    rw [Piece.lines] at hl
    split at hl
    · simp only [List.mem_append, List.mem_cons, List.mem_map, List.not_mem_nil, or_false] at hl
      rcases hl with (rfl | ⟨b, hb, rfl⟩) | rfl
      · exact (Unbroken.aiSscc hsscc).1
      · exact (Unbroken.aiSscc (hboxes b hb).sscc).1
      · simp
    · rcases List.mem_cons.1 hl with rfl | hl
      · exact (Unbroken.aiSscc hsscc).1
      · obtain ⟨b, hb, hl⟩ := List.mem_flatMap.1 hl
        exact hbox b (hboxes b hb) l hl

theorem lineFeed_rows {p : Piece} (h : p.Clean) : ∀ row ∈ p.rows d, ∀ f ∈ row, lineFeed ∉ f := by
  cases p with
  | code c =>
    intro row hrow f hf
    rw [List.mem_singleton.1 hrow, List.mem_singleton] at hf
    rw [hf]
    exact CanonicalKm.unbroken h |>.1
  | box b =>
    intro row hrow f hf
    obtain ⟨c, hc, rfl⟩ := List.mem_map.1 hrow
    have hsscc := (Unbroken.boxSscc d h.sscc).1
    have hcode := (h.codes c hc).unbroken.1
    split at hf
    · simp only [List.mem_cons, List.not_mem_nil, or_false] at hf
      rcases hf with rfl | rfl
      · exact hsscc
      · exact hcode
    · simp only [List.mem_cons, List.not_mem_nil, or_false] at hf
      rcases hf with rfl | rfl | rfl
      · simp
      · exact hsscc
      · exact hcode
  | pallet p =>
    obtain ⟨hsscc, hboxes⟩ := h
    intro row hrow f hf
    obtain ⟨b, hb, hrow⟩ := List.mem_flatMap.1 hrow
    obtain ⟨c, hc, rfl⟩ := List.mem_map.1 hrow
    simp only [List.mem_cons, List.not_mem_nil, or_false] at hf
    rcases hf with rfl | rfl | rfl
    · exact (Unbroken.aiSscc hsscc).1
    · exact (Unbroken.aiSscc (hboxes b hb).sscc).1
    · exact ((hboxes b hb).codes f hc).unbroken.1

theorem headerLines_eq : headerLines d = match d.extension with
    | .txt => 0
    | .csv => 1
    | .xml => 10 := by
  unfold headerLines
  cases d.extension <;> rfl

/-- What a format writes of a box or a pallet is counted as the pieces are, but where a pallet's
boxes are only named. -/
theorem written_counts (hrun : ∀ p ∈ run, ∀ c, p ≠ .code c) (hmode : d.boxMode ≠ .palletBoxes) :
    ((run.flatMap (Piece.boxes d)).map fun box => box.codes.length).sum =
        (run.map Piece.codeCount).sum ∧
      (run.flatMap (Piece.boxes d)).length = (run.map Piece.boxCount).sum := by
  constructor
  · refine sum_flatMap fun p hp => ?_
    cases p with
    | code c => exact absurd rfl (hrun _ hp c)
    | box b => simp [Piece.boxes, Piece.codeCount]
    | pallet p => simp [Piece.boxes, Piece.codeCount, hmode]
  · rw [List.length_flatMap]
    congr 1
    refine List.map_congr_left fun p hp => ?_
    cases p with
    | code c => exact absurd rfl (hrun _ hp c)
    | box b => rfl
    | pallet p => simp [Piece.boxes, Piece.boxCount, hmode]

/-- **A part's file is that of its pieces.** -/
theorem renderPart_isFile {sanitize : Units → Units} {input : RenderShiftExportInput}
    {document : Option ShiftExportDocumentMetadata} {i : ℕ} {multiple : Bool}
    {part : ShiftExportPartBlocks} {file : ShiftExportPart}
    (hholds : List.Forall₂ (Holds d) run part.blocks) (hcounted : part.Counted (headerLines d))
    (hclean : ∀ p ∈ run, p.Clean) (hrun : d.extension = .xml → ∀ p ∈ run, ∀ c, p ≠ .code c)
    (hdocument : document = if d.extension = .xml then input.document else none)
    (hxml : d.extension = .xml → document ≠ none)
    (h : renderPart sanitize d input (ecmaTrim (input.organizationInn.getD []))
      (ecmaTrim (input.organizationName.getD [])) document multiple part i = .ok file) :
    IsFile d input i multiple run file := by
  unfold renderPart at h
  obtain ⟨xmlRendered, hrendered, h⟩ := bind_eq_ok.1 h
  obtain rfl := pure_eq_ok.1 h
  have hweight : (part.blocks.map (·.physicalLineCount)).sum = (run.map (Piece.weight d)).sum :=
    Holds.sum hholds fun _ _ hp => hp.weight
  have hcodes : (part.blocks.map (·.codeCount)).sum = (run.map Piece.codeCount).sum :=
    Holds.sum hholds fun _ _ hp => hp.codeCount
  have hboxes : (part.blocks.map (·.boxCount)).sum = (run.map Piece.boxCount).sum :=
    Holds.sum hholds fun _ _ hp => hp.boxCount
  have hpallets : (part.blocks.map fun block => block.palletCount.getD 0).sum =
      (run.map Piece.palletCount).sum := Holds.sum hholds fun _ _ hp => hp.palletCount
  rw [ShiftExportPartBlocks.Counted, hweight] at hcounted
  cases he : d.extension with
  | xml =>
    obtain ⟨base, hbase⟩ := Option.ne_none_iff_exists'.1 (hxml he)
    rw [hbase, if_pos he] at hdocument
    rw [hbase, renderDocumentPart] at hrendered
    obtain ⟨result, hresult, rfl⟩ := map_eq_ok.1 hrendered
    unfold renderXmlPart at hresult
    obtain ⟨boxes, hcollected, hresult⟩ := bind_eq_ok.1 hresult
    rw [Holds.xmlBoxes hholds he] at hcollected
    obtain rfl := Except.ok.inj hcollected
    split at hresult
    · rename_i out hout
      obtain rfl := Except.ok.inj hresult
      rw [Holds.xmlPallets hholds he, ← List.flatMap_def] at hout
      obtain ⟨hbytes, hlines, hfeeds, hcode, hbox, hpacks⟩ := renderGismtAggregationXml_ok hout
      have htrim : ecmaTrim (ecmaTrim (input.organizationInn.getD [])) =
          ecmaTrim (input.organizationInn.getD []) := trimBy_eq_self (trimBy_bare _)
      rw [htrim] at hbytes
      have hsum : (run.map (Piece.weight d)).sum =
          ((run.flatMap (Piece.boxes d)).map gismtAggregationBoxLineCount).sum +
            ((run.flatMap Piece.pallets).map gismtAggregationPalletLineCount).sum := by
        rw [sum_flatMap fun _ _ => rfl, sum_flatMap fun _ _ => rfl, ← List.sum_map_add]
        congr 1
        refine List.map_congr_left fun p _ => ?_
        rw [Piece.weight, he]
      refine ⟨rfl, fun h' => ?_, fun h' => ?_, fun _ => ⟨base, hdocument.symm, hbytes⟩,
        fun _ => hpacks, hfeeds.symm, ?_, ?_, ?_, hpallets⟩
      · exact absurd (he.symm.trans h') (by decide)
      · exact absurd (he.symm.trans h') (by decide)
      · rw [headerLines_eq, he, hsum]
        exact hlines
      · by_cases hmode : d.boxMode = .palletBoxes
        · simp [hmode, hcodes]
        · simp [hmode, hcode, (written_counts (hrun he) hmode).1]
      · by_cases hmode : d.boxMode = .palletBoxes
        · simp [hmode, hboxes]
        · simp [hmode, hbox, (written_counts (hrun he) hmode).2]
    · cases hresult
  | txt =>
    have hnone : document = none := by
      rw [hdocument, he]
      rfl
    rw [hnone, renderDocumentPart] at hrendered
    obtain rfl := Except.ok.inj hrendered
    have hbytes : encodePart d part.blocks = encodeLfText (run.flatMap (Piece.lines d)) := by
      rw [encodePart, he, if_neg (by decide), Holds.flatMap_lines hholds he]
    have hfeeds := @count_lfText (run.flatMap (Piece.lines d)) fun l hl => by
      obtain ⟨p, hp, hl⟩ := List.mem_flatMap.1 hl
      exact lineFeed_lines (hclean p hp) l hl
    have hlength : (run.flatMap (Piece.lines d)).length = (run.map (Piece.weight d)).sum := by
      rw [List.length_flatMap]
      congr 1
      refine List.map_congr_left fun p _ => ?_
      rw [Piece.weight, he]
    refine ⟨rfl, fun _ => hbytes, fun h' => ?_, fun h' => ?_, fun h' => ?_, ?_, hcounted, ?_, ?_,
      hpallets⟩
    · exact absurd (he.symm.trans h') (by decide)
    · exact absurd (he.symm.trans h') (by decide)
    · exact absurd (he.symm.trans h') (by decide)
    · show part.physicalLineCount = (encodePart d part.blocks).count 10
      rw [hbytes, hfeeds, hlength, hcounted, headerLines_eq, he]
      exact Nat.zero_add _
    · simpa using hcodes
    · simpa using hboxes
  | csv =>
    have hnone : document = none := by
      rw [hdocument, he]
      rfl
    rw [hnone, renderDocumentPart] at hrendered
    obtain rfl := Except.ok.inj hrendered
    have hbytes : encodePart d part.blocks =
        encodeSemicolonCsv (csvHeaderFor d.boxMode) (run.flatMap (Piece.rows d)) := by
      rw [encodePart, if_pos he, Holds.flatMap_rows hholds he]
    have hfeeds := @count_csv d.boxMode (run.flatMap (Piece.rows d)) fun row hrow => by
      obtain ⟨p, hp, hrow⟩ := List.mem_flatMap.1 hrow
      exact lineFeed_rows (hclean p hp) row hrow
    have hlength : (run.flatMap (Piece.rows d)).length = (run.map (Piece.weight d)).sum := by
      rw [List.length_flatMap]
      congr 1
      refine List.map_congr_left fun p _ => ?_
      rw [Piece.weight, he]
    refine ⟨rfl, fun h' => ?_, fun _ => hbytes, fun h' => ?_, fun h' => ?_, ?_, hcounted, ?_, ?_,
      hpallets⟩
    · exact absurd (he.symm.trans h') (by decide)
    · exact absurd (he.symm.trans h') (by decide)
    · exact absurd (he.symm.trans h') (by decide)
    · show part.physicalLineCount = (encodePart d part.blocks).count 10
      rw [hbytes, hfeeds, hlength, hcounted, headerLines_eq, he]
    · simpa using hcodes
    · simpa using hboxes

end File

/-! ## The export -/

section Export

variable {sanitize : Units → Units} {input : RenderShiftExportInput} {parts : List ShiftExportPart}

/-- What an export that returns has done. -/
structure Rendered (sanitize : Units → Units) (input : RenderShiftExportInput)
    (d : ShiftExportFormatDescriptor) (document : Option ShiftExportDocumentMetadata)
    (blocks : List ShiftExportBlock) (partBlocks : List ShiftExportPartBlocks)
    (parts : List ShiftExportPart) : Prop where
  format : getShiftExportFormat input.formatId input.formatVersion = .ok d
  mode : input.source.mode = shiftExportSourceModeFor d.boxMode
  date : isShiftDate input.shiftDate = true
  limit : validateLineLimit input.maxLines = .ok ()
  required : requireDocument d (ecmaTrim (input.organizationInn.getD []))
    (ecmaTrim (input.organizationName.getD [])) input.document = .ok document
  created : createBlocks d input.source = .ok blocks
  whole : ∃ rendered, renderDocumentPart (ecmaTrim (input.organizationInn.getD []))
    (ecmaTrim (input.organizationName.getD [])) document 1 false blocks = .ok rendered
  codes : (blocks.map (·.codeCount)).sum ≠ 0
  split : splitBlocks d blocks (input.maxLines.map fun n => n.num.toNat) = .ok partBlocks
  files : (partBlocks.zipIdx 1).mapM (fun x => renderPart sanitize d input
    (ecmaTrim (input.organizationInn.getD [])) (ecmaTrim (input.organizationName.getD [])) document
    (decide (1 < partBlocks.length)) x.1 x.2) = .ok parts

theorem renderShiftExport_ok_iff : renderShiftExport sanitize input = .ok parts ↔
    ∃ d document blocks partBlocks, Rendered sanitize input d document blocks partBlocks parts := by
  unfold renderShiftExport
  constructor
  · intro h
    obtain ⟨d, hformat, h⟩ := bind_eq_ok.1 h
    split at h
    · cases h
    rename_i hmode
    split at h
    · cases h
    rename_i hdate
    obtain ⟨_, hlimit, h⟩ := bind_eq_ok.1 h
    obtain ⟨document, hdocument, h⟩ := bind_eq_ok.1 h
    obtain ⟨blocks, hblocks, h⟩ := bind_eq_ok.1 h
    obtain ⟨rendered, hwhole, h⟩ := bind_eq_ok.1 h
    split at h
    · cases h
    rename_i hcodes
    obtain ⟨partBlocks, hsplit, h⟩ := bind_eq_ok.1 h
    exact ⟨d, document, blocks, partBlocks, hformat, not_not.1 hmode, by simpa using hdate, hlimit,
      hdocument, hblocks, ⟨rendered, hwhole⟩, hcodes, hsplit, h⟩
  · rintro ⟨d, document, blocks, partBlocks, h⟩
    obtain ⟨rendered, hwhole⟩ := h.whole
    refine bind_eq_ok.2 ⟨d, h.format, ?_⟩
    rw [if_neg (not_not.2 h.mode), if_neg (by simp [h.date])]
    refine bind_eq_ok.2 ⟨(), h.limit, bind_eq_ok.2 ⟨document, h.required,
      bind_eq_ok.2 ⟨blocks, h.created, bind_eq_ok.2 ⟨rendered, hwhole, ?_⟩⟩⟩⟩
    rw [if_neg h.codes]
    exact bind_eq_ok.2 ⟨partBlocks, h.split, h.files⟩

/-! ### What the parts are cut from -/

section Cut

variable {d : ShiftExportFormatDescriptor} {document : Option ShiftExportDocumentMetadata}
  {blocks : List ShiftExportBlock} {partBlocks : List ShiftExportPartBlocks}

theorem Rendered.holds (h : Rendered sanitize input d document blocks partBlocks parts)
    (hclean : input.source.Clean) :
    List.Forall₂ (Holds d) (input.source.pieces d.boxMode) blocks :=
  createBlocks_holds (registered_of_get h.format) hclean h.mode h.created

theorem Rendered.pieces_ne_nil (h : Rendered sanitize input d document blocks partBlocks parts)
    (hclean : input.source.Clean) : input.source.pieces d.boxMode ≠ [] := by
  intro hnil
  have hholds := h.holds hclean
  rw [hnil, List.forall₂_nil_left_iff] at hholds
  apply h.codes
  rw [hholds]
  rfl

theorem Rendered.document_eq (h : Rendered sanitize input d document blocks partBlocks parts) :
    document = if d.extension = .xml then input.document else none := by
  have hrequired := h.required
  unfold requireDocument at hrequired
  split at hrequired
  · rename_i he
    rw [if_pos he]
    split at hrequired
    · cases hrequired
    split at hrequired
    · cases hrequired
    split at hrequired
    · rename_i base hbase
      rw [hbase]
      exact (Except.ok.inj hrequired).symm
    · cases hrequired
  · rename_i he
    rw [if_neg he]
    exact (Except.ok.inj hrequired).symm

theorem Rendered.document_ne_none (h : Rendered sanitize input d document blocks partBlocks parts)
    (he : d.extension = .xml) : document ≠ none := by
  have hrequired := h.required
  unfold requireDocument at hrequired
  rw [if_pos he] at hrequired
  split at hrequired
  · cases hrequired
  split at hrequired
  · cases hrequired
  split at hrequired
  · obtain rfl := Except.ok.inj hrequired
    simp
  · cases hrequired

theorem Rendered.ne_code (h : Rendered sanitize input d document blocks partBlocks parts)
    (he : d.extension = .xml) : ∀ p ∈ input.source.pieces d.boxMode, ∀ c, p ≠ .code c := by
  have hflat : d.boxMode ≠ .flat := fun hm => (registered_of_get h.format).flat hm he
  have hmode := h.mode
  cases hs : input.source with
  | flat codes =>
    rw [hs] at hmode
    cases hb : d.boxMode with
    | flat => exact absurd hb hflat
    | boxes => rw [hb] at hmode; cases hmode
    | pallets => rw [hb] at hmode; cases hmode
    | palletBoxes => rw [hb] at hmode; cases hmode
  | boxes all =>
    intro p hp c
    obtain ⟨b, -, rfl⟩ := List.mem_map.1 hp
    simp
  | pallets groups looseBoxes =>
    intro p hp c
    simp only [ShiftExportSource.pieces] at hp
    split at hp
    · obtain ⟨g, -, rfl⟩ := List.mem_map.1 hp
      simp
    · rcases List.mem_append.1 hp with hp | hp
      · obtain ⟨g, -, rfl⟩ := List.mem_map.1 hp
        simp
      · obtain ⟨b, -, rfl⟩ := List.mem_map.1 hp
        simp

/-- The runs of pieces the parts are the files of. -/
def exportRuns (d : ShiftExportFormatDescriptor) (maxLines : Option ℚ) (pieces : List Piece) :
    List (List Piece) :=
  match maxLines with
  | none => [pieces]
  | some n => Chunks.greedy (Piece.weight d) (headerLines d) n.num.toNat [] pieces

theorem exportRuns_flatten (maxLines : Option ℚ) (pieces : List Piece) :
    (exportRuns d maxLines pieces).flatten = pieces := by
  cases maxLines with
  | none => exact List.flatten_singleton
  | some n => exact Chunks.greedy_flatten [] pieces

theorem exportRuns_ne_nil {maxLines : Option ℚ} {pieces : List Piece} (h : pieces ≠ []) :
    ∀ run ∈ exportRuns d maxLines pieces, run ≠ [] := by
  cases maxLines with
  | none =>
    intro run hrun
    rw [List.mem_singleton.1 hrun]
    exact h
  | some n => exact Chunks.greedy_ne_nil (.inr h)

theorem Rendered.runs (h : Rendered sanitize input d document blocks partBlocks parts)
    (hclean : input.source.Clean) :
    List.Forall₂ (fun run part => List.Forall₂ (Holds d) run part.blocks ∧
        part.Counted (headerLines d))
      (exportRuns d input.maxLines (input.source.pieces d.boxMode)) partBlocks := by
  have hholds := h.holds hclean
  have hsplit := h.split
  cases hn : input.maxLines with
  | none =>
    rw [hn] at hsplit
    obtain rfl := Except.ok.inj hsplit
    exact .cons ⟨hholds, rfl⟩ .nil
  | some n =>
    rw [hn] at hsplit
    obtain ⟨hblocks, -, hcounted⟩ := splitLoop_ok hsplit rfl (by simp)
    have hcut : List.Forall₂ (List.Forall₂ (Holds d))
        (Chunks.greedy (Piece.weight d) (headerLines d) n.num.toNat []
          (input.source.pieces d.boxMode))
        (Chunks.greedy (·.physicalLineCount) (headerLines d) n.num.toNat [] blocks) :=
      Chunks.greedy_forall₂ (fun p block hp => hp.weight.symm) .nil hholds
    have hmap : partBlocks.map (·.blocks) = Chunks.greedy (·.physicalLineCount) (headerLines d)
        n.num.toNat [] blocks := hblocks
    rw [← hmap, List.forall₂_map_right_iff] at hcut
    rw [List.forall₂_iff_zip] at hcut ⊢
    refine ⟨hcut.1, fun {run part} hmem => ⟨hcut.2 hmem, ?_⟩⟩
    exact hcounted part (List.of_mem_zip hmem).2

theorem forall₂_zipIdx {α β γ : Type} {R : α → β → Prop} {S : β × ℕ → γ → Prop}
    {T : α × ℕ → γ → Prop} {l : List α} {l' : List β} {out : List γ} {k : ℕ}
    (h : List.Forall₂ R l l') (h' : List.Forall₂ S (l'.zipIdx k) out)
    (hT : ∀ a ∈ l, ∀ b i c, R a b → S (b, i) c → T (a, i) c) :
    List.Forall₂ T (l.zipIdx k) out := by
  induction h generalizing k out with
  | nil =>
    cases h'
    exact .nil
  | @cons a b l l' hab _ ih =>
    rw [List.zipIdx_cons] at h' ⊢
    cases h' with
    | cons hs hrest =>
      refine .cons (hT a List.mem_cons_self b _ _ hab hs) (ih hrest fun x hx => ?_)
      exact hT x (List.mem_cons_of_mem _ hx)

/-- **Every part is the file of its run.** -/
theorem Rendered.isFile (h : Rendered sanitize input d document blocks partBlocks parts)
    (hclean : input.source.Clean) :
    List.Forall₂ (fun x part => IsFile d input x.2 (decide (1 < parts.length)) x.1 part)
      ((exportRuns d input.maxLines (input.source.pieces d.boxMode)).zipIdx 1) parts := by
  have hfiles := mapM_eq_ok.1 h.files
  have hlength : parts.length = partBlocks.length := by
    rw [← hfiles.length_eq, List.length_zipIdx]
  refine forall₂_zipIdx (h.runs hclean) hfiles fun run hrun part i file hpart hfile => ?_
  have hmem : ∀ p ∈ run, p ∈ input.source.pieces d.boxMode := by
    intro p hp
    rw [← exportRuns_flatten (d := d) input.maxLines (input.source.pieces d.boxMode)]
    exact List.mem_flatten.2 ⟨run, hrun, hp⟩
  rw [hlength]
  exact renderPart_isFile hpart.1 hpart.2 (fun p hp => pieces_clean hclean p (hmem p hp))
    (fun he p hp => h.ne_code he p (hmem p hp)) h.document_eq h.document_ne_none hfile

theorem exists_of_forall₂ {α β : Type} {R : α → β → Prop} {l : List α} {l' : List β}
    (h : List.Forall₂ R l l') : ∀ a ∈ l, ∃ b ∈ l', R a b := by
  induction h with
  | nil => simp
  | @cons a b l l' hab _ ih =>
    intro x hx
    rcases List.mem_cons.1 hx with rfl | hx
    · exact ⟨b, List.mem_cons_self, hab⟩
    · obtain ⟨y, hy, hxy⟩ := ih x hx
      exact ⟨y, List.mem_cons_of_mem _ hy, hxy⟩

theorem Rendered.fits (h : Rendered sanitize input d document blocks partBlocks parts)
    (hclean : input.source.Clean) {n : ℚ} (hn : input.maxLines = some n) :
    ∀ run ∈ exportRuns d input.maxLines (input.source.pieces d.boxMode),
      headerLines d + (run.map (Piece.weight d)).sum ≤ n.num.toNat := by
  have hsplit := h.split
  rw [hn] at hsplit ⊢
  obtain ⟨-, hblocks, -⟩ := splitLoop_ok hsplit rfl (by simp)
  refine Chunks.greedy_fits (.inl rfl) (fun p hp => ?_) (.inr (h.pieces_ne_nil hclean))
  obtain ⟨block, hblock, hholds⟩ := exists_of_forall₂ (h.holds hclean) p hp
  rw [← hholds.weight]
  exact hblocks block hblock

theorem Rendered.unsplit (h : Rendered sanitize input d document blocks partBlocks parts) :
    ∃ part whole, Rendered sanitize { input with maxLines := none } d document blocks [part]
      [whole] := by
  obtain ⟨rendered, hrendered⟩ := h.whole
  obtain ⟨whole, hwhole⟩ : ∃ whole, renderPart sanitize d { input with maxLines := none }
      (ecmaTrim (input.organizationInn.getD [])) (ecmaTrim (input.organizationName.getD []))
      document false ⟨blocks, headerLines d + (blocks.map (·.physicalLineCount)).sum⟩ 1 =
        .ok whole := by
    unfold renderPart
    exact ⟨_, bind_eq_ok.2 ⟨rendered, hrendered, rfl⟩⟩
  refine ⟨_, whole, h.format, h.mode, h.date, rfl, h.required, h.created, h.whole, h.codes, rfl, ?_⟩
  exact mapM_eq_ok.2 (.cons hwhole .nil)

end Cut

/-! ### Documents -/

section Documents

theorem ecmaTrim_append {base w : Units} (hne : w ≠ [])
    (hhead : ∀ u ∈ w.head?, isEcmaWhitespace u = false)
    (hlast : ∀ u ∈ w.getLast?, isEcmaWhitespace u = false) :
    ecmaTrim (base ++ w) = base.dropWhile isEcmaWhitespace ++ w := by
  have hdrop : (base ++ w).dropWhile isEcmaWhitespace =
      base.dropWhile isEcmaWhitespace ++ w := by
    rw [List.dropWhile_append, dropWhile_eq_self hhead]
    split
    · rename_i hnil
      rw [List.isEmpty_iff.1 hnil]
      rfl
    · rfl
  have hlast' : ∀ u ∈ (base.dropWhile isEcmaWhitespace ++ w).getLast?,
      isEcmaWhitespace u = false := by
    rw [List.getLast?_append_of_ne_nil _ hne]
    exact hlast
  have hself := @rdropWhile_append isEcmaWhitespace [] (base.dropWhile isEcmaWhitespace ++ w)
    (by simp [hne]) hlast'
  rw [ecmaTrim, trimBy, hdrop]
  simpa using hself

theorem numeral_not_blank (i : ℕ) : ∀ u ∈ numeral i, isEcmaWhitespace u = false := by
  intro u hu
  have hd := numeral_isDigit i u hu
  simp only [isDigit, Bool.and_eq_true, decide_eq_true_eq, UInt16.le_iff_toNat_le] at hd
  have h48 : (48 : UInt16).toNat = 48 := rfl
  have h57 : (57 : UInt16).toNat = 57 := rfl
  simp only [isEcmaWhitespace, Bool.or_eq_false_iff, Bool.and_eq_false_iff,
    decide_eq_false_iff_not, beq_eq_false_iff_ne]
  omega

/-- The part's number tells the documents apart, whatever trimming leaves of the rest. -/
theorem ecmaTrim_numbered_injective (base : Units) :
    Function.Injective fun i => ecmaTrim (base ++ (encode "-" ++ numeral i)) := by
  have hform : ∀ i, ecmaTrim (base ++ (encode "-" ++ numeral i)) =
      base.dropWhile isEcmaWhitespace ++ (encode "-" ++ numeral i) := by
    intro i
    have hne := numeral_ne_nil i
    have hall := numeral_not_blank i
    refine ecmaTrim_append (by simp [hne]) ?_ ?_
    · have hdash : encode "-" = [45] := by decide
      rw [hdash]
      intro u hu
      obtain rfl : u = 45 := by simpa using hu.symm
      decide
    · rw [List.getLast?_append_of_ne_nil _ hne]
      exact fun u hu => hall u (List.mem_of_getLast? hu)
  intro i j hij
  simp only [hform] at hij
  exact numeral_injective (List.append_cancel_left (List.append_cancel_left hij))

theorem documents_nodup (base : ShiftExportDocumentMetadata) (n : ℕ) :
    ((List.range' 1 n).map fun i => (partDocument input base i (decide (1 < n))).documentId).Nodup ∧
      ((List.range' 1 n).map fun i =>
        (partDocument input base i (decide (1 < n))).documentNumber).Nodup := by
  by_cases hn : 1 < n
  · have hid := (ecmaTrim_numbered_injective base.documentId)
    have hnumber := (ecmaTrim_numbered_injective base.documentNumber)
    refine ⟨List.Nodup.map ?_ List.nodup_range', List.Nodup.map ?_ List.nodup_range'⟩
    · simpa [partDocument, trimDocument, documentFor, hn] using hid
    · simpa [partDocument, trimDocument, documentFor, hn] using hnumber
  · have hlength : ∀ f : ℕ → Units, ((List.range' 1 n).map f).Nodup := by
      intro f
      obtain rfl | rfl : n = 0 ∨ n = 1 := by omega
      · simp
      · simp
    exact ⟨hlength _, hlength _⟩

end Documents

/-! ### The parts -/

/-- **What a split of an export is.** -/
structure Splits (d : ShiftExportFormatDescriptor) (input : RenderShiftExportInput)
    (pieces : List Piece) (whole : ShiftExportPart) (runs : List (List Piece))
    (parts : List ShiftExportPart) : Prop where
  /-- Nothing is lost, repeated, reordered or divided. -/
  flatten : runs.flatten = pieces
  ne_nil : ∀ run ∈ runs, run ≠ []
  /-- Every part is the file of its run. -/
  files : List.Forall₂ (fun x part => IsFile d input x.2 (decide (1 < parts.length)) x.1 part)
    (runs.zipIdx 1) parts
  limit : ∀ n, input.maxLines = some n → ∀ part ∈ parts, (part.physicalLineCount : ℚ) ≤ n
  codeCount : (parts.map (·.codeCount)).sum = whole.codeCount
  boxCount : (parts.map (·.boxCount)).sum = whole.boxCount
  palletCount : (parts.map (·.palletCount)).sum = whole.palletCount
  /-- The packs of a pallet's boxes stand before the pallet's in the same part. -/
  members : d.boxMode = .pallets → ∀ run ∈ runs, ∀ p, .pallet p ∈ run → ∀ b ∈ p.boxes,
    ∃ before between after, xmlPacks d run = before ++ boxPack b :: between ++
      palletPack ⟨p.sscc, p.boxes.map (·.sscc)⟩ :: after
  documents : ∀ base, input.document = some base →
    ((List.range' 1 parts.length).map fun i =>
        (partDocument input base i (decide (1 < parts.length))).documentId).Nodup ∧
      ((List.range' 1 parts.length).map fun i =>
        (partDocument input base i (decide (1 < parts.length))).documentNumber).Nodup
  /-- No division of the same pieces into files within the limit has fewer parts. -/
  minimal : ∀ n, input.maxLines = some n → ∀ division : List (List Piece),
    division.flatten = pieces →
    (∀ run ∈ division, ((headerLines d + (run.map (Piece.weight d)).sum : ℕ) : ℚ) ≤ n) →
    parts.length ≤ division.length

theorem sum_parts {runs : List (List Piece)} {f : ShiftExportPart → ℕ} {g : Piece → ℕ} {k : ℕ}
    {R : List Piece × ℕ → ShiftExportPart → Prop} (h : List.Forall₂ R (runs.zipIdx k) parts)
    (hfg : ∀ x part, R x part → f part = (x.1.map g).sum) :
    (parts.map f).sum = (runs.flatten.map g).sum := by
  induction runs generalizing k parts with
  | nil =>
    cases h
    rfl
  | cons run runs ih =>
    rw [List.zipIdx_cons] at h
    cases h with
    | cons hr hrest =>
      rw [List.map_cons, List.sum_cons, hfg _ _ hr, ih hrest, List.flatten_cons, List.map_append,
        List.sum_append]

theorem xmlPacks_members {d : ShiftExportFormatDescriptor} (hmode : d.boxMode = .pallets)
    {run : List Piece} {p : ShiftExportPalletGroup} (hp : .pallet p ∈ run) {b : GismtAggregationBox}
    (hb : b ∈ p.boxes) : ∃ before between after, xmlPacks d run = before ++ boxPack b :: between ++
      palletPack ⟨p.sscc, p.boxes.map (·.sscc)⟩ :: after := by
  have hbox : b ∈ run.flatMap (Piece.boxes d) :=
    List.mem_flatMap.2 ⟨_, hp, by simpa [Piece.boxes, hmode] using hb⟩
  have hpallet : ⟨p.sscc, p.boxes.map (·.sscc)⟩ ∈ run.flatMap Piece.pallets :=
    List.mem_flatMap.2 ⟨_, hp, by simp [Piece.pallets]⟩
  obtain ⟨b1, b2, hb12⟩ := List.append_of_mem hbox
  obtain ⟨p1, p2, hp12⟩ := List.append_of_mem hpallet
  refine ⟨b1.map boxPack, b2.map boxPack ++ p1.map palletPack, p2.map palletPack, ?_⟩
  rw [xmlPacks, hb12, hp12]
  simp

theorem validateLineLimit_some {n : ℚ} (h : validateLineLimit (some n) = .ok ()) :
    n = (n.num.toNat : ℚ) := by
  rw [validateLineLimit] at h
  split at h
  · cases h
  · rename_i hn
    simp only [not_or, Bool.not_eq_false, not_lt] at hn
    exact eq_natCast_of_isInt hn.1 (le_trans (by norm_num) hn.2.1)

/-- **Splitting an export loses nothing and keeps the limit.** -/
theorem shift_export_splits (hclean : input.source.Clean)
    (h : renderShiftExport sanitize input = .ok parts) :
    ∃ d whole runs, getShiftExportFormat input.formatId input.formatVersion = .ok d ∧
      renderShiftExport sanitize { input with maxLines := none } = .ok [whole] ∧
      IsFile d input 1 false (input.source.pieces d.boxMode) whole ∧
      Splits d input (input.source.pieces d.boxMode) whole runs parts := by
  obtain ⟨d, document, blocks, partBlocks, h⟩ := renderShiftExport_ok_iff.1 h
  obtain ⟨part, whole, hunsplit⟩ := h.unsplit
  have hne := h.pieces_ne_nil hclean
  have hfiles := h.isFile hclean
  have hwhole : IsFile d input 1 false (input.source.pieces d.boxMode) whole := by
    have hfile := hunsplit.isFile hclean
    cases hfile with
    | cons hfile _ => exact ⟨hfile.1, hfile.2, hfile.3, hfile.4, hfile.5, hfile.6, hfile.7, hfile.8,
        hfile.9, hfile.10⟩
  have hflatten := exportRuns_flatten (d := d) input.maxLines (input.source.pieces d.boxMode)
  have hlength : parts.length =
      (exportRuns d input.maxLines (input.source.pieces d.boxMode)).length := by
    rw [← hfiles.length_eq, List.length_zipIdx]
  refine ⟨d, whole, exportRuns d input.maxLines (input.source.pieces d.boxMode), h.format,
    renderShiftExport_ok_iff.2 ⟨d, document, blocks, [part], hunsplit⟩, hwhole, hflatten,
    exportRuns_ne_nil hne, hfiles, ?_, ?_, ?_, ?_, ?_, ?_, ?_⟩
  · intro n hn part hpart
    have hlimit := h.limit
    rw [hn] at hlimit
    obtain ⟨x, hx, hfile⟩ := exists_of_forall₂ hfiles.flip part hpart
    rw [validateLineLimit_some hlimit, Nat.cast_le, hfile.lines]
    exact h.fits hclean hn x.1 (List.fst_mem_of_mem_zipIdx hx)
  · rw [sum_parts hfiles fun _ _ hx => hx.codeCount, hflatten, hwhole.codeCount]
  · rw [sum_parts hfiles fun _ _ hx => hx.boxCount, hflatten, hwhole.boxCount]
  · rw [sum_parts hfiles fun _ _ hx => hx.palletCount, hflatten, hwhole.palletCount]
  · intro hmode run _ p hp b hb
    exact xmlPacks_members hmode hp hb
  · intro base _
    exact documents_nodup base parts.length
  · intro n hn division hdivision hfits
    have hlimit := h.limit
    rw [hn] at hlimit
    rw [hlength, hn]
    refine Chunks.greedy_minimal hne hdivision fun run hrun => ?_
    have hrun := hfits run hrun
    rw [validateLineLimit_some hlimit, Nat.cast_le] at hrun
    exact hrun

def Sample.exportBox (sscc : Units) : GismtAggregationBox := ⟨sscc, [Sample.short.render]⟩

def Sample.exportInput : RenderShiftExportInput where
  formatId := .shiftXmlGismtAggregationPallets
  formatVersion := 1
  productName := encode "milk"
  shiftDate := encode "2026-01-31"
  maxLines := some 18
  source := .pallets
    [⟨encode "046006820000000014", [Sample.exportBox (encode "046006820000000021")]⟩,
      ⟨encode "046006820000000038", [Sample.exportBox (encode "046006820000000045")]⟩] []
  organizationInn := some (encode "7707083893")
  organizationName := some (encode "Markiro")
  document := some ⟨encode "doc", encode "1", encode "2026-01-31T10:00:00.000Z",
    encode "2026-01-31T09:00:00.000Z"⟩

theorem Sample.exportInput_clean : Sample.exportInput.source.Clean := by
  have hcode : CanonicalKm Sample.short.render := by
    have h := @Sample.canonicalize Sample.short.render
      ⟨Sample.short_wellFormed, .inl (by decide +kernel)⟩ (by decide +kernel)
    exact ⟨_, _, h, by decide +kernel⟩
  have hbox : ∀ sscc, isDigits 18 sscc = true → (Sample.exportBox sscc).Clean := by
    intro sscc hsscc
    refine ⟨hsscc, fun c hc => ?_⟩
    rw [List.mem_singleton.1 hc]
    exact hcode
  refine ⟨fun p hp => ?_, by simp⟩
  simp only [List.mem_cons, List.not_mem_nil, or_false] at hp
  rcases hp with rfl | rfl
  · refine ⟨by decide +kernel, fun b hb => ?_⟩
    rw [List.mem_singleton.1 hb]
    exact hbox _ (by decide +kernel)
  · refine ⟨by decide +kernel, fun b hb => ?_⟩
    rw [List.mem_singleton.1 hb]
    exact hbox _ (by decide +kernel)

theorem shift_export_splits_sample :
    ∃ parts, renderShiftExport id Sample.exportInput = .ok parts ∧ parts.length = 2 ∧
      ∃ d whole runs, getShiftExportFormat Sample.exportInput.formatId
          Sample.exportInput.formatVersion = .ok d ∧
        renderShiftExport id { Sample.exportInput with maxLines := none } = .ok [whole] ∧
        IsFile d Sample.exportInput 1 false (Sample.exportInput.source.pieces d.boxMode) whole ∧
        Splits d Sample.exportInput (Sample.exportInput.source.pieces d.boxMode) whole runs
          parts := by
  have hlength : (renderShiftExport id Sample.exportInput).toOption.map List.length = some 2 := by
    decide +kernel
  obtain ⟨parts, hparts, htwo⟩ := Option.map_eq_some_iff.1 hlength
  have h : renderShiftExport id Sample.exportInput = .ok parts := by
    cases hr : renderShiftExport id Sample.exportInput with
    | error e =>
      rw [hr] at hparts
      cases hparts
    | ok out =>
      rw [hr] at hparts
      rw [Option.some.inj hparts]
  exact ⟨parts, h, htwo, shift_export_splits Sample.exportInput_clean h⟩

end Export

end Markiro
