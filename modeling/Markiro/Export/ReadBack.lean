import Markiro.Export.Splitting

/-!
# Reading an export back

A text of `encodeSemicolonCsv` read one unit after the other: between quotation marks all is data,
and a mark that is doubled there stands for itself. A table is read back whatever its fields hold, so
the files of a CSV export are read back, in their order, as the rows of the shift
(`csv_export_reads_back`).
-/

namespace Markiro

open Utf16

/-! ## The reader -/

/-- Where a reader is: in a field as it stands, between quotation marks, or after a mark there. -/
inductive CsvMode where
  | plain | quoted | closing
  deriving DecidableEq

/-- A reader with the field, the row and the rows that it has read. -/
structure CsvReader where
  mode : CsvMode
  field : Units
  row : List Units
  rows : List (List Units)

namespace CsvReader

variable {r : CsvReader} {u : UInt16} {value field : Units} {row : List Units}
  {rows : List (List Units)}

def plain (r : CsvReader) (u : UInt16) : CsvReader :=
  if u = 59 then ⟨.plain, [], r.row ++ [r.field], r.rows⟩
  else if u = lineFeed then ⟨.plain, [], [], r.rows ++ [r.row ++ [r.field]]⟩
  else if u = 13 then { r with mode := .plain }
  else if u = 34 ∧ r.field = [] then { r with mode := .quoted }
  else { r with mode := .plain, field := r.field ++ [u] }

def step (r : CsvReader) (u : UInt16) : CsvReader :=
  match r.mode with
  | .plain => r.plain u
  | .quoted => if u = 34 then { r with mode := .closing } else { r with field := r.field ++ [u] }
  | .closing =>
    if u = 34 then { r with mode := .quoted, field := r.field ++ [34] } else r.plain u

def read (r : CsvReader) (s : Units) : CsvReader := s.foldl step r

theorem read_append (r : CsvReader) (s t : Units) : r.read (s ++ t) = (r.read s).read t :=
  List.foldl_append

theorem read_quoted : (CsvReader.mk .quoted field row rows).read (replaceAll 34 [34, 34] value) =
    ⟨.quoted, field ++ value, row, rows⟩ := by
  induction value generalizing field with
  | nil => rw [List.append_nil]; rfl
  | cons u value ih =>
    have hone : (CsvReader.mk .quoted field row rows).read (if u = 34 then [34, 34] else [u]) =
        ⟨.quoted, field ++ [u], row, rows⟩ := by
      split
      · next h =>
        rw [h]
        rfl
      · next h => simp [read, step, h]
    rw [replaceAll, List.flatMap_cons, read_append, hone, ← replaceAll, ih, List.append_assoc,
      List.singleton_append]

theorem read_plain (h : ∀ u ∈ value, ¬(u = 59 ∨ u = 34 ∨ u = 13 ∨ u = lineFeed)) :
    (CsvReader.mk .plain field row rows).read value = ⟨.plain, field ++ value, row, rows⟩ := by
  induction value generalizing field with
  | nil => rw [List.append_nil]; rfl
  | cons u value ih =>
    have hu := h u List.mem_cons_self
    simp only [not_or] at hu
    have hone : (CsvReader.mk .plain field row rows).step u =
        ⟨.plain, field ++ [u], row, rows⟩ := by
      simp [step, plain, hu]
    rw [read, List.foldl_cons, hone, ← read, ih fun v hv => h v (List.mem_cons_of_mem _ hv),
      List.append_assoc, List.singleton_append]

/-- A written field is read whole, and a mark after it stands outside of it. -/
theorem read_csvField (value : Units) (row : List Units) (rows : List (List Units)) :
    ∃ mode, (CsvReader.mk .plain [] row rows).read (csvField value) = ⟨mode, value, row, rows⟩ ∧
      ∀ u, u ≠ 34 → (CsvReader.mk mode value row rows).step u =
        (CsvReader.mk .plain value row rows).plain u := by
  rw [csvField]
  split
  · refine ⟨.closing, ?_, fun u hu => ?_⟩
    · rw [← List.singleton_append, read_append, read_append]
      show ((CsvReader.mk .quoted [] row rows).read _).read [34] = _
      rw [read_quoted]
      rfl
    · simp [step, plain, hu]
  · next hplain =>
    refine ⟨.plain, read_plain fun u hu => ?_, fun _ _ => rfl⟩
    simp only [List.any_eq_true, not_exists, not_and, decide_eq_true_eq] at hplain
    exact hplain u hu

theorem read_row (value : Units) (values : List Units) :
    (CsvReader.mk .plain [] row rows).read (csvRow (value :: values) ++ crlf) =
      ⟨.plain, [], [], rows ++ [row ++ value :: values]⟩ := by
  induction values generalizing value row with
  | nil =>
    obtain ⟨mode, hread, hmark⟩ := read_csvField value row rows
    rw [csvRow, joinWith, List.map_singleton, List.intersperse_singleton, List.flatten_singleton,
      read_append, hread, read, crlf, List.foldl_cons, hmark 13 (by decide)]
    rfl
  | cons next values ih =>
    obtain ⟨mode, hread, hmark⟩ := read_csvField value row rows
    have hsplit : csvRow (value :: next :: values) =
        csvField value ++ 59 :: csvRow (next :: values) := rfl
    have hnext : (CsvReader.mk .plain value row rows).plain 59 =
        ⟨.plain, [], row ++ [value], rows⟩ := rfl
    rw [hsplit, List.append_assoc, read_append, hread, List.cons_append, read, List.foldl_cons,
      hmark 59 (by decide), hnext, ← read, ih, List.append_assoc, List.singleton_append]

theorem read_rows {table : List (List Units)} (h : ∀ row ∈ table, row ≠ []) :
    (CsvReader.mk .plain [] [] rows).read (table.flatMap fun row => csvRow row ++ crlf) =
      ⟨.plain, [], [], rows ++ table⟩ := by
  induction table generalizing rows with
  | nil => rw [List.append_nil]; rfl
  | cons row table ih =>
    obtain ⟨value, values, rfl⟩ := List.exists_cons_of_ne_nil (h _ List.mem_cons_self)
    rw [List.flatMap_cons, read_append, read_row, List.nil_append,
      ih fun r hr => h r (List.mem_cons_of_mem _ hr), List.append_assoc, List.singleton_append]

end CsvReader

/-- The rows of a text. -/
def readCsv (text : Units) : List (List Units) := ((CsvReader.mk .plain [] [] []).read text).rows

/-! ## The round trip -/

theorem joinWith_ended (separator : Units) (text : Units) (texts : List Units) :
    joinWith separator (text :: texts) ++ separator =
      (text :: texts).flatMap fun t => t ++ separator := by
  induction texts generalizing text with
  | nil => simp [joinWith]
  | cons next texts ih =>
    have hsplit : joinWith separator (text :: next :: texts) =
        text ++ (separator ++ joinWith separator (next :: texts)) := rfl
    rw [hsplit, List.append_assoc, List.append_assoc, ih]
    exact (List.append_assoc text separator _).symm

theorem csvField_ne_nil {value : Units} (h : value ≠ []) : csvField value ≠ [] := by
  rw [csvField]
  split
  · exact List.cons_ne_nil _ _
  · exact h

/-- The text of a table, without its encoding. -/
def csvText (rows : List (List Units)) : Units := joinWith crlf (rows.map csvRow) ++ crlf

theorem encodeSemicolonCsv_eq {name : Units} (hname : name ≠ []) (names : List Units)
    (rows : List (List Units)) : encodeSemicolonCsv (name :: names) rows =
      utf8Bom ++ utf8Bytes (csvText ((name :: names) :: rows)) := by
  have hcontent : (joinWith crlf (((name :: names) :: rows).map csvRow)).length ≠ 0 := by
    intro hnil
    have hfirst : csvField name <+: joinWith crlf (((name :: names) :: rows).map csvRow) := by
      rw [joinWith, List.map_cons]
      cases names with
      | nil => cases rows <;> simp [csvRow, joinWith]
      | cons n names => cases rows <;> simp [csvRow, joinWith]
    rw [List.length_eq_zero_iff.1 hnil] at hfirst
    exact csvField_ne_nil hname (List.prefix_nil.1 hfirst)
  rw [encodeSemicolonCsv, encodeSemicolonCsvRows, csvText]
  simp only [if_neg hcontent]

/-- **A table is read back**, separators, line breaks and quotation marks in its fields included. -/
theorem readCsv_csvText {row : List Units} {rows : List (List Units)}
    (h : ∀ r ∈ row :: rows, r ≠ []) : readCsv (csvText (row :: rows)) = row :: rows := by
  rw [csvText, List.map_cons, joinWith_ended, ← List.map_cons, List.flatMap_map, readCsv,
    CsvReader.read_rows h, List.nil_append]

section Export

variable {sanitize : Units → Units} {input : RenderShiftExportInput} {parts : List ShiftExportPart}
  {d : ShiftExportFormatDescriptor}

theorem csvHeaderFor_eq (mode : ShiftExportBoxMode) :
    ∃ name names, csvHeaderFor mode = name :: names ∧ name ≠ [] := by
  cases mode <;> exact ⟨_, _, rfl, by decide⟩

theorem Piece.rows_ne_nil (p : Piece) : ∀ row ∈ p.rows d, row ≠ [] := by
  intro row hrow
  cases p with
  | code c =>
    rw [List.mem_singleton.1 hrow]
    exact List.cons_ne_nil _ _
  | box b =>
    obtain ⟨c, -, rfl⟩ := List.mem_map.1 hrow
    split <;> exact List.cons_ne_nil _ _
  | pallet p =>
    obtain ⟨b, -, hrow⟩ := List.mem_flatMap.1 hrow
    obtain ⟨c, -, rfl⟩ := List.mem_map.1 hrow
    exact List.cons_ne_nil _ _

/-- **A CSV export is read back.** However its limit cuts it, every file of the export is the byte
order mark and a text in UTF-8 that starts with the header, and the other rows of the texts, one
after the other, are the rows of the shift. -/
theorem csv_export_reads_back (hclean : input.source.Clean)
    (h : renderShiftExport sanitize input = .ok parts)
    (hd : getShiftExportFormat input.formatId input.formatVersion = .ok d)
    (hcsv : d.extension = .csv) :
    ∃ texts : List Units, parts.map (·.bytes) = texts.map (fun t => utf8Bom ++ utf8Bytes t) ∧
      (∀ t ∈ texts, (readCsv t).head? = some (csvHeaderFor d.boxMode)) ∧
      texts.flatMap (fun t => (readCsv t).tail) =
        (input.source.pieces d.boxMode).flatMap (Piece.rows d) := by
  obtain ⟨d', document, blocks, partBlocks, h⟩ := renderShiftExport_ok_iff.1 h
  obtain rfl := Except.ok.inj (h.format.symm.trans hd)
  obtain ⟨name, names, hheader, hname⟩ := csvHeaderFor_eq d'.boxMode
  let runs := exportRuns d' input.maxLines (input.source.pieces d'.boxMode)
  let text (run : List Piece) : Units :=
    csvText (csvHeaderFor d'.boxMode :: run.flatMap (Piece.rows d'))
  have hread (run : List Piece) :
      readCsv (text run) = csvHeaderFor d'.boxMode :: run.flatMap (Piece.rows d') := by
    refine readCsv_csvText fun row hrow => ?_
    rcases List.mem_cons.1 hrow with rfl | hrow
    · rw [hheader]
      exact List.cons_ne_nil _ _
    · obtain ⟨p, -, hrow⟩ := List.mem_flatMap.1 hrow
      exact p.rows_ne_nil row hrow
  have hbytes : List.Forall₂ Eq
      ((runs.zipIdx 1).map fun x => utf8Bom ++ utf8Bytes (text x.1)) (parts.map (·.bytes)) := by
    rw [List.forall₂_map_left_iff, List.forall₂_map_right_iff]
    refine (h.isFile hclean).imp fun x part hfile => ?_
    rw [hfile.csv hcsv, hheader, encodeSemicolonCsv_eq hname, ← hheader]
  refine ⟨runs.map text, ?_, fun t ht => ?_, ?_⟩
  · rw [List.forall₂_eq_eq_eq] at hbytes
    rw [← hbytes, List.map_map]
    conv_rhs => rw [← List.zipIdx_map_fst 1 runs, List.map_map]
    rfl
  · obtain ⟨run, -, rfl⟩ := List.mem_map.1 ht
    rw [hread]
    rfl
  · rw [List.flatMap_map]
    simp only [hread, List.tail_cons]
    rw [← exportRuns_flatten (d := d') input.maxLines (input.source.pieces d'.boxMode),
      List.flatten_eq_flatMap, List.flatMap_assoc]
    rfl

/-- The pallets of the sample, a file for each. -/
theorem csv_export_reads_back_pallets :
    let input := { Sample.exportInput with formatId := .shiftCsvPallets, maxLines := some 2 }
    ∃ parts, renderShiftExport id input = .ok parts ∧ parts.length = 2 ∧
      ∃ texts : List Units, parts.map (·.bytes) = texts.map (fun t => utf8Bom ++ utf8Bytes t) ∧
        (∀ t ∈ texts, (readCsv t).head? = some (csvHeaderFor .pallets)) ∧
        texts.flatMap (fun t => (readCsv t).tail) = (input.source.pieces .pallets).flatMap
          (Piece.rows ⟨.shiftCsvPallets, 1, .csv, .pallets⟩) := by
  intro input
  have hlength : (renderShiftExport id input).toOption.map List.length = some 2 := by
    decide +kernel
  obtain ⟨parts, hparts, htwo⟩ := Option.map_eq_some_iff.1 hlength
  cases hr : renderShiftExport id input with
  | error e =>
    rw [hr] at hparts
    cases hparts
  | ok out =>
    rw [hr] at hparts
    obtain rfl := Option.some.inj hparts
    exact ⟨out, rfl, htwo, csv_export_reads_back (d := ⟨.shiftCsvPallets, 1, .csv, .pallets⟩)
      Sample.exportInput_clean hr (by decide +kernel) rfl⟩

end Export

end Markiro
