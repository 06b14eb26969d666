import Markiro.InventorySync.ProgressRuns

/-!
# A device that polls

A device asks for the page after its cursor, reads it and keeps what it says. Whatever the server
serves in between, what the device holds is the stream up to its cursor, and a page that is not full
leaves it with the whole stream.
-/

namespace Markiro.InventorySync

open Results

/-! ## Polls among the calls -/

/-- How many changes a poll may ask for. -/
abbrev Limit := { n : ℕ // 1 ≤ n ∧ n ≤ 200 }

/-- The server, with a device's cursor and all that its pages said. -/
structure Watch where
  tables : Tables
  terminal : Terminal
  items : List ProgressItem

inductive WatchStep (s : Site) where
  | call (c : Call s)
  | poll (limit : Limit)

variable {s : Site} {deviceId : Uuid}

/-- A poll: a page that the server refuses or the device cannot read changes nothing. -/
def Watch.poll (s : Site) (deviceId : Uuid) (limit : ℕ) (w : Watch) : Watch :=
  match progress s.task deviceId w.terminal.progressCursor limit w.tables with
  | .error _ => w
  | .ok page =>
    match applyInventoryProgressPage s.task w.terminal page with
    | none => w
    | some terminal => { w with terminal := terminal, items := w.items ++ page.items }

def Watch.step (deviceId : Uuid) (w : Watch) : WatchStep s → Watch
  | .call c => { w with tables := c.after w.tables }
  | .poll limit => w.poll s deviceId limit

def Start.watch (start : Start) : Watch := ⟨start.tables, ⟨none, 0⟩, []⟩

/-- The server and the device after the steps, in order. -/
def watch (start : Start) (deviceId : Uuid) (steps : List (WatchStep s)) : Watch :=
  steps.foldl (Watch.step deviceId) start.watch

/-- What an item says of a code. -/
def ProgressContent.said (codeHash : Hash) : ProgressContent →
    Option (CodeClassification × Option CivilDate × Option ClaimWinner)
  | .code _ h classification observed winner =>
    if h = codeHash then some (classification, observed, winner) else none
  | _ => none

def lastSaid (codeHash : Hash) (items : List ProgressItem) :
    Option (CodeClassification × Option CivilDate × Option ClaimWinner) :=
  (items.filterMap (·.content.said codeHash)).getLast?

def CodeResult.said (x : CodeResult) : CodeClassification × Option CivilDate × Option ClaimWinner :=
  (x.classification, x.observedProductionDate, some x.asWinner)

/-! ## Items -/

section

variable {r : Rows} {x : StreamRow} {i : ProgressItem}

theorem codeItem_own {kind : ProgressKind} {c : ProgressContent} (h : x.codeItem kind = .ok c) :
    c.ownWinner := by
  unfold StreamRow.codeItem at h
  split at h
  · obtain rfl := Except.ok.inj h
    intro w hw
    unfold StreamRow.winner at hw
    split at hw
    · rw [Option.mem_some_iff] at hw
      rw [← hw]
    · cases hw
  · cases h

theorem boxItem_own {f : Uuid → Uuid → Except Refusal ProgressContent} {c : ProgressContent}
    (hf : ∀ a b c, f a b = .ok c → c.ownWinner) (h : x.boxItem f = .ok c) : c.ownWinner := by
  unfold StreamRow.boxItem at h
  split at h
  · exact hf _ _ _ h
  · cases h

theorem toItem_ok (h : x.toItem = .ok i) : i.cursor = x.place ∧ i.content.ownWinner := by
  obtain ⟨c, hc, h⟩ := bind_eq_ok.1 h
  obtain rfl := pure_eq_ok.1 h
  refine ⟨rfl, ?_⟩
  unfold StreamRow.content at hc
  split at hc
  · exact codeItem_own hc
  · exact codeItem_own hc
  · refine boxItem_own (fun a b c h => ?_) hc
    unfold StreamRow.removal at h
    split at h
    · obtain rfl := Except.ok.inj h
      trivial
    · cases h
  · refine boxItem_own (fun a b c h => ?_) hc
    obtain rfl := Except.ok.inj h
    trivial
  · refine boxItem_own (fun a b c h => ?_) hc
    obtain rfl := Except.ok.inj h
    trivial

def ProgressChange.item (c : ProgressChange) : ProgressItem where
  id := c.id
  revision := c.resultRevision
  content := .code c.kind c.codeHash c.classification c.observedProductionDate
    (some ⟨c.codeHash, c.winningEventId, c.winningDeviceId, c.winningScannedAt.toISOString⟩)
  correctedAt := c.changedAt.toISOString

theorem ProgressChange.toItem (c : ProgressChange) : c.streamRow.toItem = .ok c.item := by
  unfold StreamRow.toItem StreamRow.content ProgressChange.streamRow
  cases hk : c.kind with
  | claim => simp only [ProgressKind.stream, ProgressChange.item, hk]; rfl
  | correction => simp only [ProgressKind.stream, ProgressChange.item, hk]; rfl

theorem Correction.toItem_said {k : Correction} (hx : k.streamRow r = some x)
    (h : x.toItem = .ok i) (codeHash : Hash) : i.content.said codeHash = none := by
  obtain ⟨c, hc, h⟩ := bind_eq_ok.1 h
  obtain rfl := pure_eq_ok.1 h
  have hkind : x.kind = .removeItem ∨ x.kind = .invalidateBox ∨ x.kind = .reprint := by
    unfold Correction.streamRow at hx
    obtain ⟨kind, hkind, rfl⟩ := Option.map_eq_some_iff.1 hx
    show kind = _ ∨ kind = _ ∨ kind = _
    cases ha : k.action <;> rw [ha] at hkind <;> cases hkind <;> simp
  have hbox : ∀ f : Uuid → Uuid → Except Refusal ProgressContent,
      (∀ a b c, f a b = .ok c → c.said codeHash = none) → x.boxItem f = .ok c →
      c.said codeHash = none := by
    intro f hf h
    unfold StreamRow.boxItem at h
    split at h
    · exact hf _ _ _ h
    · cases h
  unfold StreamRow.content at hc
  rcases hkind with hk | hk | hk
  · simp only [hk] at hc
    refine hbox _ (fun a b c h => ?_) hc
    unfold StreamRow.removal at h
    split at h
    · obtain rfl := Except.ok.inj h
      rfl
    · cases h
  · simp only [hk] at hc
    exact hbox _ (fun a b c h => Except.ok.inj h ▸ rfl) hc
  · simp only [hk] at hc
    exact hbox _ (fun a b c h => Except.ok.inj h ▸ rfl) hc

theorem Fed.toItem (h : Fed r) (hx : x ∈ stream r) : ∃ i, x.toItem = .ok i := by
  rcases mem_stream.1 hx with ⟨c, -, rfl⟩ | ⟨k, hk, hkx⟩
  · exact ⟨_, c.toItem⟩
  · obtain ⟨hstream, -⟩ := streamRow_place hkx
    obtain ⟨⟨b, hb, hbox⟩, hresult, hmember⟩ := h.based k hk hstream
    unfold Correction.streamRow at hkx
    obtain ⟨kind, hkind, rfl⟩ := Option.map_eq_some_iff.1 hkx
    have howner : ∃ b', (r.boxes.find? fun y => some y.id = k.targetRepackBoxId) = some b' := by
      rw [← Option.isSome_iff_exists, List.find?_isSome]
      exact ⟨b, hb, by rw [hbox]; simp⟩
    obtain ⟨b', hb'⟩ := howner
    cases ha : k.action with
    | voidScan => rw [ha] at hkind; cases hkind
    | restoreScan => rw [ha] at hkind; cases hkind
    | changeDate => rw [ha] at hkind; cases hkind
    | removeItem =>
      rw [ha] at hkind
      obtain rfl := Option.some.inj hkind
      obtain ⟨id, hid⟩ := Option.ne_none_iff_exists'.1 (hmember ha)
      obtain ⟨y, hy, hyid⟩ := hresult id hid
      have hfound : ∃ y', (r.codeResults.find? fun y => some y.id = k.targetCodeResultId) =
          some y' := by
        rw [← Option.isSome_iff_exists, List.find?_isSome]
        exact ⟨y, hy, by rw [hid, hyid]; simp⟩
      obtain ⟨y', hy'⟩ := hfound
      refine ⟨⟨k.id, k.resultRevision, .removeItem b.id id y'.codeHash b'.ownerDeviceId
        k.effectAt.toISOString, k.createdAt.toISOString⟩, ?_⟩
      rw [StreamRow.toItem, hb', hy']
      show (StreamRow.boxItem _ _ >>= _) = _
      simp only [StreamRow.boxItem, hbox, StreamRow.removal, hid]
      rfl
    | invalidateBox =>
      rw [ha] at hkind
      obtain rfl := Option.some.inj hkind
      refine ⟨⟨k.id, k.resultRevision, .invalidateBox b.id b'.ownerDeviceId,
        k.createdAt.toISOString⟩, ?_⟩
      rw [StreamRow.toItem, hb']
      show (StreamRow.boxItem _ _ >>= _) = _
      simp only [StreamRow.boxItem, hbox]
      rfl
    | reprint =>
      rw [ha] at hkind
      obtain rfl := Option.some.inj hkind
      refine ⟨⟨k.id, k.resultRevision, .reprint b.id b'.ownerDeviceId, k.createdAt.toISOString⟩, ?_⟩
      rw [StreamRow.toItem, hb']
      show (StreamRow.boxItem _ _ >>= _) = _
      simp only [StreamRow.boxItem, hbox]
      rfl

end

/-! ## One poll -/

variable {items : List ProgressItem}

/-- The reader's loop over items in the order of their places. -/
theorem walkItems_ok {revision : ℕ} {c : Option ProgressCursor}
    (hc : ∀ i ∈ items, ∀ k ∈ c, k < i.cursor)
    (hp : items.Pairwise fun a b => a.cursor < b.cursor)
    (hr : ∀ i ∈ items, i.revision ≤ revision) (ho : ∀ i ∈ items, i.content.ownWinner) :
    walkItems revision c items = some ((items.getLast?.map (·.cursor)).or c) := by
  induction items generalizing c with
  | nil => rfl
  | cons i items ih =>
    obtain ⟨hi, hitems⟩ := List.pairwise_cons.1 hp
    have hcond : i.revision ≤ revision ∧ i.content.ownWinner ∧ ∀ k ∈ c, k.before i.cursor :=
      ⟨hr i List.mem_cons_self, ho i List.mem_cons_self,
        fun k hk => ProgressCursor.lt_iff.1 (hc i List.mem_cons_self k hk)⟩
    rw [walkItems, if_pos hcond, ih (fun j hj k hk => Option.mem_some_iff.1 hk ▸ hi j hj) hitems
      (fun j hj => hr j (List.mem_cons_of_mem _ hj)) fun j hj => ho j (List.mem_cons_of_mem _ hj)]
    cases items with
    | nil => rfl
    | cons j items =>
      rw [List.getLast?_cons_cons]
      cases hl : (j :: items).getLast? with
      | none => simp at hl
      | some x => rfl

/-- What a device holds while it polls. -/
structure Watching (w : Watch) : Prop where
  fed : Fed w.tables.toRows
  place : Cursor.At StreamRow.place w.terminal.progressCursor (stream w.tables.toRows)
  revision : w.terminal.progressResultRevision ≤ w.tables.resultRevision
  held : (Cursor.upTo StreamRow.place w.terminal.progressCursor (stream w.tables.toRows)).mapM
    (·.toItem) = .ok w.items

variable {w : Watch}

theorem Watching.distinct (h : Watching w) : ((stream w.tables.toRows).map StreamRow.place).Nodup :=
  h.fed.distinct w.tables.kept

theorem forall₂_cursor {l : List StreamRow}
    (h : List.Forall₂ (fun x i => x.toItem = .ok i) l items) :
    items.map (·.cursor) = l.map (·.place) := by
  symm
  rw [← List.forall₂_eq_eq_eq, List.forall₂_map_left_iff, List.forall₂_map_right_iff]
  exact h.imp fun x i hx => (toItem_ok hx).1.symm

theorem mem_page {limit : ℕ} {c : Option ProgressCursor} {l : List StreamRow} {x : StreamRow}
    (h : x ∈ Cursor.page StreamRow.place limit c l) : x ∈ l ∧ ∀ k ∈ c, k < x.place := by
  have h1 := List.mem_of_mem_take h
  obtain ⟨h2, h3⟩ := List.mem_filter.1 h1
  exact ⟨Cursor.mem_sorted.1 h2, of_decide_eq_true h3⟩

/-- **A page of the server is what comes next, and the device reads it.** -/
theorem Watching.page (h : Watching w) {limit : Limit} {page : ProgressPage}
    (hpage : progress s.task deviceId w.terminal.progressCursor limit w.tables = .ok page) :
    (Cursor.page StreamRow.place limit w.terminal.progressCursor (stream w.tables.toRows)).mapM
        (·.toItem) = .ok page.items ∧
      page.nextCursor.or w.terminal.progressCursor = Cursor.next StreamRow.place
        w.terminal.progressCursor (Cursor.page StreamRow.place limit w.terminal.progressCursor
          (stream w.tables.toRows)) ∧
      page.resultRevision = w.tables.resultRevision ∧
      parseInventoryProgressPage page ⟨s.task.inventoryId, s.task.snapshotId,
        w.terminal.progressCursor, w.terminal.progressResultRevision⟩ = some page := by
  unfold progress at hpage
  obtain ⟨_, -, hpage⟩ := bind_eq_ok.1 hpage
  obtain ⟨items, hitems, hpage⟩ := bind_eq_ok.1 hpage
  obtain rfl := pure_eq_ok.1 hpage
  set l := Cursor.page StreamRow.place limit w.terminal.progressCursor (stream w.tables.toRows)
    with hl
  have hall := mapM_eq_ok.1 hitems
  have hcursors := forall₂_cursor hall
  have hof : ∀ i ∈ items, ∃ x ∈ l, x.toItem = .ok i := by
    intro i hi
    obtain ⟨n, hn, rfl⟩ := List.getElem_of_mem hi
    have hlen := hall.length_eq
    exact ⟨l.get ⟨n, by omega⟩, List.getElem_mem _, hall.get (by omega) hn⟩
  have hlast : items.getLast?.map (·.cursor) = l.getLast?.map (·.place) := by
    rw [← List.getLast?_map, hcursors, List.getLast?_map]
  have hrevision : ∀ i ∈ items, 0 < i.revision ∧ i.revision ≤ w.tables.resultRevision := by
    intro i hi
    obtain ⟨x, hx, hxi⟩ := hof i hi
    have hrev : i.revision = x.resultRevision :=
      congrArg ProgressCursor.revision (toItem_ok hxi).1
    rw [hrev]
    exact ⟨revision_pos w.tables.kept (mem_page hx).1, h.fed.revision_le (mem_page hx).1⟩
  have hsafe : isSafe w.tables.resultRevision := by
    have := w.tables.kept.feed.revision
    show w.tables.resultRevision ≤ 9007199254740991
    omega
  have hcursor : ∀ k ∈ w.terminal.progressCursor, 0 < k.revision := by
    intro k hk
    obtain ⟨x, hx, rfl⟩ := h.place k hk
    exact revision_pos w.tables.kept hx
  have hsize : items.length ≤ 200 := by
    have h1 := hall.length_eq
    have h2 : l.length ≤ limit := List.length_take_le _ _
    have h3 := limit.2.2
    omega
  have hpairwise : items.Pairwise fun a b => a.cursor < b.cursor := by
    rw [← List.pairwise_map, hcursors, List.pairwise_map]
    exact ((Cursor.sorted_pairwise h.distinct).filter _).sublist (List.take_sublist _ _)
  have hwalk : walkItems w.tables.resultRevision w.terminal.progressCursor items =
      some ((items.getLast?.map (·.cursor)).or w.terminal.progressCursor) := by
    refine walkItems_ok (fun i hi => ?_) hpairwise (fun i hi => (hrevision i hi).2) fun i hi => ?_
    · obtain ⟨x, hx, hxi⟩ := hof i hi
      rw [(toItem_ok hxi).1]
      exact (mem_page hx).2
    · obtain ⟨x, -, hxi⟩ := hof i hi
      exact (toItem_ok hxi).2
  refine ⟨hitems, ?_, rfl, ?_⟩
  · show (items.getLast?.map (·.cursor)).or _ = _
    rw [hlast]
    rfl
  · unfold parseInventoryProgressPage
    rw [if_pos, hwalk]
    · simp only
      rw [if_pos]
      show items.getLast?.map (·.cursor) = _
      cases items with
      | nil => rfl
      | cons i items =>
        rw [if_neg (List.cons_ne_nil _ _)]
        cases hg : (i :: items).getLast? with
        | none => simp at hg
        | some j => rfl
    · refine ⟨⟨hcursor, hsafe, hsize, fun i hi => ⟨(hrevision i hi).1, ?_⟩, fun k hk => ?_⟩, rfl,
        rfl, rfl, h.revision⟩
      · exact (hrevision i hi).2.trans hsafe
      · obtain ⟨i, hi, rfl⟩ := Option.mem_map.1 hk
        exact (hrevision i (List.mem_of_getLast? hi)).1

theorem Watching.poll_eq (h : Watching w) {limit : Limit} {page : ProgressPage}
    (hpage : progress s.task deviceId w.terminal.progressCursor limit w.tables = .ok page) :
    w.poll s deviceId limit =
      ⟨w.tables, ⟨page.nextCursor.or w.terminal.progressCursor, page.resultRevision⟩,
        w.items ++ page.items⟩ := by
  unfold Watch.poll
  simp only [hpage, applyInventoryProgressPage, (h.page hpage).2.2.2, Option.map_some]

theorem Watching.poll (h : Watching w) (limit : Limit) : Watching (w.poll s deviceId limit) := by
  cases hpage : progress s.task deviceId w.terminal.progressCursor limit w.tables with
  | error e =>
    rw [Watch.poll, hpage]
    exact h
  | ok page =>
    obtain ⟨hitems, hnext, hrev, -⟩ := h.page hpage
    rw [h.poll_eq hpage]
    refine ⟨h.fed, ?_, hrev.le, ?_⟩
    · show Cursor.At _ (page.nextCursor.or w.terminal.progressCursor) _
      rw [hnext]
      exact h.place.page limit
    · show (Cursor.upTo _ (page.nextCursor.or w.terminal.progressCursor) _).mapM _ = _
      rw [hnext, Cursor.upTo_page h.distinct]
      exact mapM_append_ok h.held hitems

theorem Watching.call (h : Watching w) (c : Call s) :
    Watching { w with tables := c.after w.tables } := by
  unfold Call.after
  cases hc : c.serve w.tables with
  | error e => exact h
  | ok t =>
    obtain ⟨rows, cs, hadv⟩ := c.serve_advanced hc
    have hgrows := hadv.grows h.fed w.tables.kept t.kept
    refine ⟨hadv.fed h.fed t.kept, hgrows.at h.place, h.revision.trans hadv.revision, ?_⟩
    show (Cursor.upTo _ w.terminal.progressCursor (stream t.toRows)).mapM _ = _
    rw [hgrows.upTo h.place]
    exact h.held

theorem Watching.step (h : Watching w) (x : WatchStep s) : Watching (w.step deviceId x) := by
  cases x with
  | call c => exact h.call c
  | poll limit => exact h.poll limit

theorem Watching.start (start : Start) : Watching start.watch where
  fed := start.fed
  place := nofun
  revision := le_rfl
  held := rfl

theorem Watching.foldl (h : Watching w) (steps : List (WatchStep s)) :
    Watching (steps.foldl (Watch.step deviceId) w) := by
  induction steps generalizing w with
  | nil => exact h
  | cons x steps ih => exact ih (h.step x)

/-! ## What the device holds in the end -/

theorem Fed.lastSaid {r : Rows} (h : Fed r) (hkept : r.Kept)
    (hitems : (Cursor.sorted StreamRow.place (stream r)).mapM (·.toItem) = .ok items)
    (codeHash : Hash) :
    lastSaid codeHash items = (r.codeResults.find? (·.codeHash = codeHash)).map (·.said) := by
  have hall := mapM_eq_ok.1 hitems
  have hof : ∀ i ∈ items, i.content.said codeHash ≠ none →
      ∃ c ∈ r.progressChanges, c.codeHash = codeHash ∧ c.item = i := by
    intro i hi hsaid
    obtain ⟨n, hn, rfl⟩ := List.getElem_of_mem hi
    have hlen := hall.length_eq
    have hx := hall.get (i := n) (by omega) hn
    have hmem : (Cursor.sorted StreamRow.place (stream r)).get ⟨n, by omega⟩ ∈ stream r :=
      Cursor.mem_sorted.1 (List.get_mem _ _)
    rcases mem_stream.1 hmem with ⟨c, hc, hcx⟩ | ⟨k, hk, hkx⟩
    · rw [← hcx, c.toItem] at hx
      have hci : c.item = items.get ⟨n, hn⟩ := Except.ok.inj hx
      refine ⟨c, hc, ?_, hci⟩
      by_contra hne
      refine hsaid ?_
      rw [show items[n] = c.item from hci.symm]
      exact if_neg hne
    · exact absurd (Correction.toItem_said hkx hx codeHash) hsaid
  cases hfind : r.codeResults.find? (·.codeHash = codeHash) with
  | none =>
    have hnone : items.filterMap (·.content.said codeHash) = [] := by
      rw [List.filterMap_eq_nil_iff]
      intro i hi
      by_contra hsaid
      obtain ⟨c, hc, hcode, -⟩ := hof i hi hsaid
      obtain ⟨x, hx, hxc⟩ := h.known c hc
      simpa [hxc, hcode] using List.find?_eq_none.1 hfind x hx
    rw [InventorySync.lastSaid, hnone]
    rfl
  | some x =>
    have hx := List.mem_of_find?_eq_some hfind
    have hxc : x.codeHash = codeHash := by simpa using List.find?_some hfind
    obtain ⟨c, hc, hcx, hlatest⟩ := h.reported x hx
    have hstream : c.streamRow ∈ Cursor.sorted StreamRow.place (stream r) :=
      Cursor.mem_sorted.2 (mem_stream.2 (.inl ⟨c, hc, rfl⟩))
    obtain ⟨before, after, hsplit⟩ := List.append_of_mem hstream
    rw [hsplit] at hall
    obtain ⟨items1, items2, h1, h2, rfl⟩ := forall₂_append_left hall
    cases h2 with
    | @cons _ i _ items2 hi h2 =>
    obtain rfl : c.item = i := Except.ok.inj (c.toItem.symm.trans hi)
    have hsaid : c.item.content.said codeHash = some x.said := by
      show (if c.codeHash = codeHash then _ else _) = _
      rw [if_pos (hcx.codeHash.trans hxc), CodeResult.said, CodeResult.asWinner, hcx.classification,
        hcx.observed, hcx.codeHash, hcx.event, hcx.device, hcx.instant]
    have hnone : items2.filterMap (·.content.said codeHash) = [] := by
      rw [List.filterMap_eq_nil_iff]
      intro i hi
      by_contra hne
      obtain ⟨c', hc', hcode, rfl⟩ := hof i
        (List.mem_append_right _ (List.mem_cons_of_mem _ hi)) hne
      have hlater : c.streamRow.place < c'.item.cursor := by
        have hp := Cursor.sorted_pairwise (h.distinct hkept)
        rw [hsplit] at hp
        have hafter := (List.pairwise_cons.1 (List.pairwise_append.1 hp).2.1).1
        have hcur := forall₂_cursor h2
        have hin : c'.item.cursor ∈ after.map (·.place) :=
          hcur ▸ List.mem_map_of_mem (f := fun j : ProgressItem => j.cursor) hi
        obtain ⟨y, hy, hyc⟩ := List.mem_map.1 hin
        exact hyc ▸ hafter y hy
      rcases hlatest c' hc' (hcode.trans hxc.symm) with rfl | hlt
      · exact absurd hlater (lt_irrefl _)
      · rcases ProgressCursor.lt_iff.1 hlater with hlt' | ⟨heq, -⟩
        · exact absurd (hlt.trans hlt') (lt_irrefl _)
        · exact hlt.ne heq.symm
    have hcons : (c.item :: items2).filterMap (·.content.said codeHash) = [x.said] := by
      rw [List.filterMap_cons_some (f := fun i : ProgressItem => i.content.said codeHash) hsaid,
        hnone]
    rw [InventorySync.lastSaid, List.filterMap_append, hcons, List.getLast?_concat]
    rfl

theorem watch_append (start : Start) (steps later : List (WatchStep s)) :
    watch start deviceId (steps ++ later) =
      later.foldl (Watch.step deviceId) (watch start deviceId steps) :=
  List.foldl_append

/-- A change that was committed stays in the stream. -/
theorem Watching.mem_later (h : Watching w) {x : StreamRow}
    (hx : x ∈ stream w.tables.toRows) (steps : List (WatchStep s)) :
    x ∈ stream (steps.foldl (Watch.step deviceId) w).tables.toRows := by
  induction steps generalizing w with
  | nil => exact hx
  | cons y steps ih =>
    refine ih (h.step y) ?_
    cases y with
    | call c =>
      show x ∈ stream (c.after w.tables).toRows
      unfold Call.after
      cases hc : c.serve w.tables with
      | error e => exact hx
      | ok t =>
        obtain ⟨rows, cs, hadv⟩ := c.serve_advanced hc
        obtain ⟨new, hp, -⟩ := (hadv.grows h.fed w.tables.kept t.kept).added
        exact hp.mem_iff.2 (List.mem_append_left _ hx)
    | poll limit =>
      have htables : (w.step deviceId (.poll limit : WatchStep s)).tables = w.tables := by
        show (w.poll s deviceId limit).tables = w.tables
        unfold Watch.poll
        split
        · rfl
        · split <;> rfl
      rw [htables]
      exact hx

/-- **The progress feed loses nothing.** After any run of transactions and polls, the device holds
the items of the stream up to its cursor, in order and each once; every page it is given it accepts;
and a page that is not full leaves it with the whole stream, whose last word on a code is the row of
the code. A change that was committed never leaves the stream. -/
theorem progress_loses_nothing (start : Start) (deviceId : Uuid) (steps : List (WatchStep s)) :
    let w := watch start deviceId steps
    (Cursor.upTo StreamRow.place w.terminal.progressCursor (stream w.tables.toRows)).mapM
        (·.toItem) = .ok w.items ∧
      (w.items.Pairwise fun a b => a.cursor.before b.cursor) ∧
      (∀ later : List (WatchStep s), ∀ x ∈ stream w.tables.toRows,
        x ∈ stream (watch start deviceId (steps ++ later)).tables.toRows) ∧
      ∀ limit : Limit,
        (w.tables.participants.any (·.current deviceId) = true →
          ∃ page, progress s.task deviceId w.terminal.progressCursor limit w.tables = .ok page) ∧
        ∀ page, progress s.task deviceId w.terminal.progressCursor limit w.tables = .ok page →
          parseInventoryProgressPage page ⟨s.task.inventoryId, s.task.snapshotId,
              w.terminal.progressCursor, w.terminal.progressResultRevision⟩ = some page ∧
            (w.poll s deviceId limit).items = w.items ++ page.items ∧
            (page.items.length < limit →
              (Cursor.sorted StreamRow.place (stream w.tables.toRows)).mapM (·.toItem) =
                  .ok (w.items ++ page.items) ∧
                ∀ codeHash, lastSaid codeHash (w.items ++ page.items) =
                  (w.tables.codeResults.find? (·.codeHash = codeHash)).map (·.said)) := by
  intro w
  have h : Watching w := (Watching.start start).foldl steps
  refine ⟨h.held, ?_, fun later x hx => ?_, fun limit => ⟨fun hpart => ?_, fun page hpage => ?_⟩⟩
  · have hcursors := forall₂_cursor (mapM_eq_ok.1 h.held)
    have hp : (w.items.map (·.cursor)).Pairwise (· < ·) := by
      rw [hcursors, List.pairwise_map]
      exact (Cursor.sorted_pairwise h.distinct).filter _
    exact (List.pairwise_map.1 hp).imp fun hab => ProgressCursor.lt_iff.1 hab
  · rw [watch_append]
    exact h.mem_later hx later
  · obtain ⟨items, hitems⟩ := mapM_isOk (f := fun x : StreamRow => x.toItem)
      (l := Cursor.page StreamRow.place limit w.terminal.progressCursor (stream w.tables.toRows))
      fun x hx => h.fed.toItem (mem_page hx).1
    rw [progress, ensure, if_pos hpart, hitems]
    exact ⟨_, rfl⟩
  · obtain ⟨hitems, -, -, hparse⟩ := h.page hpage
    refine ⟨hparse, ?_, fun hshort => ?_⟩
    · rw [h.poll_eq hpage]
    · have hlen := (mapM_eq_ok.1 hitems).length_eq
      have hall : (Cursor.sorted StreamRow.place (stream w.tables.toRows)).mapM (·.toItem) =
          .ok (w.items ++ page.items) := by
        have hpageShort : (Cursor.page StreamRow.place limit w.terminal.progressCursor
            (stream w.tables.toRows)).length < limit := by omega
        rw [← Cursor.upTo_last h.distinct hpageShort, Cursor.upTo_page h.distinct]
        exact mapM_append_ok h.held hitems
      exact ⟨hall, h.fed.lastSaid w.tables.kept hall⟩

end Markiro.InventorySync
