import Markiro.Delta.Registered
import Markiro.Lib.Delta
import Markiro.Sscc.Labels

/-!
# A device's walks over the box registry

A device reads the registry page by page while the host commits requests. Its reading is a reader of
stamped items (`Delta.Reader`): every page is a page of the walk it belongs to (`page_reads`), every
request moves the source on, and so no change is lost (`registry_delta_complete`).
-/

namespace Markiro

open Calendar Delta Text

/-! ## The device and the host -/

/-- A device's mirror of the registry: the end of its last walk, the end and the cursor of the one
that goes on, and the items it applied. -/
structure Mirror where
  since : Option String
  going : Option (String × String)
  log : List BoxRegistryItem

/-- The query of the next page: every page of a walk repeats its window. -/
def Mirror.query (m : Mirror) (limit : Option ℕ) : RegistryQuery :=
  ⟨m.since, m.going.map (·.1), m.going.map (·.2), limit⟩

def Mirror.apply (m : Mirror) (page : BoxRegistryPage) : Mirror :=
  match page.nextCursor with
  | some cursor => ⟨m.since, some (page.until, cursor), m.log ++ page.items⟩
  | none => ⟨some page.until, none, m.log ++ page.items⟩

/-- The host and one device, with what an observer notes: the ends of windows named so far, the
registry at the first page of the walk less what changed since, and the boxes that were taken apart
at the first page of the first walk. -/
structure Observed where
  db : Db
  mirror : Mirror
  untils : List String
  still : List BoxRegistryItem
  skipped : List BoxRegistryItem

/-- A request commits, or the device asks for a page. -/
inductive Event where
  | commit (c : Call)
  | page (limit : Option ℕ)

/-- A page is answered. -/
def Observed.read (s : Observed) (page : BoxRegistryPage) : Observed where
  db := s.db
  mirror := s.mirror.apply page
  untils := s.untils ++ [page.until]
  still := if s.mirror.going.isNone then s.db.items else s.still
  skipped := s.skipped ++
    if s.mirror.going.isNone && s.mirror.since.isNone then s.db.items.filter BoxRegistryItem.isRemove
    else []

def Observed.next (k : Crates) (s : Observed) : Event → Observed
  | .commit c => { s with
      db := step k s.db c
      still := s.still.filter (· ∈ (step k s.db c).items) }
  | .page limit =>
    match boxRegistry k (s.mirror.query limit) s.db with
    | .ok page => s.read page
    | .error _ => s

def Observed.run (k : Crates) (s : Observed) (events : List Event) : Observed :=
  events.foldl (Observed.next k) s

/-- The host and a device that has read nothing. -/
def Observed.start (db : Db) : Observed := ⟨db, ⟨none, none, []⟩, [], [], []⟩

/-- The clock is not before the epoch, and a page's limit is one the host takes. -/
def Event.Fair (k : Crates) : Event → Prop
  | .commit c => epoch ≤ c.env.timestamp k
  | .page limit => ∀ n, limit = some n → 1 ≤ n ∧ n ≤ maxLimit

/-! ## Cursors -/

section Cursor

theorem pad_isDigit (w n : ℕ) : ∀ c ∈ pad w n, c.isDigit = true := by
  intro c hc
  rw [pad, List.leftpad, List.mem_append] at hc
  rcases hc with hc | hc
  · rw [List.eq_of_mem_replicate hc]
    rfl
  · exact Nat.isDigit_of_mem_toDigits (by decide) (by decide) hc

theorem secondText_bar (d : DateTime) : '|' ∉ (secondText d).toList := by
  have hpad : ∀ w n, '|' ∉ pad w n := fun w n h => absurd (pad_isDigit w n _ h) (by decide)
  simp [secondText, secondColumns, hpad]

theorem span_bar {a b : List Char} (h : '|' ∉ a) :
    (a ++ '|' :: b).span (fun c => c ≠ '|') = (a, '|' :: b) := by
  rw [List.span_eq_takeWhile_dropWhile]
  have hall : ∀ c ∈ a, decide (c ≠ '|') = true := by
    intro c hc
    rw [decide_eq_true_eq]
    rintro rfl
    exact h hc
  rw [List.takeWhile_append_of_pos hall, List.dropWhile_append_of_pos hall]
  simp

theorem readCursor_cursor {k : Crates} {t sscc : String} (ht : IsTimestamp t)
    (hs : byteLen sscc = 18) : readCursor k (t ++ "|" ++ sscc) = some (t, sscc) := by
  obtain ⟨d, rfl⟩ := ht
  have hsplit : splitOnce '|' (secondText d.1 ++ "|" ++ sscc) = some (secondText d.1, sscc) := by
    have hlist : (secondText d.1 ++ "|" ++ sscc).toList = (secondText d.1).toList ++ '|' :: sscc.toList := by
      simp [String.toList_append]
    rw [splitOnce, hlist, span_bar (secondText_bar d.1)]
    simp
  rw [readCursor, hsplit]
  simp [Option.filter, parseTimestamp, k.parse_secondText, hs]

theorem checkTimestamp_ok {k : Crates} {field t : String} (ht : IsTimestamp t) :
    checkTimestamp k field t = .ok () := by
  obtain ⟨d, rfl⟩ := ht
  rw [checkTimestamp, parseTimestamp, k.parse_secondText]
  rfl

theorem IsTimestamp.ne_empty {t : String} (ht : IsTimestamp t) : t ≠ "" := by
  obtain ⟨d, rfl⟩ := ht
  intro h
  have := congrArg String.toList h
  simp [secondText, secondColumns] at this

theorem isTimestamp_epoch : IsTimestamp epoch :=
  ⟨⟨⟨1970, 1, 1, 0, 0, 0, 0, 0, by decide⟩, rfl⟩, by decide⟩

end Cursor

/-! ## Rows and items -/

section Rows

/-- How the registry is read. -/
def registryView : View BoxRegistryItem String String where
  key := BoxRegistryItem.sscc
  stamp := BoxRegistryItem.updatedAt
  hidden := BoxRegistryItem.isRemove

theorem RegistryRow.item_pos (r : RegistryRow) : registryView.pos r.item = toLex r.key := by
  unfold RegistryRow.item
  split <;> rfl

theorem RegistryRow.item_stamp (r : RegistryRow) : registryView.stamp r.item = r.changedAt := by
  unfold RegistryRow.item
  split <;> rfl

theorem RegistryRow.item_isRemove (r : RegistryRow) :
    registryView.hidden r.item = r.disassembledAt.isSome := by
  unfold RegistryRow.item
  split
  · simp_all [registryView, BoxRegistryItem.isRemove]
  · simp_all [registryView, BoxRegistryItem.isRemove]

theorem keyLt_iff {a b : String × String} : keyLt a b = true ↔ toLex a < toLex b := by
  rw [keyLt, decide_eq_true_eq, Prod.Lex.toLex_lt_toLex]

variable {db : Db}

def Db.rows (db : Db) : List RegistryRow := db.boxes.filterMap db.registryRow

theorem items_eq (db : Db) : db.items = db.rows.map RegistryRow.item := by
  rw [Db.items, Db.rows, List.map_filterMap]
  rfl

/-- A window without rows before `since` and hidden ones on a first walk. -/
theorem inWindow_iff {r : RegistryRow} {since : Option String} {u : String}
    {after : Option (String × String)} (hr : r.changedAt ≠ "") (hsince : ∀ t ∈ since, t ≠ "") :
    r.inWindow (since.getD "") u (after.getD ("", "")) = true ↔
      registryView.In ⟨since, u⟩ r.item ∧ registryView.After (after.map toLex) r.item := by
  have hempty : ∀ t : String, "" ≤ t := by
    refine fun t => not_lt.1 fun h => ?_
    rw [String.lt_iff_toList_lt] at h
    exact List.not_lt_nil _ h
  have hstamp := r.item_stamp
  have hafter : keyLt (after.getD ("", "")) r.key = true ↔
      registryView.After (after.map toLex) r.item := by
    rw [keyLt_iff]
    cases after with
    | none =>
      refine ⟨?_, fun _ => ?_⟩
      · rintro - _ ⟨⟩
      · rw [Prod.Lex.toLex_lt_toLex]
        exact .inl (lt_of_le_of_ne (hempty _) (Ne.symm hr))
    | some a =>
      refine ⟨?_, fun h => ?_⟩
      · rintro h _ ⟨⟩
        rw [RegistryRow.item_pos]
        exact h
      · have := h _ rfl
        rwa [RegistryRow.item_pos] at this
  have hin : (decide (since.getD "" ≤ r.changedAt ∧ r.changedAt ≤ u) &&
        (decide (since.getD "" ≠ "") || r.disassembledAt.isNone)) = true ↔
      registryView.In ⟨since, u⟩ r.item := by
    rw [Bool.and_eq_true, decide_eq_true_eq, Bool.or_eq_true, decide_eq_true_eq]
    cases since with
    | none =>
      refine ⟨fun h => ⟨by simp, hstamp ▸ h.1.2, fun _ => ?_⟩, fun h => ⟨⟨?_, ?_⟩, .inr ?_⟩⟩
      · rw [RegistryRow.item_isRemove]
        have := h.2.resolve_left (by simp)
        cases hd : r.disassembledAt <;> simp_all
      · exact hempty _
      · exact hstamp ▸ h.until
      · have := h.shown rfl
        rw [RegistryRow.item_isRemove] at this
        cases hd : r.disassembledAt <;> simp_all
    | some t =>
      refine ⟨fun h => ⟨?_, hstamp ▸ h.1.2, by rintro ⟨⟩⟩, fun h => ⟨⟨?_, ?_⟩, .inl ?_⟩⟩
      · rintro _ ⟨⟩
        exact hstamp ▸ h.1.1
      · exact hstamp ▸ h.since t rfl
      · exact hstamp ▸ h.until
      · exact hsince t rfl
  rw [RegistryRow.inWindow, Bool.and_eq_true, hin, hafter]

/-- The rows of a window, in the order of the pages. -/
theorem registryRows_sorted {since u : String} {after : String × String} (hi : db.Registered) :
    ((db.registryRows since u after).map RegistryRow.item).Pairwise
      fun a b => registryView.pos a < registryView.pos b := by
  have hle : ((db.registryRows since u after).map RegistryRow.item).Pairwise
      fun a b => registryView.pos a ≤ registryView.pos b := by
    have hkey (a b : RegistryRow) : keyLt b.key a.key = false ↔ toLex a.key ≤ toLex b.key := by
      rw [Bool.eq_false_iff, ne_eq, keyLt_iff, not_lt]
    have htotal : Std.Total fun a b : RegistryRow => keyLt b.key a.key = false :=
      ⟨fun a b => by simpa only [hkey] using le_total _ _⟩
    have htrans : IsTrans RegistryRow fun a b : RegistryRow => keyLt b.key a.key = false :=
      ⟨fun a b c => by simpa only [hkey] using le_trans⟩
    rw [List.pairwise_map]
    refine (List.pairwise_insertionSort _ _).imp fun {a b} h => ?_
    rw [RegistryRow.item_pos, RegistryRow.item_pos]
    exact (hkey a b).1 h
  have hnodup : ((db.registryRows since u after).map RegistryRow.item).Pairwise
      fun a b => a.sscc ≠ b.sscc := by
    have hperm : ((db.registryRows since u after).map RegistryRow.item).Perm
        ((db.rows.filter (RegistryRow.inWindow since u after)).map RegistryRow.item) :=
      (List.perm_insertionSort _ _).map _
    have hall := hi.items_unique
    rw [items_eq] at hall
    have hrows := (hperm.map BoxRegistryItem.sscc).nodup_iff.2
      (hall.sublist ((List.filter_sublist.map RegistryRow.item).map BoxRegistryItem.sscc))
    rwa [List.Nodup, List.pairwise_map] at hrows
  refine (hle.and hnodup).imp fun {a b} h => lt_of_le_of_ne h.1 fun heq => h.2 ?_
  exact congrArg (fun p => (ofLex p).2) heq

theorem mem_registryRows {since : Option String} {u : String} {after : Option (String × String)}
    (hi : db.Registered) (hsince : ∀ t ∈ since, t ≠ "") (a : BoxRegistryItem) :
    a ∈ (db.registryRows (since.getD "") u (after.getD ("", ""))).map RegistryRow.item ↔
      a ∈ db.items ∧ registryView.In ⟨since, u⟩ a ∧ registryView.After (after.map toLex) a := by
  have hrow : ∀ r ∈ db.rows, r.changedAt ≠ "" := by
    intro r hr
    have := (hi.item_stamped (items_eq db ▸ List.mem_map_of_mem hr)).2.1.ne_empty
    rwa [← r.item_stamp]
  simp only [List.mem_map, Db.registryRows, List.mem_insertionSort, List.mem_filter, items_eq]
  constructor
  · rintro ⟨r, ⟨hr, hw⟩, rfl⟩
    exact ⟨⟨r, hr, rfl⟩, (inWindow_iff (hrow r hr) hsince).1 hw⟩
  · rintro ⟨⟨r, hr, rfl⟩, hw⟩
    exact ⟨r, ⟨hr, (inWindow_iff (hrow r hr) hsince).2 hw⟩, rfl⟩

end Rows

/-! ## Pages -/

section Pages

variable {k : Crates} {db : Db}

def cursorPos (k : Crates) (cursor : String) : Option (String ×ₗ String) :=
  (readCursor k cursor).map toLex

variable {u : String} {n : ℕ} {restoreEpoch : Option String}

theorem registryPage_items (rows : List RegistryRow) :
    (registryPage u n restoreEpoch (rows.take (n + 1))).items =
    (rows.map RegistryRow.item).take n := by
  show ((rows.take (n + 1)).take n).map RegistryRow.item = _
  rw [List.take_take, Nat.min_eq_left (by omega), List.map_take]

theorem registryPage_nextCursor (rows : List RegistryRow) :
    (registryPage u n restoreEpoch (rows.take (n + 1))).nextCursor =
      if n < rows.length then (rows.take n).getLast?.map RegistryRow.cursor else none := by
  show (if n < (rows.take (n + 1)).length then
    ((rows.take (n + 1)).take n).getLast?.map RegistryRow.cursor else none) = _
  rw [List.take_take, Nat.min_eq_left (by omega), List.length_take]
  congr 1
  rw [lt_min_iff]
  simp

/-- **A page of the host is a page of its walk**, and its cursor can be read. -/
theorem registryPage_isPage {since : Option String} {after : Option (String × String)}
    (hi : db.Registered) (hsince : ∀ t ∈ since, t ≠ "") (hn : 0 < n) :
    let page := registryPage u n restoreEpoch
      ((db.registryRows (since.getD "") u (after.getD ("", ""))).take (n + 1))
    registryView.IsPage db.items ⟨since, u⟩ (after.map toLex) page.items
        (page.nextCursor.bind (cursorPos k)) ∧
      ∀ cursor ∈ page.nextCursor, (cursorPos k cursor).isSome = true := by
  intro page
  have hmem := @mem_registryRows db since u after hi hsince
  have hread : ∀ r ∈ db.registryRows (since.getD "") u (after.getD ("", "")),
      cursorPos k r.cursor = some (registryView.pos r.item) := by
    intro r hr
    obtain ⟨hlen, htime, -⟩ := hi.item_stamped ((hmem r.item).1 (List.mem_map_of_mem hr)).1
    have hkey : r.item.updatedAt = r.changedAt ∧ r.item.sscc = r.sscc := by
      unfold RegistryRow.item
      split <;> exact ⟨rfl, rfl⟩
    rw [hkey.2] at hlen
    rw [hkey.1] at htime
    rw [cursorPos, RegistryRow.cursor, readCursor_cursor htime hlen, r.item_pos]
    rfl
  have hpage := View.IsPage.of_sorted hn (registryRows_sorted hi) hmem
  simp only [page]
  rw [registryPage_items, registryPage_nextCursor]
  rw [List.length_map, ← List.map_take, List.getLast?_map, Option.map_map] at hpage
  generalize db.registryRows (since.getD "") u (after.getD ("", "")) = rows at hread hpage
  split
  · rename_i hlt
    rw [if_pos hlt] at hpage
    cases hlast : (rows.take n).getLast? with
    | none =>
      rw [hlast] at hpage
      rw [← List.map_take]
      exact ⟨hpage, by rintro _ ⟨⟩⟩
    | some r =>
      have hr := hread r (List.mem_of_mem_take (List.mem_of_getLast? hlast))
      rw [hlast] at hpage
      simp only [Option.map_some, Option.bind_some, ← List.map_take, hr]
      refine ⟨hpage, ?_⟩
      rintro _ ⟨⟩
      rw [hr]
      rfl
  · rename_i hle
    rw [if_neg hle] at hpage
    rw [← List.map_take]
    exact ⟨hpage, by rintro _ ⟨⟩⟩

end Pages

/-! ## The invariant -/

section Invariant

variable {k : Crates} {s : Observed} {m : Mirror} {limit : Option ℕ}

/-- Where the device is in its walks. -/
def Mirror.walk (k : Crates) (m : Mirror) : Walk String String :=
  match m.going with
  | none => .idle m.since
  | some (u, cursor) => .reading ⟨m.since, u⟩ (cursorPos k cursor)

/-- The device as a reader. -/
def Observed.reader (k : Crates) (s : Observed) : Reader BoxRegistryItem String String :=
  ⟨s.mirror.walk k, s.still, s.skipped, s.mirror.log⟩

/-- What the device sends is what the host takes, and below the newest stamp. -/
structure Mirror.Valid (k : Crates) (m : Mirror) (newest : String) : Prop where
  since : ∀ t ∈ m.since, IsTimestamp t ∧ epoch ≤ t ∧ t ≤ newest
  going : ∀ g ∈ m.going, IsTimestamp g.1 ∧ epoch ≤ g.1 ∧ g.1 ≤ newest ∧
    (cursorPos k g.2).isSome = true

/-- Nothing is lost so far. -/
structure Observed.Sound (k : Crates) (s : Observed) : Prop where
  registered : s.db.Registered
  untils : ∀ u ∈ s.untils, u ≤ s.db.newest
  valid : s.mirror.Valid k s.db.newest
  follows : registryView.Follows s.db.items (s.reader k)
  skipped : ∀ a ∈ s.skipped, a.isRemove = true

theorem Mirror.Valid.mono {newest newer : String} (h : m.Valid k newest) (hle : newest ≤ newer) :
    m.Valid k newer := by
  refine ⟨fun t ht => ?_, fun g hg => ?_⟩
  · obtain ⟨h1, h2, h3⟩ := h.since t ht
    exact ⟨h1, h2, le_trans h3 hle⟩
  · obtain ⟨h1, h2, h3, h4⟩ := h.going g hg
    exact ⟨h1, h2, le_trans h3 hle, h4⟩

theorem Mirror.Valid.below {newest : String} (h : m.Valid k newest) : (m.walk k).Below newest := by
  unfold Mirror.walk
  cases hg : m.going with
  | none =>
    cases hs : m.since with
    | none => trivial
    | some t => exact (h.since t hs).2.2
  | some g => exact (h.going g hg).2.2.1

/-- The end of a walk's window. -/
def Mirror.end (m : Mirror) (db : Db) : String :=
  match m.going with
  | none => db.registryUntil m.since
  | some (u, _) => u

/-- The rows the device asks for. -/
def Mirror.rows (k : Crates) (m : Mirror) (db : Db) : List RegistryRow :=
  db.registryRows (m.since.getD "") (m.end db)
    ((m.going.bind fun g => readCursor k g.2).getD ("", ""))

/-- The host answers every page of the device. -/
theorem boxRegistry_ok {db : Db} (h : m.Valid k db.newest)
    (hlimit : ∀ n, limit = some n → 1 ≤ n ∧ n ≤ maxLimit) :
    boxRegistry k (m.query limit) db = .ok (registryPage (m.end db) (limit.getD defaultLimit)
      db.site.restoreEpoch ((m.rows k db).take (limit.getD defaultLimit + 1))) := by
  have hn : ¬((m.query limit).limit.getD defaultLimit < 1 ∨
      maxLimit < (m.query limit).limit.getD defaultLimit) := by
    show ¬(limit.getD defaultLimit < 1 ∨ maxLimit < limit.getD defaultLimit)
    cases limit with
    | none => decide
    | some n =>
      obtain ⟨h1, h2⟩ := hlimit n rfl
      simp only [Option.getD_some]
      omega
  have hsince : m.since.elim (.ok ()) (checkTimestamp k "since") = .ok () := by
    cases hs : m.since with
    | none => rfl
    | some t => exact checkTimestamp_ok (h.since t hs).1
  have hwindow : (m.query limit).window k db = .ok (m.end db,
      (m.going.bind fun g => readCursor k g.2).getD ("", "")) := by
    unfold RegistryQuery.window Mirror.query Mirror.end
    cases hg : m.going with
    | none => rfl
    | some g =>
      obtain ⟨htime, -, -, hcursor⟩ := h.going g hg
      rw [cursorPos, Option.isSome_map] at hcursor
      obtain ⟨key, hkey⟩ := Option.isSome_iff_exists.1 hcursor
      simp only [Option.map_some, checkTimestamp_ok htime, hkey, Option.bind_some, Option.getD_some]
      rfl
  rw [boxRegistry, if_neg hn]
  have hq : (m.query limit).since = m.since := rfl
  rw [hq, hsince, hwindow]
  rfl

theorem Mirror.Valid.end_le {db : Db} (hi : db.Registered) (h : m.Valid k db.newest) :
    IsTimestamp (m.end db) ∧ epoch ≤ m.end db ∧ m.end db ≤ db.newest := by
  unfold Mirror.end
  cases hg : m.going with
  | some g =>
    obtain ⟨h1, h2, h3, -⟩ := h.going g hg
    exact ⟨h1, h2, h3⟩
  | none =>
    have hfloor : IsTimestamp (m.since.getD epoch) ∧ epoch ≤ m.since.getD epoch ∧
        m.since.getD epoch ≤ db.newest := by
      cases hs : m.since with
      | none => exact ⟨isTimestamp_epoch, le_rfl, (registryUntil_le.1 (le_refl db.newest)).1⟩
      | some t => exact h.since t hs
    have hself := registryUntil_le.1 (le_refl (db.registryUntil m.since))
    refine ⟨?_, le_trans hfloor.2.1 hself.1, ?_⟩
    · show IsTimestamp (db.registryUntil m.since)
      rcases registryUntil_cases m.since db with hu | ⟨x, hx, hu⟩
      · rw [hu]
        exact hfloor.1
      · exact (hi.closedStamp hx hu).1
    · exact registryUntil_le.2 ⟨hfloor.2.2, (registryUntil_le.1 (le_refl db.newest)).2⟩

/-- **A page of the device is read as a page of its walk.** -/
theorem page_reads (h : s.Sound k) (hlimit : ∀ n, limit = some n → 1 ≤ n ∧ n ≤ maxLimit) :
    registryView.Reads s.db.items (s.reader k) ((s.next k (.page limit)).reader k) ∧
      (s.next k (.page limit)).mirror.Valid k s.db.newest ∧
      (s.next k (.page limit)).untils = s.untils ++ [s.mirror.end s.db] ∧
      (s.next k (.page limit)).db = s.db := by
  obtain ⟨htime, hepoch, hle⟩ := h.valid.end_le h.registered
  have hn : 0 < limit.getD defaultLimit := by
    cases limit with
    | none => decide
    | some n => exact (hlimit n rfl).1
  have hsince : ∀ t ∈ s.mirror.since, t ≠ "" := fun t ht => (h.valid.since t ht).1.ne_empty
  have hnext : s.next k (.page limit) = s.read (registryPage (s.mirror.end s.db)
      (limit.getD defaultLimit) s.db.site.restoreEpoch
      ((s.mirror.rows k s.db).take (limit.getD defaultLimit + 1))) := by
    rw [Observed.next, boxRegistry_ok h.valid hlimit]
  obtain ⟨hpage, hcursor⟩ := @registryPage_isPage k s.db (s.mirror.end s.db)
    (limit.getD defaultLimit) s.db.site.restoreEpoch s.mirror.since
    (s.mirror.going.bind fun g => readCursor k g.2) h.registered hsince hn
  rw [hnext]
  generalize hp : registryPage (s.mirror.end s.db) (limit.getD defaultLimit) s.db.site.restoreEpoch
    ((s.mirror.rows k s.db).take (limit.getD defaultLimit + 1)) = page
  have huntil : page.until = s.mirror.end s.db := by
    rw [← hp]
    rfl
  rw [Mirror.rows] at hp
  rw [hp] at hpage hcursor
  have hwalk : (s.mirror.apply page).walk k =
      Window.next ⟨s.mirror.since, s.mirror.end s.db⟩ (page.nextCursor.bind (cursorPos k)) := by
    rw [← huntil]
    unfold Mirror.apply Mirror.walk
    cases hc : page.nextCursor with
    | none => rfl
    | some cursor =>
      obtain ⟨p, hp⟩ := Option.isSome_iff_exists.1 (hcursor cursor hc)
      simp only [Option.bind_some, hp]
      rfl
  have hlog : (s.mirror.apply page).log = s.mirror.log ++ page.items := by
    unfold Mirror.apply
    split <;> rfl
  refine ⟨?_, ?_, by rw [Observed.read, huntil], rfl⟩
  · rw [Observed.reader, Observed.reader]
    simp only [Observed.read]
    rw [hwalk, hlog, Mirror.walk]
    cases hg : s.mirror.going with
    | none =>
      rw [hg] at hpage
      simp only [Option.isNone_none, Bool.true_and, if_true]
      refine .first (fun a ha => ?_) hpage
      have hend : s.mirror.end s.db = s.db.registryUntil s.mirror.since := by
        rw [Mirror.end, hg]
      rw [hend]
      obtain ⟨x, hx, hxa⟩ := List.mem_filterMap.1 ha
      refine (registryUntil_le.1 (le_refl (s.db.registryUntil s.mirror.since))).2 x hx _ ?_
      obtain ⟨hs, hc, -⟩ := itemOf_some hxa
      rw [BoxRow.closedStamp, hs, hc]
      rfl
    | some g =>
      rw [hg] at hpage
      have hend : s.mirror.end s.db = g.1 := by
        rw [Mirror.end, hg]
      rw [hend] at hpage ⊢
      simp only [Option.isNone_some, Bool.false_and, Bool.false_eq_true, if_false, List.append_nil]
      exact .next hpage
  · refine ⟨fun t ht => ?_, fun g hg => ?_⟩
    · simp only [Observed.read, Mirror.apply] at ht
      split at ht
      · exact h.valid.since t ht
      · obtain rfl := Option.some.inj ht
        rw [huntil]
        exact ⟨htime, hepoch, hle⟩
    · simp only [Observed.read, Mirror.apply] at hg
      split at hg
      · rename_i cursor hc
        obtain rfl := Option.some.inj hg
        simp only [huntil]
        exact ⟨htime, hepoch, hle, hcursor cursor hc⟩
      · cases hg

theorem Observed.Sound.commit {c : Call} (h : s.Sound k) (hfair : (Event.commit c).Fair k) :
    (s.next k (.commit c)).Sound k := by
  have hstep := step_delta hfair h.registered
  refine ⟨hstep.registered, fun u hu => le_trans (h.untils u hu) hstep.newest,
    h.valid.mono hstep.newest, ?_, h.skipped⟩
  exact View.Synced.advance h.follows h.valid.below hstep.items

theorem Observed.Sound.page (h : s.Sound k) (hfair : (Event.page limit).Fair k) :
    (s.next k (.page limit)).Sound k := by
  obtain ⟨hreads, hvalid, huntils, hdb⟩ := page_reads h hfair
  refine ⟨hdb ▸ h.registered, ?_, hdb ▸ hvalid, ?_, ?_⟩
  · rw [hdb, huntils]
    intro u hu
    rcases List.mem_append.1 hu with hu | hu
    · exact h.untils u hu
    · rw [List.mem_singleton.1 hu]
      exact (h.valid.end_le h.registered).2.2
  · rw [hdb]
    exact hreads.follows (fun a ha b hb => h.registered.items_unique.eq ha hb) h.follows
  · intro a ha
    rw [Observed.next, boxRegistry_ok h.valid hfair] at ha
    rcases List.mem_append.1 ha with ha | ha
    · exact h.skipped a ha
    · split at ha
      · exact (List.mem_filter.1 ha).2
      · cases ha

/-- At the end of a walk, what did not change since its first page was returned, now or before. -/
def Observed.Returned (s : Observed) : Prop :=
  s.mirror.going = none →
    ∀ a ∈ s.still, Latest BoxRegistryItem.sscc s.mirror.log a ∨ a ∈ s.skipped

theorem Observed.Returned.next {e : Event} (h : s.Returned) (hs : s.Sound k) (hfair : e.Fair k) :
    (s.next k e).Returned := by
  cases e with
  | commit c => exact fun hgoing a ha => h hgoing a (List.mem_filter.1 ha).1
  | page limit =>
    intro hgoing
    have hreads := (page_reads hs hfair).1
    refine hreads.ended (fun a ha b hb => hs.registered.items_unique.eq ha hb) hs.follows ?_
    rw [Observed.reader, Mirror.walk, hgoing]
    exact ⟨_, rfl⟩

theorem Observed.run_sound {events : List Event} (h : s.Sound k) (hr : s.Returned)
    (hfair : ∀ e ∈ events, e.Fair k) : (s.run k events).Sound k ∧ (s.run k events).Returned := by
  induction events generalizing s with
  | nil => exact ⟨h, hr⟩
  | cons e events ih =>
    have he := hfair e List.mem_cons_self
    refine ih ?_ (hr.next h he) fun e he => hfair e (List.mem_cons_of_mem _ he)
    cases e with
    | commit c => exact h.commit he
    | page limit => exact h.page he

theorem Observed.run_pages {limits : List (Option ℕ)} (h : s.Sound k)
    (hfair : ∀ limit ∈ limits, (Event.page limit).Fair k) :
    registryView.Pages s.db.items limits.length (s.reader k)
      ((s.run k (limits.map .page)).reader k) := by
  induction limits generalizing s with
  | nil => exact .nil _
  | cons limit limits ih =>
    have hl := hfair limit List.mem_cons_self
    obtain ⟨hreads, -, -, hdb⟩ := page_reads h hl
    have hrest := ih (h.page hl) fun l hl => hfair l (List.mem_cons_of_mem _ hl)
    rw [hdb] at hrest
    exact .cons hreads hrest

theorem Observed.start_sound (db : Db) :
    (Observed.start { db with boxes := [], pallets := [], warehousePallets := [], stays := [] }).Sound
      k := by
  have hempty : Db.Registered
      { db with boxes := [], pallets := [], warehousePallets := [], stays := [] } := by
    refine ⟨⟨List.nodup_nil, List.nodup_nil, List.nodup_nil, List.nodup_nil, by simp, by simp, by simp,
      List.nodup_nil⟩, ?_, ?_, ?_⟩
    · rintro _ ⟨⟩
    · rintro _ ⟨⟩
    · rintro _ ⟨⟩
  refine ⟨hempty, ?_, ⟨?_, ?_⟩, ⟨?_, ?_⟩, ?_⟩
  · rintro _ ⟨⟩
  · rintro _ ⟨⟩
  · rintro _ ⟨⟩
  · rintro _ ⟨⟩
  · rintro _ ⟨⟩
  · rintro _ ⟨⟩

end Invariant

/-! ## The delta -/

/-- **The registry delta loses no change.** From no boxes, in every run of requests and of pages of a
device, with a clock that never shows a time before the epoch and limits the host takes: every page
is answered; what a later request changes is stamped at or above every `until` named so far; at the
end of a walk every item that did not change since its first page was returned by it or before,
unless the box was taken apart before the device's first walk; and once no more changes commit, two
walks leave the device with the registry's item of every closed box that is not taken apart. -/
theorem registry_delta_complete (k : Crates) (db : Db) (events : List Event)
    (hfair : ∀ e ∈ events, e.Fair k) :
    let s := (Observed.start
      { db with boxes := [], pallets := [], warehousePallets := [], stays := [] }).run k events
    (∀ limit, (Event.page limit).Fair k →
      ∃ page, boxRegistry k (s.mirror.query limit) s.db = .ok page) ∧
    (∀ c, (Event.commit c).Fair k → ∀ a ∈ (step k s.db c).items, a ∉ s.db.items →
      ∀ u ∈ s.untils, u ≤ a.updatedAt) ∧
    (s.mirror.going = none → ∀ a ∈ s.still,
      Latest BoxRegistryItem.sscc s.mirror.log a ∨ a.isRemove = true ∧ a ∈ s.skipped) ∧
    ∀ limits : List (Option ℕ), (∀ limit ∈ limits, (Event.page limit).Fair k) →
      2 * (s.db.items.length + 1) ≤ limits.length →
      ∀ x ∈ s.db.boxes, x.sscc ≠ none → ∃ a, s.db.itemOf x = some a ∧
        (x.disassembledAt = none →
          Latest BoxRegistryItem.sscc (s.run k (limits.map .page)).mirror.log a) := by
  intro s
  obtain ⟨h, hreturned⟩ := Observed.run_sound (Observed.start_sound db)
    (by rintro - _ ⟨⟩) hfair
  refine ⟨?_, ?_, ?_, ?_⟩
  · intro limit hlimit
    exact ⟨_, boxRegistry_ok h.valid hlimit⟩
  · intro c hc a ha hnew u hu
    have hitem := ((step_delta hc h.registered).items a ha).resolve_left hnew
    exact le_trans (h.untils u hu) hitem
  · intro hgoing a ha
    exact (hreturned hgoing a ha).imp_right fun hskip => ⟨h.skipped a hskip, hskip⟩
  · intro limits hlimits hn x hx hs
    obtain ⟨a, ha, hxa⟩ := h.registered.item hx hs
    refine ⟨a, hxa, fun hwhole => ?_⟩
    have hpages := Observed.run_pages h hlimits
    have hsettled := hpages.settled (fun a ha b hb => h.registered.items_unique.eq ha hb) h.follows hn
    refine (hsettled a ha).resolve_right fun hskip => ?_
    have hpagesFair : ∀ e ∈ limits.map Event.page, e.Fair k := by
      intro e he
      obtain ⟨limit, hl, rfl⟩ := List.mem_map.1 he
      exact hlimits limit hl
    have hremove := (Observed.run_sound h hreturned hpagesFair).1.skipped a hskip
    rw [(itemOf_some hxa).2.2, hwhole] at hremove
    cases hremove

/-! ## Samples -/

namespace Sample

def takenApart : Call :=
  ⟨env "c", .facts station [
    .obj [("data", .obj [("boxId", .str box), ("exception", .str "disassemble"),
        ("occurredAt", .str "2024-01-01T10:02:00.000Z"), ("reasonCode", .str "damaged_package")]),
      ("id", .str "55555555-5555-4555-8555-555555555553"), ("kind", .str "box_exception"),
      ("shiftId", .str shift)]]⟩

/-- A box is closed, and a device reads two pages. -/
def walked : List Event := packed.map .commit ++ [.page none, .page (some 1)]

/-- A box is closed and taken apart before the device's first walk. -/
def apart : List Event := packed.map .commit ++ [.commit takenApart, .page none]

/-- The same requests with a clock of 1969. -/
def early (c : Call) : Call :=
  ⟨{ c.env with now := ⟨⟨1969, 12, 31, 23, 0, 0, 0, 0, by decide⟩, rfl⟩ }, c.request⟩

end Sample

open Sample

/-- A box is closed and a device walks twice: it has the box's item. -/
theorem registry_delta_complete_sample :
    let s := (Observed.start counted).run Crates.sample walked
    s.mirror.log.length = 2 ∧ ∀ a ∈ s.still, Latest BoxRegistryItem.sscc s.mirror.log a ∨
      a.isRemove = true ∧ a ∈ s.skipped := by
  have hrun : let m := ((Observed.start counted).run Crates.sample walked).mirror
      m.log.length = 2 ∧ m.going = none := by
    decide +kernel
  have hfair : ∀ e ∈ walked, e.Fair Crates.sample := by
    have hclock : ∀ c ∈ packed, epoch ≤ c.env.timestamp Crates.sample := by
      decide +kernel
    intro e he
    rcases List.mem_append.1 he with he | he
    · obtain ⟨c, hc, rfl⟩ := List.mem_map.1 he
      exact hclock c hc
    · rcases List.mem_cons.1 he with rfl | he
      · rintro n ⟨⟩
      · rw [List.mem_singleton.1 he]
        rintro n ⟨⟩
        decide
  exact ⟨hrun.1, (registry_delta_complete Crates.sample counted walked hfair).2.2.1
    hrun.2⟩

/-- The first walk passes over a box that was taken apart before it, and a clock before the epoch
stamps a change below the `until` of an empty registry. -/
theorem delta_of_apart_and_early :
    let s := (Observed.start counted).run Crates.sample apart
    let t := (Observed.start counted).run Crates.sample [.page none]
    (s.mirror.going = none ∧ s.still = s.db.items ∧ s.mirror.log = [] ∧
      s.db.boxes.map s.db.itemOf = [some (.remove "046000000000000017" "2024-01-01T12:00:00Z")]) ∧
    (t.db.items = [] ∧ t.untils = ["1970-01-01T00:00:00Z"] ∧
      (run Crates.sample t.db (packed.map early)).items.map
        BoxRegistryItem.updatedAt = ["1969-12-31T23:00:00Z"]) := by
  decide +kernel

end Markiro
