import Markiro.Host.Feed
import Markiro.Lib.Replica
import Markiro.Lib.Table

/-!
# The change feed loses nothing

An answer of the feed holds exactly the keys of a window of revisions (`changes_window`): from the
device's revision up to the one it is told to go on from. So walks of one snapshot read the feed from
end to end, and a device that reads window after window while the office writes is a replica of the
feed's records.
-/

namespace Markiro.Feed

open Replica Table

/-- The tables with what their keys and writers promise: one row to an id, no revision above the
host's, and no tombstone of a live record newer than the record. -/
structure Snapshot extends Tables where
  lines_unique : Unique (·.id) lines
  operators_unique : Unique (·.id) operators
  operatorBadges_unique : Unique (·.id) operatorBadges
  products_unique : Unique (·.id) products
  labelTemplates_unique : Unique (·.id) labelTemplates
  categoryTemplateDefaults_unique :
    Unique (fun d => (d.chzGroupCode, d.purpose)) categoryTemplateDefaults
  codeReleases_unique : Unique (·.id) codeReleases
  tombstones_unique : Unique (fun r => (r.entity, r.id)) tombstones
  bounded : ∀ key ∈ toTables.allKeys, key.rev ≤ revision
  restored : ∀ r ∈ tombstones, ∀ key ∈ toTables.allKeys, key.entity = r.entity → key.id = r.id →
    key.deleted = false → ∃ live ∈ toTables.allKeys, live.entity = r.entity ∧ live.id = r.id ∧
      live.deleted = false ∧ r.rev ≤ live.rev

/-! ## Keys -/

theorem Key.order_injective : Function.Injective Key.order := by
  intro a b h
  simp only [Key.order, EmbeddingLike.apply_eq_iff_eq, Prod.mk.injEq, Bool.not_inj_iff] at h
  obtain ⟨h1, h2, h3, h4⟩ := h
  cases a
  cases b
  simp_all

theorem Key.rev_le_of_order {a b : Key} (h : a.order ≤ b.order) : a.rev ≤ b.rev := by
  rcases Prod.Lex.toLex_le_toLex.1 h with h | h
  · exact le_of_lt h
  · exact le_of_eq h.1

variable {s : Snapshot}

theorem CategoryDefault.id_injective {a b : CategoryDefault} (h : a.id = b.id) :
    (a.chzGroupCode, a.purpose) = (b.chzGroupCode, b.purpose) := by
  have hdigits : ∀ n : ℕ, ∀ c ∈ (toString n).toList, decide (c ≠ ':') = true := by
    intro n c hc
    rw [Nat.toString_eq_repr, Nat.toList_repr] at hc
    have hdigit := Nat.isDigit_of_mem_toDigits (by decide) (by decide) hc
    refine decide_eq_true ?_
    rintro rfl
    exact absurd hdigit (by decide)
  have hsplit : ∀ d : CategoryDefault, d.id.toList.takeWhile (fun c => decide (c ≠ ':')) =
      (toString d.chzGroupCode).toList ∧
      d.id.toList.dropWhile (fun c => decide (c ≠ ':')) = ':' :: d.purpose.toList := by
    intro d
    have hlist : d.id.toList = (toString d.chzGroupCode).toList ++ ':' :: d.purpose.toList := by
      simp [CategoryDefault.id]
    rw [hlist, List.takeWhile_append_of_pos (hdigits _), List.dropWhile_append_of_pos (hdigits _)]
    simp
  have hcode := (hsplit a).1.symm.trans ((congrArg _ (congrArg String.toList h)).trans (hsplit b).1)
  have hpurpose := (hsplit a).2.symm.trans
    ((congrArg _ (congrArg String.toList h)).trans (hsplit b).2)
  refine Prod.ext ?_ (String.toList_inj.1 (List.cons.inj hpurpose).2)
  rw [Nat.toString_eq_repr, Nat.toString_eq_repr, Nat.toList_repr, Nat.toList_repr] at hcode
  have hread := congrArg (Nat.ofDigitChars 10 · 0) hcode
  simpa [Nat.ofDigitChars_ten_toDigits] using hread

theorem nodup_rows {α : Type} {rows : List α} {k : α → String} (v : α → ℕ) (h : Unique k rows) :
    (rows.map fun r => (k r, v r)).Nodup := by
  refine List.Nodup.of_map Prod.fst ?_
  rw [List.map_map]
  exact h

theorem unique_filter {α : Type} {rows : List α} {k : α → String} (p : α → Bool)
    (h : Unique k rows) : Unique k (rows.filter p) :=
  h.sublist (List.filter_sublist.map _)

/-- Each entity's rows are told apart by their ids and revisions. -/
theorem live_nodup (s : Snapshot) : ∀ table ∈ s.live, table.2.Nodup := by
  simp only [Tables.live, List.forall_mem_cons]
  refine ⟨?_, ?_, ?_, ?_, ?_, ?_, ?_, ?_, ?_, nofun⟩
  · cases s.orgProfile <;> simp
  · cases s.site with
    | none => simp
    | some r => exact (List.nodup_singleton r).filter _ |>.map_on fun a ha b hb _ => by simp_all
  · exact nodup_rows Row.rev s.lines_unique
  · exact nodup_rows (fun r => r.rev) (unique_filter _ s.operators_unique)
  · exact nodup_rows (fun r => r.rev) (unique_filter _ s.operatorBadges_unique)
  · refine List.Nodup.append (nodup_rows (fun r => r.rev) s.products_unique)
      (nodup_rows Product.photoRev (unique_filter _ s.products_unique)) ?_
    intro x hx hy
    obtain ⟨a, ha, rfl⟩ := List.mem_map.1 hx
    obtain ⟨b, hb, hab⟩ := List.mem_map.1 hy
    obtain ⟨hb, hne⟩ := List.mem_filter.1 hb
    obtain ⟨hid, hrev⟩ := Prod.mk.inj hab
    obtain rfl := s.products_unique.eq ha hb hid.symm
    exact of_decide_eq_true hne hrev
  · exact nodup_rows Row.rev s.labelTemplates_unique
  · refine nodup_rows CategoryDefault.rev ?_
    refine List.Nodup.map_on ?_ (List.Nodup.of_map _ s.categoryTemplateDefaults_unique)
    intro a ha b hb hid
    exact s.categoryTemplateDefaults_unique.eq ha hb (CategoryDefault.id_injective hid)
  · exact nodup_rows Row.rev s.codeReleases_unique

theorem find?_isSome {α : Type} {rows : List α} {k : α → String} {r : α} (h : r ∈ rows) :
    ((rows.find? fun x => k x = k r).isSome) = true :=
  List.find?_isSome.2 ⟨r, h, decide_eq_true rfl⟩

theorem live_record (t : Tables) : ∀ table ∈ t.live, ∀ r ∈ table.2,
    (t.record table.1 r.1).isSome = true := by
  simp only [Tables.live, List.forall_mem_cons, List.forall_mem_map, List.mem_filter, and_imp,
    List.forall_mem_append, Tables.record, Option.isSome_map]
  refine ⟨?_, ?_, ?_, ?_, ?_, ?_, ?_, ?_, ?_, nofun⟩
  · intro r hr
    exact Option.isSome_of_mem (Option.mem_toList.1 hr)
  · intro r hr _
    exact Option.isSome_of_mem (Option.mem_toList.1 hr)
  · exact fun r hr => find?_isSome (k := Row.id) hr
  · exact fun r hr _ => find?_isSome (k := fun r : Operator => r.id) hr
  · exact fun r hr _ => find?_isSome (k := fun r : OperatorBadge => r.id) hr
  · exact ⟨fun r hr => find?_isSome (k := fun r : Product => r.id) hr,
      fun r hr _ => find?_isSome (k := fun r : Product => r.id) hr⟩
  · exact fun r hr => find?_isSome (k := Row.id) hr
  · exact fun r hr => find?_isSome (k := CategoryDefault.id) hr
  · exact fun r hr => find?_isSome (k := Row.id) hr

theorem live_entities (t : Tables) : (t.live.map (·.1)).Nodup := by
  show ["org_profile", "site", "lines", "operators", "operator_badges", "products",
    "label_templates", "category_template_defaults", "code_releases"].Nodup
  decide

/-- The feed names a change once. -/
theorem allKeys_nodup (s : Snapshot) : s.allKeys.Nodup := by
  refine List.Nodup.append (List.nodup_flatMap.2 ⟨?_, ?_⟩) ?_ ?_
  · intro table htable
    refine (live_nodup s table htable).map fun a b hab => ?_
    obtain ⟨-, hid, hrev, -⟩ := Key.mk.inj hab
    exact Prod.ext hid hrev
  · refine (List.pairwise_map.1 (live_entities s.toTables)).imp fun {a b} hne key ha hb => ?_
    obtain ⟨_, -, rfl⟩ := List.mem_map.1 ha
    obtain ⟨_, -, hkey⟩ := List.mem_map.1 hb
    exact hne (Key.mk.inj hkey).1.symm
  · refine List.Nodup.map_on ?_ (List.Nodup.of_map _ s.tombstones_unique)
    intro a ha b hb hab
    obtain ⟨hentity, hid, -⟩ := Key.mk.inj hab
    exact s.tombstones_unique.eq ha hb (Prod.ext hentity hid)
  · intro key hlive hgone
    obtain ⟨_, -, hkey⟩ := List.mem_flatMap.1 hlive
    obtain ⟨_, -, rfl⟩ := List.mem_map.1 hkey
    obtain ⟨_, -, hkey⟩ := List.mem_map.1 hgone
    exact Bool.noConfusion (Key.mk.inj hkey).2.2.2

/-! ## Items -/

def Tables.itemOf (t : Tables) (key : Key) : ChangeItem :=
  ⟨key.entity, key.id, key.rev, key.deleted,
    if key.deleted then none else t.record key.entity key.id⟩

variable {t : Tables}

theorem item_eq {key : Key} (h : key ∈ t.allKeys) : t.item key = some (t.itemOf key) := by
  unfold Tables.item Tables.itemOf
  cases hdeleted : key.deleted with
  | true => rfl
  | false =>
    have hrecord : (t.record key.entity key.id).isSome = true := by
      rcases List.mem_append.1 h with hlive | hgone
      · obtain ⟨table, htable, hkey⟩ := List.mem_flatMap.1 hlive
        obtain ⟨r, hr, rfl⟩ := List.mem_map.1 hkey
        exact live_record t table htable r hr
      · obtain ⟨r, -, rfl⟩ := List.mem_map.1 hgone
        cases hdeleted
    obtain ⟨data, hdata⟩ := Option.isSome_iff_exists.1 hrecord
    simp [hdata]

theorem mapM_item {keys : List Key} (h : ∀ key ∈ keys, key ∈ t.allKeys) :
    keys.mapM t.item = some (keys.map t.itemOf) := by
  induction keys with
  | nil => rfl
  | cons key rest ih =>
    rw [List.mapM_cons, item_eq (h key (by simp)), ih fun k hk => h k (List.mem_cons_of_mem _ hk)]
    rfl

/-! ## The order of the feed -/

theorem mem_sortedKeys {since : ℕ} {key : Key} :
    key ∈ t.sortedKeys since ↔ key ∈ t.allKeys ∧ since < key.rev := by
  rw [Tables.sortedKeys, List.mem_insertionSort, Tables.feedKeys, List.mem_filter,
    decide_eq_true_eq]

theorem sortedKeys_sorted (s : Snapshot) (since : ℕ) :
    (s.sortedKeys since).Pairwise fun a b => a.order < b.order := by
  have hle : (s.sortedKeys since).Pairwise fun a b => a.order ≤ b.order :=
    List.pairwise_insertionSort _ _
  have hnodup : (s.sortedKeys since).Nodup :=
    (List.perm_insertionSort _ _).nodup_iff.2 ((allKeys_nodup s).filter _)
  refine (hle.and hnodup).imp fun {a b} h => lt_of_le_of_ne h.1 ?_
  exact fun heq => h.2 (Key.order_injective heq)

theorem sortedKeys_ordered (t : Tables) (since : ℕ) : Ordered Key.rev (t.sortedKeys since) :=
  (List.pairwise_insertionSort _ _ : (t.sortedKeys since).Pairwise fun a b => a.order ≤ b.order).imp
    Key.rev_le_of_order

theorem sortedKeys_window (s : Snapshot) (since r : ℕ) :
    (s.sortedKeys since).filter (fun key => key.rev ≤ r) =
      window Key.rev since r (s.sortedKeys 0) := by
  refine List.Pairwise.eq_of_mem_iff ((sortedKeys_sorted s since).filter _)
    ((sortedKeys_sorted s 0).filter _) fun key => ?_
  rw [List.mem_filter, mem_sortedKeys, mem_window, mem_sortedKeys, decide_eq_true_eq]
  constructor
  · rintro ⟨⟨hmem, hsince⟩, hr⟩
    exact ⟨⟨hmem, by omega⟩, hsince, hr⟩
  · rintro ⟨⟨hmem, -⟩, hsince, hr⟩
    exact ⟨⟨hmem, hsince⟩, hr⟩

/-! ## Pages -/

/-- **A page ends between revisions.** It holds all keys after `since`, or those up to a revision
that some key of it has. -/
theorem page_cut {since limit : ℕ} (hlimit : 1 ≤ limit) : let keys := t.sortedKeys since
    t.page since limit = ⟨keys, none⟩ ∨
      ∃ key ∈ keys, t.page since limit = ⟨keys.filter fun x => x.rev ≤ key.rev, some key.rev⟩ := by
  show t.page since limit = ⟨t.sortedKeys since, none⟩ ∨ ∃ key ∈ t.sortedKeys since,
    t.page since limit = ⟨(t.sortedKeys since).filter fun x => x.rev ≤ key.rev, some key.rev⟩
  have hordered : Ordered Key.rev (t.sortedKeys since) := sortedKeys_ordered t since
  unfold Tables.page
  generalize t.sortedKeys since = keys at hordered ⊢
  simp only [List.take_take, min_eq_left (Nat.le_succ limit),
    List.getElem?_take_of_lt (show limit - 1 < limit + 1 by omega),
    List.getElem?_take_of_lt (show limit < limit + 1 by omega)]
  cases hnext : keys[limit]? with
  | none =>
    have hall : keys.take (limit + 1) = keys :=
      List.take_of_length_le (le_trans (List.getElem?_eq_none_iff.1 hnext) (Nat.le_succ _))
    left
    rw [hall]
    cases keys[limit - 1]? <;> rfl
  | some next =>
    right
    obtain ⟨hlt, -⟩ := List.getElem?_eq_some_iff.1 hnext
    obtain ⟨key, hkey⟩ : ∃ key, keys[limit - 1]? = some key :=
      ⟨_, List.getElem?_eq_getElem (by omega)⟩
    have hmem : key ∈ keys := List.mem_of_getElem? hkey
    have hsplit : keys = keys.take limit ++ keys.drop limit := (List.take_append_drop _ _).symm
    have hbefore : ∀ x ∈ keys.take limit, x.rev ≤ key.rev := by
      refine (hordered.sublist (List.take_sublist _ _)).le_getLast ?_
      rw [List.getLast?_take, if_neg (by omega), hkey]
      rfl
    have hafter : ∀ x ∈ keys.drop limit, next.rev ≤ x.rev := by
      have hdrop : keys.drop limit = next :: keys.drop (limit + 1) := by
        rw [List.drop_eq_getElem_cons hlt]
        rw [List.getElem?_eq_getElem hlt, Option.some.injEq] at hnext
        rw [hnext]
      have hpairs := hordered.sublist (List.drop_sublist limit keys)
      rw [hdrop] at hpairs ⊢
      intro x hx
      rcases List.mem_cons.1 hx with rfl | hx
      · exact le_rfl
      · exact (List.pairwise_cons.1 hpairs).1 x hx
    have hle : key.rev ≤ next.rev := by
      have hpairs : Ordered Key.rev (keys.take limit ++ keys.drop limit) := by
        rwa [List.take_append_drop]
      refine (List.pairwise_append.1 hpairs).2.2 key ?_ next ?_
      · refine List.mem_of_getElem? (i := limit - 1) ?_
        rw [List.getElem?_take_of_lt (by omega), hkey]
      · refine List.mem_of_getElem? (i := 0) ?_
        rw [List.getElem?_drop, Nat.add_zero, hnext]
    simp only [hkey]
    by_cases hcut : next.rev = key.rev
    · simp only [hcut, ne_eq, not_true, if_false]
      rw [hcut] at hafter
      have hwhole : (keys.take limit).filter (fun x => decide (x.rev < key.rev)) =
          keys.filter fun x => x.rev < key.rev := by
        conv_rhs => rw [hsplit, List.filter_append]
        have hnone : (keys.drop limit).filter (fun x => decide (x.rev < key.rev)) = [] := by
          refine List.filter_eq_nil_iff.2 fun x hx => ?_
          simpa using hafter x hx
        rw [hnone, List.append_nil]
      rw [hwhole]
      cases hlast : (keys.filter fun x => decide (x.rev < key.rev)).getLast? with
      | some last =>
        have hlmem := List.mem_of_getLast? hlast
        obtain ⟨hlkeys, hlrev⟩ := List.mem_filter.1 hlmem
        have hlrev : last.rev < key.rev := of_decide_eq_true hlrev
        refine ⟨last, hlkeys, ?_⟩
        have hbelow := (hordered.sublist List.filter_sublist).le_getLast hlast
        refine congrArg (Page.mk · _) ?_
        refine List.filter_congr fun x hx => decide_eq_decide.2 ⟨fun hx' => ?_, fun hx' => ?_⟩
        · exact hbelow x (List.mem_filter.2 ⟨hx, decide_eq_true hx'⟩)
        · omega
      | none =>
        have hnone := List.filter_eq_nil_iff.1 (List.getLast?_eq_none_iff.1 hlast)
        refine ⟨key, hmem, congrArg (Page.mk · _) ?_⟩
        refine List.filter_congr fun x hx => decide_eq_decide.2 ?_
        have := hnone x hx
        rw [decide_eq_true_eq] at this
        omega
    · simp only [ne_eq, hcut, not_false_eq_true, if_true]
      refine ⟨key, hmem, congrArg (Page.mk · _) ?_⟩
      refine eq_upTo hsplit hbefore fun x hx => ?_
      have := hafter x hx
      omega

/-! ## The budget -/

/-- **The budget cuts between revisions too.** What is taken of the keys is a part before a gap; when
something is left, something was taken, and its last item tells where to go on. -/
theorem withinBudget_cut (size : ChangeItem → ℕ) (moreAfter : Option ℕ)
    (items : List ChangeItem) (bytes : ℕ) {keys : List Key} (hordered : Ordered Key.rev keys)
    (hmem : ∀ key ∈ keys, key ∈ t.allKeys) :
    ∃ taken left, keys = taken ++ left ∧ (∀ a ∈ taken, ∀ b ∈ left, a.rev < b.rev) ∧
      (left = [] ∧ t.withinBudget size moreAfter items bytes keys =
          some (items ++ taken.map t.itemOf, moreAfter) ∨
        left ≠ [] ∧ items ++ taken.map t.itemOf ≠ [] ∧
          t.withinBudget size moreAfter items bytes keys =
            some (items ++ taken.map t.itemOf,
              (items ++ taken.map t.itemOf).getLast?.map (·.rev))) := by
  induction keys using (measure List.length).wf.induction generalizing items bytes with
  | _ keys ih =>
    cases keys with
    | nil =>
      refine ⟨[], [], rfl, by simp, .inl ⟨rfl, ?_⟩⟩
      rw [Tables.withinBudget]
      simp
    | cons key rest =>
      have hwhole : key :: rest = (key :: rest.takeWhile fun k => k.rev = key.rev) ++
          rest.dropWhile fun k => k.rev = key.rev := by
        rw [List.cons_append, List.takeWhile_append_dropWhile]
      have hfirst : ∀ a ∈ key :: rest.takeWhile (fun k => k.rev = key.rev), a.rev = key.rev := by
        intro a ha
        rcases List.mem_cons.1 ha with rfl | ha
        · rfl
        · exact of_decide_eq_true (List.all_eq_true.1 List.all_takeWhile a ha)
      have hitems : (key :: rest.takeWhile fun k => k.rev = key.rev).mapM t.item =
          some ((key :: rest.takeWhile fun k => k.rev = key.rev).map t.itemOf) := by
        refine mapM_item fun k hk => hmem k ?_
        rw [hwhole]
        exact List.mem_append_left _ hk
      rw [Tables.withinBudget, hitems]
      simp only [Option.bind_eq_bind, Option.bind_some]
      by_cases hover : items ≠ [] ∧ maxPageBytes < bytes +
          ((((key :: rest.takeWhile fun k => k.rev = key.rev).map t.itemOf).map size).sum)
      · rw [if_pos hover]
        exact ⟨[], key :: rest, rfl, by simp, .inr ⟨by simp, by simpa using hover.1, by simp⟩⟩
      · rw [if_neg hover]
        have hsuffix := List.dropWhile_suffix (l := rest) fun k : Key => decide (k.rev = key.rev)
        obtain ⟨taken, left, hsplit, hgap, hcases⟩ :=
          @ih (rest.dropWhile fun k => k.rev = key.rev)
            (Nat.lt_succ_of_le hsuffix.length_le)
            (items ++ (key :: rest.takeWhile fun k => k.rev = key.rev).map t.itemOf)
            (bytes + ((((key :: rest.takeWhile fun k => k.rev = key.rev).map t.itemOf).map
              size).sum))
            (hordered.sublist (hsuffix.sublist.trans (List.sublist_cons_self _ _)))
            (fun k hk => hmem k (List.mem_cons_of_mem _ (hsuffix.subset hk)))
        refine ⟨(key :: rest.takeWhile fun k => k.rev = key.rev) ++ taken, left, ?_, ?_, ?_⟩
        · rw [List.append_assoc, ← hsplit]
          exact hwhole
        · intro a ha b hb
          rcases List.mem_append.1 ha with ha | ha
          · rw [hfirst a ha]
            refine hordered.lt_dropWhile b ?_
            rw [hsplit]
            exact List.mem_append_right _ hb
          · exact hgap a ha b hb
        · rw [List.map_append, ← List.append_assoc]
          exact hcases

/-! ## The answer -/

structure Answers (s : Snapshot) (since : ℕ) (a : ChangesResponse) : Prop where
  items : a.items = (window Key.rev since a.rev (s.sortedKeys 0)).map s.itemOf
  more : a.hasMore = true → since < a.rev ∧ a.rev < s.revision
  last : a.hasMore = false → a.rev = s.revision

variable {size : ChangeItem → ℕ} {hostId : String}

theorem changes_ok {query : ChangesQuery}
    {a : ChangesResponse} (h : changes size hostId t query = .ok a) :
    1 ≤ query.limit.getD defaultLimit ∧ ∃ items moreAfter,
      t.withinBudget size (t.page (query.since.getD 0).toNat (query.limit.getD defaultLimit)).moreAfter
        [] 0 (t.page (query.since.getD 0).toNat (query.limit.getD defaultLimit)).keys =
        some (items, moreAfter) ∧
      a = ⟨hostId, moreAfter.getD t.revision, moreAfter.any fun rev => rev < t.revision, items⟩ := by
  unfold changes at h
  simp only at h
  split at h
  · cases h
  split at h
  · cases h
  next hlimit =>
    split at h
    · cases h
    next items moreAfter hbudget =>
      exact ⟨by omega, items, moreAfter, hbudget, (Except.ok.inj h).symm⟩

/-- **An answer is a window of the feed.** -/
theorem changes_window {query : ChangesQuery}
    {a : ChangesResponse} (h : changes size hostId s.toTables query = .ok a) :
    Answers s (query.since.getD 0).toNat a := by
  obtain ⟨hlimit, items, moreAfter, hbudget, rfl⟩ := changes_ok h
  generalize (query.since.getD 0).toNat = since at hbudget ⊢
  have hordered := sortedKeys_ordered s.toTables since
  have hkeys : ∀ key ∈ s.sortedKeys since, key ∈ s.allKeys ∧ since < key.rev ∧
      key.rev ≤ s.revision := by
    intro key hkey
    obtain ⟨hmem, hsince⟩ := mem_sortedKeys.1 hkey
    exact ⟨hmem, hsince, s.bounded key hmem⟩
  -- The page holds the keys up to `bound`.
  obtain ⟨bound, hpage, hbound⟩ : ∃ bound,
      (s.page since (query.limit.getD defaultLimit)).keys =
        (s.sortedKeys since).filter (fun x => x.rev ≤ bound) ∧
      ((s.page since (query.limit.getD defaultLimit)).moreAfter = none ∧ bound = s.revision ∨
        (s.page since (query.limit.getD defaultLimit)).moreAfter = some bound ∧ since < bound ∧
          bound ≤ s.revision) := by
    rcases page_cut (t := s.toTables) hlimit with hpage | ⟨key, hkey, hpage⟩
    · refine ⟨s.revision, ?_, .inl ⟨by rw [hpage], rfl⟩⟩
      rw [hpage, List.filter_eq_self.2]
      exact fun key hkey => decide_eq_true (hkeys key hkey).2.2
    · refine ⟨key.rev, by rw [hpage], .inr ⟨by rw [hpage], (hkeys key hkey).2⟩⟩
  have hsub := List.filter_sublist (l := s.sortedKeys since) (p := fun x => decide (x.rev ≤ bound))
  rw [hpage] at hbudget
  obtain ⟨taken, left, hsplit, hgap, ⟨hleft, hresult⟩ | ⟨hleft, hne, hresult⟩⟩ :=
    withinBudget_cut size (s.page since (query.limit.getD defaultLimit)).moreAfter [] 0
      (hordered.sublist hsub) fun key hkey => (hkeys key (hsub.subset hkey)).1
  · -- The whole page is within the budget.
    rw [hleft, List.append_nil] at hsplit
    rw [hresult, List.nil_append, Option.some.injEq, Prod.mk.injEq] at hbudget
    obtain ⟨rfl, rfl⟩ := hbudget
    have hrev : (s.page since (query.limit.getD defaultLimit)).moreAfter.getD s.revision = bound := by
      rcases hbound with ⟨hnone, rfl⟩ | ⟨hsome, -⟩
      · rw [hnone]
        rfl
      · rw [hsome]
        rfl
    refine ⟨?_, ?_, ?_⟩
    · simp only [hrev]
      rw [← hsplit, sortedKeys_window]
    · simp only [hrev]
      rcases hbound with ⟨hnone, -⟩ | ⟨hsome, hlt, -⟩
      · rw [hnone]
        exact nofun
      · rw [hsome]
        exact fun hlt' => ⟨hlt, of_decide_eq_true hlt'⟩
    · simp only [hrev]
      rcases hbound with ⟨-, rfl⟩ | ⟨hsome, -, hle⟩
      · exact fun _ => rfl
      · rw [hsome]
        exact fun hge => le_antisymm hle (not_lt.1 (of_decide_eq_false hge))
  · -- The budget ends the page at the last key it took.
    rw [hresult, List.nil_append, Option.some.injEq, Prod.mk.injEq] at hbudget
    obtain ⟨rfl, rfl⟩ := hbudget
    have hne : taken ≠ [] := by simpa using hne
    obtain ⟨x, hx⟩ := Option.ne_none_iff_exists'.1 (mt List.getLast?_eq_none_iff.1 hne)
    obtain ⟨y, hy⟩ := List.exists_mem_of_ne_nil left hleft
    have hxmem : x ∈ taken := List.mem_of_getLast? hx
    have hxkeys : x ∈ (s.sortedKeys since).filter fun x => decide (x.rev ≤ bound) := by
      rw [hsplit]
      exact List.mem_append_left _ hxmem
    have hykeys : y ∈ (s.sortedKeys since).filter fun x => decide (x.rev ≤ bound) := by
      rw [hsplit]
      exact List.mem_append_right _ hy
    have hxbound : x.rev ≤ bound := of_decide_eq_true (List.mem_filter.1 hxkeys).2
    have hbelow : ∀ a ∈ taken, a.rev ≤ x.rev := by
      have htaken : taken.Sublist (s.sortedKeys since) := by
        refine List.Sublist.trans ?_ hsub
        rw [hsplit]
        exact List.sublist_append_left _ _
      exact (hordered.sublist htaken).le_getLast hx
    have hlt : x.rev < s.revision :=
      lt_of_lt_of_le (hgap x hxmem y hy) (hkeys y (hsub.subset hykeys)).2.2
    have htaken : taken = (s.sortedKeys since).filter fun a => a.rev ≤ x.rev := by
      rw [eq_upTo hsplit hbelow fun b hb => hgap x hxmem b hb, List.filter_filter]
      refine List.filter_congr fun a _ => ?_
      by_cases ha : a.rev ≤ x.rev
      · simp [ha, le_trans ha hxbound]
      · simp [ha]
    have hrev : ((taken.map s.itemOf).getLast?.map (·.rev)) = some x.rev := by
      rw [List.getLast?_map, hx]
      rfl
    simp only [hrev]
    refine ⟨?_, fun _ => ⟨(hkeys x (hsub.subset hxkeys)).2.1, hlt⟩, ?_⟩
    · rw [Option.getD_some, ← sortedKeys_window, ← htaken]
    · intro hmore
      exact absurd hlt (of_decide_eq_false hmore)

theorem changes_answers (s : Snapshot) (size : ChangeItem → ℕ) (hostId : String) (since : ℕ)
    {limit : ℕ} (hlimit : 1 ≤ limit ∧ limit ≤ maxLimit) :
    ∃ a, changes size hostId s.toTables ⟨some since, some limit⟩ = .ok a ∧ Answers s since a := by
  have hkeys : ∀ key ∈ (s.page since limit).keys, key ∈ s.sortedKeys since := by
    rcases page_cut (t := s.toTables) hlimit.1 with hpage | ⟨key, -, hpage⟩
    · rw [hpage]
      exact fun _ h => h
    · rw [hpage]
      exact fun _ h => (List.mem_filter.1 h).1
  have hordered : Ordered Key.rev (s.page since limit).keys := by
    rcases page_cut (t := s.toTables) hlimit.1 with hpage | ⟨key, -, hpage⟩
    · rw [hpage]
      exact sortedKeys_ordered _ _
    · rw [hpage]
      exact (sortedKeys_ordered _ _).sublist List.filter_sublist
  obtain ⟨result, hresult⟩ : ∃ result, s.withinBudget size (s.page since limit).moreAfter [] 0
      (s.page since limit).keys = some result := by
    obtain ⟨_, _, -, -, ⟨-, h⟩ | ⟨-, -, h⟩⟩ := withinBudget_cut size (s.page since limit).moreAfter
      [] 0 hordered fun key hkey => (mem_sortedKeys.1 (hkeys key hkey)).1
    · exact ⟨_, h⟩
    · exact ⟨_, h⟩
  have hok : ∃ a, changes size hostId s.toTables ⟨some since, some limit⟩ = .ok a := by
    unfold changes
    have hsince : ¬((since : ℤ) < 0) := by omega
    have hrange : ¬(limit < 1 ∨ maxLimit < limit) := by omega
    simp only [Option.getD_some, hsince, hrange, if_false, Int.toNat_natCast, hresult]
    exact ⟨_, rfl⟩
  obtain ⟨a, ha⟩ := hok
  exact ⟨a, ha, by simpa using changes_window ha⟩

/-! ## Walks of one snapshot -/

/-- Ask again from the revision of the last answer while there is more: the revisions asked for and
their answers. `limits` are the limits of the requests in order; none when a request fails or `fuel`
requests were not enough. -/
def follow (size : ChangeItem → ℕ) (hostId : String) (t : Tables) (limits : ℕ → ℕ) :
    ℕ → ℕ → ℕ → Option (List (ℕ × ChangesResponse))
  | 0, _, _ => none
  | fuel + 1, n, since =>
    match changes size hostId t ⟨some since, some (limits n)⟩ with
    | .error _ => none
    | .ok a =>
      if a.hasMore then (follow size hostId t limits fuel (n + 1) a.rev).map ((since, a) :: ·)
      else some [(since, a)]

structure Walk (s : Snapshot) (since : ℕ) (answers : List (ℕ × ChangesResponse)) : Prop where
  advances : ∀ x ∈ answers, x.2.hasMore = true → x.1 < x.2.rev
  whole : answers.Pairwise fun x y => ∀ i ∈ x.2.items, ∀ j ∈ y.2.items, i.rev < j.rev
  above : ∀ x ∈ answers, ∀ i ∈ x.2.items, since < i.rev
  items : answers.flatMap (·.2.items) = (s.sortedKeys since).map s.itemOf
  last : ∃ x, answers.getLast? = some x ∧ x.2.rev = s.revision ∧ x.2.hasMore = false

theorem window_rest (s : Snapshot) (since : ℕ) :
    window Key.rev since s.revision (s.sortedKeys 0) = s.sortedKeys since := by
  rw [← sortedKeys_window, List.filter_eq_self]
  intro key hkey
  exact decide_eq_true (s.bounded key (mem_sortedKeys.1 hkey).1)

/-- **A walk ends and reads the feed.** -/
theorem follow_walk {limits : ℕ → ℕ}
    (hlimits : ∀ n, 1 ≤ limits n ∧ limits n ≤ maxLimit) {fuel n since : ℕ}
    (hfuel : s.revision < since + fuel) (hpos : 0 < fuel) :
    ∃ answers, follow size hostId s.toTables limits fuel n since = some answers ∧
      Walk s since answers := by
  induction fuel generalizing n since with
  | zero => exact absurd hpos (lt_irrefl 0)
  | succ fuel ih =>
    obtain ⟨a, hok, ha⟩ := changes_answers s size hostId since (hlimits n)
    rw [follow, hok]
    simp only
    have habove : ∀ i ∈ a.items, since < i.rev ∧ i.rev ≤ a.rev := by
      intro i hi
      rw [ha.items] at hi
      obtain ⟨key, hkey, rfl⟩ := List.mem_map.1 hi
      exact (mem_window.1 hkey).2
    cases hmore : a.hasMore with
    | false =>
      rw [if_neg (by simp)]
      refine ⟨_, rfl, by simp [hmore], by simp, ?_, ?_, ⟨_, rfl, ha.last hmore, hmore⟩⟩
      · intro x hx i hi
        rw [List.mem_singleton.1 hx] at hi
        exact (habove i hi).1
      · simp only [List.flatMap_singleton]
        rw [ha.items, ha.last hmore, window_rest]
    | true =>
      rw [if_pos rfl]
      obtain ⟨hlt, hlast⟩ := ha.more hmore
      obtain ⟨answers, hanswers, hwalk⟩ := @ih (n + 1) a.rev (by omega) (by omega)
      refine ⟨(since, a) :: answers, by rw [hanswers]; rfl, ?_, ?_, ?_, ?_, ?_⟩
      · intro x hx hxmore
        rcases List.mem_cons.1 hx with rfl | hx
        · exact hlt
        · exact hwalk.advances x hx hxmore
      · refine List.pairwise_cons.2 ⟨?_, hwalk.whole⟩
        intro y hy i hi j hj
        exact lt_of_le_of_lt (habove i hi).2 (hwalk.above y hy j hj)
      · intro x hx i hi
        rcases List.mem_cons.1 hx with rfl | hx
        · exact (habove i hi).1
        · exact lt_trans hlt (hwalk.above x hx i hi)
      · rw [List.flatMap_cons, hwalk.items, ha.items, ← List.map_append, ← window_rest s a.rev,
          window_append (sortedKeys_ordered _ _) (le_of_lt hlt) (le_of_lt hlast), window_rest]
      · obtain ⟨x, hx, hrest⟩ := hwalk.last
        refine ⟨x, ?_, hrest⟩
        rw [List.getLast?_cons, hx]
        rfl

/-! ## Replicas of the feed's records -/

def Tables.liveRecord (t : Tables) (k : String × String) : Option Json :=
  if (t.sortedKeys 0).any fun key => key.entity = k.1 ∧ key.id = k.2 ∧ key.deleted = false then
    t.record k.1 k.2
  else none

theorem liveRecord_of_live {key : Key} (hmem : key ∈ t.sortedKeys 0) (hlive : key.deleted = false) :
    t.liveRecord (key.entity, key.id) = t.record key.entity key.id := by
  unfold Tables.liveRecord
  exact if_pos (List.any_eq_true.2 ⟨key, hmem, decide_eq_true ⟨rfl, rfl, hlive⟩⟩)

theorem liveRecord_of_gone {k : String × String} (h : ∀ key ∈ t.sortedKeys 0,
    key.entity = k.1 → key.id = k.2 → key.deleted = false → False) : t.liveRecord k = none := by
  unfold Tables.liveRecord
  refine if_neg fun hany => ?_
  obtain ⟨x, hx, hxk⟩ := List.any_eq_true.1 hany
  obtain ⟨hxe, hxi, hxd⟩ := of_decide_eq_true hxk
  exact h x hx hxe hxi hxd

/-- What a key says to a replica. -/
def Tables.entryOf (t : Tables) (key : Key) : Entry (String × String) Json :=
  ⟨(key.entity, key.id), key.rev, if key.deleted then none else t.record key.entity key.id⟩

theorem Key.not_after {a b : Key} (hentity : a.entity = b.entity) (hid : a.id = b.id)
    (hlive : a.deleted = false) (hgone : b.deleted = true) (hrev : b.rev ≤ a.rev) :
    ¬a.order < b.order := by
  intro hlt
  rcases Prod.Lex.toLex_lt_toLex.1 hlt with hlt | ⟨-, hlt⟩
  · omega
  · rcases Prod.Lex.toLex_lt_toLex.1 hlt with hlt | ⟨-, hlt⟩
    · exact absurd hlt (by simp [hentity])
    · rcases Prod.Lex.toLex_lt_toLex.1 hlt with hlt | ⟨-, hlt⟩
      · exact absurd hlt (by simp [hid])
      · have hlt : (!a.deleted) < (!b.deleted) := hlt
        rw [hlive, hgone] at hlt
        exact absurd hlt (by decide)

/-- The feed as the source of a replica. -/
def Snapshot.source (s : Snapshot) : Source (String × String) Json where
  revision := s.revision
  entries := (s.sortedKeys 0).map s.entryOf
  values := s.liveRecord
  ordered := List.pairwise_map.2 (sortedKeys_ordered s.toTables 0)
  bounded := by
    intro e he
    obtain ⟨key, hkey, rfl⟩ := List.mem_map.1 he
    exact s.bounded key (mem_sortedKeys.1 hkey).1
  told := by
    intro pre e post hsplit hlast
    obtain ⟨before, rest, hkeys, -, hrest⟩ := List.map_eq_append_iff.1 hsplit
    obtain ⟨key, after, rfl, rfl, rfl⟩ := List.map_eq_cons_iff.1 hrest
    have hmem : key ∈ s.sortedKeys 0 := by rw [hkeys]; simp
    obtain ⟨hall, hpos⟩ := mem_sortedKeys.1 hmem
    show (if key.deleted then none else s.record key.entity key.id) = s.liveRecord (key.entity, key.id)
    cases hdeleted : key.deleted with
    | false => exact (liveRecord_of_live hmem hdeleted).symm
    | true =>
      refine (liveRecord_of_gone fun x hx hxe hxi hxd => ?_).symm
      obtain ⟨r, hr, hrk⟩ : ∃ r ∈ s.tombstones, (⟨r.entity, r.id, r.rev, true⟩ : Key) = key := by
        rcases List.mem_append.1 hall with hlive | hgone
        · obtain ⟨_, -, hk⟩ := List.mem_flatMap.1 hlive
          obtain ⟨_, -, rfl⟩ := List.mem_map.1 hk
          cases hdeleted
        · exact List.mem_map.1 hgone
      subst hrk
      obtain ⟨y, hy, hye, hyi, hyd, hyr⟩ :=
        s.restored r hr x (mem_sortedKeys.1 hx).1 hxe hxi hxd
      have hyk : y ∈ s.sortedKeys 0 := mem_sortedKeys.2 ⟨hy, lt_of_lt_of_le hpos hyr⟩
      have hsorted := sortedKeys_sorted s 0
      rw [hkeys] at hyk hsorted
      rcases List.mem_append.1 hyk with hyk | hyk
      · have hlt := (List.pairwise_append.1 hsorted).2.2 y hyk _ List.mem_cons_self
        exact Key.not_after (b := ⟨r.entity, r.id, r.rev, true⟩) hye hyi hyd rfl hyr hlt
      · rcases List.mem_cons.1 hyk with rfl | hyk
        · cases hyd
        · exact hlast _ (List.mem_map_of_mem hyk) (Prod.ext hye hyi)
  unknown := by
    intro k hk
    refine liveRecord_of_gone fun x hx hxe hxi _ => ?_
    exact hk _ (List.mem_map_of_mem hx) (Prod.ext hxe hxi)

/-- What the office's writers do to the feed: a record is as it was, with its keys, or the commit
gave it a new revision, as its row's or as its tombstone's. -/
def Snapshot.Commits (a b : Snapshot) : Prop :=
  a.revision ≤ b.revision ∧ ∀ entity id,
    (b.record entity id = a.record entity id ∧ ∀ key : Key, key.entity = entity → key.id = id →
      (key ∈ b.allKeys ↔ key ∈ a.allKeys)) ∨
    ∃ key ∈ b.allKeys, key.entity = entity ∧ key.id = id ∧ a.revision < key.rev

theorem Snapshot.Commits.source {a b : Snapshot} (h : a.Commits b) :
    Replica.Commits a.source b.source := by
  refine ⟨h.1, fun k => ?_⟩
  rcases h.2 k.1 k.2 with ⟨hrecord, hkeys⟩ | ⟨key, hkey, hentity, hid, hnew⟩
  · have hsame : ∀ key : Key, key.entity = k.1 → key.id = k.2 →
        (key ∈ b.sortedKeys 0 ↔ key ∈ a.sortedKeys 0) := by
      intro key hentity hid
      rw [mem_sortedKeys, mem_sortedKeys, hkeys key hentity hid]
    refine .inl ⟨?_, ?_⟩
    · show b.liveRecord k = a.liveRecord k
      unfold Tables.liveRecord
      have hany : ((b.sortedKeys 0).any fun key => key.entity = k.1 ∧ key.id = k.2 ∧
          key.deleted = false) = (a.sortedKeys 0).any fun key => key.entity = k.1 ∧ key.id = k.2 ∧
          key.deleted = false := by
        rw [Bool.eq_iff_iff, List.any_eq_true, List.any_eq_true]
        constructor
        · rintro ⟨x, hx, hxk⟩
          obtain ⟨h1, h2, -⟩ := of_decide_eq_true hxk
          exact ⟨x, (hsame x h1 h2).1 hx, hxk⟩
        · rintro ⟨x, hx, hxk⟩
          obtain ⟨h1, h2, -⟩ := of_decide_eq_true hxk
          exact ⟨x, (hsame x h1 h2).2 hx, hxk⟩
      rw [hany, hrecord]
    · intro e he hek
      obtain ⟨key, hkey, rfl⟩ := List.mem_map.1 he
      obtain ⟨h1, h2⟩ := Prod.ext_iff.1 hek
      exact ⟨b.entryOf key, List.mem_map_of_mem ((hsame key h1 h2).2 hkey), hek, le_rfl⟩
  · refine .inr ⟨b.entryOf key, List.mem_map_of_mem (mem_sortedKeys.2 ⟨hkey, ?_⟩),
      Prod.ext hentity hid, hnew⟩
    omega

/-! ## A device's copy -/

/-- What a device keeps of the feed. -/
structure Client where
  since : ℕ
  records : String × String → Option Json

def applyItem (records : String × String → Option Json) (i : ChangeItem) :
    String × String → Option Json :=
  Function.update records (i.entity, i.id) (if i.deleted then none else i.data)

/-- Apply an answer and remember its revision. -/
def Client.receive (c : Client) (a : ChangesResponse) : Client :=
  ⟨a.rev, a.items.foldl applyItem c.records⟩

/-- A device and the host: the office commits, or the device asks and applies the answer. -/
inductive Sync (size : ChangeItem → ℕ) (hostId : String) :
    Snapshot × Client → Snapshot × Client → Prop
  | commit {a b : Snapshot} {c : Client} : a.Commits b → Sync size hostId (a, c) (b, c)
  | request {s : Snapshot} {c : Client} {limit : Option ℕ} {a : ChangesResponse} :
      changes size hostId s.toTables ⟨some c.since, limit⟩ = .ok a →
      Sync size hostId (s, c) (s, c.receive a)

theorem foldl_applyItem (s : Snapshot) (records : String × String → Option Json) (keys : List Key) :
    (keys.map s.itemOf).foldl applyItem records = replay records (keys.map s.entryOf) := by
  rw [List.foldl_map, replay, List.foldl_map]
  refine List.foldl_ext _ _ _ fun m key _ => ?_
  unfold applyItem put Tables.itemOf Tables.entryOf
  cases key.deleted <;> rfl

theorem Answers.receive {since : ℕ} {a : ChangesResponse} (ha : Answers s since a) {c : Client}
    (hc : c.since = since) (h : Synced s.source c.since c.records) :
    Synced s.source (c.receive a).since (c.receive a).records := by
  have hle : a.rev ≤ s.revision := by
    cases hmore : a.hasMore with
    | true => exact le_of_lt (ha.more hmore).2
    | false => exact le_of_eq (ha.last hmore)
  have hread := h.read (n := a.rev) hle
  have hwindow : window Entry.rev c.since a.rev s.source.entries =
      (window Key.rev since a.rev (s.sortedKeys 0)).map s.entryOf := by
    rw [hc]
    exact List.filter_map
  rw [hwindow, ← foldl_applyItem, ← ha.items] at hread
  exact hread

theorem Sync.synced {x y : Snapshot × Client}
    (h : Sync size hostId x y) (hx : Synced x.1.source x.2.since x.2.records) :
    Synced y.1.source y.2.since y.2.records := by
  cases h with
  | commit hc => exact hx.commit hc.source
  | request hok => exact (changes_window hok).receive (by simp) hx

/-- **The feed loses nothing.** On one snapshot, from any revision and under any limits, asking again
while there is more ends: every answer but the last goes on, no revision is split over two answers,
the items are those of all keys after the start, in order and each once, and the last answer names
the host's revision. And when the office commits between the requests, a device that started from
nothing holds the live records whenever an answer has no more. -/
theorem feed_loses_nothing (size : ChangeItem → ℕ) (hostId : String) :
    (∀ (s : Snapshot) (since : ℕ) (limits : ℕ → ℕ), (∀ n, 1 ≤ limits n ∧ limits n ≤ maxLimit) →
      (∀ key, key ∈ s.sortedKeys since ↔ key ∈ s.allKeys ∧ since < key.rev) ∧
      ((s.sortedKeys since).Pairwise fun a b => a.order < b.order) ∧
      ∃ answers, follow size hostId s.toTables limits (s.revision + 1) 0 since = some answers ∧
        (∀ x ∈ answers, x.2.hasMore = true → x.1 < x.2.rev) ∧
        (answers.Pairwise fun x y => ∀ i ∈ x.2.items, ∀ j ∈ y.2.items, i.rev ≠ j.rev) ∧
        answers.flatMap (·.2.items) = (s.sortedKeys since).map s.itemOf ∧
        ∃ x, answers.getLast? = some x ∧ x.2.rev = s.revision ∧ x.2.hasMore = false) ∧
    ∀ (start s : Snapshot) (c : Client) (limit : Option ℕ) (a : ChangesResponse),
      Relation.ReflTransGen (Sync size hostId) (start, ⟨0, fun _ => none⟩) (s, c) →
      changes size hostId s.toTables ⟨some c.since, limit⟩ = .ok a → a.hasMore = false →
      (c.receive a).records = s.liveRecord := by
  constructor
  · intro s since limits hlimits
    refine ⟨fun key => mem_sortedKeys, sortedKeys_sorted s since, ?_⟩
    obtain ⟨answers, hanswers, hwalk⟩ :=
      @follow_walk s size hostId limits hlimits (s.revision + 1) 0 since (by omega) (by omega)
    refine ⟨answers, hanswers, hwalk.advances, ?_, hwalk.items, hwalk.last⟩
    exact hwalk.whole.imp fun h i hi j hj => ne_of_lt (h i hi j hj)
  · intro start s c limit a hrun hok hlast
    have hstart : Synced start.source 0 fun _ => none := by
      refine Synced.fresh fun e he => ?_
      obtain ⟨key, hkey, rfl⟩ := List.mem_map.1 he
      exact (mem_sortedKeys.1 hkey).2
    have hsynced : Synced s.source c.since c.records := by
      have : ∀ y : Snapshot × Client,
          Relation.ReflTransGen (Sync size hostId) (start, ⟨0, fun _ => none⟩) y →
          Synced y.1.source y.2.since y.2.records := by
        intro y hy
        induction hy with
        | refl => exact hstart
        | tail _ hstep ih => exact hstep.synced ih
      exact this (s, c) hrun
    have ha := changes_window hok
    have hread := ha.receive (c := c) (by simp) hsynced
    rw [show (c.receive a).since = s.source.revision from ha.last hlast] at hread
    exact hread.whole

namespace Sample

/-- Three lines, two of one revision, and an operator that left. -/
def tables : Tables where
  revision := 3
  orgProfile := none
  site := none
  lines := [⟨"b", 2, .null⟩, ⟨"a", 1, .null⟩, ⟨"c", 2, .null⟩]
  operators := []
  operatorBadges := []
  products := []
  labelTemplates := []
  categoryTemplateDefaults := []
  codeReleases := []
  tombstones := [⟨"operators", "o", 3⟩]

def snapshot : Snapshot where
  toTables := tables
  lines_unique := by
    show ["b", "a", "c"].Nodup
    decide
  operators_unique := List.nodup_nil
  operatorBadges_unique := List.nodup_nil
  products_unique := List.nodup_nil
  labelTemplates_unique := List.nodup_nil
  categoryTemplateDefaults_unique := List.nodup_nil
  codeReleases_unique := List.nodup_nil
  tombstones_unique := List.nodup_singleton _
  bounded := by decide
  restored := by decide

end Sample

open Sample in
/-- One item to a page: the lines of revision 2 still come together. -/
theorem feed_loses_nothing_sample :
    ∃ answers, follow (fun _ => 1) "host" tables (fun _ => 1) 4 0 0 = some answers ∧
      (answers.flatMap (·.2.items)).map (fun i => (i.id, i.rev, i.deleted)) =
        [("a", 1, false), ("b", 2, false), ("c", 2, false), ("o", 3, true)] := by
  obtain ⟨-, -, answers, hanswers, -, -, hitems, -⟩ :=
    (feed_loses_nothing (fun _ => 1) "host").1 snapshot 0 (fun _ => 1) fun _ => by decide
  refine ⟨answers, hanswers, ?_⟩
  rw [hitems]
  decide +kernel

end Markiro.Feed
