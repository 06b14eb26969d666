import Markiro.Lib.Results
import Markiro.Subscriptions.Lifecycle
import Markiro.Subscriptions.Settled

/-!
# The status job is invisible to access

A transition of the job leaves the settled rows as they were, for every instant from the job's on,
so the answers read from then on are the same (`status_job_invisible`). A pass over the due rows
leaves no row due, so a second run at the same instant finds nothing to change.
-/

namespace Markiro.Subscriptions

open Results

/-! ## What the job relies on in a table -/

/-- The laws of a table of dated rows. -/
class LawfulDated (α : Type) [Dated α] where
  settled : Instant → α → α
  id_setStatus : ∀ m now (r : α), Dated.id (Dated.setStatus m now r) = Dated.id r
  term_setStatus : ∀ m now (r : α), Dated.term (Dated.setStatus m now r) = Dated.term r
  stage_active : ∀ now (r : α), Dated.stage (Dated.setStatus .active now r) = .running
  stage_expired : ∀ now (r : α), Dated.stage (Dated.setStatus .expired now r) = .done
  sameStatus_refl : ∀ r : α, Dated.sameStatus r r = true
  unique : ∀ t, Table.Unique (Dated.id (α := α)) (Dated.rows t)
  rows_recordEvent : ∀ t e, Dated.rows (α := α) (Tables.recordEvent t e) = Dated.rows t
  rows_store : ∀ {t rs t'}, Dated.store (α := α) t rs = .ok t' → Dated.rows t' = rs
  store_alike : ∀ {t rs t' u}, Dated.store (α := α) t rs = .ok t' →
    rs.map (settled u) = (Dated.rows t).map (settled u) → SettleAlike u t t'
  settled_expired : ∀ {r : α} {u : Instant}, Dated.stage r = .running →
    termEnded (Dated.term r) u = true → ∀ now,
      settled u (Dated.setStatus .expired now r) = settled u r
  settled_active : ∀ {r : α} {u : Instant}, Dated.stage r = .scheduled →
    termStarted (Dated.term r) u = true → ∀ now,
      settled u (Dated.setStatus .active now r) = settled u r

theorem storeSubscriptions_ok {t t' : Tables} {rows : List Subscription} :
    t.storeSubscriptions rows = .ok t' ↔ ∃ h : SubscriptionConstraints rows,
      t' = { t with subscriptions := rows, subscriptionsKept := h } := by
  unfold Tables.storeSubscriptions
  by_cases h : SubscriptionConstraints rows
  · simp [h, eq_comm]
  · simp [h]

theorem storeAddons_ok {t t' : Tables} {rows : List Addon} :
    t.storeAddons rows = .ok t' ↔ ∃ h : AddonConstraints rows,
      t' = { t with addons := rows, addonsKept := h } := by
  unfold Tables.storeAddons
  by_cases h : AddonConstraints rows
  · simp [h, eq_comm]
  · simp [h]

@[simp] theorem subscriptions_recordEvent (t : Tables) (e : Event) :
    (t.recordEvent e).subscriptions = t.subscriptions := by
  unfold Tables.recordEvent
  split <;> rfl

@[simp] theorem addons_recordEvent (t : Tables) (e : Event) :
    (t.recordEvent e).addons = t.addons := by
  unfold Tables.recordEvent
  split <;> rfl

theorem settleAlike_recordEvent (u : Instant) (t : Tables) (e : Event) :
    SettleAlike u t (t.recordEvent e) := by
  constructor
  · rw [subscriptions_recordEvent]
  · rw [addons_recordEvent]

instance : LawfulDated Subscription where
  settled := Subscription.settled
  id_setStatus _ _ _ := rfl
  term_setStatus _ _ _ := rfl
  stage_active _ _ := rfl
  stage_expired _ _ := rfl
  sameStatus_refl r := decide_eq_true rfl
  unique t := t.subscriptionsKept.ids
  rows_recordEvent t e := subscriptions_recordEvent t e
  rows_store h := by
    obtain ⟨_, rfl⟩ := storeSubscriptions_ok.1 h
    rfl
  store_alike h hsettled := by
    obtain ⟨_, rfl⟩ := storeSubscriptions_ok.1 h
    exact ⟨hsettled.symm, rfl⟩
  settled_expired {r u} hstage hended now := by
    change r.status.stage = .running at hstage
    change termEnded r.toTerm u = true at hended
    show Subscription.settled u { r with status := .expired, updatedAt := now } = r.settled u
    unfold Subscription.settled
    cases hs : r.status <;>
      simp_all [SubscriptionStatus.stage, SubscriptionStatus.settled]
  settled_active {r u} hstage hstarted now := by
    change r.status.stage = .scheduled at hstage
    change termStarted r.toTerm u = true at hstarted
    show Subscription.settled u { r with status := .active, updatedAt := now } = r.settled u
    unfold Subscription.settled
    cases hs : r.status <;>
      simp_all [SubscriptionStatus.stage, SubscriptionStatus.settled]

instance : LawfulDated Addon where
  settled := Addon.settled
  id_setStatus _ _ _ := rfl
  term_setStatus _ _ _ := rfl
  stage_active _ _ := rfl
  stage_expired _ _ := rfl
  sameStatus_refl r := decide_eq_true rfl
  unique t := t.addonsKept.ids
  rows_recordEvent t e := addons_recordEvent t e
  rows_store h := by
    obtain ⟨_, rfl⟩ := storeAddons_ok.1 h
    rfl
  store_alike h hsettled := by
    obtain ⟨_, rfl⟩ := storeAddons_ok.1 h
    exact ⟨rfl, hsettled.symm⟩
  settled_expired {r u} hstage hended now := by
    change r.status.stage = .running at hstage
    change termEnded r.toTerm u = true at hended
    show Addon.settled u { r with status := .expired } = r.settled u
    unfold Addon.settled
    cases hs : r.status <;> simp_all [AddonStatus.stage, AddonStatus.settled]
  settled_active {r u} hstage hstarted now := by
    change r.status.stage = .scheduled at hstage
    change termStarted r.toTerm u = true at hstarted
    show Addon.settled u { r with status := .active } = r.settled u
    unfold Addon.settled
    cases hs : r.status <;> simp_all [AddonStatus.stage, AddonStatus.settled]

/-! ## One transition -/

section

variable {digest : Entity → Uuid → EventKind → Instant → Uuid} {now u : Instant}
variable {α : Type} [Dated α] {t t' : Tables} {row : α}

theorem due_of_running (hstage : Dated.stage row = .running) :
    isDue u row = termEnded (Dated.term row) u := by
  unfold isDue
  rw [hstage]

theorem due_of_scheduled (hstage : Dated.stage row = .scheduled) :
    isDue u row = termStarted (Dated.term row) u := by
  unfold isDue
  rw [hstage]

/-- What a pass at `u` over the rows `done` leaves: the settled rows, the rows it has not taken,
and no row due among those it has. -/
structure Passed (u : Instant) (done : List α) (t t' : Tables) : Prop where
  alike : ∀ w, u ≤ w → SettleAlike w t t'
  kept : ∀ r : α, r ∈ Dated.rows t → Dated.id r ∉ done.map Dated.id → r ∈ Dated.rows t'
  rest : ∀ r : α, r ∈ Dated.rows t' → isDue u r = true →
    r ∈ Dated.rows t ∧ Dated.id r ∉ done.map Dated.id

theorem Passed.trans {done done' : List α} {t'' : Tables} (h : Passed u done t t')
    (h' : Passed u done' t' t'') : Passed u (done ++ done') t t'' where
  alike w hw := (h.alike w hw).trans (h'.alike w hw)
  kept r hr hid := by
    rw [List.map_append, List.mem_append, not_or] at hid
    exact h'.kept r (h.kept r hr hid.1) hid.2
  rest r hr hdue := by
    obtain ⟨hr', hid'⟩ := h'.rest r hr hdue
    obtain ⟨hr, hid⟩ := h.rest r hr' hdue
    exact ⟨hr, by rw [List.map_append, List.mem_append, not_or]; exact ⟨hid, hid'⟩⟩

theorem Passed.nil (t : Tables) : Passed u ([] : List α) t t where
  alike w _ := .refl w t
  kept _ hr _ := hr
  rest _ hr _ := ⟨hr, List.not_mem_nil⟩

variable [LawfulDated α]

open LawfulDated

theorem isRow_iff (hrow : row ∈ Dated.rows t) {r : α} (hr : r ∈ Dated.rows t) :
    isRow row r = true ↔ r = row := by
  unfold isRow
  simp only [Bool.and_eq_true, decide_eq_true_eq]
  constructor
  · rintro ⟨hid, _⟩
    exact (unique t).eq hr hrow hid
  · rintro rfl
    exact ⟨rfl, sameStatus_refl r⟩

theorem transition_ok {next : Mark} {effectiveAt : Instant} {reason : String} {b : Bool}
    (hrow : row ∈ Dated.rows t)
    (h : transition digest now row next effectiveAt reason t = .ok (b, t')) :
    b = true ∧
      Dated.rows t' = Table.update (isRow row) (Dated.setStatus next now) (Dated.rows t) ∧
      ∀ w, settled w (Dated.setStatus next now row) = settled w row → SettleAlike w t t' := by
  have hcount : (Dated.rows t).countP (isRow row) = 1 :=
    (unique t).countP_eq_one hrow ((isRow_iff hrow hrow).2 rfl) fun r hr hp =>
      congrArg Dated.id ((isRow_iff hrow hr).1 hp)
  unfold transition at h
  obtain ⟨written, hstore, h⟩ := bind_eq_ok.1 h
  rw [if_neg (by simp [hcount])] at h
  obtain ⟨rfl, rfl⟩ := pair_eq_ok.1 h
  refine ⟨rfl, ?_, fun w hw => ?_⟩
  · rw [rows_recordEvent, rows_store hstore]
  · refine (store_alike hstore ?_).trans (settleAlike_recordEvent w written _)
    refine Table.map_update_mem fun r hr hp => ?_
    obtain rfl := (isRow_iff hrow hr).1 hp
    exact hw

section

variable {f : α → α} (hrow : row ∈ Dated.rows t)
  (hrows : Dated.rows t' = Table.update (isRow row) f (Dated.rows t))

include hrow hrows

theorem mem_updated : f row ∈ Dated.rows t' := by
  have hmem := Table.mem_update_of_mem (p := isRow row) (f := f) hrow
  rw [if_pos ((isRow_iff hrow hrow).2 rfl)] at hmem
  rwa [hrows]

theorem kept_of_updated {r : α} (hr : r ∈ Dated.rows t) (hne : Dated.id r ≠ Dated.id row) :
    r ∈ Dated.rows t' := by
  rw [hrows]
  refine Table.mem_update_of_not hr (Bool.eq_false_iff.2 fun h => hne ?_)
  rw [(isRow_iff hrow hr).1 h]

theorem of_mem_updated {r : α} (hr : r ∈ Dated.rows t') :
    r = f row ∨ r ∈ Dated.rows t ∧ Dated.id r ≠ Dated.id row := by
  rw [hrows] at hr
  obtain ⟨x, hx, rfl⟩ := Table.mem_update.1 hr
  by_cases hp : isRow row x = true
  · rw [if_pos hp, (isRow_iff hrow hx).1 hp]
    exact .inl rfl
  · rw [if_neg hp]
    exact .inr ⟨hx, fun hid => hp ((isRow_iff hrow hx).2 ((unique t).eq hx hrow hid))⟩

end

/-! ## A pass over due rows -/

variable {res res' : MaterializeResult}

theorem expire_ok (hrow : row ∈ Dated.rows t)
    (hstage : Dated.stage row = .running) (h : expire digest now u row res t = .ok (res', t')) :
    termEnded (Dated.term row) u = false ∧ t' = t ∨
      Dated.rows t' = Table.update (isRow row) (Dated.setStatus .expired now) (Dated.rows t) ∧
        ∀ w, u ≤ w → SettleAlike w t t' := by
  unfold expire at h
  cases hend : (Dated.term row).endsAt with
  | none =>
    simp only [hend] at h
    obtain ⟨-, rfl⟩ := pair_eq_ok.1 h
    exact .inl ⟨by simp [termEnded, hend], rfl⟩
  | some e =>
    simp only [hend] at h
    by_cases he : e ≤ u
    · rw [if_pos he] at h
      obtain ⟨⟨b, t1⟩, htrans, h⟩ := bind_eq_ok.1 h
      obtain ⟨-, rfl⟩ := pair_eq_ok.1 h
      obtain ⟨-, hrows, halike⟩ := transition_ok hrow htrans
      have hended : termEnded (Dated.term row) u = true := by simp [termEnded, hend, he]
      exact .inr ⟨hrows, fun w hw =>
        halike w (settled_expired hstage (termEnded_mono hw hended) now)⟩
    · rw [if_neg he] at h
      obtain ⟨-, rfl⟩ := pair_eq_ok.1 h
      exact .inl ⟨by simp [termEnded, hend, he], rfl⟩

theorem expire_passed (hrow : row ∈ Dated.rows t)
    (hstage : Dated.stage row = .running) (h : expire digest now u row res t = .ok (res', t')) :
    Passed u [row] t t' := by
  obtain ⟨hended, rfl⟩ | ⟨hrows, halike⟩ := expire_ok hrow hstage h
  · refine ⟨fun w _ => .refl w t', fun r hr _ => hr, fun r hr hdue => ⟨hr, fun hmem => ?_⟩⟩
    obtain rfl : r = row := (unique t').eq hr hrow (by simpa using hmem)
    rw [due_of_running hstage, hended] at hdue
    cases hdue
  · refine ⟨halike, fun r hr hne => kept_of_updated hrow hrows hr (by simpa using hne),
      fun r hr hdue => ?_⟩
    obtain rfl | ⟨hr, hne⟩ := of_mem_updated hrow hrows hr
    · rw [isDue, stage_expired] at hdue
      cases hdue
    · exact ⟨hr, by simpa using hne⟩

/-- A row whose start has come is activated, and expires too when its end has come. -/
theorem activate_passed (hrow : row ∈ Dated.rows t)
    (hstage : Dated.stage row = .scheduled) (hdue : isDue u row = true)
    (h : activate digest now u row res t = .ok (res', t')) : Passed u [row] t t' := by
  have hstarted := hdue
  rw [due_of_scheduled hstage] at hstarted
  unfold activate at h
  cases hstart : (Dated.term row).startsAt with
  | none => simp [termStarted, hstart] at hstarted
  | some s =>
    simp only [hstart] at h
    obtain ⟨⟨b, t1⟩, htrans, h⟩ := bind_eq_ok.1 h
    obtain ⟨rfl, hrows, halike⟩ := transition_ok hrow htrans
    have hpass := expire_passed (mem_updated hrow hrows) (stage_active now row) h
    refine ⟨fun w hw => ?_, fun r hr hne => ?_, fun r hr hdue => ?_⟩
    · exact (halike w (settled_active hstage (termStarted_mono hw hstarted) now)).trans
        (hpass.alike w hw)
    · have hne : Dated.id r ≠ Dated.id row := by simpa using hne
      exact hpass.kept r (kept_of_updated hrow hrows hr hne) (by simpa [id_setStatus] using hne)
    · obtain ⟨hr1, hne⟩ := hpass.rest r hr hdue
      obtain rfl | hr := of_mem_updated hrow hrows hr1
      · simp at hne
      · exact ⟨hr.1, by simpa using hr.2⟩

theorem materialize_passed (hrow : row ∈ Dated.rows t)
    (hdue : isDue u row = true) (h : materialize digest now u res row t = .ok (res', t')) :
    Passed u [row] t t' := by
  unfold materialize at h
  cases hstage : Dated.stage row with
  | running =>
    simp only [hstage] at h
    exact expire_passed hrow hstage h
  | scheduled =>
    simp only [hstage] at h
    exact activate_passed hrow hstage hdue h
  | done => simp [isDue, hstage] at hdue

theorem pass_passed {todo : List α}
    (htodo : ∀ r ∈ todo, r ∈ Dated.rows t ∧ isDue u r = true) (hnodup : Table.Unique Dated.id todo)
    (h : todo.foldlM (materialize digest now u) res t = .ok (res', t')) :
    Passed u todo t t' := by
  induction todo generalizing t res with
  | nil =>
    obtain ⟨-, rfl⟩ := pair_eq_ok.1 h
    exact .nil t
  | cons r todo ih =>
    rw [List.foldlM_cons] at h
    obtain ⟨⟨res1, t1⟩, hr, h⟩ := bind_eq_ok.1 h
    have hfirst := materialize_passed (htodo r List.mem_cons_self).1
      (htodo r List.mem_cons_self).2 hr
    have hne := List.nodup_cons.1 hnodup
    refine hfirst.trans (ih (fun x hx => ?_) hne.2 h)
    obtain ⟨hxt, hxdue⟩ := htodo x (List.mem_cons_of_mem r hx)
    refine ⟨hfirst.kept x hxt ?_, hxdue⟩
    intro hid
    refine hne.1 ?_
    rw [← List.mem_singleton.1 hid]
    exact List.mem_map_of_mem hx

/-! ## What a pass does not touch -/

section

omit [LawfulDated α]

variable {P : Tables → Prop}
  (hstore : ∀ {t rs t'}, Dated.store (α := α) t rs = .ok t' → P t → P t')
  (hevent : ∀ t e, P t → P (t.recordEvent e))

include hstore hevent

theorem transition_keeps {next : Mark} {effectiveAt : Instant} {reason : String} {b : Bool}
    (h : transition digest now row next effectiveAt reason t = .ok (b, t')) (ht : P t) : P t' := by
  unfold transition at h
  obtain ⟨written, hw, h⟩ := bind_eq_ok.1 h
  have hwritten := hstore hw ht
  split at h
  · obtain ⟨-, rfl⟩ := pair_eq_ok.1 h
    exact hwritten
  · obtain ⟨-, rfl⟩ := pair_eq_ok.1 h
    exact hevent _ _ hwritten

variable {res res' : MaterializeResult}

theorem expire_keeps (h : expire digest now u row res t = .ok (res', t')) (ht : P t) : P t' := by
  unfold expire at h
  cases hend : (Dated.term row).endsAt with
  | none =>
    simp only [hend] at h
    obtain ⟨-, rfl⟩ := pair_eq_ok.1 h
    exact ht
  | some e =>
    simp only [hend] at h
    by_cases he : e ≤ u
    · rw [if_pos he] at h
      obtain ⟨⟨b, t1⟩, htrans, h⟩ := bind_eq_ok.1 h
      obtain ⟨-, rfl⟩ := pair_eq_ok.1 h
      exact transition_keeps hstore hevent htrans ht
    · rw [if_neg he] at h
      obtain ⟨-, rfl⟩ := pair_eq_ok.1 h
      exact ht

theorem activate_keeps
    (h : activate digest now u row res t = .ok (res', t')) (ht : P t) : P t' := by
  unfold activate at h
  cases hstart : (Dated.term row).startsAt with
  | none =>
    simp only [hstart] at h
    obtain ⟨-, rfl⟩ := pair_eq_ok.1 h
    exact ht
  | some s =>
    simp only [hstart] at h
    obtain ⟨⟨b, t1⟩, htrans, h⟩ := bind_eq_ok.1 h
    have ht1 := transition_keeps hstore hevent htrans ht
    cases b with
    | true => exact expire_keeps hstore hevent h ht1
    | false =>
      obtain ⟨-, rfl⟩ := pair_eq_ok.1 h
      exact ht1

theorem materialize_keeps
    (h : materialize digest now u res row t = .ok (res', t')) (ht : P t) : P t' := by
  unfold materialize at h
  cases hstage : Dated.stage row with
  | running =>
    simp only [hstage] at h
    exact expire_keeps hstore hevent h ht
  | scheduled =>
    simp only [hstage] at h
    exact activate_keeps hstore hevent h ht
  | done =>
    simp only [hstage] at h
    obtain ⟨-, rfl⟩ := pair_eq_ok.1 h
    exact ht

theorem pass_keeps {todo : List α}
    (h : todo.foldlM (materialize digest now u) res t = .ok (res', t')) (ht : P t) : P t' := by
  induction todo generalizing t res with
  | nil =>
    obtain ⟨-, rfl⟩ := pair_eq_ok.1 h
    exact ht
  | cons r todo ih =>
    rw [List.foldlM_cons] at h
    obtain ⟨⟨res1, t1⟩, hr, h⟩ := bind_eq_ok.1 h
    exact ih h (materialize_keeps hstore hevent hr ht)

end

end

/-! ## A run -/

theorem mem_dueRows {α : Type} [Dated α] {u : Instant} {t : Tables} {r : α} :
    r ∈ dueRows α u t ↔ r ∈ Dated.rows t ∧ isDue u r = true := by
  unfold dueRows
  rw [List.mem_insertionSort, List.mem_filter]

theorem unique_dueRows {α : Type} [Dated α] [LawfulDated α] {u : Instant} {t : Tables} :
    Table.Unique Dated.id (dueRows α u t) := by
  have hfilter : Table.Unique Dated.id ((Dated.rows (α := α) t).filter (isDue u)) :=
    (LawfulDated.unique t).sublist (List.filter_sublist.map _)
  exact hfilter.perm (List.perm_insertionSort _ _).symm

section

variable {digest : Entity → Uuid → EventKind → Instant → Uuid} {now u : Instant} {t t' : Tables}

variable {res : MaterializeResult}

theorem runStatusJob_ok : runStatusJob digest now u t = .ok (res, t') ↔ ∃ res1 t1 res2 t2,
      ((dueRows Subscription u t).filter (·.status ≠ .scheduled)).foldlM
        (materialize digest now u) {} t = .ok (res1, t1) ∧
      ((dueRows Subscription u t).filter (·.status = .scheduled)).foldlM
        (materialize digest now u) res1 t1 = .ok (res2, t2) ∧
      (dueRows Addon u t2).foldlM (materialize digest now u) res2 t2 = .ok (res, t') := by
  unfold runStatusJob
  constructor
  · intro h
    obtain ⟨⟨res1, t1⟩, h1, h⟩ := bind_eq_ok.1 h
    obtain ⟨⟨res2, t2⟩, h2, h⟩ := bind_eq_ok.1 h
    exact ⟨res1, t1, res2, t2, h1, h2, h⟩
  · rintro ⟨res1, t1, res2, t2, h1, h2, h3⟩
    exact bind_eq_ok.2 ⟨(res1, t1), h1, bind_eq_ok.2 ⟨(res2, t2), h2, h3⟩⟩

theorem unique_filter_due {t : Tables} (p : Subscription → Bool) :
    Table.Unique Dated.id ((dueRows Subscription u t).filter p) :=
  unique_dueRows.sublist (List.filter_sublist.map _)

theorem runStatusJob_settles (h : runStatusJob digest now u t = .ok (res, t')) :
    (∀ w, u ≤ w → SettleAlike w t t') ∧ (∀ r ∈ t'.subscriptions, isDue u r = false) ∧
      ∀ a ∈ t'.addons, isDue u a = false := by
  obtain ⟨res1, t1, res2, t2, h1, h2, h3⟩ := runStatusJob_ok.1 h
  have hpass1 := pass_passed (fun r hr => mem_dueRows.1 (List.mem_filter.1 hr).1)
    (unique_filter_due _) h1
  have hkept : ∀ r ∈ (dueRows Subscription u t).filter (·.status = .scheduled),
      r ∈ t1.subscriptions ∧ isDue u r = true := by
    intro r hr
    obtain ⟨hdue, hsch⟩ := List.mem_filter.1 hr
    obtain ⟨hmem, hdue⟩ := mem_dueRows.1 hdue
    refine ⟨hpass1.kept r hmem fun hid => ?_, hdue⟩
    obtain ⟨x, hx, hxid⟩ := List.mem_map.1 hid
    obtain ⟨hxdue, hxsch⟩ := List.mem_filter.1 hx
    obtain rfl : x = r := t.subscriptionsKept.ids.eq (mem_dueRows.1 hxdue).1 hmem hxid
    exact of_decide_eq_true hxsch (of_decide_eq_true hsch)
  have hpass2 := pass_passed hkept (unique_filter_due _) h2
  have hpass3 := pass_passed (fun a ha => mem_dueRows.1 ha) unique_dueRows h3
  have hsubs : t'.subscriptions = t2.subscriptions := by
    refine pass_keeps (P := fun x => x.subscriptions = t2.subscriptions) ?_ ?_ h3 rfl
    · intro x rs x' hx hP
      obtain ⟨_, rfl⟩ := storeAddons_ok.1 hx
      exact hP
    · intro x e hP
      rw [subscriptions_recordEvent, hP]
  refine ⟨fun w hw => ((hpass1.alike w hw).trans (hpass2.alike w hw)).trans (hpass3.alike w hw),
    fun r hr => ?_, fun a ha => ?_⟩
  · rw [hsubs] at hr
    refine Bool.eq_false_iff.2 fun hdue => ?_
    obtain ⟨hmem, hid⟩ := (hpass1.trans hpass2).rest r hr hdue
    refine hid ?_
    rw [List.map_append, List.mem_append]
    by_cases hs : r.status = .scheduled
    · exact .inr (List.mem_map_of_mem (List.mem_filter.2
        ⟨mem_dueRows.2 ⟨hmem, hdue⟩, decide_eq_true hs⟩))
    · exact .inl (List.mem_map_of_mem (List.mem_filter.2
        ⟨mem_dueRows.2 ⟨hmem, hdue⟩, decide_eq_true hs⟩))
  · refine Bool.eq_false_iff.2 fun hdue => ?_
    obtain ⟨hmem, hid⟩ := hpass3.rest a ha hdue
    exact hid (List.mem_map_of_mem (mem_dueRows.2 ⟨hmem, hdue⟩))

theorem runStatusJob_origin (h : runStatusJob digest now u t = .ok (res, t')) {r' : Subscription}
    (hr' : r' ∈ t'.subscriptions) :
    ∃ r ∈ t.subscriptions, r.toTerm = r'.toTerm ∧ r.status.settled r.toTerm u = r'.status := by
  obtain ⟨halike, hidle, -⟩ := runStatusJob_settles h
  have hmem : r'.settled u ∈ t.subscriptions.map (·.settled u) := by
    rw [(halike u le_rfl).1]
    exact List.mem_map_of_mem hr'
  obtain ⟨r, hr, heq⟩ := List.mem_map.1 hmem
  have hterm : (r.settled u).toTerm = (r'.settled u).toTerm := by rw [heq]
  have hstatus : (r.settled u).status = (r'.settled u).status := by rw [heq]
  refine ⟨r, hr, hterm, hstatus.trans ?_⟩
  -- the later row is not due, so it settles to its own status
  have hdue := hidle r' hr'
  unfold isDue at hdue
  show r'.status.settled r'.toTerm u = r'.status
  cases hs : r'.status <;>
    simp_all [SubscriptionStatus.settled, Dated.stage, Dated.term, SubscriptionStatus.stage]

theorem runStatusJob_idle (hsubs : ∀ r ∈ t.subscriptions, isDue u r = false)
    (haddons : ∀ a ∈ t.addons, isDue u a = false) :
    runStatusJob digest now u t = .ok ({}, t) := by
  have hnil : dueRows Subscription u t = [] := by
    refine List.eq_nil_iff_forall_not_mem.2 fun r hr => ?_
    obtain ⟨hmem, hdue⟩ := mem_dueRows.1 hr
    rw [hsubs r hmem] at hdue
    cases hdue
  have hnil' : dueRows Addon u t = [] := by
    refine List.eq_nil_iff_forall_not_mem.2 fun r hr => ?_
    obtain ⟨hmem, hdue⟩ := mem_dueRows.1 hr
    rw [haddons r hmem] at hdue
    cases hdue
  refine runStatusJob_ok.2 ⟨{}, t, {}, t, ?_, ?_, ?_⟩
  · rw [hnil]
    rfl
  · rw [hnil]
    rfl
  · rw [hnil']
    rfl

/-! ## When a run goes through -/

/-- A successor is due only when the row before it is: the index of current rows lets the job
activate it. -/
def Clear (u : Instant) (t : Tables) : Prop :=
  ∀ s ∈ t.subscriptions, s.status = .scheduled → isDue u s = true →
    ∀ r ∈ t.subscriptions, r.status.isCurrent = true → isDue u r = true

section

variable {rows : List Subscription} {row : Subscription} {m : Mark}

/-- A status the job writes breaks at most the index of current rows. -/
theorem constraints_mark (h : SubscriptionConstraints rows)
    (hcurrent : (Table.update (isRow row) (Dated.setStatus m now) rows).countP
      (·.status.isCurrent) ≤ 1) :
    SubscriptionConstraints (Table.update (isRow row) (Dated.setStatus m now) rows) where
  ids := h.ids.update fun x _ => rfl
  oneCurrent := hcurrent
  oneScheduled := by
    refine le_trans ?_ h.oneScheduled
    rw [Table.update, List.countP_map]
    refine List.countP_mono_left fun x _ hx => ?_
    rw [Function.comp_apply] at hx
    split at hx
    · cases m <;> simp [Dated.setStatus, Mark.subscriptionStatus] at hx
    · exact hx
  invoiceLines := by
    have hcolumn := Table.filterMap_update (p := isRow row) (f := Dated.setStatus m now) (t := rows)
      (g := (·.sourceInvoiceLineId)) fun x _ _ => rfl
    unfold Table.UniqueSome
    rw [hcolumn]
    exact h.invoiceLines
  timeOrder r hr := by
    obtain ⟨x, hx, rfl⟩ := Table.mem_update.1 hr
    split <;> exact h.timeOrder x hx
  pendingDates r hr hpending := by
    obtain ⟨x, hx, rfl⟩ := Table.mem_update.1 hr
    split at hpending
    · cases m <;> simp [Dated.setStatus, Mark.subscriptionStatus] at hpending
    · rename_i hp
      rw [if_neg hp]
      exact h.pendingDates x hx hpending
  commercialSource r hr := by
    obtain ⟨x, hx, rfl⟩ := Table.mem_update.1 hr
    split <;> exact h.commercialSource x hx

theorem constraints_expired (row : Subscription) (now : Instant)
    (h : SubscriptionConstraints rows) :
    SubscriptionConstraints (Table.update (isRow row) (Dated.setStatus .expired now) rows) := by
  refine constraints_mark h (le_trans ?_ h.oneCurrent)
  rw [Table.update, List.countP_map]
  refine List.countP_mono_left fun x _ hx => ?_
  rw [Function.comp_apply] at hx
  split at hx
  · simp [Dated.setStatus, Mark.subscriptionStatus, SubscriptionStatus.isCurrent] at hx
  · exact hx

theorem constraints_active (row : Subscription) (now : Instant) (h : SubscriptionConstraints rows)
    (hnone : ∀ r ∈ rows, r.status.isCurrent = false) :
    SubscriptionConstraints (Table.update (isRow row) (Dated.setStatus .active now) rows) := by
  have hids : Table.Unique (·.id)
      (Table.update (isRow row) (Dated.setStatus .active now) rows) := h.ids.update fun x _ => rfl
  refine constraints_mark h (hids.countP_le_one fun x hx y hy hcx hcy => ?_)
  have hid : ∀ z ∈ Table.update (isRow row) (Dated.setStatus .active now) rows,
      z.status.isCurrent = true → z.id = row.id := by
    intro z hz hcz
    obtain ⟨w, hw, rfl⟩ := Table.mem_update.1 hz
    split at hcz
    · rename_i hp
      rw [if_pos hp]
      exact of_decide_eq_true (Bool.and_eq_true_iff.1 hp).1
    · rw [hnone w hw] at hcz
      cases hcz
  rw [hid x hx hcx, hid y hy hcy]

end

/-- The write of a status goes through. -/
def Writable {α : Type} [Dated α] (now : Instant) (t : Tables) (row : α) (m : Mark) : Prop :=
  ∃ t', Dated.store t (Table.update (isRow row) (Dated.setStatus m now) (Dated.rows t)) = .ok t'

theorem writable_expired (t : Tables) (row : Subscription) : Writable now t row .expired :=
  ⟨_, storeSubscriptions_ok.2 ⟨constraints_expired row now t.subscriptionsKept, rfl⟩⟩

theorem writable_active {t : Tables} (row : Subscription)
    (hnone : ∀ r ∈ t.subscriptions, r.status.isCurrent = false) : Writable now t row .active :=
  ⟨_, storeSubscriptions_ok.2 ⟨constraints_active row now t.subscriptionsKept hnone, rfl⟩⟩

/-- No constraint on add-ons looks at their status. -/
theorem constraints_addon {rows : List Addon} (g : Addon → AddonStatus)
    (h : AddonConstraints rows) :
    AddonConstraints (rows.map fun a => { a with status := g a }) where
  ids := by
    unfold Table.Unique
    rw [List.map_map]
    exact h.ids
  invoiceLines := by
    unfold Table.UniqueSome
    rw [List.filterMap_map]
    exact h.invoiceLines
  timeOrder a ha := by
    obtain ⟨x, hx, rfl⟩ := List.mem_map.1 ha
    exact h.timeOrder x hx
  quantityPositive a ha := by
    obtain ⟨x, hx, rfl⟩ := List.mem_map.1 ha
    exact h.quantityPositive x hx
  commercialSource a ha := by
    obtain ⟨x, hx, rfl⟩ := List.mem_map.1 ha
    exact h.commercialSource x hx

theorem writable_addon (t : Tables) (row : Addon) (m : Mark) : Writable now t row m := by
  have hrows : Table.update (isRow row) (Dated.setStatus m now) t.addons =
      t.addons.map fun a => { a with status := if isRow row a then m.addonStatus else a.status } := by
    refine List.map_congr_left fun a _ => ?_
    split <;> rfl
  refine ⟨_, storeAddons_ok.2 ⟨?_, rfl⟩⟩
  change AddonConstraints (Table.update (isRow row) (Dated.setStatus m now) t.addons)
  rw [hrows]
  exact constraints_addon _ t.addonsKept

section

variable {α : Type} [Dated α] (digest : Entity → Uuid → EventKind → Instant → Uuid)
  (now u : Instant) {t : Tables} {row : α}

theorem transition_succeeds {m : Mark} (e : Instant) (reason : String)
    (h : Writable now t row m) : ∃ b t', transition digest now row m e reason t = .ok (b, t') := by
  obtain ⟨written, hstore⟩ := h
  unfold transition
  rw [hstore, ok_bind]
  split
  · exact ⟨_, _, rfl⟩
  · exact ⟨_, _, rfl⟩

theorem expire_succeeds (res : MaterializeResult) (h : Writable now t row .expired) :
    ∃ res' t', expire digest now u row res t = .ok (res', t') := by
  unfold expire
  cases hend : (Dated.term row).endsAt with
  | none => exact ⟨res, t, rfl⟩
  | some e =>
    simp only
    by_cases he : e ≤ u
    · rw [if_pos he]
      obtain ⟨b, t', h⟩ := transition_succeeds digest now e "term_ended" h
      exact ⟨_, _, bind_eq_ok.2 ⟨(b, t'), h, rfl⟩⟩
    · rw [if_neg he]
      exact ⟨res, t, rfl⟩

theorem activate_succeeds (res : MaterializeResult) (h : Writable now t row .active)
    (hexpired : ∀ (t : Tables) (row : α), Writable now t row .expired) :
    ∃ res' t', activate digest now u row res t = .ok (res', t') := by
  unfold activate
  cases hstart : (Dated.term row).startsAt with
  | none => exact ⟨res, t, rfl⟩
  | some s =>
    simp only
    obtain ⟨b, t1, h1⟩ := transition_succeeds digest now s "scheduled_start_reached" h
    cases b with
    | true =>
      obtain ⟨res2, t2, h2⟩ := expire_succeeds digest now u
        (res.tally (Dated.entity α) .active) (hexpired t1 (Dated.setStatus .active now row))
      exact ⟨res2, t2, bind_eq_ok.2 ⟨(true, t1), h1, h2⟩⟩
    | false => exact ⟨res, t1, bind_eq_ok.2 ⟨(false, t1), h1, rfl⟩⟩

theorem pass_addons (todo : List Addon) (res : MaterializeResult) :
    ∃ res' t', todo.foldlM (materialize digest now u) res t = .ok (res', t') := by
  induction todo generalizing t res with
  | nil => exact ⟨res, t, rfl⟩
  | cons a todo ih =>
    have hfirst : ∃ res' t', materialize digest now u res a t = .ok (res', t') := by
      unfold materialize
      cases Dated.stage a with
      | running => exact expire_succeeds digest now u res (writable_addon t a _)
      | scheduled =>
        exact activate_succeeds digest now u res (writable_addon t a _) fun t a =>
          writable_addon t a _
      | done => exact ⟨res, t, rfl⟩
    obtain ⟨res1, t1, h1⟩ := hfirst
    obtain ⟨res2, t2, h2⟩ := ih (t := t1) res1
    exact ⟨res2, t2, by rw [List.foldlM_cons]; exact bind_eq_ok.2 ⟨(res1, t1), h1, h2⟩⟩

theorem pass_running (todo : List Subscription) (res : MaterializeResult)
    (htodo : ∀ r ∈ todo, r ∈ t.subscriptions ∧ r.status.stage = .running)
    (hnodup : Table.Unique Dated.id todo) :
    ∃ res' t', todo.foldlM (materialize digest now u) res t = .ok (res', t') ∧
      ∀ r ∈ t'.subscriptions, r ∈ t.subscriptions ∨ r.status = .expired := by
  induction todo generalizing t res with
  | nil => exact ⟨res, t, rfl, fun r hr => .inl hr⟩
  | cons row todo ih =>
    obtain ⟨hrow, hstage⟩ := htodo row List.mem_cons_self
    have hne := List.nodup_cons.1 hnodup
    obtain ⟨res1, t1, h1⟩ := expire_succeeds digest now u res (writable_expired t row)
    have hpass := expire_passed hrow hstage h1
    have horigin : ∀ r ∈ t1.subscriptions, r ∈ t.subscriptions ∨ r.status = .expired := by
      intro r hr
      obtain ⟨-, rfl⟩ | ⟨hrows, -⟩ := expire_ok hrow hstage h1
      · exact .inl hr
      · obtain rfl | hr := of_mem_updated hrow hrows hr
        · exact .inr rfl
        · exact .inl hr.1
    obtain ⟨res2, t2, h2, horigin2⟩ := ih res1 (fun r hr => by
      obtain ⟨hmem, hstage⟩ := htodo r (List.mem_cons_of_mem row hr)
      refine ⟨hpass.kept r hmem fun hid => hne.1 ?_, hstage⟩
      rw [← List.mem_singleton.1 hid]
      exact List.mem_map_of_mem hr) hne.2
    refine ⟨res2, t2, ?_, fun r hr => (horigin2 r hr).elim (horigin r) .inr⟩
    have hfirst : materialize digest now u res row t = .ok (res1, t1) := by
      unfold materialize
      rw [show Dated.stage row = .running from hstage]
      exact h1
    rw [List.foldlM_cons]
    exact bind_eq_ok.2 ⟨(res1, t1), hfirst, h2⟩

end

theorem running_of_due {r : Subscription} (h : r ∈ dueRows Subscription u t)
    (hs : r.status ≠ .scheduled) : r.status.stage = .running := by
  have hdue := (mem_dueRows.1 h).2
  have hstage : Dated.stage r = r.status.stage := rfl
  rw [isDue, hstage] at hdue
  cases hr : r.status <;> simp_all [SubscriptionStatus.stage]

theorem dueScheduled_cases : (dueRows Subscription u t).filter (·.status = .scheduled) = [] ∨
      ∃ s ∈ t.subscriptions, s.status = .scheduled ∧ isDue u s = true ∧
        (dueRows Subscription u t).filter (·.status = .scheduled) = [s] := by
  have hmem : ∀ r ∈ (dueRows Subscription u t).filter (·.status = .scheduled),
      r ∈ t.subscriptions ∧ r.status = .scheduled ∧ isDue u r = true := fun r hr => by
    obtain ⟨hdue, hs⟩ := List.mem_filter.1 hr
    exact ⟨(mem_dueRows.1 hdue).1, of_decide_eq_true hs, (mem_dueRows.1 hdue).2⟩
  have hunique : Table.Unique Dated.id
      ((dueRows Subscription u t).filter (·.status = .scheduled)) := unique_filter_due _
  match hl : (dueRows Subscription u t).filter (·.status = .scheduled) with
  | [] => exact .inl hl
  | [s] =>
    obtain ⟨hs, hsch, hdue⟩ := hmem s (by rw [hl]; exact List.mem_singleton_self s)
    exact .inr ⟨s, hs, hsch, hdue, hl⟩
  | a :: b :: rest =>
    rw [hl] at hmem hunique
    obtain ⟨ha, has, -⟩ := hmem a (by simp)
    obtain ⟨hb, hbs, -⟩ := hmem b (by simp)
    have hab : a = b := Table.eq_of_countP_le_one t.subscriptionsKept.oneScheduled ha hb
      (decide_eq_true has) (decide_eq_true hbs)
    simp [Table.Unique, hab] at hunique

theorem runStatusJob_of_clear (digest : Entity → Uuid → EventKind → Instant → Uuid)
    (now : Instant) (h : Clear u t) : ∃ res t', runStatusJob digest now u t = .ok (res, t') := by
  obtain ⟨res1, t1, h1, horigin⟩ := pass_running digest now u (t := t)
    ((dueRows Subscription u t).filter (·.status ≠ .scheduled)) {}
    (fun r hr => ⟨(mem_dueRows.1 (List.mem_filter.1 hr).1).1,
      running_of_due (List.mem_filter.1 hr).1 (of_decide_eq_true (List.mem_filter.1 hr).2)⟩)
    (unique_filter_due _)
  have hpass := pass_passed (fun r hr => mem_dueRows.1 (List.mem_filter.1 hr).1)
    (unique_filter_due _) h1
  have hsecond : ∃ res2 t2, ((dueRows Subscription u t).filter (·.status = .scheduled)).foldlM
      (materialize digest now u) res1 t1 = .ok (res2, t2) := by
    obtain hnil | ⟨s, hs, hsch, hdue, hsingle⟩ := dueScheduled_cases (u := u) (t := t)
    · exact ⟨res1, t1, by rw [hnil]; rfl⟩
    · have hnone : ∀ r ∈ t1.subscriptions, r.status.isCurrent = false := by
        intro r hr
        refine Bool.eq_false_iff.2 fun hcur => ?_
        obtain hmem | hexp := horigin r hr
        · have hrdue := h s hs hsch hdue r hmem hcur
          refine (hpass.rest r hr hrdue).2 (List.mem_map_of_mem (List.mem_filter.2
            ⟨mem_dueRows.2 ⟨hmem, hrdue⟩, decide_eq_true fun hrs => ?_⟩))
          rw [hrs] at hcur
          cases hcur
        · rw [hexp] at hcur
          cases hcur
      obtain ⟨res2, t2, h2⟩ := activate_succeeds digest now u res1 (writable_active s hnone)
        fun t row => writable_expired t row
      refine ⟨res2, t2, ?_⟩
      have hstage : Dated.stage s = .scheduled := by
        show s.status.stage = .scheduled
        rw [hsch]
        rfl
      rw [hsingle, List.foldlM_cons]
      refine bind_eq_ok.2 ⟨(res2, t2), ?_, rfl⟩
      unfold materialize
      rw [hstage]
      exact h2
  obtain ⟨res2, t2, h2⟩ := hsecond
  obtain ⟨res3, t3, h3⟩ := pass_addons digest now u (t := t2) (dueRows Addon u t2) res2
  exact ⟨res3, t3, runStatusJob_ok.2 ⟨res1, t1, res2, t2, h1, h2, h3⟩⟩

/-- A run that goes through had no successor waiting behind a row still in force. -/
theorem clear_of_runStatusJob (h : runStatusJob digest now u t = .ok (res, t')) : Clear u t := by
  intro s hs hsch hdue r hr hcur
  by_contra hrdue
  obtain ⟨res1, t1, res2, t2, h1, h2, -⟩ := runStatusJob_ok.1 h
  have hpass := pass_passed (fun r hr => mem_dueRows.1 (List.mem_filter.1 hr).1)
    (unique_filter_due _) h1
  have hkept : ∀ x ∈ t.subscriptions, (x.status = .scheduled ∨ ¬ isDue u x = true) →
      x ∈ t1.subscriptions := by
    intro x hx hcase
    refine hpass.kept x hx fun hid => ?_
    obtain ⟨y, hy, hyid⟩ := List.mem_map.1 hid
    obtain ⟨hydue, hys⟩ := List.mem_filter.1 hy
    obtain rfl : y = x := t.subscriptionsKept.ids.eq (mem_dueRows.1 hydue).1 hx hyid
    have hys : y.status ≠ .scheduled := by simpa using hys
    exact hcase.elim hys fun hn => hn (mem_dueRows.1 hydue).2
  have hs1 := hkept s hs (.inl hsch)
  have hr1 := hkept r hr (.inr hrdue)
  have hne : r.id ≠ s.id := fun hid => hrdue (by rwa [t.subscriptionsKept.ids.eq hr hs hid])
  obtain hnil | ⟨s', hs', hsch', -, hsingle⟩ := dueScheduled_cases (u := u) (t := t)
  · have hmem : s ∈ (dueRows Subscription u t).filter (·.status = .scheduled) :=
      List.mem_filter.2 ⟨mem_dueRows.2 ⟨hs, hdue⟩, decide_eq_true hsch⟩
    rw [hnil] at hmem
    cases hmem
  · obtain rfl : s' = s := Table.eq_of_countP_le_one t.subscriptionsKept.oneScheduled hs' hs
      (decide_eq_true hsch') (decide_eq_true hsch)
    rw [hsingle, List.foldlM_cons] at h2
    obtain ⟨⟨res3, t3⟩, h3, -⟩ := bind_eq_ok.1 h2
    unfold materialize at h3
    rw [show Dated.stage s' = .scheduled by show s'.status.stage = _; rw [hsch]; rfl] at h3
    simp only [activate] at h3
    cases hstart : (Dated.term s').startsAt with
    | none =>
      rw [due_of_scheduled (by show s'.status.stage = _; rw [hsch]; rfl), termStarted,
        hstart] at hdue
      cases hdue
    | some b =>
      simp only [hstart] at h3
      obtain ⟨⟨ok, t4⟩, htrans, -⟩ := bind_eq_ok.1 h3
      obtain ⟨-, hrows, -⟩ := transition_ok hs1 htrans
      have hboth := Table.eq_of_countP_le_one t4.subscriptionsKept.oneCurrent
        (kept_of_updated hs1 hrows hr1 hne) (mem_updated hs1 hrows) hcur rfl
      rw [hboth] at hne
      exact hne rfl

/-! ## The job and the reader -/

theorem serve_runStatusJob (digest : Entity → Uuid → EventKind → Instant → Uuid) (c : Catalog)
    (u now : Instant) (t : Tables) :
    (∃ res t', runStatusJob digest now u t = .ok (res, t') ∧
        (serve digest c (.runStatusJob u now) t).2 = t') ∨
      (∃ e, runStatusJob digest now u t = .error e) ∧
        (serve digest c (.runStatusJob u now) t).2 = t := by
  unfold serve Call.body
  cases hrun : runStatusJob digest now u t with
  | error e =>
    refine .inr ⟨⟨e, rfl⟩, ?_⟩
    simp [hrun, bind, Except.bind]
  | ok out =>
    obtain ⟨res, t'⟩ := out
    refine .inl ⟨res, t', rfl, ?_⟩
    simp [hrun, bind, Except.bind, pure, Except.pure]

theorem settleAlike_serve (c : Catalog) {w : Instant} (hw : u ≤ w) :
    SettleAlike w t (serve digest c (.runStatusJob u now) t).2 := by
  obtain ⟨res, t', hrun, hserve⟩ | ⟨-, hserve⟩ :=
    serve_runStatusJob digest c u now t
  · rw [hserve]
    exact (runStatusJob_settles hrun).1 w hw
  · rw [hserve]
    exact .refl w t

end

/-- **The status job is invisible to access.** For all rows of a tenant, the answer at `t` is the
same whether the job ran any number of times at instants up to `t` or never; and a second run at the
instant of the first leaves the rows and the events as the first has left them. -/
theorem status_job_invisible (digest : Entity → Uuid → EventKind → Instant → Uuid) (c : Catalog)
    (tables : Tables) :
    (∀ (t : Instant) (runs : List ({u : Instant // u ≤ t} × Instant)),
      resolve c (runs.foldl (fun tables run =>
        (serve digest c (.runStatusJob run.1 run.2) tables).2) tables) t = resolve c tables t) ∧
      ∀ u now now' : Instant,
        let once := (serve digest c (.runStatusJob u now) tables).2
        (serve digest c (.runStatusJob u now') once).2 = once := by
  constructor
  · intro t runs
    refine (SettleAlike.resolve le_rfl ?_ c).symm
    induction runs generalizing tables with
    | nil => exact .refl t tables
    | cons run runs ih => exact (settleAlike_serve c run.1.2).trans (ih _)
  · intro u now now' once
    obtain ⟨res, t', hrun, hserve⟩ | ⟨⟨e, hrun⟩, hserve⟩ :=
      serve_runStatusJob digest c u now tables
    · obtain ⟨-, hsubs, haddons⟩ := runStatusJob_settles hrun
      have honce : once = t' := hserve
      rw [honce]
      obtain ⟨res', t'', hrun', hserve'⟩ | ⟨-, hserve'⟩ :=
        serve_runStatusJob digest c u now' t'
      · rw [hserve']
        rw [runStatusJob_idle hsubs haddons] at hrun'
        exact ((pair_eq_ok.1 hrun').2).symm
      · exact hserve'
    · have honce : once = tables := hserve
      rw [honce]
      obtain ⟨res', t'', hrun', -⟩ | ⟨-, hserve'⟩ :=
        serve_runStatusJob digest c u now' tables
      · obtain ⟨res, t', hok⟩ := runStatusJob_of_clear digest now (clear_of_runStatusJob hrun')
        rw [hrun] at hok
        cases hok
      · exact hserve'

end Markiro.Subscriptions
