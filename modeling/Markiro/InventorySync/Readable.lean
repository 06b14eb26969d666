import Markiro.InventorySync.Winners

/-!
# The station reads the answers

The outcome of an event is one that the station accepts (`Decided.readable`), and the answer to a
batch that is applied is readable where the events that take codes name their instants as the answer
does (`applyBatch_readable`).
-/

namespace Markiro.InventorySync

open Results

/-! ## What an event claims -/

section

variable {d : Digests} {task : Task} {e : Event} {targets : List ClaimTarget}

structure Shaped (e : Event) (targets : List ClaimTarget) : Prop where
  distinct : (targets.map (·.codeHash)).Nodup
  item : e.kind = .item → ∃ g, targets = [g] ∧ e.codeHash = some g.codeHash
  known : e.kind = .knownBox → targets ≠ []
  none : e.kind = .oldBox ∨ e.kind = .repackAction → targets = []

theorem validateItem_shaped {raw : Utf16.Units} (hkind : e.kind = .item)
    (h : validateItem d task raw e = .ok targets) : Shaped e targets := by
  have key : ∃ g, targets = [g] ∧ e.codeHash = some g.codeHash := by
    unfold validateItem at h
    split at h
    · rename_i codeHash canonical hcode _
      split_ifs at h
      simp only at h
      split_ifs at h
      obtain rfl := Except.ok.inj h
      exact ⟨_, rfl, hcode⟩
    · cases h
  obtain ⟨g, rfl, hg⟩ := key
  refine ⟨List.nodup_singleton _, fun _ => ⟨g, rfl, hg⟩, ?_, ?_⟩
  · rw [hkind]
    exact nofun
  · rw [hkind]
    rintro (h | h) <;> cases h

theorem Task.codesIn_nodup (task : Task) (sscc : Utf16.Units) :
    ((task.codesIn sscc).map (·.codeHash)).Nodup := by
  refine List.Nodup.sublist ((List.take_sublist _ _).map _) ?_
  refine (((List.perm_insertionSort _ _).map _).nodup_iff).2 ?_
  exact List.Nodup.sublist (List.filter_sublist.map _) task.distinct

theorem validateBox_shaped {raw : Utf16.Units} (haccepted : e.Accepted)
    (hkind : e.kind = .knownBox ∨ e.kind = .oldBox) (h : validateBox task raw e = .ok targets) :
    Shaped e targets := by
  have hitem : e.kind = .item → ∃ g, targets = [g] ∧ e.codeHash = some g.codeHash := by
    intro hi
    rcases hkind with hk | hk <;> cases hi.symm.trans hk
  unfold validateBox at h
  split at h
  · cases h
  · rename_i sscc _
    split_ifs at h
    split at h
    · rename_i hrepack
      have hagrees := haccepted.repack
      unfold Event.repackAgrees at hagrees
      rw [hrepack] at hagrees
      split_ifs at h
      obtain rfl := Except.ok.inj h
      refine ⟨List.nodup_nil, hitem, ?_, fun _ => rfl⟩
      rw [hagrees.1]
      exact nofun
    · simp only at h
      split_ifs at h with hmismatch
      obtain rfl := Except.ok.inj h
      refine ⟨?_, hitem, fun hk hnil => ?_, fun hk => ?_⟩
      · rw [List.map_map]
        exact task.codesIn_nodup sscc
      · exact hmismatch (iff_of_true hk (List.map_eq_nil_iff.1 hnil))
      · rw [List.map_eq_nil_iff]
        by_contra hne
        refine hmismatch (iff_of_false (fun hknown => ?_) hne)
        rw [hknown] at hk
        rcases hk with hk | hk <;> cases hk

theorem validateAndExpand_shaped (haccepted : e.Accepted)
    (h : validateAndExpand d task e = .ok targets) : Shaped e targets := by
  unfold validateAndExpand at h
  obtain ⟨_, -, h⟩ := bind_eq_ok.1 h
  by_cases hkind : e.kind = .repackAction
  · rw [if_pos hkind] at h
    have hnil : targets = [] := by
      unfold validateRepackAction at h
      split_ifs at h
      split at h
      · split_ifs at h
        exact (Except.ok.inj h).symm
      · exact (Except.ok.inj h).symm
    subst hnil
    refine ⟨List.nodup_nil, ?_, ?_, fun _ => rfl⟩
    · rw [hkind]
      exact nofun
    · rw [hkind]
      exact nofun
  · rw [if_neg hkind] at h
    cases hraw : e.canonicalRaw with
    | none =>
      simp only [hraw] at h
      cases h
    | some raw =>
      simp only [hraw] at h
      split_ifs at h with h1 h2 h3
      · exact validateItem_shaped h3 h
      · refine validateBox_shaped haccepted ?_ h
        cases hk : e.kind with
        | item => exact absurd hk h3
        | knownBox => exact .inl rfl
        | oldBox => exact .inr rfl
        | repackAction => exact absurd hk hkind

theorem Expanded.Sound.shaped {x : Expanded} (h : x.Sound d task) (hrej : x.rejected = false) :
    Shaped x.event x.claims := by
  unfold Expanded.rejected at hrej
  unfold Expanded.claims
  cases ht : x.targets with
  | error code =>
    rw [ht] at hrej
    cases hrej
  | ok targets => exact validateAndExpand_shaped h.accepted (h.targets.symm.trans ht)

theorem expandAll_size {n : ℕ} {events : List Event} {xs : List Expanded}
    (h : expandAll d task n events = .ok xs) (hn : n ≤ 10000) :
    n + (xs.map (·.claims.length)).sum ≤ 10000 ∧ ∀ x ∈ xs, x.claims.length ≤ 10000 := by
  induction events generalizing n xs with
  | nil =>
    obtain rfl := Except.ok.inj h
    exact ⟨hn, fun _ hx => absurd hx List.not_mem_nil⟩
  | cons e events ih =>
    rw [expandAll] at h
    obtain ⟨_, hlen, h⟩ := bind_eq_ok.1 h
    obtain ⟨_, hsum, h⟩ := bind_eq_ok.1 h
    obtain ⟨rest, hrest, h⟩ := bind_eq_ok.1 h
    obtain rfl := pure_eq_ok.1 h
    obtain ⟨h1, h2⟩ := ih hrest (ensure_ok.1 hsum)
    refine ⟨?_, fun x hx => ?_⟩
    · rw [List.map_cons, List.sum_cons, ← add_assoc]
      exact h1
    · rcases List.mem_cons.1 hx with rfl | hx
      · exact ensure_ok.1 hlen
      · exact h2 x hx

end

/-! ## One outcome -/

section

variable {d : Digests} {task : Task} {D : Uuid} {x : Expanded} {o : EventOutcome}
  {results winners : List CodeResult}

/-- The row of a code that the event holds names the device and the instant as the event does. -/
def Held (D : Uuid) (e : Event) (results : List CodeResult) : Prop :=
  ∀ y ∈ results, y.firstAcceptedEventId = e.eventId →
    y.winningDeviceId = D ∧ y.winningScannedAt.toISOString = e.scannedAt

theorem claimAgainst_claimed {id : Uuid} {w : CodeResult} :
    (claimAgainst id w).status = .claimed ↔ w.firstAcceptedEventId = id := by
  unfold claimAgainst
  dsimp only
  split_ifs with h
  · exact iff_of_true rfl h
  · exact iff_of_false nofun h

theorem count_duplicate (claims : List EventClaim) :
    claims.length - claims.countP (·.status = .claimed) =
      claims.countP (·.status = .duplicate) := by
  have hsplit := List.length_eq_countP_add_countP (fun c : EventClaim => c.status = .claimed) (l := claims)
  have hrest : claims.countP (fun c => decide ¬decide (c.status = .claimed) = true) =
      claims.countP (·.status = .duplicate) := by
    refine List.countP_congr fun c _ => ?_
    cases h : c.status <;> simp
  omega

theorem claims_of_winners (hwinners : List.Forall₂
    (fun (g : ClaimTarget) w => w ∈ results ∧ w.codeHash = g.codeHash) x.claims winners) :
    (winners.map (claimAgainst x.event.eventId)).map (·.codeHash) =
      x.claims.map (·.codeHash) := by
  rw [List.map_map]
  symm
  rw [← List.forall₂_eq_eq_eq, List.forall₂_map_left_iff, List.forall₂_map_right_iff]
  exact hwinners.imp fun _ _ h => h.2.symm

/-- **The station accepts the outcome of an event.** -/
theorem Decided.readable (hd : Decided results x o) (hsound : x.Sound d task)
    (hsize : x.claims.length ≤ 10000) (hheld : Held D x.event results) :
    o.Accepted ∧ o.Answers (some D) x.event := by
  cases hd with
  | rejected hrej =>
    refine ⟨⟨?_, ?_, List.nodup_nil, ?_, rfl, rfl, ?_⟩, ⟨nofun, nofun, nofun, ?_⟩⟩
    · exact Nat.zero_le _
    · exact fun _ hc => absurd hc List.not_mem_nil
    · exact fun _ hc => absurd hc List.not_mem_nil
    · exact ⟨rfl, rfl⟩
    · exact fun _ hc => absurd hc List.not_mem_nil
  | decided hrej winners hwinners =>
    have hshaped := hsound.shaped hrej
    have hhashes := claims_of_winners hwinners
    have hlength : (winners.map (claimAgainst x.event.eventId)).length = x.claims.length := by
      rw [List.length_map, hwinners.length_eq]
    -- the status of an event that claims nothing does not ask for its claims
    have hnone : x.event.kind = .oldBox ∨ x.event.kind = .repackAction →
        winners.map (claimAgainst x.event.eventId) = [] := fun hk => by
      rw [← List.length_eq_zero_iff, hlength, hshaped.none hk, List.length_nil]
    have hitem : x.event.kind = .item → ∃ c, winners.map (claimAgainst x.event.eventId) = [c] ∧
        x.event.codeHash = some c.codeHash := by
      intro hk
      obtain ⟨g, hg, hcode⟩ := hshaped.item hk
      rw [hg, List.map_cons, List.map_nil] at hhashes
      obtain ⟨c, hc, hch⟩ := List.map_eq_singleton_iff.1 hhashes
      exact ⟨c, hc, by rw [hch, hcode]⟩
    have hsome : ¬(x.event.kind = .oldBox ∨ x.event.kind = .repackAction) →
        winners.map (claimAgainst x.event.eventId) ≠ [] := by
      intro hk hnil
      cases hkind : x.event.kind with
      | item =>
        obtain ⟨c, hc, -⟩ := hitem hkind
        rw [hnil] at hc
        cases hc
      | knownBox =>
        refine hshaped.known hkind ?_
        rw [← List.length_eq_zero_iff, ← hlength, hnil, List.length_nil]
      | oldBox => exact hk (.inl hkind)
      | repackAction => exact hk (.inr hkind)
    have hclaimed : ∀ c ∈ winners.map (claimAgainst x.event.eventId), c.status = .claimed →
        c.winner.scannedAt = x.event.scannedAt ∧ c.winner.deviceId = D := by
      intro c hc hstatus
      obtain ⟨w, hw, rfl⟩ := List.mem_map.1 hc
      obtain ⟨g, -, hg, -⟩ := forall₂_mem hwinners.flip hw
      have hfirst := claimAgainst_claimed.1 hstatus
      exact ⟨(hheld w hg hfirst).2, (hheld w hg hfirst).1⟩
    have hown : ∀ c ∈ winners.map (claimAgainst x.event.eventId),
        c.winner.codeHash = c.codeHash ∧
          (c.status = .claimed ↔ c.winner.eventId = x.event.eventId) := by
      intro c hc
      obtain ⟨w, -, rfl⟩ := List.mem_map.1 hc
      exact ⟨rfl, claimAgainst_claimed⟩
    have hdistinct : ((winners.map (claimAgainst x.event.eventId)).map (·.codeHash)).Nodup :=
      hhashes ▸ hshaped.distinct
    rw [← hlength] at hsize
    clear hwinners hhashes hlength
    generalize winners.map (claimAgainst x.event.eventId) = claims at *
    refine ⟨⟨hsize, fun c hc => (hown c hc).1, hdistinct, fun c hc => (hown c hc).2, rfl,
      count_duplicate claims, ?_⟩, ⟨fun _ hk => hitem hk, fun _ hk => hnone (.inl hk), ?_, ?_⟩⟩
    · unfold claimsOutcome EventOutcome.consistent
      by_cases happ : (claims.any (·.status = .claimed) || x.event.kind = .oldBox ||
          x.event.kind = .repackAction) = true
      · rw [happ]
        refine ⟨fun ⟨hne, hzero⟩ => ?_, rfl⟩
        rw [Bool.or_assoc, Bool.or_eq_true, Bool.or_eq_true, decide_eq_true_eq,
          decide_eq_true_eq] at happ
        rcases happ with hany | hk
        · obtain ⟨c, hc, hstatus⟩ := List.any_eq_true.1 hany
          exact absurd hstatus (List.countP_eq_zero.1 hzero c hc)
        · exact hne (hnone hk)
      · rw [Bool.not_eq_true] at happ
        rw [happ]
        rw [Bool.or_assoc, Bool.or_eq_false_iff, Bool.or_eq_false_iff, decide_eq_false_iff_not,
          decide_eq_false_iff_not] at happ
        have hzero : claims.countP (·.status = .claimed) = 0 :=
          List.countP_eq_zero.2 fun c hc => by
            simpa using (List.any_eq_false.1 happ.1) c hc
        refine ⟨hzero, fun hlen => ?_, rfl⟩
        have hlen : claims.length - claims.countP (·.status = .claimed) = 0 := hlen
        rw [hzero, Nat.sub_zero, List.length_eq_zero_iff] at hlen
        exact hsome (fun hk => hk.elim happ.2.1 happ.2.2) hlen
    · intro happ hzero
      by_contra hk
      have happ : (if (claims.any (·.status = .claimed) || x.event.kind = .oldBox ||
          x.event.kind = .repackAction) = true then OutcomeStatus.applied else .duplicate) =
          .applied := happ
      split_ifs at happ with hany
      rw [Bool.or_assoc, Bool.or_eq_true, Bool.or_eq_true, decide_eq_true_eq,
        decide_eq_true_eq] at hany
      obtain ⟨c, hc, hstatus⟩ := List.any_eq_true.1 (hany.resolve_right hk)
      exact absurd hstatus (List.countP_eq_zero.1 hzero c hc)
    · intro c hc hstatus
      refine ⟨(hclaimed c hc hstatus).1, fun D' hD' => ?_⟩
      rw [(hclaimed c hc hstatus).2, Option.mem_some_iff.1 hD']

end

/-! ## The answer to a batch -/

section

variable {d : Digests} {task : Task} {env : Env} {D : Uuid} {b : EventBatch} {t t' : Tables}
  {a : BatchResponse} {xs : List Expanded}

theorem respond_readable {revision : ℕ} {os : List EventOutcome} (hb : b.Accepted d.payload)
    (hrevision : isSafe revision)
    (hos : List.Forall₂
      (fun e (o : EventOutcome) => o.eventId = e.eventId ∧ o.Accepted ∧ o.Answers (some D) e)
      b.events os)
    (hclaims : (os.map (·.claims.length)).sum ≤ 10000) :
    (respond task b revision os).Answers task.inventoryId (some D) b := by
  have hids : os.map (·.eventId) = b.events.map (·.eventId) := by
    symm
    rw [← List.forall₂_eq_eq_eq, List.forall₂_map_left_iff, List.forall₂_map_right_iff]
    exact hos.imp fun _ _ h => h.1.symm
  have hceiling : 0 < b.sequenceCeiling ∧ isSafe b.sequenceCeiling := by
    obtain ⟨e, he, hlast⟩ := Option.map_eq_some_iff.1 hb.ceiling
    rw [← hlast]
    exact (hb.events e (List.mem_of_getLast? he)).sequence
  refine ⟨⟨hb.batchId, hceiling, hrevision, ?_, fun o ho => ?_, hclaims⟩, rfl, rfl, rfl, rfl, rfl,
    hos.length_eq.symm, ?_, fun o ho => ?_⟩
  · show 1 ≤ os.length ∧ os.length ≤ 100
    rw [← hos.length_eq]
    exact hb.size
  · obtain ⟨e, -, he⟩ := forall₂_mem hos.flip ho
    exact he.2.1
  · show (os.map (·.eventId)).Nodup
    rw [hids]
    exact hb.ids
  · obtain ⟨e, hmem, hid, -, hanswers⟩ := forall₂_mem hos.flip ho
    cases hfind : b.events.find? (·.eventId = o.eventId) with
    | none =>
      exact absurd (decide_eq_true hid.symm) (List.find?_eq_none.1 hfind e hmem)
    | some f =>
      have hf := List.find?_some hfind
      have hfe : f = e := List.inj_on_of_nodup_map hb.ids (List.mem_of_find?_eq_some hfind) hmem
        ((of_decide_eq_true hf).trans hid)
      exact ⟨f, rfl, hfe ▸ hanswers⟩

def Event.codes (d : Digests) (task : Task) (e : Event) : List Hash :=
  match validateAndExpand d task e with
  | .ok targets => targets.map (·.codeHash)
  | .error _ => []

/-- An event of the batch takes a code: it comes before the winner there is and before the other
events of the batch. -/
structure Takes (d : Digests) (task : Task) (D : Uuid) (b : EventBatch) (results : List CodeResult)
    (e : Event) (h : Hash) : Prop where
  claims : h ∈ e.codes d task
  earlier : ∀ y ∈ results, y.codeHash = h → e.rank D < y.rank
  first : ∀ f ∈ b.events, h ∈ f.codes d task → e.rank D ≤ f.rank D

/-- The events that take codes carry their instants as `toISOString` writes them. -/
def Written (d : Digests) (task : Task) (D : Uuid) (b : EventBatch) (t : Tables) : Prop :=
  ∀ e ∈ b.events, ∀ h, Takes d task D b t.codeResults e h → e.scannedAt.Canonical

theorem Expanded.Sound.codes {x : Expanded} (h : x.Sound d task) :
    x.event.codes d task = x.claims.map (·.codeHash) := by
  unfold Event.codes Expanded.claims
  rw [← h.targets]
  cases x.targets <;> rfl

/-- An event that is new to the ledger holds a code after the claims only if it has taken it. -/
theorem Led.held {after : List CodeResult} (hled : Led D t.codeResults (claimsOf xs) after)
    (hknown : t.toRows.Known) (hevents : xs.map (·.event) = b.events)
    (hsound : ∀ x ∈ xs, x.Sound d task) (hids : (b.events.map (·.eventId)).Nodup)
    (hnew : ∀ e ∈ b.events, e.eventId ∉ t.scanEvents.map (·.eventId))
    (hwritten : Written d task D b t) {e : Event} (he : e ∈ b.events) : Held D e after := by
  intro y hy hfirst
  have hmem : ∀ x ∈ xs, x.event ∈ b.events := fun x hx =>
    hevents ▸ List.mem_map_of_mem (f := fun x : Expanded => x.event) hx
  rcases hled.source y hy with hold | ⟨c, hc, hshown⟩
  · exact (hknown.fresh hold (hfirst ▸ hnew e he)).elim
  · obtain ⟨x, hx, hwinner, htarget⟩ := mem_claimsOf.1 hc
    have hsame : x.event = e := List.inj_on_of_nodup_map hids (hmem x hx) he
      (by rw [← hwinner, ← hshown.event, hfirst])
    have hrank : y.rank = e.rank D := by rw [hshown.rank, hwinner, hsame]
    have htakes : Takes d task D b t.codeResults e y.codeHash := by
      refine ⟨?_, fun z hz hh => ?_, fun f hf hclaims => ?_⟩
      · rw [← hsame, (hsound x hx).codes]
        exact List.mem_map.2 ⟨c.target, htarget, hshown.codeHash.symm⟩
      · refine lt_of_le_of_ne (hrank ▸ hled.earlier y hy z hz hh) fun heq => ?_
        have hz' : z.firstAcceptedEventId = e.eventId :=
          (congrArg (fun r : Rank => (ofLex (ofLex r).2).2) heq).symm
        exact hknown.fresh hz (hz' ▸ hnew e he)
      · rw [← hevents] at hf
        obtain ⟨x', hx', rfl⟩ := List.mem_map.1 hf
        rw [(hsound x' hx').codes] at hclaims
        obtain ⟨g, hg, hgh⟩ := List.mem_map.1 hclaims
        rw [← hrank]
        exact hled.least y hy ⟨g, x'.event⟩ (mem_claimsOf.2 ⟨x', hx', rfl, hg⟩) hgh
    refine ⟨hshown.device, (Stamp.toISOString_eq_iff ?_).2 (hwritten e he _ htakes)⟩
    rw [hshown.instant, hwinner, hsame]

/-- **The answer to a batch that is applied is readable.** -/
theorem applyBatch_readable (hb : b.Accepted d.payload) (hknown : t.toRows.Known)
    (hxs : expandAll d task 0 b.events = .ok xs)
    (hnew : ∀ e ∈ b.events, e.eventId ∉ t.scanEvents.map (·.eventId))
    (hwritten : Written d task D b t) (h : applyBatch task env D b xs t = .ok (a, t')) :
    a.Answers task.inventoryId (some D) b := by
  unfold applyBatch at h
  obtain ⟨t1, h1, h⟩ := bind_eq_ok.1 h
  obtain ⟨s, hs, h⟩ := bind_eq_ok.1 h
  obtain ⟨⟨os, t2⟩, h2, h⟩ := bind_eq_ok.1 h
  obtain ⟨t3, h3, h⟩ := bind_eq_ok.1 h
  obtain ⟨t4, h4, h⟩ := bind_eq_ok.1 h
  obtain ⟨t5, h5, h⟩ := bind_eq_ok.1 h
  obtain ⟨t6, h6, h⟩ := bind_eq_ok.1 h
  obtain ⟨rfl, -⟩ := pair_eq_ok.1 h
  obtain ⟨rows, hrows, -⟩ := recordBatch_ok h1
  obtain ⟨hevents, htargets⟩ := expandAll_ok hxs
  obtain ⟨hsum, hlen⟩ := expandAll_size hxs (Nat.zero_le _)
  have hmem : ∀ x ∈ xs, x.event ∈ b.events := fun x hx =>
    hevents ▸ List.mem_map_of_mem (f := fun x : Expanded => x.event) hx
  have hsound : ∀ x ∈ xs, x.Sound d task := fun x hx =>
    ⟨hb.events _ (hmem x hx), htargets x hx⟩
  have hled := claimAll_led hs
  rw [show t1.codeResults = t.codeResults by rw [hrows]] at hled
  have hdecided := (outcomesOf_ok h2).1
  have hos : List.Forall₂ (fun (x : Expanded) (o : EventOutcome) => o.eventId = x.event.eventId ∧
      o.claims.length ≤ x.claims.length ∧ o.Accepted ∧ o.Answers (some D) x.event) xs os := by
    refine List.forall₂_iff_zip.2 ⟨hdecided.length_eq, fun {x o} hxo => ?_⟩
    have hx : x ∈ xs := (List.of_mem_zip hxo).1
    have hd := (List.forall₂_iff_zip.1 hdecided).2 hxo
    have hread := hd.readable (hsound x hx) (hlen x hx)
      (hled.held hknown hevents hsound hb.ids hnew hwritten (hmem x hx))
    refine ⟨?_, ?_, hread⟩
    · cases hd <;> rfl
    · cases hd with
      | rejected => exact Nat.zero_le _
      | decided _ winners hwinners =>
        show (winners.map (claimAgainst x.event.eventId)).length ≤ x.claims.length
        rw [List.length_map, hwinners.length_eq]
  refine respond_readable hb ?_ ?_ ?_
  · exact t5.kept.feed.revision.trans (by decide)
  · rw [← hevents, List.forall₂_map_left_iff]
    exact hos.imp fun _ _ h => ⟨h.1, h.2.2⟩
  · rw [zero_add] at hsum
    refine le_trans (List.Forall₂.sum_le_sum ?_) hsum
    rw [List.forall₂_map_left_iff, List.forall₂_map_right_iff]
    exact (hos.imp fun _ _ h => h.2.1).flip

end

end Markiro.InventorySync
