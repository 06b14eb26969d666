import Markiro.Host.License
import Markiro.Lib.Table

/-!
# One emergency extension to a file

Only the last use of the emergency extension is stored. That is enough: while the time the host
trusts does not go back and files come in the order of their numbers, the number of the file in force
never falls (`Step.rank_le`), so a key that was left is not met again.
-/

namespace Markiro.License

/-! ## The file in force -/

section MaxByKey

variable {α : Type} {key : α → ℤ} {l : List α} {m : α}

theorem maxByKey_append (x : α) : maxByKey key (l ++ [x]) =
    match maxByKey key l with
    | none => some x
    | some b => if key b ≤ key x then some x else some b := by
  rw [maxByKey, List.foldl_append]
  rfl

theorem maxByKey_eq_none : maxByKey key l = none ↔ l = [] := by
  induction l using List.reverseRecOn with
  | nil => simp [maxByKey]
  | append_singleton l x ih =>
    rw [maxByKey_append]
    cases maxByKey key l with
    | none => simp
    | some b =>
      simp only [List.append_eq_nil_iff, List.cons_ne_nil, and_false, iff_false]
      split <;> simp

theorem maxByKey_spec (h : maxByKey key l = some m) : m ∈ l ∧ ∀ x ∈ l, key x ≤ key m := by
  induction l using List.reverseRecOn generalizing m with
  | nil => cases h
  | append_singleton l x ih =>
    rw [maxByKey_append] at h
    cases hb : maxByKey key l with
    | none =>
      rw [hb] at h
      obtain rfl := Option.some.inj h
      rw [maxByKey_eq_none.1 hb]
      simp
    | some b =>
      rw [hb] at h
      obtain ⟨hmem, hmax⟩ := ih hb
      by_cases hle : key b ≤ key x
      · simp only [hle, if_true, Option.some.injEq] at h
        subst h
        refine ⟨by simp, fun y hy => ?_⟩
        rcases List.mem_append.1 hy with hy | hy
        · exact le_trans (hmax y hy) hle
        · rw [List.mem_singleton.1 hy]
      · simp only [hle, if_false, Option.some.injEq] at h
        subst h
        refine ⟨List.mem_append_left _ hmem, fun y hy => ?_⟩
        rcases List.mem_append.1 hy with hy | hy
        · exact hmax y hy
        · rw [List.mem_singleton.1 hy]
          exact le_of_lt (not_le.1 hle)

end MaxByKey

/-! ## Runs -/

/-- What is stored, and the time the host trusts. -/
structure Site where
  licenses : List StoredLicense
  emergency : Option (String × ℤ)
  now : ℤ

/-- The inputs of an evaluation; what the license does not store is anything. -/
def Site.inputs (s : Site) (hostId : String) (orgInn : Option String)
    (trialStartedAt wrongHostSince innMismatchSince : Option ℤ) : Inputs :=
  ⟨s.now, hostId, orgInn, s.licenses, trialStartedAt, wrongHostSince, innMismatchSince, s.emergency⟩

/-- The key of the file in force. -/
def Site.key (s : Site) : String := emergencyKey s.licenses s.now

/-- One step: time passes, a new file is stored, or the extension of a key is used. `newest` is the
highest number of any stored row, of one the host cannot read included. -/
inductive Step (hostId : String) : Site → Option String → Site → Prop
  | tick {s : Site} {now : ℤ} : s.now ≤ now → Step hostId s none { s with now }
  | load {s : Site} {verified : Verified} {orgInn : Option String} {newest : Option ℤ} :
      (∀ x ∈ s.licenses, ∃ n, newest = some n ∧ x.sequence ≤ n) →
      admitFile verified hostId orgInn s.licenses newest = .ok .new →
      Step hostId s none { s with licenses := s.licenses ++ [verified.license] }
  | emergency {s : Site} {key : String} {«until» : ℤ} {orgInn : Option String}
      {trialStartedAt wrongHostSince innMismatchSince : Option ℤ} :
      enableEmergency (s.inputs hostId orgInn trialStartedAt wrongHostSince innMismatchSince) =
        .ok (key, «until») →
      Step hostId s (some key) { s with emergency := some (key, «until») }

/-- The sites reached from a new host, with the keys whose extension was used, in order. -/
inductive Reached (hostId : String) : Site → List String → Prop
  | start (now : ℤ) : Reached hostId ⟨[], none, now⟩ []
  | step {s t : Site} {used : List String} {key : Option String} :
      Reached hostId s used → Step hostId s key t → Reached hostId t (used ++ key.toList)

def Later (hostId : String) : Site → Site → Prop :=
  Relation.ReflTransGen fun s t => ∃ key, Step hostId s key t

/-! ## The file in force only moves forward -/

/-- The files are told apart by their numbers and by their ids, and no id is the trial's key. -/
structure Distinct (licenses : List StoredLicense) : Prop where
  sequences : Table.Unique (·.sequence) licenses
  ids : Table.Unique (·.licenseId) licenses
  valid : ∀ x ∈ licenses, isUuid x.licenseId = true

/-- The number of the file in force; the trial comes before every file. -/
def Site.rank (s : Site) : WithBot ℤ :=
  match effective s.licenses s.now with
  | none => ⊥
  | some file => file.sequence

/-- The number of a key's file. -/
def Ranked (licenses : List StoredLicense) (key : String) (r : WithBot ℤ) : Prop :=
  key = trialKey ∧ r = ⊥ ∨ ∃ x ∈ licenses, x.licenseId = key ∧ r = x.sequence

theorem isUuid_ne_trial {id : String} (h : isUuid id = true) : id ≠ trialKey := by
  rintro rfl
  exact absurd h (by decide)

section Ranks

variable {licenses licenses' : List StoredLicense} {key key' : String} {r r' : WithBot ℤ}

theorem Ranked.mono (h : Ranked licenses key r) (hsub : licenses ⊆ licenses') :
    Ranked licenses' key r := by
  rcases h with h | ⟨x, hx, hrest⟩
  · exact .inl h
  · exact .inr ⟨x, hsub hx, hrest⟩

theorem Ranked.rank_eq (hd : Distinct licenses) (h : Ranked licenses key r)
    (h' : Ranked licenses key r') : r = r' := by
  rcases h with ⟨rfl, rfl⟩ | ⟨x, hx, rfl, rfl⟩
  · rcases h' with ⟨-, rfl⟩ | ⟨y, hy, hkey, -⟩
    · rfl
    · exact absurd hkey (isUuid_ne_trial (hd.valid y hy))
  · rcases h' with ⟨hkey, -⟩ | ⟨y, hy, hkey, rfl⟩
    · exact absurd hkey (isUuid_ne_trial (hd.valid x hx))
    · rw [hd.ids.eq hx hy hkey.symm]

theorem Ranked.key_eq (hd : Distinct licenses) (h : Ranked licenses key r)
    (h' : Ranked licenses key' r) : key = key' := by
  rcases h with ⟨rfl, rfl⟩ | ⟨x, hx, rfl, rfl⟩
  · rcases h' with ⟨rfl, -⟩ | ⟨y, hy, -, hr⟩
    · rfl
    · cases hr
  · rcases h' with ⟨-, hr⟩ | ⟨y, hy, rfl, hr⟩
    · cases hr
    · rw [hd.sequences.eq hx hy (WithBot.coe_injective hr)]

end Ranks

variable {hostId : String} {s t u : Site}

theorem Site.key_ranked (s : Site) : Ranked s.licenses s.key s.rank := by
  unfold Site.key Site.rank emergencyKey
  cases h : effective s.licenses s.now with
  | none => exact .inl ⟨rfl, rfl⟩
  | some file =>
    obtain ⟨hmem, -⟩ := maxByKey_spec h
    exact .inr ⟨file, (List.mem_filter.1 hmem).1, rfl, rfl⟩

/-- With more files and at a later time the number does not fall. -/
theorem Site.rank_mono (hsub : s.licenses ⊆ t.licenses) (hnow : s.now ≤ t.now) :
    s.rank ≤ t.rank := by
  unfold Site.rank
  cases h : effective s.licenses s.now with
  | none => exact bot_le
  | some file =>
    obtain ⟨hmem, -⟩ := maxByKey_spec h
    obtain ⟨hfile, hfrom⟩ := List.mem_filter.1 hmem
    have hin : file ∈ t.licenses.filter fun license => decide (license.validFrom ≤ t.now) := by
      refine List.mem_filter.2 ⟨hsub hfile, decide_eq_true ?_⟩
      exact le_trans (of_decide_eq_true hfrom) hnow
    cases h' : effective t.licenses t.now with
    | none =>
      rw [effective, maxByKey_eq_none] at h'
      rw [h'] at hin
      cases hin
    | some file' => exact WithBot.coe_le_coe.2 ((maxByKey_spec h').2 file hin)

theorem admitFile_new {verified : Verified} {orgInn : Option String} {stored : List StoredLicense}
    {newest : Option ℤ} (h : admitFile verified hostId orgInn stored newest = .ok .new) :
    (∀ known ∈ stored, known.licenseId ≠ verified.license.licenseId) ∧
      ∀ n, newest = some n → n < verified.license.sequence := by
  unfold admitFile at h
  simp only at h
  split at h
  · cases h
  split at h
  · cases h
  split at h
  · cases h
  split at h
  · cases h
  next hnew =>
    refine ⟨by simpa using hnew, ?_⟩
    rintro n rfl
    by_contra hle
    simp only [not_lt.1 hle, if_true] at h
    cases h

/-- **A step forgets no file, keeps the files apart and does not lower the number.** -/
theorem Step.forward {key : Option String} (h : Step hostId s key t) (hd : Distinct s.licenses) :
    Distinct t.licenses ∧ s.licenses ⊆ t.licenses ∧ s.rank ≤ t.rank := by
  cases h with
  | tick hle => exact ⟨hd, fun _ hx => hx, Site.rank_mono (fun _ hx => hx) hle⟩
  | emergency => exact ⟨hd, fun _ hx => hx, Site.rank_mono (fun _ hx => hx) le_rfl⟩
  | @load verified orgInn newest hnewest hadmit =>
    obtain ⟨hids, hsequence⟩ := admitFile_new hadmit
    refine ⟨⟨hd.sequences.append ?_, hd.ids.append hids, ?_⟩, List.subset_append_left _ _,
      Site.rank_mono (List.subset_append_left _ _) le_rfl⟩
    · intro x hx
      obtain ⟨n, hn, hle⟩ := hnewest x hx
      exact ne_of_lt (lt_of_le_of_lt hle (hsequence n hn))
    · intro x hx
      rcases List.mem_append.1 hx with hx | hx
      · exact hd.valid x hx
      · rw [List.mem_singleton.1 hx]
        exact verified.validId

theorem Later.forward (h : Later hostId s t) (hd : Distinct s.licenses) :
    Distinct t.licenses ∧ s.licenses ⊆ t.licenses ∧ s.rank ≤ t.rank := by
  induction h with
  | refl => exact ⟨hd, fun _ hx => hx, le_rfl⟩
  | tail _ hstep ih =>
    obtain ⟨key, hstep⟩ := hstep
    obtain ⟨hd', hsub, hle⟩ := ih
    obtain ⟨hd'', hsub', hle'⟩ := hstep.forward hd'
    exact ⟨hd'', fun _ hx => hsub' (hsub hx), le_trans hle hle'⟩

/-- **A key that was left is not met again.** -/
theorem Later.key_ne (hd : Distinct s.licenses) (hst : Later hostId s t) (htu : Later hostId t u)
    (hne : s.key ≠ t.key) : u.key ≠ s.key := by
  intro hback
  obtain ⟨hdt, hsubt, hlet⟩ := hst.forward hd
  obtain ⟨hdu, hsubu, hleu⟩ := htu.forward hdt
  have hs := s.key_ranked.mono fun _ hx => hsubu (hsubt hx)
  have hsame : s.rank = u.rank := hs.rank_eq hdu (hback ▸ u.key_ranked)
  have hrank : t.rank = s.rank := le_antisymm (hsame ▸ hleu) hlet
  exact hne (hs.key_eq hdu (hrank ▸ t.key_ranked.mono hsubu))

/-! ## The stored use is the last -/

/-- The keys whose extension was used: each once, none newer than the file in force, and the stored
one is the newest of them. -/
structure Spent (s : Site) (used : List String) : Prop where
  distinct : Distinct s.licenses
  once : used.Nodup
  past : ∀ k ∈ used, ∃ r, Ranked s.licenses k r ∧ r ≤ s.rank
  stored : ∀ k ∈ used, ∃ key «until» r r', s.emergency = some (key, «until») ∧ key ∈ used ∧
    Ranked s.licenses key r ∧ Ranked s.licenses k r' ∧ r' ≤ r

theorem enableEmergency_ok {i : Inputs} {key : String} {«until» : ℤ}
    (h : enableEmergency i = .ok (key, «until»)) :
    key = emergencyKey i.licenses i.now ∧ ∀ k u, i.emergency = some (k, u) → k ≠ key := by
  unfold enableEmergency at h
  simp only at h
  split at h
  · cases h
  next hused =>
    split at h
    · cases h
    · obtain ⟨rfl, -⟩ := Prod.mk.inj (Except.ok.inj h)
      refine ⟨rfl, fun k u hk heq => hused ?_⟩
      have hkey : k = emergencyKey i.licenses i.now := heq
      show (emergencyUse i.emergency (emergencyKey i.licenses i.now) i.now).1 = true
      rw [hk, hkey]
      simp [emergencyUse]

theorem Step.spent {key : Option String} {used : List String} (h : Step hostId s key t)
    (hi : Spent s used) : Spent t (used ++ key.toList) := by
  have hforward := h.forward hi.distinct
  obtain ⟨hd, hsub, hle⟩ := hforward
  have hkeeps : t.emergency = s.emergency → Spent t used := by
    intro hsame
    refine ⟨hd, hi.once, ?_, ?_⟩
    · intro k hk
      obtain ⟨r, hr, hrle⟩ := hi.past k hk
      exact ⟨r, hr.mono hsub, le_trans hrle hle⟩
    · intro k hk
      obtain ⟨key, «until», r, r', hslot, hmem, hr, hr', hrr⟩ := hi.stored k hk
      exact ⟨key, «until», r, r', hsame.trans hslot, hmem, hr.mono hsub, hr'.mono hsub, hrr⟩
  cases h with
  | tick => simpa using hkeeps rfl
  | load => simpa using hkeeps rfl
  | @emergency key «until» orgInn a b c hok =>
    obtain ⟨hkey, hslot⟩ := enableEmergency_ok hok
    have hkey : key = s.key := hkey
    subst hkey
    have hnew : s.key ∉ used := by
      intro hused
      obtain ⟨k, u, r, r', hk, hmem, hr, hr', hrr⟩ := hi.stored s.key hused
      obtain ⟨r'', hr'', hle''⟩ := hi.past k hmem
      have h1 : r' = s.rank := hr'.rank_eq hi.distinct s.key_ranked
      have h2 : r = r'' := hr.rank_eq hi.distinct hr''
      have h3 : r = s.rank := le_antisymm (h2 ▸ hle'') (h1 ▸ hrr)
      exact hslot k u hk (hr.key_eq hi.distinct (h3 ▸ s.key_ranked))
    have hpast : ∀ k ∈ used ++ [s.key], ∃ r, Ranked s.licenses k r ∧ r ≤ s.rank := by
      intro k hk
      rcases List.mem_append.1 hk with hk | hk
      · exact hi.past k hk
      · rw [List.mem_singleton.1 hk]
        exact ⟨s.rank, s.key_ranked, le_rfl⟩
    refine ⟨hd, ?_, hpast, ?_⟩
    · show (used ++ [s.key]).Nodup
      rw [List.nodup_append]
      refine ⟨hi.once, List.nodup_singleton _, ?_⟩
      rintro a ha b hb rfl
      exact hnew (List.mem_singleton.1 hb ▸ ha)
    · -- The new use is of the file in force, and no key used before is newer.
      intro k hk
      obtain ⟨r, hr, hrle⟩ := hpast k hk
      exact ⟨s.key, «until», s.rank, r, rfl, List.mem_append_right _ (List.mem_singleton.2 rfl),
        s.key_ranked, hr, hrle⟩

theorem Reached.spent {used : List String} (h : Reached hostId s used) : Spent s used := by
  induction h with
  | start now =>
    refine ⟨⟨?_, ?_, ?_⟩, List.nodup_nil, ?_, ?_⟩
    · exact List.Pairwise.nil
    · exact List.Pairwise.nil
    all_goals exact fun _ hx => absurd hx List.not_mem_nil
  | step _ hstep ih => exact hstep.spent ih

theorem evaluate_opensNewShifts {i : Inputs} (h : (evaluate i).opensNewShifts = true)
    (hphase : (evaluate i).phase.opensNewShifts = false) :
    ∃ «until», i.emergency = some (emergencyKey i.licenses i.now, «until») ∧ i.now < «until» := by
  have huse : (emergencyUse i.emergency (emergencyKey i.licenses i.now) i.now).2.isSome = true := by
    have hor : (i.phased.1.phase.opensNewShifts ||
        (emergencyUse i.emergency (emergencyKey i.licenses i.now) i.now).2.isSome) = true := h
    have hoff : i.phased.1.phase.opensNewShifts = false := hphase
    simpa [hoff] using hor
  unfold emergencyUse at huse
  split at huse
  next usedFor ends hslot =>
    split at huse
    next heq =>
      dsimp only at huse
      split at huse
      next hlt => exact ⟨ends, by rw [hslot, heq], hlt⟩
      · cases huse
    · cases huse
  · cases huse

/-- **One extension for each file and one for the trial.** The key of the file in force does not come
back, every key's extension is used at most once, and where the phase opens no shifts they open only
before the end stored for the key in force. -/
theorem one_extension_per_file {used : List String} (h : Reached hostId s used) :
    used.Nodup ∧
    (∀ t u, Later hostId s t → Later hostId t u → s.key ≠ t.key → u.key ≠ s.key) ∧
    ∀ orgInn trialStartedAt wrongHostSince innMismatchSince,
      let evaluation :=
        evaluate (s.inputs hostId orgInn trialStartedAt wrongHostSince innMismatchSince)
      evaluation.opensNewShifts = true → evaluation.phase.opensNewShifts = false →
      ∃ «until», s.emergency = some (evaluation.emergencyKey, «until») ∧ s.now < «until» := by
  refine ⟨h.spent.once, ?_, ?_⟩
  · intro t u hst htu hne
    exact Later.key_ne h.spent.distinct hst htu hne
  · intro _ _ _ _ _ hopen hphase
    exact evaluate_opensNewShifts hopen hphase

/-! ## A sample run -/

/-- A file of a host that began on the day the trial was extended. -/
def Sample.file : StoredLicense where
  licenseId := "0197f0a2-5b7c-7d1e-8a3b-2f4c6d8e0a1b"
  sequence := 1
  kid := "k1"
  hostId := "host"
  issuedAt := 15 * dayMs
  validFrom := 15 * dayMs
  validUntil := 380 * dayMs
  graceDays := 14
  plan := "factory"
  planVersionId := "1"
  customerName := "Sample"
  customerInn := "7707083893"
  quotas := Quotas.unlimited
  features := Features.all

def Sample.verified : Verified := ⟨Sample.file, "", by decide⟩

/-- The trial ended, its extension runs, and a file came. -/
def Sample.site : Site :=
  ⟨[Sample.file], some (trialKey, 15 * dayMs + emergencyMs), 15 * dayMs⟩

theorem Sample.reached : Reached "host" Sample.site [trialKey] := by
  have hend : Step "host" ⟨[], none, 0⟩ none ⟨[], none, 15 * dayMs⟩ := .tick (by decide)
  have huse : Step "host" ⟨[], none, 15 * dayMs⟩ (some trialKey)
      ⟨[], some (trialKey, 15 * dayMs + emergencyMs), 15 * dayMs⟩ :=
    @Step.emergency _ ⟨[], none, 15 * dayMs⟩ _ _ none (some 0) none none (by decide)
  have hload : Step "host" ⟨[], some (trialKey, 15 * dayMs + emergencyMs), 15 * dayMs⟩ none
      Sample.site :=
    @Step.load _ ⟨[], some (trialKey, 15 * dayMs + emergencyMs), 15 * dayMs⟩ Sample.verified
      (some "7707083893") none (by simp) (by decide)
  exact (((Reached.start 0).step hend).step huse).step hload

theorem one_extension_per_file_sample :
    (evaluate (Sample.site.inputs "host" (some "7707083893") (some 0) none none)).phase = .active ∧
      Sample.site.key = Sample.file.licenseId ∧ [trialKey].Nodup :=
  ⟨by decide, by decide, (one_extension_per_file Sample.reached).1⟩

end Markiro.License
