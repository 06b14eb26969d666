import Markiro.Host.License

/-!
# Phases and their ends

The phases of one file, of the trial and of another host's file follow each other in time: each
lasts up to the end it announces (`Lasts`). The state of a host at a later time, while no further
file begins, is that of the same file or trial (`phase_lasts`).
-/

namespace Markiro.License

/-! ## Phases over time -/

def Phased.Same (p q : Phased) : Prop := p.phase = q.phase ∧ p.since = q.since ∧ p.ends = q.ends

/-- The state `f` has at `now` lasts up to its announced end, and for ever without one. -/
structure Lasts (f : ℤ → Phased) (now : ℤ) : Prop where
  lt : ∀ {e}, (f now).ends = some e → now < e
  same : ∀ {e}, (f now).ends = some e → ∀ t, now ≤ t → t < e → (f t).Same (f now)
  changes : ∀ {e}, (f now).ends = some e → (f e).phase ≠ (f now).phase
  stays : (f now).ends = none → ∀ t, now ≤ t → (f t).phase = (f now).phase

section Phases

variable {f : ℤ → Phased} {now e t : ℤ}

theorem Lasts.upTo (hend : (f now).ends = some e) (hlt : now < e)
    (hsame : ∀ t, now ≤ t → t < e → (f t).Same (f now)) (hne : (f e).phase ≠ (f now).phase) :
    Lasts f now := by
  refine ⟨fun {e'} he => ?_, fun {e'} he => ?_, fun {e'} he => ?_, fun he => ?_⟩
  · rw [← Option.some.inj (hend.symm.trans he)]
    exact hlt
  · rw [← Option.some.inj (hend.symm.trans he)]
    exact hsame
  · rw [← Option.some.inj (hend.symm.trans he)]
    exact hne
  · exact absurd (hend.symm.trans he) (Option.some_ne_none e)

theorem Lasts.always (hend : (f now).ends = none)
    (hsame : ∀ t, now ≤ t → (f t).phase = (f now).phase) : Lasts f now :=
  ⟨fun he => absurd (hend.symm.trans he) nofun, fun he => absurd (hend.symm.trans he) nofun,
    fun he => absurd (hend.symm.trans he) nofun, fun _ => hsame⟩

/-! ## The trial -/

variable {trial : Trial} {file : StoredLicense} {warn seen : ℤ}

theorem ofTrial_of_lt (h : t < trial.endsAt) : ofTrial trial t =
    ⟨.trial, trial.startedAt, some trial.endsAt, some (daysUntil trial.endsAt t)⟩ := if_pos h

theorem ofTrial_of_le (h : trial.endsAt ≤ t) :
    ofTrial trial t = ⟨.trialExpired, trial.endsAt, none, none⟩ := if_neg (not_lt.2 h)

theorem lasts_ofTrial (trial : Trial) (now : ℤ) : Lasts (ofTrial trial) now := by
  by_cases h : now < trial.endsAt
  · refine Lasts.upTo (congrArg Phased.ends (ofTrial_of_lt h)) h (fun t _ hlt => ?_) ?_
    · rw [ofTrial_of_lt h, ofTrial_of_lt hlt]
      exact ⟨rfl, rfl, rfl⟩
    · rw [ofTrial_of_lt h, ofTrial_of_le le_rfl]
      exact nofun
  · have hle := not_lt.1 h
    refine Lasts.always (congrArg Phased.ends (ofTrial_of_le hle)) fun t ht => ?_
    rw [ofTrial_of_le hle, ofTrial_of_le (hle.trans ht)]

/-! ## Another host's file -/

def wrongHostEnd (file : StoredLicense) (seen : ℤ) : ℤ :=
  min (saturate (seen + wrongHostDays * dayMs)) (graceEnd file)

theorem ofWrongHost_of_lt (h : t < wrongHostEnd file seen) : ofWrongHost file seen t =
    ⟨.wrongHost, seen, some (wrongHostEnd file seen), some (daysUntil (wrongHostEnd file seen) t)⟩ :=
  if_pos h

theorem ofWrongHost_of_le (h : wrongHostEnd file seen ≤ t) :
    ofWrongHost file seen t = ⟨.restricted, wrongHostEnd file seen, none, none⟩ :=
  if_neg (not_lt.2 h)

theorem lasts_ofWrongHost (file : StoredLicense) (seen now : ℤ) :
    Lasts (ofWrongHost file seen) now := by
  by_cases h : now < wrongHostEnd file seen
  · refine Lasts.upTo (congrArg Phased.ends (ofWrongHost_of_lt h)) h (fun t _ hlt => ?_) ?_
    · rw [ofWrongHost_of_lt h, ofWrongHost_of_lt hlt]
      exact ⟨rfl, rfl, rfl⟩
    · rw [ofWrongHost_of_lt h, ofWrongHost_of_le le_rfl]
      exact nofun
  · have hle := not_lt.1 h
    refine Lasts.always (congrArg Phased.ends (ofWrongHost_of_le hle)) fun t ht => ?_
    rw [ofWrongHost_of_le hle, ofWrongHost_of_le (hle.trans ht)]

/-! ## A file's term -/

/-- When the warning of a file's end starts. -/
def expiringFrom (file : StoredLicense) (warn : ℤ) : ℤ :=
  saturate (file.validUntil - saturate (warn * dayMs))

theorem ofTerm_active (h : t < expiringFrom file warn) : ofTerm file warn t =
    ⟨.active, file.validFrom, some (expiringFrom file warn), some (daysUntil file.validUntil t)⟩ :=
  if_pos h

theorem ofTerm_expiring (h1 : expiringFrom file warn ≤ t) (h2 : t < file.validUntil) :
    ofTerm file warn t = ⟨.expiring, max (expiringFrom file warn) file.validFrom,
      some file.validUntil, some (daysUntil file.validUntil t)⟩ :=
  (if_neg (not_lt.2 h1)).trans (if_pos h2)

theorem ofTerm_grace (h1 : expiringFrom file warn ≤ t) (h2 : file.validUntil ≤ t)
    (h3 : t < graceEnd file) : ofTerm file warn t =
      ⟨.grace, file.validUntil, some (graceEnd file), some (daysUntil (graceEnd file) t)⟩ :=
  (if_neg (not_lt.2 h1)).trans ((if_neg (not_lt.2 h2)).trans (if_pos h3))

theorem ofTerm_restricted (h1 : expiringFrom file warn ≤ t) (h2 : file.validUntil ≤ t)
    (h3 : graceEnd file ≤ t) :
    ofTerm file warn t = ⟨.restricted, graceEnd file, none, none⟩ :=
  (if_neg (not_lt.2 h1)).trans ((if_neg (not_lt.2 h2)).trans (if_neg (not_lt.2 h3)))

theorem ofTerm_phase_ne_active (h : expiringFrom file warn ≤ t) :
    (ofTerm file warn t).phase ≠ .active := by
  by_cases h2 : t < file.validUntil
  · rw [ofTerm_expiring h h2]
    exact nofun
  · by_cases h3 : t < graceEnd file
    · rw [ofTerm_grace h (not_lt.1 h2) h3]
      exact nofun
    · rw [ofTerm_restricted h (not_lt.1 h2) (not_lt.1 h3)]
      exact nofun

theorem ofTerm_phase_ne_expiring (h1 : expiringFrom file warn ≤ t) (h2 : file.validUntil ≤ t) :
    (ofTerm file warn t).phase ≠ .expiring := by
  by_cases h3 : t < graceEnd file
  · rw [ofTerm_grace h1 h2 h3]
    exact nofun
  · rw [ofTerm_restricted h1 h2 (not_lt.1 h3)]
    exact nofun

theorem lasts_ofTerm (file : StoredLicense) (warn now : ℤ) : Lasts (ofTerm file warn) now := by
  by_cases h1 : now < expiringFrom file warn
  · refine Lasts.upTo (congrArg Phased.ends (ofTerm_active h1)) h1 (fun t _ hlt => ?_) ?_
    · rw [ofTerm_active h1, ofTerm_active hlt]
      exact ⟨rfl, rfl, rfl⟩
    · rw [ofTerm_active h1]
      exact ofTerm_phase_ne_active le_rfl
  have h1' := not_lt.1 h1
  by_cases h2 : now < file.validUntil
  · refine Lasts.upTo (congrArg Phased.ends (ofTerm_expiring h1' h2)) h2 (fun t hle hlt => ?_) ?_
    · rw [ofTerm_expiring h1' h2, ofTerm_expiring (h1'.trans hle) hlt]
      exact ⟨rfl, rfl, rfl⟩
    · rw [ofTerm_expiring h1' h2]
      exact ofTerm_phase_ne_expiring (h1'.trans h2.le) le_rfl
  have h2' := not_lt.1 h2
  by_cases h3 : now < graceEnd file
  · refine Lasts.upTo (congrArg Phased.ends (ofTerm_grace h1' h2' h3)) h3 (fun t hle hlt => ?_) ?_
    · rw [ofTerm_grace h1' h2' h3, ofTerm_grace (h1'.trans hle) (h2'.trans hle) hlt]
      exact ⟨rfl, rfl, rfl⟩
    · rw [ofTerm_grace h1' h2' h3, ofTerm_restricted (h1'.trans h3.le) (h2'.trans h3.le) le_rfl]
      exact nofun
  · have h3' := not_lt.1 h3
    refine Lasts.always (congrArg Phased.ends (ofTerm_restricted h1' h2' h3')) fun t ht => ?_
    rw [ofTerm_restricted h1' h2' h3',
      ofTerm_restricted (h1'.trans ht) (h2'.trans ht) (h3'.trans ht)]

end Phases

/-! ## Days left -/

/-- `d` is the least number of whole days from `now` to `fin`, as 32 bits. -/
def Rounded (fin now : ℤ) (d : ℕ) : Prop :=
  (fin ≤ now + d * dayMs ∨ d = 2 ^ 32 - 1) ∧ ∀ d' < d, now + d' * dayMs < fin

theorem daysUntil_rounded (fin now : ℤ) : Rounded fin now (daysUntil fin now) := by
  unfold Rounded daysUntil
  by_cases h : fin ≤ now
  · rw [if_pos h]
    exact ⟨.inl (by unfold dayMs; omega), fun d' hd' => absurd hd' (Nat.not_lt_zero d')⟩
  · rw [if_neg h]
    unfold saturate dayMs
    refine ⟨?_, fun d' hd' => ?_⟩
    · omega
    · omega

/-! ## The state at a later time -/

/-- The inputs at a later time, another host's file seen since the evaluation's own answer. -/
def Inputs.later (i : Inputs) (t : ℤ) : Inputs :=
  { i with now := t, wrongHostSince := (evaluate i).wrongHostSince }

def Inputs.NoneBegins (i : Inputs) (t : ℤ) : Prop :=
  ∀ file ∈ i.licenses, ¬(i.now < file.validFrom ∧ file.validFrom ≤ t)

/-- A file is in force, or the trial's start is stored. -/
def Inputs.Anchored (i : Inputs) : Prop :=
  (evaluate i).license ≠ none ∨ i.trialStartedAt ≠ none

/-- The end the days left count to. -/
def Evaluation.countedTo (e : Evaluation) : Option ℤ :=
  match e.phase with
  | .active => e.license.map (·.validUntil)
  | _ => e.phaseEndsAt

def Inputs.fileCourse (i : Inputs) (file : StoredLicense) (t : ℤ) : Phased :=
  if file.hostId ≠ i.hostId then ofWrongHost file (i.wrongHostSince.getD i.now) t
  else if License.innMatches i.orgInn file.customerInn = false then
    ⟨.innMismatch, i.innMismatchSince.getD t, none, none⟩
  else ofTerm file (License.warnDays (saturate (file.validUntil - file.validFrom))) t

section Later

variable {i : Inputs} {t : ℤ} {file : StoredLicense} {startedAt : ℤ}

theorem effective_later (hle : i.now ≤ t) (h : i.NoneBegins t) :
    effective i.licenses t = effective i.licenses i.now := by
  unfold effective
  refine congrArg (maxByKey StoredLicense.sequence) (List.filter_congr fun file hfile => ?_)
  refine decide_eq_decide.2 ⟨fun ht => ?_, fun hnow => hnow.trans hle⟩
  by_contra hnow
  exact h file hfile ⟨not_le.1 hnow, ht⟩

theorem lasts_fileCourse (i : Inputs) (file : StoredLicense) : Lasts (i.fileCourse file) i.now := by
  by_cases hhost : file.hostId ≠ i.hostId
  · have hcourse : i.fileCourse file = ofWrongHost file (i.wrongHostSince.getD i.now) :=
      funext fun _ => if_pos hhost
    rw [hcourse]
    exact lasts_ofWrongHost file _ i.now
  by_cases hinn : License.innMatches i.orgInn file.customerInn = false
  · have hcourse : i.fileCourse file =
        fun t => ⟨.innMismatch, i.innMismatchSince.getD t, none, none⟩ :=
      funext fun _ => (if_neg hhost).trans (if_pos hinn)
    rw [hcourse]
    exact Lasts.always rfl fun _ _ => rfl
  · have hcourse : i.fileCourse file =
        ofTerm file (License.warnDays (saturate (file.validUntil - file.validFrom))) :=
      funext fun _ => (if_neg hhost).trans (if_neg hinn)
    rw [hcourse]
    exact lasts_ofTerm file _ i.now

theorem phased_of_file (h : effective i.licenses i.now = some file) :
    i.phased.1 = i.fileCourse file i.now := by
  unfold Inputs.phased Inputs.fileCourse
  rw [h]
  dsimp only
  split_ifs <;> rfl

theorem phased_of_none (h : effective i.licenses i.now = none) :
    i.phased.1 = ofTrial (Trial.from (i.trialStartedAt.getD i.now)) i.now := by
  unfold Inputs.phased
  rw [h]
  cases i.trialStartedAt <;> rfl

theorem seen_later (h : effective i.licenses i.now = some file) (hhost : file.hostId ≠ i.hostId) :
    (evaluate i).wrongHostSince = some (i.wrongHostSince.getD i.now) := by
  show i.phased.2.2.2 = _
  unfold Inputs.phased
  rw [h]
  dsimp only
  rw [if_pos hhost]

theorem phased_later_of_file (h : effective i.licenses i.now = some file) (hle : i.now ≤ t)
    (hnone : i.NoneBegins t) : (i.later t).phased.1 = i.fileCourse file t := by
  have hlater : effective (i.later t).licenses (i.later t).now = some file :=
    (effective_later hle hnone).trans h
  rw [phased_of_file hlater]
  unfold Inputs.fileCourse
  by_cases hhost : file.hostId ≠ i.hostId
  · have hseen : (i.later t).wrongHostSince.getD (i.later t).now = i.wrongHostSince.getD i.now :=
      congrArg (fun o : Option ℤ => o.getD t) (seen_later h hhost)
    rw [if_pos hhost, if_pos (show file.hostId ≠ (i.later t).hostId from hhost), hseen]
    rfl
  · rw [if_neg hhost, if_neg (show ¬file.hostId ≠ (i.later t).hostId from hhost)]
    rfl

theorem phased_later_of_none (h : effective i.licenses i.now = none) (hle : i.now ≤ t)
    (hnone : i.NoneBegins t) :
    (i.later t).phased.1 = ofTrial (Trial.from (i.trialStartedAt.getD t)) t :=
  phased_of_none ((effective_later hle hnone).trans h)

theorem Inputs.Anchored.course (h : i.Anchored) : ∃ f : ℤ → Phased, Lasts f i.now ∧
    i.phased.1 = f i.now ∧ ∀ t, i.now ≤ t → i.NoneBegins t → (i.later t).phased.1 = f t := by
  cases hfile : effective i.licenses i.now with
  | some file =>
    exact ⟨_, lasts_fileCourse i file, phased_of_file hfile,
      fun t hle hnone => phased_later_of_file hfile hle hnone⟩
  | none =>
    cases htrial : i.trialStartedAt with
    | some startedAt =>
      have hnow := phased_of_none hfile
      rw [htrial] at hnow
      refine ⟨_, lasts_ofTrial (Trial.from startedAt) i.now, hnow, fun t hle hnone => ?_⟩
      rw [phased_later_of_none hfile hle hnone, htrial]
      rfl
    | none => exact absurd h (not_or.2 ⟨not_not.2 hfile, not_not.2 htrial⟩)

theorem trial_of_not_anchored (h : ¬i.Anchored) :
    effective i.licenses i.now = none ∧ i.trialStartedAt = none :=
  ⟨not_not.1 (not_or.1 h).1, not_not.1 (not_or.1 h).2⟩

theorem trial_from_now (ht : t ≤ 2 ^ 53) : t < (Trial.from t).endsAt := by
  unfold Trial.from saturate trialDays dayMs
  dsimp only
  omega

theorem phased_later_unanchored (h : ¬i.Anchored) (hle : i.now ≤ t) (hnone : i.NoneBegins t)
    (ht : t ≤ 2 ^ 53) : (i.later t).phased.1 =
      ⟨.trial, t, some (Trial.from t).endsAt, some (daysUntil (Trial.from t).endsAt t)⟩ := by
  obtain ⟨hfile, htrial⟩ := trial_of_not_anchored h
  rw [phased_later_of_none hfile hle hnone, htrial]
  exact ofTrial_of_lt (trial_from_now ht)

/-! ## Days left of a state -/

/-- The days left of a phase count to its end, of an active file to the end of its term. -/
def Phased.CountsTo (p : Phased) (now fin : ℤ) (file : Option StoredLicense) : Prop :=
  (∀ d, p.daysLeft = some d → d = daysUntil fin now) ∧
    (p.daysLeft ≠ none → (match p.phase with
      | .active => file.map (·.validUntil)
      | _ => p.ends) = some fin)

theorem ofTrial_countsTo (trial : Trial) (now : ℤ) (file : Option StoredLicense) :
    (ofTrial trial now).CountsTo now trial.endsAt file := by
  by_cases h : now < trial.endsAt
  · rw [ofTrial_of_lt h]
    exact ⟨fun d hd => (Option.some.inj hd).symm, fun _ => rfl⟩
  · rw [ofTrial_of_le (not_lt.1 h)]
    exact ⟨fun d hd => absurd hd nofun, fun hd => absurd rfl hd⟩

theorem ofWrongHost_countsTo (seen now : ℤ) (found : Option StoredLicense) :
    (ofWrongHost file seen now).CountsTo now (wrongHostEnd file seen) found := by
  by_cases h : now < wrongHostEnd file seen
  · rw [ofWrongHost_of_lt h]
    exact ⟨fun d hd => (Option.some.inj hd).symm, fun _ => rfl⟩
  · rw [ofWrongHost_of_le (not_lt.1 h)]
    exact ⟨fun d hd => absurd hd nofun, fun hd => absurd rfl hd⟩

theorem ofTerm_countsTo (warn now : ℤ) :
    ∃ fin, (ofTerm file warn now).CountsTo now fin (some file) := by
  by_cases h1 : now < expiringFrom file warn
  · rw [ofTerm_active h1]
    exact ⟨file.validUntil, fun d hd => (Option.some.inj hd).symm, fun _ => rfl⟩
  by_cases h2 : now < file.validUntil
  · rw [ofTerm_expiring (not_lt.1 h1) h2]
    exact ⟨file.validUntil, fun d hd => (Option.some.inj hd).symm, fun _ => rfl⟩
  by_cases h3 : now < graceEnd file
  · rw [ofTerm_grace (not_lt.1 h1) (not_lt.1 h2) h3]
    exact ⟨graceEnd file, fun d hd => (Option.some.inj hd).symm, fun _ => rfl⟩
  · rw [ofTerm_restricted (not_lt.1 h1) (not_lt.1 h2) (not_lt.1 h3)]
    exact ⟨graceEnd file, fun d hd => absurd hd nofun, fun hd => absurd rfl hd⟩

theorem phased_countsTo (i : Inputs) :
    ∃ fin, i.phased.1.CountsTo i.now fin (effective i.licenses i.now) := by
  cases hfile : effective i.licenses i.now with
  | none =>
    rw [phased_of_none hfile]
    exact ⟨_, ofTrial_countsTo _ i.now none⟩
  | some file =>
    rw [phased_of_file hfile]
    unfold Inputs.fileCourse
    split_ifs with hhost hinn
    · exact ⟨_, ofWrongHost_countsTo _ i.now _⟩
    · exact ⟨0, fun d hd => absurd hd nofun, fun hd => absurd rfl hd⟩
    · exact ofTerm_countsTo _ i.now

theorem daysLeft_rounded {d : ℕ} (h : (evaluate i).daysLeft = some d) :
    ∃ fin, (evaluate i).countedTo = some fin ∧ Rounded fin i.now d := by
  obtain ⟨fin, hdays, hends⟩ := phased_countsTo i
  have hd : d = daysUntil fin i.now := hdays d h
  have hne : i.phased.1.daysLeft ≠ none := fun hnone => absurd (h.symm.trans hnone) nofun
  refine ⟨fin, hends hne, ?_⟩
  rw [hd]
  exact daysUntil_rounded fin i.now

end Later

/-- **A phase lasts exactly until its announced end.** Where a file is in force or the trial's start
is stored, every time before the end at which no further file began has the same phase, start and
end, and the end another phase; a state without an end keeps its phase; before the trial's start is
stored the state is the trial that counts from the moment it is asked at; and the days left are whole
days rounded up, as 32 bits. -/
theorem phase_lasts (i : Inputs) :
    (∀ e, (evaluate i).phaseEndsAt = some e → i.now < e ∧ (i.Anchored →
      (∀ t, i.now ≤ t → t < e → i.NoneBegins t →
        (evaluate (i.later t)).phase = (evaluate i).phase ∧
        (evaluate (i.later t)).since = (evaluate i).since ∧
        (evaluate (i.later t)).phaseEndsAt = (evaluate i).phaseEndsAt) ∧
      (i.NoneBegins e → (evaluate (i.later e)).phase ≠ (evaluate i).phase))) ∧
    (i.Anchored → (evaluate i).phaseEndsAt = none → ∀ t, i.now ≤ t → i.NoneBegins t →
      (evaluate (i.later t)).phase = (evaluate i).phase) ∧
    (¬i.Anchored → ∀ t, i.now ≤ t → i.NoneBegins t → t ≤ 2 ^ 53 →
      (evaluate (i.later t)).phase = .trial ∧ (evaluate (i.later t)).since = t) ∧
    ∀ d, (evaluate i).daysLeft = some d →
      ∃ fin, (evaluate i).countedTo = some fin ∧ Rounded fin i.now d := by
  refine ⟨fun e he => ?_, fun ha hend t hle hnone => ?_, fun hn t hle hnone ht => ?_,
    fun d hd => daysLeft_rounded hd⟩
  · by_cases ha : i.Anchored
    · obtain ⟨f, hlasts, hnow, hlater⟩ := ha.course
      have hend : (f i.now).ends = some e := (congrArg Phased.ends hnow).symm.trans he
      have hlt := hlasts.lt hend
      refine ⟨hlt, fun _ => ⟨fun t hle hlt hnone => ?_, fun hnone => ?_⟩⟩
      · show (i.later t).phased.1.Same i.phased.1
        rw [hlater t hle hnone, hnow]
        exact hlasts.same hend t hle hlt
      · show (i.later e).phased.1.phase ≠ i.phased.1.phase
        rw [hlater e hlt.le hnone, hnow]
        exact hlasts.changes hend
    · obtain ⟨hfile, -⟩ := trial_of_not_anchored ha
      have hphased := phased_of_none hfile
      have hend : (ofTrial (Trial.from (i.trialStartedAt.getD i.now)) i.now).ends = some e :=
        (congrArg Phased.ends hphased).symm.trans he
      exact ⟨(lasts_ofTrial _ i.now).lt hend, fun h => absurd h ha⟩
  · obtain ⟨f, hlasts, hnow, hlater⟩ := ha.course
    show (i.later t).phased.1.phase = i.phased.1.phase
    rw [hlater t hle hnone, hnow]
    exact hlasts.stays ((congrArg Phased.ends hnow).symm.trans hend) t hle
  · have hphased := phased_later_unanchored hn hle hnone ht
    exact ⟨congrArg Phased.phase hphased, congrArg Phased.since hphased⟩

namespace Sample

/-- A host before its first start, without files. -/
def blank : Inputs := ⟨0, "host", some "7707083893", [], none, none, none, none⟩

/-- A file with a grace of 2⁴⁰ days. -/
def patient : StoredLicense where
  licenseId := "license"
  sequence := 1
  kid := "key"
  hostId := "host"
  issuedAt := 0
  validFrom := 0
  validUntil := dayMs
  graceDays := 2 ^ 40
  plan := "plan"
  planVersionId := "version"
  customerName := "customer"
  customerInn := "7707083893"
  quotas := Quotas.unlimited
  features := Features.all

/-- The host in the grace of that file. -/
def graced : Inputs := { blank with now := dayMs, licenses := [patient] }

end Sample

/-- Before the first start a phase's start and end move with the time, and days left stop at
2³² − 1. -/
theorem phase_moves :
    ((evaluate Sample.blank).phaseEndsAt = some (14 * dayMs) ∧ Sample.blank.NoneBegins 1 ∧
      (evaluate (Sample.blank.later 1)).since ≠ (evaluate Sample.blank).since) ∧
    (evaluate Sample.graced).phaseEndsAt = some (graceEnd Sample.patient) ∧
      (evaluate Sample.graced).daysLeft = some (2 ^ 32 - 1) ∧
      Sample.graced.now + (2 ^ 32 - 1) * dayMs < graceEnd Sample.patient := by
  exact ⟨⟨by decide, fun _ h => absurd h List.not_mem_nil, by decide⟩, by decide +kernel,
    by decide +kernel, by decide⟩

end Markiro.License
