import AccessLedger.Proofs.Usage.Buckets
import AccessLedger.Proofs.Usage.Skips

/-!
Two passes that differ only in whether system apps are shown. Hiding them turns their listings into
skips and touches nothing else, so one pass can be read off the other, and a pass that hides them
knows whether showing them would reveal anything.
-/

namespace AccessLedger

/--
Whether the app that goes by a key is a system app; of several apps with the key the first counts.
-/
def Snapshot.isSystemKey (s : Snapshot) (appKey : String) : Bool :=
  (s.app? appKey).any s.isSystemApp

def Criteria.withSystem (c : Criteria) (shown : Bool) : Criteria :=
  { c with selection := { c.selection with showSystem := shown } }

/-- What becomes of a verdict when system apps are hidden. -/
def Verdict.hide : Verdict → Verdict
  | listed _ true => skipped .systemHidden
  | v => v

/-- What the pass that shows system apps adds to the one that hides them. -/
structure Reveals (s : Snapshot) (hidden shown : Usage) : Prop where
  buckets : hidden.buckets = shown.buckets.filter fun b => !s.isSystemKey b.appKey
  flag : hidden.hasSystemApps = shown.hasSystemApps
  /-- The other counters agree, and where system apps are shown none is hidden. -/
  skips : shown.skipped = { hidden.skipped with systemHidden := 0 }
  counted : hidden.skipped.systemHidden =
    ((shown.buckets.filter fun b => s.isSystemKey b.appKey).flatMap (·.accesses)).length
  hinted : hidden.hasSystemApps = true ↔ 0 < hidden.skipped.systemHidden
  revealing : hidden.hasSystemApps = true ↔
    ∃ b ∈ shown.buckets, b.appKey ∉ hidden.buckets.map (·.appKey)

section Verdicts

theorem involvesSystem_hide (v : Verdict) : v.hide.involvesSystem = v.involvesSystem := by
  cases v with
  | skipped _ => rfl
  | listed _ isSystem => cases isSystem <;> rfl

theorem isListed_hide (v : Verdict) : v.hide.isListed = (v.isListed && !v.involvesSystem) := by
  cases v with
  | skipped _ => rfl
  | listed _ isSystem => cases isSystem <;> rfl

theorem hide_eq_systemHidden_iff (v : Verdict) :
    v.hide = .skipped .systemHidden ↔ v.involvesSystem = true := by
  cases v with
  | skipped reason => simp [Verdict.hide, Verdict.involvesSystem]
  | listed _ isSystem => cases isSystem <;> simp [Verdict.hide, Verdict.involvesSystem]

/-- Hiding gives no other reason than its own. -/
theorem hide_eq_skipped_iff {reason : Skip} (h : reason ≠ .systemHidden) (v : Verdict) :
    v.hide = .skipped reason ↔ v = .skipped reason := by
  cases v with
  | skipped _ => rfl
  | listed _ isSystem => cases isSystem <;> simp [Verdict.hide, Ne.symm h]

variable (s : Snapshot) (c : Criteria) (o : Observation)

theorem verdict_withSystem_false :
    s.verdict (c.withSystem false) o = (s.verdict (c.withSystem true) o).hide := by
  have hobjection : ∀ shown, (c.withSystem shown).objection? o.group o.access =
      c.objection? o.group o.access := fun _ => rfl
  rw [Snapshot.verdict, Snapshot.verdict, hobjection, hobjection]
  cases o.app with
  | none => rfl
  | some app =>
      cases c.objection? o.group o.access with
      | some reason => rfl
      | none =>
          cases hsystem : s.isSystemApp app <;>
            simp [Criteria.withSystem, Verdict.hide, hsystem]

/-- Where system apps are shown, whatever involves one is listed. -/
theorem isListed_of_involvesSystem {s : Snapshot} {c : Criteria} {o : Observation}
    (h : (s.verdict (c.withSystem true) o).involvesSystem = true) :
    (s.verdict (c.withSystem true) o).isListed = true := by
  obtain ⟨app, happ, hobjection, _⟩ := (involvesSystem_verdict_iff s _ o).mp h
  exact (isListed_verdict_iff s _ o).mpr ⟨app, happ, hobjection, .inr rfl⟩

theorem verdict_withSystem_true_ne :
    s.verdict (c.withSystem true) o ≠ .skipped .systemHidden := by
  intro h
  have hlisted : (s.verdict (c.withSystem true) o).isListed = true :=
    isListed_of_involvesSystem (by rw [h]; rfl)
  rw [h] at hlisted
  cases hlisted

end Verdicts

section Keys

variable {s : Snapshot} {c : Criteria}

/-- An app is looked up by its own key. -/
theorem isSystemKey_appKey {r : Rules} {o : Observation} (ho : o ∈ s.observations r) {app : App}
    (happ : o.app = some app) : s.isSystemKey o.appKey = s.isSystemApp app := by
  obtain ⟨_, grant, _, _, hgrant, _⟩ := (mem_observations_iff s r o).mp ho
  rw [happ] at hgrant
  have hkey : app.key = grant.appKey := by
    have hfound := List.find?_some hgrant
    exact eq_of_beq hfound
  rw [Observation.appKey, happ, Option.map_some, Option.getD_some, Snapshot.isSystemKey, hkey,
    hgrant]
  rfl

/-- A listed access is one of a system app just in case the key of its app is. -/
theorem involvesSystem_of_listed {o : Observation} (ho : o ∈ s.listed c) :
    (s.verdict c o).involvesSystem = s.isSystemKey o.appKey := by
  obtain ⟨hmem, app, happ, hobjection, _⟩ := (mem_listed_iff s c o).mp ho
  rw [isSystemKey_appKey hmem happ, Bool.eq_iff_iff, involvesSystem_verdict_iff]
  constructor
  · intro h
    obtain ⟨app', happ', _, hsystem⟩ := h
    rwa [Option.some.inj (happ.symm.trans happ')]
  · intro hsystem
    exact ⟨app, happ, hobjection, hsystem⟩

end Keys

section Passes

variable (s : Snapshot) (c : Criteria)

theorem listed_withSystem_false :
    s.listed (c.withSystem false) =
      (s.listed (c.withSystem true)).filter fun o => !s.isSystemKey o.appKey := by
  rw [Snapshot.listed, Snapshot.listed, List.filter_filter]
  apply List.filter_congr
  intro o ho
  rw [verdict_withSystem_false, isListed_hide]
  cases hlisted : (s.verdict (c.withSystem true) o).isListed with
  | false => rw [Bool.false_and, Bool.and_false]
  | true =>
      have hmem : o ∈ s.listed (c.withSystem true) := List.mem_filter.mpr ⟨ho, hlisted⟩
      rw [involvesSystem_of_listed hmem, Bool.true_and, Bool.and_true]

theorem buckets_withSystem_false :
    (s.usage (c.withSystem false)).buckets =
      (s.usage (c.withSystem true)).buckets.filter fun b => !s.isSystemKey b.appKey := by
  rw [usage_buckets, usage_buckets, listed_withSystem_false]
  exact bucketGrouping.gather_filter (fun key => !s.isSystemKey key) _

theorem hasSystemApps_withSystem_false :
    (s.usage (c.withSystem false)).hasSystemApps = (s.usage (c.withSystem true)).hasSystemApps := by
  rw [usage_hasSystemApps, usage_hasSystemApps]
  congr 1
  funext o
  rw [verdict_withSystem_false, involvesSystem_hide]

theorem skipped_withSystem_true :
    (s.usage (c.withSystem true)).skipped =
      { (s.usage (c.withSystem false)).skipped with systemHidden := 0 } := by
  apply SkipCounts.ext_number
  intro reason
  by_cases hreason : reason = .systemHidden
  · subst hreason
    rw [usage_skipped]
    show _ = 0
    rw [List.countP_eq_zero]
    intro o _
    rw [decide_eq_true_eq]
    exact verdict_withSystem_true_ne s c o
  · have hother : SkipCounts.number
        { (s.usage (c.withSystem false)).skipped with systemHidden := 0 } reason =
          (s.usage (c.withSystem false)).skipped.number reason := by
      cases reason <;> first | rfl | exact absurd rfl hreason
    rw [hother, usage_skipped, usage_skipped]
    congr 1
    funext o
    rw [verdict_withSystem_false, decide_eq_decide, hide_eq_skipped_iff hreason]

theorem systemHidden_withSystem_false :
    (s.usage (c.withSystem false)).skipped.systemHidden =
      (s.observations c.rules).countP fun o =>
        (s.verdict (c.withSystem true) o).involvesSystem := by
  have h := usage_skipped s (c.withSystem false) .systemHidden
  refine h.trans ?_
  congr 1
  funext o
  rw [verdict_withSystem_false, Bool.eq_iff_iff, decide_eq_true_eq, hide_eq_systemHidden_iff]

theorem listed_system_withSystem_true :
    (s.listed (c.withSystem true)).filter (fun o => s.isSystemKey o.appKey) =
      (s.observations c.rules).filter fun o =>
        (s.verdict (c.withSystem true) o).involvesSystem := by
  rw [Snapshot.listed, List.filter_filter]
  apply List.filter_congr
  intro o ho
  cases hlisted : (s.verdict (c.withSystem true) o).isListed with
  | true =>
      have hmem : o ∈ s.listed (c.withSystem true) := List.mem_filter.mpr ⟨ho, hlisted⟩
      rw [involvesSystem_of_listed hmem, Bool.and_true]
  | false =>
      rw [Bool.and_false, eq_comm, Bool.eq_false_iff]
      intro hinvolves
      rw [isListed_of_involvesSystem hinvolves] at hlisted
      cases hlisted

theorem systemHidden_eq_length_accesses :
    (s.usage (c.withSystem false)).skipped.systemHidden =
      (((s.usage (c.withSystem true)).buckets.filter fun b => s.isSystemKey b.appKey).flatMap
        (·.accesses)).length := by
  -- The buckets of system apps are what their own accesses gather to, and gathering loses none.
  have hgather := bucketGrouping.gather_filter s.isSystemKey (s.listed (c.withSystem true))
  rw [usage_buckets]
  show _ = (((bucketGrouping.gather _).filter fun b => s.isSystemKey (bucketGrouping.key b)).flatMap
    (·.accesses)).length
  rw [← hgather, length_accesses_gather]
  show _ = ((s.listed (c.withSystem true)).filter fun o => s.isSystemKey o.appKey).length
  rw [listed_system_withSystem_true, systemHidden_withSystem_false, List.countP_eq_length_filter]

theorem hasSystemApps_iff_systemHidden_pos :
    (s.usage (c.withSystem false)).hasSystemApps = true ↔
      0 < (s.usage (c.withSystem false)).skipped.systemHidden := by
  rw [hasSystemApps_withSystem_false, systemHidden_withSystem_false, usage_hasSystemApps,
    List.any_eq_true, List.countP_pos_iff]
  rfl

theorem systemHidden_pos_iff :
    0 < (s.usage (c.withSystem false)).skipped.systemHidden ↔
      ∃ b ∈ (s.usage (c.withSystem true)).buckets, s.isSystemKey b.appKey = true := by
  rw [systemHidden_eq_length_accesses, List.length_pos_iff_exists_mem]
  constructor
  · intro h
    obtain ⟨access, haccess⟩ := h
    obtain ⟨b, hb, _⟩ := List.mem_flatMap.mp haccess
    obtain ⟨hb, hsystem⟩ := List.mem_filter.mp hb
    exact ⟨b, hb, hsystem⟩
  · intro h
    obtain ⟨b, hb, hsystem⟩ := h
    obtain ⟨o, os, _, hbucket⟩ := bucket_of_mem_usage hb
    have haccess : o.access ∈ b.accesses := by
      rw [hbucket]
      exact List.mem_cons_self ..
    exact ⟨o.access, List.mem_flatMap.mpr ⟨b, List.mem_filter.mpr ⟨hb, hsystem⟩, haccess⟩⟩

/-- The buckets that are missing where system apps are hidden are those of system apps. -/
theorem not_mem_keys_withSystem_false {b : Bucket}
    (hb : b ∈ (s.usage (c.withSystem true)).buckets) :
    b.appKey ∉ (s.usage (c.withSystem false)).buckets.map (·.appKey) ↔
      s.isSystemKey b.appKey = true := by
  rw [buckets_withSystem_false, List.mem_map]
  constructor
  · intro h
    by_contra hsystem
    exact h ⟨b, List.mem_filter.mpr ⟨hb, by simpa using hsystem⟩, rfl⟩
  · intro hsystem h
    obtain ⟨b', hb', hkey⟩ := h
    have hown := (List.mem_filter.mp hb').2
    rw [hkey, hsystem] at hown
    cases hown

end Passes

theorem reveals_withSystem (s : Snapshot) (c : Criteria) :
    Reveals s (s.usage (c.withSystem false)) (s.usage (c.withSystem true)) where
  buckets := buckets_withSystem_false s c
  flag := hasSystemApps_withSystem_false s c
  skips := skipped_withSystem_true s c
  counted := systemHidden_eq_length_accesses s c
  hinted := hasSystemApps_iff_systemHidden_pos s c
  revealing := by
    rw [hasSystemApps_iff_systemHidden_pos, systemHidden_pos_iff]
    constructor
    · intro h
      obtain ⟨b, hb, hsystem⟩ := h
      exact ⟨b, hb, (not_mem_keys_withSystem_false s c hb).mpr hsystem⟩
    · intro h
      obtain ⟨b, hb, hmissing⟩ := h
      exact ⟨b, hb, (not_mem_keys_withSystem_false s c hb).mp hmissing⟩

/-- A group that an app of the user's has used, and twice an app of the system. -/
def gpsService : Snapshot where
  groups := [
    { name := "location", label := "Location", declaredBy := "android"
      grants := [
        { appKey := "gps", accesses :=
          [⟨"gps", "location", "Location", 500⟩, ⟨"gps", "location", "Location", 700⟩] },
        { appKey := "maps", accesses := [⟨"maps", "location", "Location", 400⟩] }] }]
  apps := [
    { key := "maps", label := "Maps", userFacing := true },
    { key := "gps", label := "GPS service" }]

/-- What is hidden is counted and hinted at, and comes back as a bucket in front of the others. -/
theorem reveals_withSystem_gpsService :
    let c : Criteria := ⟨{}, {}, 1000⟩
    let hidden := gpsService.usage (c.withSystem false)
    let shown := gpsService.usage (c.withSystem true)
    hidden.buckets.map (·.appKey) = ["maps"] ∧ shown.buckets.map (·.appKey) = ["gps", "maps"] ∧
      hidden.skipped.systemHidden = 2 ∧ shown.skipped.systemHidden = 0 ∧
      hidden.hasSystemApps = true ∧ shown.hasSystemApps = true ∧
      ∃ b ∈ shown.buckets, b.appKey ∉ hidden.buckets.map (·.appKey) := by
  intro c hidden shown
  have hreveals : Reveals gpsService hidden shown := reveals_withSystem gpsService c
  have hcount : hidden.skipped.systemHidden = 2 := by decide +kernel
  have hflag : hidden.hasSystemApps = true := by
    rw [hreveals.hinted, hcount]
    decide
  refine ⟨by decide +kernel, by decide +kernel, hcount, ?_, hflag, ?_, hreveals.revealing.mp hflag⟩
  · rw [hreveals.skips]
  · rw [← hreveals.flag, hflag]

end AccessLedger
