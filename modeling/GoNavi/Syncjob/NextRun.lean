import GoNavi.Syncjob.CronTime
import GoNavi.Syncjob.Store

/-! # The next run of a schedule

`NextRunAt` computes the next time of a definition in 64-bit nanoseconds and milliseconds.  The
seconds of an interval come from the user, and `validateDefinitionPolicies` looks at their product
with a second, which may have wrapped around.

**The next run is right if and only if its time fits** (`nextRunAt_iff_fits`): the interval, the
distance of the next point of the grid from the anchor and the time itself are machine integers.
Then a schedule that catches up visits every point of its grid. -/

namespace GoNavi.Syncjob

open Scan

/-! ### Times -/

def millisecond : ℤ := 10 ^ 6

/-- `t.UnixMilli()`. -/
def unixMilli (t : ℤ) : Int64 := Int64.ofInt (t / millisecond)

/-- `time.UnixMilli(ms)`. -/
def ofUnixMilli (ms : Int64) : ℤ := ms.toInt * millisecond

/-- `t.Sub(u)`, which stops at the ends of a `time.Duration`. -/
def timeSub (t u : ℤ) : Int64 :=
  if 2 ^ 63 ≤ t - u then Int64.maxValue
  else if t - u < -2 ^ 63 then Int64.minValue
  else Int64.ofInt (t - u)

/-- A time whose milliseconds are a machine integer, as those of a clock and of
`time.UnixMilli`. -/
structure ReferenceTime where
  ns : ℤ
  low : -2 ^ 63 ≤ ns / millisecond
  high : ns / millisecond < 2 ^ 63

def ReferenceTime.ofMillis (ms : Int64) : ReferenceTime where
  ns := ofUnixMilli ms
  low := by
    have := Int64.le_toInt ms
    unfold ofUnixMilli millisecond
    omega
  high := by
    have := Int64.toInt_lt ms
    unfold ofUnixMilli millisecond
    omega

/-! ### Definitions -/

/-- `ScheduleKind`; a kind that is not set is `manual`, and others are refused. -/
inductive ScheduleKind where
  | manual
  | once
  | interval
  | cron
  | continuous
  deriving DecidableEq

structure ScheduleSpec where
  kind : ScheduleKind
  cronExpression : Text
  timezone : Text
  runAt : Int64
  intervalSeconds : Int64
  anchorAt : Int64
  misfirePolicy : Text

/-- What `NextRunAt` and the policies read of a definition; a lifecycle may not be set. -/
structure TimedDefinition where
  lifecycle : Option JobLifecycle
  enabled : Bool
  archivedAt : Int64
  incrementalCDC : Bool
  concurrencyPolicy : Text
  resumePolicy : Text
  schedule : ScheduleSpec

/-- `if value == "" { value = other }`. -/
def orElse (value other : Text) : Text := if value = [] then other else value

/-- `NormalizeDefinition`, of what is read. -/
def normalizeTimed (input : TimedDefinition) : TimedDefinition :=
  let lifecycle := input.lifecycle.getD
    (if input.archivedAt > 0 then .archived else if input.enabled then .enabled else .ready)
  { input with
    lifecycle := some lifecycle
    enabled := lifecycle = .enabled
    concurrencyPolicy := orElse input.concurrencyPolicy (bytes "forbid")
    resumePolicy := orElse input.resumePolicy (bytes "manual")
    schedule := { input.schedule with
      misfirePolicy := orElse input.schedule.misfirePolicy (bytes "skip")
      cronExpression := trimSpace input.schedule.cronExpression
      timezone := orElse (trimSpace input.schedule.timezone) (bytes "Local") } }

inductive PolicyError where
  | runAtRequired
  | intervalTooShort
  | cron (err : CronScheduleError)
  | continuousRequiresCDC
  | continuousRequiresForbid
  | misfirePolicy (policy : Text)
  | concurrencyPolicy (policy : Text)
  | resumePolicy (policy : Text)

/-- `time.Duration(seconds) * time.Second`. -/
def secondsDuration (seconds : Int64) : Int64 := seconds * 1000000000

section definitions

variable (loadLocation : Text → Option Location)

/-- The switch over the kinds in `validateDefinitionPolicies`. -/
def validateSchedule (definition : TimedDefinition) : Except PolicyError Unit :=
  match definition.schedule.kind with
  | .manual => .ok ()
  | .once => if definition.schedule.runAt ≤ 0 then .error .runAtRequired else .ok ()
  | .interval =>
    if secondsDuration definition.schedule.intervalSeconds < secondsDuration 10 then
      .error .intervalTooShort
    else .ok ()
  | .cron =>
    match parseCronSchedule loadLocation definition.schedule.cronExpression
        definition.schedule.timezone with
    | .error err => .error (.cron err)
    | .ok _ => .ok ()
  | .continuous =>
    if ¬ definition.incrementalCDC then .error .continuousRequiresCDC
    else if definition.concurrencyPolicy ≠ bytes "forbid" then .error .continuousRequiresForbid
    else .ok ()

def validateDefinitionPolicies (definition : TimedDefinition) : Except PolicyError Unit := do
  validateSchedule loadLocation definition
  let misfirePolicy := definition.schedule.misfirePolicy
  if misfirePolicy ∉ [bytes "skip", bytes "run_once", bytes "catch_up"] then
    .error (.misfirePolicy misfirePolicy)
  else if definition.concurrencyPolicy ∉ [bytes "forbid", bytes "queue"] then
    .error (.concurrencyPolicy definition.concurrencyPolicy)
  else if definition.resumePolicy ∉ [bytes "never", bytes "manual", bytes "auto"] then
    .error (.resumePolicy definition.resumePolicy)
  else .ok ()

/-! ### The next run -/

/-- `anchor.Add((after.Sub(anchor)/interval + 1) * interval)`. -/
def pointBehind (anchor after : ℤ) (interval : Int64) : ℤ :=
  anchor + ((timeSub after anchor / interval + 1) * interval).toInt

/-- The switch over the kinds in `NextRunAt`; a division by zero stops the program. -/
def nextOfSchedule (schedule : ScheduleSpec) (after : ReferenceTime) : Option Int64 :=
  match schedule.kind with
  | .manual => some 0
  | .once => some (if schedule.runAt > unixMilli after.ns then schedule.runAt else 0)
  | .cron =>
    match nextCronTime loadLocation schedule.cronExpression schedule.timezone after.ns with
    | .error _ => some 0
    | .ok next => some (unixMilli next)
  | .continuous => some (unixMilli (after.ns + 5 * second))
  | .interval =>
    if schedule.intervalSeconds ≤ 0 then some 0
    else
      let interval := secondsDuration schedule.intervalSeconds
      if schedule.anchorAt ≤ 0 then some (unixMilli (after.ns + interval.toInt))
      else
        let anchor := ofUnixMilli schedule.anchorAt
        if after.ns < anchor then some (unixMilli anchor)
        else if interval = 0 then none
        else some (unixMilli (pointBehind anchor after.ns interval))

/-- `NextRunAt`. -/
def nextRunAt (definition : TimedDefinition) (after : ReferenceTime) : Option Int64 :=
  let definition := normalizeTimed definition
  if ¬ definition.enabled then some 0
  else nextOfSchedule loadLocation definition.schedule after

/-- `Store.AdvanceSchedule`: the next run behind one that was due, as it is seen at `now`. -/
def advancedRunAt (definition : TimedDefinition) (scheduledAt : Int64) (now : ReferenceTime) :
    Option Int64 :=
  let base := if definition.schedule.misfirePolicy = bytes "catch_up" ∧ scheduledAt > 0 then
    .ofMillis scheduledAt else now
  nextRunAt loadLocation definition base

/-- The next runs, one after the other, from the first one on. -/
def successiveRuns (definition : TimedDefinition) (first : Int64) (now : ℕ → ReferenceTime) :
    ℕ → Option Int64
  | 0 => some first
  | n + 1 => do
    let scheduledAt ← successiveRuns definition first now n
    advancedRunAt loadLocation definition scheduledAt (now n)

end definitions

/-! ### What is right -/

/-- The instants of an interval schedule. -/
def intervalGrid (anchor interval : ℤ) : Set ℤ := {t | ∃ k : ℕ, t = anchor + k * interval}

/-- The interval that a schedule asks for. -/
def ScheduleSpec.interval (schedule : ScheduleSpec) : ℤ := schedule.intervalSeconds.toInt * second

def ScheduleSpec.anchor (schedule : ScheduleSpec) : ℤ := ofUnixMilli schedule.anchorAt

/-- A time that the store can hold; 0 stands for none. -/
def TimeFits (t : ℤ) : Prop := t / millisecond < 2 ^ 63 ∧ t / millisecond ≠ 0

section right

variable (loadLocation : Text → Option Location)

/-- The schedule has no time behind the reference time. -/
def NothingLater (schedule : ScheduleSpec) (after : ℤ) : Prop :=
  match schedule.kind with
  | .manual => True
  | .once => ofUnixMilli schedule.runAt ≤ after
  | .cron => ∀ cron, parseCronSchedule loadLocation schedule.cronExpression schedule.timezone =
      .ok cron → ∀ t, after < t → t ≤ cronHorizon after → minute ∣ t → ¬ cron.Due t
  | .interval | .continuous => False

/-- The next run is behind the reference time, or there is none; that of an interval is the first
point of its grid, and without an anchor the reference time is the anchor. -/
structure NextIsRight (schedule : ScheduleSpec) (after : ℤ) (next : Int64) : Prop where
  later : next ≠ 0 → after < ofUnixMilli next
  never : next = 0 → NothingLater loadLocation schedule after
  onGrid : schedule.kind = .interval → 0 < schedule.anchorAt →
    IsLeast {t | after < t ∧ t ∈ intervalGrid schedule.anchor schedule.interval}
      (ofUnixMilli next)
  unanchored : schedule.kind = .interval → schedule.anchorAt ≤ 0 →
    next.toInt = (after + schedule.interval) / millisecond

/-- The time of the next run fits. -/
def ScheduleFits (schedule : ScheduleSpec) (after : ℤ) : Prop :=
  match schedule.kind with
  | .manual | .once => True
  | .cron => ∀ cron, parseCronSchedule loadLocation schedule.cronExpression schedule.timezone =
      .ok cron → ∀ t, IsLeast {t | after < t ∧ minute ∣ t ∧ cron.Due t} t →
        t ≤ cronHorizon after → TimeFits t
  | .continuous => TimeFits (after + 5 * second)
  | .interval => 0 < schedule.interval ∧
      if schedule.anchorAt ≤ 0 then
        schedule.interval < 2 ^ 63 ∧ TimeFits (after + schedule.interval)
      else
        let distance := ((after - schedule.anchor) / schedule.interval + 1) * schedule.interval
        after < schedule.anchor ∨ (distance < 2 ^ 63 ∧ TimeFits (schedule.anchor + distance))

end right

/-! ### Arithmetic of times -/

theorem toInt_unixMilli {t : ℤ} (hlow : -2 ^ 63 ≤ t / millisecond)
    (hhigh : t / millisecond < 2 ^ 63) : (unixMilli t).toInt = t / millisecond := by
  unfold unixMilli
  rw [Int64.toInt_ofInt]
  apply Int.bmod_eq_of_le
  · exact hlow
  · exact hhigh

theorem toInt_unixMilli_wrapped {t : ℤ} (hlow : 2 ^ 63 ≤ t / millisecond)
    (hhigh : t / millisecond < 2 ^ 63 + 2 ^ 62) :
    (unixMilli t).toInt = t / millisecond - 2 ^ 64 := by
  have hsize : (Int64.size : ℤ) = 2 ^ 64 := rfl
  unfold unixMilli
  rw [Int64.toInt_ofInt, Int.bmod_def, hsize]
  omega

theorem toInt_unixMilli_cases {t : ℤ} (hlow : -2 ^ 63 ≤ t / millisecond)
    (hhigh : t / millisecond < 2 ^ 63 + 2 ^ 62) :
    (unixMilli t).toInt = t / millisecond ∨
      ((unixMilli t).toInt < 0 ∧ (unixMilli t).toInt < t / millisecond) := by
  by_cases hfits : t / millisecond < 2 ^ 63
  · exact .inl (toInt_unixMilli hlow hfits)
  · have hwrapped := toInt_unixMilli_wrapped (not_lt.mp hfits) hhigh
    exact .inr (by omega)

theorem unixMilli_ofUnixMilli (ms : Int64) : unixMilli (ofUnixMilli ms) = ms := by
  have hdiv : ofUnixMilli ms / millisecond = ms.toInt :=
    Int.mul_ediv_cancel _ (by decide)
  unfold unixMilli
  rw [hdiv]
  exact Int64.ofInt_toInt ms

theorem toInt_secondsDuration (seconds : Int64) :
    (secondsDuration seconds).toInt = (seconds.toInt * second).bmod (2 ^ 64) :=
  Int64.toInt_mul seconds 1000000000

theorem toInt_secondsDuration_of_lt {seconds : Int64} (hpos : 0 < seconds.toInt * second)
    (hlt : seconds.toInt * second < 2 ^ 63) :
    (secondsDuration seconds).toInt = seconds.toInt * second := by
  rw [toInt_secondsDuration]
  apply Int.bmod_eq_of_le <;> omega

theorem toInt_timeSub {t u : ℤ} (hle : u ≤ t) (hlt : t - u < 2 ^ 63) :
    (timeSub t u).toInt = t - u := by
  unfold timeSub
  rw [if_neg (by omega), if_neg (by omega), Int64.toInt_ofInt]
  have hsize : (Int64.size : ℤ) = 2 ^ 64 := rfl
  apply Int.bmod_eq_of_le <;> omega

section points

variable {anchor after : ℤ} {interval : Int64}

/-- The next point of the grid is exact when its distance from the anchor is a duration. -/
theorem pointBehind_eq (hpos : 0 < interval.toInt) (hle : anchor ≤ after)
    (hfits : ((after - anchor) / interval.toInt + 1) * interval.toInt < 2 ^ 63) :
    pointBehind anchor after interval =
      anchor + ((after - anchor) / interval.toInt + 1) * interval.toInt := by
  have hquot : 0 ≤ (after - anchor) / interval.toInt := Int.ediv_nonneg (by omega) hpos.le
  have hsplit := Int.mul_ediv_add_emod (after - anchor) interval.toInt
  have hmod := Int.emod_lt_of_pos (after - anchor) hpos
  have hexpand : ((after - anchor) / interval.toInt + 1) * interval.toInt =
      interval.toInt * ((after - anchor) / interval.toInt) + interval.toInt := by ring
  have hsub : (timeSub after anchor).toInt = after - anchor := toInt_timeSub hle (by omega)
  have hle' : (after - anchor) / interval.toInt + 1 ≤
      ((after - anchor) / interval.toInt + 1) * interval.toInt :=
    le_mul_of_one_le_right (by omega) (by omega)
  have hdiv : (timeSub after anchor / interval).toInt = (after - anchor) / interval.toInt := by
    rw [Int64.toInt_div, hsub, Int.tdiv_eq_ediv_of_nonneg (by omega)]
    apply Int.bmod_eq_of_le <;> omega
  have hsteps : (timeSub after anchor / interval + 1).toInt =
      (after - anchor) / interval.toInt + 1 := by
    rw [Word.toInt_add, hdiv]
    · rfl
    · rw [hdiv]
      change _ ≤ _ + 1
      omega
    · rw [hdiv]
      change _ + 1 < _
      omega
  unfold pointBehind
  rw [Int64.toInt_mul, hsteps, Int.bmod_eq_of_le] <;> omega

/-- Whatever the next point is computed as, it is not farther from the anchor than a duration. -/
theorem pointBehind_bounds (anchor after : ℤ) (interval : Int64) :
    anchor - 2 ^ 63 ≤ pointBehind anchor after interval ∧
      pointBehind anchor after interval < anchor + 2 ^ 63 := by
  have hlow := Int64.le_toInt ((timeSub after anchor / interval + 1) * interval)
  have hhigh := Int64.toInt_lt ((timeSub after anchor / interval + 1) * interval)
  unfold pointBehind
  omega

end points

theorem isLeast_anchor {anchor after interval : ℤ} (hpos : 0 < interval) (h : after < anchor) :
    IsLeast {t | after < t ∧ t ∈ intervalGrid anchor interval} anchor := by
  refine ⟨⟨h, 0, by simp⟩, ?_⟩
  rintro t ⟨_, k, rfl⟩
  have := Int.mul_nonneg (Int.natCast_nonneg k) hpos.le
  omega

/-- Behind the anchor, the first point is that of the next whole number of intervals. -/
theorem isLeast_point {anchor after interval : ℤ} (hpos : 0 < interval) (h : anchor ≤ after) :
    IsLeast {t | after < t ∧ t ∈ intervalGrid anchor interval}
      (anchor + ((after - anchor) / interval + 1) * interval) := by
  have hquot : 0 ≤ (after - anchor) / interval := Int.ediv_nonneg (by omega) hpos.le
  have hsplit := Int.mul_ediv_add_emod (after - anchor) interval
  have hmod := Int.emod_lt_of_pos (after - anchor) hpos
  have hexpand : ((after - anchor) / interval + 1) * interval =
      interval * ((after - anchor) / interval) + interval := by ring
  refine ⟨⟨by omega, ((after - anchor) / interval + 1).toNat, ?_⟩, ?_⟩
  · rw [Int.toNat_of_nonneg (by omega)]
  · rintro t ⟨hlt, k, rfl⟩
    have hk : (after - anchor) / interval + 1 ≤ k := by
      rw [Int.add_one_le_iff, Int.ediv_lt_iff_lt_mul hpos]
      omega
    have := Int.mul_le_mul_of_nonneg_right hk hpos.le
    omega

/-! ### The kinds of schedules -/

section kinds

variable {loadLocation : Text → Option Location} {definition : TimedDefinition}
  {after : ReferenceTime}

theorem millisecond_pos : 0 < millisecond := by decide

theorem unixMilli_of_fits {t : ℤ} (h : TimeFits t) (hlow : after.ns ≤ t) :
    (unixMilli t).toInt = t / millisecond ∧ unixMilli t ≠ 0 := by
  have hle : after.ns / millisecond ≤ t / millisecond :=
    Int.ediv_le_ediv millisecond_pos hlow
  have hexact := toInt_unixMilli (after.low.trans hle) h.1
  refine ⟨hexact, fun hzero => ?_⟩
  rw [hzero] at hexact
  exact h.2 hexact.symm

/-- A time that does not fit is stored as none, or as one that is not later. -/
theorem unixMilli_of_not_fits {t : ℤ} (h : ¬ TimeFits t) (hlow : after.ns ≤ t)
    (hnear : t / millisecond < 2 ^ 63 + 2 ^ 62) :
    unixMilli t = 0 ∨ (unixMilli t ≠ 0 ∧ (unixMilli t).toInt < 0 ∧ 2 ^ 63 ≤ t / millisecond) := by
  have hle : after.ns / millisecond ≤ t / millisecond :=
    Int.ediv_le_ediv millisecond_pos hlow
  by_cases hzero : t / millisecond = 0
  · left
    unfold unixMilli
    rw [hzero]
    rfl
  · have hbeyond : 2 ^ 63 ≤ t / millisecond := by
      by_contra hlt
      exact h ⟨not_le.mp hlt, hzero⟩
    have hwrapped := toInt_unixMilli_wrapped hbeyond hnear
    refine .inr ⟨fun hstored => ?_, by omega, hbeyond⟩
    rw [hstored] at hwrapped
    change 0 = _ at hwrapped
    omega

variable {schedule : ScheduleSpec}

/-- The switch returns a next run that is right. -/
def ReturnsRight (loadLocation : Text → Option Location) (schedule : ScheduleSpec)
    (after : ReferenceTime) : Prop :=
  ∃ next, nextOfSchedule loadLocation schedule after = some next ∧
    NextIsRight loadLocation schedule after.ns next

theorem right_manual (hkind : schedule.kind = .manual) :
    ReturnsRight loadLocation schedule after := by
  have hnext : nextOfSchedule loadLocation schedule after = some 0 := by
    unfold nextOfSchedule
    rw [hkind]
  refine ⟨0, hnext, ?_⟩
  constructor
  · exact fun h => absurd rfl h
  · intro _
    simp [NothingLater, hkind]
  all_goals
    intro hinterval
    rw [hkind] at hinterval
    cases hinterval

theorem right_once (hkind : schedule.kind = .once) (hpos : 0 < schedule.runAt) :
    ReturnsRight loadLocation schedule after := by
  have hafter := toInt_unixMilli after.low after.high
  have hpos := Int64.lt_iff_toInt_lt.mp hpos
  have hsplit := Int.mul_ediv_add_emod after.ns millisecond
  have hmod := Int.emod_lt_of_pos after.ns millisecond_pos
  have hmod' := Int.emod_nonneg after.ns millisecond_pos.ne'
  have hnotInterval : schedule.kind ≠ .interval := by
    rw [hkind]
    decide
  by_cases hlater : schedule.runAt > unixMilli after.ns
  · have hnext : nextOfSchedule loadLocation schedule after = some schedule.runAt := by
      unfold nextOfSchedule
      rw [hkind]
      exact congrArg some (if_pos hlater)
    rw [gt_iff_lt, Int64.lt_iff_toInt_lt, hafter] at hlater
    have := Int.mul_le_mul_of_nonneg_left (Int.add_one_le_of_lt hlater) millisecond_pos.le
    refine ⟨_, hnext, ⟨fun _ => ?_, fun hzero => ?_, fun h => absurd h hnotInterval,
      fun h => absurd h hnotInterval⟩⟩
    · unfold ofUnixMilli
      linarith
    · rw [hzero] at hpos
      exact absurd hpos (lt_irrefl _)
  · have hnext : nextOfSchedule loadLocation schedule after = some 0 := by
      unfold nextOfSchedule
      rw [hkind]
      exact congrArg some (if_neg hlater)
    rw [gt_iff_lt, Int64.lt_iff_toInt_lt, hafter, not_lt] at hlater
    have := Int.mul_le_mul_of_nonneg_left hlater millisecond_pos.le
    refine ⟨_, hnext, ⟨fun h => absurd rfl h, fun _ => ?_, fun h => absurd h hnotInterval,
      fun h => absurd h hnotInterval⟩⟩
    simp only [NothingLater, hkind]
    unfold ofUnixMilli
    linarith

/-- A time behind the reference time is stored as a later one if and only if it fits. -/
theorem later_iff_fits {t : ℤ} (hlow : after.ns / millisecond < t / millisecond)
    (hnear : t / millisecond < after.ns / millisecond + 2 ^ 62) :
    (unixMilli t ≠ 0 ∧ after.ns < ofUnixMilli (unixMilli t)) ↔ TimeFits t := by
  have hsplit := Int.mul_ediv_add_emod after.ns millisecond
  have hmod := Int.emod_lt_of_pos after.ns millisecond_pos
  have hmod' := Int.emod_nonneg after.ns millisecond_pos.ne'
  have hhigh := after.high
  have hle : after.ns ≤ t := by
    by_contra hlt
    exact absurd (Int.ediv_le_ediv millisecond_pos (not_le.mp hlt).le) (not_le.mpr hlow)
  constructor
  · rintro ⟨hne, hlater⟩
    by_contra hfits
    obtain hzero | ⟨_, hneg, hbeyond⟩ := unixMilli_of_not_fits hfits hle (by omega)
    · exact hne hzero
    · have hpositive : 0 ≤ after.ns / millisecond := by omega
      have := Int.mul_nonneg millisecond_pos.le hpositive
      have := Int.mul_neg_of_neg_of_pos hneg millisecond_pos
      unfold ofUnixMilli at hlater
      linarith
  · intro hfits
    obtain ⟨hexact, hne⟩ := unixMilli_of_fits hfits hle
    refine ⟨hne, ?_⟩
    have := Int.mul_le_mul_of_nonneg_left (Int.add_one_le_of_lt hlow) millisecond_pos.le
    unfold ofUnixMilli
    rw [hexact]
    linarith

/-- A schedule that has a later time is right if and only if it returns one. -/
theorem returnsRight_iff_later (hkind : schedule.kind ≠ .interval) {next : Int64}
    (hnext : nextOfSchedule loadLocation schedule after = some next)
    (hsome : ¬ NothingLater loadLocation schedule after.ns) :
    ReturnsRight loadLocation schedule after ↔ next ≠ 0 ∧ after.ns < ofUnixMilli next := by
  unfold ReturnsRight
  simp only [hnext, Option.some.injEq, exists_eq_left']
  constructor
  · intro hright
    have hne : next ≠ 0 := fun hzero => hsome (hright.never hzero)
    exact ⟨hne, hright.later hne⟩
  · rintro ⟨hne, hlater⟩
    exact ⟨fun _ => hlater, fun hzero => absurd hzero hne, fun h => absurd h hkind,
      fun h => absurd h hkind⟩

theorem right_continuous (hkind : schedule.kind = .continuous) :
    ReturnsRight loadLocation schedule after ↔ ScheduleFits loadLocation schedule after.ns := by
  have hnext : nextOfSchedule loadLocation schedule after =
      some (unixMilli (after.ns + 5 * second)) := by
    unfold nextOfSchedule
    rw [hkind]
  have hnotInterval : schedule.kind ≠ .interval := by
    rw [hkind]
    decide
  have hfits : ScheduleFits loadLocation schedule after.ns ↔
      TimeFits (after.ns + 5 * second) := by
    unfold ScheduleFits
    rw [hkind]
  have hmillis : (after.ns + 5 * second) / millisecond = after.ns / millisecond + 5000 := by
    unfold second millisecond
    omega
  have hsome : ¬ NothingLater loadLocation schedule after.ns := by
    simp only [NothingLater, hkind, not_false_eq_true]
  have hlow : after.ns / millisecond < (after.ns + 5 * second) / millisecond := by omega
  rw [hfits, returnsRight_iff_later hnotInterval hnext hsome]
  exact later_iff_fits hlow (by omega)

theorem right_cron (hkind : schedule.kind = .cron) {cron : CronSchedule}
    (haccepted : parseCronSchedule loadLocation schedule.cronExpression schedule.timezone =
      .ok cron) :
    ReturnsRight loadLocation schedule after ↔ ScheduleFits loadLocation schedule after.ns := by
  have hnotInterval : schedule.kind ≠ .interval := by
    rw [hkind]
    decide
  have hfits : ScheduleFits loadLocation schedule after.ns ↔
      ∀ t, IsLeast {t | after.ns < t ∧ minute ∣ t ∧ cron.Due t} t →
        t ≤ cronHorizon after.ns → TimeFits t := by
    simp only [ScheduleFits, hkind, haccepted, Except.ok.injEq, forall_eq']
  have hnever : NothingLater loadLocation schedule after.ns ↔
      ∀ t, after.ns < t → t ≤ cronHorizon after.ns → minute ∣ t → ¬ cron.Due t := by
    simp only [NothingLater, hkind, haccepted, Except.ok.injEq, forall_eq']
  rw [hfits]
  cases hcron : nextCronTime loadLocation schedule.cronExpression schedule.timezone after.ns with
  | error err =>
    have hnext : nextOfSchedule loadLocation schedule after = some 0 := by
      unfold nextOfSchedule
      rw [hkind]
      rw [hcron]
    have hnone : ∀ t, after.ns < t → t ≤ cronHorizon after.ns → minute ∣ t → ¬ cron.Due t :=
      fun t hlt hhorizon hminute => nextCronTime_error haccepted hcron hlt hhorizon hminute
    constructor
    · intro _ t hleast hhorizon
      exact absurd hleast.1.2.2 (hnone t hleast.1.1 hhorizon hleast.1.2.1)
    · intro _
      exact ⟨0, hnext, ⟨fun h => absurd rfl h, fun _ => hnever.mpr hnone,
        fun h => absurd h hnotInterval, fun h => absurd h hnotInterval⟩⟩
  | ok next =>
    have hnext : nextOfSchedule loadLocation schedule after = some (unixMilli next) := by
      unfold nextOfSchedule
      rw [hkind]
      rw [hcron]
    obtain ⟨hleast, hhorizon⟩ := nextCronTime_ok haccepted hcron
    have honly : (∀ t, IsLeast {t | after.ns < t ∧ minute ∣ t ∧ cron.Due t} t →
        t ≤ cronHorizon after.ns → TimeFits t) ↔ TimeFits next :=
      ⟨fun h => h next hleast hhorizon, fun h t ht _ => by rwa [ht.unique hleast]⟩
    have hlow : after.ns / millisecond < next / millisecond := by
      obtain ⟨n, hn⟩ := hleast.1.2.1
      have := hleast.1.1
      unfold minute second at hn
      unfold millisecond
      omega
    have hnear : next / millisecond < after.ns / millisecond + 2 ^ 62 := by
      have hmod := Int.emod_nonneg after.ns (show minute ≠ 0 by decide)
      unfold cronHorizon truncateMinute maxMinutes at hhorizon
      unfold minute second at hhorizon hmod
      unfold millisecond
      omega
    have hsome : ¬ NothingLater loadLocation schedule after.ns := by
      intro hnone
      exact hnever.mp hnone next hleast.1.1 hhorizon hleast.1.2.1 hleast.1.2.2
    rw [honly, returnsRight_iff_later hnotInterval hnext hsome]
    exact later_iff_fits hlow hnear

section interval

variable (hkind : schedule.kind = .interval)
  (hadmitted : ¬ secondsDuration schedule.intervalSeconds < secondsDuration 10)

include hkind

theorem nextOfSchedule_interval : nextOfSchedule loadLocation schedule after =
    if schedule.intervalSeconds ≤ 0 then some 0
    else if schedule.anchorAt ≤ 0 then
      some (unixMilli (after.ns + (secondsDuration schedule.intervalSeconds).toInt))
    else if after.ns < schedule.anchor then some (unixMilli schedule.anchor)
    else if secondsDuration schedule.intervalSeconds = 0 then none
    else some (unixMilli (pointBehind schedule.anchor after.ns
      (secondsDuration schedule.intervalSeconds))) := by
  unfold nextOfSchedule
  rw [hkind]
  rfl

theorem scheduleFits_interval : ScheduleFits loadLocation schedule after.ns ↔
    0 < schedule.interval ∧
      if schedule.anchorAt ≤ 0 then
        schedule.interval < 2 ^ 63 ∧ TimeFits (after.ns + schedule.interval)
      else
        after.ns < schedule.anchor ∨
        (((after.ns - schedule.anchor) / schedule.interval + 1) * schedule.interval < 2 ^ 63 ∧
          TimeFits (schedule.anchor +
            ((after.ns - schedule.anchor) / schedule.interval + 1) * schedule.interval)) := by
  unfold ScheduleFits
  rw [hkind]

theorem something_later : ¬ NothingLater loadLocation schedule after.ns := by
  simp only [NothingLater, hkind, not_false_eq_true]

omit hkind in
include hadmitted in
/-- An admitted interval is a duration of ten seconds at least, and exact if it is not too
long. -/
theorem interval_admitted : 10 ^ 10 ≤ (secondsDuration schedule.intervalSeconds).toInt ∧
    (0 < schedule.interval → schedule.interval < 2 ^ 63 →
      (secondsDuration schedule.intervalSeconds).toInt = schedule.interval) ∧
    (2 ^ 63 ≤ schedule.interval →
      (secondsDuration schedule.intervalSeconds).toInt + 2 ^ 64 ≤ schedule.interval) := by
  have hten : (secondsDuration 10).toInt = 10 ^ 10 := by decide
  rw [Int64.lt_iff_toInt_lt, hten, not_lt] at hadmitted
  refine ⟨hadmitted, fun hpos hlt => toInt_secondsDuration_of_lt hpos hlt, fun hlong => ?_⟩
  have hhigh := Int64.toInt_lt (secondsDuration schedule.intervalSeconds)
  have hmod := toInt_secondsDuration schedule.intervalSeconds
  change _ = schedule.interval.bmod (2 ^ 64) at hmod
  rw [Int.bmod_def] at hmod
  omega

include hadmitted in
theorem right_unanchored (hpos : 0 < schedule.intervalSeconds) (hanchor : schedule.anchorAt ≤ 0) :
    ReturnsRight loadLocation schedule after ↔ ScheduleFits loadLocation schedule after.ns := by
  obtain ⟨hten, hexact, hlong⟩ := interval_admitted hadmitted
  have hbound := Int64.toInt_lt (secondsDuration schedule.intervalSeconds)
  have hlow := after.low
  have hhigh := after.high
  have hpositive : 0 < schedule.interval :=
    Int.mul_pos (Int64.lt_iff_toInt_lt.mp hpos) (by decide)
  have hnext : nextOfSchedule loadLocation schedule after =
      some (unixMilli (after.ns + (secondsDuration schedule.intervalSeconds).toInt)) := by
    rw [nextOfSchedule_interval hkind, if_neg (by rw [Int64.not_le]; exact hpos), if_pos hanchor]
  rw [scheduleFits_interval hkind, if_pos hanchor]
  unfold ReturnsRight
  simp only [hnext, Option.some.injEq, exists_eq_left']
  constructor
  · intro hright
    have hstored := hright.unanchored hkind hanchor
    have hne : unixMilli (after.ns + (secondsDuration schedule.intervalSeconds).toInt) ≠ 0 :=
      fun hzero => something_later hkind (hright.never hzero)
    have hnotZero : (unixMilli (after.ns +
        (secondsDuration schedule.intervalSeconds).toInt)).toInt ≠ 0 := by
      intro hzero
      exact hne (Int64.toInt_inj.mp hzero)
    have hmax := Int64.toInt_lt (unixMilli (after.ns +
      (secondsDuration schedule.intervalSeconds).toInt))
    refine ⟨hpositive, ?_, by omega, by omega⟩
    by_contra hle
    have hlong := hlong (not_lt.mp hle)
    have hcases := toInt_unixMilli_cases
      (t := after.ns + (secondsDuration schedule.intervalSeconds).toInt)
      (by unfold millisecond at *; omega) (by unfold millisecond at *; omega)
    unfold millisecond at *
    omega
  · rintro ⟨_, hlt, hfits⟩
    rw [hexact hpositive hlt] at hten hbound ⊢
    have hlower : after.ns / millisecond < (after.ns + schedule.interval) / millisecond := by
      unfold millisecond
      omega
    have hnear : (after.ns + schedule.interval) / millisecond <
        after.ns / millisecond + 2 ^ 62 := by
      unfold millisecond
      omega
    obtain ⟨hne, hlater⟩ := (later_iff_fits hlower hnear).mpr hfits
    refine ⟨fun _ => hlater, fun hzero => absurd hzero hne, ?_, ?_⟩
    · intro _ hpositiveAnchor
      exact absurd hanchor (by rw [Int64.not_le]; exact hpositiveAnchor)
    · intro _ _
      exact (unixMilli_of_fits hfits (show after.ns ≤ _ by omega)).1

include hadmitted in
theorem right_anchored (hpos : 0 < schedule.intervalSeconds) (hanchor : 0 < schedule.anchorAt) :
    ReturnsRight loadLocation schedule after ↔ ScheduleFits loadLocation schedule after.ns := by
  obtain ⟨hten, hexact, hlong⟩ := interval_admitted hadmitted
  have hpositive : 0 < schedule.interval :=
    Int.mul_pos (Int64.lt_iff_toInt_lt.mp hpos) (by decide)
  have hanchored : 0 < schedule.anchor :=
    Int.mul_pos (Int64.lt_iff_toInt_lt.mp hanchor) millisecond_pos
  have hanchorHigh : schedule.anchor / millisecond < 2 ^ 63 := by
    have := Int64.toInt_lt schedule.anchorAt
    unfold ScheduleSpec.anchor ofUnixMilli millisecond
    omega
  have hnotZero : secondsDuration schedule.intervalSeconds ≠ 0 := by
    intro hzero
    rw [hzero] at hten
    exact absurd hten (by decide)
  have hnotUnanchored : ¬ schedule.anchorAt ≤ 0 := by
    rw [Int64.not_le]
    exact hanchor
  rw [scheduleFits_interval hkind, if_neg hnotUnanchored]
  unfold ReturnsRight
  rw [nextOfSchedule_interval hkind, if_neg (by rw [Int64.not_le]; exact hpos),
    if_neg hnotUnanchored]
  by_cases hbefore : after.ns < schedule.anchor
  · rw [if_pos hbefore]
    have hstored : unixMilli schedule.anchor = schedule.anchorAt := unixMilli_ofUnixMilli _
    simp only [hbefore, true_or, and_true, hpositive, iff_true, Option.some.injEq,
      exists_eq_left', hstored]
    refine ⟨fun _ => hbefore, fun hzero => ?_, fun _ _ => isLeast_anchor hpositive hbefore,
      fun _ h => absurd h hnotUnanchored⟩
    rw [hzero] at hanchor
    exact absurd hanchor (by decide)
  · rw [if_neg hbefore, if_neg hnotZero]
    have hle : schedule.anchor ≤ after.ns := not_lt.mp hbefore
    have hleast := isLeast_point hpositive hle
    have hbehind := hleast.1.1
    have hclosed := pointBehind_bounds schedule.anchor after.ns
      (secondsDuration schedule.intervalSeconds)
    have hwhole : ((after.ns - schedule.anchor) / schedule.interval + 1) * schedule.interval =
        schedule.interval * ((after.ns - schedule.anchor) / schedule.interval + 1) := by ring
    have hquot : 0 ≤ (after.ns - schedule.anchor) / schedule.interval :=
      Int.ediv_nonneg (by omega) hpositive.le
    have hlength : schedule.interval ≤
        ((after.ns - schedule.anchor) / schedule.interval + 1) * schedule.interval :=
      le_mul_of_one_le_left hpositive.le (by omega)
    simp only [hbefore, false_or, hpositive, true_and, Option.some.injEq, exists_eq_left']
    constructor
    · intro hright
      have hpoint := (hright.onGrid hkind hanchor).unique hleast
      have hcases := toInt_unixMilli_cases (t := pointBehind schedule.anchor after.ns
        (secondsDuration schedule.intervalSeconds))
        (by unfold millisecond at *; omega) (by unfold millisecond at *; omega)
      have hmax := Int64.toInt_lt (unixMilli (pointBehind schedule.anchor after.ns
        (secondsDuration schedule.intervalSeconds)))
      unfold TimeFits
      unfold ofUnixMilli at hpoint
      rw [← hpoint]
      rw [Int.mul_ediv_cancel _ millisecond_pos.ne']
      unfold millisecond at *
      omega
    · rintro ⟨hdistance, hfits⟩
      have hI := hexact hpositive (lt_of_le_of_lt hlength hdistance)
      have hpoint : pointBehind schedule.anchor after.ns
          (secondsDuration schedule.intervalSeconds) = schedule.anchor +
            ((after.ns - schedule.anchor) / schedule.interval + 1) * schedule.interval := by
        rw [← hI] at hdistance hpositive ⊢
        exact pointBehind_eq hpositive hle hdistance
      rw [hpoint]
      obtain ⟨hstored, hne⟩ := unixMilli_of_fits hfits hbehind.le
      have hmillis : ofUnixMilli (unixMilli (schedule.anchor +
          ((after.ns - schedule.anchor) / schedule.interval + 1) * schedule.interval)) =
          schedule.anchor +
            ((after.ns - schedule.anchor) / schedule.interval + 1) * schedule.interval := by
        unfold ofUnixMilli
        rw [hstored]
        apply Int.ediv_mul_cancel
        apply Int.dvd_add
        · exact Int.dvd_mul_left _ _
        · exact ((show millisecond ∣ second by decide).mul_left _).mul_left _
      refine ⟨fun _ => ?_, fun hzero => absurd hzero hne, fun _ _ => ?_,
        fun _ h => absurd h hnotUnanchored⟩
      · rw [hmillis]
        exact hbehind
      · rw [hmillis]
        exact hleast

include hadmitted in
theorem right_interval :
    ReturnsRight loadLocation schedule after ↔ ScheduleFits loadLocation schedule after.ns := by
  by_cases hpos : 0 < schedule.intervalSeconds
  · by_cases hanchor : 0 < schedule.anchorAt
    · exact right_anchored hkind hadmitted hpos hanchor
    · exact right_unanchored hkind hadmitted hpos (Int64.not_lt.mp hanchor)
  · have hnext : nextOfSchedule loadLocation schedule after = some 0 := by
      rw [nextOfSchedule_interval hkind, if_pos (Int64.not_lt.mp hpos)]
    rw [scheduleFits_interval hkind]
    constructor
    · rintro ⟨next, hreturned, hright⟩
      rw [hnext] at hreturned
      cases hreturned
      exact absurd (hright.never rfl) (something_later hkind)
    · rintro ⟨hpositive, _⟩
      have hle := Int64.le_iff_toInt_le.mp (Int64.not_lt.mp hpos)
      exact absurd hpositive (not_lt.mpr (Int.mul_nonpos_of_nonpos_of_nonneg hle (by decide)))

end interval

theorem returnsRight_iff_fits (hadmitted : validateSchedule loadLocation definition = .ok ()) :
    ReturnsRight loadLocation definition.schedule after ↔
      ScheduleFits loadLocation definition.schedule after.ns := by
  have hfits : ∀ kind, definition.schedule.kind = kind → (kind = .manual ∨ kind = .once) →
      ScheduleFits loadLocation definition.schedule after.ns := by
    rintro kind hkind (rfl | rfl)
    all_goals
      unfold ScheduleFits
      rw [hkind]
      trivial
  unfold validateSchedule at hadmitted
  cases hkind : definition.schedule.kind with
  | manual => exact ⟨fun _ => hfits _ hkind (.inl rfl), fun _ => right_manual hkind⟩
  | once =>
    rw [hkind] at hadmitted
    dsimp only at hadmitted
    split at hadmitted
    · cases hadmitted
    · rename_i hrunAt
      exact ⟨fun _ => hfits _ hkind (.inr rfl),
        fun _ => right_once hkind (Int64.not_le.mp hrunAt)⟩
  | interval =>
    rw [hkind] at hadmitted
    dsimp only at hadmitted
    split at hadmitted
    · cases hadmitted
    · exact right_interval hkind ‹_›
  | cron =>
    rw [hkind] at hadmitted
    dsimp only at hadmitted
    split at hadmitted
    · cases hadmitted
    · exact right_cron hkind ‹_›
  | continuous => exact right_continuous hkind

/-! ### Catching up -/

theorem isLeast_next {anchor interval : ℤ} (hpos : 0 < interval) (k : ℕ) :
    IsLeast {t | anchor + k * interval < t ∧ t ∈ intervalGrid anchor interval}
      (anchor + (k + 1 : ℕ) * interval) := by
  have hk := Int.mul_nonneg (Int.natCast_nonneg k) hpos.le
  have hleast : IsLeast {t | anchor + k * interval < t ∧ t ∈ intervalGrid anchor interval}
      (anchor + ((anchor + k * interval - anchor) / interval + 1) * interval) :=
    isLeast_point hpos (by omega)
  have hquot : (anchor + k * interval - anchor) / interval = k := by
    rw [add_sub_cancel_left]
    exact Int.mul_ediv_cancel _ hpos.ne'
  rw [hquot] at hleast
  exact hleast

@[simp] theorem normalizeTimed_anchor (definition : TimedDefinition) :
    (normalizeTimed definition).schedule.anchor = definition.schedule.anchor := rfl

@[simp] theorem normalizeTimed_interval (definition : TimedDefinition) :
    (normalizeTimed definition).schedule.interval = definition.schedule.interval := rfl

section catchUp

variable (henabled : (normalizeTimed definition).enabled = true)
  (hadmitted : validateSchedule loadLocation (normalizeTimed definition) = .ok ())

include henabled

theorem nextRunAt_enabled : nextRunAt loadLocation definition after =
    nextOfSchedule loadLocation (normalizeTimed definition).schedule after := by
  unfold nextRunAt
  rw [if_neg (not_not.mpr henabled)]

include hadmitted

/-- A schedule that catches up goes from point to point; induction on the runs. -/
theorem successiveRuns_visit (hkind : definition.schedule.kind = .interval)
    (hanchor : 0 < definition.schedule.anchorAt)
    (hcatchUp : definition.schedule.misfirePolicy = bytes "catch_up") {first : Int64} {k : ℕ}
    (hfirst : ofUnixMilli first = definition.schedule.anchor + k * definition.schedule.interval)
    (now : ℕ → ReferenceTime) (n : ℕ)
    (hfits : ∀ m < n, ScheduleFits loadLocation (normalizeTimed definition).schedule
      (definition.schedule.anchor + (k + m : ℕ) * definition.schedule.interval)) :
    ∃ next, successiveRuns loadLocation definition first now n = some next ∧
      ofUnixMilli next =
        definition.schedule.anchor + (k + n : ℕ) * definition.schedule.interval := by
  induction n with
  | zero => exact ⟨first, rfl, hfirst⟩
  | succ n ih =>
    obtain ⟨scheduledAt, hscheduled, hpoint⟩ := ih fun m hm => hfits m (hm.trans n.lt_succ_self)
    have hfit : ScheduleFits loadLocation (normalizeTimed definition).schedule
        (ReferenceTime.ofMillis scheduledAt).ns := by
      change ScheduleFits _ _ (ofUnixMilli scheduledAt)
      rw [hpoint]
      exact hfits n n.lt_succ_self
    have hkind' : (normalizeTimed definition).schedule.kind = .interval := hkind
    have hpositive : 0 < definition.schedule.interval := by
      have hpositive := ((scheduleFits_interval hkind').mp hfit).1
      rwa [normalizeTimed_interval] at hpositive
    have hanchored : 0 < definition.schedule.anchor :=
      Int.mul_pos (Int64.lt_iff_toInt_lt.mp hanchor) millisecond_pos
    have hlater : scheduledAt > 0 := by
      have hk := Int.mul_nonneg (Int.natCast_nonneg (k + n)) hpositive.le
      rw [gt_iff_lt, Int64.lt_iff_toInt_lt, Int64.toInt_zero]
      by_contra hle
      have := Int.mul_nonpos_of_nonpos_of_nonneg (not_lt.mp hle) millisecond_pos.le
      unfold ofUnixMilli at hpoint
      omega
    obtain ⟨next, hnext, hright⟩ := (returnsRight_iff_fits hadmitted).mpr hfit
    have hleast : IsLeast {t | definition.schedule.anchor +
          (k + n : ℕ) * definition.schedule.interval < t ∧
          t ∈ intervalGrid definition.schedule.anchor definition.schedule.interval}
        (definition.schedule.anchor + (k + n + 1 : ℕ) * definition.schedule.interval) :=
      isLeast_next hpositive (k + n)
    have hgrid := hright.onGrid hkind' hanchor
    rw [normalizeTimed_anchor, normalizeTimed_interval] at hgrid
    change IsLeast {t | ofUnixMilli scheduledAt < t ∧ _} _ at hgrid
    rw [hpoint] at hgrid
    refine ⟨next, ?_, hgrid.unique hleast⟩
    unfold successiveRuns
    rw [hscheduled]
    change advancedRunAt loadLocation definition scheduledAt (now n) = some next
    unfold advancedRunAt
    rw [if_pos ⟨hcatchUp, hlater⟩, nextRunAt_enabled henabled]
    exact hnext

end catchUp

end kinds

theorem validateSchedule_of_policies {loadLocation : Text → Option Location}
    {definition : TimedDefinition}
    (h : validateDefinitionPolicies loadLocation definition = .ok ()) :
    validateSchedule loadLocation definition = .ok () := by
  obtain ⟨done, hschedule, _⟩ := Fallible.bind_eq_ok.mp h
  exact hschedule

/-- **The next run of an admitted definition is right if and only if its time fits**, and a
schedule that catches up visits every point of its grid, as long as their times fit. -/
theorem nextRunAt_iff_fits (loadLocation : Text → Option Location) (definition : TimedDefinition)
    (henabled : (normalizeTimed definition).enabled = true)
    (hadmitted : validateDefinitionPolicies loadLocation (normalizeTimed definition) = .ok ()) :
    (∀ after : ReferenceTime,
      (∃ next, nextRunAt loadLocation definition after = some next ∧
        NextIsRight loadLocation (normalizeTimed definition).schedule after.ns next) ↔
      ScheduleFits loadLocation (normalizeTimed definition).schedule after.ns) ∧
    (definition.schedule.kind = .interval → 0 < definition.schedule.anchorAt →
      definition.schedule.misfirePolicy = bytes "catch_up" → ∀ (first : Int64) (k : ℕ),
      ofUnixMilli first = definition.schedule.anchor + k * definition.schedule.interval →
      ∀ (now : ℕ → ReferenceTime) (n : ℕ),
      (∀ m < n, ScheduleFits loadLocation (normalizeTimed definition).schedule
        (definition.schedule.anchor + (k + m : ℕ) * definition.schedule.interval)) →
      ∃ next, successiveRuns loadLocation definition first now n = some next ∧
        ofUnixMilli next =
          definition.schedule.anchor + (k + n : ℕ) * definition.schedule.interval) := by
  have hschedule := validateSchedule_of_policies hadmitted
  constructor
  · intro after
    rw [nextRunAt_enabled henabled]
    exact returnsRight_iff_fits hschedule
  · intro hkind hanchor hcatchUp first k hfirst now n hfits
    exact successiveRuns_visit henabled hschedule hkind hanchor hcatchUp hfirst now n hfits

/-- A definition that runs in intervals from 14 November 2023 on. -/
def intervalDefinition (seconds : Int64) : TimedDefinition where
  lifecycle := some .enabled
  enabled := true
  archivedAt := 0
  incrementalCDC := false
  concurrencyPolicy := bytes "forbid"
  resumePolicy := bytes "manual"
  schedule := {
    kind := .interval
    cronExpression := []
    timezone := []
    runAt := 0
    intervalSeconds := seconds
    anchorAt := 1700000000000
    misfirePolicy := bytes "catch_up" }

/-- An interval of 585 years is admitted, and runs every 10.29 seconds. -/
theorem nextRunAt_iff_fits_wraps :
    validateDefinitionPolicies utcOnly (normalizeTimed (intervalDefinition 18446744084)) = .ok () ∧
      nextRunAt utcOnly (intervalDefinition 18446744084) (.ofMillis 1700000001000) =
        some 1700000010290 ∧
      ¬ NextIsRight utcOnly (normalizeTimed (intervalDefinition 18446744084)).schedule
        (ReferenceTime.ofMillis 1700000001000).ns 1700000010290 := by
  refine ⟨rfl, by decide, fun hright => ?_⟩
  obtain ⟨k, hk⟩ := (hright.onGrid rfl (by decide)).1.2
  have hnext : ofUnixMilli 1700000010290 = 1700000010290000000 := by decide
  have hanchor : (intervalDefinition 18446744084).schedule.anchor = 1700000000000000000 := by
    decide
  have hinterval : (intervalDefinition 18446744084).schedule.interval = 18446744084000000000 := by
    decide
  rw [normalizeTimed_anchor, normalizeTimed_interval, hnext, hanchor, hinterval] at hk
  omega

/-- Every hour, asked for half an hour behind the anchor. -/
theorem nextRunAt_iff_fits_hourly :
    ScheduleFits utcOnly (normalizeTimed (intervalDefinition 3600)).schedule
        (ReferenceTime.ofMillis 1700001800000).ns ∧
      ∃ next, nextRunAt utcOnly (intervalDefinition 3600) (.ofMillis 1700001800000) =
          some next ∧
        NextIsRight utcOnly (normalizeTimed (intervalDefinition 3600)).schedule
          (ReferenceTime.ofMillis 1700001800000).ns next := by
  have hfits : ScheduleFits utcOnly (normalizeTimed (intervalDefinition 3600)).schedule
      (ReferenceTime.ofMillis 1700001800000).ns := by
    rw [scheduleFits_interval rfl]
    unfold TimeFits
    decide
  exact ⟨hfits, ((nextRunAt_iff_fits utcOnly (intervalDefinition 3600) rfl rfl).1
    (.ofMillis 1700001800000)).mpr hfits⟩

end GoNavi.Syncjob
