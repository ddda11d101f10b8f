import GoNavi.Machine.Fallible
import GoNavi.Machine.Machine
import GoNavi.Sqlaudit.Integrity
import GoNavi.Sqlaudit.Sanitize

/-! # The audit store

The store keeps the records in order of their sequence numbers, the settings and the counter of
`AUTOINCREMENT`.  Every operation is one transaction, which is rolled back when one of its
statements fails (`withImmediate`); `appended` collects what the committed ones have inserted.
Appending first prunes expired records and makes room for the new ones, so the record in front
of the first one kept may be gone.

**Every run of operations keeps the log honest** (`run_honest`): the records are the last ones of
everything appended, their chain verifies and they fit the settings, and a failed operation
changes nothing. -/

namespace GoNavi.Sqlaudit

open Scan Json Fallible List

structure Store where
  events : List Event
  counter : ℤ
  settings : Settings
  appended : List Event
  deriving DecidableEq

/-- A store that has just been created. -/
def Store.empty : Store := ⟨[], 0, ⟨true, captureModeRedacted, 30, 100000⟩, []⟩

/-! ### What an operation runs into -/

/-- The statements of the transactions. -/
inductive Statement where
  | begin
  | readSettings
  | updateSettings
  | locate
  | deletePart
  | deleteAll
  | countDeleted
  | count
  | limit
  | head
  | insert (index : ℕ)
  | lastInsertId (index : ℕ)
  | finalize (index : ℕ)
  | commit
  deriving DecidableEq

/-- The clock when the records are prepared and when the old ones are pruned, the identifiers
drawn, the errors of the database, and whether the store is closed. -/
structure World where
  now : ℤ
  pruneAt : ℤ
  uuid : ℕ → Text
  fails : Statement → Option String
  closed : Bool

variable (world : World)

/-- The database executes a statement, or its error is wrapped. -/
def execute (statement : Statement) (message : String) : Except String Unit :=
  match world.fails statement with
  | some err => throw (message ++ ": " ++ err)
  | none => return ()

def ensureOpen : Except String Unit :=
  if world.closed then throw "sql audit store is closed" else return ()

/-- A transaction: what it changes is kept only if all of it succeeds. -/
def withImmediate {α : Type} (operation : Store → Except String (α × Store)) (s : Store) :
    Except String α × Store :=
  let transaction : Except String (α × Store) := do
    ensureOpen world
    execute world .begin "begin sql audit transaction"
    let done ← operation s
    execute world .commit "commit sql audit transaction"
    return done
  match transaction with
  | .ok (result, s') => (.ok result, s')
  | .error err => (.error err, s)

/-! ### Settings -/

def defaultRetentionDays : ℤ := 30
def defaultMaxRecords : ℤ := 100000
def maxRetentionDays : ℤ := 3650
def maxConfiguredEvents : ℤ := 10000000

def normalizeSettings (unicode : UnicodeTables) (settings : Settings) :
    Except String Settings := do
  let captureMode := lower unicode (trimSpace settings.captureMode)
  let captureMode := if captureMode = [] then captureModeRedacted else captureMode
  refuseIf (captureMode ≠ captureModeRedacted ∧ captureMode ≠ captureModeMetadata)
    "unsupported SQL audit capture mode"
  let retentionDays :=
    if settings.retentionDays ≤ 0 then defaultRetentionDays else settings.retentionDays
  refuseIf (retentionDays > maxRetentionDays) "SQL audit retention days cannot exceed 3650"
  let maxRecords := if settings.maxRecords ≤ 0 then defaultMaxRecords else settings.maxRecords
  refuseIf (maxRecords > maxConfiguredEvents) "SQL audit max records cannot exceed 10000000"
  return { settings with captureMode, retentionDays, maxRecords }

def getSettingsFrom (unicode : UnicodeTables) (s : Store) : Except String Settings := do
  execute world .readSettings "read sql audit settings"
  match normalizeSettings unicode s.settings with
  | .ok settings => return settings
  | .error err => throw ("invalid persisted sql audit settings: " ++ err)

/-! ### Deleting -/

def deleteAllLocked (s : Store) : Except String (ℤ × Store) := do
  execute world .deleteAll "clear SQL audit events"
  execute world .countDeleted "count cleared SQL audit events"
  return (s.events.length, { s with events := [] })

/-- Delete the records in front of the first one that is not older than the timestamp. -/
def deleteTimestampPrefixLocked (beforeTimestamp : ℤ) (s : Store) : Except String (ℤ × Store) := do
  execute world .locate "locate SQL audit retention boundary"
  match s.events.find? fun e => beforeTimestamp ≤ e.timestamp with
  | none => deleteAllLocked world s
  | some first =>
    execute world .deletePart "delete SQL audit sequence prefix"
    let kept := s.events.filter fun e => first.sequence ≤ e.sequence
    execute world .countDeleted "count deleted SQL audit sequence prefix"
    return (s.events.length - kept.length, { s with events := kept })

/-- The milliseconds of a day. -/
def dayMillis : ℤ := 24 * 60 * 60 * 1000

def pruneLocked (settings : Settings) (reserve : ℤ) (s : Store) : Except String (ℤ × Store) := do
  let cutoff := world.pruneAt - settings.retentionDays * dayMillis
  let (expired, s) ← deleteTimestampPrefixLocked world cutoff s
  execute world .count "count sql audit events"
  let current : ℤ := s.events.length
  let target := max 0 (settings.maxRecords - reserve)
  if current > target then
    let removeCount := current - target
    execute world .limit "enforce sql audit record limit"
    return (expired + removeCount, { s with events := s.events.drop removeCount.toNat })
  else return (expired, s)

/-! ### Appending -/

/-- The largest number that `AUTOINCREMENT` gives. -/
def maxSequence : ℤ := 2 ^ 63 - 1

def eventError (index : ℕ) : String := "sql audit event " ++ toString (index + 1)

/-- A record is checked and gets what it lacks before the transaction touches the table. -/
def prepareEvent (index : ℕ) (event : Event) : Except String Event := do
  let timestamp := if event.timestamp ≤ 0 then world.now else event.timestamp
  let id := if trimSpace event.id = [] then world.uuid index else sanitizeLabel event.id 256
  refuseIf (trimSpace event.eventType = []) (eventError index ++ " type is required")
  refuseIf (trimSpace event.status = []) (eventError index ++ " status is required")
  return { event with timestamp, id }

def prepareEvents : ℕ → List Event → Except String (List Event)
  | _, [] => return []
  | index, event :: events => do
    let event ← prepareEvent world index event
    let events ← prepareEvents (index + 1) events
    return event :: events

variable (sanitizer : Sanitizer) (digest : Text → Text)

/-- The record behind the one with the hash, under its number and its own hash. -/
def finishEvent (event : Event) (previousHash : Text) (sequence : ℤ) : Event :=
  let event := { event with prevHash := previousHash, sequence }
  { event with hash := calculateEventHash digest event }

theorem finishEvent_hash (event : Event) (previousHash : Text) (sequence : ℤ) :
    (finishEvent digest event previousHash sequence).hash =
      calculateEventHash digest (finishEvent digest event previousHash sequence) := rfl

/-- One record is inserted, numbered and given its hash. -/
def insertEvent (settings : Settings) (index : ℕ) (previousHash : Text) (prepared : Event)
    (s : Store) : Except String (Text × Store) := do
  let event := sanitizeEvent sanitizer prepared settings
  let name := eventError index
  execute world (.insert index) ("append " ++ name)
  refuseIf (∃ e ∈ s.events, e.id = event.id) ("append " ++ name ++ ": UNIQUE constraint failed")
  refuseIf (s.counter ≥ maxSequence) ("append " ++ name ++ ": database or disk is full")
  execute world (.lastInsertId index) ("read sql audit sequence for event " ++
    toString (index + 1))
  let event := finishEvent digest event previousHash (s.counter + 1)
  execute world (.finalize index) ("finalize " ++ name ++ " hash")
  return (event.hash, { s with
    events := s.events ++ [event]
    counter := event.sequence
    appended := s.appended ++ [event] })

def insertEvents (settings : Settings) :
    ℕ → Text → List Event → Store → Except String Store
  | _, _, [], s => return s
  | index, previousHash, event :: events, s => do
    let (previousHash, s) ←
      insertEvent world sanitizer digest settings index previousHash event s
    insertEvents settings (index + 1) previousHash events s

def appendEventsLocked (settings : Settings) (inputEvents : List Event) (s : Store) :
    Except String Store := do
  refuseIf (inputEvents.length > settings.maxRecords)
    ("sql audit batch exceeds configured max records: batch=" ++
      toString inputEvents.length ++ " limit=" ++ toString settings.maxRecords)
  let prepared ← prepareEvents world 0 inputEvents
  let (_, s) ← pruneLocked world settings prepared.length s
  execute world .head "read sql audit chain head"
  let previousHash := (s.events.getLast?.map Event.hash).getD []
  insertEvents world sanitizer digest settings 0 previousHash prepared s

/-! ### Operations -/

def appendBatch (events : List Event) (bypassDisabled : Bool) (s : Store) :
    Except String Unit × Store :=
  if world.closed = false ∧ events = [] then (.ok (), s)
  else withImmediate world (fun s => do
    let settings ← getSettingsFrom world sanitizer.unicode s
    if ¬ settings.enabled ∧ ¬ bypassDisabled then return ((), s)
    let s ← appendEventsLocked world sanitizer digest settings events s
    return ((), s)) s

/-- `Store.Append`. -/
def append (event : Event) (s : Store) : Except String Unit × Store :=
  appendBatch world sanitizer digest [event] false s

/-- `Store.AppendBatch`. -/
def appendEvents (events : List Event) (s : Store) : Except String Unit × Store :=
  appendBatch world sanitizer digest events false s

/-- `Store.AppendControl`. -/
def appendControl (event : Event) (s : Store) : Except String Unit × Store :=
  appendBatch world sanitizer digest [event] true s

def controlAuditSettings (settings : Settings) : Settings :=
  { settings with captureMode := captureModeRedacted }

/-- Upper case of an ASCII text, as the capture modes are. -/
def upperASCII (t : Text) : Text := t.map fun c => if 0x61 ≤ c ∧ c ≤ 0x7A then c - 32 else c

def settingsBoolToken (value : Bool) : Text := if value then bytes "ON" else bytes "OFF"

def settingsControlDescriptor (previous next : Settings) : Text :=
  bytes "AUDIT SETTINGS FROM_ENABLED_" ++ settingsBoolToken previous.enabled ++
  bytes " TO_ENABLED_" ++ settingsBoolToken next.enabled ++
  bytes " FROM_CAPTURE_" ++ upperASCII previous.captureMode ++
  bytes " TO_CAPTURE_" ++ upperASCII next.captureMode ++
  bytes " FROM_RETENTION_DAYS_" ++ integer previous.retentionDays ++
  bytes " TO_RETENTION_DAYS_" ++ integer next.retentionDays ++
  bytes " FROM_MAX_RECORDS_" ++ integer previous.maxRecords ++
  bytes " TO_MAX_RECORDS_" ++ integer next.maxRecords

def updateSettings (settings : Settings) (s : Store) : Except String Unit × Store :=
  match (do ensureOpen world; normalizeSettings sanitizer.unicode settings) with
  | .error err => (.error err, s)
  | .ok normalized => withImmediate world (fun s => do
      execute world .updateSettings "update sql audit settings"
      let (_, s) ← pruneLocked world normalized 0 { s with settings := normalized }
      return ((), s)) s

def updateSettingsWithControl (settings : Settings) (control : Event) (s : Store) :
    Except String Unit × Store :=
  match (do ensureOpen world; normalizeSettings sanitizer.unicode settings) with
  | .error err => (.error err, s)
  | .ok normalized => withImmediate world (fun s => do
      let previous ← getSettingsFrom world sanitizer.unicode s
      execute world .updateSettings "update sql audit settings"
      let control := { control with
        dbType := bytes "gonavi"
        sqlText := settingsControlDescriptor previous normalized }
      let s ← appendEventsLocked world sanitizer digest (controlAuditSettings normalized)
        [control] { s with settings := normalized }
      return ((), s)) s

/-- What both clearing operations delete: all records, or the old ones. -/
def deleteClearedLocked (beforeTimestamp : ℤ) (s : Store) : Except String (ℤ × Store) :=
  if beforeTimestamp ≤ 0 then deleteAllLocked world s
  else deleteTimestampPrefixLocked world beforeTimestamp s

def clear (beforeTimestamp : ℤ) (s : Store) : Except String ℤ × Store :=
  withImmediate world (deleteClearedLocked world beforeTimestamp) s

def clearWithControl (beforeTimestamp : ℤ) (control : Event) (s : Store) :
    Except String ℤ × Store :=
  withImmediate world (fun s => do
    let settings ← getSettingsFrom world sanitizer.unicode s
    let (deleted, s) ← deleteClearedLocked world beforeTimestamp s
    let sqlText :=
      if beforeTimestamp ≤ 0 then bytes "AUDIT CLEAR ALL"
      else bytes "AUDIT CLEAR BEFORE_TIMESTAMP_" ++ integer beforeTimestamp
    let control := { control with sqlText, dbType := bytes "gonavi", rowsAffected := deleted }
    let s ← appendEventsLocked world sanitizer digest (controlAuditSettings settings)
      [control] s
    return (deleted, s)) s

/-! ### Trimming -/

/-- Only records at the front are gone. -/
structure Trimmed (s s' : Store) : Prop where
  events : s'.events <:+ s.events
  counter : s'.counter = s.counter
  settings : s'.settings = s.settings
  appended : s'.appended = s.appended

theorem Trimmed.trans {s t u : Store} (h : Trimmed s t) (h' : Trimmed t u) : Trimmed s u :=
  ⟨h'.events.trans h.events, h'.counter.trans h.counter, h'.settings.trans h.settings,
    h'.appended.trans h.appended⟩

variable {world sanitizer digest} {s s' : Store} {deleted : ℤ}

theorem deleteAllLocked_trimmed (h : deleteAllLocked world s = .ok (deleted, s')) :
    Trimmed s s' := by
  unfold deleteAllLocked at h
  obtain ⟨_, -, h⟩ := bind_eq_ok.mp h
  obtain ⟨_, -, h⟩ := bind_eq_ok.mp h
  cases h
  exact ⟨List.nil_suffix, rfl, rfl, rfl⟩

theorem deleteTimestampPrefixLocked_trimmed {before : ℤ}
    (hchain : Chain.Valid (sealing digest) s.events)
    (h : deleteTimestampPrefixLocked world before s = .ok (deleted, s')) : Trimmed s s' := by
  unfold deleteTimestampPrefixLocked at h
  obtain ⟨_, -, h⟩ := bind_eq_ok.mp h
  split at h
  · exact deleteAllLocked_trimmed h
  · obtain ⟨_, -, h⟩ := bind_eq_ok.mp h
    obtain ⟨_, -, h⟩ := bind_eq_ok.mp h
    cases h
    exact ⟨hchain.filter_suffix _, rfl, rfl, rfl⟩

/-- Pruning leaves the records that the settings have room for. -/
theorem pruneLocked_trimmed {settings : Settings} {reserve : ℤ}
    (hchain : Chain.Valid (sealing digest) s.events)
    (h : pruneLocked world settings reserve s = .ok (deleted, s')) :
    Trimmed s s' ∧ (s'.events.length : ℤ) ≤ max 0 (settings.maxRecords - reserve) := by
  unfold pruneLocked at h
  obtain ⟨⟨expired, t⟩, ht, h⟩ := bind_eq_ok.mp h
  obtain ⟨_, -, h⟩ := bind_eq_ok.mp h
  have htrim := deleteTimestampPrefixLocked_trimmed hchain ht
  dsimp only at h
  split at h
  · obtain ⟨_, -, h⟩ := bind_eq_ok.mp h
    cases h
    refine ⟨htrim.trans ⟨List.drop_suffix _ _, rfl, rfl, rfl⟩, ?_⟩
    rw [length_drop]
    omega
  · cases h
    exact ⟨htrim, by omega⟩

/-! ### Sound logs -/

/-- The records are the last ones of everything appended, their chain verifies, and the counter
is past all of them. -/
structure Sound (digest : Text → Text) (s : Store) : Prop where
  kept : s.events <:+ s.appended
  chained : Chain.Valid (sealing digest) s.events
  counted : ∀ e ∈ s.events, e.sequence ≤ s.counter
  started : 0 ≤ s.counter

theorem Sound.trimmed (h : Sound digest s) (htrim : Trimmed s s') : Sound digest s' where
  kept := by
    rw [htrim.appended]
    exact htrim.events.trans h.kept
  chained := h.chained.suffix htrim.events
  counted := by
    intro e he
    rw [htrim.counter]
    exact h.counted e (htrim.events.subset he)
  started := htrim.counter.symm ▸ h.started

theorem Sound.settings (h : Sound digest s) (settings : Settings) :
    Sound digest { s with settings } := { h with }

/-- The hash that the next record names. -/
def headHash (s : Store) : Text := (s.events.getLast?.map Event.hash).getD []

theorem insertEvent_sound {settings : Settings} {index : ℕ} {previousHash hash : Text}
    {prepared : Event} (hs : Sound digest s) (hprevious : previousHash = headHash s)
    (h : insertEvent world sanitizer digest settings index previousHash prepared s =
      .ok (hash, s')) :
    Sound digest s' ∧ hash = headHash s' ∧ s'.events.length = s.events.length + 1 ∧
      s'.settings = s.settings := by
  unfold insertEvent at h
  obtain ⟨_, -, h⟩ := bind_eq_ok.mp h
  obtain ⟨_, -, h⟩ := bind_eq_ok.mp h
  obtain ⟨_, -, h⟩ := bind_eq_ok.mp h
  obtain ⟨_, -, h⟩ := bind_eq_ok.mp h
  obtain ⟨_, -, h⟩ := bind_eq_ok.mp h
  cases h
  generalize sanitizeEvent sanitizer prepared settings = event
  refine ⟨⟨?_, ?_, ?_, ?_⟩, ?_, ?_, rfl⟩
  · obtain ⟨gone, happended⟩ := hs.kept
    exact ⟨gone, by rw [← append_assoc, happended]⟩
  · refine hs.chained.append ?_ (finishEvent_hash digest event _ _) ?_
    · have := hs.started
      show 0 < s.counter + 1
      omega
    · intro last hlast
      have hcounted := hs.counted last (mem_of_getLast? hlast)
      refine ⟨show last.sequence < s.counter + 1 by omega, ?_⟩
      show previousHash = last.hash
      rw [hprevious, headHash, hlast]
      rfl
  · intro e he
    show e.sequence ≤ s.counter + 1
    cases mem_append.mp he with
    | inl he =>
      have := hs.counted e he
      omega
    | inr he =>
      rw [mem_singleton.mp he]
      exact le_rfl
  · have := hs.started
    show 0 ≤ s.counter + 1
    omega
  · simp [headHash]
  · simp

theorem insertEvents_sound {settings : Settings} : ∀ (prepared : List Event) (index : ℕ)
    {previousHash : Text} {s : Store}, Sound digest s → previousHash = headHash s →
    insertEvents world sanitizer digest settings index previousHash prepared s = .ok s' →
    Sound digest s' ∧ s'.events.length = s.events.length + prepared.length ∧
      s'.settings = s.settings
  | [], _, _, s, hs, _, h => by
    cases h
    exact ⟨hs, rfl, rfl⟩
  | event :: prepared, index, _, s, hs, hprevious, h => by
    unfold insertEvents at h
    obtain ⟨⟨hash, t⟩, ht, h⟩ := bind_eq_ok.mp h
    obtain ⟨hsound, hhash, hlength, hsettings⟩ := insertEvent_sound hs hprevious ht
    obtain ⟨hsound', hlength', hsettings'⟩ :=
      insertEvents_sound prepared (index + 1) hsound hhash h
    refine ⟨hsound', ?_, hsettings'.trans hsettings⟩
    rw [hlength', hlength, length_cons]
    omega

theorem prepareEvents_length : ∀ (events : List Event) (index : ℕ) {prepared : List Event},
    prepareEvents world index events = .ok prepared → prepared.length = events.length
  | [], _, _, h => by
    cases h
    rfl
  | event :: events, index, _, h => by
    unfold prepareEvents at h
    obtain ⟨_, -, h⟩ := bind_eq_ok.mp h
    obtain ⟨rest, hrest, h⟩ := bind_eq_ok.mp h
    cases h
    rw [length_cons, length_cons, prepareEvents_length events (index + 1) hrest]

/-- **Appending keeps the log sound** and within the settings it is given. -/
theorem appendEventsLocked_sound {settings : Settings} {events : List Event}
    (hs : Sound digest s)
    (h : appendEventsLocked world sanitizer digest settings events s = .ok s') :
    Sound digest s' ∧ (s'.events.length : ℤ) ≤ settings.maxRecords ∧
      s'.settings = s.settings := by
  unfold appendEventsLocked at h
  obtain ⟨_, hfits, h⟩ := bind_eq_ok.mp h
  have hfits := refuseIf_eq_ok.mp hfits
  obtain ⟨prepared, hprepared, h⟩ := bind_eq_ok.mp h
  obtain ⟨⟨deleted, t⟩, ht, h⟩ := bind_eq_ok.mp h
  obtain ⟨_, -, h⟩ := bind_eq_ok.mp h
  obtain ⟨htrim, hroom⟩ := pruneLocked_trimmed hs.chained ht
  obtain ⟨hsound, hlength, hsettings⟩ :=
    insertEvents_sound prepared 0 (hs.trimmed htrim) rfl h
  have hprepared' := prepareEvents_length events 0 hprepared
  exact ⟨hsound, by omega, hsettings.trans htrim.settings⟩

/-! ### Settings in force -/

/-- Settings as `normalizeSettings` leaves them. -/
structure Settings.Normal (settings : Settings) : Prop where
  mode : settings.captureMode = captureModeRedacted ∨ settings.captureMode = captureModeMetadata
  days : 0 < settings.retentionDays ∧ settings.retentionDays ≤ maxRetentionDays
  records : 0 < settings.maxRecords ∧ settings.maxRecords ≤ maxConfiguredEvents

variable {unicode : UnicodeTables}

theorem normalizeSettings_normal {settings normalized : Settings}
    (h : normalizeSettings unicode settings = .ok normalized) : normalized.Normal := by
  unfold normalizeSettings at h
  obtain ⟨_, hmode, h⟩ := bind_eq_ok.mp h
  obtain ⟨_, hdays, h⟩ := bind_eq_ok.mp h
  obtain ⟨_, hrecords, h⟩ := bind_eq_ok.mp h
  have hmode := refuseIf_eq_ok.mp hmode
  have hdays := refuseIf_eq_ok.mp hdays
  have hrecords := refuseIf_eq_ok.mp hrecords
  cases h
  refine ⟨?_, ⟨?_, not_lt.mp hdays⟩, ⟨?_, not_lt.mp hrecords⟩⟩
  · by_contra hnot
    exact hmode (not_or.mp hnot)
  · dsimp only
    split
    · decide
    · omega
  · dsimp only
    split
    · decide
    · omega

theorem normalizeSettings_of_normal {settings : Settings} (h : settings.Normal)
    (unicode : UnicodeTables) : normalizeSettings unicode settings = .ok settings := by
  have hmode : lower unicode (trimSpace settings.captureMode) = settings.captureMode := by
    cases h.mode with
    | inl hmode => rw [hmode]; rfl
    | inr hmode => rw [hmode]; rfl
  have hne : settings.captureMode ≠ [] := by
    cases h.mode with
    | inl hmode => rw [hmode]; decide
    | inr hmode => rw [hmode]; decide
  have hknown : ¬ (settings.captureMode ≠ captureModeRedacted ∧
      settings.captureMode ≠ captureModeMetadata) := fun hnot =>
    h.mode.elim hnot.1 hnot.2
  have hdays := h.days
  have hrecords := h.records
  unfold normalizeSettings
  dsimp only
  rw [hmode, if_neg hne, if_neg (by omega), if_neg (by omega)]
  simp only [refuseIf, if_neg hknown, if_neg (not_lt.mpr hdays.2), if_neg (not_lt.mpr hrecords.2)]
  rfl

theorem getSettingsFrom_eq {settings : Settings} (hs : s.settings.Normal)
    (h : getSettingsFrom world unicode s = .ok settings) :
    settings = s.settings := by
  unfold getSettingsFrom at h
  obtain ⟨_, -, h⟩ := bind_eq_ok.mp h
  rw [normalizeSettings_of_normal hs] at h
  cases h
  rfl

/-! ### Operations keep the log honest -/

/-- A sound log within the settings in force. -/
structure Honest (digest : Text → Text) (s : Store) : Prop extends Sound digest s where
  normal : s.settings.Normal
  roomy : (s.events.length : ℤ) ≤ s.settings.maxRecords

theorem honest_empty : Honest digest .empty where
  kept := suffix_refl []
  chained := Chain.valid_nil
  counted := by simp [Store.empty]
  started := le_refl 0
  normal := ⟨.inl rfl, ⟨by decide, by decide⟩, ⟨by decide, by decide⟩⟩
  roomy := by decide

theorem Honest.trimmed (h : Honest digest s) (htrim : Trimmed s s') : Honest digest s' where
  toSound := h.toSound.trimmed htrim
  normal := htrim.settings.symm ▸ h.normal
  roomy := by
    have := htrim.events.length_le
    have := h.roomy
    rw [htrim.settings]
    omega

/-- What a transaction leaves behind. -/
structure Settles {α : Type} (digest : Text → Text) (s : Store) (done : Except String α × Store) :
    Prop where
  honest : Honest digest done.2
  failed : ∀ err, done.1 = .error err →
    done.2.events = s.events ∧ done.2.settings = s.settings

variable {α : Type}

theorem Settles.same (h : Honest digest s) (result : Except String α) :
    Settles digest s (result, s) := ⟨h, fun _ _ => ⟨rfl, rfl⟩⟩

/-- **The transaction rule**: an operation that keeps the log honest when it succeeds settles. -/
theorem withImmediate_settles {operation : Store → Except String (α × Store)} (hs : Honest digest s)
    (hoperation : ∀ result s', operation s = .ok (result, s') → Honest digest s') :
    Settles digest s (withImmediate world operation s) := by
  unfold withImmediate
  dsimp only
  split
  · rename_i result s' h
    obtain ⟨_, -, h⟩ := bind_eq_ok.mp h
    obtain ⟨_, -, h⟩ := bind_eq_ok.mp h
    obtain ⟨done, hdone, h⟩ := bind_eq_ok.mp h
    obtain ⟨_, -, h⟩ := bind_eq_ok.mp h
    cases h
    exact ⟨hoperation result s' hdone, fun err herr => nomatch herr⟩
  · exact .same hs _

theorem appendBatch_settles (hs : Honest digest s) (events : List Event) (bypassDisabled : Bool) :
    Settles digest s (appendBatch world sanitizer digest events bypassDisabled s) := by
  unfold appendBatch
  split
  · exact .same hs _
  · apply withImmediate_settles hs
    intro _ s' h
    obtain ⟨settings, hsettings, h⟩ := bind_eq_ok.mp h
    obtain rfl := getSettingsFrom_eq hs.normal hsettings
    split at h
    · cases h
      exact hs
    · obtain ⟨t, ht, h⟩ := bind_eq_ok.mp h
      cases h
      obtain ⟨hsound, hroomy, hsame⟩ := appendEventsLocked_sound hs.toSound ht
      exact ⟨hsound, hsame ▸ hs.normal, hsame ▸ hroomy⟩

theorem updateSettings_settles (hs : Honest digest s) (settings : Settings) :
    Settles digest s (updateSettings world sanitizer settings s) := by
  unfold updateSettings
  split
  · exact .same hs _
  · rename_i normalized hnormalized
    obtain ⟨_, -, hnormalized⟩ := bind_eq_ok.mp hnormalized
    have hnormal := normalizeSettings_normal hnormalized
    apply withImmediate_settles hs
    intro _ s' h
    obtain ⟨_, -, h⟩ := bind_eq_ok.mp h
    obtain ⟨⟨deleted, t⟩, ht, h⟩ := bind_eq_ok.mp h
    cases h
    obtain ⟨htrim, hroomy⟩ := pruneLocked_trimmed (hs.toSound.settings normalized).chained ht
    have hrecords := hnormal.records
    refine ⟨(hs.toSound.settings normalized).trimmed htrim, htrim.settings.symm ▸ hnormal, ?_⟩
    rw [htrim.settings]
    show _ ≤ normalized.maxRecords
    omega

theorem updateSettingsWithControl_settles (hs : Honest digest s) (settings : Settings)
    (control : Event) :
    Settles digest s (updateSettingsWithControl world sanitizer digest settings control s) := by
  unfold updateSettingsWithControl
  split
  · exact .same hs _
  · rename_i normalized hnormalized
    obtain ⟨_, -, hnormalized⟩ := bind_eq_ok.mp hnormalized
    have hnormal := normalizeSettings_normal hnormalized
    apply withImmediate_settles hs
    intro _ s' h
    obtain ⟨_, -, h⟩ := bind_eq_ok.mp h
    obtain ⟨_, -, h⟩ := bind_eq_ok.mp h
    obtain ⟨t, ht, h⟩ := bind_eq_ok.mp h
    cases h
    obtain ⟨hsound, hroomy, hsame⟩ :=
      appendEventsLocked_sound (hs.toSound.settings normalized) ht
    exact ⟨hsound, hsame.symm ▸ hnormal, hsame.symm ▸ hroomy⟩

theorem deleteClearedLocked_trimmed {beforeTimestamp : ℤ} (hs : Sound digest s)
    (h : deleteClearedLocked world beforeTimestamp s = .ok (deleted, s')) : Trimmed s s' := by
  unfold deleteClearedLocked at h
  split at h
  · exact deleteAllLocked_trimmed h
  · exact deleteTimestampPrefixLocked_trimmed hs.chained h

theorem clear_settles (hs : Honest digest s) (beforeTimestamp : ℤ) :
    Settles digest s (clear world beforeTimestamp s) := by
  apply withImmediate_settles hs
  intro _ s' h
  exact hs.trimmed (deleteClearedLocked_trimmed hs.toSound h)

theorem clearWithControl_settles (hs : Honest digest s) (beforeTimestamp : ℤ) (control : Event) :
    Settles digest s (clearWithControl world sanitizer digest beforeTimestamp control s) := by
  apply withImmediate_settles hs
  intro _ s' h
  obtain ⟨settings, hsettings, h⟩ := bind_eq_ok.mp h
  obtain rfl := getSettingsFrom_eq hs.normal hsettings
  obtain ⟨⟨deleted, t⟩, ht, h⟩ := bind_eq_ok.mp h
  obtain ⟨u, hu, h⟩ := bind_eq_ok.mp h
  cases h
  have htrimmed := hs.trimmed (deleteClearedLocked_trimmed hs.toSound ht)
  have hsettings' := (deleteClearedLocked_trimmed hs.toSound ht).settings
  obtain ⟨hsound, hroomy, hsame⟩ := appendEventsLocked_sound htrimmed.toSound hu
  refine ⟨hsound, hsame.symm ▸ htrimmed.normal, ?_⟩
  rw [hsame, hsettings']
  exact hroomy

/-! ### Runs -/

inductive Operation where
  | append (event : Event)
  | appendBatch (events : List Event)
  | appendControl (event : Event)
  | updateSettings (settings : Settings)
  | updateSettingsWithControl (settings : Settings) (control : Event)
  | clear (beforeTimestamp : ℤ)
  | clearWithControl (beforeTimestamp : ℤ) (control : Event)

/-- An operation in a world: its error, and the store behind it. -/
def perform (sanitizer : Sanitizer) (digest : Text → Text) (s : Store) :
    World × Operation → Except String Unit × Store
  | (world, .append event) => append world sanitizer digest event s
  | (world, .appendBatch events) => appendEvents world sanitizer digest events s
  | (world, .appendControl event) => appendControl world sanitizer digest event s
  | (world, .updateSettings settings) => updateSettings world sanitizer settings s
  | (world, .updateSettingsWithControl settings control) =>
    updateSettingsWithControl world sanitizer digest settings control s
  | (world, .clear beforeTimestamp) =>
    let (result, s) := clear world beforeTimestamp s
    (result.map fun _ => (), s)
  | (world, .clearWithControl beforeTimestamp control) =>
    let (result, s) := clearWithControl world sanitizer digest beforeTimestamp control s
    (result.map fun _ => (), s)

/-- The store behind an operation. -/
def step (sanitizer : Sanitizer) (digest : Text → Text) (s : Store)
    (action : World × Operation) : Store := (perform sanitizer digest s action).2

theorem Settles.dropResult {done : Except String α × Store} (h : Settles digest s done) :
    Settles digest s (done.1.map fun _ => (), done.2) := by
  refine ⟨h.honest, ?_⟩
  intro err herr
  cases hresult : done.1 with
  | error err' => exact h.failed err' hresult
  | ok result => rw [hresult] at herr; cases herr

theorem perform_settles (hs : Honest digest s) (action : World × Operation) :
    Settles digest s (perform sanitizer digest s action) := by
  obtain ⟨world, operation⟩ := action
  cases operation with
  | append event => exact appendBatch_settles hs [event] false
  | appendBatch events => exact appendBatch_settles hs events false
  | appendControl event => exact appendBatch_settles hs [event] true
  | updateSettings settings => exact updateSettings_settles hs settings
  | updateSettingsWithControl settings control =>
    exact updateSettingsWithControl_settles hs settings control
  | clear beforeTimestamp => exact (clear_settles hs beforeTimestamp).dropResult
  | clearWithControl beforeTimestamp control =>
    exact (clearWithControl_settles hs beforeTimestamp control).dropResult

/-- The records and the settings are as before if the operation has failed. -/
def UnchangedIfFailed (sanitizer : Sanitizer) (digest : Text → Text) (s : Store)
    (action : World × Operation) (s' : Store) : Prop :=
  ∀ err, (perform sanitizer digest s action).1 = .error err →
    s'.events = s.events ∧ s'.settings = s.settings

/-- **Every run of operations keeps the log honest.** -/
theorem run_honest (sanitizer : Sanitizer) (digest : Text → Text)
    (actions : List (World × Operation)) :
    let s := Machine.run (step sanitizer digest) .empty actions
    s.events <:+ s.appended ∧ reports digest s.events true ∧
      (∀ world settings, getSettingsFrom world sanitizer.unicode s = .ok settings →
        s.events.length ≤ settings.maxRecords) ∧
      Machine.Throughout (step sanitizer digest) (UnchangedIfFailed sanitizer digest) .empty
        actions := by
  have hstep : ∀ s action, True → Honest digest s → Honest digest (step sanitizer digest s action) :=
    fun s action _ hs => (perform_settles hs action).honest
  have halong : ∀ (actions : List (World × Operation)) s,
      Machine.Along (step sanitizer digest) (fun _ _ => True) s actions := by
    intro actions
    induction actions with
    | nil => exact fun _ => trivial
    | cons action actions ih => exact fun s => ⟨trivial, ih _⟩
  have hrun := Machine.run_induction hstep (halong actions .empty) honest_empty
  refine ⟨hrun.kept, reports_true.mpr hrun.chained, ?_, ?_⟩
  · intro world settings h
    rw [getSettingsFrom_eq hrun.normal h]
    exact hrun.roomy
  · exact Machine.throughout_of_step hstep
      (fun s action _ hs => (perform_settles hs action).failed) (halong actions .empty)
      honest_empty

end GoNavi.Sqlaudit
