import GoNavi.Json.Render

/-! # Audit records

An `Event` is one record of the SQL audit log.  Its hash is the digest of its canonical JSON
form, which writes every field but the hash itself, the counters `executedCount`, `failedIndex`
and `outcomeUnknown` only when they are not zero.  The digest (SHA-256, in hexadecimal) is a
parameter.

**The canonical form is injective** on records whose texts are well formed
(`canonicalEvent_injective`), and it always shows the sequence number
(`sequence_of_alike`). -/

namespace GoNavi.Sqlaudit

open Scan Json List

@[ext] structure Event where
  id : Text
  sequence : ℤ
  timestamp : ℤ
  eventType : Text
  status : Text
  connectionID : Text
  connectionFingerprint : Text
  dbType : Text
  database : Text
  queryID : Text
  transactionID : Text
  source : Text
  boundaryMode : Text
  commitMode : Text
  sqlText : Text
  sqlRedacted : Bool
  sqlFingerprint : Text
  statementIndex : ℤ
  statementCount : ℤ
  executedCount : ℤ
  failedIndex : ℤ
  outcomeUnknown : Bool
  durationMs : ℤ
  rowsAffected : ℤ
  rowsReturned : ℤ
  error : Text
  prevHash : Text
  hash : Text
  deriving DecidableEq

def chainVersion : Text := bytes "sqlaudit-chain-v1"

/-- `json:",omitempty"`: a field that is left out when it has its zero value. -/
def omitEmpty (key : Text) (value : Value) : List (Text × Value) :=
  if value = .int 0 ∨ value = .bool false then [] else [(key, value)]

/-- The fields of the canonical form, in order. -/
def canonicalEvent (event : Event) : List (Text × Value) :=
  [(bytes "version", .str chainVersion),
    (bytes "id", .str event.id),
    (bytes "sequence", .int event.sequence),
    (bytes "timestamp", .int event.timestamp),
    (bytes "eventType", .str event.eventType),
    (bytes "status", .str event.status),
    (bytes "connectionId", .str event.connectionID),
    (bytes "connectionFingerprint", .str event.connectionFingerprint),
    (bytes "dbType", .str event.dbType),
    (bytes "database", .str event.database),
    (bytes "queryId", .str event.queryID),
    (bytes "transactionId", .str event.transactionID),
    (bytes "source", .str event.source),
    (bytes "boundaryMode", .str event.boundaryMode),
    (bytes "commitMode", .str event.commitMode),
    (bytes "sqlText", .str event.sqlText),
    (bytes "sqlRedacted", .bool event.sqlRedacted),
    (bytes "sqlFingerprint", .str event.sqlFingerprint),
    (bytes "statementIndex", .int event.statementIndex),
    (bytes "statementCount", .int event.statementCount)] ++
  (omitEmpty (bytes "executedCount") (.int event.executedCount) ++
  (omitEmpty (bytes "failedIndex") (.int event.failedIndex) ++
  (omitEmpty (bytes "outcomeUnknown") (.bool event.outcomeUnknown) ++
  [(bytes "durationMs", .int event.durationMs),
    (bytes "rowsAffected", .int event.rowsAffected),
    (bytes "rowsReturned", .int event.rowsReturned),
    (bytes "error", .str event.error),
    (bytes "prevHash", .str event.prevHash)])))

/-- `calculateEventHash`, for a digest of the canonical form. -/
def calculateEventHash (digest : Text → Text) (event : Event) : Text :=
  digest (object (canonicalEvent event))

/-- The texts of the canonical form. -/
def Event.texts (event : Event) : List Text :=
  [event.id, event.eventType, event.status, event.connectionID, event.connectionFingerprint,
    event.dbType, event.database, event.queryID, event.transactionID, event.source,
    event.boundaryMode, event.commitMode, event.sqlText, event.sqlFingerprint, event.error,
    event.prevHash]

/-- The texts of the record are well-formed UTF-8. -/
def Event.wellFormed (event : Event) : Bool := event.texts.all validString

/-- The keys of the canonical form. -/
def canonicalKeys : List Text :=
  [bytes "version", bytes "id", bytes "sequence", bytes "timestamp", bytes "eventType",
    bytes "status", bytes "connectionId", bytes "connectionFingerprint", bytes "dbType",
    bytes "database", bytes "queryId", bytes "transactionId", bytes "source",
    bytes "boundaryMode", bytes "commitMode", bytes "sqlText", bytes "sqlRedacted",
    bytes "sqlFingerprint", bytes "statementIndex", bytes "statementCount",
    bytes "executedCount", bytes "failedIndex", bytes "outcomeUnknown", bytes "durationMs",
    bytes "rowsAffected", bytes "rowsReturned", bytes "error", bytes "prevHash"]

theorem mem_omitEmpty {key : Text} {value : Value} {m : Text × Value}
    (h : m ∈ omitEmpty key value) : m = (key, value) := by
  unfold omitEmpty at h
  split at h
  · cases h
  · exact mem_singleton.mp h

/-- A field that is left out can be told from one that is there. -/
theorem omitEmpty_cancel {key : Text} {v v' : Value} {ms ms' : List (Text × Value)}
    (hzero : v ∈ [Value.int 0, .bool false] → v' ∈ [Value.int 0, .bool false] → v = v')
    (hms : ∀ m ∈ ms.head?, m.1 ≠ key) (hms' : ∀ m ∈ ms'.head?, m.1 ≠ key)
    (h : omitEmpty key v ++ ms = omitEmpty key v' ++ ms') : v = v' ∧ ms = ms' := by
  unfold omitEmpty at h
  split at h <;> split at h <;> rename_i hv hv'
  · exact ⟨hzero (by simpa using hv) (by simpa using hv'), h⟩
  · rw [nil_append] at h
    exact absurd rfl (hms (key, v') (by rw [h]; rfl))
  · rw [nil_append] at h
    exact absurd rfl (hms' (key, v) (by rw [← h]; rfl))
  · obtain ⟨hm, hrest⟩ := List.cons.inj h
    exact ⟨(Prod.ext_iff.mp hm).2, hrest⟩

theorem head_omitEmpty {key key' : Text} {v : Value} {ms : List (Text × Value)}
    (hkey : key' ≠ key) (hms : ∀ m ∈ ms.head?, m.1 ≠ key) :
    ∀ m ∈ (omitEmpty key' v ++ ms).head?, m.1 ≠ key := by
  unfold omitEmpty
  split
  · exact hms
  · intro m hm
    obtain rfl : (key', v) = m := by simpa using hm
    exact hkey

theorem forall_canonicalEvent {P : Text × Value → Prop} (event : Event)
    (hstr : ∀ key ∈ canonicalKeys, ∀ t ∈ chainVersion :: event.texts, P (key, .str t))
    (hint : ∀ key ∈ canonicalKeys, ∀ n, P (key, .int n))
    (hbool : ∀ key ∈ canonicalKeys, ∀ b, P (key, .bool b)) : ∀ m ∈ canonicalEvent event, P m := by
  have homit : ∀ key v, P (key, v) → ∀ m ∈ omitEmpty key v, P m := by
    intro key v h m hm
    rw [mem_omitEmpty hm]
    exact h
  intro m hm
  simp only [canonicalEvent, mem_append] at hm
  rcases hm with hm | hm | hm | hm | hm
  · revert m
    simp only [forall_mem_cons, not_mem_nil, false_implies, implies_true, and_true]
    refine ⟨?_, ?_, ?_, ?_, ?_, ?_, ?_, ?_, ?_, ?_, ?_, ?_, ?_, ?_, ?_, ?_, ?_, ?_, ?_, ?_⟩ <;>
      first
      | exact hstr _ (by simp [canonicalKeys]) _ (by simp [Event.texts])
      | exact hint _ (by simp [canonicalKeys]) _
      | exact hbool _ (by simp [canonicalKeys]) _
  · exact homit _ _ (hint _ (by simp [canonicalKeys]) _) m hm
  · exact homit _ _ (hint _ (by simp [canonicalKeys]) _) m hm
  · exact homit _ _ (hbool _ (by simp [canonicalKeys]) _) m hm
  · revert m
    simp only [forall_mem_cons, not_mem_nil, false_implies, implies_true, and_true]
    refine ⟨?_, ?_, ?_, ?_, ?_⟩ <;>
      first
      | exact hstr _ (by simp [canonicalKeys]) _ (by simp [Event.texts])
      | exact hint _ (by simp [canonicalKeys]) _

theorem valid_canonicalEvent {event : Event} (h : event.wellFormed = true) :
    ∀ m ∈ canonicalEvent event, validString m.1 = true ∧ m.2.valid = true := by
  have hkey : ∀ key ∈ canonicalKeys, validString key = true :=
    all_eq_true.mp (by decide)
  apply forall_canonicalEvent
  · intro key hk t ht
    refine ⟨hkey key hk, ?_⟩
    cases ht with
    | head => exact (by decide : validString chainVersion = true)
    | tail _ ht => exact all_eq_true.mp h t ht
  · exact fun key hk n => ⟨hkey key hk, rfl⟩
  · exact fun key hk b => ⟨hkey key hk, rfl⟩

/-- **The canonical form tells records apart.** -/
theorem canonicalEvent_injective {event event' : Event} (hhash : event.hash = event'.hash)
    (h : canonicalEvent event = canonicalEvent event') : event = event' := by
  obtain ⟨hfront, hrest⟩ := append_inj h rfl
  have hint : ∀ m n : ℤ, Value.int m ∈ [Value.int 0, .bool false] →
      Value.int n ∈ [Value.int 0, .bool false] → Value.int m = .int n := by
    simp
  have hbool : ∀ b c : Bool, Value.bool b ∈ [Value.int 0, .bool false] →
      Value.bool c ∈ [Value.int 0, .bool false] → Value.bool b = .bool c := by
    simp
  -- Behind each field that may be left out, the next one has another key.
  have hduration : ∀ key ∈ [bytes "executedCount", bytes "failedIndex", bytes "outcomeUnknown"],
      ∀ (v : Value) ms, ∀ m ∈ ((bytes "durationMs", v) :: ms).head?, m.1 ≠ key := by
    intro key hk v ms m hm
    obtain rfl : (bytes "durationMs", v) = m := by simpa using hm
    show bytes "durationMs" ≠ key
    clear hm
    revert key
    decide
  obtain ⟨hexecuted, hrest⟩ := omitEmpty_cancel (hint _ _)
    (head_omitEmpty (by decide) (head_omitEmpty (by decide) (hduration _ (by simp) _ _)))
    (head_omitEmpty (by decide) (head_omitEmpty (by decide) (hduration _ (by simp) _ _))) hrest
  obtain ⟨hfailed, hrest⟩ := omitEmpty_cancel (hint _ _)
    (head_omitEmpty (by decide) (hduration _ (by simp) _ _))
    (head_omitEmpty (by decide) (hduration _ (by simp) _ _)) hrest
  obtain ⟨houtcome, hback⟩ := omitEmpty_cancel (hbool _ _)
    (hduration _ (by simp) _ _) (hduration _ (by simp) _ _) hrest
  simp only [List.cons.injEq, Prod.mk.injEq, Value.str.injEq, Value.int.injEq,
    Value.bool.injEq, true_and, and_true] at hfront hback hexecuted hfailed houtcome
  obtain ⟨hid, hsequence, htimestamp, htype, hstatus, hconnection, hfingerprint, hdbType,
    hdatabase, hquery, htransaction, hsource, hboundary, hcommit, hsql, hredacted, hsqlPrint,
    hindex, hcount⟩ := hfront
  obtain ⟨hms, haffected, hreturned, herror, hprev⟩ := hback
  exact Event.ext hid hsequence htimestamp htype hstatus hconnection hfingerprint hdbType
    hdatabase hquery htransaction hsource hboundary hcommit hsql hredacted hsqlPrint hindex
    hcount hexecuted hfailed houtcome hms haffected hreturned herror hprev hhash

/-- Canonical forms that look the same have the same sequence number. -/
theorem sequence_of_alike {event event' : Event}
    (h : Alike (canonicalEvent event) (canonicalEvent event')) :
    event.sequence = event'.sequence := by
  cases h with
  | cons _ h =>
    cases h with
    | cons _ h =>
      cases h with
      | cons hsequence _ => exact integer_injective hsequence.2

variable {digest : Text → Text} {event event' : Event}

/-- **The hash tells a well-formed record from every other one.** -/
theorem eq_of_calculateEventHash_eq (hdigest : Function.Injective digest)
    (hformed : event.wellFormed = true) (hhash : event.hash = event'.hash)
    (h : calculateEventHash digest event = calculateEventHash digest event') : event = event' :=
  canonicalEvent_injective hhash
    (object_injective (valid_canonicalEvent hformed) (hdigest h))

theorem sequence_of_calculateEventHash_eq (hdigest : Function.Injective digest)
    (h : calculateEventHash digest event = calculateEventHash digest event') :
    event.sequence = event'.sequence :=
  sequence_of_alike (object_alike (hdigest h))

end GoNavi.Sqlaudit
