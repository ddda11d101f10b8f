import GoNavi.Machine.Chain
import GoNavi.Sqlaudit.Event

/-! # Verification of the audit chain

`verifyIntegrityRows` reads the records in order of their sequence numbers and stops at the first
one whose number, link or hash is wrong.  Reading can fail, and the caller can cancel it.

**The report is valid exactly for valid chains** (`verifyIntegrity_spec`), so what a chain of
well-formed records says about tampering (`Chain.not_valid_set` and the rules beside it) is what
the report says. -/

namespace GoNavi.Sqlaudit

open Scan Json

/-! ### Reports -/

structure IntegrityReport where
  valid : Bool
  weakValidation : Bool
  partialChain : Bool
  truncatedPrefix : Bool
  algorithm : String
  checkedRecords : ℤ
  firstSequence : ℤ
  lastSequence : ℤ
  invalidSequence : ℤ
  message : String
  deriving DecidableEq

def integrityAlgorithm : String := "sha256-canonical-v1"

def newIntegrityReport : IntegrityReport where
  valid := true
  weakValidation := true
  partialChain := false
  truncatedPrefix := false
  algorithm := integrityAlgorithm
  checkedRecords := 0
  firstSequence := 0
  lastSequence := 0
  invalidSequence := 0
  message := "ok (unkeyed local hash chain; weak validation)"

def invalidIntegrityReport (report : IntegrityReport) (sequence : ℤ) (message : String) :
    IntegrityReport :=
  { report with
    valid := false
    invalidSequence := sequence
    message := message ++ " (unkeyed local hash chain; weak validation)" }

/-! ### The loop -/

/-- The variables of the loop. -/
structure Verifier where
  report : IntegrityReport
  previousHash : Text
  previousSequence : ℤ
  firstRecord : Bool

/-- The report once the record is counted. -/
def countRecord (v : Verifier) (event : Event) : IntegrityReport :=
  { v.report with
    checkedRecords := v.report.checkedRecords + 1
    firstSequence := if v.firstRecord then event.sequence else v.report.firstSequence
    lastSequence := event.sequence }

/-- The report of a first record: whether records in front of it are gone. -/
def startChain (report : IntegrityReport) (event : Event) : IntegrityReport :=
  let partialChain := decide (event.sequence > 1 ∨ event.prevHash ≠ [])
  { report with
    partialChain
    truncatedPrefix := partialChain
    message :=
      if partialChain then "ok (partial chain after prefix retention; unkeyed weak validation)"
      else report.message }

/-- The checks of one record: the report of a failed one, or the variables for the next. -/
def checkRecord (digest : Text → Text) (v : Verifier) (event : Event) :
    Except IntegrityReport Verifier :=
  let report := countRecord v event
  if event.sequence ≤ 0 then
    throw (invalidIntegrityReport report event.sequence "sequence must be positive")
  else
    let isFirst := v.firstRecord
    let report := if isFirst then startChain report event else report
    if ¬ isFirst ∧ event.sequence ≤ v.previousSequence then
      throw (invalidIntegrityReport report event.sequence "sequence order is invalid")
    else if ¬ isFirst ∧ event.prevHash ≠ v.previousHash then
      throw (invalidIntegrityReport report event.sequence "previous hash does not match")
    else if event.hash ≠ calculateEventHash digest event then
      throw (invalidIntegrityReport report event.sequence "record hash does not match")
    else
      return {
        report
        previousHash := event.hash
        previousSequence := event.sequence
        firstRecord := false }

/-- What reading the rows runs into: the error of the context, asked in front of each row and
behind it, and the error that ends the rows. -/
structure Reading where
  ctxErr : ℕ → Option String
  rowsErr : Option String

/-- A reading that runs into nothing. -/
def Reading.quiet : Reading := ⟨fun _ => none, none⟩

def verifyIntegrityRows (digest : Text → Text) (reading : Reading) :
    ℕ → Verifier → List (Except String Event) → Except String IntegrityReport
  | _, v, [] =>
    match reading.rowsErr with
    | some err => throw ("iterate sql audit chain: " ++ err)
    | none => return v.report
  | asked, v, row :: rows =>
    match reading.ctxErr asked with
    | some err => throw ("verify SQL audit chain: " ++ err)
    | none =>
      match row with
      | .error err => throw ("scan SQL audit event: " ++ err)
      | .ok event =>
        match reading.ctxErr (asked + 1) with
        | some err => throw ("verify SQL audit chain: " ++ err)
        | none =>
          match checkRecord digest v event with
          | .error report => return report
          | .ok v => verifyIntegrityRows digest reading (asked + 2) v rows

def newVerifier : Verifier := ⟨newIntegrityReport, [], 0, true⟩

/-- `VerifyIntegrity` of the records, read in order without a fault. -/
def verifyIntegrity (digest : Text → Text) (events : List Event) : Except String IntegrityReport :=
  verifyIntegrityRows digest .quiet 0 newVerifier (events.map .ok)

/-! ### What a valid report says -/

/-- What the chain reads of a record. -/
def sealing (digest : Text → Text) : Chain.Sealing Event Text where
  number := Event.sequence
  prev := Event.prevHash
  mark := Event.hash
  digest := calculateEventHash digest

variable {digest : Text → Text} {v v' : Verifier} {event : Event} {events : List Event}

/-- The record fits behind what the loop has seen. -/
def Fits (v : Verifier) (event : Event) : Prop :=
  v.firstRecord = false → v.previousSequence < event.sequence ∧ event.prevHash = v.previousHash

/-- A record that passes is numbered, linked and hashed as it should be, and is what the next
one is compared with. -/
theorem checkRecord_ok (h : checkRecord digest v event = .ok v') :
    0 < event.sequence ∧ Fits v event ∧ event.hash = calculateEventHash digest event ∧
      v'.previousHash = event.hash ∧ v'.previousSequence = event.sequence ∧
      v'.firstRecord = false ∧ v'.report.valid = v.report.valid := by
  unfold checkRecord at h
  dsimp only at h
  split at h
  · cases h
  · split at h
    · cases h
    · split at h
      · cases h
      · split at h
        · cases h
        · rename_i hpositive horder hlink hhash
          cases h
          refine ⟨by omega, ?_, of_not_not hhash, rfl, rfl, rfl, ?_⟩
          · intro hfirst
            simp only [hfirst, Bool.false_eq_true, not_false_eq_true, true_and, not_le,
              ne_eq, not_not] at horder hlink
            exact ⟨horder, hlink⟩
          · cases hfirst : v.firstRecord <;> simp [startChain, countRecord]

/-- A record that fails makes the report invalid, for one of the reasons. -/
theorem checkRecord_error {report : IntegrityReport}
    (h : checkRecord digest v event = .error report) :
    report.valid = false ∧
      ¬ (0 < event.sequence ∧ Fits v event ∧ event.hash = calculateEventHash digest event) := by
  unfold checkRecord at h
  dsimp only at h
  split at h
  · cases h
    exact ⟨rfl, by omega⟩
  · split at h
    · rename_i horder
      cases h
      refine ⟨rfl, fun hall => ?_⟩
      have := (hall.2.1 (by simpa using horder.1)).1
      omega
    · split at h
      · rename_i hlink
        cases h
        exact ⟨rfl, fun hall => hlink.2 (hall.2.1 (by simpa using hlink.1)).2⟩
      · split at h
        · rename_i hhash
          cases h
          exact ⟨rfl, fun hall => hhash hall.2.2⟩
        · cases h

/-- The loop reports, and its report is valid when the rest is a chain that fits. -/
theorem verifyIntegrityRows_spec : ∀ (events : List Event) (asked : ℕ) (v : Verifier),
    v.report.valid = true →
    ∃ report, verifyIntegrityRows digest .quiet asked v (events.map .ok) = .ok report ∧
      (report.valid = true ↔
        Chain.Valid (sealing digest) events ∧ ∀ event ∈ events.head?, Fits v event)
  | [], _, v, hv => ⟨v.report, rfl, by simp [hv, Chain.valid_nil]⟩
  | event :: events, asked, v, hv => by
    rw [List.map_cons, verifyIntegrityRows]
    simp only [Reading.quiet, List.head?_cons, Option.mem_def, Option.some.injEq, forall_eq']
    cases hcheck : checkRecord digest v event with
    | error report =>
      obtain ⟨hinvalid, hnot⟩ := checkRecord_error hcheck
      refine ⟨report, rfl, ?_⟩
      rw [hinvalid, Chain.valid_cons]
      simp only [Bool.false_eq_true, false_iff]
      rintro ⟨⟨hpositive, hmarked, -, -⟩, hfits⟩
      exact hnot ⟨hpositive, hfits, hmarked⟩
    | ok next =>
      obtain ⟨hpositive, hfits, hmarked, hhash, hsequence, hfirst, hvalid⟩ :=
        checkRecord_ok hcheck
      obtain ⟨report, hreport, hiff⟩ :=
        verifyIntegrityRows_spec events (asked + 2) next (hvalid.trans hv)
      refine ⟨report, hreport, ?_⟩
      rw [hiff, Chain.valid_cons]
      -- What fits behind the loop's variables follows the record.
      have hfollows : ∀ e, Fits next e ↔ Chain.Follows (sealing digest) event e := by
        intro e
        unfold Fits Chain.Follows
        rw [hhash, hsequence]
        exact forall_prop_of_true hfirst
      simp only [hfollows]
      constructor
      · rintro ⟨hchain, hhead⟩
        exact ⟨⟨hpositive, hmarked, hhead, hchain⟩, hfits⟩
      · rintro ⟨⟨-, -, hhead, hchain⟩, -⟩
        exact ⟨hchain, hhead⟩

/-- **The report is valid exactly for valid chains.** -/
theorem verifyIntegrity_spec (digest : Text → Text) (events : List Event) :
    ∃ report, verifyIntegrity digest events = .ok report ∧
      (report.valid = true ↔ Chain.Valid (sealing digest) events) := by
  obtain ⟨report, hreport, hiff⟩ : ∃ report, verifyIntegrity digest events = .ok report ∧ _ :=
    verifyIntegrityRows_spec events 0 newVerifier rfl
  refine ⟨report, hreport, hiff.trans ?_⟩
  exact and_iff_left fun event _ hfirst => nomatch hfirst

/-- The report says that the chain is valid, or that it is not. -/
def reports (digest : Text → Text) (events : List Event) (valid : Bool) : Prop :=
  ∃ report, verifyIntegrity digest events = .ok report ∧ report.valid = valid

theorem reports_true : reports digest events true ↔ Chain.Valid (sealing digest) events := by
  obtain ⟨report, hreport, hiff⟩ := verifyIntegrity_spec digest events
  rw [← hiff, reports, hreport]
  simp

theorem reports_false : reports digest events false ↔ ¬ Chain.Valid (sealing digest) events := by
  obtain ⟨report, hreport, hiff⟩ := verifyIntegrity_spec digest events
  rw [← hiff, reports, hreport]
  simp

/-! ### Tampering -/

/-- **Tampering with a valid chain is reported**: changed fields of a record whose texts are
well formed, a record missing between others, two records that change places. -/
theorem tampering_reported (hdigest : Function.Injective digest)
    (hchain : reports digest events true) :
    (∀ i (hi : i < events.length) (event : Event), events[i].wellFormed = true →
      event.hash = events[i].hash → event ≠ events[i] →
      reports digest (events.set i event) false) ∧
    (∀ i, 0 < i → i + 1 < events.length → reports digest (events.eraseIdx i) false) ∧
    (∀ i j, i < events.length → j < events.length → i ≠ j →
      reports digest (Chain.swap events i j) false) := by
  rw [reports_true] at hchain
  refine ⟨?_, ?_, ?_⟩
  · intro i hi event hformed hhash hne
    rw [reports_false]
    apply Chain.not_valid_set hi
    intro hmark
    -- Then both contents have the hash that was kept.
    have hold : events[i].hash = calculateEventHash digest events[i] :=
      hchain.marked _ (List.getElem_mem hi)
    have hnew : event.hash = calculateEventHash digest event := hmark
    exact hne (eq_of_calculateEventHash_eq hdigest hformed hhash.symm
      (by rw [← hold, ← hnew, hhash])).symm
  · intro i hfirst hlast
    rw [reports_false]
    exact Chain.not_valid_eraseIdx hchain
      (fun r _ s _ h => sequence_of_calculateEventHash_eq hdigest h) hfirst hlast
  · intro i j hi hj hij
    rw [reports_false]
    exact Chain.not_valid_swap hchain hi hj hij

/-- A record with nothing but its place in the chain, under its hash. -/
def bareEvent (digest : Text → Text) (id : Text) (sequence : ℤ) (prevHash : Text) : Event :=
  let event : Event := {
    id, sequence, prevHash, timestamp := 0, eventType := [], status := [], connectionID := [],
    connectionFingerprint := [], dbType := [], database := [], queryID := [],
    transactionID := [], source := [], boundaryMode := [], commitMode := [], sqlText := [],
    sqlRedacted := true, sqlFingerprint := [], statementIndex := 0, statementCount := 0,
    executedCount := 0, failedIndex := 0, outcomeUnknown := false, durationMs := 0,
    rowsAffected := 0, rowsReturned := 0, error := [], hash := [] }
  { event with hash := calculateEventHash digest event }

theorem bareEvent_marked (digest : Text → Text) (id : Text) (sequence : ℤ) (prevHash : Text) :
    (sealing digest).mark (bareEvent digest id sequence prevHash) =
      (sealing digest).digest (bareEvent digest id sequence prevHash) := rfl

/-- A chain of three records, of which the first one names a record that is gone. -/
def bareChain (digest : Text → Text) : List Event :=
  let first := bareEvent digest (bytes "a") 4 (bytes "gone")
  let second := bareEvent digest (bytes "b") 5 first.hash
  [first, second, bareEvent digest (bytes "c") 7 second.hash]

theorem bareChain_reported (digest : Text → Text) : reports digest (bareChain digest) true := by
  rw [reports_true]
  refine ⟨?_, ?_, ?_⟩
  · simp [bareChain, sealing, bareEvent]
  · simp only [bareChain, List.forall_mem_cons, bareEvent_marked, List.not_mem_nil,
      false_implies, implies_true, and_true]
  · exact .cons_cons ⟨(by decide : (4 : ℤ) < 5), rfl⟩
      (.cons_cons ⟨(by decide : (5 : ℤ) < 7), rfl⟩ (.singleton _))

theorem tampering_reported_bare :
    reports id ((bareChain id).set 0 { bareEvent id (bytes "z") 4 (bytes "gone") with
      hash := (bareEvent id (bytes "a") 4 (bytes "gone")).hash }) false ∧
    reports id ((bareChain id).eraseIdx 1) false ∧
    reports id (Chain.swap (bareChain id) 0 2) false := by
  obtain ⟨hset, herase, hswap⟩ :=
    tampering_reported Function.injective_id (bareChain_reported id)
  refine ⟨hset 0 (by decide) _ (by decide) rfl ?_, herase 1 (by decide) (by decide),
    hswap 0 2 (by decide) (by decide) (by decide)⟩
  intro h
  exact absurd (congrArg Event.id h) (by decide : bytes "z" ≠ bytes "a")

/-- A record that gets another stray byte for an id keeps its hash. -/
theorem calculateEventHash_stray (digest : Text → Text) :
    calculateEventHash digest { bareEvent digest [0xFF] 1 [] with id := [0xFE] } =
      calculateEventHash digest (bareEvent digest [0xFF] 1 []) := by
  have hstray : string [0xFE] = string [0xFF] := by decide
  simp only [calculateEventHash, canonicalEvent, object, fields, List.cons_append, Value.render,
    hstray]
  rfl

/-- **A stray byte can be changed unseen.** -/
theorem stray_byte_unreported :
    ¬ ∀ digest : Text → Text, Function.Injective digest → ∀ events : List Event,
      reports digest events true → ∀ i (hi : i < events.length) (event : Event),
      event.hash = events[i].hash → event ≠ events[i] →
      reports digest (events.set i event) false := by
  intro h
  have hvalid : ∀ event : Event, 0 < event.sequence →
      event.hash = calculateEventHash id event → reports id [event] true := by
    intro event hpositive hmarked
    rw [reports_true, Chain.valid_cons]
    exact ⟨hpositive, hmarked, by simp, Chain.valid_nil⟩
  have hreported := h id Function.injective_id [bareEvent id [0xFF] 1 []]
    (hvalid _ (by decide : (0 : ℤ) < 1) rfl) 0 Nat.zero_lt_one
    { bareEvent id [0xFF] 1 [] with id := [0xFE] } rfl
    (fun heq => absurd (congrArg Event.id heq) (by decide : [(0xFE : UInt8)] ≠ [0xFF]))
  rw [reports_false] at hreported
  exact hreported (reports_true.mp
    (hvalid _ (by decide : (0 : ℤ) < 1) (calculateEventHash_stray id).symm))

end GoNavi.Sqlaudit
