import GoNavi.Sql.Chunk
import GoNavi.Sql.Coverage

/-! # The size limit of a statement

`streamSQLFileWithOptions` feeds a file to a splitter whose statement under construction is in a
builder with a limit.  A builder that is full drops what is written to it and notes where in the
file the first byte was that did not fit; the loop of `Feed` stops there, and the statements
completed before are still handed to the callback. -/

namespace GoNavi.Sql

open Scan List

/-! ### The builder -/

structure SQLStatementTooLargeError where
  statementIndex : ℕ
  sourceByte : ℕ
  maxBytes : ℕ
deriving DecidableEq

/-- `sqlStatementBuilder`, for a limit that is a parameter of what is written. -/
structure SqlStatementBuilder where
  text : Text
  sourceOffset : ℕ
  statementIndex : ℕ
  limitErr : Option SQLStatementTooLargeError
deriving DecidableEq

variable {err : SQLStatementTooLargeError}

namespace SqlStatementBuilder

variable (maxBytes : ℕ)

def writeByte (builder : SqlStatementBuilder) (value : UInt8) : SqlStatementBuilder :=
  if builder.limitErr.isSome then { builder with sourceOffset := builder.sourceOffset + 1 }
  else if 0 < maxBytes ∧ maxBytes ≤ builder.text.length then
    { builder with
      limitErr := some ⟨builder.statementIndex, builder.sourceOffset + 1, maxBytes⟩
      sourceOffset := builder.sourceOffset + 1 }
  else
    { builder with
      text := builder.text ++ [value]
      sourceOffset := builder.sourceOffset + 1 }

def writeString (builder : SqlStatementBuilder) (value : Text) : SqlStatementBuilder :=
  if builder.limitErr.isSome then
    { builder with sourceOffset := builder.sourceOffset + value.length }
  else if 0 < maxBytes ∧ maxBytes - builder.text.length < value.length then
    let allowed := maxBytes - builder.text.length
    { builder with
      text := builder.text ++ value.take allowed
      limitErr := some ⟨builder.statementIndex, builder.sourceOffset + allowed + 1, maxBytes⟩
      sourceOffset := builder.sourceOffset + value.length }
  else
    { builder with
      text := builder.text ++ value
      sourceOffset := builder.sourceOffset + value.length }

variable {maxBytes : ℕ} {builder : SqlStatementBuilder} {x y : Text}

theorem writeString_full (h : builder.limitErr.isSome) : builder.writeString maxBytes x =
    { builder with sourceOffset := builder.sourceOffset + x.length } :=
  if_pos h

theorem writeString_over (h : ¬ builder.limitErr.isSome) (hpos : 0 < maxBytes)
    (hover : maxBytes - builder.text.length < x.length) : builder.writeString maxBytes x =
    ⟨builder.text ++ x.take (maxBytes - builder.text.length), builder.sourceOffset + x.length,
      builder.statementIndex, some ⟨builder.statementIndex,
        builder.sourceOffset + (maxBytes - builder.text.length) + 1, maxBytes⟩⟩ :=
  (if_neg h).trans (if_pos ⟨hpos, hover⟩)

theorem writeString_fits (h : ¬ builder.limitErr.isSome)
    (hfits : 0 < maxBytes → x.length ≤ maxBytes - builder.text.length) :
    builder.writeString maxBytes x = { builder with
      text := builder.text ++ x, sourceOffset := builder.sourceOffset + x.length } :=
  (if_neg h).trans (if_neg fun hover => absurd (hfits hover.1) (Nat.not_le.mpr hover.2))

theorem writeString_nil : builder.writeString maxBytes [] = builder := by
  by_cases h : builder.limitErr.isSome
  · exact writeString_full h
  · rw [writeString_fits h fun _ => Nat.zero_le _, append_nil]
    rfl

theorem writeString_cons (c : UInt8) : builder.writeString maxBytes (c :: x) =
    (builder.writeByte maxBytes c).writeString maxBytes x := by
  have hoffset : builder.sourceOffset + (c :: x).length =
      builder.sourceOffset + 1 + x.length := by
    rw [length_cons]
    omega
  unfold writeByte
  split
  · rename_i hfull
    rw [writeString_full hfull, writeString_full (by exact hfull), hoffset]
  · rename_i hroom
    split
    · rename_i hlen
      rw [writeString_over hroom hlen.1 (by rw [length_cons]; omega), writeString_full rfl,
        hoffset, Nat.sub_eq_zero_of_le hlen.2, take_zero, append_nil]
    · rename_i hlen
      have hnext : (builder.text ++ [c]).length = builder.text.length + 1 := by
        rw [length_append, length_singleton]
      by_cases hover : 0 < maxBytes ∧ maxBytes - builder.text.length < (c :: x).length
      · have hleft : maxBytes - builder.text.length = maxBytes - (builder.text.length + 1) + 1 := by
          omega
        have hover' := hover.2
        rw [length_cons] at hover'
        rw [writeString_over hroom hover.1 hover.2,
          writeString_over (by exact hroom) hover.1 (by rw [hnext]; omega)]
        dsimp only
        rw [hoffset, hnext, hleft, take_succ_cons, append_assoc, singleton_append]
        congr 3
        omega
      · rw [length_cons] at hover
        rw [writeString_fits hroom (by rw [length_cons]; omega),
          writeString_fits (by exact hroom) (by rw [hnext]; omega), hoffset]
        rw [append_assoc, singleton_append]

theorem writeString_eq_foldl : builder.writeString maxBytes x =
    x.foldl (writeByte maxBytes) builder := by
  induction x generalizing builder with
  | nil => exact writeString_nil
  | cons c x ih => rw [writeString_cons, ih, foldl_cons]

/-- **A string may be written in parts.** -/
theorem writeString_append : builder.writeString maxBytes (x ++ y) =
    (builder.writeString maxBytes x).writeString maxBytes y := by
  rw [writeString_eq_foldl, foldl_append, ← writeString_eq_foldl, ← writeString_eq_foldl]

theorem limitErr_writeString_full (h : builder.limitErr = some err) :
    (builder.writeString maxBytes x).limitErr = some err := by
  rw [writeString_full (by rw [h]; rfl)]
  exact h

/-- A builder that is not full afterwards has taken all of the string. -/
theorem writeString_of_none (h : (builder.writeString maxBytes x).limitErr = none) :
    builder.writeString maxBytes x = ⟨builder.text ++ x, builder.sourceOffset + x.length,
      builder.statementIndex, none⟩ := by
  unfold writeString at h ⊢
  split at h
  · rename_i hfull
    rw [h] at hfull
    cases hfull
  split at h
  · cases h
  · rename_i hroom hfits
    rw [if_neg hroom, if_neg hfits, h]

theorem length_writeString (h : builder.text.length ≤ maxBytes) (hpos : 0 < maxBytes) :
    (builder.writeString maxBytes x).text.length ≤ maxBytes := by
  unfold writeString
  split
  · exact h
  split
  · dsimp only
    rw [length_append, length_take]
    omega
  · rename_i hfits
    rw [length_append]
    omega

/-- **A builder that becomes full** holds as many bytes as it may, and its error names the offset
of the next one. -/
theorem writeString_of_some (hroom : builder.limitErr = none)
    (hfits : 0 < maxBytes → builder.text.length ≤ maxBytes)
    (h : (builder.writeString maxBytes x).limitErr = some err) :
    ∃ y b z, x = y ++ b :: z ∧ (builder.writeString maxBytes x).text = builder.text ++ y ∧
      (builder.text ++ y).length = maxBytes ∧
      err = ⟨builder.statementIndex, builder.sourceOffset + y.length + 1, maxBytes⟩ := by
  have hempty : ¬ builder.limitErr.isSome := by
    rw [hroom]
    exact Bool.false_ne_true
  by_cases hover : 0 < maxBytes ∧ maxBytes - builder.text.length < x.length
  · rw [writeString_over hempty hover.1 hover.2] at h ⊢
    have hfits := hfits hover.1
    have hlength : (x.take (maxBytes - builder.text.length)).length =
        maxBytes - builder.text.length := length_take_of_le hover.2.le
    refine ⟨x.take (maxBytes - builder.text.length), x[maxBytes - builder.text.length],
      x.drop (maxBytes - builder.text.length + 1), ?_, rfl, ?_, ?_⟩
    · rw [getElem_cons_drop, take_append_drop]
    · rw [length_append, hlength]
      omega
    · rw [hlength]
      exact (Option.some.inj h).symm
  · rw [writeString_fits hempty (by omega), hroom] at h
    cases h

end SqlStatementBuilder

/-! ### The splitter -/

namespace StreamSplitter

/-- `prepareWrite`, of a builder that is not full. -/
def builder (s : StreamSplitter) (sourceOffset statementIndex : ℕ) : SqlStatementBuilder :=
  ⟨s.cur, sourceOffset, statementIndex, none⟩

/-- Carry out an action that takes the bytes `taken`: the new state, the statements that it
completes, and the error of the builder.  To complete a statement resets the builder. -/
def applyLimited (dbType : Text) (maxBytes : ℕ) (s : StreamSplitter)
    (builder : SqlStatementBuilder) (a : StreamAction) (taken : Text) :
    (StreamSplitter × List Text) × Option SQLStatementTooLargeError :=
  let written := builder.writeString maxBytes taken
  match a.effect with
  | .keep =>
    (({ s with cur := written.text, mode := a.mode, block := a.block }, []), written.limitErr)
  | .keepPush =>
    let completed := Splitter.piece dbType written.text
    (({ s with
      cur := [], mode := a.mode, block := a.block
      sqlServerBatch := s.batchAfter dbType completed }, completed), none)
  | _ => (s.apply dbType a taken, none)

end StreamSplitter

/-- State of the loop of `Feed`, with the error of the builder. -/
structure LimitState where
  feed : FeedState
  limitErr : Option SQLStatementTooLargeError
deriving DecidableEq

/-- The loop of `Feed` on a text at an offset of the file, behind completed statements. -/
def limitFeeder (dbType : Text) (maxBytes textSourceOffset statementIndex : ℕ) :
    Scanner UInt8 LimitState where
  step s c t :=
    if s.limitErr.isSome then none
    else
      (s.feed.core.action dbType s.feed.before c t).map fun a =>
        let taken := c :: t.take a.extra
        let builder := s.feed.core.builder (textSourceOffset + s.feed.before.length)
          (statementIndex + s.feed.statements.length)
        let p := s.feed.core.applyLimited dbType maxBytes builder a taken
        (⟨⟨p.1.1, taken.reverse ++ s.feed.before, s.feed.statements ++ p.1.2⟩, p.2⟩,
          t.drop a.extra)
  step_suffix := by
    intro s c t s' t' h
    split at h
    · cases h
    · obtain ⟨a, _, ha⟩ := Option.map_eq_some_iff.mp h
      cases ha
      exact List.drop_suffix _ _

/-- `sqlStreamSplitter`, with what it counts. -/
structure LimitedSplitter where
  splitter : StreamSplitter
  inputBytes : ℕ
  statementIndex : ℕ
  limitErr : Option SQLStatementTooLargeError
deriving DecidableEq

namespace LimitedSplitter

def initial (preserveSQLServerBatch : Bool) : LimitedSplitter :=
  ⟨.initial preserveSQLServerBatch, 0, 0, none⟩

/-- The state of the loop of `Feed` at its end, with what it leaves unread. -/
def feedRun (dbType : Text) (maxBytes : ℕ) (s : LimitedSplitter) (chunk : Text) :
    LimitState × Text :=
  (limitFeeder dbType maxBytes (s.inputBytes - s.splitter.pending.length) s.statementIndex).run
    ⟨⟨{ s.splitter with pending := [] }, [], []⟩, none⟩ (s.splitter.pending ++ chunk)

/-- `Feed`.  The rest of a chunk is dropped when the builder is full. -/
def feed (dbType : Text) (maxBytes : ℕ) (s : LimitedSplitter) (chunk : Text) :
    LimitedSplitter × List Text :=
  let p := s.feedRun dbType maxBytes chunk
  let pending := if p.1.limitErr.isSome then [] else p.2
  (⟨{ p.1.feed.core with pending := pending }, s.inputBytes + chunk.length,
    s.statementIndex + p.1.feed.statements.length, p.1.limitErr⟩, p.1.feed.statements)

/-- The end of a `flushStatements` that completes the statements. -/
def complete (s : LimitedSplitter) (statements : List Text) : LimitedSplitter × List Text :=
  ({ s with
    splitter := { s.splitter with cur := [], pending := [] }
    statementIndex := s.statementIndex + statements.length }, statements)

/-- `flushStatements`. -/
def flushStatements (dbType : Text) (maxBytes : ℕ) (s : LimitedSplitter) :
    LimitedSplitter × List Text :=
  if s.splitter.pending = [] then s.complete (s.splitter.flushCur dbType)
  else
    let go : Directive ℕ :=
      if isSQLServerLexical dbType ∧ s.splitter.currentLineBlank then
        scanSQLStreamGoDirective true s.splitter.pending
      else .no
    match go with
    | .matched times _ =>
      let completed := Splitter.piece dbType s.splitter.cur
      s.complete (completed ++
        (List.replicate (times - 1) (s.splitter.batchAfter dbType completed)).flatten)
    | _ =>
      let delimiter : Directive Text :=
        if isSQLStreamMySQLClientDialect dbType ∧ s.splitter.canConsumeClientDirective dbType then
          scanSQLStreamDelimiterDirective true s.splitter.pending
        else .no
      match delimiter with
      | .matched _ _ => s.complete []
      | _ =>
        if s.splitter.flushSlashLine then s.complete (Splitter.piece dbType s.splitter.cur)
        else
          let written := (s.splitter.builder (s.inputBytes - s.splitter.pending.length)
            s.statementIndex).writeString maxBytes s.splitter.pending
          let splitter := { s.splitter with cur := written.text, pending := [] }
          if written.limitErr.isSome then
            ({ s with splitter := splitter, limitErr := written.limitErr }, [])
          else complete { s with splitter := splitter } (splitter.flushCur dbType)

/-- The splitter when it has read a file that comes in chunks, or has met a statement that is too
large, and the statements that it has completed. -/
def readAll (dbType : Text) (maxBytes : ℕ) :
    LimitedSplitter → List Text → LimitedSplitter × List Text
  | s, [] => s.flushStatements dbType maxBytes
  | s, chunk :: chunks =>
    let p := s.feed dbType maxBytes chunk
    if p.1.limitErr.isSome then p
    else
      let q := readAll dbType maxBytes p.1 chunks
      (q.1, p.2 ++ q.2)

section readAll

variable {dbType chunk : Text} {maxBytes : ℕ} {s : LimitedSplitter} {chunks : List Text}

theorem readAll_of_full (h : (s.feed dbType maxBytes chunk).1.limitErr = some err) :
    s.readAll dbType maxBytes (chunk :: chunks) = s.feed dbType maxBytes chunk :=
  if_pos (by rw [h]; rfl)

theorem readAll_of_room (h : (s.feed dbType maxBytes chunk).1.limitErr = none) :
    s.readAll dbType maxBytes (chunk :: chunks) =
      (((s.feed dbType maxBytes chunk).1.readAll dbType maxBytes chunks).1,
        (s.feed dbType maxBytes chunk).2 ++
          ((s.feed dbType maxBytes chunk).1.readAll dbType maxBytes chunks).2) :=
  if_neg (by rw [h]; exact Bool.false_ne_true)

end readAll

end LimitedSplitter

/-! ### The callback -/

section callback

variable {ε : Type}

inductive StreamError (ε : Type) where
  | callback (err : ε)
  | tooLarge (err : SQLStatementTooLargeError)
deriving DecidableEq

/-- The statements that the callback was called with, how many of them it has accepted, and the
error that is returned. -/
structure StreamOutcome (ε : Type) where
  handed : List Text
  count : ℕ
  err : Option (StreamError ε)

variable (onStatement : ℕ → Text → Option ε)

/-- Hand statements to the callback until it fails. -/
def handStatements : ℕ → List Text → StreamOutcome ε
  | count, [] => ⟨[], count, none⟩
  | count, stmt :: stmts =>
    match onStatement count stmt with
    | some err => ⟨[stmt], count, some (.callback err)⟩
    | none =>
      let rest := handStatements (count + 1) stmts
      { rest with handed := stmt :: rest.handed }

/-- What follows when the callback has accepted the statements and the builder is not full. -/
def StreamOutcome.andThen (o : StreamOutcome ε) (limitErr : Option SQLStatementTooLargeError)
    (next : ℕ → StreamOutcome ε) : StreamOutcome ε :=
  match o.err, limitErr with
  | some _, _ => o
  | none, some err => { o with err := some (.tooLarge err) }
  | none, none =>
    let rest := next o.count
    { rest with handed := o.handed ++ rest.handed }

/-- The loop of `streamSQLFileWithOptions`, and what stands behind it. -/
def streamChunks (dbType : Text) (maxBytes : ℕ) :
    LimitedSplitter → ℕ → List Text → StreamOutcome ε
  | s, count, [] =>
    let p := s.flushStatements dbType maxBytes
    (handStatements onStatement count p.2).andThen p.1.limitErr fun count => ⟨[], count, none⟩
  | s, count, chunk :: chunks =>
    let p := s.feed dbType maxBytes chunk
    (handStatements onStatement count p.2).andThen p.1.limitErr fun count =>
      streamChunks dbType maxBytes p.1 count chunks

/-- The splitter that a file is fed to. -/
def fileSplitter (dbType : Text) : LimitedSplitter :=
  .initial (isSQLServerLexical (normalizeSQLClassifierDBType dbType))

/-- `streamSQLFileWithOptions`, for a reader that returns the chunks and ends. -/
def streamSQLFileWithOptions (dbType : Text) (maxBytes : ℕ) (chunks : List Text) :
    StreamOutcome ε :=
  streamChunks onStatement (normalizeSQLClassifierDBType dbType) maxBytes (fileSplitter dbType) 0
    chunks

/-- The splitter behind a file, and the statements of the file. -/
def readFile (dbType : Text) (maxBytes : ℕ) (chunks : List Text) : LimitedSplitter × List Text :=
  (fileSplitter dbType).readAll (normalizeSQLClassifierDBType dbType) maxBytes chunks

/-! ### What the callback is handed -/

variable {onStatement : ℕ → Text → Option ε} {stmts : List Text}

theorem handStatements_append {count : ℕ} {stmts' : List Text} :
    handStatements onStatement count (stmts ++ stmts') =
      (handStatements onStatement count stmts).andThen none fun count =>
        handStatements onStatement count stmts' := by
  induction stmts generalizing count with
  | nil => rfl
  | cons stmt stmts ih =>
    rw [cons_append, handStatements, handStatements]
    cases onStatement count stmt with
    | some err => rfl
    | none =>
      rw [ih]
      generalize handStatements onStatement (count + 1) stmts = first
      obtain ⟨handed, count, err⟩ := first
      cases err <;> rfl

theorem StreamOutcome.andThen_andThen {o : StreamOutcome ε}
    {limitErr : Option SQLStatementTooLargeError} {next stop : ℕ → StreamOutcome ε} :
    (o.andThen none next).andThen limitErr stop =
      o.andThen none fun count => (next count).andThen limitErr stop := by
  unfold StreamOutcome.andThen
  cases hfirst : o.err with
  | some err => simp only [hfirst]
  | none =>
    dsimp only
    generalize next o.count = second
    obtain ⟨handed, count, err⟩ := second
    cases err with
    | some err => cases limitErr <;> rfl
    | none =>
      cases limitErr with
      | some err => rfl
      | none => simp only [append_assoc]

/-- **The callback is handed the statements of the file**, whatever it answers. -/
theorem streamChunks_eq {dbType : Text} {maxBytes : ℕ} {chunks : List Text} :
    ∀ {s : LimitedSplitter} {count : ℕ}, streamChunks onStatement dbType maxBytes s count chunks =
      (handStatements onStatement count (s.readAll dbType maxBytes chunks).2).andThen
        (s.readAll dbType maxBytes chunks).1.limitErr fun count => ⟨[], count, none⟩ := by
  induction chunks with
  | nil =>
    intro s count
    rfl
  | cons chunk chunks ih =>
    intro s count
    rw [streamChunks]
    cases hfull : (s.feed dbType maxBytes chunk).1.limitErr with
    | some err =>
      rw [LimitedSplitter.readAll_of_full hfull, hfull]
      unfold StreamOutcome.andThen
      cases (handStatements onStatement count (s.feed dbType maxBytes chunk).2).err <;> rfl
    | none =>
      rw [LimitedSplitter.readAll_of_room hfull, handStatements_append,
        StreamOutcome.andThen_andThen]
      congr 1
      funext count
      exact ih

theorem handStatements_handed {count : ℕ} :
    (handStatements onStatement count stmts).handed <+: stmts := by
  induction stmts generalizing count with
  | nil => exact List.prefix_rfl
  | cons stmt stmts ih =>
    unfold handStatements
    cases onStatement count stmt with
    | some err => exact ⟨stmts, rfl⟩
    | none => exact List.cons_prefix_cons.mpr ⟨rfl, ih⟩

/-- A callback that has not failed has been handed everything. -/
theorem handStatements_of_none {count : ℕ}
    (h : (handStatements onStatement count stmts).err = none) :
    (handStatements onStatement count stmts).handed = stmts ∧
      (handStatements onStatement count stmts).count = count + stmts.length := by
  induction stmts generalizing count with
  | nil => exact ⟨rfl, rfl⟩
  | cons stmt stmts ih =>
    unfold handStatements at h ⊢
    cases hanswer : onStatement count stmt with
    | some err =>
      rw [hanswer] at h
      cases h
    | none =>
      rw [hanswer] at h
      obtain ⟨hhanded, hcount⟩ := ih h
      dsimp only
      rw [hhanded, hcount, length_cons]
      exact ⟨rfl, by omega⟩

theorem handStatements_err {count : ℕ} :
    (handStatements onStatement count stmts).err ≠ some (.tooLarge err) := by
  induction stmts generalizing count with
  | nil => nofun
  | cons stmt stmts ih =>
    unfold handStatements
    cases onStatement count stmt with
    | some err => nofun
    | none => exact ih

/-- What is returned is decided by the statements of the file and the error of the builder. -/
theorem streamSQLFile_eq {dbType : Text} {maxBytes : ℕ} {chunks : List Text} :
    streamSQLFileWithOptions onStatement dbType maxBytes chunks =
      (handStatements onStatement 0 (readFile dbType maxBytes chunks).2).andThen
        (readFile dbType maxBytes chunks).1.limitErr fun count => ⟨[], count, none⟩ :=
  streamChunks_eq

/-- The statements that are handed to the callback are statements of the file. -/
theorem streamSQLFile_handed {dbType : Text} {maxBytes : ℕ} {chunks : List Text} :
    ∀ stmt ∈ (streamSQLFileWithOptions onStatement dbType maxBytes chunks).handed,
      stmt ∈ (readFile dbType maxBytes chunks).2 := by
  intro stmt hstmt
  rw [streamSQLFile_eq] at hstmt
  have hhanded : (handStatements onStatement 0 (readFile dbType maxBytes chunks).2).handed <+:
      (readFile dbType maxBytes chunks).2 := handStatements_handed
  apply hhanded.subset
  unfold StreamOutcome.andThen at hstmt
  split at hstmt
  · exact hstmt
  · exact hstmt
  · simpa using hstmt

/-- An error of the builder is returned behind all the statements of the file. -/
theorem streamSQLFile_tooLarge {dbType : Text} {maxBytes : ℕ} {chunks : List Text}
    (h : (streamSQLFileWithOptions onStatement dbType maxBytes chunks).err =
      some (.tooLarge err)) :
    (readFile dbType maxBytes chunks).1.limitErr = some err ∧
      (streamSQLFileWithOptions onStatement dbType maxBytes chunks).handed =
        (readFile dbType maxBytes chunks).2 ∧
      (streamSQLFileWithOptions onStatement dbType maxBytes chunks).count =
        (readFile dbType maxBytes chunks).2.length := by
  rw [streamSQLFile_eq] at h ⊢
  generalize (readFile dbType maxBytes chunks).1.limitErr = limitErr at h ⊢
  unfold StreamOutcome.andThen at h ⊢
  cases hfirst : (handStatements onStatement 0 (readFile dbType maxBytes chunks).2).err with
  | some first =>
    rw [hfirst] at h
    exact absurd h handStatements_err
  | none =>
    rw [hfirst] at h
    obtain ⟨hhanded, hcount⟩ := handStatements_of_none hfirst
    cases limitErr with
    | none => cases h
    | some err' =>
      cases h
      exact ⟨rfl, hhanded, hcount.trans (Nat.zero_add _)⟩

end callback

end GoNavi.Sql
