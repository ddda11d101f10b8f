import GoNavi.Scan.Scanner
import GoNavi.Sync.Cursor
import GoNavi.Sync.Queries

/-! # Literals

`quoteSyncSQLString` writes a string literal for a dialect, and `watermarkCursorSQLLiteral` the
literal of a value of a cursor.  A server reads a literal by its own rules (`StringRules`): a
quote that is doubled is a quote, and in some servers a backslash starts an escape sequence.

**A server reads the text of a literal, and the literal as a whole**
(`quoteSyncSQLString_round_trip`). -/

namespace GoNavi.Sync

open Scan List Option

/-! ### Cursors -/

/-- The dialects that a watermark is compared in. -/
def supportsWatermarkSyncDialect (unicode : UnicodeTables) (dbType : Text) : Bool :=
  normalizeMigrationDBType unicode dbType ∈ ["mysql", "mariadb", "postgres", "kingbase", "highgo",
    "vastbase", "opengauss", "gaussdb", "sqlserver", "sqlite", "duckdb"].map bytes

/-- What the standard library makes of texts: times are of a type `τ` and have layouts. -/
structure ValueFormats (τ : Type) where
  base64 : Text → Option Text
  hex : Text → Text
  parseTime : Text → Text → Option τ
  formatTime : Text → τ → Text
  parseInt : Text → Option ℤ
  parseUint : Text → Option ℕ
  /-- `projectionDecimalPattern`. -/
  decimal : Text → Bool
  finiteFloat : Text → Bool

section cursor

variable {τ : Type} (formats : ValueFormats τ) (dbType : Text)

/-- The literal of bytes. -/
def bytesLiteral (decoded : Text) : Text :=
  let hexValue := formats.hex decoded
  if dbType ∈ ["postgres", "kingbase", "highgo", "vastbase", "opengauss", "gaussdb"].map bytes then
    bytes "decode('" ++ hexValue ++ bytes "', 'hex')"
  else if dbType = bytes "sqlserver" then bytes "0x" ++ hexValue
  else if dbType = bytes "duckdb" then bytes "from_hex('" ++ hexValue ++ bytes "')"
  else bytes "X'" ++ hexValue ++ bytes "'"

/-- How a timestamp is written. -/
def timestampLayout : Text :=
  if dbType = bytes "mysql" ∨ dbType = bytes "mariadb" then bytes "2006-01-02 15:04:05.999999999"
  else bytes "2006-01-02T15:04:05.999999999Z07:00"

/-- `watermarkCursorSQLLiteral`, for a normalised type of database. -/
def watermarkCursorSQLLiteral (value : Typed.WatermarkCursorValue) : Except String Text :=
  let type := value.typeName
  if type = bytes "string" then .ok (quoteSyncSQLString dbType value.value)
  else if type = bytes "bytes" then
    match formats.base64 value.value with
    | none => .error "无效 bytes 游标"
    | some decoded => .ok (bytesLiteral formats dbType decoded)
  else if type = bytes "date" then
    match formats.parseTime (bytes "2006-01-02") value.value with
    | none => .error "无效 date 游标"
    | some t => .ok (quoteSyncSQLString dbType (formats.formatTime (bytes "2006-01-02") t))
  else if type = bytes "timestamp" then
    match formats.parseTime (bytes "2006-01-02T15:04:05.999999999Z07:00") value.value with
    | none => .error "无效 timestamp 游标"
    | some t => .ok (quoteSyncSQLString dbType (formats.formatTime (timestampLayout dbType) t))
  else if type = bytes "int64" then
    if (formats.parseInt value.value).isNone then .error "无效 int64 游标" else .ok value.value
  else if type = bytes "uint64" then
    if (formats.parseUint value.value).isNone then .error "无效 uint64 游标" else .ok value.value
  else if type = bytes "decimal" then
    if ¬ formats.decimal value.value then .error "无效 decimal 游标" else .ok value.value
  else if type = bytes "float64" then
    if ¬ formats.finiteFloat value.value then .error "无效 float64 游标" else .ok value.value
  else if type = bytes "bool" then
    match Sqlparam.parseBool value.value with
    | none => .error "无效 bool 游标"
    | some parsed =>
      if dbType = bytes "sqlserver" then .ok (if parsed then bytes "1" else bytes "0")
      else .ok (if parsed then bytes "TRUE" else bytes "FALSE")
  else .error "不支持的 watermark 游标类型"

/-- The text that the string literal of a value stands for, if its literal is one. -/
def cursorText (value : Typed.WatermarkCursorValue) : Option Text :=
  let type := value.typeName
  if type = bytes "string" then some value.value
  else if type = bytes "date" then
    (formats.parseTime (bytes "2006-01-02") value.value).map
      (formats.formatTime (bytes "2006-01-02"))
  else if type = bytes "timestamp" then
    (formats.parseTime (bytes "2006-01-02T15:04:05.999999999Z07:00") value.value).map
      (formats.formatTime (timestampLayout dbType))
  else none

end cursor

/-! ### How servers read string literals -/

/-- `mySQL` has the escape sequences of MySQL, `clickHouse` those of ClickHouse and `tdengine`
those of TDengine; to the other servers a backslash is a character. -/
inductive StringRules where
  | standard
  | mySQL
  | clickHouse
  | tdengine
  deriving DecidableEq

def backslashByte : UInt8 := 0x5C

def quoteByte : UInt8 := 0x27

/-- The bytes that stand for another one behind a backslash. -/
def StringRules.specials : StringRules → List (UInt8 × UInt8)
  | .standard => []
  | .mySQL => [(0x30, 0x00), (0x62, 0x08), (0x6E, 0x0A), (0x72, 0x0D), (0x74, 0x09), (0x5A, 0x1A)]
  | .clickHouse => [(0x62, 0x08), (0x66, 0x0C), (0x72, 0x0D), (0x6E, 0x0A), (0x74, 0x09),
      (0x30, 0x00), (0x61, 0x07), (0x76, 0x0B)]
  | .tdengine => [(0x6E, 0x0A), (0x72, 0x0D), (0x74, 0x09)]

/-- The bytes that keep the backslash in front of them: the wildcards of patterns. -/
def StringRules.verbatim : StringRules → List UInt8
  | .mySQL | .tdengine => [0x25, 0x5F]
  | _ => []

def hexDigit (c : UInt8) : Option UInt8 :=
  if 0x30 ≤ c ∧ c ≤ 0x39 then some (c - 0x30)
  else if 0x41 ≤ c ∧ c ≤ 0x46 then some (c - 0x37)
  else if 0x61 ≤ c ∧ c ≤ 0x66 then some (c - 0x57)
  else none

/-- The byte of two hexadecimal digits. -/
def hexByte : Text → Option (UInt8 × Text)
  | high :: low :: t => do
    let high ← hexDigit high
    let low ← hexDigit low
    return (high * 16 + low, t)
  | _ => none

/-- What an escape sequence stands for, and what stands behind it. -/
def StringRules.escape (rules : StringRules) : Text → Text × Text
  | [] => ([backslashByte], [])
  | c :: t =>
    match rules.specials.lookup c with
    | some d => ([d], t)
    | none =>
      if c ∈ rules.verbatim then ([backslashByte, c], t)
      else if rules = .clickHouse ∧ c = 0x78 then
        match hexByte t with
        | some (d, u) => ([d], u)
        | none => ([c], t)
      else ([c], t)

theorem hexByte_suffix {d : UInt8} {t u : Text} (h : hexByte t = some (d, u)) : u <:+ t := by
  match t with
  | [] | [_] => cases h
  | high :: low :: t =>
    simp only [hexByte, Option.bind_eq_bind, Option.bind_eq_some_iff, Option.pure_def,
      Option.some.injEq, Prod.mk.injEq] at h
    obtain ⟨_, _, _, _, _, rfl⟩ := h
    exact (suffix_cons low t).trans (suffix_cons high _)

theorem StringRules.escape_suffix {rules : StringRules} {t : Text} : (rules.escape t).2 <:+ t := by
  cases t with
  | nil => exact suffix_rfl
  | cons c t =>
    have htail : t <:+ c :: t := suffix_cons c t
    rw [StringRules.escape]
    cases rules.specials.lookup c with
    | some d => exact htail
    | none =>
      dsimp only
      split
      · exact htail
      split
      · cases hhex : hexByte t with
        | some p => exact (hexByte_suffix hhex).trans htail
        | none => exact htail
      · exact htail

/-- A string literal behind its first quote. -/
structure LiteralState where
  decoded : Text
  closed : Bool
  deriving DecidableEq

def literalReader (rules : StringRules) : Scanner UInt8 LiteralState where
  step s c t :=
    if s.closed then none
    else if c = quoteByte then
      if t.head? = some quoteByte then some (⟨s.decoded ++ [quoteByte], false⟩, t.tail)
      else some (⟨s.decoded, true⟩, t)
    else if c = backslashByte ∧ rules ≠ .standard then
      let p := rules.escape t
      some (⟨s.decoded ++ p.1, false⟩, p.2)
    else some (⟨s.decoded ++ [c], false⟩, t)
  step_suffix := by
    intro s c t s' t' h
    split at h
    · cases h
    split at h
    · split at h
      · cases h
        exact List.tail_suffix t
      · cases h
        exact suffix_rfl
    split at h
    · cases h
      exact StringRules.escape_suffix
    · cases h
      exact suffix_rfl

/-- The text that the string literal in front stands for, and what stands behind it. -/
def readLiteral (rules : StringRules) : Text → Option (Text × Text)
  | c :: t =>
    if c = quoteByte then
      let p := (literalReader rules).run ⟨[], false⟩ t
      if p.1.closed then some (p.1.decoded, p.2) else none
    else none
  | [] => none

/-- The rules of the servers. -/
def serverStringRules (dbType : Text) : Option StringRules :=
  if dbType ∈ ["mysql", "mariadb", "starrocks", "diros", "oceanbase"].map bytes then some .mySQL
  else if dbType = bytes "clickhouse" then some .clickHouse
  else if dbType = bytes "tdengine" then some .tdengine
  else if dbType ∈ ["postgres", "kingbase", "highgo", "vastbase", "opengauss", "gaussdb",
      "sqlserver", "sqlite", "duckdb"].map bytes then some .standard
  else none

/-! ### Reading what was written -/

section roundTrip

variable {rules : StringRules}

/-- What a byte of the text is written as. -/
def quotedByte (rules : StringRules) (c : UInt8) : Text :=
  if c = quoteByte then [quoteByte, quoteByte]
  else if c = backslashByte ∧ rules ≠ .standard then [backslashByte, backslashByte]
  else [c]

theorem escape_backslash (t : Text) : rules.escape (backslashByte :: t) = ([backslashByte], t) := by
  cases rules <;> rfl

/-- **A byte that was written is read.** -/
theorem run_quotedByte (c : UInt8) (decoded t : Text) :
    (literalReader rules).run ⟨decoded, false⟩ (quotedByte rules c ++ t) =
      (literalReader rules).run ⟨decoded ++ [c], false⟩ t := by
  unfold quotedByte
  split
  · rename_i hquote
    subst hquote
    exact Scanner.run_step rfl
  split
  · rename_i hquote hescape
    obtain ⟨rfl, hrules⟩ := hescape
    apply Scanner.run_step
    show (literalReader rules).step _ _ (backslashByte :: t) = _
    simp only [literalReader, Bool.false_eq_true, if_false, if_neg hquote, true_and, if_pos hrules,
      escape_backslash]
  · rename_i hquote hescape
    apply Scanner.run_step
    show (literalReader rules).step _ _ t = _
    simp only [literalReader, Bool.false_eq_true, if_false, if_neg hquote, if_neg hescape]

theorem run_quote {decoded rest : Text} (h : rest.head? ≠ some quoteByte) :
    (literalReader rules).run ⟨decoded, false⟩ (quoteByte :: rest) = (⟨decoded, true⟩, rest) := by
  have hstep : (literalReader rules).step ⟨decoded, false⟩ quoteByte rest =
      some (⟨decoded, true⟩, rest) := by
    simp only [literalReader, Bool.false_eq_true, if_false, if_true, if_neg h]
  rw [Scanner.run_step hstep]
  cases rest with
  | nil => rfl
  | cons c t => exact Scanner.run_stop rfl

theorem run_quoted {rest : Text} (h : rest.head? ≠ some quoteByte) (value : Text) :
    ∀ decoded, (literalReader rules).run ⟨decoded, false⟩
      (value.flatMap (quotedByte rules) ++ quoteByte :: rest) =
        (⟨decoded ++ value, true⟩, rest) := by
  induction value with
  | nil =>
    intro decoded
    rw [append_nil]
    exact run_quote h
  | cons c value ih =>
    intro decoded
    rw [flatMap_cons, append_assoc, run_quotedByte, ih, append_assoc]
    rfl

theorem flatMap_quotedByte (value : Text) : value.flatMap (quotedByte rules) =
    double quoteByte (if rules = .standard then value else double backslashByte value) := by
  by_cases hrules : rules = .standard
  · have hbyte : quotedByte rules =
        fun c => if c = quoteByte then [quoteByte, quoteByte] else [c] := by
      funext c
      simp [quotedByte, hrules]
    rw [if_pos hrules, hbyte]
    rfl
  · have hbyte : quotedByte rules = fun c => double quoteByte
        (if c = backslashByte then [backslashByte, backslashByte] else [c]) := by
      funext c
      unfold quotedByte
      by_cases hslash : c = backslashByte
      · subst hslash
        simp [hrules]
        rfl
      · by_cases hquote : c = quoteByte
        · subst hquote
          rfl
        · simp [hslash, hquote, double]
    rw [if_neg hrules, hbyte]
    exact flatMap_assoc.symm

/-- **A server reads the text of a literal, and the literal as a whole.** -/
theorem readLiteral_quote {dbType value rest : Text}
    (hrules : syncDialectEscapesBackslash dbType = true ↔ rules ≠ .standard)
    (hrest : rest.head? ≠ some quoteByte) :
    readLiteral rules (quoteSyncSQLString dbType value ++ rest) = some (value, rest) := by
  have hbody : quoteSyncSQLString dbType value ++ rest =
      quoteByte :: (value.flatMap (quotedByte rules) ++ quoteByte :: rest) := by
    rw [flatMap_quotedByte]
    unfold quoteSyncSQLString
    by_cases hstandard : rules = .standard
    · rw [if_pos hstandard, if_neg fun h => hrules.mp h hstandard]
      simp [quoteByte]
    · rw [if_neg hstandard, if_pos (hrules.mpr hstandard)]
      simp [quoteByte, backslashByte]
  rw [hbody]
  unfold readLiteral
  dsimp only
  rw [if_pos rfl, run_quoted hrest]
  rfl

end roundTrip

/-! ### Dialects -/

/-- A server of each dialect that is supported has rules, and it escapes backslashes just if the
dialect is said to. -/
theorem exists_rules {unicode : UnicodeTables} {dbType : Text}
    (h : supportsDirectImportPagination unicode dbType = true ∨
      supportsWatermarkSyncDialect unicode dbType = true) :
    ∃ rules, serverStringRules (normalizeMigrationDBType unicode dbType) = some rules ∧
      (syncDialectEscapesBackslash (normalizeMigrationDBType unicode dbType) = true ↔
        rules ≠ .standard) := by
  have hsub : ∀ dialect ∈ ["mysql", "mariadb", "postgres", "kingbase", "highgo", "vastbase",
      "opengauss", "gaussdb", "sqlserver", "sqlite", "duckdb"].map bytes,
      dialect ∈ ["mysql", "mariadb", "postgres", "kingbase", "highgo", "vastbase", "opengauss",
        "gaussdb", "sqlserver", "sqlite", "duckdb", "clickhouse", "tdengine", "starrocks",
        "diros"].map bytes := by decide
  have hdialects : ∀ dialect ∈ ["mysql", "mariadb", "postgres", "kingbase", "highgo", "vastbase",
      "opengauss", "gaussdb", "sqlserver", "sqlite", "duckdb", "clickhouse", "tdengine",
      "starrocks", "diros"].map bytes, ∃ rules ∈ serverStringRules dialect,
      (syncDialectEscapesBackslash dialect = true ↔ rules ≠ .standard) := by decide
  have hmem := h.elim of_decide_eq_true fun hwatermark => hsub _ (of_decide_eq_true hwatermark)
  exact hdialects _ hmem

theorem watermarkCursorSQLLiteral_text {τ : Type} {formats : ValueFormats τ} {dbType text : Text}
    {value : Typed.WatermarkCursorValue} (h : cursorText formats dbType value = some text) :
    watermarkCursorSQLLiteral formats dbType value = .ok (quoteSyncSQLString dbType text) := by
  unfold cursorText at h
  unfold watermarkCursorSQLLiteral
  by_cases hstring : value.typeName = bytes "string"
  · rw [if_pos hstring] at h
    cases h
    rw [if_pos hstring]
  rw [if_neg hstring] at h
  rw [if_neg hstring]
  by_cases hdate : value.typeName = bytes "date"
  · rw [if_pos hdate] at h
    obtain ⟨t, ht, rfl⟩ := map_eq_some_iff.mp h
    rw [if_neg (by rw [hdate]; decide), if_pos hdate, ht]
  rw [if_neg hdate] at h
  by_cases htimestamp : value.typeName = bytes "timestamp"
  · rw [if_pos htimestamp] at h
    obtain ⟨t, ht, rfl⟩ := map_eq_some_iff.mp h
    rw [if_neg (by rw [htimestamp]; decide), if_neg hdate, if_pos htimestamp, ht]
  · rw [if_neg htimestamp] at h
    cases h

end GoNavi.Sync
