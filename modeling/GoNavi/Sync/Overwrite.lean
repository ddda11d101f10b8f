import GoNavi.Machine.Stoppable
import GoNavi.Sync.Batches
import GoNavi.Sync.Queries

/-! # Overwriting a table

In the mode `full_overwrite` the target is cleared before the rows of the source are inserted.
Three paths do so: the import of the pages of a table, the import of the pages of a query, and that
of what has been read as a whole.  Every access to a database may fail.  Reading the source,
reading the columns and the statements that create the table, add a column or build an index leave
the rows of the target as they are; clearing and inserting need not.  What is only done in the mode
`insert_update` is left out, and the log is. -/

namespace GoNavi.Sync

open Scan Stoppable

/-! ### Configuration -/

structure SyncColumn where
  name : Text
  key : Text

structure SchemaMigrationPlan where
  targetTableExists : Bool
  autoCreate : Bool
  createTableSQL : Text
  preDataSQL : List Text
  postDataSQL : List Text
  sourceQueryTable : Text
  targetQueryTable : Text

structure TableOptions where
  insert : Bool
  selectedInsertPKs : List Text
  selectedUpdatePKs : List Text
  selectedDeletePKs : List Text

def TableOptions.hasRowSelection (opts : TableOptions) : Bool :=
  opts.selectedInsertPKs ≠ [] || opts.selectedUpdatePKs ≠ [] || opts.selectedDeletePKs ≠ []

/-- `hasEffectiveSyncDataOperation`, in the mode `full_overwrite`. -/
def TableOptions.effective (opts : TableOptions) : Bool := opts.insert

/-- What a synchronization is told, and what its mappings and its dialects make of it. -/
structure OverwriteConfig where
  naming : Naming
  sourceType : Text
  targetType : Text
  tableName : Text
  sourceQuery : Text
  batchSize : ℤ
  opts : TableOptions
  syncData : Bool
  schemaChangesAllowed : Bool
  autoAddColumns : Bool
  supportsAutoAddColumnsForPair : Bool
  hasExplicitSyncMappings : Bool
  isSamePhysicalSyncTable : Bool
  isSamePhysicalSyncServer : Bool
  /-- The target is a `BatchApplier`. -/
  batchApplier : Bool
  projection : Except Text (TableRow → Except Text TableRow)
  /-- The columns of the target that the projection does not find. -/
  missingTargetColumns : List SyncColumn → List Text
  targetColumn : Text → Option Text
  syncKeyColumnsForTable : List SyncColumn → Except Text (List Text)
  sourceQuerySelectionKeyColumns : List SyncColumn → Except Text (List Text)
  /-- The summary of the differences that cannot be repaired. -/
  unsupportedDiffs : List SyncColumn → List SyncColumn → Option Text
  buildAddColumnSQL : Text → SyncColumn → Except Text Text

/-- What the databases do, and the rows that the target has.  `define` runs a statement that
creates the table, adds a column to it or builds an index. -/
structure OverwriteWorld (σ : Type) where
  rows : σ → List TableRow
  contextError : σ → Option Text
  plan : σ → Except Text (SchemaMigrationPlan × List SyncColumn × List SyncColumn) × σ
  getColumns : σ → Except Text (List SyncColumn) × σ
  readSource : Text → σ → Except Text (List TableRow) × σ
  define : Text → σ → Except Text Unit × σ
  clear : Text → σ → Except Text Unit × σ
  /-- The rows that have been inserted, and the failure. -/
  applySnapshotChanges : List TableRow → σ → (ℕ × Option Text) × σ
  plan_rows : ∀ s, rows (plan s).2 = rows s
  getColumns_rows : ∀ s, rows (getColumns s).2 = rows s
  readSource_rows : ∀ query s, rows (readSource query s).2 = rows s
  define_rows : ∀ statement s, rows (define statement s).2 = rows s

/-- The variables of a path, and whether a read of the source has succeeded. -/
structure OverwriteState (σ : Type) where
  world : σ
  sourceRead : Bool := false
  inserted : ℕ := 0
  tableFailure : Option Text := none

/-- How a path ends early. -/
inductive OverwriteStop where
  /-- `return false, …`: another path has to do the work. -/
  | unhandled
  | failed (err : Text)
  /-- `tableCompleted = true` -/
  | completed
  /-- the fuel has run out: the path goes on -/
  | endless

/-! ### Rows and columns -/

section columns

variable (naming : Naming)

def lowerName (name : Text) : Text := lower naming.unicode (trimSpace name)

def buildTargetColumnSet (cols : List SyncColumn) : List Text :=
  (cols.map fun col => lowerName naming col.name).filter fun name => name ≠ []

/-- The names that are not blank, one for each lower case, and that the target does not have. -/
def missingSourceColumns (sourceCols : List SyncColumn) (targetColSet : List Text) : List Text :=
  ((namesOnce naming [] (sourceCols.map SyncColumn.name)).map fun name => trimSpace name).filter
    fun name => lower naming.unicode name ∉ targetColSet

def collectRequiredColumns (inserts : List TableRow) : List Text :=
  namesOnce naming [] (inserts.flatMap fun row => row.columns.map Prod.fst)

def filterInsertRows (inserts : List TableRow) (allowedLower : List Text) : List TableRow :=
  if allowedLower = [] then inserts
  else inserts.map fun row =>
    ⟨row.columns.filter fun column => lowerName naming column.1 ∈ allowedLower,
      List.Nodup.sublist ((List.filter_sublist).map Prod.fst) row.nodup⟩

end columns

def selectionRowKey (row : TableRow) : List Text → Option Text
  | [column] => if row.cell column = .nil then none else some (sprint (row.cell column))
  | keyColumns => syncRowKey row keyColumns

def filterRowsByKeySelection (keyColumns : List Text) (rows : List TableRow) (enabled : Bool)
    (selectedKeys : List Text) : List TableRow :=
  if !enabled then []
  else if selectedKeys = [] then rows
  else rows.filter fun row =>
    match selectionRowKey row keyColumns with
    | none => false
    | some key => key ∈ selectedKeys

def filterRowsByPKSelection (pkCol : Text) (rows : List TableRow) (enabled : Bool)
    (selectedPKs : List Text) : List TableRow :=
  filterRowsByKeySelection [pkCol] rows enabled selectedPKs

def sourceQueryRowsHaveSelectionKey (rows : List TableRow) (keyColumns : List Text) : Bool :=
  keyColumns ≠ [] && rows.all fun row => (selectionRowKey row keyColumns).isSome

def directImportPaginationPK (unicode : UnicodeTables) (sourceType : Text)
    (sourceCols : List SyncColumn) : Option Text :=
  if !supportsDirectImportPagination unicode sourceType then none
  else
    match sourceCols.filter fun col => col.key = bytes "PRI" ∨ col.key = bytes "PK" with
    | [col] => if trimSpace col.name = [] then none else some col.name
    | _ => none

/-! ### Steps -/

section paths

variable {σ : Type} (env : OverwriteWorld σ) (config : OverwriteConfig)

/-- What a path goes on with. -/
abbrev Continuation (σ α : Type) : Type :=
  α → OverwriteState σ → OverwriteState σ × Option OverwriteStop

/-- An access to a database; its failure ends the path. -/
def attempt {α : Type} (access : σ → Except Text α × σ) (message : Text) (next : Continuation σ α)
    (s : OverwriteState σ) : OverwriteState σ × Option OverwriteStop :=
  match access s.world with
  | (.error err, world) => ({ s with world }, some (.failed (message ++ err)))
  | (.ok a, world) => next a { s with world }

def readSource (query message : Text) (next : Continuation σ (List TableRow))
    (s : OverwriteState σ) : OverwriteState σ × Option OverwriteStop :=
  attempt (env.readSource query) message
    (fun rows s => next rows { s with sourceRead := true }) s

/-- `s.contextError()` -/
def checkContext (s : OverwriteState σ) : OverwriteState σ × Option OverwriteStop :=
  (s, (env.contextError s.world).map .failed)

/-- `executeSyncSQLStatementsContext` -/
def executeStatements (message : Text) (statements : List Text) (s : OverwriteState σ) :
    OverwriteState σ × Option OverwriteStop :=
  forEach (fun statement s =>
    if trimSpace statement = [] then (s, none)
    else
      match env.contextError s.world with
      | some err => (s, some (.failed (message ++ err)))
      | none =>
        attempt (env.define (trimSpace statement))
          (message ++ bytes "执行 SQL 失败：" ++ trimSpace statement ++ bytes ": ")
          (fun _ s => (s, none)) s) statements s

/-- `markTableFailure` -/
def OverwriteState.markFailure (s : OverwriteState σ) (message : Text) : OverwriteState σ :=
  { s with tableFailure := match s.tableFailure with
      | none => some (trimSpace message)
      | some failure => some failure }

/-- `applySnapshotChanges`, for rows that are only inserted. -/
def applyInserts (message : Text) (rows : List TableRow) (s : OverwriteState σ) :
    OverwriteState σ × Option OverwriteStop :=
  let ((inserted, err), world) := env.applySnapshotChanges rows s.world
  ({ s with world, inserted := s.inserted + inserted },
    err.map fun err => .failed (message ++ err))

def buildClearTargetTableSQL (targetQueryTable : Text) : Text :=
  let quotedTable := config.naming.quoteQualifiedIdent config.targetType targetQueryTable
  if normalizeMigrationDBType config.naming.unicode config.targetType = bytes "mysql" then
    bytes "TRUNCATE TABLE " ++ quotedTable
  else bytes "DELETE FROM " ++ quotedTable

/-- The statement of the paths that have read everything: they ask for the type as it is. -/
def clearSQL (targetQueryTable : Text) : Text :=
  let quotedTable := config.naming.quoteQualifiedIdent config.targetType targetQueryTable
  if config.targetType = bytes "mysql" then bytes "TRUNCATE TABLE " ++ quotedTable
  else bytes "DELETE FROM " ++ quotedTable

def clearTarget (statement : Text) (s : OverwriteState σ) :
    OverwriteState σ × Option OverwriteStop :=
  attempt (env.clear statement) (bytes "清空目标表失败: ") (fun _ s => (s, none)) s

def columnList (names : List Text) : Text := List.intercalate (bytes ", ") names

/-! ### Pages of a table -/

/-- The columns of the target, read when they are not known. -/
def resolveTargetColumns (targetCols : List SyncColumn) (next : Continuation σ (List SyncColumn))
    (s : OverwriteState σ) : OverwriteState σ × Option OverwriteStop :=
  if targetCols = [] then attempt env.getColumns (bytes "获取目标表字段失败: ") next s
  else next targetCols s

def sourceColumn (sourceCols : List SyncColumn) (name : Text) : Option SyncColumn :=
  sourceCols.reverse.find? fun col =>
    trimSpace col.name ≠ [] && lowerName config.naming col.name = lowerName config.naming name

/-- The body of the loop over the missing columns. -/
def addDirectImportColumn (plan : SchemaMigrationPlan) (sourceCols : List SyncColumn)
    (name : Text) (s : OverwriteState σ) : OverwriteState σ × Option OverwriteStop :=
  match sourceColumn config sourceCols name with
  | none => (s, some (.failed (bytes "自动补字段失败：未找到源字段定义 " ++ name)))
  | some col =>
    let message := bytes "自动补字段失败：字段=" ++ name ++ bytes ": "
    match config.buildAddColumnSQL plan.targetQueryTable col with
    | .error err => (s, some (.failed (message ++ err)))
    | .ok statement => attempt (env.define statement) message (fun _ s => (s, none)) s

def prepareDirectImportTargetColumnSet (plan : SchemaMigrationPlan)
    (sourceCols targetCols : List SyncColumn) (next : Continuation σ (List Text)) :
    OverwriteState σ → OverwriteState σ × Option OverwriteStop :=
  resolveTargetColumns env targetCols fun cols s =>
    if cols = [] then next [] s
    else
      let targetColSet := buildTargetColumnSet config.naming cols
      let missing := missingSourceColumns config.naming sourceCols targetColSet
      if missing = [] then next targetColSet s
      else if config.autoAddColumns && config.supportsAutoAddColumnsForPair then
        if !config.schemaChangesAllowed then
          (s, some (.failed (bytes "目标表缺少字段，仅同步数据模式不允许自动补齐：" ++
            columnList missing)))
        else
          andThen (forEach (addDirectImportColumn env config plan sourceCols) missing s)
            (next (targetColSet ++ missing.map (lowerName config.naming)))
      else next targetColSet s

def applyDirectImportPage (pkCol : Text) (targetColSet : List Text) (rows : List TableRow)
    (s : OverwriteState σ) : OverwriteState σ × Option OverwriteStop :=
  let rows := filterInsertRows config.naming
    (filterRowsByPKSelection pkCol rows config.opts.insert config.opts.selectedInsertPKs)
    targetColSet
  if rows = [] then (s, none) else applyInserts env [] rows s

/-- The loop over the pages behind the first. -/
def importPages (pageSize : ℕ) (page : ℕ → Text) (message : Text)
    (applyPage : List TableRow → OverwriteState σ → OverwriteState σ × Option OverwriteStop) :
    ℕ → ℕ → OverwriteState σ → OverwriteState σ × Option OverwriteStop
  | 0, _, s => (s, some .endless)
  | fuel + 1, offset, s =>
    readSource env (page offset)
      (message ++ bytes "(offset=" ++ Json.natural offset ++ bytes "): ")
      (fun rows s =>
        if rows = [] then (s, none)
        else andThen (applyPage rows s) fun s =>
          if rows.length < pageSize then (s, none)
          else importPages pageSize page message applyPage fuel (offset + pageSize) s)
      s

def tryApplyDirectImportInPages (fuel : ℕ) (plan : SchemaMigrationPlan)
    (sourceCols targetCols : List SyncColumn) (s : OverwriteState σ) :
    OverwriteState σ × Option OverwriteStop :=
  if config.hasExplicitSyncMappings then (s, some .unhandled)
  else if plan.targetTableExists && config.isSamePhysicalSyncTable then (s, some .unhandled)
  else if !config.opts.insert then (s, some .unhandled)
  else
    match normalizedSyncBatchSize config.batchSize with
    | .error err => (s, some (.failed err))
    | .ok pageSize =>
      match directImportPaginationPK config.naming.unicode config.sourceType sourceCols with
      | none => (s, some .unhandled)
      | some pkCol =>
        let page := buildPagedSourceTableQuery config.naming config.sourceType
          plan.sourceQueryTable (sourceCols.map SyncColumn.name) pkCol pageSize
        if trimSpace (page 0) = [] then (s, some .unhandled)
        else if !config.batchApplier then
          (s, some (.failed (bytes "目标驱动不支持应用数据变更 (ApplyChanges)")))
        else
          readSource env (page 0) (bytes "分页读取源表失败: ")
            (fun firstRows =>
              prepareDirectImportTargetColumnSet env config plan sourceCols targetCols
                fun targetColSet s =>
                  let applyPage := applyDirectImportPage env config pkCol targetColSet
                  andThen
                    (if plan.targetTableExists then
                      clearTarget env (buildClearTargetTableSQL config plan.targetQueryTable) s
                    else (s, none))
                    fun s => andThen (applyPage firstRows s) fun s =>
                      if firstRows.length < pageSize then (s, none)
                      else importPages env pageSize page (bytes "分页读取源表失败") applyPage fuel
                        pageSize s)
            s

/-! ### Tables -/

/-- `executeSyncSQLStatementsContext` for the statements behind the data, and the end of a table. -/
def finishTable (plan : SchemaMigrationPlan) (schemaChanges : Bool) (s : OverwriteState σ) :
    OverwriteState σ × Option OverwriteStop :=
  let message := bytes "创建索引失败：表=" ++ config.tableName ++ bytes " 错误="
  andThen
    (if schemaChanges then executeStatements env message plan.postDataSQL s else (s, none))
    fun s => (s, some .completed)

/-- The body of the loop over the missing columns; a failure is noted and the loop goes on. -/
def addColumn (plan : SchemaMigrationPlan) (sourceCols : List SyncColumn) (name : Text)
    (s : OverwriteState σ) : OverwriteState σ × Option OverwriteStop :=
  let message := bytes "自动补字段失败：字段=" ++ name ++ bytes " 错误="
  match sourceColumn config sourceCols name with
  | none => (s.markFailure (bytes "自动补字段失败：未找到源字段元数据，字段=" ++ name), none)
  | some col =>
    match config.buildAddColumnSQL plan.targetQueryTable col with
    | .error err => (s.markFailure (message ++ err), none)
    | .ok statement =>
      match env.define statement s.world with
      | (.error err, world) => ({ s with world }.markFailure (message ++ err), none)
      | (.ok _, world) => ({ s with world }, none)

/-- The columns that the rows need and the target does not have. -/
def missingColumns (inserts : List TableRow) (targetColSet : List Text) : List Text :=
  ((collectRequiredColumns config.naming inserts).filter fun name =>
    lowerName config.naming name ∉ targetColSet).insertionSort (· ≤ ·)

/-- The rows as the target takes them, its missing columns added. -/
def fitInserts (plan : SchemaMigrationPlan) (sourceCols : List SyncColumn)
    (cols : List SyncColumn) (inserts : List TableRow) (next : Continuation σ (List TableRow))
    (s : OverwriteState σ) : OverwriteState σ × Option OverwriteStop :=
  let targetColSet := buildTargetColumnSet config.naming cols
  let missing := missingColumns config inserts targetColSet
  if cols = [] ∨ missing = [] then next inserts s
  else if config.hasExplicitSyncMappings then
    (s, some (.failed (bytes "映射目标表缺少字段：" ++ columnList missing)))
  else if config.autoAddColumns && !config.schemaChangesAllowed then
    (s, some (.failed (bytes "目标表缺少字段，仅同步数据模式不允许自动补齐：" ++
      columnList missing)))
  else if config.autoAddColumns && config.supportsAutoAddColumnsForPair then
    -- a column that could not be added has noted a failure, and the table ends there
    andThen (forEach (addColumn env config plan sourceCols) missing s) fun s =>
      match s.tableFailure with
      | some failure => (s, some (.failed failure))
      | none => next (filterInsertRows config.naming inserts
          (targetColSet ++ missing.map (lowerName config.naming))) s
  else next (filterInsertRows config.naming inserts targetColSet) s

/-- The import of what has been read as a whole. -/
def importSnapshot (plan : SchemaMigrationPlan) (sourceCols targetCols : List SyncColumn)
    (selectionKeyCols : List Text) (project : TableRow → Except Text TableRow) :
    OverwriteState σ → OverwriteState σ × Option OverwriteStop :=
  let query := bytes "SELECT * FROM " ++
    config.naming.quoteQualifiedIdent config.sourceType plan.sourceQueryTable
  readSource env query (bytes "读取源表 " ++ config.tableName ++ bytes " 失败: ")
    fun sourceRows s =>
      match if config.hasExplicitSyncMappings then sourceRows.mapM project else .ok sourceRows with
      | .error err => (s, some (.failed (bytes "字段映射失败：表=" ++ config.tableName ++
          bytes " 错误=" ++ err)))
      | .ok sourceRows =>
        let inserts := filterRowsByKeySelection selectionKeyCols sourceRows config.opts.insert
          config.opts.selectedInsertPKs
        resolveTargetColumns env targetCols (fun cols =>
          fitInserts env config plan sourceCols cols inserts fun inserts s =>
            if inserts ≠ [] && !config.batchApplier then
              (s, some (.failed (bytes "目标驱动不支持应用数据变更 (ApplyChanges).")))
            else
              andThen
                (if plan.targetTableExists then
                  clearTarget env (clearSQL config plan.targetQueryTable) s
                else (s, none))
                fun s => andThen
                  (if inserts ≠ [] then applyInserts env (bytes "应用变更失败: ") inserts s
                  else (s, none))
                  fun s => finishTable env config plan config.schemaChangesAllowed s) s

/-- The keys by which rows are selected, under the names of the target. -/
def mapSelectionKeys (pkCols : List Text) : Except Text (List Text) :=
  if config.hasExplicitSyncMappings && config.opts.hasRowSelection then
    pkCols.mapM fun sourceKey =>
      match config.targetColumn sourceKey with
      | some mappedKey =>
        if trimSpace mappedKey ≠ [] then .ok mappedKey
        else .error (bytes "表 " ++ config.tableName ++ bytes " 的稳定 key 字段 " ++ sourceKey ++
          bytes " 未映射到目标字段，无法执行同步")
      | none => .error (bytes "表 " ++ config.tableName ++ bytes " 的稳定 key 字段 " ++ sourceKey ++
          bytes " 未映射到目标字段，无法执行同步")
  else .ok pkCols

/-- The rows of a table: in pages, or else as a whole. -/
def importTable (fuel : ℕ) (project : TableRow → Except Text TableRow)
    (plan : SchemaMigrationPlan) (sourceCols targetCols : List SyncColumn)
    (s : OverwriteState σ) : OverwriteState σ × Option OverwriteStop :=
  if !config.syncData then finishTable env config plan true s
  else if !config.opts.effective then
    (s, some (.failed (bytes "表 " ++ config.tableName ++
      bytes " 在 full_overwrite 模式下未启用有效数据操作，已拒绝执行")))
  else
    match config.syncKeyColumnsForTable sourceCols with
    | .error err => (s, some (.failed (bytes "解析表 " ++ config.tableName ++
        bytes " 的稳定 key 失败: " ++ err)))
    | .ok pkCols =>
      match mapSelectionKeys config pkCols with
      | .error err => (s, some (.failed err))
      | .ok selectionKeyCols =>
        match tryApplyDirectImportInPages env config fuel plan sourceCols targetCols s with
        | (s, some .unhandled) =>
          importSnapshot env config plan sourceCols targetCols selectionKeyCols project s
        | (s, some (.failed err)) => (s, some (.failed (bytes "分页流式导入失败: " ++ err)))
        | (s, some stop) => (s, some stop)
        | (s, none) => finishTable env config plan config.schemaChangesAllowed s

/-- What comes before the rows: the target table is created, or its columns are added. -/
def prepareTable (plan : SchemaMigrationPlan) (targetCols : List SyncColumn)
    (next : Continuation σ (List SyncColumn)) (s : OverwriteState σ) :
    OverwriteState σ × Option OverwriteStop :=
  let about := bytes "：表=" ++ config.tableName ++ bytes " 错误="
  if !plan.targetTableExists && plan.autoCreate then
    andThen (executeStatements env (bytes "预执行建表 SQL 失败" ++ about) plan.preDataSQL s) fun s =>
      if trimSpace plan.createTableSQL = [] ∧ plan.preDataSQL = [] then
        (s, some (.failed (bytes "表 " ++ config.tableName ++
          bytes " 自动建表失败：建表/建集合 SQL 为空")))
      else
        andThen
          (if trimSpace plan.createTableSQL ≠ [] then
            attempt (env.define plan.createTableSQL) (bytes "创建目标表失败" ++ about)
              (fun _ s => (s, none)) s
          else (s, none))
          (attempt env.getColumns (bytes "创建目标表后获取字段失败" ++ about) next)
  else if plan.preDataSQL ≠ [] then
    andThen (executeStatements env (bytes "同步表结构失败" ++ about) plan.preDataSQL s)
      (attempt env.getColumns (bytes "补字段后刷新目标字段失败" ++ about) next)
  else next targetCols s

/-- The checks on the plan; the message of the first that fails. -/
def planFailure (plan : SchemaMigrationPlan) (sourceCols targetCols : List SyncColumn) :
    Option Text :=
  let table := bytes "表 " ++ config.tableName
  if !config.schemaChangesAllowed && !plan.targetTableExists && plan.autoCreate then
    some (table ++ bytes " 目标表不存在，仅同步数据模式不允许自动创建目标表")
  else if !config.schemaChangesAllowed && plan.preDataSQL ≠ [] then
    some (table ++ bytes " 存在结构差异，仅同步数据模式不允许修改目标表结构")
  else
    match if config.schemaChangesAllowed && plan.targetTableExists then
        config.unsupportedDiffs sourceCols targetCols else none with
    | some summary => some (table ++ bytes " 存在当前不支持自动修复的结构差异（" ++ summary ++
        bytes "）；当前仅支持补齐目标缺失字段")
    | none =>
      if !plan.targetTableExists && !plan.autoCreate then
        some (table ++ bytes " 目标表不存在，当前策略不允许自动建表，已跳过")
      else none

/-- The check on the keys of a table whose rows have been selected. -/
def selectionFailure (sourceCols : List SyncColumn) : Option Text :=
  if config.syncData && config.opts.hasRowSelection then
    match config.syncKeyColumnsForTable sourceCols with
    | .error err => some (bytes "解析表 " ++ config.tableName ++ bytes " 的稳定 key 失败: " ++ err)
    | .ok [] => some (bytes "表 " ++ config.tableName ++
        bytes " 未找到主键或映射稳定 key，不能按指定行同步")
    | .ok _ => none
  else none

/-- `runSync`, for one of its tables. -/
def syncTable (fuel : ℕ) (s : OverwriteState σ) : OverwriteState σ × Option OverwriteStop :=
  let about := bytes "：表=" ++ config.tableName ++ bytes " 错误="
  andThen (checkContext env s) <|
    attempt env.plan (bytes "生成迁移计划失败" ++ about) fun (plan, sourceCols, targetCols) s =>
      andThen (checkContext env s) fun s =>
        match config.projection with
        | .error err => (s, some (.failed (bytes "编译字段映射失败" ++ about ++ err)))
        | .ok project =>
          match (selectionFailure config sourceCols).or
              (planFailure config plan sourceCols targetCols) with
          | some failure => (s, some (.failed failure))
          | none =>
            prepareTable env config plan targetCols
              (fun targetCols => importTable env config fuel project plan sourceCols targetCols) s

/-! ### Queries -/

/-- `sourceQuerySyncContext`, without the rows of the target. -/
structure SourceQueryContext where
  targetQueryTable : Text
  targetCols : List SyncColumn
  pkColumns : List Text
  pkColumn : Text
  sourceRows : List TableRow

/-- `loadSourceQuerySyncContextWithContext`, without keys and without the rows of the target. -/
def loadSourceQuerySyncContext (targetQueryTable : Text) (needSourceRows : Bool)
    (next : Continuation σ SourceQueryContext) (s : OverwriteState σ) :
    OverwriteState σ × Option OverwriteStop :=
  andThen (checkContext env s) <|
    attempt env.getColumns (bytes "加载目标表字段失败: ") fun targetCols s =>
      andThen (checkContext env s) fun s =>
        if targetCols = [] then
          (s, some (.failed (bytes "目标表 " ++ config.tableName ++
            bytes " 不存在或无法读取字段定义")))
        else
          match config.projection with
          | .error err => (s, some (.failed err))
          | .ok project =>
            if config.missingTargetColumns targetCols ≠ [] then
              (s, some (.failed (bytes "SQL 结果映射目标表缺少字段：" ++
                columnList (config.missingTargetColumns targetCols))))
            else if needSourceRows then
              readSource env (trimSpace config.sourceQuery) (bytes "执行源查询失败: ")
                (fun sourceRows s =>
                  match sourceRows.mapM project with
                  | .error err =>
                    (s, some (.failed (bytes "SQL 结果字段投影失败: " ++ err)))
                  | .ok sourceRows => next ⟨targetQueryTable, targetCols, [], [], sourceRows⟩ s) s
            else next ⟨targetQueryTable, targetCols, [], [], []⟩ s

def applySourceQueryPage (ctx : SourceQueryContext) (rows : List TableRow)
    (s : OverwriteState σ) : OverwriteState σ × Option OverwriteStop :=
  let insertRows := filterInsertRows config.naming
    (filterRowsByPKSelection ctx.pkColumn rows config.opts.insert config.opts.selectedInsertPKs)
    (buildTargetColumnSet config.naming ctx.targetCols)
  if insertRows = [] then (s, none) else applyInserts env [] insertRows s

/-- Without rows to insert it clears the target and reads nothing; its caller does not ask for
that. -/
def tryApplySourceQueryInPages (fuel : ℕ) (ctx : SourceQueryContext) (s : OverwriteState σ) :
    OverwriteState σ × Option OverwriteStop :=
  let supports := supportsDirectImportPagination config.naming.unicode
  let pageKey := trimSpace ctx.pkColumn
  if config.hasExplicitSyncMappings then (s, some .unhandled)
  else if 1 < ctx.pkColumns.length ∨ pageKey = [] ∨ (0x2C : UInt8) ∈ pageKey then
    (s, some .unhandled)
  else if !supports config.sourceType || !supports config.targetType then (s, some .unhandled)
  else if config.isSamePhysicalSyncServer then (s, some .unhandled)
  else
    match normalizedSyncBatchSize config.batchSize with
    | .error err => (s, some (.failed err))
    | .ok pageSize =>
      let page := buildSourceQueryPageSQL config.naming config.sourceType config.sourceQuery
        ctx.pkColumn pageSize
      let clear := clearTarget env (buildClearTargetTableSQL config ctx.targetQueryTable)
      let applyPage := applySourceQueryPage env config ctx
      if trimSpace (page 0) = [] then (s, some .unhandled)
      else if !config.batchApplier then
        (s, some (.failed (bytes "目标驱动不支持应用数据变更 (ApplyChanges)")))
      else if !config.opts.insert then clear s
      else
        readSource env (page 0) (bytes "分页读取源查询失败(offset=0): ")
          (fun firstRows s => andThen (clear s) fun s =>
            if firstRows = [] then (s, none)
            else andThen (applyPage firstRows s) fun s =>
              if firstRows.length < pageSize then (s, none)
              else importPages env pageSize page (bytes "分页读取源查询失败") applyPage fuel
                pageSize s)
          s

/-- The import of what the query has returned as a whole. -/
def importSourceQuery (selectionKeyColumns : List Text) (ctx : SourceQueryContext)
    (s : OverwriteState σ) : OverwriteState σ × Option OverwriteStop :=
  let selected := config.opts.selectedInsertPKs
  if config.opts.insert && selected ≠ [] &&
      !sourceQueryRowsHaveSelectionKey ctx.sourceRows selectionKeyColumns then
    (s, some (.failed (bytes "SQL 结果目标表 " ++ config.tableName ++
      bytes " 缺少稳定 key 字段，不能按指定行同步")))
  else
    let inserts := filterInsertRows config.naming
      (filterRowsByKeySelection selectionKeyColumns ctx.sourceRows config.opts.insert selected)
      (buildTargetColumnSet config.naming ctx.targetCols)
    if inserts ≠ [] && !config.batchApplier then
      (s, some (.failed (bytes "目标驱动不支持应用数据变更 (ApplyChanges)")))
    else
      andThen (clearTarget env (clearSQL config ctx.targetQueryTable) s) fun s =>
        if inserts = [] then andThen (checkContext env s) fun s => (s, some .completed)
        else andThen (applyInserts env (bytes "应用 SQL 结果集变更失败: ") inserts s) fun s =>
          (s, some .completed)

def runSourceQuerySync (fuel : ℕ) (targetQueryTable : Text) (s : OverwriteState σ) :
    OverwriteState σ × Option OverwriteStop :=
  if !config.opts.effective then
    (s, some (.failed (bytes "目标表 " ++ config.tableName ++
      bytes " 在 full_overwrite 模式下未启用有效数据操作，已拒绝执行")))
  else
    loadSourceQuerySyncContext env config targetQueryTable false (fun ctx s =>
      match config.sourceQuerySelectionKeyColumns ctx.targetCols with
      | .error err => (s, some (.failed err))
      | .ok selectionKeyColumns =>
        if config.opts.hasRowSelection && selectionKeyColumns = [] then
          (s, some (.failed (bytes "SQL 结果目标表 " ++ config.tableName ++
            bytes " 未找到主键或映射稳定 key，不能按指定行同步")))
        else
          match tryApplySourceQueryInPages env config fuel ctx s with
          | (s, some .unhandled) =>
            loadSourceQuerySyncContext env config targetQueryTable true
              (importSourceQuery env config selectionKeyColumns) s
          | (s, some (.failed err)) =>
            (s, some (.failed (bytes "分页同步 SQL 结果集失败: " ++ err)))
          | (s, some stop) => (s, some stop)
          | (s, none) => (s, some .completed)) s

end paths

end GoNavi.Sync
