import GoNavi.Sync.Overwrite

/-! # Overwriting reads first

Every step leaves the rows of the target or comes behind a read of the source that has succeeded.

**As long as no read of the source has succeeded, the target has the rows it had**
(`overwrite_reads_first`). -/

namespace GoNavi.Sync

open Scan Stoppable

/-! ### The rows of the target -/

section kept

variable {σ : Type} {env : OverwriteWorld σ} {config : OverwriteConfig} {rows : List TableRow}
  {I : OverwriteState σ → Prop}

/-- As long as no read of the source has succeeded, the target has these rows. -/
def Kept (env : OverwriteWorld σ) (rows : List TableRow) (s : OverwriteState σ) : Prop :=
  s.sourceRead = false → env.rows s.world = rows

def WasRead (s : OverwriteState σ) : Prop := s.sourceRead = true

/-- What holds at the end however a part ends. -/
abbrev Always (I : OverwriteState σ → Prop) (r : OverwriteState σ × Option OverwriteStop) : Prop :=
  Ends I (fun _ => I) r

/-- What only speaks of the reads of the source and of the rows of the target. -/
def AboutRows (env : OverwriteWorld σ) (I : OverwriteState σ → Prop) : Prop :=
  ∀ s s' : OverwriteState σ, s'.sourceRead = s.sourceRead →
    env.rows s'.world = env.rows s.world → I s → I s'

theorem kept_aboutRows : AboutRows env (Kept env rows) := by
  intro s s' hread hrows h hnot
  rw [hrows]
  apply h
  rw [← hread, hnot]

theorem wasRead_aboutRows : AboutRows env WasRead := by
  intro s s' hread _ h
  unfold WasRead
  rw [hread, h]

theorem WasRead.kept {s : OverwriteState σ} (h : WasRead s) : Kept env rows s := by
  intro hnot
  rw [h] at hnot
  cases hnot

theorem always_kept {r : OverwriteState σ × Option OverwriteStop} (h : Always WasRead r) :
    Always (Kept env rows) r :=
  h.mono (fun _ => WasRead.kept) (fun _ _ => WasRead.kept)

/-! ### Steps that leave the rows -/

theorem attempt_always {α : Type} (hI : AboutRows env I) {access : σ → Except Text α × σ}
    (haccess : ∀ s, env.rows (access s).2 = env.rows s) {message : Text} {next : Continuation σ α}
    (hnext : ∀ a s, I s → Always I (next a s)) (s : OverwriteState σ) (hs : I s) :
    Always I (attempt access message next s) := by
  unfold attempt
  have hrows := haccess s.world
  split
  · rename_i err world heq
    rw [heq] at hrows
    exact hI s _ rfl hrows hs
  · rename_i a world heq
    rw [heq] at hrows
    exact hnext a _ (hI s _ rfl hrows hs)

theorem checkContext_always (s : OverwriteState σ) (hs : I s) :
    Always I (checkContext env s) := by
  unfold checkContext
  cases env.contextError s.world with
  | none => exact hs
  | some err => exact hs

theorem executeStatements_always (hI : AboutRows env I) (message : Text)
    (statements : List Text) (s : OverwriteState σ) (hs : I s) :
    Always I (executeStatements env message statements s) := by
  refine Ends.forEach (I := fun _ => I) (fun statement _ s hs => ?_) statements s hs
  split
  · exact hs
  · split
    · exact hs
    · exact attempt_always hI (env.define_rows _) (fun _ s hs => (ends_go s).mpr hs) s hs

theorem resolveTargetColumns_always (hI : AboutRows env I) (targetCols : List SyncColumn)
    {next : Continuation σ (List SyncColumn)} (hnext : ∀ a s, I s → Always I (next a s))
    (s : OverwriteState σ) (hs : I s) :
    Always I (resolveTargetColumns env targetCols next s) := by
  unfold resolveTargetColumns
  split
  · exact attempt_always hI env.getColumns_rows hnext s hs
  · exact hnext _ s hs

theorem addDirectImportColumn_always (hI : AboutRows env I) (plan : SchemaMigrationPlan)
    (sourceCols : List SyncColumn) (name : Text) (s : OverwriteState σ) (hs : I s) :
    Always I (addDirectImportColumn env config plan sourceCols name s) := by
  unfold addDirectImportColumn
  split
  · exact hs
  · dsimp only
    split
    · exact hs
    · exact attempt_always hI (env.define_rows _) (fun _ s hs => (ends_go s).mpr hs) s hs

theorem prepareDirectImportTargetColumnSet_always (hI : AboutRows env I)
    (plan : SchemaMigrationPlan) (sourceCols targetCols : List SyncColumn)
    {next : Continuation σ (List Text)} (hnext : ∀ a s, I s → Always I (next a s))
    (s : OverwriteState σ) (hs : I s) :
    Always I (prepareDirectImportTargetColumnSet env config plan sourceCols targetCols next s) := by
  unfold prepareDirectImportTargetColumnSet
  refine resolveTargetColumns_always hI targetCols (fun cols s hs => ?_) s hs
  dsimp only
  split
  · exact hnext _ s hs
  · split
    · exact hnext _ s hs
    · split
      · split
        · exact hs
        · refine Ends.andThen (P := I) ?_ (hnext _)
          exact Ends.forEach (I := fun _ => I)
            (fun name _ s hs => addDirectImportColumn_always hI plan sourceCols name s hs) _ s hs
      · exact hnext _ s hs

theorem addColumn_always (hI : AboutRows env I) (plan : SchemaMigrationPlan)
    (sourceCols : List SyncColumn) (name : Text) (s : OverwriteState σ) (hs : I s) :
    Always I (addColumn env config plan sourceCols name s) := by
  unfold addColumn
  split
  · exact hI s _ rfl rfl hs
  · split
    · exact hI s _ rfl rfl hs
    · rename_i statement _
      have hrows := env.define_rows statement s.world
      split
      · rename_i heq
        rw [heq] at hrows
        exact hI s _ rfl hrows hs
      · rename_i heq
        rw [heq] at hrows
        exact hI s _ rfl hrows hs

theorem fitInserts_always (hI : AboutRows env I) (plan : SchemaMigrationPlan)
    (sourceCols cols : List SyncColumn) (inserts : List TableRow)
    {next : Continuation σ (List TableRow)} (hnext : ∀ a s, I s → Always I (next a s))
    (s : OverwriteState σ) (hs : I s) :
    Always I (fitInserts env config plan sourceCols cols inserts next s) := by
  unfold fitInserts
  dsimp only
  split
  · exact hnext _ s hs
  split
  · exact hs
  split
  · exact hs
  split
  · refine Ends.andThen (P := I) ?_ fun s hs => ?_
    · exact Ends.forEach (I := fun _ => I)
        (fun name _ s hs => addColumn_always hI plan sourceCols name s hs) _ s hs
    · split
      · exact hs
      · exact hnext _ s hs
  · exact hnext _ s hs

theorem finishTable_always (hI : AboutRows env I) (plan : SchemaMigrationPlan)
    (schemaChanges : Bool) (s : OverwriteState σ) (hs : I s) :
    Always I (finishTable env config plan schemaChanges s) := by
  unfold finishTable
  refine Ends.andThen (P := I) ?_ fun s hs => hs
  split
  · exact executeStatements_always hI _ _ s hs
  · exact hs

/-! ### Reading, clearing and inserting -/

/-- **What follows a read of the source follows one that has succeeded.** -/
theorem readSource_always (hI : AboutRows env I) {query message : Text}
    {next : Continuation σ (List TableRow)} (hnext : ∀ a s, WasRead s → Always I (next a s))
    (s : OverwriteState σ) (hs : I s) : Always I (readSource env query message next s) :=
  attempt_always hI (env.readSource_rows query)
    (fun a s _ => hnext a { s with sourceRead := true } rfl) s hs

theorem clearTarget_wasRead (statement : Text) (s : OverwriteState σ) (hs : WasRead s) :
    Always WasRead (clearTarget env statement s) := by
  unfold clearTarget attempt
  split
  · exact hs
  · exact hs

theorem clearExisting_wasRead {tableExists : Bool} (statement : Text) (s : OverwriteState σ)
    (hs : WasRead s) :
    Always WasRead (if tableExists then clearTarget env statement s else (s, none)) := by
  split
  · exact clearTarget_wasRead statement s hs
  · exact hs

theorem applyInserts_wasRead (message : Text) (inserts : List TableRow) (s : OverwriteState σ)
    (hs : WasRead s) : Always WasRead (applyInserts env message inserts s) := by
  unfold applyInserts
  dsimp only
  cases (env.applySnapshotChanges inserts s.world).1.2 with
  | none => exact hs
  | some err => exact hs

theorem applyDirectImportPage_wasRead (pkCol : Text) (targetColSet : List Text)
    (inserts : List TableRow) (s : OverwriteState σ) (hs : WasRead s) :
    Always WasRead (applyDirectImportPage env config pkCol targetColSet inserts s) := by
  unfold applyDirectImportPage
  dsimp only
  split
  · exact hs
  · exact applyInserts_wasRead _ _ s hs

theorem applySourceQueryPage_wasRead (ctx : SourceQueryContext) (inserts : List TableRow)
    (s : OverwriteState σ) (hs : WasRead s) :
    Always WasRead (applySourceQueryPage env config ctx inserts s) := by
  unfold applySourceQueryPage
  dsimp only
  split
  · exact hs
  · exact applyInserts_wasRead _ _ s hs

theorem importPages_wasRead (pageSize : ℕ) (page : ℕ → Text) (message : Text)
    {applyPage : List TableRow → OverwriteState σ → OverwriteState σ × Option OverwriteStop}
    (happly : ∀ inserts s, WasRead s → Always WasRead (applyPage inserts s)) :
    ∀ (fuel offset : ℕ) (s : OverwriteState σ), WasRead s →
      Always WasRead (importPages env pageSize page message applyPage fuel offset s)
  | 0, _, _, hs => hs
  | fuel + 1, offset, s, hs => by
    unfold importPages
    refine readSource_always wasRead_aboutRows (fun found s hs => ?_) s hs
    split
    · exact hs
    · refine Ends.andThen (happly _ s hs) fun s hs => ?_
      split
      · exact hs
      · exact importPages_wasRead pageSize page message happly fuel _ s hs

/-! ### Paths -/

/-- **The import of the pages of a table.** -/
theorem tryApplyDirectImportInPages_kept (fuel : ℕ) (plan : SchemaMigrationPlan)
    (sourceCols targetCols : List SyncColumn) (s : OverwriteState σ) (hs : Kept env rows s) :
    Always (Kept env rows)
      (tryApplyDirectImportInPages env config fuel plan sourceCols targetCols s) := by
  unfold tryApplyDirectImportInPages
  apply Ends.ite
  · intro _
    exact hs
  intro _
  apply Ends.ite
  · intro _
    exact hs
  intro _
  apply Ends.ite
  · intro _
    exact hs
  intro _
  cases normalizedSyncBatchSize config.batchSize with
  | error err => exact hs
  | ok pageSize =>
  cases directImportPaginationPK config.naming.unicode config.sourceType sourceCols with
  | none => exact hs
  | some pkCol =>
  -- whatever the query is
  generalize trimSpace _ = firstPageQuery
  apply Ends.ite
  · intro _
    exact hs
  intro _
  apply Ends.ite
  · intro _
    exact hs
  intro _
  refine readSource_always kept_aboutRows (fun firstRows s hs => always_kept ?_) s hs
  refine prepareDirectImportTargetColumnSet_always wasRead_aboutRows plan sourceCols targetCols
    (fun targetColSet s hs => ?_) s hs
  refine (clearExisting_wasRead _ s hs).andThen fun s hs => ?_
  refine (applyDirectImportPage_wasRead _ _ _ s hs).andThen fun s hs => ?_
  split
  · exact hs
  · exact importPages_wasRead _ _ _ (applyDirectImportPage_wasRead _ _) fuel _ s hs

/-- **The import of what has been read as a whole.** -/
theorem importSnapshot_kept (plan : SchemaMigrationPlan) (sourceCols targetCols : List SyncColumn)
    (selectionKeyCols : List Text) (project : TableRow → Except Text TableRow)
    (s : OverwriteState σ) (hs : Kept env rows s) :
    Always (Kept env rows)
      (importSnapshot env config plan sourceCols targetCols selectionKeyCols project s) := by
  unfold importSnapshot
  refine readSource_always kept_aboutRows (fun sourceRows s hs => always_kept ?_) s hs
  split
  · exact hs
  refine resolveTargetColumns_always wasRead_aboutRows targetCols (fun cols s hs => ?_) s hs
  refine fitInserts_always wasRead_aboutRows plan sourceCols cols _ (fun inserts s hs => ?_) s hs
  split
  · exact hs
  refine (clearExisting_wasRead _ s hs).andThen fun s hs => ?_
  have happly : Always WasRead
      (if inserts ≠ [] then applyInserts env (bytes "应用变更失败: ") inserts s
      else (s, none)) := by
    split
    · exact applyInserts_wasRead _ _ s hs
    · exact hs
  exact happly.andThen fun s hs => finishTable_always wasRead_aboutRows plan _ s hs

theorem importTable_kept (fuel : ℕ) (project : TableRow → Except Text TableRow)
    (plan : SchemaMigrationPlan) (sourceCols targetCols : List SyncColumn)
    (s : OverwriteState σ) (hs : Kept env rows s) :
    Always (Kept env rows)
      (importTable env config fuel project plan sourceCols targetCols s) := by
  unfold importTable
  split
  · exact finishTable_always kept_aboutRows plan _ s hs
  split
  · exact hs
  split
  · exact hs
  split
  · exact hs
  have hpages : Always (Kept env rows)
      (tryApplyDirectImportInPages env config fuel plan sourceCols targetCols s) :=
    tryApplyDirectImportInPages_kept fuel plan sourceCols targetCols s hs
  split
  · rename_i heq
    rw [heq] at hpages
    exact importSnapshot_kept plan sourceCols targetCols _ project _ hpages
  · rename_i heq
    rw [heq] at hpages
    exact hpages
  · rename_i heq
    rw [heq] at hpages
    exact hpages
  · rename_i heq
    rw [heq] at hpages
    exact finishTable_always kept_aboutRows plan _ _ hpages

theorem prepareTable_kept (plan : SchemaMigrationPlan) (targetCols : List SyncColumn)
    {next : Continuation σ (List SyncColumn)}
    (hnext : ∀ a s, Kept env rows s → Always (Kept env rows) (next a s))
    (s : OverwriteState σ) (hs : Kept env rows s) :
    Always (Kept env rows) (prepareTable env config plan targetCols next s) := by
  have hcolumns : ∀ message s, Kept env rows s →
      Always (Kept env rows) (attempt env.getColumns message next s) := fun message s hs =>
    attempt_always kept_aboutRows env.getColumns_rows hnext s hs
  unfold prepareTable
  split
  · refine (executeStatements_always kept_aboutRows _ _ s hs).andThen fun s hs => ?_
    split
    · exact hs
    · refine Ends.andThen (P := Kept env rows) ?_ (hcolumns _)
      split
      · exact attempt_always kept_aboutRows (env.define_rows _)
          (fun _ s hs => (ends_go s).mpr hs) s hs
      · exact hs
  · split
    · exact (executeStatements_always kept_aboutRows _ _ s hs).andThen (hcolumns _)
    · exact hnext _ s hs

theorem syncTable_kept (fuel : ℕ) (s : OverwriteState σ) (hs : Kept env rows s) :
    Always (Kept env rows) (syncTable env config fuel s) := by
  unfold syncTable
  refine (checkContext_always s hs).andThen fun s hs => ?_
  refine attempt_always kept_aboutRows env.plan_rows (fun (plan, sourceCols, targetCols) s hs => ?_)
    s hs
  refine (checkContext_always s hs).andThen fun s hs => ?_
  split
  · exact hs
  split
  · exact hs
  exact prepareTable_kept plan targetCols
    (fun targetCols s hs => importTable_kept fuel _ plan sourceCols targetCols s hs) s hs

/-- **The import of the pages of a query**, for rows that are to be inserted. -/
theorem tryApplySourceQueryInPages_kept (hinsert : config.opts.insert = true) (fuel : ℕ)
    (ctx : SourceQueryContext) (s : OverwriteState σ) (hs : Kept env rows s) :
    Always (Kept env rows) (tryApplySourceQueryInPages env config fuel ctx s) := by
  unfold tryApplySourceQueryInPages
  apply Ends.ite
  · intro _
    exact hs
  intro _
  apply Ends.ite
  · intro _
    exact hs
  intro _
  apply Ends.ite
  · intro _
    exact hs
  intro _
  apply Ends.ite
  · intro _
    exact hs
  intro _
  cases normalizedSyncBatchSize config.batchSize with
  | error err => exact hs
  | ok pageSize =>
  apply Ends.ite
  · intro _
    exact hs
  intro _
  apply Ends.ite
  · intro _
    exact hs
  intro _
  apply Ends.ite
  · intro hnot
    rw [hinsert] at hnot
    cases hnot
  intro _
  refine readSource_always kept_aboutRows (fun firstRows s hs => always_kept ?_) s hs
  refine (clearTarget_wasRead _ s hs).andThen fun s hs => ?_
  split
  · exact hs
  refine (applySourceQueryPage_wasRead ctx _ s hs).andThen fun s hs => ?_
  split
  · exact hs
  · exact importPages_wasRead _ _ _ (applySourceQueryPage_wasRead ctx) fuel _ s hs

theorem importSourceQuery_wasRead (selectionKeyColumns : List Text) (ctx : SourceQueryContext)
    (s : OverwriteState σ) (hs : WasRead s) :
    Always WasRead (importSourceQuery env config selectionKeyColumns ctx s) := by
  unfold importSourceQuery
  dsimp only
  split
  · exact hs
  split
  · exact hs
  refine (clearTarget_wasRead _ s hs).andThen fun s hs => ?_
  split
  · exact (checkContext_always s hs).andThen fun s hs => hs
  · exact (applyInserts_wasRead _ _ s hs).andThen fun s hs => hs

theorem loadSourceQuerySyncContext_kept (targetQueryTable : Text) (needSourceRows : Bool)
    {next : Continuation σ SourceQueryContext}
    (hnext : ∀ ctx s, Kept env rows s → (needSourceRows = true → WasRead s) →
      Always (Kept env rows) (next ctx s))
    (s : OverwriteState σ) (hs : Kept env rows s) :
    Always (Kept env rows)
      (loadSourceQuerySyncContext env config targetQueryTable needSourceRows next s) := by
  unfold loadSourceQuerySyncContext
  refine (checkContext_always s hs).andThen fun s hs => ?_
  refine attempt_always kept_aboutRows env.getColumns_rows (fun targetCols s hs => ?_) s hs
  refine (checkContext_always s hs).andThen fun s hs => ?_
  split
  · exact hs
  split
  · exact hs
  split
  · exact hs
  split
  · refine readSource_always kept_aboutRows (fun sourceRows s hread => ?_) s hs
    split
    · exact hread.kept
    · exact hnext _ s hread.kept fun _ => hread
  · rename_i hneed
    exact hnext _ s hs fun h => absurd h hneed

theorem runSourceQuerySync_kept (fuel : ℕ) (targetQueryTable : Text) (s : OverwriteState σ)
    (hs : Kept env rows s) :
    Always (Kept env rows) (runSourceQuerySync env config fuel targetQueryTable s) := by
  unfold runSourceQuerySync
  split
  · exact hs
  rename_i heffective
  have hinsert : config.opts.insert = true := by
    simpa [TableOptions.effective] using heffective
  refine loadSourceQuerySyncContext_kept _ false (fun ctx s hs _ => ?_) s hs
  split
  · exact hs
  split
  · exact hs
  have hpages := tryApplySourceQueryInPages_kept hinsert fuel ctx s hs
  split
  · rename_i heq
    rw [heq] at hpages
    refine loadSourceQuerySyncContext_kept _ true (fun ctx s _ hread => ?_) _ hpages
    exact always_kept (importSourceQuery_wasRead _ ctx s (hread rfl))
  · rename_i heq
    rw [heq] at hpages
    exact hpages
  · rename_i heq
    rw [heq] at hpages
    exact hpages
  · rename_i heq
    rw [heq] at hpages
    exact hpages

end kept

end GoNavi.Sync
