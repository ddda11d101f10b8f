import GoNavi.Sql.LimitBounds
import GoNavi.Sqlfile.Batchable
import GoNavi.Sqlfile.Stream

/-! # Reading a batch back

A batch is the text of its statements with `;` and a newline between them
(`joinSQLFileBatchStatements`).  The loop of the dialect's splitter starts anew behind a `;` that
it comes to in code and outside blocks: what was read before only lengthens its record
(`Splitter.drive_behind`).  So **the statements of a batch are read back** when in front of each
separator the loop stands so, with the one statement read (`splitSQLStatements_join`).  A comment
at the end of a statement takes the separator in (`not_splitSQLStatements_join`). -/

namespace GoNavi.Sql

open Scan List

/-! ### The loop behind older text -/

variable {dbType older t : Text} {done : List Text} {esc : Bool} {s : Splitter} {c : UInt8}

theorem lineBlank_append {before : Text} (h : newline ∈ before) :
    lineBlank (before ++ older) = lineBlank before := by
  have hline : before.dropWhile (· != newline) ≠ [] := by
    intro hnil
    rw [dropWhile_eq_nil_iff] at hnil
    simpa using hnil newline h
  rw [lineBlank, takeWhile_append_of_dropWhile hline, lineBlank]

namespace Splitter

/-- The state behind older text, last byte first, and the statements in it. -/
def behind (older : Text) (done : List Text) (s : Splitter) : Splitter :=
  { s with before := s.before ++ older, statements := done ++ s.statements }

/-- Behind a newline, or in front of one, the loop does not look at older text. -/
def Fresh (s : Splitter) (older t : Text) : Prop :=
  older = [] ∨ newline ∈ s.before ∨ ∀ c ∈ t.head?, c = newline

theorem action_behind (h : s.Fresh older (c :: t)) :
    (s.behind older done).action dbType esc c t = s.action dbType esc c t := by
  have hbefore : c ≠ newline → lineBlank (s.before ++ older) = lineBlank s.before ∧
      (s.before ++ older).head? = s.before.head? := by
    intro hc
    rcases h with rfl | hmem | hnext
    · rw [append_nil]
      exact ⟨rfl, rfl⟩
    · exact ⟨lineBlank_append hmem, head?_append_of_ne_nil _ (ne_nil_of_mem hmem)⟩
    · exact absurd (hnext c rfl) hc
  have hslash : (s.behind older done).slashLine c t = s.slashLine c t := by
    unfold slashLine standaloneSQLSlashLineEnd behind
    by_cases hc : c = slash
    · rw [(hbefore (by rw [hc]; decide)).1]
    · rw [if_neg fun h => hc h.1, if_neg fun h => hc h.1]
  have hpunctuation : (s.behind older done).punctuation dbType c t = s.punctuation dbType c t := by
    have htag : c = dollar →
        parseSQLDollarTagAt (s.before ++ older) t = parseSQLDollarTagAt s.before t := by
      intro hc
      unfold parseSQLDollarTagAt
      rw [(hbefore (by rw [hc]; decide)).2]
    unfold punctuation behind delimiter
    by_cases hc : c = dollar
    · rw [htag hc]
    · simp only [hc, false_and, if_false]
  unfold action word code
  rw [hslash, hpunctuation]
  rfl

theorem apply_behind (a : Action) : (s.behind older done).apply dbType a c t =
    (s.apply dbType a c t).behind older done := by
  unfold apply behind
  cases a.effect <;> simp

/-- **The loop behind older text** goes through the same steps. -/
theorem drive_behind : ∀ (n : ℕ) {s : Splitter} {t : Text}, s.Fresh older t →
    (splitter dbType esc).drive n (s.behind older done) t =
      (((splitter dbType esc).drive n s t).1.behind older done,
        ((splitter dbType esc).drive n s t).2)
  | 0, _, _, _ => rfl
  | _ + 1, _, [], _ => rfl
  | n + 1, s, c :: t, h => by
    have hnext : (s.apply dbType (s.action dbType esc c t) c t).Fresh older
        (t.drop (s.action dbType esc c t).extra) := by
      refine h.imp_right fun h => .inl ?_
      have hmem : newline ∈ c :: s.before := by
        rcases h with h | h
        · exact mem_cons_of_mem _ h
        · exact h c rfl ▸ mem_cons_self
      unfold apply
      cases (s.action dbType esc c t).effect <;> simp_all
    simp only [Scanner.drive, splitter, action_behind h, apply_behind]
    exact drive_behind n hnext

/-- The loop may start anew behind a `;`: it stands in code, outside blocks. -/
def AtRest (s : Splitter) : Prop := s.mode = .code ∧ s.block = .initial

instance : Decidable s.AtRest := inferInstanceAs (Decidable (_ ∧ _))

theorem AtRest.run_semicolon (h : s.AtRest) :
    (splitter dbType esc).run s (semicolon :: t) =
      (splitter dbType esc).run (initial.behind (semicolon :: s.before) (s.finish dbType)) t := by
  obtain ⟨before, cur, statements, mode, block⟩ := s
  obtain ⟨rfl, rfl⟩ := h
  have hquoted : Mode.code.quoted dbType esc semicolon t = none :=
    Mode.InCode.quoted_none ⟨rfl, rfl, fun h => (nomatch h.2), rfl, rfl, rfl⟩ (by decide)
  have hstart : isSQLIdentifierStart semicolon = false := by decide
  refine Scanner.run_step ?_
  simp [splitter, action, hquoted, hstart, code, slashLine, punctuation, delimiter, apply, behind,
    finish, initial, Block.initial, semicolon, dash, hash, slash, dollar]

end Splitter

/-! ### Line ends -/

theorem normalizeLineEnds_cons (hc : c ≠ 0x0D) :
    normalizeLineEnds (c :: t) = c :: normalizeLineEnds t := by
  cases t with
  | nil => rfl
  | cons d t => rw [normalizeLineEnds, if_neg fun h => hc h.1]

theorem normalizeLineEnds_append : ∀ u : Text, normalizeLineEnds (u ++ semicolon :: t) =
    normalizeLineEnds u ++ semicolon :: normalizeLineEnds t
  | [] => normalizeLineEnds_cons (by decide)
  | [c] => by
    have hc : normalizeLineEnds (c :: semicolon :: t) = c :: normalizeLineEnds (semicolon :: t) := by
      rw [normalizeLineEnds, if_neg fun h => absurd h.2 (by decide)]
    rw [singleton_append, hc, normalizeLineEnds_cons (by decide)]
    rfl
  | c :: d :: u => by
    have hd := normalizeLineEnds_append (d :: u)
    have hu := normalizeLineEnds_append u
    rw [cons_append] at hd
    rw [cons_append, cons_append, normalizeLineEnds, normalizeLineEnds, hd, hu]
    split <;> rfl

end GoNavi.Sql

namespace GoNavi.Sqlfile

open Scan GoNavi.Sql

variable {dbType : Text}

/-! ### The text of a batch -/

/-- The statements of a batch behind its first, with the separators. -/
def glued (sqls : List Text) : Text := sqls.flatMap fun sql => semicolon :: newline :: sql

theorem joinSQLFileBatchStatements_cons (item : PendingStatement) :
    ∀ items : List PendingStatement,
      joinSQLFileBatchStatements (item :: items) = item.sql ++ glued (items.map (·.sql))
  | [] => by simp [joinSQLFileBatchStatements, glued]
  | next :: items => by
    have hnext := joinSQLFileBatchStatements_cons next items
    unfold joinSQLFileBatchStatements at hnext ⊢
    rw [List.map_cons, List.map_cons, List.intercalate_cons_cons, ← List.map_cons, hnext,
      List.append_assoc]
    rfl

theorem normalizeLineEnds_glued : ∀ (sql : Text) (sqls : List Text),
    (∀ x ∈ sql :: sqls, normalizeLineEnds x = x) →
    normalizeLineEnds (sql ++ glued sqls) = sql ++ glued sqls
  | sql, [], h => by simpa [glued] using h sql
  | sql, next :: sqls, h => by
    have hnext := normalizeLineEnds_glued next sqls fun x hx => h x (List.mem_cons_of_mem _ hx)
    rw [show glued (next :: sqls) = semicolon :: newline :: (next ++ glued sqls) from rfl,
      normalizeLineEnds_append, normalizeLineEnds_cons (by decide), hnext, h sql List.mem_cons_self]

/-! ### Statements that are read back -/

/-- Between `lead` and `rest` the loop reads the one statement `sql`, and comes to `rest` at
rest. -/
def ReadAlone (dbType lead sql rest : Text) : Prop :=
  ∃ n ∈ List.range ((lead ++ (sql ++ rest)).length + 1),
    let p := (splitter dbType true).drive n .initial (lead ++ (sql ++ rest))
    p.2 = rest ∧ p.1.finish dbType = [sql] ∧ (rest ≠ [] → p.1.AtRest)

instance (dbType lead sql rest : Text) : Decidable (ReadAlone dbType lead sql rest) :=
  List.decidableBEx _ _

/-- Every statement is read alone, with the text of the batch behind it. -/
def ReadApart (dbType : Text) : Text → List Text → Prop
  | _, [] => True
  | lead, sql :: sqls =>
    ReadAlone dbType lead sql (glued sqls) ∧ ReadApart dbType [newline] sqls

/-- What makes a batch readable: one statement where the dialect has no splitter, and otherwise
statements that the loop reads alone. -/
structure Rejoinable (dbType : Text) (sqls : List Text) : Prop where
  lineEnds : ∀ sql ∈ sqls, normalizeLineEnds sql = sql
  source : isElasticsearch dbType = true →
    sqls.length ≤ 1 ∧ ∀ sql ∈ sqls, trimSpace sql = sql ∧ sql ≠ []
  apart : isElasticsearch dbType = false → ReadApart dbType [] sqls

/-- The loop behind older text comes to the end of a statement that is read alone. -/
theorem run_behind {lead sql rest older : Text} {done : List Text}
    (h : ReadAlone dbType lead sql rest) (hlead : older = [] ∨ lead = [newline]) :
    ∃ s : Splitter, (splitter dbType true).run (Splitter.initial.behind older done)
        (lead ++ (sql ++ rest)) = (splitter dbType true).run (s.behind older done) rest ∧
      s.finish dbType = [sql] ∧ (rest ≠ [] → s.AtRest) := by
  obtain ⟨n, -, hn, hfinish, hrest⟩ := h
  have hfresh : Splitter.initial.Fresh older (lead ++ (sql ++ rest)) := by
    refine hlead.imp_right fun hlead => .inr ?_
    subst hlead
    intro c hc
    exact (Option.some.inj hc).symm
  have hreach := Scanner.drive_reach (M := splitter dbType true) n
    (Splitter.initial.behind older done) (lead ++ (sql ++ rest))
  rw [Splitter.drive_behind n hfresh, hn] at hreach
  exact ⟨_, hreach.run_eq, hfinish, hrest⟩

theorem finish_run_glued : ∀ {sqls : List Text} {sql lead older : Text} {done : List Text},
    ReadApart dbType lead (sql :: sqls) → older = [] ∨ lead = [newline] →
    ((splitter dbType true).run (Splitter.initial.behind older done)
      (lead ++ (sql ++ glued sqls))).1.finish dbType = done ++ sql :: sqls := by
  intro sqls
  induction sqls with
  | nil =>
    intro sql lead older done hapart hlead
    obtain ⟨s, hs, hfinish, -⟩ := run_behind hapart.1 hlead
    rw [hs, glued, List.flatMap_nil, Scanner.run_nil]
    unfold Splitter.finish Splitter.behind at *
    rw [List.append_assoc, hfinish]
  | cons next sqls ih =>
    intro sql lead older done hapart hlead
    obtain ⟨s, hs, hfinish, hrest⟩ := run_behind hapart.1 hlead
    have hrest' : (s.behind older done).AtRest := hrest (List.cons_ne_nil _ _)
    have hdone : (s.behind older done).finish dbType = done ++ [sql] := by
      unfold Splitter.finish Splitter.behind at *
      rw [List.append_assoc, hfinish]
    rw [hs, show glued (next :: sqls) = semicolon :: ([newline] ++ (next ++ glued sqls)) from rfl,
      hrest'.run_semicolon, ih hapart.2 (.inr rfl), hdone, List.append_assoc]
    rfl

/-- **The statements of a batch are read back** from its text. -/
theorem splitSQLStatements_join (dbType : Text) (items : List PendingStatement)
    (h : Rejoinable dbType (items.map (·.sql))) :
    splitSQLStatementsForDialect dbType (joinSQLFileBatchStatements items) = items.map (·.sql) := by
  cases items with
  | nil =>
    have hjoin : joinSQLFileBatchStatements [] = [] := rfl
    unfold splitSQLStatementsForDialect splitSQLStatementsForDialectMode
    rw [hjoin]
    simp [normalizeLineEnds, splitText, Splitter.finish, Splitter.piece, Splitter.initial]
  | cons item items =>
    obtain ⟨hline, hsource, hapart⟩ := h
    rw [List.map_cons] at hline hsource hapart ⊢
    unfold splitSQLStatementsForDialect splitSQLStatementsForDialectMode
    rw [joinSQLFileBatchStatements_cons, normalizeLineEnds_glued _ _ hline]
    cases hdialect : isElasticsearch dbType with
    | true =>
      obtain ⟨hlength, htrim⟩ := hsource hdialect
      obtain rfl : items = [] := by simpa using hlength
      obtain ⟨hsql, hne⟩ := htrim item.sql List.mem_cons_self
      simp [glued, hsql, hne]
    | false => exact @finish_run_glued _ _ _ _ [] [] (hapart hdialect) (.inl rfl)

/-- Two inserts. -/
theorem splitSQLStatements_join_inserts :
    splitSQLStatementsForDialect (bytes "mysql") (joinSQLFileBatchStatements
        [⟨0, bytes "INSERT INTO t VALUES (';')"⟩, ⟨1, bytes "DELETE FROM t"⟩]) =
      [bytes "INSERT INTO t VALUES (';')", bytes "DELETE FROM t"] :=
  splitSQLStatements_join (bytes "mysql")
    [⟨0, bytes "INSERT INTO t VALUES (';')"⟩, ⟨1, bytes "DELETE FROM t"⟩]
    ⟨by decide, by decide, fun _ => ⟨by decide, by decide, trivial⟩⟩

/-- A comment at the end of a statement takes in the separator. -/
theorem not_splitSQLStatements_join :
    ¬ ∀ (unicode : UnicodeTables) (gates : DocumentGates) (dbType text : Text)
      (items : List PendingStatement),
      items.map (·.sql) = streamStatements dbType (isSQLServerLexical dbType) [text] →
      (∀ item ∈ items, isSQLFileBatchableWriteStatement unicode gates dbType item.sql = true) →
      splitSQLStatementsForDialect dbType (joinSQLFileBatchStatements items) =
        items.map (·.sql) := by
  intro h
  have hjoin := h asciiTables noDocuments (bytes "mysql")
    (bytes "INSERT INTO t VALUES (1) -- one\n;\nINSERT INTO t VALUES (2);")
    [⟨0, bytes "INSERT INTO t VALUES (1) -- one"⟩, ⟨1, bytes "INSERT INTO t VALUES (2)"⟩]
    (by decide) (by decide)
  revert hjoin
  decide

end GoNavi.Sqlfile
