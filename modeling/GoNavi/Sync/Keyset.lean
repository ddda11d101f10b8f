import GoNavi.Machine.Fallible
import GoNavi.Machine.Ternary
import GoNavi.Sync.Window

/-! # The predicate of a cursor

`buildWatermarkLexicographicPredicate` writes the condition that a page query puts on the columns
it orders by: the columns before one are equal to the cursor and that one compares, for each
column.  How identifiers are quoted and literals are written is left open; a database reads the
condition with its three truth values, and compares values of a column in a linear order.

**A row satisfies the condition if and only if its columns are past the cursor in lexicographic
order, or at it when the condition is inclusive** (`watermarkPredicate_lexicographic`). -/

namespace GoNavi.Sync

open Scan List

/-! ### The predicate -/

inductive SqlOperator where
  | eq
  | gt
  | lt
  | ge
  | le
  deriving DecidableEq

def SqlOperator.text : SqlOperator → Text
  | .eq => bytes "="
  | .gt => bytes ">"
  | .lt => bytes "<"
  | .ge => bytes ">="
  | .le => bytes "<="

/-- `operator += "="`. -/
def SqlOperator.orEqual : SqlOperator → SqlOperator
  | .gt => .ge
  | .lt => .le
  | operator => operator

/-- A column, an operator and a literal. -/
structure SqlComparison where
  column : Text
  operator : SqlOperator
  literal : Text
  deriving DecidableEq

/-- A disjunction of conjunctions. -/
abbrev SqlPredicate := List (List SqlComparison)

inductive PredicateError where
  | arity
  | comparator (comparator : Text)
  | literal (err : Text)
  deriving DecidableEq

def comparatorOf (comparator : Text) : Option SqlOperator :=
  if comparator = bytes ">" then some .gt else if comparator = bytes "<" then some .lt else none

/-- The clauses, for columns with their literals. -/
def lexicographicClauses (operator : SqlOperator) (inclusive : Bool) (pairs : List (Text × Text)) :
    SqlPredicate :=
  pairs.zipIdx.map fun (pair, index) =>
    (pairs.take index).map (fun equal => ⟨equal.1, .eq, equal.2⟩) ++
      [⟨pair.1, if inclusive ∧ index + 1 = pairs.length then operator.orEqual else operator,
        pair.2⟩]

section build

variable {υ : Type} (sqlLiteral : υ → Except Text Text)

/-- The literals of the values, or the error of the first one without. -/
def literalsOf (values : List υ) : Except PredicateError (List Text) :=
  values.mapM fun value =>
    match sqlLiteral value with
    | .ok literal => .ok literal
    | .error err => .error (.literal err)

def buildWatermarkLexicographicPredicate (columns : List Text) (values : List υ)
    (comparator : Text) (inclusive : Bool) : Except PredicateError SqlPredicate :=
  if columns = [] ∨ columns.length ≠ values.length then .error .arity
  else
    match comparatorOf comparator with
    | none => .error (.comparator comparator)
    | some operator => do
      let literals ← literalsOf sqlLiteral values
      return lexicographicClauses operator inclusive (columns.zip literals)

end build

/-- The text of a predicate. -/
def SqlPredicate.text (quoteIdent : Text → Text) (predicate : SqlPredicate) : Text :=
  let parts := fun clause : List SqlComparison => clause.map fun c =>
    quoteIdent c.column ++ bytes " " ++ c.operator.text ++ bytes " " ++ c.literal
  let clauses := predicate.map fun clause =>
    bytes "(" ++ List.intercalate (bytes " AND ") (parts clause) ++ bytes ")"
  bytes "(" ++ List.intercalate (bytes " OR ") clauses ++ bytes ")"

example : (buildWatermarkLexicographicPredicate .ok [bytes "t", bytes "id"] [bytes "5", bytes "7"]
    (bytes "<") true).map (SqlPredicate.text id) =
      .ok (bytes "((t < 5) OR (t = 5 AND id <= 7))") := by
  decide

/-! ### What a database makes of it -/

section semantics

variable {V : Type} [LinearOrder V]

def SqlOperator.compares (column literal : V) : SqlOperator → Bool
  | .eq => column = literal
  | .gt => literal < column
  | .lt => column < literal
  | .ge => literal ≤ column
  | .le => column ≤ literal

/-- A comparison with NULL is unknown. -/
def SqlComparison.truth (row : Text → Option V) (denote : Text → V) (c : SqlComparison) :
    Ternary.Truth :=
  (row c.column).map fun column => c.operator.compares column (denote c.literal)

def SqlPredicate.truth (row : Text → Option V) (denote : Text → V) (predicate : SqlPredicate) :
    Ternary.Truth :=
  Ternary.any (predicate.map fun clause => Ternary.all (clause.map (·.truth row denote)))

/-- A row satisfies a predicate that is true of it. -/
def SqlPredicate.Holds (row : Text → Option V) (denote : Text → V) (predicate : SqlPredicate) :
    Prop :=
  predicate.truth row denote = some true

/-- Lexicographic order, of columns that may be NULL: the columns are past the values, or at them
when the order is inclusive. -/
def PastCursor (greater inclusive : Bool) : List (Option V) → List V → Prop
  | [], [] => inclusive = true
  | some column :: columns, value :: values =>
    (if greater then value < column else column < value) ∨
      column = value ∧ PastCursor greater inclusive columns values
  | _, _ => False

/-! ### Clauses -/

variable {row : Text → Option V} {denote : Text → V} {predicate : SqlPredicate}

theorem SqlPredicate.holds_iff : predicate.Holds row denote ↔
    ∃ clause ∈ predicate, ∀ c ∈ clause, c.truth row denote = some true := by
  simp [SqlPredicate.Holds, SqlPredicate.truth, Ternary.any_eq_true, Ternary.all_eq_true]

/-- The first clause compares the first column; the others require that it is equal. -/
theorem lexicographicClauses_cons (operator : SqlOperator) (inclusive : Bool)
    (pair : Text × Text) (pairs : List (Text × Text)) :
    lexicographicClauses operator inclusive (pair :: pairs) =
      [⟨pair.1, if inclusive ∧ pairs = [] then operator.orEqual else operator, pair.2⟩] ::
        (lexicographicClauses operator inclusive pairs).map (⟨pair.1, .eq, pair.2⟩ :: ·) := by
  unfold lexicographicClauses
  rw [zipIdx_cons, map_cons, Nat.zero_add, zipIdx_succ, map_map, map_map]
  congr 1
  · cases pairs <;> simp
  · simp [Function.comp_def]

theorem truth_eq_true {c : SqlComparison} : c.truth row denote = some true ↔
    ∃ column, row c.column = some column ∧
      c.operator.compares column (denote c.literal) = true := by
  simp [SqlComparison.truth]

variable {inclusive : Bool} {operator : SqlOperator}

theorem holds_cons {pair : Text × Text} {pairs : List (Text × Text)} :
    SqlPredicate.Holds row denote (lexicographicClauses operator inclusive (pair :: pairs)) ↔
      ∃ column, row pair.1 = some column ∧
        ((if inclusive = true ∧ pairs = [] then operator.orEqual else operator).compares column
            (denote pair.2) = true ∨
          column = denote pair.2 ∧
            SqlPredicate.Holds row denote (lexicographicClauses operator inclusive pairs)) := by
  rw [SqlPredicate.holds_iff, SqlPredicate.holds_iff, lexicographicClauses_cons]
  simp only [exists_mem_cons_iff, mem_map, forall_mem_singleton, truth_eq_true]
  constructor
  · rintro (⟨column, hrow, hcompares⟩ | ⟨_, ⟨clause, hclause, rfl⟩, hall⟩)
    · exact ⟨column, hrow, .inl hcompares⟩
    · rw [forall_mem_cons] at hall
      obtain ⟨⟨column, hrow, hequal⟩, hall⟩ := hall
      have hequal : column = denote pair.2 := by simpa [SqlOperator.compares] using hequal
      exact ⟨column, hrow, .inr ⟨hequal, clause, hclause, hall⟩⟩
  · rintro ⟨column, hrow, hcompares | ⟨hequal, clause, hclause, hall⟩⟩
    · exact .inl ⟨column, hrow, hcompares⟩
    · refine .inr ⟨_, ⟨clause, hclause, rfl⟩, ?_⟩
      rw [forall_mem_cons]
      exact ⟨⟨column, hrow, by simpa [SqlOperator.compares] using hequal⟩, hall⟩

/-- The operator of a direction. -/
def directionOf (greater : Bool) : SqlOperator := if greater then .gt else .lt

theorem compares_direction (greater : Bool) (column literal : V) :
    (directionOf greater).compares column literal = true ↔
      (if greater then literal < column else column < literal) := by
  cases greater <;> simp [directionOf, SqlOperator.compares]

theorem compares_orEqual (greater : Bool) (column literal : V) :
    (directionOf greater).orEqual.compares column literal = true ↔
      (if greater then literal < column else column < literal) ∨ column = literal := by
  cases greater with
  | false => simp [directionOf, SqlOperator.orEqual, SqlOperator.compares, le_iff_lt_or_eq]
  | true =>
    simp [directionOf, SqlOperator.orEqual, SqlOperator.compares, le_iff_lt_or_eq,
      eq_comm (a := literal)]

/-- **The clauses say that the columns are past the cursor**, by induction on the number of
columns. -/
theorem holds_iff_pastCursor (greater inclusive : Bool) : ∀ {pairs : List (Text × Text)},
    pairs ≠ [] →
    (SqlPredicate.Holds row denote
        (lexicographicClauses (directionOf greater) inclusive pairs) ↔
      PastCursor greater inclusive (pairs.map fun pair => row pair.1)
        (pairs.map fun pair => denote pair.2))
  | [], h => absurd rfl h
  | [pair], _ => by
    rw [holds_cons]
    have hnone : ¬ SqlPredicate.Holds row denote
        (lexicographicClauses (directionOf greater) inclusive []) := by
      simp [SqlPredicate.holds_iff, lexicographicClauses]
    simp only [map_cons, map_nil, hnone, and_false, or_false]
    cases hrow : row pair.1 with
    | none => simp [PastCursor]
    | some column =>
      cases inclusive with
      | false => simp [PastCursor, compares_direction]
      | true => simp [PastCursor, compares_orEqual]
  | pair :: next :: pairs, _ => by
    have ih := holds_iff_pastCursor greater inclusive (cons_ne_nil next pairs)
    rw [holds_cons, ih]
    simp only [map_cons]
    cases hrow : row pair.1 with
    | none => simp [PastCursor]
    | some column =>
      rw [PastCursor]
      simp [compares_direction]

/-! ### Columns that are not NULL -/

/-- The order of positions that a direction and an inclusive flag stand for. -/
def OrderedPast (greater inclusive : Bool) (position cursor : List V) : Prop :=
  match greater, inclusive with
  | true, false => cursor < position
  | true, true => cursor ≤ position
  | false, false => position < cursor
  | false, true => position ≤ cursor

theorem pastCursor_iff (greater inclusive : Bool) : ∀ {position cursor : List V},
    position.length = cursor.length →
    (PastCursor greater inclusive (position.map some) cursor ↔
      OrderedPast greater inclusive position cursor)
  | [], [], _ => by cases greater <;> cases inclusive <;> simp [PastCursor, OrderedPast]
  | column :: position, value :: cursor, h => by
    have ih := pastCursor_iff greater inclusive (Nat.succ.inj h)
    rw [map_cons, PastCursor, ih]
    cases greater <;> cases inclusive <;>
      simp only [OrderedPast, cons_le_cons_iff, cons_lt_cons_iff, if_true, if_false,
        Bool.false_eq_true, eq_comm (a := value)]

/-- The predicate of the model of the page query is the one that is written. -/
theorem lexicographicPredicate_iff_pastCursor (greater inclusive : Bool) :
    ∀ {position cursor : List V}, position ≠ [] → position.length = cursor.length →
    (lexicographicPredicate greater inclusive cursor position = true ↔
      PastCursor greater inclusive (position.map some) cursor)
  | [], _, h, _ => absurd rfl h
  | [column], [value], _, _ => by
    rw [lexicographicPredicate_cons]
    cases greater <;> cases inclusive <;>
      simp [lexicographicPredicate, PastCursor]
  | column :: next :: position, value :: next' :: cursor, _, h => by
    have ih := lexicographicPredicate_iff_pastCursor greater inclusive
      (cons_ne_nil next position) (Nat.succ.inj h)
    rw [lexicographicPredicate_cons, map_cons, PastCursor, ← ih]
    cases greater <;> simp

/-! ### The main result -/

variable {υ : Type} {sqlLiteral : υ → Except Text Text} {comparator : Text}

theorem comparatorOf_eq_some (h : comparatorOf comparator = some operator) :
    operator = directionOf (comparator = bytes ">") := by
  unfold comparatorOf at h
  split_ifs at h with hgreater hless <;> cases h <;> simp [directionOf, hgreater]

variable {values : List υ}

theorem length_literalsOf {literals : List Text} (h : literalsOf sqlLiteral values = .ok literals) :
    literals.length = values.length := by
  induction values generalizing literals with
  | nil =>
    cases h
    rfl
  | cons value values ih =>
    unfold literalsOf at h ih
    rw [mapM_cons, Fallible.bind_eq_ok] at h
    obtain ⟨literal, -, h⟩ := h
    rw [Fallible.bind_eq_ok] at h
    obtain ⟨literals, hliterals, h⟩ := h
    cases h
    rw [length_cons, length_cons, ih hliterals]

/-- What is written is the clauses for the columns and the literals of the values. -/
theorem buildWatermarkLexicographicPredicate_eq_ok {columns : List Text}
    (h : buildWatermarkLexicographicPredicate sqlLiteral columns values comparator inclusive =
      .ok predicate) :
    ∃ literals, literalsOf sqlLiteral values = .ok literals ∧ columns ≠ [] ∧
      columns.length = literals.length ∧
      predicate = lexicographicClauses (directionOf (comparator = bytes ">")) inclusive
        (columns.zip literals) := by
  unfold buildWatermarkLexicographicPredicate at h
  split at h
  · cases h
  · rename_i harity
    rw [not_or, not_not] at harity
    split at h
    · cases h
    · rename_i operator hoperator
      rw [Fallible.bind_eq_ok] at h
      obtain ⟨literals, hliterals, h⟩ := h
      cases h
      rw [comparatorOf_eq_some hoperator]
      exact ⟨literals, hliterals, harity.1, harity.2.trans (length_literalsOf hliterals).symm, rfl⟩

end semantics

/-- **The predicate means lexicographic order**: it is true of a row if and only if the columns of
the row are past the cursor in the direction of the comparator, or at it when it is inclusive; for
columns that are not NULL this is the order of lists. -/
theorem watermarkPredicate_lexicographic {υ : Type} (sqlLiteral : υ → Except Text Text)
    (columns : List Text) (values : List υ) (comparator : Text) (inclusive : Bool)
    {predicate : SqlPredicate}
    (h : buildWatermarkLexicographicPredicate sqlLiteral columns values comparator inclusive =
      .ok predicate) :
    ∃ literals, literalsOf sqlLiteral values = .ok literals ∧
      ∀ {V : Type} [LinearOrder V] (row : Text → Option V) (denote : Text → V),
        (predicate.Holds row denote ↔
          PastCursor (comparator = bytes ">") inclusive (columns.map row)
            (literals.map denote)) ∧
        ∀ position, columns.map row = position.map some →
          (predicate.Holds row denote ↔
            OrderedPast (comparator = bytes ">") inclusive position (literals.map denote)) := by
  obtain ⟨literals, hliterals, hcolumns, hlength, rfl⟩ :=
    buildWatermarkLexicographicPredicate_eq_ok h
  refine ⟨literals, hliterals, ?_⟩
  intro V _ row denote
  have hpairs : columns.zip literals ≠ [] := by
    intro hnil
    have hzip := congrArg List.length hnil
    rw [length_zip, ← hlength, Nat.min_self, length_nil, length_eq_zero_iff] at hzip
    exact hcolumns hzip
  have hcolumns : (columns.zip literals).map Prod.fst = columns := map_fst_zip hlength.le
  have hliterals : (columns.zip literals).map Prod.snd = literals := map_snd_zip hlength.ge
  have hrow : (columns.zip literals).map (fun pair => row pair.1) = columns.map row := by
    conv_rhs => rw [← hcolumns]
    rw [map_map]
    rfl
  have hcursor : (columns.zip literals).map (fun pair => denote pair.2) = literals.map denote := by
    conv_rhs => rw [← hliterals]
    rw [map_map]
    rfl
  have hholds := @holds_iff_pastCursor _ _ row denote (comparator = bytes ">") inclusive _ hpairs
  rw [hrow, hcursor] at hholds
  refine ⟨hholds, ?_⟩
  intro position hposition
  rw [hholds, hposition]
  refine pastCursor_iff _ _ ?_
  have hlen := congrArg List.length hposition
  rw [length_map, length_map] at hlen
  rw [length_map, ← hlen, hlength]

/-- The upper bound of a page over two columns. -/
theorem watermarkPredicate_lexicographic_pair :
    ∃ literals, literalsOf (υ := Text) .ok [bytes "5", bytes "7"] = .ok literals ∧
      ∀ {V : Type} [LinearOrder V] (row : Text → Option V) (denote : Text → V),
        (SqlPredicate.Holds row denote
            [[⟨bytes "t", .lt, bytes "5"⟩],
              [⟨bytes "t", .eq, bytes "5"⟩, ⟨bytes "id", .le, bytes "7"⟩]] ↔
          PastCursor (bytes "<" = bytes ">") true ([bytes "t", bytes "id"].map row)
            (literals.map denote)) ∧
        ∀ position, [bytes "t", bytes "id"].map row = position.map some →
          (SqlPredicate.Holds row denote
              [[⟨bytes "t", .lt, bytes "5"⟩],
                [⟨bytes "t", .eq, bytes "5"⟩, ⟨bytes "id", .le, bytes "7"⟩]] ↔
            OrderedPast (bytes "<" = bytes ">") true position (literals.map denote)) :=
  watermarkPredicate_lexicographic .ok [bytes "t", bytes "id"] [bytes "5", bytes "7"] (bytes "<")
    true (by decide)

end GoNavi.Sync
