import GoNavi.Machine.Visit
import GoNavi.Scan.Runes
import GoNavi.Sql.Safety

/-! # The read-only gate of MongoDB

`isReadOnlyMongoCommand` of `connection_readonly.go`.  A command is a JSON object, decoded to a
map; the gate takes its command key from a loop over the map and looks at the pipeline only if
that key is `aggregate`.

`mongoGate_sound_iff` says for which commands the gate is sound in every order of the loops. -/

namespace GoNavi.Sql

open Scan Machine List

/-- What `encoding/json` decodes a text to. -/
inductive Json where
  | null
  | bool (b : Bool)
  | number (literal : Text)
  | string (s : Text)
  | array (items : List Json)
  | object (members : List (Text × Json))

/-- The entries of a decoded object. -/
abbrev Document := List (Text × Json)

def mongoReadOnlyCommands : List Text :=
  [bytes "aggregate", bytes "buildinfo", bytes "collstats", bytes "connectionstatus",
    bytes "count", bytes "countdocuments", bytes "dbstats", bytes "distinct", bytes "explain",
    bytes "find", bytes "findone", bytes "getparameter", bytes "hello", bytes "hostinfo",
    bytes "ismaster", bytes "listcollections", bytes "listdatabases", bytes "listindexes",
    bytes "ping", bytes "serverstatus"]

def mongoWriteCommands : List Text :=
  [bytes "bulkwrite", bytes "collmod", bytes "create", bytes "createindexes", bytes "delete",
    bytes "drop", bytes "dropdatabase", bytes "dropindexes", bytes "findandmodify",
    bytes "insert", bytes "mapreduce", bytes "renamecollection", bytes "update"]

def mongoMetaCommandKeys : List Text :=
  [bytes "$db", bytes "$readpreference", bytes "api", bytes "apideprecationerrors",
    bytes "apistrict", bytes "comment", bytes "let", bytes "lsid", bytes "maxtimems",
    bytes "ordered", bytes "readconcern", bytes "writeconcern"]

/-- The orders of the loops over maps: over the command for its key, over the command for its
pipeline, and over each stage. -/
structure MongoVisits where
  commandKey : Visit (Text × Json)
  pipeline : Visit (Text × Json)
  stage : ℕ → Visit (Text × Json)

section Gate

variable (unicode : UnicodeTables)

/-- `strings.ToLower(strings.TrimSpace(key))`. -/
def normalizedKey (key : Text) : Text := lower unicode (trimSpace key)

/-- The loop of `resolveMongoCommandKey`, with the key found so far. -/
def resolveLoop : Text → List Text → Text
  | commandKey, [] => commandKey
  | commandKey, key :: keys =>
    let normalized := normalizedKey unicode key
    if normalized = [] then resolveLoop commandKey keys
    else if normalized ∈ mongoMetaCommandKeys then resolveLoop commandKey keys
    else if normalized ∈ mongoWriteCommands then normalized
    else if normalized ∈ mongoReadOnlyCommands then resolveLoop normalized keys
    else resolveLoop commandKey keys

def resolveMongoCommandKey (visits : MongoVisits) (doc : Document) : Text :=
  resolveLoop unicode [] ((visits.commandKey.order doc).map Prod.fst)

/-- `strings.EqualFold(strings.TrimSpace(key), "pipeline")`; no rune beyond ASCII folds to a
letter of the word. -/
def isPipelineKey (key : Text) : Bool := toLower (trimSpace key) = bytes "pipeline"

def isWriteStageKey (key : Text) : Bool :=
  normalizedKey unicode key ∈ [bytes "$out", bytes "$merge"]

/-- The loop over the stages of a pipeline. -/
def stagesWrite (visit : ℕ → Visit (Text × Json)) : Json → Bool
  | .array stages => stages.zipIdx.any fun p =>
    match p.1 with
    | .object members => ((visit p.2).order members).any fun e => isWriteStageKey unicode e.1
    | _ => false
  | _ => false

def mongoAggregateHasWriteStage (visits : MongoVisits) (doc : Document) : Bool :=
  match (visits.pipeline.order doc).find? fun e => isPipelineKey e.1 with
  | none => false
  | some (_, pipeline) => stagesWrite unicode visits.stage pipeline

/-- The gate behind the decoder. -/
def isReadOnlyMongoDocument (visits : MongoVisits) (doc : Document) : Bool :=
  let commandKey := resolveMongoCommandKey unicode visits doc
  if commandKey = [] then false
  else if commandKey ∈ mongoWriteCommands then false
  else if commandKey = bytes "aggregate" ∧ mongoAggregateHasWriteStage unicode visits doc then
    false
  else commandKey ∈ mongoReadOnlyCommands

/-- `unmarshal` is `json.Unmarshal` into a map. -/
def isReadOnlyMongoCommand (unmarshal : Text → Option Document) (visits : MongoVisits)
    (query : Text) : Bool :=
  let trimmed := trimSpace query
  if (bytes "\x7b").isPrefixOf trimmed then
    match unmarshal trimmed with
    | none => false
    | some doc => isReadOnlyMongoDocument unicode visits doc
  else false

/-! ### What the gate is for -/

def IsWriteKey (key : Text) : Prop := normalizedKey unicode key ∈ mongoWriteCommands

def IsReadKey (key : Text) : Prop := normalizedKey unicode key ∈ mongoReadOnlyCommands

def IsAggregateKey (key : Text) : Prop := normalizedKey unicode key = bytes "aggregate"

/-- A pipeline with a `$out` or a `$merge` stage at some position. -/
def WritingPipeline (pipeline : Json) : Prop :=
  ∃ stages members, pipeline = .array stages ∧ .object members ∈ stages ∧
    ∃ e ∈ members, isWriteStageKey unicode e.1 = true

/-- An aggregate command whose pipeline writes. -/
def AggregateWrites (doc : Document) : Prop :=
  (∃ e ∈ doc, IsAggregateKey unicode e.1) ∧
    ∃ e ∈ doc, isPipelineKey e.1 = true ∧ WritingPipeline unicode e.2

/-- No write command and no aggregate command whose pipeline writes. -/
structure ReadsOnly (doc : Document) : Prop where
  noWrite : ∀ e ∈ doc, ¬ IsWriteKey unicode e.1
  noAggregate : ¬ AggregateWrites unicode doc

/-- The command has no second reading: `aggregate` is its only read-only command, and each of
its pipelines writes. -/
structure PlainAggregate (doc : Document) : Prop where
  only : ∀ e ∈ doc, IsReadKey unicode e.1 → IsAggregateKey unicode e.1
  pipelines : ∀ e ∈ doc, isPipelineKey e.1 = true → WritingPipeline unicode e.2

/-- An aggregate command whose pipeline writes is seen by the gate in every order: a write
command stands beside it, or it is a plain one. -/
def GateSettled (doc : Document) : Prop :=
  AggregateWrites unicode doc →
    (∃ e ∈ doc, IsWriteKey unicode e.1) ∨ PlainAggregate unicode doc

end Gate

/-! ### The command key -/

section Key

variable {unicode : UnicodeTables}

/-- No command is a meta key, and no read-only command is a write command. -/
theorem commands_apart :
    (∀ key ∈ mongoWriteCommands, key ≠ [] ∧ key ∉ mongoMetaCommandKeys) ∧
    ∀ key ∈ mongoReadOnlyCommands, key ≠ [] ∧ key ∉ mongoMetaCommandKeys ∧
      key ∉ mongoWriteCommands := by
  decide

theorem resolveLoop_of_write {keys : List Text} (h : ∃ key ∈ keys, IsWriteKey unicode key) :
    ∀ commandKey, resolveLoop unicode commandKey keys ∈ mongoWriteCommands := by
  induction keys with
  | nil =>
    obtain ⟨key, hkey, -⟩ := h
    cases hkey
  | cons key keys ih =>
    intro commandKey
    obtain ⟨k, hk, hkey⟩ := h
    have hwrite : normalizedKey unicode k ∈ mongoWriteCommands := hkey
    simp only [resolveLoop]
    rcases mem_cons.mp hk with rfl | hk
    · obtain ⟨hne, hmeta⟩ := commands_apart.1 _ hwrite
      rw [if_neg hne, if_neg hmeta, if_pos hwrite]
      exact hwrite
    · have hrest := ih ⟨k, hk, hkey⟩
      split_ifs with h₁ h₂ h₃ h₄
      · exact hrest _
      · exact hrest _
      · exact h₃
      · exact hrest _
      · exact hrest _

/-- Without a write command the last read-only command is found. -/
theorem resolveLoop_of_no_write {keys : List Text} (h : ∀ key ∈ keys, ¬ IsWriteKey unicode key) :
    ∀ commandKey, resolveLoop unicode commandKey keys =
      ((keys.map (normalizedKey unicode)).filter (· ∈ mongoReadOnlyCommands)).getLastD
        commandKey := by
  induction keys with
  | nil =>
    intro commandKey
    rfl
  | cons key keys ih =>
    intro commandKey
    have hkey := forall_mem_cons.mp h
    have hwrite : normalizedKey unicode key ∉ mongoWriteCommands := hkey.1
    simp only [resolveLoop, map_cons]
    by_cases hread : normalizedKey unicode key ∈ mongoReadOnlyCommands
    · obtain ⟨hne, hmeta, _⟩ := commands_apart.2 _ hread
      rw [if_neg hne, if_neg hmeta, if_neg hwrite, if_pos hread, ih hkey.2,
        filter_cons_of_pos (by simpa using hread), getLastD_cons]
    · rw [filter_cons_of_neg (by simpa using hread)]
      split_ifs <;> exact ih hkey.2 _

variable {visits : MongoVisits} {doc : Document}

theorem mem_visited {v : Visit (Text × Json)} {key : Text} :
    key ∈ (v.order doc).map Prod.fst ↔ ∃ e ∈ doc, e.1 = key := by
  rw [mem_map]
  constructor
  · rintro ⟨e, he, hkey⟩
    exact ⟨e, v.mem_order.mp he, hkey⟩
  · rintro ⟨e, he, hkey⟩
    exact ⟨e, v.mem_order.mpr he, hkey⟩

theorem gate_of_write (h : ∃ e ∈ doc, IsWriteKey unicode e.1) :
    isReadOnlyMongoDocument unicode visits doc = false := by
  obtain ⟨e, he, hwrite⟩ := h
  have hkey : resolveMongoCommandKey unicode visits doc ∈ mongoWriteCommands :=
    resolveLoop_of_write ⟨e.1, mem_visited.mpr ⟨e, he, rfl⟩, hwrite⟩ []
  simp only [isReadOnlyMongoDocument]
  rw [if_neg (commands_apart.1 _ hkey).1, if_pos hkey]

/-- Without a write command the command key is one of the read-only commands, or there is
none. -/
theorem resolve_cases (h : ∀ e ∈ doc, ¬ IsWriteKey unicode e.1) :
    resolveMongoCommandKey unicode visits doc = [] ∨
      ∃ e ∈ doc, IsReadKey unicode e.1 ∧
        resolveMongoCommandKey unicode visits doc = normalizedKey unicode e.1 := by
  unfold resolveMongoCommandKey
  rw [resolveLoop_of_no_write]
  · generalize hl : ((((visits.commandKey.order doc).map Prod.fst).map
      (normalizedKey unicode)).filter (· ∈ mongoReadOnlyCommands)) = l
    cases l using List.reverseRecOn with
    | nil => exact .inl rfl
    | append_singleton l k =>
      right
      rw [getLastD_concat]
      have hmem : k ∈ l ++ [k] := mem_append_right l (mem_singleton.mpr rfl)
      rw [← hl, mem_filter, mem_map] at hmem
      obtain ⟨⟨key, hkey, rfl⟩, hread⟩ := hmem
      obtain ⟨e, he, rfl⟩ := mem_visited.mp hkey
      exact ⟨e, he, by simpa [IsReadKey] using hread, rfl⟩
  · intro key hkey
    obtain ⟨e, he, rfl⟩ := mem_visited.mp hkey
    exact h e he

theorem exists_resolve {e : Text × Json} (h : ∀ e ∈ doc, ¬ IsWriteKey unicode e.1) (he : e ∈ doc)
    (hread : IsReadKey unicode e.1) :
    ∃ v : Visit (Text × Json), ∀ visits : MongoVisits, visits.commandKey = v →
      resolveMongoCommandKey unicode visits doc = normalizedKey unicode e.1 := by
  obtain ⟨v, l, hv⟩ := Visit.exists_visit_last he
  have hmem : normalizedKey unicode e.1 ∈ mongoReadOnlyCommands := hread
  have hlast : [normalizedKey unicode e.1].filter (· ∈ mongoReadOnlyCommands) =
      [normalizedKey unicode e.1] := by simpa using hmem
  refine ⟨v, ?_⟩
  rintro visits rfl
  unfold resolveMongoCommandKey
  rw [resolveLoop_of_no_write]
  · rw [hv, map_append, map_append, filter_append, map_singleton,
      map_singleton, hlast,
      getLastD_concat]
  · intro key hkey
    obtain ⟨e', he', rfl⟩ := mem_visited.mp hkey
    exact h e' he'

end Key

/-! ### The pipeline -/

section Pipeline

variable {unicode : UnicodeTables} {visits : MongoVisits} {doc : Document}

theorem stagesWrite_iff {visit : ℕ → Visit (Text × Json)} {pipeline : Json} :
    stagesWrite unicode visit pipeline = true ↔ WritingPipeline unicode pipeline := by
  unfold stagesWrite WritingPipeline
  cases pipeline with
  | array stages =>
    simp only [any_eq_true]
    constructor
    · rintro ⟨⟨stage, i⟩, hp, hstage⟩
      have hmem : stage ∈ stages := fst_mem_of_mem_zipIdx hp
      cases stage with
      | object members =>
        simp only [Visit.any_order, any_eq_true] at hstage
        exact ⟨stages, members, rfl, hmem, hstage⟩
      | _ => cases hstage
    · rintro ⟨_, members, heq, hmem, hkey⟩
      cases heq
      obtain ⟨i, hi, hget⟩ := getElem_of_mem hmem
      refine ⟨(.object members, i), mk_mem_zipIdx_iff_getElem?.mpr ?_, ?_⟩
      · rw [getElem?_eq_getElem hi, hget]
      · simp only [Visit.any_order, any_eq_true]
        exact hkey
  | _ => simp

/-- The pipeline that the gate looks at is one of those of the command. -/
theorem hasWriteStage_cases :
    (mongoAggregateHasWriteStage unicode visits doc = false ∧
      ∀ e ∈ doc, isPipelineKey e.1 = false) ∨
    ∃ e ∈ doc, isPipelineKey e.1 = true ∧
      (mongoAggregateHasWriteStage unicode visits doc = true ↔ WritingPipeline unicode e.2) := by
  unfold mongoAggregateHasWriteStage
  cases hf : (visits.pipeline.order doc).find? fun e => isPipelineKey e.1 with
  | none =>
    left
    refine ⟨rfl, fun e he => ?_⟩
    have := find?_eq_none.mp hf e (visits.pipeline.mem_order.mpr he)
    simpa using this
  | some e =>
    right
    have hkey : isPipelineKey e.1 = true := (find?_eq_some_iff_append.mp hf).1
    exact ⟨e, visits.pipeline.mem_order.mp (mem_of_find?_eq_some hf), hkey, stagesWrite_iff⟩

/-- Any pipeline of the command can be the one that the gate sees. -/
theorem exists_hasWriteStage {e : Text × Json} (he : e ∈ doc)
    (hkey : isPipelineKey e.1 = true) :
    ∃ v : Visit (Text × Json), ∀ visits : MongoVisits, visits.pipeline = v →
      (mongoAggregateHasWriteStage unicode visits doc = true ↔ WritingPipeline unicode e.2) := by
  obtain ⟨v, l, hv⟩ := Visit.exists_visit_first he
  refine ⟨v, ?_⟩
  rintro visits rfl
  unfold mongoAggregateHasWriteStage
  simp only [hv, find?_cons, hkey]
  exact stagesWrite_iff

end Pipeline

/-! ### Soundness -/

section Soundness

variable {unicode : UnicodeTables} {visits : MongoVisits} {doc : Document}

/-- What the gate accepts has a command key that is a read-only command; if it is `aggregate`,
the pipeline that the gate sees does not write. -/
theorem gate_accepts_iff : isReadOnlyMongoDocument unicode visits doc = true ↔
    resolveMongoCommandKey unicode visits doc ∈ mongoReadOnlyCommands ∧
      (resolveMongoCommandKey unicode visits doc = bytes "aggregate" →
        mongoAggregateHasWriteStage unicode visits doc = false) := by
  simp only [isReadOnlyMongoDocument]
  generalize resolveMongoCommandKey unicode visits doc = key
  by_cases hread : key ∈ mongoReadOnlyCommands
  · obtain ⟨hne, _, hwrite⟩ := commands_apart.2 key hread
    rw [if_neg hne, if_neg hwrite]
    cases mongoAggregateHasWriteStage unicode visits doc <;> simp [hread]
  · constructor
    · intro h
      split_ifs at h
      exact absurd (by simpa using h) hread
    · rintro ⟨h, -⟩
      exact absurd h hread

theorem gateSettled_of_sound
    (h : ∀ visits, isReadOnlyMongoDocument unicode visits doc = true → ReadsOnly unicode doc) :
    GateSettled unicode doc := by
  intro hwrites
  by_cases hwrite : ∃ e ∈ doc, IsWriteKey unicode e.1
  · exact .inl hwrite
  · right
    push Not at hwrite
    have hrefuses : ∀ visits, ¬ isReadOnlyMongoDocument unicode visits doc = true :=
      fun visits hv => (h visits hv).noAggregate hwrites
    refine ⟨fun e he hread => ?_, fun e he hkey => ?_⟩
    · by_contra hne
      obtain ⟨v, hv⟩ := exists_resolve hwrite he hread
      refine hrefuses ⟨v, .listed, fun _ => .listed⟩ (gate_accepts_iff.mpr ?_)
      rw [hv _ rfl]
      exact ⟨hread, fun heq => absurd heq hne⟩
    · by_contra hpipe
      obtain ⟨⟨a, ha, haggregate⟩, -⟩ := hwrites
      have hread : IsReadKey unicode a.1 := by
        unfold IsReadKey
        rw [show normalizedKey unicode a.1 = bytes "aggregate" from haggregate]
        exact mem_cons_self
      obtain ⟨v, hv⟩ := exists_resolve hwrite ha hread
      obtain ⟨w, hw⟩ := @exists_hasWriteStage unicode doc e he hkey
      refine hrefuses ⟨v, w, fun _ => .listed⟩ (gate_accepts_iff.mpr ?_)
      rw [hv _ rfl]
      refine ⟨hread, fun _ => ?_⟩
      have hiff := hw ⟨v, w, fun _ => .listed⟩ rfl
      exact Bool.eq_false_iff.mpr fun htrue => hpipe (hiff.mp htrue)

theorem sound_of_gateSettled (h : GateSettled unicode doc)
    (haccepts : isReadOnlyMongoDocument unicode visits doc = true) : ReadsOnly unicode doc := by
  have hwrite : ∀ e ∈ doc, ¬ IsWriteKey unicode e.1 := by
    intro e he hw
    rw [gate_of_write ⟨e, he, hw⟩] at haccepts
    cases haccepts
  refine ⟨hwrite, fun hwrites => ?_⟩
  rcases h hwrites with ⟨e, he, hw⟩ | hplain
  · exact hwrite e he hw
  · obtain ⟨hread, hstage⟩ := gate_accepts_iff.mp haccepts
    have hkey : resolveMongoCommandKey unicode visits doc = bytes "aggregate" := by
      rcases resolve_cases hwrite with hnil | ⟨e, he, heread, heq⟩
      · exact absurd hnil (commands_apart.2 _ hread).1
      · rw [heq]
        exact hplain.only e he heread
    obtain ⟨-, p, hp, hpkey, -⟩ := hwrites
    rcases @hasWriteStage_cases unicode visits doc with
      ⟨-, hnone⟩ | ⟨e, he, hekey, hiff⟩
    · rw [hnone p hp] at hpkey
      cases hpkey
    · have htrue := hiff.mpr (hplain.pipelines e he hekey)
      rw [hstage hkey] at htrue
      cases htrue

end Soundness

/-- **The gate of MongoDB is sound in every order of its loops exactly for the commands in
which an aggregate command that writes has nothing beside it that the gate may see instead**:
no second read-only command, no second pipeline. -/
theorem mongoGate_sound_iff (unicode : UnicodeTables) (unmarshal : Text → Option Document)
    (query : Text) :
    (∀ visits, isReadOnlyMongoCommand unicode unmarshal visits query = true →
      ∀ doc, unmarshal (trimSpace query) = some doc → ReadsOnly unicode doc) ↔
    ((bytes "\x7b").isPrefixOf (trimSpace query) = true →
      ∀ doc, unmarshal (trimSpace query) = some doc → GateSettled unicode doc) := by
  have hgate : ∀ visits doc, unmarshal (trimSpace query) = some doc →
      (bytes "\x7b").isPrefixOf (trimSpace query) = true →
      isReadOnlyMongoCommand unicode unmarshal visits query =
        isReadOnlyMongoDocument unicode visits doc := by
    intro visits doc hdoc hbrace
    simp only [isReadOnlyMongoCommand]
    rw [if_pos hbrace, hdoc]
  constructor
  · intro h hbrace doc hdoc
    apply gateSettled_of_sound
    intro visits haccepts
    exact h visits ((hgate visits doc hdoc hbrace).trans haccepts) doc hdoc
  · intro h visits haccepts doc hdoc
    by_cases hbrace : (bytes "\x7b").isPrefixOf (trimSpace query) = true
    · exact sound_of_gateSettled (h hbrace doc hdoc) ((hgate visits doc hdoc hbrace).symm.trans
        haccepts)
    · simp only [isReadOnlyMongoCommand] at haccepts
      rw [if_neg hbrace] at haccepts
      cases haccepts

/-- An aggregate command with a `$out` stage, and a second read-only command. -/
def archiveDocument : Document :=
  [(bytes "aggregate", .string (bytes "users")),
    (bytes "pipeline", .array [.object [(bytes "$out", .string (bytes "archive"))]]),
    (bytes "find", .string (bytes "users"))]

def archiveCommand : Text :=
  bytes "\x7b\"aggregate\":\"users\",\"pipeline\":[\x7b\"$out\":\"archive\"\x7d]," ++
    bytes "\"find\":\"users\"\x7d"

def unmarshalArchive (text : Text) : Option Document :=
  if text = archiveCommand then some archiveDocument else none

/-- In the order of the text the gate sees `find` last, and lets the command through. -/
theorem mongoGate_unsound :
    ¬ ∀ visits, isReadOnlyMongoCommand asciiTables unmarshalArchive visits archiveCommand = true →
      ∀ doc, unmarshalArchive (trimSpace archiveCommand) = some doc →
        ReadsOnly asciiTables doc := by
  intro h
  have hreads : ReadsOnly asciiTables archiveDocument :=
    h ⟨.listed, .listed, fun _ => .listed⟩ (by decide) archiveDocument
      (if_pos (by decide))
  have haggregate : IsAggregateKey asciiTables (bytes "aggregate") := by
    unfold IsAggregateKey
    decide
  exact hreads.noAggregate ⟨⟨_, mem_cons_self, haggregate⟩, _,
    mem_cons_of_mem _ mem_cons_self, by decide, _, _, rfl, mem_cons_self,
    _, mem_cons_self, by decide⟩

end GoNavi.Sql
