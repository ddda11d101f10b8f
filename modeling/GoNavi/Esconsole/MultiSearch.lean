import GoNavi.Scan.Text
import Mathlib.Data.List.DropRight

/-! # Multi-searches of the console

A multi-search is sent as lines of JSON, by turns a header and a body.  The policy looks at the
last member `index` of a header and blocks the request if it names a remote cluster.  The server
also reads the member `indices`, and may read any of several members with one name.

**A multi-search that is not blocked stays local if and only if its other members do**
(`staysLocal_iff`); the headers that the server reads are the ones that the policy looked at. -/

namespace GoNavi.Esconsole

open Scan List

/-! ### Requests -/

/-- A JSON value; an object has its members as they are written. -/
inductive Json where
  | null
  | bool (b : Bool)
  | number (literal : Text)
  | string (t : Text)
  | array (items : List Json)
  | object (members : List (Text × Json))

abbrev Members := List (Text × Json)

/-- What is taken from the libraries: the members of the object that a text starts with,
`json.Compact` and `strings.ToLower`. -/
structure Libraries where
  object : Text → Option Members
  compact : Text → Option Text
  toLower : Text → Text

structure ParseError where
  code : Text
  message : Text
  line : ℕ := 0

inductive Risk where
  | read | normalWrite | dangerous | blocked
deriving DecidableEq

/-- A request of the source; the path is decoded, and its query is given by the keys. -/
structure SourceRequest where
  method : Text
  decodedPath : Text
  queryKeys : List Text
  body : Text

structure Request where
  risk : Risk := .blocked
  blockReason : Text := bytes "endpoint_not_allowed"
  route : Text := []
  target : Text := []
  body : Text
  containsScript : Bool := false
  operationCount : ℕ := 0
  /-- The headers that the policy has looked at. -/
  inspected : List Members := []

def maxRequests : ℕ := 100
def maxNDJSONLineBytes : ℕ := 8 * 1024 * 1024

def newline : UInt8 := 0x0A

/-! ### Paths -/

def allowRequest (risk : Risk) (route target : Text) (req : Request) : Request :=
  { req with risk, route, target, blockReason := [] }

def blockRequest (reason : Text) (req : Request) : Request :=
  { req with risk := .blocked, route := [], target := [], blockReason := reason }

def splitPath (decodedPath : Text) : List Text :=
  let trimmed := (decodedPath.dropWhile (· = '/'.toUInt8)).rdropWhile (· = '/'.toUInt8)
  if trimmed = [] then [] else trimmed.splitOn '/'.toUInt8

/-- The cases `_msearch` of `classifyRootEndpoint` and `classifyTargetEndpoint`, with the route and
the target. -/
def multiSearchRoute (method : Text) (segments : List Text) : Option (Text × Text) :=
  if method ≠ bytes "GET" ∧ method ≠ bytes "POST" then none
  else
    match segments with
    | [first] => if first = bytes "_msearch" then some (bytes "/_msearch", []) else none
    | [target, endpoint] =>
      if endpoint = bytes "_msearch" ∧ ¬ (bytes "_").isPrefixOf target then
        some (bytes "/\x7btarget\x7d/_msearch", target)
      else none
    | _ => none

/-- `classifyRequest` of a multi-search; no rune beyond ASCII folds to a letter of the key. -/
def classifyRequest (source : SourceRequest) : Option Request :=
  match multiSearchRoute source.method (splitPath source.decodedPath) with
  | none => none
  | some (route, target) =>
    let req := allowRequest .read route target { body := source.body }
    some (if ':'.toUInt8 ∈ req.target then blockRequest (bytes "remote_cluster") req
      else if ∃ key ∈ source.queryKeys, Scan.toLower key = bytes "filter_path" then
        blockRequest (bytes "response_filter_not_allowed") req
      else req)

/-! ### Bodies -/

/-- A map has the last of several members with one name. -/
def memberOf (name : Text) : Members → Option Json
  | [] => none
  | (n, value) :: rest => (memberOf name rest).or (if n = name then some value else none)

def msearchHeaderUsesRemoteCluster (header : Members) : Bool :=
  match memberOf (bytes "index") header with
  | some (.string t) => ':'.toUInt8 ∈ t
  | some (.array items) => items.any fun
    | .string t => ':'.toUInt8 ∈ t
    | _ => false
  | _ => false

def scriptKeys : List Text :=
  [bytes "script", bytes "_script", bytes "script_fields", bytes "runtime_mappings",
    bytes "script_score", bytes "scripted_metric"]

variable (lib : Libraries)

mutual

def containsExecutableSearchNode : Json → Bool
  | .object members => membersContain members
  | .array items => itemsContain items
  | _ => false

def membersContain : Members → Bool
  | [] => false
  | member :: rest =>
    ((memberOf member.1 rest).isNone && memberContains member) || membersContain rest

def memberContains : Text × Json → Bool
  | (key, child) => decide (lib.toLower key ∈ scriptKeys) || containsExecutableSearchNode child

def itemsContain : List Json → Bool
  | [] => false
  | child :: rest => containsExecutableSearchNode child || itemsContain rest

end

def invalidNDJSON (message : String) (line : ℕ) : ParseError :=
  ⟨bytes "invalid_ndjson", bytes message, line⟩

variable {σ : Type}

/-- `transformNDJSONLines`, from the lines of the body. -/
def transformNDJSONLines (visit : ℕ → Members → σ → Except ParseError σ) :
    List Text → ℕ → σ → Text → Except ParseError (Text × σ)
  | [], _, s, normalized => .ok (normalized, s)
  | line :: lines, lineIndex, s, normalized =>
    if maxNDJSONLineBytes < line.length then
      .error ⟨bytes "ndjson_line_too_large", bytes "Elasticsearch NDJSON line exceeds 8 MiB",
        lineIndex + 1⟩
    else if trimSpace line = [] then
      transformNDJSONLines visit lines (lineIndex + 1) s normalized
    else
      match lib.object (trimSpace line) with
      | none =>
        .error (invalidNDJSON "Elasticsearch NDJSON line must be one JSON object" (lineIndex + 1))
      | some object =>
        match lib.compact (trimSpace line) with
        | none => .error (invalidNDJSON "Elasticsearch NDJSON line is invalid JSON" (lineIndex + 1))
        | some compact =>
          match visit (lineIndex + 1) object s with
          | .error err => .error err
          | .ok s =>
            transformNDJSONLines visit lines (lineIndex + 1) s (normalized ++ compact ++ [newline])

/-- The visitor of `normalizeMultiSearchBody`, with the number of lines that are not blank. -/
def visitMultiSearch (_ : ℕ) (object : Members) (s : ℕ × Request) :
    Except ParseError (ℕ × Request) :=
  let nonEmptyLines := s.1 + 1
  let req := s.2
  if nonEmptyLines % 2 = 1 then
    let req := { req with inspected := req.inspected ++ [object] }
    .ok (nonEmptyLines, if msearchHeaderUsesRemoteCluster object then
      blockRequest (bytes "remote_cluster") req else req)
  else if maxRequests < req.operationCount + 1 then
    .error ⟨bytes "too_many_requests",
      bytes "Elasticsearch multi-search exceeds 100 requests", 0⟩
  else .ok (nonEmptyLines, { req with
    operationCount := req.operationCount + 1
    containsScript := req.containsScript || containsExecutableSearchNode lib (.object object) })

def normalizeMultiSearchBody (req : Request) : Except ParseError Request :=
  let lines := req.body.splitOn newline
  match transformNDJSONLines lib (visitMultiSearch lib) lines 0 (0, req) [] with
  | .error err => .error err
  | .ok (normalized, nonEmptyLines, req) =>
    if nonEmptyLines = 0 ∨ nonEmptyLines % 2 ≠ 0 then
      .error (invalidNDJSON "Elasticsearch multi-search body must contain header/body pairs" 0)
    else .ok { req with body := normalized }

/-- `prepareBatch` of a multi-search; other requests are left out. -/
def prepareMultiSearch (source : SourceRequest) : Option (Except ParseError Request) :=
  (classifyRequest source).map fun req =>
    if req.risk = .blocked then .ok req
    else if trimSpace req.body = [] then
      .error (invalidNDJSON "Elasticsearch NDJSON body is required" 0)
    else
      match normalizeMultiSearchBody lib req with
      | .error err => .error err
      | .ok req =>
        .ok (if req.containsScript ∧ req.risk ≠ .blocked then { req with risk := .dangerous }
          else req)

/-! ### What the server reads -/

/-- Every other one of the lines behind `n` others, so that headers have odd numbers. -/
def headerLines {α : Type} : ℕ → List α → List α
  | _, [] => []
  | n, line :: lines =>
    if (n + 1) % 2 = 1 then line :: headerLines (n + 1) lines else headerLines (n + 1) lines

/-- The objects of the headers among some lines. -/
def headersOf (lines : List Text) : List (Option Members) := (headerLines 0 lines).map lib.object

/-- The headers of a body in which every line ends with a newline. -/
def serverHeaders (body : Text) : List (Option Members) :=
  headersOf lib (body.splitOn newline).dropLast

/-- The lines of a source that are not blank. -/
def sourceLines (lines : List Text) : List Text := (lines.map trimSpace).filter (· ≠ [])

def NamesRemote (name : Text) : Prop := ':'.toUInt8 ∈ name

/-- The names of index expressions in a value: a text with commas, or a list of such texts. -/
def names : Json → List Text
  | .string t => t.splitOn ','.toUInt8
  | .array items => items.flatMap fun
    | .string t => t.splitOn ','.toUInt8
    | _ => []
  | _ => []

def namesIndices (name : Text) : Prop := name = bytes "index" ∨ name = bytes "indices"

/-- The first segment of a path is its target if a second one follows. -/
def serverTargets (decodedPath : Text) : List Text :=
  match splitPath decodedPath with
  | [target, _] => target.splitOn ','.toUInt8
  | _ => []

/-- A request names no remote cluster, and its headers are those that the policy looked at. -/
structure StaysLocal (source : SourceRequest) (req : Request) : Prop where
  aligned : serverHeaders lib req.body = req.inspected.map some
  headers : ∀ header, some header ∈ serverHeaders lib req.body → ∀ member ∈ header,
    namesIndices member.1 → ∀ name ∈ names member.2, ¬ NamesRemote name
  path : ∀ target ∈ serverTargets source.decodedPath, ¬ NamesRemote target

/-- The values of a header that the server may read and the policy does not look at: those of
members `indices`, and those of members `index` in front of another one. -/
def unseen : Members → List Json
  | [] => []
  | (name, value) :: rest =>
    if name = bytes "indices" ∨ (name = bytes "index" ∧ (memberOf (bytes "index") rest).isSome) then
      value :: unseen rest
    else unseen rest

/-! ### Lines -/

variable {α β : Type}

theorem headerLines_map (f : α → β) : ∀ (n : ℕ) (lines : List α),
    headerLines n (lines.map f) = (headerLines n lines).map f
  | _, [] => rfl
  | n, line :: lines => by
    rw [map_cons, headerLines, headerLines, headerLines_map f (n + 1) lines]
    split <;> rfl

theorem headerLines_append_singleton : ∀ (n : ℕ) (lines : List α) (line : α),
    headerLines n (lines ++ [line]) =
      headerLines n lines ++ if (n + lines.length + 1) % 2 = 1 then [line] else []
  | n, [], line => by simp [headerLines]
  | n, first :: lines, line => by
    rw [cons_append, headerLines, headerLines, headerLines_append_singleton (n + 1) lines line,
      length_cons, show n + 1 + lines.length = n + (lines.length + 1) by omega]
    split <;> rfl

theorem splitOn_lines : ∀ {lines : List Text}, (∀ line ∈ lines, newline ∉ line) →
    (lines.flatMap (· ++ [newline])).splitOn newline = lines ++ [[]]
  | [], _ => rfl
  | line :: lines, h => by
    rw [flatMap_cons, append_assoc, singleton_append,
      splitOn_append_cons_self_of_not_mem (h line mem_cons_self),
      splitOn_lines fun line hline => h line (mem_cons_of_mem _ hline)]
    rfl

variable {lib} {visit : ℕ → Members → σ → Except ParseError σ} {I : List Members → σ → Prop}

/-- The rule of the loop: what the visitor keeps about the objects that it has seen, and the lines
that are written, which are those of the same objects. -/
theorem transformNDJSONLines_spec
    (hobject : ∀ line object compact, lib.object line = some object →
      lib.compact line = some compact → lib.object compact = some object)
    (hline : ∀ line compact, lib.compact line = some compact → newline ∉ compact)
    (hvisit : ∀ line object seen s s', I seen s → visit line object s = .ok s' →
      I (seen ++ [object]) s') :
    ∀ {lines : List Text} {lineIndex : ℕ} {s s' : σ} {normalized normalized' : Text}
      {seen : List Members}, I seen s →
      transformNDJSONLines lib visit lines lineIndex s normalized = .ok (normalized', s') →
      ∃ (written : List Text) (objects : List Members),
        normalized' = normalized ++ written.flatMap (· ++ [newline]) ∧
        (∀ line ∈ written, newline ∉ line) ∧ written.map lib.object = objects.map some ∧
        (sourceLines lines).map lib.object = objects.map some ∧ I (seen ++ objects) s'
  | [], _, s, s', normalized, normalized', seen, hI, h => by
    cases h
    exact ⟨[], [], by simp, forall_mem_nil _, rfl, rfl, by simpa using hI⟩
  | line :: lines, lineIndex, s, s', normalized, normalized', seen, hI, h => by
    rw [transformNDJSONLines] at h
    split at h
    · cases h
    · split at h
      · rename_i hblank
        obtain ⟨written, objects, hwritten, hlines, hread, hsource, hlast⟩ :=
          transformNDJSONLines_spec hobject hline hvisit hI h
        refine ⟨written, objects, hwritten, hlines, hread, ?_, hlast⟩
        simpa [sourceLines, hblank] using hsource
      · rename_i hblank
        split at h
        · cases h
        · rename_i object hparsed
          split at h
          · cases h
          · rename_i compact hcompact
            split at h
            · cases h
            · rename_i s₁ hvisited
              obtain ⟨written, objects, hwritten, hlines, hread, hsource, hlast⟩ :=
                transformNDJSONLines_spec hobject hline hvisit
                  (hvisit _ _ _ _ _ hI hvisited) h
              refine ⟨compact :: written, object :: objects, ?_, ?_, ?_, ?_, ?_⟩
              · rw [hwritten, flatMap_cons, append_assoc, append_assoc]
                simp
              · exact forall_mem_cons.mpr ⟨hline _ _ hcompact, hlines⟩
              · rw [map_cons, map_cons, hread, hobject _ _ _ hparsed hcompact]
              · rw [map_cons, ← hsource, ← hparsed]
                simp [sourceLines, hblank]
              · rw [append_cons]
                exact hlast

/-- What the visitor keeps: the headers among the objects have been looked at, and none of them
names a remote cluster unless the request is blocked. -/
structure Visited (objects : List Members) (s : ℕ × Request) : Prop where
  count : s.1 = objects.length
  inspected : s.2.inspected = headerLines 0 objects
  local' : s.2.risk ≠ .blocked →
    ∀ header ∈ s.2.inspected, msearchHeaderUsesRemoteCluster header = false

theorem visited_visit {line : ℕ} {object : Members} {objects : List Members}
    {s s' : ℕ × Request} (h : Visited objects s)
    (hvisit : visitMultiSearch lib line object s = .ok s') :
    Visited (objects ++ [object]) s' := by
  have hlines := headerLines_append_singleton 0 objects object
  rw [Nat.zero_add, ← h.count] at hlines
  unfold visitMultiSearch at hvisit
  dsimp only at hvisit
  split_ifs at hvisit with hodd hremote hmany
  · cases hvisit
    refine ⟨by simp [h.count], ?_, fun hrisk => absurd rfl hrisk⟩
    rw [hlines, if_pos hodd, ← h.inspected]
    rfl
  · cases hvisit
    refine ⟨by simp [h.count], by rw [hlines, if_pos hodd, ← h.inspected], fun hrisk => ?_⟩
    intro header hheader
    cases mem_append.mp hheader with
    | inl hheader => exact h.local' hrisk header hheader
    | inr hheader =>
      rw [mem_singleton.mp hheader]
      simpa using hremote
  · cases hvisit
    exact ⟨by simp [h.count], by rw [hlines, if_neg hodd, append_nil, ← h.inspected], h.local'⟩

/-! ### Names -/

theorem mem_flatten_splitOn {c sep : UInt8} (hc : c ≠ sep) (t : Text) :
    (∃ name ∈ t.splitOn sep, c ∈ name) ↔ c ∈ t := by
  induction t with
  | nil => simp
  | cons d t ih =>
    rw [splitOn_cons_eq_if_modifyHead]
    split
    · rename_i hsep
      rw [beq_iff_eq] at hsep
      simp only [mem_cons, exists_eq_or_imp, not_mem_nil, false_or, ih, hsep, hc]
    · obtain ⟨first, rest, hsplit⟩ := exists_cons_of_ne_nil (splitOn_ne_nil sep t)
      rw [hsplit] at ih ⊢
      rw [mem_cons, ← ih]
      simp [or_assoc]

theorem remote_splitOn (t : Text) :
    (∃ name ∈ t.splitOn ','.toUInt8, NamesRemote name) ↔ ':'.toUInt8 ∈ t :=
  mem_flatten_splitOn (by decide) t

/-- What the policy says of the last member `index`. -/
theorem remote_iff (header : Members) : msearchHeaderUsesRemoteCluster header = false ↔
    ∀ value ∈ memberOf (bytes "index") header, ∀ name ∈ names value, ¬ NamesRemote name := by
  have htext := fun t => not_congr (remote_splitOn t)
  simp only [not_exists, not_and] at htext
  unfold msearchHeaderUsesRemoteCluster
  cases memberOf (bytes "index") header with
  | none => simp
  | some value =>
    simp only [Option.mem_def, Option.some.injEq, forall_eq']
    cases value with
    | string t => simpa [names] using (htext t).symm
    | array items =>
      simp only [names, any_eq_false, mem_flatMap, forall_exists_index, and_imp]
      constructor
      · intro h name item hitem hname
        have hlocal := h item hitem
        cases item with
        | string t => exact (htext t).mpr (by simpa using hlocal) name hname
        | _ => exact absurd hname not_mem_nil
      · intro h item hitem
        cases item with
        | string t => simpa using (htext t).mp fun name hname => h name _ hitem hname
        | _ => simp
    | _ => simp [names]

/-- A member that names indices is the last member `index`, or unseen. -/
theorem members_iff (P : Json → Prop) (header : Members) :
    (∀ member ∈ header, namesIndices member.1 → P member.2) ↔
      (∀ value ∈ unseen header, P value) ∧ ∀ value ∈ memberOf (bytes "index") header, P value := by
  induction header with
  | nil => simp [unseen, memberOf]
  | cons member rest ih =>
    obtain ⟨name, value⟩ := member
    have hne : bytes "indices" ≠ bytes "index" := by decide
    rw [forall_mem_cons, ih, unseen, memberOf]
    unfold namesIndices
    by_cases hindices : name = bytes "indices"
    · simp [hindices, hne, and_assoc]
    · by_cases hindex : name = bytes "index"
      · cases hlast : memberOf (bytes "index") rest with
        | none => simp [hindex, hne.symm, and_comm]
        | some last => simp [hindex, and_assoc]
      · simp [hindices, hindex]

/-! ### Multi-searches -/

theorem path_local {source : SourceRequest} {req : Request}
    (h : classifyRequest source = some req) (hrisk : req.risk ≠ .blocked) :
    (∀ target ∈ serverTargets source.decodedPath, ¬ NamesRemote target) ∧ req.body = source.body ∧
      req.inspected = [] := by
  unfold classifyRequest at h
  split at h
  · cases h
  · rename_i route target hroute
    dsimp only at h
    split_ifs at h with hremote hfilter
    · cases h
      exact absurd rfl hrisk
    · cases h
      exact absurd rfl hrisk
    · cases h
      refine ⟨?_, rfl, rfl⟩
      unfold serverTargets
      generalize splitPath source.decodedPath = segments at hroute ⊢
      unfold multiSearchRoute at hroute
      split_ifs at hroute
      split at hroute
      · exact forall_mem_nil _
      · rename_i target endpoint
        split_ifs at hroute
        cases hroute
        have hnone := not_congr (remote_splitOn target)
        simp only [not_exists, not_and] at hnone
        exact hnone.mpr hremote
      · cases hroute

/-- **A multi-search that is not blocked stays local if and only if no member that the policy does
not look at names a remote cluster.** -/
theorem staysLocal_iff (lib : Libraries)
    (hobject : ∀ line object compact, lib.object line = some object →
      lib.compact line = some compact → lib.object compact = some object)
    (hline : ∀ line compact, lib.compact line = some compact → newline ∉ compact)
    (source : SourceRequest) (req : Request)
    (hprepared : prepareMultiSearch lib source = some (.ok req)) (hrisk : req.risk ≠ .blocked) :
    StaysLocal lib source req ↔
      ∀ header, some header ∈ headersOf lib (sourceLines (source.body.splitOn newline)) →
        ∀ value ∈ unseen header, ∀ name ∈ names value, ¬ NamesRemote name := by
  obtain ⟨req₀, hclassified, hbody⟩ := Option.map_eq_some_iff.mp hprepared
  split_ifs at hbody with hblocked hempty
  · cases hbody
    exact absurd hblocked hrisk
  split at hbody
  · cases hbody
  rename_i req₁ hnormalized
  obtain ⟨hpath, hsame, hnone⟩ := path_local hclassified hblocked
  unfold normalizeMultiSearchBody at hnormalized
  dsimp only at hnormalized
  split at hnormalized
  · cases hnormalized
  rename_i normalized nonEmptyLines req₂ htransformed
  split_ifs at hnormalized
  cases hnormalized
  rw [hsame] at htransformed
  have hstart : Visited [] (0, req₀) := ⟨rfl, hnone, fun _ header hheader => by
    rw [hnone] at hheader
    cases hheader⟩
  obtain ⟨written, objects, hwritten, hlines, hread, hsource, hvisited⟩ :=
    transformNDJSONLines_spec hobject hline (fun _ _ _ _ _ h hv => visited_visit h hv) hstart
      htransformed
  rw [nil_append] at hwritten hvisited
  have hreq : req.body = normalized ∧ req.inspected = req₂.inspected ∧ req₂.risk ≠ .blocked := by
    split_ifs at hbody with hscript
    · cases hbody
      exact ⟨rfl, rfl, hscript.2⟩
    · cases hbody
      exact ⟨rfl, rfl, hrisk⟩
  have hheaders : ∀ {lines : List Text}, lines.map lib.object = objects.map some →
      headersOf lib lines = req.inspected.map some := by
    intro lines hobjects
    rw [headersOf, ← headerLines_map, hobjects, headerLines_map, hreq.2.1, hvisited.inspected]
  have hserver : serverHeaders lib req.body = req.inspected.map some := by
    rw [serverHeaders, hreq.1, hwritten, splitOn_lines hlines, dropLast_concat]
    exact hheaders hread
  have hlocal : ∀ header ∈ req.inspected, msearchHeaderUsesRemoteCluster header = false := by
    rw [hreq.2.1]
    exact hvisited.local' hreq.2.2
  rw [hheaders hsource]
  constructor
  · intro h header hheader
    have hmembers := h.headers header (hserver ▸ hheader)
    exact ((members_iff _ header).mp hmembers).1
  · intro h
    refine ⟨hserver, fun header hheader => ?_, hpath⟩
    rw [hserver] at hheader
    obtain ⟨seen, hseen, hsome⟩ := mem_map.mp hheader
    cases hsome
    have hlast := (remote_iff header).mp (hlocal header hseen)
    exact (members_iff _ header).mpr ⟨h header hheader, hlast⟩

def headerText (name index : String) : Text :=
  bytes "\x7b\"" ++ bytes name ++ bytes "\":\"" ++ bytes index ++ bytes "\"\x7d"

/-- A search with a header of one member. -/
def searchOf (name index : String) : SourceRequest where
  method := bytes "POST"
  decodedPath := bytes "/_msearch"
  queryKeys := []
  body := headerText name index ++ newline :: bytes "\x7b\x7d"

/-- What the libraries make of its lines. -/
def searchLibraries (name index : String) : Libraries where
  object t :=
    if t = headerText name index then some [(bytes name, .string (bytes index))]
    else if t = bytes "\x7b\x7d" then some [] else none
  compact t := if t = headerText name index ∨ t = bytes "\x7b\x7d" then some t else none
  toLower := Scan.toLower

def sentOf (name index : String) : Request where
  risk := .read
  blockReason := []
  route := bytes "/_msearch"
  body := headerText name index ++ newline :: bytes "\x7b\x7d" ++ [newline]
  operationCount := 1
  inspected := [[(bytes name, .string (bytes index))]]

theorem staysLocal_logs :
    StaysLocal (searchLibraries "index" "logs") (searchOf "index" "logs")
      (sentOf "index" "logs") := by
  refine (staysLocal_iff _ ?_ ?_ _ _ rfl (by decide)).mpr ?_
  · intro line object compact hobject hcompact
    unfold searchLibraries at hcompact
    dsimp only at hcompact
    split_ifs at hcompact
    cases hcompact
    exact hobject
  · intro line compact hcompact
    unfold searchLibraries at hcompact
    dsimp only at hcompact
    split_ifs at hcompact with hline
    cases hcompact
    rcases hline with rfl | rfl <;> decide
  · intro header hheader
    obtain rfl : header = [(bytes "index", .string (bytes "logs"))] :=
      Option.some.inj (mem_singleton.mp hheader)
    exact forall_mem_nil _

/-- A member `indices` is not looked at. -/
theorem staysLocal_fails :
    ¬ ∀ (lib : Libraries) (source : SourceRequest) (req : Request),
      prepareMultiSearch lib source = some (.ok req) → req.risk ≠ .blocked →
      StaysLocal lib source req := by
  intro h
  have hlocal := h (searchLibraries "indices" "other:logs") (searchOf "indices" "other:logs")
    (sentOf "indices" "other:logs") rfl (by decide)
  exact hlocal.headers _ mem_cons_self _ mem_cons_self (.inr rfl) (bytes "other:logs")
    (by decide) (by unfold NamesRemote; decide)

end GoNavi.Esconsole
