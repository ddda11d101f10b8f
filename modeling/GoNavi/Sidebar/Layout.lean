import GoNavi.Sidebar.Token
import GoNavi.Machine.Fallible
import GoNavi.Machine.Forest
import GoNavi.Machine.Table

/-! # The connection sidebar layout

Saved connections are grouped by tags, tags have parents, and the root and each tag have an
order of what is directly in them.  `normalizeUnlocked` makes such a layout out of any input
within the limits: it drops duplicates and dangling references, cuts cycles of parents, gives
each connection to the first tag that names it and completes the orders. -/

namespace GoNavi.Sidebar

open Scan Distinct

/-! ### Data -/

/-- A tag. -/
structure ConnectionTag where
  id : Text
  name : Text
  /-- Milliseconds since 1970. -/
  createdAt : ℤ
  parentTagID : Text
  connectionIDs : List Text
  childOrder : List Text
  sortMode : Text
  connectionSortMode : Text
  deriving DecidableEq

/-- The layout as a client sends it. -/
structure ConnectionSidebarLayoutInput where
  connectionTags : List ConnectionTag
  sidebarRootOrder : List Text
  rootSortMode : Text
  rootConnectionSortMode : Text
  deriving DecidableEq

/-- Why an operation on the layout fails. -/
inductive LayoutError
  | groupLimit
  | stringLimit (label : Text) (group : Option ℕ)
  | referenceLimit
  | depthLimit
  | fileLimit
  | unsupportedVersion
  | revisionNotPositive
  | revisionOverflow
  | unreadable
  | connections
  | write
  | lock
  deriving DecidableEq

def connectionSidebarLayoutMaxFileBytes : ℕ := 4 * 1024 * 1024
def connectionSidebarLayoutMaxTags : ℕ := 1024
def connectionSidebarLayoutMaxReferences : ℕ := 65536
def connectionSidebarLayoutMaxStringBytes : ℕ := 256
def connectionSidebarLayoutMaxTreeDepth : ℕ := 64

/-! ### Limits -/

def validateConnectionSidebarLayoutString (label : Text) (group : Option ℕ) (value : Text)
    (maxBytes : ℕ) : Except LayoutError Unit :=
  if (trimSpace value).length > maxBytes then .error (.stringLimit label group) else .ok ()

/-- The longest token of an order. -/
def maxTokenBytes : ℕ :=
  connectionSidebarLayoutMaxStringBytes + connectionSidebarHostTokenPrefix.length

def validateTag (tag : ConnectionTag) (index : ℕ) : Except LayoutError Unit := do
  validateConnectionSidebarLayoutString (bytes "connection sidebar group id") (some index) tag.id
    connectionSidebarLayoutMaxStringBytes
  validateConnectionSidebarLayoutString (bytes "connection sidebar group name") (some index)
    tag.name connectionSidebarLayoutMaxStringBytes
  validateConnectionSidebarLayoutString (bytes "connection sidebar parent group id") (some index)
    tag.parentTagID connectionSidebarLayoutMaxStringBytes
  tag.connectionIDs.forM fun id =>
    validateConnectionSidebarLayoutString (bytes "connection sidebar host id") (some index) id
      connectionSidebarLayoutMaxStringBytes
  tag.childOrder.forM fun token =>
    validateConnectionSidebarLayoutString (bytes "connection sidebar child-order token")
      (some index) token maxTokenBytes

def validateConnectionSidebarLayoutLimits (input : ConnectionSidebarLayoutInput) :
    Except LayoutError Unit := do
  if input.connectionTags.length > connectionSidebarLayoutMaxTags then
    throw .groupLimit
  input.connectionTags.zipIdx.forM fun (tag, index) => validateTag tag index
  input.sidebarRootOrder.forM fun token =>
    validateConnectionSidebarLayoutString (bytes "connection sidebar root-order token") none token
      maxTokenBytes
  let referenceCount := input.sidebarRootOrder.length +
    (input.connectionTags.map fun tag => tag.connectionIDs.length + tag.childOrder.length).sum
  if referenceCount > connectionSidebarLayoutMaxReferences then
    throw .referenceLimit

/-! ### Normalization -/

/-- The ids of the saved connections. -/
def savedConnectionIDs (items : List Text) : List Text :=
  distinct [] ((items.map trimSpace).filter (· ≠ []))

def normalizeConnectionSidebarConnectionSortMode (value legacyValue : Text) : Text :=
  if value = bytes "manual" ∨ value = bytes "name" ∨ value = bytes "createdAt" then value
  else if legacyValue = bytes "name" ∨ legacyValue = bytes "createdAt" then legacyValue
  else bytes "createdAt"

/-- A tag of the input.  `total` is the number of its tags. -/
def readTag (valid : List Text) (now : ℤ) (total : ℕ) (raw : ConnectionTag) (rawIndex : ℕ) :
    Option ConnectionTag :=
  let id := trimSpace raw.id
  if id.isEmpty then none
  else some
    { id
      name := if (trimSpace raw.name).isEmpty then id else trimSpace raw.name
      createdAt := if raw.createdAt ≤ 0 then now - (total - rawIndex) else raw.createdAt
      parentTagID := trimSpace raw.parentTagID
      connectionIDs := distinct [] ((raw.connectionIDs.map trimSpace).filter (· ∈ valid))
      childOrder := sanitizeConnectionSidebarOrderTokens raw.childOrder
      sortMode := bytes "manual"
      connectionSortMode :=
        normalizeConnectionSidebarConnectionSortMode raw.connectionSortMode raw.sortMode }

/-- The tags of the input, each id once. -/
def readTags (valid : List Text) (now : ℤ) (tags : List ConnectionTag) : List ConnectionTag :=
  distinctBy ConnectionTag.id []
    (tags.zipIdx.filterMap fun (raw, rawIndex) => readTag valid now tags.length raw rawIndex)

/-- A tag that is its own parent, or whose parent does not exist, has none. -/
def dropParent (ids : List Text) (tag : ConnectionTag) : ConnectionTag :=
  if tag.parentTagID = [] ∨ tag.parentTagID = tag.id ∨ tag.parentTagID ∉ ids then
    { tag with parentTagID := [] }
  else tag

def dropParents (tags : List ConnectionTag) : List ConnectionTag :=
  tags.map (dropParent (tags.map ConnectionTag.id))

/-- The parent of a tag. -/
def parentOf (tags : List ConnectionTag) (id : Text) : Text :=
  ((Table.lookup ConnectionTag.id id tags).map ConnectionTag.parentTagID).getD []

/-- The tags of a cycle lose their parents. -/
def cutTags (cycle : List Text) (tags : List ConnectionTag) : List ConnectionTag :=
  tags.map fun tag => if tag.id ∈ cycle then { tag with parentTagID := [] } else tag

/-- Follow the parents of each tag, and cut the cycles that are met. -/
def cutCycles : List Text → List ConnectionTag → Except LayoutError (List ConnectionTag)
  | [], tags => .ok tags
  | id :: ids, tags =>
    match Forest.climb (parentOf tags) [] connectionSidebarLayoutMaxTreeDepth [] id with
    | none => .error .depthLimit
    | some cycle => cutCycles ids (cutTags cycle tags)

/-- A connection belongs to the first tag that names it. -/
def ownConnections : List Text → List ConnectionTag → List ConnectionTag
  | _, [] => []
  | owned, tag :: tags =>
    let unique := distinct owned tag.connectionIDs
    { tag with connectionIDs := unique } :: ownConnections (unique ++ owned) tags

/-- The tags with a parent. -/
def childrenOf (tags : List ConnectionTag) (id : Text) : List Text :=
  (tags.filter fun tag => tag.parentTagID ≠ [] ∧ tag.parentTagID = id).map ConnectionTag.id

/-- What is directly in a tag. -/
def childDefaults (tags : List ConnectionTag) (tag : ConnectionTag) : List Text :=
  tag.connectionIDs.map buildConnectionSidebarHostToken ++
    (childrenOf tags tag.id).map buildConnectionSidebarTagToken

/-- The connection a token stands for. -/
def hostOfToken (token : Text) : Option Text :=
  match parseConnectionSidebarToken token with
  | some (.connection, id) => some id
  | _ => none

/-- The tag with its order completed. -/
def orderTag (tags : List ConnectionTag) (tag : ConnectionTag) : ConnectionTag :=
  let childOrder := appendMissingConnectionSidebarTokens tag.childOrder (childDefaults tags tag)
  { tag with connectionIDs := childOrder.filterMap hostOfToken, childOrder }

/-- What is directly at the root: the tags without a parent and the connections without a tag. -/
def rootDefaults (tags : List ConnectionTag) (orderedConnectionIDs : List Text) : List Text :=
  ((tags.filter fun tag => tag.parentTagID = []).map fun tag =>
      buildConnectionSidebarTagToken tag.id) ++
    (orderedConnectionIDs.filter fun id => id ∉ tags.flatMap ConnectionTag.connectionIDs).map
      buildConnectionSidebarHostToken

/-- Bring a layout into its normal form. -/
def normalizeUnlocked (items : Except LayoutError (List Text)) (now : ℤ)
    (input : ConnectionSidebarLayoutInput) : Except LayoutError ConnectionSidebarLayoutInput := do
  validateConnectionSidebarLayoutLimits input
  let orderedConnectionIDs := savedConnectionIDs (← items)
  let read := dropParents (readTags orderedConnectionIDs now input.connectionTags)
  let cut ← cutCycles (read.map ConnectionTag.id) read
  let owned := ownConnections [] cut
  return {
    connectionTags := owned.map (orderTag owned)
    sidebarRootOrder := appendMissingConnectionSidebarTokens input.sidebarRootOrder
      (rootDefaults owned orderedConnectionIDs)
    rootSortMode := bytes "manual"
    rootConnectionSortMode := normalizeConnectionSidebarConnectionSortMode
      input.rootConnectionSortMode input.rootSortMode }

end GoNavi.Sidebar
