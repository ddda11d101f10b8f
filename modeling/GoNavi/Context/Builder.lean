import GoNavi.Scan.Text
import GoNavi.Machine.Suffix

/-! # The context of a model turn

`DeterministicContextBuilder.Build` of `runharness/context_builder.go`: the messages of a run are
sent to the provider as the newest ones that fit the limits of bytes and tokens, behind a message
with the workspace.  Sizes are Go integers, so their sums wrap.

The JSON encoder, the estimator of tokens and the state of the `context.Context` enter as
parameters. -/

namespace GoNavi.Context

open Scan Machine.Suffix

/-! ### Messages -/

structure Attachment where
  name : Text
  mediaType : Text
  data : Text
deriving DecidableEq

structure Message where
  id : Text := []
  sessionID : Text := []
  runID : Text := []
  sequence : Int64 := 0
  role : Text
  content : Text
  images : List Text := []
  attachments : List Attachment := []
  reasoning : Text := []
  toolCallID : Text := []
  /-- The JSON array of the calls. -/
  toolCalls : Text := []
  metadata : Text := []
  createdAt : ℤ := 0
deriving DecidableEq

structure WorkspaceSnapshotReference where
  sourceID : Text
  sourceInstanceID : Text
  revision : Int64
  contentHash : Text
deriving DecidableEq

def WorkspaceSnapshotReference.valid (r : WorkspaceSnapshotReference) : Bool :=
  trimSpace r.sourceID ≠ [] && trimSpace r.sourceInstanceID ≠ [] && 0 < r.revision &&
    trimSpace r.contentHash ≠ []

/-- A snapshot, with what it holds beside its identity. -/
structure WorkspaceSnapshot (W : Type) where
  sourceID : Text
  sourceInstanceID : Text
  revision : Int64
  contentHash : Text
  body : W

variable {W R : Type}

def workspaceSnapshotReference (snapshot : WorkspaceSnapshot W) :
    Option WorkspaceSnapshotReference :=
  let ref : WorkspaceSnapshotReference :=
    ⟨snapshot.sourceID, snapshot.sourceInstanceID, snapshot.revision, snapshot.contentHash⟩
  if ref.valid then some ref else none

/-- The JSON encoder. -/
structure Encoding (W : Type) where
  /-- The length of an encoded message. -/
  messageBytes : Message → Int64
  messageBytes_nonneg : ∀ m, 0 ≤ messageBytes m
  /-- The encoded envelope of a snapshot and its metadata, if they can be encoded. -/
  snapshotContent : WorkspaceSnapshot W → Option WorkspaceSnapshotReference → Option Text
  snapshotMetadata : Option WorkspaceSnapshotReference → Option Text
  /-- The call ids of an array of calls. -/
  callIDs : Text → List Text

/-! ### Requests and results -/

/-- The limits and the estimator; a nil estimator counts bytes. -/
structure DeterministicContextBuilder where
  maxBytes : Int64 := 0
  maxTokens : Int64 := 0
  estimateTokens : Option (Message → Int64) := none

def newDeterministicContextBuilder : DeterministicContextBuilder := {}

/-- `R` is what a run hands on to the provider, its tools among it. -/
structure ContextBuildRequest (W R : Type) where
  run : R
  messages : List Message
  workspaceSnapshot : Option (WorkspaceSnapshot W) := none
  workspaceReference : Option WorkspaceSnapshotReference := none
  conversationCursor : Text := []
  providerState : Text := []
  contextWindowTokens : Int64 := 0
  reservedOutputTokens : Int64 := 0

inductive LimitReason where
  | noPromptCapacity
  | workspaceContext
  | newestDurableMessage
deriving DecidableEq

inductive BuildError where
  | rootContextRequired
  | contextDone
  | maxBytesNegative
  | maxTokensNegative
  | contextWindowNegative
  | reservedOutputNegative
  | referenceMismatch
  | marshalWorkspace
  | marshalWorkspaceMetadata
  /-- `ErrContextLimit`. -/
  | contextLimit (reason : LimitReason)
deriving DecidableEq

/-- `Omitted` and `Retained` bounds of the transcript. -/
structure ContextCursor where
  omittedMessageCount : ℕ := 0
  omittedFromMessageID : Text := []
  omittedFromSequence : Int64 := 0
  omittedThroughMessageID : Text := []
  omittedThroughSequence : Int64 := 0
  retainedFromMessageID : Text := []
  retainedFromSequence : Int64 := 0
  retainedThroughMessageID : Text := []
  retainedThroughSequence : Int64 := 0
deriving DecidableEq

structure ContextCompressionMetadata where
  applied : Bool
  maxBytes : Int64
  maxTokens : Int64
  providerBytes : Int64
  providerTokens : Int64
  transcriptBytes : Int64
  transcriptTokens : Int64
  workspaceIncluded : Bool
  workspace : Option WorkspaceSnapshotReference
  cursor : ContextCursor
deriving DecidableEq

structure ModelTurnRequest (R : Type) where
  run : R
  messages : List Message
  conversationCursor : Text
  providerState : Text

structure ContextBuildResult (R : Type) where
  request : ModelTurnRequest R
  transcript : List Message
  compression : ContextCompressionMetadata

/-! ### Sizes -/

/-- The size of a message, or a sum of sizes. -/
structure Size where
  bytes : Int64 := 0
  tokens : Int64 := 0
deriving DecidableEq

def Size.add (a b : Size) : Size := ⟨a.bytes + b.bytes, a.tokens + b.tokens⟩

def contextLimitExceeded (bytes tokens maxBytes maxTokens : Int64) : Bool :=
  (0 < maxBytes && maxBytes < bytes) || (0 < maxTokens && maxTokens < tokens)

variable (enc : Encoding W)

def measureContextMessage (estimate : Option (Message → Int64)) (message : Message) : Size :=
  let bytes := enc.messageBytes message
  match estimate with
  | none => ⟨bytes, bytes⟩
  | some estimate => ⟨bytes, if estimate message < 0 then 0 else estimate message⟩

/-! ### The workspace -/

/-- The system message with the workspace, if there is one. -/
def workspaceContextMessage (snapshot : Option (WorkspaceSnapshot W))
    (reference : Option WorkspaceSnapshotReference) : Except BuildError (Option Message) :=
  match snapshot with
  | none => .ok none
  | some snapshot =>
    match enc.snapshotContent snapshot reference, enc.snapshotMetadata reference with
    | none, _ => .error .marshalWorkspace
    | some _, none => .error .marshalWorkspaceMetadata
    | some content, some metadata =>
      .ok (some { role := bytes "system", content := content, metadata := metadata })

/-- The reference that goes with the request: the one given, or else the one of the snapshot. -/
def resolveReference (request : ContextBuildRequest W R) :
    Except BuildError (Option WorkspaceSnapshotReference) :=
  match request.workspaceSnapshot, request.workspaceReference with
  | none, reference => .ok reference
  | some snapshot, none => .ok (workspaceSnapshotReference snapshot)
  | some snapshot, some reference =>
    match workspaceSnapshotReference snapshot with
    | none => .ok (some reference)
    | some derived =>
      if reference = derived then .ok (some reference) else .error .referenceMismatch

/-- The reference and the message of the workspace. -/
def workspacePart (request : ContextBuildRequest W R) :
    Except BuildError (Option WorkspaceSnapshotReference × Option Message) :=
  match resolveReference request with
  | .error e => .error e
  | .ok reference =>
    match workspaceContextMessage enc request.workspaceSnapshot reference with
    | .error e => .error e
    | .ok message => .ok (reference, message)

/-! ### The projection -/

/-- The output reservation leaves no prompt. -/
def exhausted (request : ContextBuildRequest W R) : Bool :=
  0 < request.contextWindowTokens &&
    request.contextWindowTokens - request.reservedOutputTokens ≤ 0

/-- The smaller of the configured limit of tokens and what the provider takes. -/
def effectiveMaxTokens (b : DeterministicContextBuilder) (request : ContextBuildRequest W R) :
    Int64 :=
  let providerPromptTokens := request.contextWindowTokens - request.reservedOutputTokens
  if 0 < request.contextWindowTokens ∧ 0 < providerPromptTokens ∧
      (b.maxTokens = 0 ∨ providerPromptTokens < b.maxTokens) then providerPromptTokens
  else b.maxTokens

/-- The loop over the messages, newest first, in front of the message before `index`: where the
selected messages start, and the size of the projection.  `done k` is the `k`-th `ctx.Err()`. -/
def selectLoop (done : ℕ → Bool) (maxBytes maxTokens : Int64) (sizes : List Size) :
    ℕ → Size → Except BuildError (ℕ × Size)
  | 0, projected => .ok (0, projected)
  | index + 1, projected =>
    if done (sizes.length - index) then .error .contextDone
    else
      let next := projected.add (sizes.getD index {})
      if contextLimitExceeded next.bytes next.tokens maxBytes maxTokens then
        .ok (index + 1, projected)
      else selectLoop done maxBytes maxTokens sizes index next

def populateContextCursor (transcript : List Message) (selectedStart : ℕ) : ContextCursor :=
  let omitted : ContextCursor :=
    match transcript.head?, transcript[selectedStart - 1]? with
    | some first, some last =>
      if 0 < selectedStart then
        { omittedMessageCount := selectedStart
          omittedFromMessageID := first.id
          omittedFromSequence := first.sequence
          omittedThroughMessageID := last.id
          omittedThroughSequence := last.sequence }
      else {}
    | _, _ => {}
  match transcript[selectedStart]?, transcript.getLast? with
  | some first, some last =>
    { omitted with
      retainedFromMessageID := first.id
      retainedFromSequence := first.sequence
      retainedThroughMessageID := last.id
      retainedThroughSequence := last.sequence }
  | _, _ => omitted

/-- `Build` behind the checks of its limits. -/
def project (b : DeterministicContextBuilder) (done : ℕ → Bool)
    (request : ContextBuildRequest W R) : Except BuildError (ContextBuildResult R) :=
  if exhausted request ∧ (request.messages ≠ [] ∨ request.workspaceSnapshot.isSome) then
    .error (.contextLimit .noPromptCapacity)
  else
    let maxTokens := effectiveMaxTokens b request
    match workspacePart enc request with
    | .error e => .error e
    | .ok (reference, workspaceMessage) =>
      let sizes := request.messages.map (measureContextMessage enc b.estimateTokens)
      let total := sizes.foldl Size.add {}
      let base := (workspaceMessage.map (measureContextMessage enc b.estimateTokens)).getD {}
      if contextLimitExceeded base.bytes base.tokens b.maxBytes maxTokens then
        .error (.contextLimit .workspaceContext)
      else
        match selectLoop done b.maxBytes maxTokens sizes sizes.length base with
        | .error e => .error e
        | .ok (selectedStart, projected) =>
          if request.messages ≠ [] ∧ selectedStart = request.messages.length then
            .error (.contextLimit .newestDurableMessage)
          else
            .ok {
              request := ⟨request.run,
                workspaceMessage.toList ++ request.messages.drop selectedStart,
                request.conversationCursor, request.providerState⟩
              transcript := request.messages
              compression := ⟨0 < selectedStart, b.maxBytes, maxTokens, projected.bytes,
                projected.tokens, total.bytes, total.tokens, workspaceMessage.isSome, reference,
                populateContextCursor request.messages selectedStart⟩ }

/-- `ctx` is nil or tells for every `ctx.Err()` whether it is done; a nil builder is the default
one. -/
def build (b : Option DeterministicContextBuilder) (ctx : Option (ℕ → Bool))
    (request : ContextBuildRequest W R) : Except BuildError (ContextBuildResult R) :=
  match ctx with
  | none => .error .rootContextRequired
  | some done =>
    let b := b.getD newDeterministicContextBuilder
    if done 0 then .error .contextDone
    else if b.maxBytes < 0 then .error .maxBytesNegative
    else if b.maxTokens < 0 then .error .maxTokensNegative
    else if request.contextWindowTokens < 0 then .error .contextWindowNegative
    else if request.reservedOutputTokens < 0 then .error .reservedOutputNegative
    else project enc b done request

end GoNavi.Context
