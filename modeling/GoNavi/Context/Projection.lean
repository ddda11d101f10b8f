import GoNavi.Context.Builder

/-! # What a projection keeps

A projection is right (`Projects`) when it is refused exactly if the workspace or the newest
message does not fit, and otherwise keeps the longest suffix that fits, names the cut, and keeps
no tool message whose call it omits.

`build_projects_iff` is the main result: the builder projects right exactly when no sum wraps at
the cut and no tool message fits without its call. -/

namespace GoNavi.Context

open Scan Machine.Suffix List

variable {W R : Type} (enc : Encoding W) (b : DeterministicContextBuilder)
  (request : ContextBuildRequest W R)

/-! ### What fits -/

def messageBytes (m : Message) : ℤ := (measureContextMessage enc b.estimateTokens m).bytes.toInt

def messageTokens (m : Message) : ℤ := (measureContextMessage enc b.estimateTokens m).tokens.toInt

/-- A projection of this size fits both limits. -/
def Fits (bytes tokens : ℤ) : Prop :=
  exhausted request = false ∧ (0 < b.maxBytes → bytes ≤ b.maxBytes.toInt) ∧
    (0 < effectiveMaxTokens b request → tokens ≤ (effectiveMaxTokens b request).toInt)

section Workspace

variable (workspace : Option Message)

def baseBytes : ℤ := (workspace.map (messageBytes enc b)).getD 0

def baseTokens : ℤ := (workspace.map (messageTokens enc b)).getD 0

/-- The bytes of the messages from `i` on, with the workspace. -/
def bytesFrom (i : ℕ) : ℤ :=
  weight (messageBytes enc b) (baseBytes enc b workspace) request.messages i

def tokensFrom (i : ℕ) : ℤ :=
  weight (messageTokens enc b) (baseTokens enc b workspace) request.messages i

/-- The messages from `i` on fit, with the workspace. -/
def SuffixFits (i : ℕ) : Prop :=
  Fits b request (bytesFrom enc b request workspace i) (tokensFrom enc b request workspace i)

/-- The limits are exceeded by the sums from `i` on as Go integers. -/
def sumsExceed (i : ℕ) : Bool :=
  contextLimitExceeded (Int64.ofInt (bytesFrom enc b request workspace i))
    (Int64.ofInt (tokensFrom enc b request workspace i)) b.maxBytes (effectiveMaxTokens b request)

end Workspace

/-! ### Turns -/

/-- Message `j` is the answer of a tool to a call of message `i`, the last one in front of it
that lists the call. -/
structure Answers (messages : List Message) (i j : ℕ) : Prop where
  before : i < j
  call : ∃ m t, messages[i]? = some m ∧ messages[j]? = some t ∧ m.role = bytes "assistant" ∧
    t.role = bytes "tool" ∧ t.toolCallID ∈ enc.callIDs m.toolCalls ∧
    ∀ k m', i < k → k < j → messages[k]? = some m' → m'.role = bytes "assistant" →
      t.toolCallID ∉ enc.callIDs m'.toolCalls

/-- Every tool message follows its call. -/
def Ordered (messages : List Message) : Prop :=
  ∀ j t, messages[j]? = some t → t.role = bytes "tool" → ∃ i, Answers enc messages i j

/-! ### Right projections -/

/-- The cursor names the messages on both sides of the cut at `k`. -/
structure NamesCut (messages : List Message) (cursor : ContextCursor) (k : ℕ) : Prop where
  count : cursor.omittedMessageCount = k
  omittedFrom : ∀ m, messages[0]? = some m → 0 < k →
    (cursor.omittedFromMessageID, cursor.omittedFromSequence) = (m.id, m.sequence)
  omittedThrough : ∀ m, messages[k - 1]? = some m → 0 < k →
    (cursor.omittedThroughMessageID, cursor.omittedThroughSequence) = (m.id, m.sequence)
  nothingOmitted : k = 0 → cursor.omittedFromMessageID = [] ∧ cursor.omittedFromSequence = 0 ∧
    cursor.omittedThroughMessageID = [] ∧ cursor.omittedThroughSequence = 0
  retainedFrom : ∀ m, messages[k]? = some m →
    (cursor.retainedFromMessageID, cursor.retainedFromSequence) = (m.id, m.sequence)
  retainedThrough : ∀ m, messages.getLast? = some m →
    (cursor.retainedThroughMessageID, cursor.retainedThroughSequence) = (m.id, m.sequence)

/-- The result sends the workspace and the messages from `k` on, the longest suffix that fits. -/
structure Retains (workspace : Option Message) (result : ContextBuildResult R) (k : ℕ) : Prop where
  le : k ≤ request.messages.length
  messages : result.request.messages = workspace.toList ++ request.messages.drop k
  transcript : result.transcript = request.messages
  fits : k < request.messages.length → SuffixFits enc b request workspace k
  newest : request.messages ≠ [] → k < request.messages.length
  longest : ∀ j < k, ¬ SuffixFits enc b request workspace j
  applied : result.compression.applied = decide (0 < k)
  cursor : NamesCut request.messages result.compression.cursor k
  turns : Ordered enc request.messages →
    ∀ i j, Answers enc request.messages i j → k ≤ j → k ≤ i

def IsContextLimit {α : Type} (result : Except BuildError α) : Prop :=
  ∃ reason, result = .error (.contextLimit reason)

structure Projects (workspace : Option Message)
    (result : Except BuildError (ContextBuildResult R)) : Prop where
  limit : IsContextLimit result ↔
    (workspace.isSome = true ∧
      ¬ Fits b request (baseBytes enc b workspace) (baseTokens enc b workspace)) ∨
    (request.messages ≠ [] ∧ ¬ SuffixFits enc b request workspace (request.messages.length - 1))
  retains : ¬ IsContextLimit result → ∃ r k, result = .ok r ∧ Retains enc b request workspace r k

/-- No sum wraps back under a limit at the first message that does not fit, and no tool message
fits without its call. -/
structure TurnsFit (workspace : Option Message) : Prop where
  counted : ∀ i < request.messages.length, SuffixFits enc b request workspace (i + 1) →
    ¬ SuffixFits enc b request workspace i → sumsExceed enc b request workspace i = true
  turns : Ordered enc request.messages → ∀ i j, Answers enc request.messages i j →
    SuffixFits enc b request workspace j → SuffixFits enc b request workspace i

/-! ### Sizes -/

section Sizes

variable {enc b request} {workspace : Option Message}

theorem messageBytes_nonneg (m : Message) : 0 ≤ messageBytes enc b m := by
  have h := Int64.le_iff_toInt_le.mp (enc.messageBytes_nonneg m)
  unfold messageBytes measureContextMessage
  cases b.estimateTokens <;> exact h

theorem messageTokens_nonneg (m : Message) : 0 ≤ messageTokens enc b m := by
  unfold messageTokens measureContextMessage
  cases b.estimateTokens with
  | none => exact Int64.le_iff_toInt_le.mp (enc.messageBytes_nonneg m)
  | some estimate =>
    simp only
    split_ifs with hneg
    · exact le_rfl
    · exact Int64.le_iff_toInt_le.mp (Int64.not_lt.mp hneg)

theorem baseBytes_nonneg : 0 ≤ baseBytes enc b workspace := by
  cases workspace with
  | none => exact le_rfl
  | some m => exact messageBytes_nonneg m

theorem baseTokens_nonneg : 0 ≤ baseTokens enc b workspace := by
  cases workspace with
  | none => exact le_rfl
  | some m => exact messageTokens_nonneg m

theorem Fits.mono {B B' T T' : ℤ} (h : Fits b request B T) (hB : B' ≤ B) (hT : T' ≤ T) :
    Fits b request B' T' :=
  ⟨h.1, fun h₀ => hB.trans (h.2.1 h₀), fun h₀ => hT.trans (h.2.2 h₀)⟩

theorem SuffixFits.mono {i j : ℕ} (h : SuffixFits enc b request workspace i) (hij : i ≤ j) :
    SuffixFits enc b request workspace j :=
  Fits.mono h (weight_antitone (fun m _ => messageBytes_nonneg m) hij)
    (weight_antitone (fun m _ => messageTokens_nonneg m) hij)

theorem suffixFits_length : SuffixFits enc b request workspace request.messages.length ↔
    Fits b request (baseBytes enc b workspace) (baseTokens enc b workspace) := by
  unfold SuffixFits bytesFrom tokensFrom
  rw [weight_of_length_le le_rfl, weight_of_length_le le_rfl]

theorem ofInt_le {x : ℤ} {limit : Int64} (h₀ : 0 ≤ x) (h : x ≤ limit.toInt) :
    Int64.ofInt x ≤ limit := by
  have hlt := limit.toInt_lt
  rw [Int64.le_iff_toInt_le, Int64.toInt_ofInt_of_le (by omega) (by omega)]
  exact h

theorem not_exceed_iff {B T : Int64} : contextLimitExceeded B T b.maxBytes
      (effectiveMaxTokens b request) = false ↔
    (0 < b.maxBytes → B ≤ b.maxBytes) ∧
      (0 < effectiveMaxTokens b request → T ≤ effectiveMaxTokens b request) := by
  unfold contextLimitExceeded
  simp only [Bool.or_eq_false_iff, Bool.and_eq_false_iff, decide_eq_false_iff_not, Int64.not_lt]
  constructor
  · rintro ⟨hB, hT⟩
    exact ⟨fun h₀ => hB.resolve_left (Int64.not_le.mpr h₀),
      fun h₀ => hT.resolve_left (Int64.not_le.mpr h₀)⟩
  · rintro ⟨hB, hT⟩
    exact ⟨or_iff_not_imp_left.mpr fun h₀ => hB (Int64.not_le.mp h₀),
      or_iff_not_imp_left.mpr fun h₀ => hT (Int64.not_le.mp h₀)⟩

theorem SuffixFits.not_exceed {i : ℕ} (h : SuffixFits enc b request workspace i) :
    sumsExceed enc b request workspace i = false := by
  refine not_exceed_iff.mpr ⟨fun h₀ => ofInt_le ?_ (h.2.1 h₀), fun h₀ => ofInt_le ?_ (h.2.2 h₀)⟩
  · exact baseBytes_nonneg.trans (base_le_weight (fun m _ => messageBytes_nonneg m) i)
  · exact baseTokens_nonneg.trans (base_le_weight (fun m _ => messageTokens_nonneg m) i)

end Sizes

/-! ### The loop -/

section Loop

variable {enc b request} {workspace : Option Message}

theorem base_eq : (workspace.map (measureContextMessage enc b.estimateTokens)).getD {} =
    ⟨Int64.ofInt (baseBytes enc b workspace), Int64.ofInt (baseTokens enc b workspace)⟩ := by
  cases workspace with
  | none => rfl
  | some m =>
    unfold baseBytes baseTokens messageBytes messageTokens
    simp only [Option.map_some, Option.getD_some, Int64.ofInt_toInt]

theorem add_size {i : ℕ} (hi : i < request.messages.length) :
    Size.add ⟨Int64.ofInt (bytesFrom enc b request workspace (i + 1)),
        Int64.ofInt (tokensFrom enc b request workspace (i + 1))⟩
      ((request.messages.map (measureContextMessage enc b.estimateTokens)).getD i {}) =
    ⟨Int64.ofInt (bytesFrom enc b request workspace i),
      Int64.ofInt (tokensFrom enc b request workspace i)⟩ := by
  have hsize : (request.messages.map (measureContextMessage enc b.estimateTokens)).getD i {} =
      measureContextMessage enc b.estimateTokens (request.messages.get ⟨i, hi⟩) := by
    simp [hi]
  rw [hsize]
  unfold bytesFrom tokensFrom
  rw [weight_eq hi, weight_eq hi, Int64.ofInt_add, Int64.ofInt_add]
  unfold messageBytes messageTokens
  rw [Int64.ofInt_toInt, Int64.ofInt_toInt]
  rfl

theorem selectLoop_eq {n : ℕ} (hn : n ≤ request.messages.length) :
    selectLoop (fun _ => false) b.maxBytes (effectiveMaxTokens b request)
      (request.messages.map (measureContextMessage enc b.estimateTokens)) n
      ⟨Int64.ofInt (bytesFrom enc b request workspace n),
        Int64.ofInt (tokensFrom enc b request workspace n)⟩ =
    .ok (descend (sumsExceed enc b request workspace) n,
      ⟨Int64.ofInt (bytesFrom enc b request workspace
          (descend (sumsExceed enc b request workspace) n)),
        Int64.ofInt (tokensFrom enc b request workspace
          (descend (sumsExceed enc b request workspace) n))⟩) := by
  induction n with
  | zero => rfl
  | succ n ih =>
    rw [selectLoop, descend, add_size (by omega)]
    by_cases hstop : sumsExceed enc b request workspace n = true
    · have hexceeds := hstop
      unfold sumsExceed at hexceeds
      simp only [hexceeds, hstop, if_true]
      rfl
    · have hexceeds := hstop
      unfold sumsExceed at hexceeds
      simp only [hexceeds, hstop]
      exact ih (by omega)

theorem workspacePart_isSome {reference : Option WorkspaceSnapshotReference}
    (h : workspacePart enc request = .ok (reference, workspace)) :
    workspace.isSome = request.workspaceSnapshot.isSome := by
  unfold workspacePart at h
  split at h
  · cases h
  · split at h
    · cases h
    · next hmessage =>
      cases h
      unfold workspaceContextMessage at hmessage
      split at hmessage
      · next hnone =>
        cases hmessage
        rw [hnone]
        rfl
      · next hsome =>
        split at hmessage
        · cases hmessage
        · cases hmessage
        · cases hmessage
          rw [hsome]
          rfl

/-- Where the selected messages start. -/
def selectedStart (enc : Encoding W) (b : DeterministicContextBuilder)
    (request : ContextBuildRequest W R) (workspace : Option Message) : ℕ :=
  descend (sumsExceed enc b request workspace) request.messages.length

/-- What a projection whose inputs are all right comes to. -/
inductive Outcome (enc : Encoding W) (b : DeterministicContextBuilder)
    (request : ContextBuildRequest W R) (workspace : Option Message) :
    Except BuildError (ContextBuildResult R) → Prop where
  | exhausted (h : exhausted request = true)
      (hsome : request.messages ≠ [] ∨ workspace.isSome = true) :
      Outcome enc b request workspace (.error (.contextLimit .noPromptCapacity))
  | workspace (h : exhausted request = false) (hsome : workspace.isSome = true)
      (hfits : ¬ Fits b request (baseBytes enc b workspace) (baseTokens enc b workspace)) :
      Outcome enc b request workspace (.error (.contextLimit .workspaceContext))
  | newest (hbase : Fits b request (baseBytes enc b workspace) (baseTokens enc b workspace))
      (hne : request.messages ≠ [])
      (hstart : selectedStart enc b request workspace = request.messages.length) :
      Outcome enc b request workspace (.error (.contextLimit .newestDurableMessage))
  | retained {r : ContextBuildResult R}
      (hbase : request.messages = [] ∧ workspace.isSome = false ∨
        Fits b request (baseBytes enc b workspace) (baseTokens enc b workspace))
      (hstart : request.messages ≠ [] →
        selectedStart enc b request workspace < request.messages.length)
      (hmessages : r.request.messages = workspace.toList ++
        request.messages.drop (selectedStart enc b request workspace))
      (htranscript : r.transcript = request.messages)
      (happlied : r.compression.applied = decide (0 < selectedStart enc b request workspace))
      (hcursor : r.compression.cursor =
        populateContextCursor request.messages (selectedStart enc b request workspace)) :
      Outcome enc b request workspace (.ok r)

theorem base_exceeds_iff (h : exhausted request = false) :
    contextLimitExceeded (Int64.ofInt (baseBytes enc b workspace))
      (Int64.ofInt (baseTokens enc b workspace)) b.maxBytes (effectiveMaxTokens b request) = false ↔
    Fits b request (baseBytes enc b workspace) (baseTokens enc b workspace) := by
  rw [not_exceed_iff]
  have hbytes : (Int64.ofInt (baseBytes enc b workspace)).toInt = baseBytes enc b workspace := by
    cases workspace with
    | none => rfl
    | some m => exact congrArg Int64.toInt (Int64.ofInt_toInt _)
  have htokens : (Int64.ofInt (baseTokens enc b workspace)).toInt =
      baseTokens enc b workspace := by
    cases workspace with
    | none => rfl
    | some m => exact congrArg Int64.toInt (Int64.ofInt_toInt _)
  unfold Fits
  rw [Int64.le_iff_toInt_le, Int64.le_iff_toInt_le, hbytes, htokens]
  exact ⟨fun hle => ⟨h, hle⟩, fun hle => hle.2⟩

theorem project_outcome {reference : Option WorkspaceSnapshotReference}
    (hpart : workspacePart enc request = .ok (reference, workspace)) :
    Outcome enc b request workspace (project enc b (fun _ => false) request) := by
  have hsome := workspacePart_isSome hpart
  unfold project
  by_cases hex : exhausted request = true ∧
      (request.messages ≠ [] ∨ request.workspaceSnapshot.isSome = true)
  · rw [if_pos hex]
    exact .exhausted hex.1 (hsome ▸ hex.2)
  · rw [if_neg hex, hpart]
    simp only
    rw [base_eq]
    have hbase : ¬ (request.messages = [] ∧ workspace.isSome = false) →
        exhausted request = false := by
      intro hne
      by_contra htrue
      refine hne ⟨?_, ?_⟩
      · by_contra hm
        exact hex ⟨by simpa using htrue, .inl hm⟩
      · by_contra hw
        exact hex ⟨by simpa using htrue, .inr (hsome ▸ Bool.eq_true_of_not_eq_false hw)⟩
    have hloop := @selectLoop_eq W R enc b request workspace _ (le_refl request.messages.length)
    have hend : bytesFrom enc b request workspace request.messages.length =
        baseBytes enc b workspace := weight_of_length_le le_rfl
    have hend' : tokensFrom enc b request workspace request.messages.length =
        baseTokens enc b workspace := weight_of_length_le le_rfl
    rw [hend, hend'] at hloop
    rw [length_map, hloop]
    split_ifs with hexceeds
    · have hw : workspace.isSome = true := by
        by_contra hw
        have hnone : workspace = none := by simpa using hw
        subst hnone
        have hzero : contextLimitExceeded 0 0 b.maxBytes (effectiveMaxTokens b request) = false :=
          not_exceed_iff.mpr ⟨fun h => Int64.le_of_lt h, fun h => Int64.le_of_lt h⟩
        have hbad : contextLimitExceeded 0 0 b.maxBytes (effectiveMaxTokens b request) = true :=
          hexceeds
        rw [hzero] at hbad
        cases hbad
      have hex' : exhausted request = false := hbase fun h => by simp [hw] at h
      refine .workspace hex' hw fun hfits => ?_
      rw [(base_exceeds_iff hex').mpr hfits] at hexceeds
      cases hexceeds
    · have hfits : request.messages = [] ∧ workspace.isSome = false ∨
          Fits b request (baseBytes enc b workspace) (baseTokens enc b workspace) := by
        by_cases hnone : request.messages = [] ∧ workspace.isSome = false
        · exact .inl hnone
        · exact .inr ((base_exceeds_iff (hbase hnone)).mp (by simpa using hexceeds))
      have hle : selectedStart enc b request workspace ≤ request.messages.length := descend_le _
      by_cases hnewest : request.messages ≠ [] ∧
          selectedStart enc b request workspace = request.messages.length
      · have hgoal : request.messages ≠ [] ∧
            descend (sumsExceed enc b request workspace) request.messages.length =
              request.messages.length := hnewest
        simp only [if_pos hgoal]
        exact .newest (hfits.resolve_left fun h => hnewest.1 h.1) hnewest.1 hnewest.2
      · have hgoal : ¬ (request.messages ≠ [] ∧
            descend (sumsExceed enc b request workspace) request.messages.length =
              request.messages.length) := hnewest
        simp only [if_neg hgoal]
        refine .retained hfits (fun hne => ?_) rfl rfl rfl rfl
        have hstart : selectedStart enc b request workspace ≠ request.messages.length :=
          fun h => hnewest ⟨hne, h⟩
        omega

end Loop

/-! ### The cut -/

theorem populateContextCursor_names {messages : List Message} {k : ℕ} (hk : k ≤ messages.length)
    (hne : messages ≠ [] → k < messages.length) :
    NamesCut messages (populateContextCursor messages k) k := by
  cases messages with
  | nil =>
    have hzero : k = 0 := Nat.le_zero.mp hk
    subst hzero
    refine ⟨rfl, ?_, ?_, fun _ => ⟨rfl, rfl, rfl, rfl⟩, ?_, ?_⟩
    all_goals
      intro m h
      cases h
  | cons first rest =>
    have hlt := hne (by simp)
    obtain ⟨last, hlast⟩ : ∃ m, (first :: rest)[k - 1]? = some m :=
      ⟨_, getElem?_eq_getElem (by omega)⟩
    obtain ⟨start, hstart⟩ : ∃ m, (first :: rest)[k]? = some m :=
      ⟨_, getElem?_eq_getElem hlt⟩
    obtain ⟨final, hfinal⟩ : ∃ m, (first :: rest).getLast? = some m :=
      ⟨_, getLast?_eq_some_getLast (by simp)⟩
    unfold populateContextCursor
    simp only [head?_cons, hlast, hstart, hfinal]
    refine ⟨?_, ?_, ?_, ?_, ?_, ?_⟩
    · split_ifs with h₀
      · rfl
      · exact (Nat.eq_zero_of_not_pos h₀).symm
    · intro m hm h₀
      cases hm
      rw [if_pos h₀]
    · intro m hm h₀
      rw [hlast] at hm
      cases hm
      rw [if_pos h₀]
    · intro h₀
      rw [if_neg (by omega)]
      exact ⟨rfl, rfl, rfl, rfl⟩
    · intro m hm
      rw [hstart] at hm
      cases hm
      rfl
    · intro m hm
      rw [hfinal] at hm
      cases hm
      rfl

section Main

variable {enc b request} {workspace : Option Message}

theorem not_isContextLimit_ok {α : Type} {a : α} :
    ¬ IsContextLimit (.ok a : Except BuildError α) := by
  rintro ⟨reason, h⟩
  cases h

theorem not_fits_of_exhausted {B T : ℤ} (h : exhausted request = true) :
    ¬ Fits b request B T := by
  intro hfits
  rw [hfits.1] at h
  cases h

/-- When no suffix with a message fits, nothing is asked of the sums and of the turns. -/
theorem TurnsFit.of_none
    (h : ∀ i < request.messages.length, SuffixFits enc b request workspace (i + 1) →
      i + 1 = request.messages.length ∧ sumsExceed enc b request workspace i = true)
    (hnone : ∀ i < request.messages.length, ¬ SuffixFits enc b request workspace i) :
    TurnsFit enc b request workspace := by
  refine ⟨fun i hi hfits _ => (h i hi hfits).2, fun _ i j hanswers hfits => ?_⟩
  obtain ⟨m, t, -, hj, -⟩ := hanswers.call
  exact absurd hfits (hnone j (List.getElem?_eq_some_iff.mp hj).1)

/-- A limit that is told stands for a workspace or a newest message that does not fit. -/
theorem Outcome.of_limit {result : Except BuildError (ContextBuildResult R)}
    (h : Outcome enc b request workspace result) (hlimit : IsContextLimit result) :
    Projects enc b request workspace result ∧ TurnsFit enc b request workspace := by
  cases h with
  | exhausted hex hsome =>
    have hfits : ∀ i, ¬ SuffixFits enc b request workspace i := fun i => not_fits_of_exhausted hex
    refine ⟨⟨iff_of_true hlimit ?_, fun hno => absurd hlimit hno⟩, .of_none ?_ ?_⟩
    · rcases hsome with hm | hw
      · exact .inr ⟨hm, hfits _⟩
      · exact .inl ⟨hw, not_fits_of_exhausted hex⟩
    · exact fun i _ hi => absurd hi (hfits _)
    · exact fun i _ => hfits i
  | workspace hex hw hbase =>
    have hfits : ∀ i ≤ request.messages.length, ¬ SuffixFits enc b request workspace i :=
      fun i hi h => hbase (suffixFits_length.mp (h.mono hi))
    refine ⟨⟨iff_of_true hlimit (.inl ⟨hw, hbase⟩), fun hno => absurd hlimit hno⟩,
      .of_none ?_ ?_⟩
    · exact fun i hi h => absurd h (hfits _ hi)
    · exact fun i hi => hfits i hi.le
  | newest hbase hne hstart =>
    have hpos : request.messages.length ≠ 0 := fun h => hne (length_eq_zero_iff.mp h)
    have hstop : sumsExceed enc b request workspace (request.messages.length - 1) = true := by
      have h := @stop_of_descend (sumsExceed enc b request workspace) request.messages.length
      unfold selectedStart at hstart
      rw [hstart] at h
      exact h hpos
    have hlast : ¬ SuffixFits enc b request workspace (request.messages.length - 1) := by
      intro h
      rw [h.not_exceed] at hstop
      cases hstop
    refine ⟨⟨iff_of_true hlimit (.inr ⟨hne, hlast⟩), fun hno => absurd hlimit hno⟩,
      .of_none ?_ ?_⟩
    · intro i hi h
      have hi' : i + 1 = request.messages.length := by
        by_contra hlt
        exact hlast (h.mono (by omega))
      refine ⟨hi', ?_⟩
      rw [show i = request.messages.length - 1 by omega]
      exact hstop
    · exact fun i hi h => hlast (h.mono (by omega))
  | retained => exact absurd hlimit not_isContextLimit_ok

/-- Where the sums do not wrap, everything from the selected start on fits. -/
theorem suffixFits_selectedStart (hcounted : ∀ i < request.messages.length,
      SuffixFits enc b request workspace (i + 1) → ¬ SuffixFits enc b request workspace i →
      sumsExceed enc b request workspace i = true)
    (hbase : Fits b request (baseBytes enc b workspace) (baseTokens enc b workspace)) :
    ∀ d i, i + d = request.messages.length → selectedStart enc b request workspace ≤ i →
      SuffixFits enc b request workspace i := by
  intro d
  induction d with
  | zero =>
    intro i hi _
    rw [show i = request.messages.length by omega]
    exact suffixFits_length.mpr hbase
  | succ d ih =>
    intro i hi hstart
    by_contra hfits
    have hexceeds := hcounted i (by omega) (ih (i + 1) (by omega) (by omega)) hfits
    have hgo : sumsExceed enc b request workspace i = false :=
      not_stop_of_descend_le hstart (by omega)
    rw [hgo] at hexceeds
    cases hexceeds

theorem not_suffixFits_of_lt {j : ℕ} (h : j < selectedStart enc b request workspace) :
    ¬ SuffixFits enc b request workspace j := by
  intro hfits
  have hstop : sumsExceed enc b request workspace (selectedStart enc b request workspace - 1) =
      true := stop_of_descend (by unfold selectedStart at h; omega)
  have hle : j ≤ selectedStart enc b request workspace - 1 := by omega
  rw [(hfits.mono hle).not_exceed] at hstop
  cases hstop

theorem Retains.start_eq {r : ContextBuildResult R} {k : ℕ}
    (h : Retains enc b request workspace r k)
    (hmessages : r.request.messages = workspace.toList ++
      request.messages.drop (selectedStart enc b request workspace)) :
    k = selectedStart enc b request workspace := by
  have hle : selectedStart enc b request workspace ≤ request.messages.length := descend_le _
  have hlength := congrArg List.length (append_cancel_left (h.messages.symm.trans hmessages))
  rw [length_drop, length_drop] at hlength
  have := h.le
  omega

theorem Outcome.of_retained {r : ContextBuildResult R}
    (h : Outcome enc b request workspace (.ok r)) :
    Projects enc b request workspace (.ok r) ↔ TurnsFit enc b request workspace := by
  cases h with
  | retained hbase hstart hmessages htranscript happlied hcursor =>
  have hle : selectedStart enc b request workspace ≤ request.messages.length := descend_le _
  constructor
  · intro hprojects
    obtain ⟨r', k, hr, hretains⟩ := hprojects.retains not_isContextLimit_ok
    cases hr
    have hk := hretains.start_eq hmessages
    subst hk
    refine ⟨fun i hi hfits hno => ?_, fun hordered i j hanswers hfits => ?_⟩
    · have hlt : i < selectedStart enc b request workspace := by
        by_contra hge
        exact hno ((hretains.fits (by omega)).mono (by omega))
      have hnext : i + 1 = selectedStart enc b request workspace := by
        by_contra hne
        exact hretains.longest (i + 1) (by omega) hfits
      have hstop := @stop_of_descend (sumsExceed enc b request workspace) request.messages.length
      unfold selectedStart at hnext
      rw [← hnext] at hstop
      exact hstop (by omega)
    · have hj : selectedStart enc b request workspace ≤ j := by
        by_contra hlt
        exact hretains.longest j (by omega) hfits
      have hi := hretains.turns hordered i j hanswers hj
      obtain ⟨m, t, hm, -⟩ := hanswers.call
      have hin := (List.getElem?_eq_some_iff.mp hm).1
      exact (hretains.fits (by omega)).mono hi
  · intro hturns
    have hfits : request.messages ≠ [] →
        SuffixFits enc b request workspace (selectedStart enc b request workspace) := by
      intro hne
      have hbase' := hbase.resolve_left fun h => hne h.1
      exact suffixFits_selectedStart hturns.counted hbase'
        (request.messages.length - selectedStart enc b request workspace) _ (by omega) le_rfl
    have hmem : ∀ {i : ℕ}, i < request.messages.length → request.messages ≠ [] := by
      intro i hi h
      rw [h] at hi
      exact absurd hi (Nat.not_lt_zero i)
    refine ⟨iff_of_false not_isContextLimit_ok ?_, fun _ => ⟨r, _, rfl, hle, hmessages,
      htranscript, fun hlt => hfits (hmem hlt), hstart, fun j => not_suffixFits_of_lt, happlied,
      ?_, ?_⟩⟩
    · rintro (⟨hw, hno⟩ | ⟨hne, hno⟩)
      · exact hno (hbase.resolve_left fun h => by simp [hw] at h)
      · have := hstart hne
        exact hno ((hfits hne).mono (by omega))
    · rw [hcursor]
      exact populateContextCursor_names hle hstart
    · intro hordered i j hanswers hj
      obtain ⟨m, t, -, ht, -⟩ := hanswers.call
      have hlt := (List.getElem?_eq_some_iff.mp ht).1
      have hi := hturns.turns hordered i j hanswers ((hfits (hmem hlt)).mono hj)
      by_contra hcut
      exact not_suffixFits_of_lt (by omega) hi

end Main

/-- The limits are not negative. -/
structure LimitsOk (b : DeterministicContextBuilder) (request : ContextBuildRequest W R) :
    Prop where
  maxBytes : 0 ≤ b.maxBytes
  maxTokens : 0 ≤ b.maxTokens
  contextWindow : 0 ≤ request.contextWindowTokens
  reservedOutput : 0 ≤ request.reservedOutputTokens

/-- **The builder keeps the longest suffix that fits, with its tool turns whole, exactly when no
sum wraps at the cut and no tool message fits without its call.** -/
theorem build_projects_iff {W R : Type} (enc : Encoding W) (b : DeterministicContextBuilder)
    (request : ContextBuildRequest W R) {reference : Option WorkspaceSnapshotReference}
    {workspace : Option Message} (hlimits : LimitsOk b request)
    (hpart : workspacePart enc request = .ok (reference, workspace)) :
    Projects enc b request workspace (build enc (some b) (some fun _ => false) request) ↔
      TurnsFit enc b request workspace := by
  have hbuild : build enc (some b) (some fun _ => false) request =
      project enc b (fun _ => false) request := by
    unfold build
    simp only [Option.getD_some, Int64.not_lt.mpr hlimits.maxBytes,
      Int64.not_lt.mpr hlimits.maxTokens, Int64.not_lt.mpr hlimits.contextWindow,
      Int64.not_lt.mpr hlimits.reservedOutput, if_false, Bool.false_eq_true]
  rw [hbuild]
  have houtcome : Outcome enc b request workspace (project enc b (fun _ => false) request) :=
    project_outcome hpart
  by_cases hlimit : IsContextLimit (project enc b (fun _ => false) request)
  · obtain ⟨hprojects, hturns⟩ := houtcome.of_limit hlimit
    exact iff_of_true hprojects hturns
  · generalize project enc b (fun _ => false) request = result at houtcome hlimit ⊢
    cases houtcome with
    | exhausted hex hsome => exact absurd ⟨_, rfl⟩ hlimit
    | workspace hex hw hbase => exact absurd ⟨_, rfl⟩ hlimit
    | newest hbase hne hstart => exact absurd ⟨_, rfl⟩ hlimit
    | retained hbase hstart hmessages htranscript happlied hcursor =>
      exact Outcome.of_retained (.retained hbase hstart hmessages htranscript happlied hcursor)

/-! ### A turn that is cut -/

/-- A call and its answer. -/
def callMessage : Message :=
  { id := bytes "m-1", sessionID := bytes "s", sequence := 1, role := bytes "assistant"
    content := []
    toolCalls := bytes ("[\x7b\"callId\":\"c\",\"toolName\":\"list_tables\"," ++
      "\"effect\":\"read_only\"\x7d]") }

def answerMessage : Message :=
  { id := bytes "m-2", sessionID := bytes "s", sequence := 2, role := bytes "tool"
    content := bytes "users", toolCallID := bytes "c" }

/-- The encoder on the two messages. -/
def turnEncoding : Encoding Unit where
  messageBytes m := if m = callMessage then 183 else 125
  messageBytes_nonneg m := by split_ifs <;> decide
  snapshotContent _ _ := none
  snapshotMetadata _ := none
  callIDs raw := if raw = callMessage.toolCalls then [bytes "c"] else []

def turnRequest : ContextBuildRequest Unit Unit :=
  { run := (), messages := [callMessage, answerMessage] }

/-- Without limits the whole turn is kept. -/
theorem build_projects_unlimited :
    Projects turnEncoding {} turnRequest none
      (build turnEncoding (some {}) (some fun _ => false) turnRequest) := by
  have hfits : ∀ i, SuffixFits turnEncoding {} turnRequest none i := by
    intro i
    refine ⟨by decide, ?_, ?_⟩
    · intro h
      exact absurd h (by decide)
    · intro h
      exact absurd h (by decide)
  exact (build_projects_iff turnEncoding {} turnRequest ⟨by decide, by decide, by decide,
    by decide⟩ rfl).mpr ⟨fun i _ _ hno => absurd (hfits i) hno, fun _ i _ _ _ => hfits i⟩

/-- A limit between the two sizes keeps the answer and omits its call. -/
theorem build_splits_turn :
    ¬ Projects turnEncoding { maxBytes := 200 } turnRequest none
      (build turnEncoding (some { maxBytes := 200 }) (some fun _ => false) turnRequest) := by
  have hanswers : Answers turnEncoding turnRequest.messages 0 1 :=
    ⟨by decide, callMessage, answerMessage, rfl, rfl, rfl, rfl, by decide,
      fun k m hk hk' => by omega⟩
  have hordered : Ordered turnEncoding turnRequest.messages := by
    intro j t hj hrole
    match j with
    | 0 =>
      cases hj
      exact absurd hrole (by decide)
    | 1 => exact ⟨0, hanswers⟩
    | j + 2 => cases hj
  intro hprojects
  have hok : ∃ r, build turnEncoding (some { maxBytes := 200 }) (some fun _ => false) turnRequest =
      .ok r ∧ r.request.messages = [answerMessage] := ⟨_, rfl, rfl⟩
  obtain ⟨r, hr, hmessages⟩ := hok
  rw [hr] at hprojects
  obtain ⟨r', k, hr', hretains⟩ := hprojects.retains not_isContextLimit_ok
  cases hr'
  have hk : k = 1 := by
    have hlength := congrArg List.length (hretains.messages.symm.trans hmessages)
    have hle := hretains.le
    rw [length_append, length_drop] at hlength
    simp [turnRequest] at hlength hle
    omega
  subst hk
  exact absurd (hretains.turns hordered 0 1 hanswers le_rfl) (by decide)

end GoNavi.Context
