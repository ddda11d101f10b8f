import GoNavi.Machine.Machine
import GoNavi.Webserver.Auth

/-! # Codes that are used once

A code of a time step is valid from the step before to the step behind, which are three steps, but
the replay cache knows a code that was used for two steps only.  So a code that is used in the
step before its own is accepted a second time (`codes_reused`).  **A step makes at most one login
succeed as long as its code comes within two steps, and a recovery code makes at most one call
succeed** (`codes_used_once`). -/

namespace GoNavi.Webserver

open Scan Swept Machine

/-- The calls that use codes, with their times. -/
inductive AuthCall where
  | login (now : ℤ) (call : LoginCall)
  | changePassword (now : ℤ) (call : ChangePasswordCall)
deriving DecidableEq

def AuthCall.now : AuthCall → ℤ
  | .login now _ | .changePassword now _ => now

section

variable (lib : AuthLibraries)

def AuthCall.perform (m : WebAuthManager) : AuthCall → WebAuthManager × LoginResult
  | .login now call => m.login lib call now
  | .changePassword now call => m.changePassword lib call now

def authStep (m : WebAuthManager) (a : AuthCall) : WebAuthManager := (a.perform lib m).1

/-! ### What is claimed -/

/-- The code of a time step, for a secret. -/
def codeOfStep (secret : Text) (step : ℤ) : Option Text :=
  (lib.decodeBase32 (toUpper lib (trimSpace (toUpper lib (trimSpace secret))))).map fun key =>
    totpCodeOfStep lib key step

/-- The code of a step is valid. -/
def ValidAt (step now : ℤ) : Prop :=
  ∃ offset ∈ ([-1, 0, 1] : List ℤ), totpCounter (now + offset * webTOTPPeriodSeconds * second) = step

instance (step now : ℤ) : Decidable (ValidAt step now) :=
  inferInstanceAs (Decidable (∃ offset ∈ ([-1, 0, 1] : List ℤ),
    totpCounter (now + offset * webTOTPPeriodSeconds * second) = step))

/-- A login brings the code of a step while it is valid. -/
def AuthCall.bringsCode (secret : Text) (step : ℤ) : AuthCall → Prop
  | .login now call =>
    ValidAt step now ∧ codeOfStep lib secret step = some (normalizeUserCode lib call.code)
  | .changePassword .. => False

instance (secret : Text) (step : ℤ) (a : AuthCall) : Decidable (a.bringsCode lib secret step) := by
  cases a with
  | login now call =>
    exact inferInstanceAs (Decidable (ValidAt step now ∧
      codeOfStep lib secret step = some (normalizeUserCode lib call.code)))
  | changePassword now call => exact inferInstanceAs (Decidable False)

/-- A login succeeds with the code of a step. -/
def usesCode (secret : Text) (step : ℤ) (m : WebAuthManager) (a : AuthCall) : Bool :=
  a.bringsCode lib secret step ∧ m.config.totpEnabled = true ∧ (a.perform lib m).2.error = none ∧
    (a.perform lib m).2.usedRecoveryCode = false

/-- The code that a call brings. -/
def AuthCall.code : AuthCall → Text
  | .login _ call => call.code
  | .changePassword _ call => call.code

/-- A call succeeds with a recovery code that has the given hash. -/
def usesRecoveryCode (hash : Text) (m : WebAuthManager) (a : AuthCall) : Bool :=
  (a.perform lib m).2.error = none ∧ (a.perform lib m).2.usedRecoveryCode = true ∧
    hashRecoveryCode lib (normalizeUserCode lib a.code) = hash

/-- A call whose configuration cannot be saved uses up nothing and creates no session. -/
def SavesFirst (m : WebAuthManager) (a : AuthCall) (m' : WebAuthManager) : Prop :=
  (a.perform lib m).2.error = some .save → m'.config = m.config ∧ m'.sessions = m.sessions ∧
    m'.usedTOTPCodes = m.usedTOTPCodes

/-- The code of a step comes within two steps. -/
def WithinTwoSteps (secret : Text) (calls : List AuthCall) : Prop :=
  calls.Pairwise fun a a' => ∀ step, a.bringsCode lib secret step → a'.bringsCode lib secret step →
    a'.now < a.now + 2 * webTOTPPeriodSeconds * second

/-! ### What a call uses -/

/-- The codes of a configuration. -/
structure SameCodes (cfg cfg' : WebAuthConfig) : Prop where
  enabled : cfg'.totpEnabled = cfg.totpEnabled
  secret : cfg'.totpSecret = cfg.totpSecret
  recovery : cfg'.recoveryCodeHashes = cfg.recoveryCodeHashes

/-- What a call makes of the codes; `guarded` if the replay cache guards it. -/
inductive Uses (guarded : Bool) (now : ℤ) (code : Text) (m m' : WebAuthManager) (r : LoginResult) :
    Prop where
  | none (hcodes : SameCodes m.config m'.config) (hused : m'.usedTOTPCodes = m.usedTOTPCodes)
      (hrecovery : r.usedRecoveryCode = false)
      (hfree : guarded = true → m.config.totpEnabled = true → r.error ≠ none)
      (hsave : r.error = some .save → m'.config = m.config ∧ m'.sessions = m.sessions)
  | once (hcodes : SameCodes m.config m'.config)
      (haccepted : (useOnce (2 * webTOTPPeriodSeconds * second) webUsedTOTPCodeCap
        (totpReplayKey lib m.config.totpSecret code) now m.usedTOTPCodes).1 = true)
      (hused : m'.usedTOTPCodes = (useOnce (2 * webTOTPPeriodSeconds * second) webUsedTOTPCodeCap
        (totpReplayKey lib m.config.totpSecret code) now m.usedTOTPCodes).2)
      (hrecovery : r.usedRecoveryCode = false) (hsave : r.error ≠ some .save)
  | recovery (henabled : m'.config.totpEnabled = m.config.totpEnabled)
      (hsecret : m'.config.totpSecret = m.config.totpSecret)
      (hmem : hashRecoveryCode lib code ∈ m.config.recoveryCodeHashes)
      (herase : m'.config.recoveryCodeHashes =
        m.config.recoveryCodeHashes.erase (hashRecoveryCode lib code))
      (hused : m'.usedTOTPCodes = m.usedTOTPCodes) (hsave : r.error ≠ some .save)
      (hrecovery : r.error = none → r.usedRecoveryCode = true)

variable {lib} {m : WebAuthManager} {m' : WebAuthManager} {now : ℤ}

theorem Uses.failed {guarded : Bool} {wait : ℤ} {code : Text} {e : AuthError}
    (hconfig : m'.config = m.config) (hsessions : m'.sessions = m.sessions)
    (hused : m'.usedTOTPCodes = m.usedTOTPCodes) :
    Uses lib guarded now code m m' (.failed wait e) := by
  refine .none ?_ hused rfl (fun _ _ h => ?_) (fun _ => ⟨hconfig, hsessions⟩)
  · rw [hconfig]
    exact ⟨rfl, rfl, rfl⟩
  · cases h

theorem failLogin_uses {guarded : Bool} {ip code : Text} :
    Uses lib guarded now code m (m.failLogin ip now).1 (m.failLogin ip now).2 :=
  .failed rfl rfl rfl

/-- The end of a login uses nothing. -/
structure Entered (used : Bool) (m m' : WebAuthManager) (r : LoginResult) : Prop where
  config : m'.config = m.config
  codes : m'.usedTOTPCodes = m.usedTOTPCodes
  saved : r.error ≠ some .save
  recovery : used = false → r.usedRecoveryCode = false
  succeeded : r.error = none → r.usedRecoveryCode = used

theorem enterSession_entered (call : LoginCall) (now : ℤ) (used : Bool) (m : WebAuthManager) :
    Entered used m (m.enterSession call now used).1 (m.enterSession call now used).2 := by
  unfold WebAuthManager.enterSession
  split
  · constructor
    · rfl
    · rfl
    · intro h
      cases h
    · exact fun _ => rfl
    · intro h
      cases h
  · constructor
    · rfl
    · rfl
    · intro h
      cases h
    · exact fun h => h
    · exact fun _ => rfl

/-- What `consumeRecoveryCode` uses up. -/
theorem consumeRecoveryCode_spec {cfg : WebAuthConfig} {code : Text}
    (h : (consumeRecoveryCode lib cfg code).2 = true) :
    hashRecoveryCode lib code ∈ cfg.recoveryCodeHashes ∧ (consumeRecoveryCode lib cfg code).1 =
      { cfg with
        recoveryCodeHashes := cfg.recoveryCodeHashes.erase (hashRecoveryCode lib code) } := by
  unfold consumeRecoveryCode at h ⊢
  split at h
  · cases h
  · next hsome =>
    rw [if_neg hsome]
    exact ⟨by simpa using h, rfl⟩

variable (lib) in
/-- What `consumeTOTPCodeForLogin` accepts is marked, and what it refuses changes nothing. -/
theorem consumeTOTPCodeForLogin_cases (secret code : Text) (now : ℤ) (m : WebAuthManager) :
    m.consumeTOTPCodeForLogin lib secret code now = (m, false) ∨
      (useOnce (2 * webTOTPPeriodSeconds * second) webUsedTOTPCodeCap
          (totpReplayKey lib secret code) now m.usedTOTPCodes).1 = true ∧
        m.consumeTOTPCodeForLogin lib secret code now =
          ({ m with
              usedTOTPCodes := (useOnce (2 * webTOTPPeriodSeconds * second) webUsedTOTPCodeCap
                (totpReplayKey lib secret code) now m.usedTOTPCodes).2 }, true) := by
  unfold WebAuthManager.consumeTOTPCodeForLogin
  split
  · exact .inl rfl
  · have hrefused := @useOnce_refused Text _ m.usedTOTPCodes (totpReplayKey lib secret code) now
      (2 * webTOTPPeriodSeconds * second) webUsedTOTPCodeCap
    generalize useOnce (2 * webTOTPPeriodSeconds * second) webUsedTOTPCodeCap
      (totpReplayKey lib secret code) now m.usedTOTPCodes = r at hrefused ⊢
    obtain ⟨accepted, used⟩ := r
    cases accepted with
    | true => exact .inr ⟨rfl, rfl⟩
    | false =>
      obtain ⟨-, rfl⟩ := Prod.mk.inj (hrefused rfl)
      exact .inl rfl

theorem loginLocked_uses (call : LoginCall) (now : ℤ) (m : WebAuthManager) :
    Uses lib true now (normalizeUserCode lib call.code) m (m.loginLocked lib call now).1
      (m.loginLocked lib call now).2 := by
  unfold WebAuthManager.loginLocked
  dsimp only
  split
  · exact .failed rfl rfl rfl
  split
  · exact failLogin_uses
  split
  · next hfree =>
    have hend := enterSession_entered call now false m
    refine .none ?_ hend.codes (hend.recovery rfl) (fun _ henabled => ?_)
      (fun h => absurd h hend.saved)
    · rw [hend.config]
      exact ⟨rfl, rfl, rfl⟩
    · rw [hfree] at henabled
      cases henabled
  split
  · exact failLogin_uses
  rcases consumeTOTPCodeForLogin_cases lib m.config.totpSecret
    (normalizeUserCode lib call.code) now m with hrefused | ⟨haccepted, hused⟩
  · rw [hrefused]
    have hspec := @consumeRecoveryCode_spec lib m.config (normalizeUserCode lib call.code)
    dsimp only
    generalize consumeRecoveryCode lib m.config (normalizeUserCode lib call.code) = consumed at hspec
    obtain ⟨nextCfg, used⟩ := consumed
    cases used with
    | false => exact failLogin_uses
    | true =>
      dsimp only
      split
      · exact .failed rfl rfl rfl
      · obtain ⟨hmem, hnext⟩ := hspec rfl
        have hend := enterSession_entered call now true { m with config := nextCfg }
        change nextCfg = _ at hnext
        subst hnext
        refine .recovery ?_ ?_ hmem ?_ hend.codes hend.saved hend.succeeded
        · rw [hend.config]
        · rw [hend.config]
        · rw [hend.config]
  · rw [hused]
    have hend := enterSession_entered call now false { m with
      usedTOTPCodes := (useOnce (2 * webTOTPPeriodSeconds * second) webUsedTOTPCodeCap
        (totpReplayKey lib m.config.totpSecret (normalizeUserCode lib call.code)) now
        m.usedTOTPCodes).2 }
    refine .once ?_ haccepted hend.codes (hend.recovery rfl) hend.saved
    rw [hend.config]
    exact ⟨rfl, rfl, rfl⟩

variable {r : LoginResult}

theorem Uses.of_attempts {guarded : Bool} {code : Text} {attempts : LoginAttempts}
    (h : Uses lib guarded now code { m with loginAttempts := attempts } m' r) :
    Uses lib guarded now code m m' r := by
  cases h with
  | none hcodes hused hrecovery hfree hsave => exact .none hcodes hused hrecovery hfree hsave
  | once hcodes haccepted hused hrecovery hsave => exact .once hcodes haccepted hused hrecovery hsave
  | recovery henabled hsecret hmem herase hused hsave hrecovery =>
    exact .recovery henabled hsecret hmem herase hused hsave hrecovery

theorem login_uses (call : LoginCall) (now : ℤ) (m : WebAuthManager) :
    Uses lib true now (normalizeUserCode lib call.code) m (m.login lib call now).1
      (m.login lib call now).2 := by
  unfold WebAuthManager.login
  split
  · exact .failed rfl rfl rfl
  · exact (loginLocked_uses call now _).of_attempts

/-- The end of a change of the password. -/
structure Stored (cfg : WebAuthConfig) (used : Bool) (m m' : WebAuthManager) (r : LoginResult) :
    Prop where
  codes : m'.usedTOTPCodes = m.usedTOTPCodes
  saved : r.error = some .save → m'.config = m.config ∧ m'.sessions = m.sessions
  recovery : used = false → r.usedRecoveryCode = false
  succeeded : r.error = none → r.usedRecoveryCode = used
  config : (SameCodes cfg m'.config ∧ r.error ≠ some .save) ∨
    (m'.config = m.config ∧ m'.sessions = m.sessions ∧ ∃ e, r = .failed 0 e)

variable (lib) in
theorem storePassword_stored (call : ChangePasswordCall) (now : ℤ) (cfg : WebAuthConfig)
    (used : Bool) (m : WebAuthManager) :
    Stored cfg used m (m.storePassword lib call now cfg used).1
      (m.storePassword lib call now cfg used).2 := by
  unfold WebAuthManager.storePassword
  split
  · refine ⟨rfl, fun _ => ⟨rfl, rfl⟩, fun _ => rfl, fun h => ?_, .inr ⟨rfl, rfl, _, rfl⟩⟩
    cases h
  · dsimp only
    split
    · refine ⟨rfl, fun _ => ⟨rfl, rfl⟩, fun _ => rfl, fun h => ?_, .inr ⟨rfl, rfl, _, rfl⟩⟩
      cases h
    · split
      · refine ⟨rfl, fun h => ?_, fun _ => rfl, fun h => ?_, .inl ⟨⟨rfl, rfl, rfl⟩, fun h => ?_⟩⟩
        · cases h
        · cases h
        · cases h
      · refine ⟨rfl, fun h => ?_, fun h => h, fun _ => rfl, .inl ⟨⟨rfl, rfl, rfl⟩, fun h => ?_⟩⟩
        · cases h
        · cases h

theorem changePassword_uses (call : ChangePasswordCall) (now : ℤ) (m : WebAuthManager) :
    Uses lib false now (normalizeUserCode lib call.code) m (m.changePassword lib call now).1
      (m.changePassword lib call now).2 := by
  have hplain : Uses lib false now (normalizeUserCode lib call.code) m
      (m.storePassword lib call now m.config false).1
      (m.storePassword lib call now m.config false).2 := by
    have hend := storePassword_stored lib call now m.config false m
    refine .none ?_ hend.codes (hend.recovery rfl) (fun h => nomatch h) hend.saved
    rcases hend.config with ⟨hsame, _⟩ | ⟨hconfig, _⟩
    · exact hsame
    · rw [hconfig]
      exact ⟨rfl, rfl, rfl⟩
  unfold WebAuthManager.changePassword
  dsimp only
  split
  · exact .failed rfl rfl rfl
  split
  · exact .failed rfl rfl rfl
  split
  · exact .failed rfl rfl rfl
  split
  · exact hplain
  split
  · exact .failed rfl rfl rfl
  split
  · exact hplain
  have hspec := @consumeRecoveryCode_spec lib m.config (normalizeUserCode lib call.code)
  generalize consumeRecoveryCode lib m.config (normalizeUserCode lib call.code) = consumed at hspec
  obtain ⟨nextCfg, used⟩ := consumed
  cases used with
  | false => exact .failed rfl rfl rfl
  | true =>
    obtain ⟨hmem, hnext⟩ := hspec rfl
    change nextCfg = _ at hnext
    have hend := storePassword_stored lib call now nextCfg true m
    change Uses lib false now _ m (m.storePassword lib call now nextCfg true).1
      (m.storePassword lib call now nextCfg true).2
    rcases hend.config with ⟨hsame, hsave⟩ | ⟨hconfig, hsessions, e, hfailed⟩
    · subst hnext
      exact .recovery hsame.enabled hsame.secret hmem hsame.recovery hend.codes hsave hend.succeeded
    · rw [hfailed]
      exact .failed hconfig hsessions hend.codes

/-! ### Runs -/

/-- Whether the replay cache guards a call. -/
def AuthCall.guarded : AuthCall → Bool
  | .login .. => true
  | .changePassword .. => false

variable (lib) in
theorem AuthCall.uses (a : AuthCall) (m : WebAuthManager) :
    Uses lib a.guarded a.now (normalizeUserCode lib a.code) m (a.perform lib m).1
      (a.perform lib m).2 := by
  cases a with
  | login now call => exact login_uses call now m
  | changePassword now call => exact changePassword_uses call now m

theorem Uses.secret {guarded : Bool} {code : Text} (h : Uses lib guarded now code m m' r) :
    m'.config.totpSecret = m.config.totpSecret := by
  cases h with
  | none hcodes _ _ _ _ => exact hcodes.secret
  | once hcodes _ _ _ _ => exact hcodes.secret
  | recovery _ hsecret _ _ _ _ _ => exact hsecret

theorem authStep_secret (m : WebAuthManager) (a : AuthCall) :
    (authStep lib m a).config.totpSecret = m.config.totpSecret :=
  (a.uses lib m).secret

theorem Uses.marked {guarded : Bool} {t : ℤ} {code key : Text}
    (h : Uses lib guarded now code m m' r) (hmark : Marked m.usedTOTPCodes key t) (hnow : now < t) :
    Marked m'.usedTOTPCodes key t := by
  cases h with
  | none _ hused _ _ _ => exact hused ▸ hmark
  | once _ _ hused _ _ => exact hused ▸ hmark.useOnce hnow
  | recovery _ _ _ _ hused _ _ => exact hused ▸ hmark

variable {secret : Text} {step : ℤ}

theorem usesCode_marks {a : AuthCall} (h : usesCode lib secret step m a = true)
    (hsecret : m.config.totpSecret = secret) :
    (useOnce (2 * webTOTPPeriodSeconds * second) webUsedTOTPCodeCap
        (totpReplayKey lib secret (normalizeUserCode lib a.code)) a.now m.usedTOTPCodes).1 = true ∧
      Marked (authStep lib m a).usedTOTPCodes
        (totpReplayKey lib secret (normalizeUserCode lib a.code))
        (a.now + 2 * webTOTPPeriodSeconds * second) := by
  unfold usesCode at h
  simp only [decide_eq_true_eq] at h
  obtain ⟨hbrings, henabled, herror, hrecovery⟩ := h
  have hguarded : a.guarded = true := by
    cases a with
    | login now call => rfl
    | changePassword now call => exact absurd hbrings id
  have huses := a.uses lib m
  rw [hguarded] at huses
  cases huses with
  | none _ _ _ hfree _ => exact absurd herror (hfree rfl henabled)
  | once _ haccepted hused _ _ =>
    rw [hsecret] at haccepted hused
    refine ⟨haccepted, ?_⟩
    unfold authStep
    rw [hused]
    exact marked_useOnce (by decide) haccepted
  | recovery _ _ _ _ _ _ hused =>
    rw [hused herror] at hrecovery
    cases hrecovery

theorem usesCode_code {code : Text} {a : AuthCall} (hcode : codeOfStep lib secret step = some code)
    (h : usesCode lib secret step m a = true) :
    a.bringsCode lib secret step ∧ normalizeUserCode lib a.code = code := by
  unfold usesCode at h
  simp only [decide_eq_true_eq] at h
  refine ⟨h.1, ?_⟩
  cases a with
  | login now call =>
    have hsame := h.1.2
    rw [hcode] at hsame
    exact (Option.some.inj hsame).symm
  | changePassword now call => exact absurd h.1 id

variable {calls : List AuthCall}

/-- While a code is marked, or when its time is over, it makes no login succeed.  Induction on the
calls. -/
theorem count_usesCode_eq_zero {code : Text} {t : ℤ}
    (hcode : codeOfStep lib secret step = some code) (hsecret : m.config.totpSecret = secret)
    (hmark : Marked m.usedTOTPCodes (totpReplayKey lib secret code) t ∨ ∀ a ∈ calls, t ≤ a.now)
    (hwithin : ∀ a ∈ calls, a.bringsCode lib secret step → a.now < t)
    (htimes : calls.Pairwise fun a a' => a.now ≤ a'.now) :
    count (authStep lib) (usesCode lib secret step) m calls = 0 := by
  induction calls generalizing m with
  | nil => rfl
  | cons a calls ih =>
    obtain ⟨hlater, htimes⟩ := List.pairwise_cons.mp htimes
    have hmiss : usesCode lib secret step m a = false := by
      refine Bool.eq_false_iff.mpr (fun hit => ?_)
      obtain ⟨hbrings, hsame⟩ := usesCode_code hcode hit
      have hnow := hwithin a List.mem_cons_self hbrings
      rcases hmark with hmark | hover
      · have haccepted := (usesCode_marks hit hsecret).1
        rw [hsame, hmark.refused hnow] at haccepted
        cases haccepted
      · have hle := hover a List.mem_cons_self
        omega
    have hmark' : Marked (authStep lib m a).usedTOTPCodes (totpReplayKey lib secret code) t ∨
        ∀ a' ∈ calls, t ≤ a'.now := by
      rcases hmark with hmark | hover
      · by_cases hnow : a.now < t
        · exact .inl ((a.uses lib m).marked hmark hnow)
        · refine .inr (fun a' ha' => ?_)
          have hle := hlater a' ha'
          omega
      · exact .inr (fun a' ha' => hover a' (List.mem_cons_of_mem a ha'))
    rw [count, hmiss, ih ((authStep_secret m a).trans hsecret) hmark'
      (fun a' ha' => hwithin a' (List.mem_cons_of_mem a ha')) htimes]
    rfl

/-- Induction on the calls, up to the first one that succeeds with the code. -/
theorem count_usesCode_le_one (hsecret : m.config.totpSecret = secret)
    (hwithin : WithinTwoSteps lib secret calls)
    (htimes : calls.Pairwise fun a a' => a.now ≤ a'.now) :
    count (authStep lib) (usesCode lib secret step) m calls ≤ 1 := by
  induction calls generalizing m with
  | nil => exact Nat.zero_le 1
  | cons a calls ih =>
    obtain ⟨hlater, hwithin⟩ := List.pairwise_cons.mp hwithin
    obtain ⟨_, htimes⟩ := List.pairwise_cons.mp htimes
    rw [count]
    cases hit : usesCode lib secret step m a with
    | false =>
      have hrest : count (authStep lib) (usesCode lib secret step) (authStep lib m a) calls ≤ 1 :=
        ih ((authStep_secret m a).trans hsecret) hwithin htimes
      simpa using hrest
    | true =>
      have hbrings : a.bringsCode lib secret step := by
        unfold usesCode at hit
        simp only [decide_eq_true_eq] at hit
        exact hit.1
      have hcode : codeOfStep lib secret step = some (normalizeUserCode lib a.code) := by
        cases a with
        | login now call => exact hbrings.2
        | changePassword now call => exact absurd hbrings id
      have hrest := count_usesCode_eq_zero hcode ((authStep_secret m a).trans hsecret)
        (.inl (usesCode_marks hit hsecret).2) (fun a' ha' => hlater a' ha' step hbrings) htimes
      rw [hrest]
      exact le_rfl

theorem recovery_level (hash : Text) (m : WebAuthManager) (a : AuthCall) :
    (authStep lib m a).config.recoveryCodeHashes.count hash +
        (if usesRecoveryCode lib hash m a then 1 else 0) ≤
      m.config.recoveryCodeHashes.count hash := by
  have huses := a.uses lib m
  have hmiss : (a.perform lib m).2.usedRecoveryCode = false →
      usesRecoveryCode lib hash m a = false := by
    intro hrecovery
    unfold usesRecoveryCode
    rw [hrecovery]
    simp
  unfold authStep
  cases huses with
  | none hcodes _ hrecovery _ _ =>
    rw [hmiss hrecovery, hcodes.recovery]
    exact le_rfl
  | once hcodes _ _ hrecovery _ =>
    rw [hmiss hrecovery, hcodes.recovery]
    exact le_rfl
  | recovery _ _ hmem herase _ _ _ =>
    rw [herase, List.count_erase]
    have hpos := List.count_pos_iff.mpr hmem
    by_cases huse : usesRecoveryCode lib hash m a = true
    · have hhash : hashRecoveryCode lib (normalizeUserCode lib a.code) = hash := by
        unfold usesRecoveryCode at huse
        simp only [decide_eq_true_eq] at huse
        exact huse.2.2
      rw [hhash] at hpos ⊢
      rw [if_pos huse, beq_self_eq_true, if_pos rfl]
      omega
    · rw [if_neg huse]
      omega

theorem savesFirst_step (m : WebAuthManager) (a : AuthCall) :
    SavesFirst lib m a (authStep lib m a) := by
  have huses := a.uses lib m
  intro hsave
  cases huses with
  | none _ hused _ _ hsaved => exact ⟨(hsaved hsave).1, (hsaved hsave).2, hused⟩
  | once _ _ _ _ hnot => exact absurd hsave hnot
  | recovery _ _ _ _ _ hnot _ => exact absurd hsave hnot

/-! ### Codes are used once -/

/-- A step makes at most one login succeed if its code comes within two steps; a recovery code
makes at most as many calls succeed as it is stored; and a call that cannot be saved uses up
nothing. -/
theorem codes_used_once (lib : AuthLibraries) (m : WebAuthManager) (calls : List AuthCall)
    (htimes : calls.Pairwise fun a a' => a.now ≤ a'.now) :
    (WithinTwoSteps lib m.config.totpSecret calls →
      ∀ step, count (authStep lib) (usesCode lib m.config.totpSecret step) m calls ≤ 1) ∧
    (∀ hash, count (authStep lib) (usesRecoveryCode lib hash) m calls ≤
      m.config.recoveryCodeHashes.count hash) ∧
    Throughout (authStep lib) (SavesFirst lib) m calls := by
  refine ⟨fun hwithin step => count_usesCode_le_one rfl hwithin htimes, fun hash => ?_, ?_⟩
  · have hcount : (run (authStep lib) m calls).config.recoveryCodeHashes.count hash +
        count (authStep lib) (usesRecoveryCode lib hash) m calls ≤
        m.config.recoveryCodeHashes.count hash +
          count (authStep lib) (fun _ _ => false) m calls :=
      count_le (P := fun _ => True) (f := fun m => m.config.recoveryCodeHashes.count hash)
        (fun _ _ _ => trivial) (fun m a _ => recovery_level hash m a) trivial
    have hnone : count (authStep lib) (fun _ _ => false) m calls = 0 :=
      count_eq_zero (P := fun _ => True) (fun _ _ _ => trivial) (fun _ _ _ => rfl) trivial
    omega
  · exact throughout_of_step (C := fun _ _ => True) (P := fun _ => True) (fun _ _ _ _ => trivial)
      (fun m a _ _ => savesFirst_step m a) (along_of_forall (fun _ _ => trivial)) trivial

end

/-! ### A code that is used early -/

/-- Libraries with a code for each step, and one password. -/
def countingLibraries : AuthLibraries where
  upperRune := id
  decodeBase32 := some
  encodeBase64 := id
  decodeBase64 := some
  hmacSHA1 _ message := message.drop 4 ++ List.replicate 16 0
  sha256Hex := id
  argon2 password _ _ _ _ _ := password

/-- A server with a second factor and one recovery code. -/
def secondFactorServer : WebAuthManager where
  config :=
    { enabled := true
      passwordHash := bytes "argon2id$v=19$m=65536,t=3,p=2$salt$secret"
      totpEnabled := true
      totpSecret := bytes "KEY"
      recoveryCodeHashes := [bytes "ABCDEFGHJKLM"]
      sessionAbsoluteHours := 168 }
  sessions := ∅
  loginAttempts := ∅
  usedTOTPCodes := ∅
  passwordManagedByEnvironment := false

def loginWith (seconds : ℤ) (code : String) : AuthCall :=
  .login (seconds * second) ⟨bytes "secret", bytes code, bytes "10.0.0.1", false, some (bytes "token")⟩

/-- The code of step 2 in the step before it and, within two steps, in its own step; and a
recovery code, twice. -/
theorem codes_used_once_calls :
    count (authStep countingLibraries) (usesCode countingLibraries (bytes "KEY") 2)
        secondFactorServer [loginWith 30 "000 002", loginWith 89 "000002",
          loginWith 100 "abcd-efgh-jklm", loginWith 101 "ABCDEFGHJKLM"] ≤ 1 ∧
      count (authStep countingLibraries) (usesRecoveryCode countingLibraries (bytes "ABCDEFGHJKLM"))
        secondFactorServer [loginWith 30 "000 002", loginWith 89 "000002",
          loginWith 100 "abcd-efgh-jklm", loginWith 101 "ABCDEFGHJKLM"] ≤ 1 := by
  have hused := codes_used_once countingLibraries secondFactorServer [loginWith 30 "000 002",
    loginWith 89 "000002", loginWith 100 "abcd-efgh-jklm", loginWith 101 "ABCDEFGHJKLM"]
    (by decide)
  refine ⟨hused.1 ?_ 2, hused.2.1 (bytes "ABCDEFGHJKLM")⟩
  have hother : ∀ (a a' : AuthCall) (step : ℤ),
      normalizeUserCode countingLibraries a.code ≠ normalizeUserCode countingLibraries a'.code →
      a.bringsCode countingLibraries (bytes "KEY") step →
      ¬a'.bringsCode countingLibraries (bytes "KEY") step := by
    intro a a' step hne hbrings hbrings'
    cases a with
    | login now call =>
      cases a' with
      | login now' call' => exact hne (Option.some.inj (hbrings.2.symm.trans hbrings'.2))
      | changePassword now' call' => exact hbrings'
    | changePassword now call => exact hbrings
  unfold WithinTwoSteps
  simp only [List.pairwise_cons, List.forall_mem_cons]
  refine ⟨⟨fun _ _ _ => by decide, fun step h h' => ?_, fun step h h' => ?_, nofun⟩,
    ⟨fun _ _ _ => by decide, fun _ _ _ => by decide, nofun⟩, ⟨fun _ _ _ => by decide, nofun⟩,
    nofun, .nil⟩
  · exact absurd h' (hother _ _ step (by decide) h)
  · exact absurd h' (hother _ _ step (by decide) h)

/-- The code of step 2, at the start of the step before it and two steps later. -/
theorem codes_reused :
    ¬∀ (lib : AuthLibraries) (m : WebAuthManager) (calls : List AuthCall),
      calls.Pairwise (fun a a' => a.now ≤ a'.now) →
      ∀ step, count (authStep lib) (usesCode lib m.config.totpSecret step) m calls ≤ 1 := by
  intro h
  have honce := h countingLibraries secondFactorServer [loginWith 30 "000002", loginWith 90 "000002"]
    (by decide) 2
  revert honce
  decide

end GoNavi.Webserver
