import GoNavi.Machine.Swept
import GoNavi.Scan.Rune
import Mathlib.Algebra.Ring.Int.Defs
import Mathlib.Algebra.Ring.Nat

/-! # The login of the web server

The limiter of failed logins (`allow`, `recordFailure`, `recordSuccess`), one-time codes with
their replay cache (`consumeTOTPCodeForLogin`), recovery codes (`consumeRecoveryCode`), and the
calls that use them: `login`, of which all but the first question to the limiter runs under the
lock of the manager (`loginLocked`), and `changePassword`.

Times and durations are in nanoseconds.  What a call gets from outside stands in its arguments:
the random bytes of a session, and whether the store fails.  Hashes and encodings are a
parameter. -/

namespace GoNavi.Webserver

open Scan Swept

/-! ### Times -/

def second : ℤ := 1000000000

def minute : ℤ := 60 * second

def webLoginFailureWindow : ℤ := 10 * minute
def webLoginFailureLimit : ℕ := 5
def webLoginAttemptTrackerMaxEntries : ℕ := 4096
def webLoginBlockDuration : ℤ := 5 * minute
def webMinPasswordLength : ℕ := 6
def webTOTPPeriodSeconds : ℤ := 30
def webUsedTOTPCodeCap : ℕ := 128

/-! ### The limiter -/

/-- `blockedUntil` is `none` for the zero time. -/
structure LoginAttemptState where
  failures : List ℤ
  blockedUntil : Option ℤ
deriving DecidableEq

namespace LoginAttemptState

def initial : LoginAttemptState := ⟨[], none⟩

/-- `BlockedUntil.After(now)`. -/
def blocked (state : LoginAttemptState) (now : ℤ) : Bool := state.blockedUntil.any (now < ·)

/-- The failures that still count. -/
def kept (state : LoginAttemptState) (now : ℤ) : List ℤ :=
  state.failures.filter fun failureAt => now - failureAt ≤ webLoginFailureWindow

end LoginAttemptState

/-- `loginAttemptTracker`. -/
abbrev LoginAttempts := AList fun _ : Text => LoginAttemptState

/-- Whether a call of a key may go on; if not, how long it has to wait. -/
def allow (ip : Text) (now : ℤ) (t : LoginAttempts) : (ℤ × Bool) × LoginAttempts :=
  let normalized := trimSpace ip
  if normalized = [] then ((0, true), t)
  else
    let state := (t.lookup normalized).getD .initial
    if state.blocked now then ((state.blockedUntil.getD 0 - now, false), t)
    else if state.failures = [] then ((0, true), t.erase normalized)
    else if state.kept now = [] then ((0, true), t.erase normalized)
    else ((0, true), t.insert normalized { state with failures := state.kept now })

def sweepExpiredLocked (now : ℤ) (t : LoginAttempts) : LoginAttempts :=
  if t.entries.length ≤ webLoginAttemptTrackerMaxEntries then t
  else keepWhere (fun _ state => state.blocked now || !(state.kept now).isEmpty) t

/-- The answer is how long the key is blocked, `0` if it is not. -/
def recordFailure (ip : Text) (now : ℤ) (t : LoginAttempts) : ℤ × LoginAttempts :=
  let normalized := trimSpace ip
  if normalized = [] then (0, t)
  else
    let state := (t.lookup normalized).getD .initial
    let failures := state.kept now ++ [now]
    if webLoginFailureLimit ≤ failures.length then
      (webLoginBlockDuration, sweepExpiredLocked now
        (t.insert normalized ⟨[], some (now + webLoginBlockDuration)⟩))
    else
      (0, sweepExpiredLocked now (t.insert normalized { state with failures := failures }))

def recordSuccess (ip : Text) (t : LoginAttempts) : LoginAttempts :=
  let normalized := trimSpace ip
  if normalized = [] then t else t.erase normalized

/-! ### The configuration -/

structure WebAuthConfig where
  enabled : Bool
  passwordHash : Text
  totpEnabled : Bool
  totpSecret : Text
  recoveryCodeHashes : List Text
  sessionAbsoluteHours : ℕ
deriving DecidableEq

namespace WebAuthConfig

def isConfigured (cfg : WebAuthConfig) : Bool :=
  cfg.enabled && trimSpace cfg.passwordHash ≠ []

def absoluteTimeout (cfg : WebAuthConfig) : ℤ := cfg.sessionAbsoluteHours * (60 * minute)

end WebAuthConfig

/-- What the packages for hashes and encodings compute. -/
structure AuthLibraries where
  /-- The upper case of a rune beyond ASCII. -/
  upperRune : Text → Text
  decodeBase32 : Text → Option Text
  encodeBase64 : Text → Text
  decodeBase64 : Text → Option Text
  hmacSHA1 : Text → Text → Text
  sha256Hex : Text → Text
  /-- Password, salt, time, memory, threads and length of the key. -/
  argon2 : Text → Text → ℕ → ℕ → ℕ → ℕ → Text

section

variable (lib : AuthLibraries)

/-! ### Codes -/

def upperByte (c : UInt8) : UInt8 := if 'a'.toUInt8 ≤ c ∧ c ≤ 'z'.toUInt8 then c - 32 else c

/-- `strings.ToUpper`. -/
def toUpper (t : Text) : Text :=
  (runes t).flatMap fun rune =>
    match rune with
    | [c] => if c < 0x80 then [upperByte c] else bytes "\uFFFD"
    | rune => lib.upperRune rune

/-- What `normalizeUserCode` removes everywhere. -/
def codeSeparators : List UInt8 := [0x20, 0x2D, 0x09, 0x0D, 0x0A]

def normalizeUserCode (code : Text) : Text :=
  toUpper lib (trimSpace (code.filter (· ∉ codeSeparators)))

/-- The time step of a time. -/
def totpCounter (now : ℤ) : ℤ := (now / second).tdiv webTOTPPeriodSeconds

/-- The last bytes of a number, in big-endian order. -/
def bigEndian (width : ℕ) (n : ℕ) : Text :=
  ((List.range width).map fun i => UInt8.ofNat (n / 256 ^ i % 256)).reverse

/-- `%06d`, of a number with up to six digits. -/
def sixDigits (n : ℕ) : Text :=
  [100000, 10000, 1000, 100, 10, 1].map fun power => UInt8.ofNat (48 + n / power % 10)

/-- The code of a key and a time step. -/
def totpCodeOfStep (key : Text) (counter : ℤ) : Text :=
  let sum := lib.hmacSHA1 key (bigEndian 8 (counter % 2 ^ 64).toNat)
  let offset := (sum.getLastD 0 &&& 0x0f).toNat
  let byte (i : ℕ) : ℕ := (sum.getD (offset + i) 0).toNat
  let binaryCode := byte 0 % 128 * 2 ^ 24 + byte 1 * 2 ^ 16 + byte 2 * 2 ^ 8 + byte 3
  sixDigits (binaryCode % 1000000)

/-- `none` if the secret cannot be decoded. -/
def generateTOTPCodeAt (secret : Text) (now : ℤ) : Option Text :=
  (lib.decodeBase32 (toUpper lib (trimSpace secret))).map fun key =>
    totpCodeOfStep lib key (totpCounter now)

/-- The loop of `validateTOTPCode` over the steps before, at and behind a time. -/
def matchesTOTPCode (secret code : Text) (now : ℤ) : List ℤ → Bool
  | [] => false
  | offset :: offsets =>
    match generateTOTPCodeAt lib secret (now + offset * webTOTPPeriodSeconds * second) with
    | none => false
    | some expected => if expected = code then true else matchesTOTPCode secret code now offsets

def validateTOTPCode (secret code : Text) (now : ℤ) : Bool :=
  let normalizedSecret := toUpper lib (trimSpace secret)
  let normalizedCode := normalizeUserCode lib code
  if normalizedSecret = [] ∨ normalizedCode = [] then false
  else matchesTOTPCode lib normalizedSecret normalizedCode now [-1, 0, 1]

def totpReplayKey (secret code : Text) : Text := lib.sha256Hex (secret ++ bytes ":" ++ code)

def hashRecoveryCode (code : Text) : Text := lib.sha256Hex (normalizeUserCode lib code)

/-- A code is used up by the removal of its first hash. -/
def consumeRecoveryCode (cfg : WebAuthConfig) (code : Text) : WebAuthConfig × Bool :=
  if !cfg.totpEnabled || cfg.recoveryCodeHashes.isEmpty then (cfg, false)
  else
    let needle := hashRecoveryCode lib code
    ({ cfg with recoveryCodeHashes := cfg.recoveryCodeHashes.erase needle },
      cfg.recoveryCodeHashes.contains needle)

/-! ### Passwords -/

/-- `strconv.ParseUint` to base 10. -/
def parseUint (bitSize : ℕ) (t : Text) : Option ℕ :=
  if t = [] ∨ t.any (fun c => c < 48 || 57 < c) then none
  else
    let n := t.foldl (fun n c => n * 10 + (c.toNat - 48)) 0
    if n < 2 ^ bitSize then some n else none

def trimPrefix (start t : Text) : Text := if start.isPrefixOf t then t.drop start.length else t

def verifyPassword (encodedHash password : Text) : Bool :=
  match (trimSpace encodedHash).splitOn 0x24 with
  | [algorithm, version, params, salt, key] =>
    if algorithm ≠ bytes "argon2id" ∨ version ≠ bytes "v=19" then false
    else
      match params.splitOn 0x2C with
      | [memory, time, parallel] =>
        match parseUint 32 (trimPrefix (bytes "m=") memory),
            parseUint 32 (trimPrefix (bytes "t=") time),
            parseUint 8 (trimPrefix (bytes "p=") parallel),
            lib.decodeBase64 salt, lib.decodeBase64 key with
        | some memoryCost, some timeCost, some parallelism, some salt, some expectedKey =>
          lib.argon2 (trimSpace password) salt timeCost memoryCost parallelism
            expectedKey.length = expectedKey
        | _, _, _, _, _ => false
      | _ => false
  | _ => false

/-- `none` for a password that is blank or too short. -/
def normalizeWebAuthPassword (password : Text) : Option Text :=
  let normalized := trimSpace password
  if normalized = [] ∨ (runes normalized).length < webMinPasswordLength then none
  else some normalized

/-- The salt is `none` if there are no random bytes. -/
def hashPassword (password : Text) (salt : Option Text) : Option Text :=
  match normalizeWebAuthPassword password, salt with
  | some normalized, some salt =>
    some (bytes "argon2id$v=19$m=65536,t=3,p=2$" ++ lib.encodeBase64 salt ++ bytes "$" ++
      lib.encodeBase64 (lib.argon2 normalized salt 3 65536 2 32))
  | _, _ => none

/-! ### The manager -/

structure WebSession where
  createdAt : ℤ
  lastSeenAt : ℤ
  absoluteDeadline : ℤ
deriving DecidableEq

structure WebAuthManager where
  config : WebAuthConfig
  sessions : AList fun _ : Text => WebSession
  loginAttempts : LoginAttempts
  usedTOTPCodes : AList fun _ : Text => ℤ
  passwordManagedByEnvironment : Bool

inductive AuthError where
  | notConfigured
  | invalidCredentials
  | rateLimited
  | passwordManaged
  | save
  | session
  | password
deriving DecidableEq

structure LoginResult where
  sessionID : Text
  usedRecoveryCode : Bool
  wait : ℤ
  error : Option AuthError
deriving DecidableEq

def LoginResult.failed (wait : ℤ) (e : AuthError) : LoginResult := ⟨[], false, wait, some e⟩

structure LoginCall where
  password : Text
  code : Text
  remoteIP : Text
  saveFails : Bool
  /-- The random token of the session; `none` if there are no random bytes. -/
  token : Option Text
deriving DecidableEq

structure ChangePasswordCall where
  currentPassword : Text
  code : Text
  nextPassword : Text
  salt : Option Text
  saveFails : Bool
  token : Option Text
deriving DecidableEq

namespace WebAuthManager

/-- `sessions.Create`. -/
def createSession (cfg : WebAuthConfig) (now : ℤ) (sessionID : Text) (m : WebAuthManager) :
    WebAuthManager :=
  { m with
    sessions := m.sessions.insert sessionID ⟨now, now, now + cfg.absoluteTimeout⟩ }

/-- A failure that counts. -/
def failLogin (ip : Text) (now : ℤ) (m : WebAuthManager) : WebAuthManager × LoginResult :=
  match recordFailure ip now m.loginAttempts with
  | (wait, attempts) => ({ m with loginAttempts := attempts }, .failed wait .invalidCredentials)

/-- The end of a login. -/
def enterSession (call : LoginCall) (now : ℤ) (usedRecoveryCode : Bool) (m : WebAuthManager) :
    WebAuthManager × LoginResult :=
  match call.token with
  | none => (m, .failed 0 .session)
  | some sessionID =>
    let m := m.createSession m.config now sessionID
    ({ m with loginAttempts := recordSuccess call.remoteIP m.loginAttempts },
      ⟨sessionID, usedRecoveryCode, 0, none⟩)

/-- A code is accepted once up to two steps behind its use. -/
def consumeTOTPCodeForLogin (secret code : Text) (now : ℤ) (m : WebAuthManager) :
    WebAuthManager × Bool :=
  if validateTOTPCode lib secret code now = false then (m, false)
  else
    match useOnce (2 * webTOTPPeriodSeconds * second) webUsedTOTPCodeCap
      (totpReplayKey lib secret code) now m.usedTOTPCodes with
    | (accepted, used) => ({ m with usedTOTPCodes := used }, accepted)

/-- What `Login` does under the lock. -/
def loginLocked (call : LoginCall) (now : ℤ) (m : WebAuthManager) : WebAuthManager × LoginResult :=
  if m.config.isConfigured = false then (m, .failed 0 .notConfigured)
  else if verifyPassword lib m.config.passwordHash (trimSpace call.password) = false then
    m.failLogin call.remoteIP now
  else if m.config.totpEnabled = false then m.enterSession call now false
  else
    let normalizedCode := normalizeUserCode lib call.code
    if normalizedCode = [] then m.failLogin call.remoteIP now
    else
      match m.consumeTOTPCodeForLogin lib m.config.totpSecret normalizedCode now with
      | (m, true) => m.enterSession call now false
      | (m, false) =>
        match consumeRecoveryCode lib m.config normalizedCode with
        | (_, false) => m.failLogin call.remoteIP now
        | (nextCfg, true) =>
          if call.saveFails then (m, .failed 0 .save)
          else { m with config := nextCfg }.enterSession call now true

def login (call : LoginCall) (now : ℤ) (m : WebAuthManager) : WebAuthManager × LoginResult :=
  match allow call.remoteIP now m.loginAttempts with
  | ((wait, false), attempts) =>
    ({ m with loginAttempts := attempts }, .failed wait .rateLimited)
  | ((_, true), attempts) => { m with loginAttempts := attempts }.loginLocked lib call now

/-- The end of `ChangePassword`, with the configuration behind the second factor. -/
def storePassword (call : ChangePasswordCall) (now : ℤ) (cfg : WebAuthConfig)
    (usedRecoveryCode : Bool) (m : WebAuthManager) : WebAuthManager × LoginResult :=
  match hashPassword lib call.nextPassword call.salt with
  | none => (m, .failed 0 .password)
  | some passwordHash =>
    let cfg := { cfg with passwordHash := passwordHash }
    if call.saveFails then (m, .failed 0 .save)
    else
      let m := { m with config := cfg, sessions := ∅ }
      match call.token with
      | none => (m, .failed 0 .session)
      | some sessionID => (m.createSession cfg now sessionID, ⟨sessionID, usedRecoveryCode, 0, none⟩)

def changePassword (call : ChangePasswordCall) (now : ℤ) (m : WebAuthManager) :
    WebAuthManager × LoginResult :=
  if m.passwordManagedByEnvironment then (m, .failed 0 .passwordManaged)
  else if m.config.isConfigured = false then (m, .failed 0 .notConfigured)
  else if verifyPassword lib m.config.passwordHash (trimSpace call.currentPassword) = false then
    (m, .failed 0 .invalidCredentials)
  else if m.config.totpEnabled = false then m.storePassword lib call now m.config false
  else
    let normalizedCode := normalizeUserCode lib call.code
    if normalizedCode = [] then (m, .failed 0 .invalidCredentials)
    else if validateTOTPCode lib m.config.totpSecret normalizedCode now then
      m.storePassword lib call now m.config false
    else
      match consumeRecoveryCode lib m.config normalizedCode with
      | (_, false) => (m, .failed 0 .invalidCredentials)
      | (nextCfg, true) => m.storePassword lib call now nextCfg true

end WebAuthManager

end

end GoNavi.Webserver
