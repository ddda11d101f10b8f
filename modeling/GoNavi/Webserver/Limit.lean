import GoNavi.Webserver.Throttle

/-! # The number of failures

Where no check of a key fails between the two steps of another call of the key, the limiter has
counted, when a call comes, every failure of its key that is not too old for it (`Counting`).  So
fewer than five of them are in the window that ends with the call (`rated`), and **at most five
checks fail in a window in which no block ends** (`Limited`). -/

namespace GoNavi.Webserver

open Scan Swept Machine List

/-! ### The failures behind the last block or success -/

def countFailure (key : Text) (failures : List ℤ) (c : PasswordCheck) : List ℤ :=
  if c.key ≠ key then failures
  else if c.succeeded || c.block.isSome then []
  else if c.failed then failures ++ [c.now]
  else failures

/-- The times of the failures of a key since its last block or success. -/
def failuresSince (key : Text) (checks : List PasswordCheck) : List ℤ :=
  checks.foldl (countFailure key) []

theorem failuresSince_snoc (key : Text) (checks : List PasswordCheck) (c : PasswordCheck) :
    failuresSince key (checks ++ [c]) = countFailure key (failuresSince key checks) c := by
  unfold failuresSince
  rw [foldl_append, foldl_cons, foldl_nil]

theorem failuresSince_append_sublist {key : Text} (checks : List PasswordCheck)
    {more : List PasswordCheck} (h : ∀ c ∈ more, c.key = key → c.failed = false) :
    (failuresSince key (checks ++ more)).Sublist (failuresSince key checks) := by
  induction more using List.reverseRecOn with
  | nil =>
    rw [append_nil]
  | append_singleton more c ih =>
    have hmore := ih (fun c hc => h c (mem_append_left _ hc))
    rw [← append_assoc, failuresSince_snoc]
    unfold countFailure
    split_ifs with hkey _ hfailed
    · exact hmore
    · exact nil_sublist _
    · rw [h c (mem_append_right _ (mem_singleton_self c)) (not_not.mp hkey)] at hfailed
      cases hfailed
    · exact hmore

theorem recent_of_le {now clock : ℤ} (h : now ≤ clock) (failures : List ℤ) :
    recent now (recent clock failures) = recent clock failures := by
  unfold recent
  rw [filter_filter]
  refine filter_congr (fun f _ => ?_)
  by_cases hclock : clock - f ≤ webLoginFailureWindow
  · have hnow : now - f ≤ webLoginFailureWindow := by omega
    simp [hclock, hnow]
  · simp [hclock]

/-- What the limiter knows at a time of the failures, it knows behind a step that forgets. -/
theorem Forgets.knows {now clock : ℤ} {t t' : LoginAttempts} {key : Text} (h : Forgets now t t' key)
    (hnow : now ≤ clock) {failures : List ℤ}
    (hknown : (recent clock failures).Sublist (failuresOf t key)) :
    (recent clock failures).Sublist (failuresOf t' key) := by
  rw [← recent_of_le hnow]
  exact (hknown.filter _).trans h.failures

/-! ### The invariant -/

structure Counting (s : LoginRun) : Prop extends Blocking s where
  known : ∀ key, key ≠ [] → (recent s.clock (failuresSince key s.checks)).Sublist
    (failuresOf s.manager.loginAttempts key)
  bounded : ∀ key, (failuresOf s.manager.loginAttempts key).length < webLoginFailureLimit
  times : ∀ c ∈ s.checks, c.now ≤ s.clock
  waitsTimes : ∀ w ∈ s.waiting, ∀ c ∈ s.checks.take w.seen, c.now ≤ w.now
  waitsRated : ∀ w ∈ s.waiting, w.key ≠ [] →
    (recent w.now (failuresSince w.key (s.checks.take w.seen))).length < webLoginFailureLimit
  /-- Few failures of its key are in the window that ends with a failure. -/
  rated : ∀ before c after, s.checks = before ++ c :: after → c.failed = true → c.key ≠ [] →
    (recent c.now (failuresSince c.key before)).length < webLoginFailureLimit
  ordered : s.checks.Pairwise fun c c' =>
    c.key = c'.key → c.failed = true → c'.failed = true → c.now ≤ c'.now

theorem Counting.initial (config : WebAuthConfig) (clock : ℤ) :
    Counting (.initial config clock) := by
  refine ⟨.initial config clock, fun _ _ => nil_sublist _,
    fun _ => show 0 < webLoginFailureLimit by decide,
    forall_mem_nil _, forall_mem_nil _,
    forall_mem_nil _, fun before c after h => ?_, .nil⟩
  exact absurd h.symm (by simp [LoginRun.initial])

theorem Counting.tick {s : LoginRun} (h : Counting s) (d : ℕ) :
    Counting { s with clock := s.clock + d } := by
  refine ⟨h.toBlocking.tick d, fun key hkey => ?_, h.bounded, fun c hc => ?_, h.waitsTimes,
    h.waitsRated, h.rated, h.ordered⟩
  · have hlater := recent_of_le (show s.clock ≤ s.clock + d by omega) (failuresSince key s.checks)
    show (recent (s.clock + d) (failuresSince key s.checks)).Sublist _
    rw [← hlater]
    refine List.Sublist.trans ?_ (h.known key hkey)
    exact filter_sublist.filter _
  · have hold := h.times c hc
    show c.now ≤ s.clock + d
    omega

theorem Counting.enter {s : LoginRun} (lib : AuthLibraries) (h : Counting s) (call : LoginCall) :
    Counting (s.step lib (.enter call)) := by
  have hblocking := h.toBlocking.enter lib call
  have hforgets := allow_forgets call.remoteIP s.clock s.manager.loginAttempts
  unfold LoginRun.step at hblocking ⊢
  dsimp only at hblocking ⊢
  generalize allow call.remoteIP s.clock s.manager.loginAttempts = r at hforgets hblocking
  obtain ⟨⟨_, allowed⟩, attempts⟩ := r
  refine ⟨hblocking,
    fun key hkey => (hforgets key).knows (Int.le_refl s.clock) (h.known key hkey),
    fun key => (hforgets key).bounded.trans_lt (h.bounded key), h.times, ?_, ?_, h.rated, h.ordered⟩
  · cases allowed with
    | false => exact h.waitsTimes
    | true =>
      intro w hw c hc
      rcases mem_append.mp hw with hw | hw
      · exact h.waitsTimes w hw c hc
      · rw [mem_singleton.mp hw] at hc ⊢
        exact h.times c (mem_of_mem_take hc)
  · cases allowed with
    | false => exact h.waitsRated
    | true =>
      intro w hw hkey
      rcases mem_append.mp hw with hw | hw
      · exact h.waitsRated w hw hkey
      · rw [mem_singleton.mp hw] at hkey ⊢
        show (recent s.clock (failuresSince _ (s.checks.take s.checks.length))).length < _
        rw [take_length]
        exact (h.known _ hkey).length_le.trans_lt (h.bounded _)

/-- A call whose key has not failed in between is concerned by no block. -/
theorem Counting.unblocked {s : LoginRun} (h : Counting s) {a : LoginAction} (hcond : Unraced s a) :
    Unblocked s a := by
  intro w hw c hc hkey b hb
  have hfailed := (h.named c (mem_of_mem_drop hc) b hb).2.1
  rw [hcond w hw c hc hkey] at hfailed
  cases hfailed

/-- What a check makes of the failures that the limiter knows. -/
theorem Checked.knows {w : Waiting} {t t' : LoginAttempts} {new checks : List PasswordCheck}
    {clock : ℤ} (h : Checked w t t' new) (hnow : w.now ≤ clock)
    (hknown : ∀ key, key ≠ [] → (recent clock (failuresSince key checks)).Sublist (failuresOf t key))
    (hbounded : ∀ key, (failuresOf t key).length < webLoginFailureLimit) :
    (∀ key, key ≠ [] →
      (recent clock (failuresSince key (checks ++ new))).Sublist (failuresOf t' key)) ∧
    ∀ key, (failuresOf t' key).length < webLoginFailureLimit := by
  have hother : ∀ {c : PasswordCheck} {key}, c.key ≠ key →
      failuresSince key (checks ++ [c]) = failuresSince key checks := by
    intro c key hkey
    rw [failuresSince_snoc]
    exact if_pos hkey
  have hforgets := h.adds.others
  cases h with
  | counted t' wait hkey hcounts _ =>
    constructor
    · intro key hne
      by_cases hsame : key = w.key
      · subst hsame
        rw [failuresSince_snoc]
        cases hcounts with
        | below hfailures _ _ =>
          rw [hfailures]
          show (recent clock (if w.key ≠ w.key then _ else failuresSince w.key checks ++ [w.now])).Sublist _
          rw [if_neg (not_not.mpr rfl)]
          unfold recent
          rw [filter_append]
          refine List.Sublist.append ?_ filter_sublist
          have hagain := recent_of_le hnow (failuresSince w.key checks)
          unfold recent at hagain
          rw [← hagain]
          exact (hknown w.key hne).filter _
        | blocks hfailures _ =>
          show (recent clock (if w.key ≠ w.key then _ else [])).Sublist _
          rw [if_neg (not_not.mpr rfl)]
          exact nil_sublist _
      · rw [hother (Ne.symm hsame)]
        exact (hforgets key hsame).knows hnow (hknown key hne)
    · intro key
      by_cases hsame : key = w.key
      · subst hsame
        cases hcounts with
        | below _ hbelow _ => exact hbelow
        | blocks hfailures _ =>
          rw [hfailures]
          decide
      · exact (hforgets key hsame).bounded.trans_lt (hbounded key)
  | blank failed succeeded hkey =>
    refine ⟨fun key hne => ?_, hbounded⟩
    rw [hother (show w.key ≠ key from hkey ▸ Ne.symm hne)]
    exact hknown key hne
  | succeeded hkey =>
    constructor
    · intro key hne
      by_cases hsame : key = w.key
      · subst hsame
        rw [failuresSince_snoc]
        show (recent clock (if w.key ≠ w.key then _ else [])).Sublist _
        rw [if_neg (not_not.mpr rfl)]
        exact nil_sublist _
      · rw [hother (Ne.symm hsame)]
        exact (hforgets key hsame).knows hnow (hknown key hne)
    · intro key
      by_cases hsame : key = w.key
      · subst hsame
        have hempty : failuresOf (t.erase w.key) w.key = [] :=
          congrArg (fun o => (o.getD LoginAttemptState.initial).failures) (AList.lookup_erase w.key t)
        rw [hempty]
        decide
      · exact (hforgets key hsame).bounded.trans_lt (hbounded key)
  | refused =>
    refine ⟨fun key hne => ?_, hbounded⟩
    rw [failuresSince_snoc]
    unfold countFailure
    split_ifs with hkey hreset hfailed
    · exact hknown key hne
    · cases hreset
    · cases hfailed
    · exact hknown key hne

theorem Counting.check {s : LoginRun} (lib : AuthLibraries) (h : Counting s) {i : ℕ}
    (hcond : Unraced s (.check i)) : Counting (s.step lib (.check i)) := by
  have hblocking := h.toBlocking.check lib (h.unblocked hcond)
  cases hw : s.next (.check i) with
  | none =>
    rcases s.step_unchecked lib hw with hstep | hstep
    · rw [hstep]
      exact h
    · rw [hstep] at hblocking ⊢
      exact ⟨hblocking, h.known, h.bounded, h.times,
        fun w' hw' => h.waitsTimes w' (mem_of_mem_eraseIdx hw'),
        fun w' hw' => h.waitsRated w' (mem_of_mem_eraseIdx hw'), h.rated, h.ordered⟩
  | some w =>
    obtain ⟨hmem, manager, new, hstep, hchecked⟩ := s.step_check lib hw
    rw [hstep] at hblocking ⊢
    obtain ⟨hnow, hseen, _⟩ := h.waits w hmem
    have hsince : ∀ c ∈ s.since w, c.key = w.key → c.failed = false := hcond w hw
    have hknows := hchecked.knows hnow h.known h.bounded
    obtain ⟨c', rfl⟩ := hchecked.adds.single
    obtain ⟨hkey', hnow'⟩ := hchecked.adds.own c' (mem_singleton_self c')
    have htake : ∀ w' ∈ s.waiting.eraseIdx i,
        (s.checks ++ [c']).take w'.seen = s.checks.take w'.seen := fun w' hw' =>
      take_append_of_le_length (h.waits w' (mem_of_mem_eraseIdx hw')).2.1
    refine ⟨hblocking, hknows.1, hknows.2, fun c hc => ?_, fun w' hw' => ?_, fun w' hw' => ?_,
      fun before c after hsplit hfailed hne => ?_, ?_⟩
    · rcases mem_append.mp hc with hc | hc
      · exact h.times c hc
      · rw [mem_singleton.mp hc, hnow']
        exact hnow
    · show ∀ c ∈ (s.checks ++ [c']).take w'.seen, _
      rw [htake w' hw']
      exact h.waitsTimes w' (mem_of_mem_eraseIdx hw')
    · show _ → (recent w'.now (failuresSince w'.key ((s.checks ++ [c']).take w'.seen))).length < _
      rw [htake w' hw']
      exact h.waitsRated w' (mem_of_mem_eraseIdx hw')
    · change s.checks ++ [c'] = before ++ c :: after at hsplit
      rcases eq_nil_or_concat after with rfl | ⟨rest, last, rfl⟩
      · obtain ⟨rfl, hlast⟩ := append_inj' hsplit rfl
        obtain ⟨rfl, -⟩ := List.cons.inj hlast
        rw [hkey', hnow']
        have hbefore := failuresSince_append_sublist (s.checks.take w.seen) hsince
        unfold LoginRun.since at hbefore
        rw [take_append_drop] at hbefore
        exact (hbefore.filter _).length_le.trans_lt (h.waitsRated w hmem (hkey' ▸ hne))
      · rw [concat_eq_append, ← cons_append, ← append_assoc] at hsplit
        obtain ⟨hsplit, -⟩ := append_inj' hsplit rfl
        exact h.rated before c rest hsplit hfailed hne
    · refine pairwise_append.mpr ⟨h.ordered, pairwise_singleton _ _, ?_⟩
      intro c hc c'' hc'' hkey hfailed _
      rw [mem_singleton.mp hc''] at hkey ⊢
      rw [hnow']
      rw [← take_append_drop w.seen s.checks, mem_append] at hc
      rcases hc with hc | hc
      · exact h.waitsTimes w hmem c hc
      · rw [hsince c hc (hkey.trans hkey')] at hfailed
        cases hfailed

theorem counting_step (lib : AuthLibraries) (s : LoginRun) (a : LoginAction) (hcond : Unraced s a)
    (h : Counting s) : Counting (s.step lib a) := by
  cases a with
  | tick d => exact h.tick d
  | enter call => exact h.enter lib call
  | check i => exact h.check lib hcond

/-! ### Windows -/

/-- Checks of a key that block it before `t` only, without a success: the failures from `t` on are
counted.  Induction on the last check. -/
theorem sublist_failuresSince {checks before part : List PasswordCheck} {key : Text} {t : ℤ}
    (hnamed : ∀ c ∈ checks, ∀ b, c.block = some b →
      c.failed = true ∧ b = c.now + webLoginBlockDuration)
    (hordered : checks.Pairwise fun c c' =>
      c.key = c'.key → c.failed = true → c'.failed = true → c.now ≤ c'.now)
    (hpart : before ++ part <+: checks) (hsuccess : ∀ c ∈ part, c.key = key → c.succeeded = false)
    (hblocks : ∀ c ∈ part, c.key = key → ∀ b, c.block = some b → b < t) :
    ((part.filter fun c => c.key = key && c.failed && t ≤ c.now).map (·.now)).Sublist
      (failuresSince key (before ++ part)) := by
  induction part using List.reverseRecOn with
  | nil => exact nil_sublist _
  | append_singleton part c ih =>
    rw [← append_assoc] at hpart ⊢
    have hpart' : before ++ part <+: checks := (List.prefix_append _ [c]).trans hpart
    have hc : c ∈ part ++ [c] := mem_append_right _ (mem_singleton_self c)
    have hfirst := ih hpart' (fun c' hc' => hsuccess c' (mem_append_left _ hc'))
      (fun c' hc' => hblocks c' (mem_append_left _ hc'))
    rw [failuresSince_snoc, filter_append, map_append]
    unfold countFailure
    split_ifs with hkey hreset hfailed
    · rw [filter_singleton, decide_eq_false hkey, Bool.false_and, Bool.false_and]
      simpa using hfirst
    · have hsome : c.block.isSome = true := by
        rw [hsuccess c hc (not_not.mp hkey), Bool.false_or] at hreset
        exact hreset
      obtain ⟨b, hb⟩ := Option.isSome_iff_exists.mp hsome
      have hmem : c ∈ checks :=
        hpart.subset (mem_append_right _ (mem_singleton_self c))
      obtain ⟨hfailed, hend⟩ := hnamed c hmem b hb
      have hold : c.now < t := by
        have hbefore := hblocks c hc (not_not.mp hkey) b hb
        have hlonger := lt_blockEnd c.now
        omega
      -- All failures of the key before the one that has blocked it are older.
      have hnone : part.filter (fun c => c.key = key && c.failed && t ≤ c.now) = [] := by
        refine filter_eq_nil_iff.mpr (fun c' hc' => ?_)
        simp only [Bool.and_eq_true, decide_eq_true_eq]
        rintro ⟨⟨hkey', hfailed'⟩, hfrom⟩
        have hle := (pairwise_append.mp (hordered.sublist hpart.sublist)).2.2 c'
          (mem_append_right _ hc') c (mem_singleton_self c)
          (hkey'.trans (not_not.mp hkey).symm) hfailed' hfailed
        omega
      have hlast : decide (t ≤ c.now) = false := decide_eq_false (by omega)
      rw [hnone, filter_singleton, hlast, Bool.and_false]
      exact nil_sublist _
    · exact hfirst.append (filter_sublist.map _)
    · rw [filter_singleton, Bool.eq_false_iff.mpr hfailed, Bool.and_false, Bool.false_and]
      simpa using hfirst

/-- Induction on the checks, from the last one. -/
theorem Counting.limited {s : LoginRun} (h : Counting s) : Limited s.checks := by
  intro before part after key t hsplit hne hsuccess hends
  induction part using List.reverseRecOn generalizing after with
  | nil => exact Nat.zero_le _
  | append_singleton part c ih =>
    have hpart : s.checks = before ++ part ++ ([c] ++ after) := by
      rw [hsplit]
      simp
    have hsuccess' : ∀ c ∈ part, c.key = key → c.succeeded = false := fun c' hc' =>
      hsuccess c' (mem_append_left _ hc')
    rw [filter_append, length_append]
    by_cases hin : c.failsIn key t = true
    · have hc := hin
      unfold PasswordCheck.failsIn at hc
      simp only [Bool.and_eq_true, decide_eq_true_eq] at hc
      obtain ⟨⟨⟨hkey, hfailed⟩, hfrom⟩, hto⟩ := hc
      have hblocks : ∀ c' ∈ part, c'.key = key → ∀ b, c'.block = some b → b < t := by
        intro c' hc' hkey' b hb
        have hheld := h.held
        rw [hpart] at hheld
        have hle := (pairwise_append.mp hheld).2.2 c' (mem_append_right _ hc') c
          (mem_append_left _ (mem_singleton_self c)) (hkey'.trans hkey.symm) b hb
        have hend := hends c' (mem_append_left _ hc') hkey' b hb
        omega
      have hcounted := sublist_failuresSince (fun c hc b hb => (h.named c hc b hb).2) h.ordered
        ⟨[c] ++ after, hpart.symm⟩ hsuccess' hblocks
      have hrated := h.rated (before ++ part) c after hpart hfailed (hkey ▸ hne)
      rw [hkey] at hrated
      have hrecent : (part.filter (·.failsIn key t)).length ≤
          (recent c.now (failuresSince key (before ++ part))).length := by
        have hsub := hcounted.filter fun f => decide (c.now - f ≤ webLoginFailureWindow)
        refine le_trans ?_ hsub.length_le
        rw [filter_map, length_map, filter_filter]
        refine List.Sublist.length_le (monotone_filter_right _ (fun c' hc' => ?_))
        unfold PasswordCheck.failsIn at hc'
        simp only [Bool.and_eq_true, decide_eq_true_eq, Function.comp_apply] at hc' ⊢
        exact ⟨by omega, hc'.1⟩
      have hone : ([c].filter (·.failsIn key t)).length ≤ 1 := length_filter_le _ _
      omega
    · rw [filter_singleton, Bool.eq_false_iff.mpr hin]
      exact ih _ hpart hsuccess'
        (fun c' hc' => hends c' (mem_append_left _ hc'))

/-! ### Logins are throttled -/

/-- The blocks of a run hold exactly if no block that is set between the two steps of a call
concerns the call; if no check of the key fails there, the failures are limited as well. -/
theorem login_throttled (lib : AuthLibraries) (config : WebAuthConfig) (clock : ℤ)
    (as : List LoginAction) :
    (Held (run (LoginRun.step lib) (.initial config clock) as).checks ↔
      Along (LoginRun.step lib) Unblocked (.initial config clock) as) ∧
    (Along (LoginRun.step lib) Unraced (.initial config clock) as →
      Held (run (LoginRun.step lib) (.initial config clock) as).checks ∧
        Limited (run (LoginRun.step lib) (.initial config clock) as).checks) := by
  refine ⟨held_iff_unblocked lib (.initial config clock) as, fun hcond => ?_⟩
  have hcounting := run_induction (P := Counting) (fun s a hc hs => counting_step lib s a hc hs) hcond
    (.initial config clock)
  exact ⟨hcounting.held, hcounting.limited⟩

/-! ### Guesses -/

/-- Libraries that derive an empty key from every password. -/
def emptyLibraries : AuthLibraries where
  upperRune := id
  decodeBase32 := some
  encodeBase64 := id
  decodeBase64 := some
  hmacSHA1 _ _ := []
  sha256Hex := id
  argon2 _ _ _ _ _ _ := []

/-- A password whose key is not empty. -/
def guardedConfig : WebAuthConfig where
  enabled := true
  passwordHash := bytes "argon2id$v=19$m=65536,t=3,p=2$salt$key"
  totpEnabled := false
  totpSecret := []
  recoveryCodeHashes := []
  sessionAbsoluteHours := 168

def guess : LoginCall := ⟨bytes "guess", [], bytes "10.0.0.1", false, some (bytes "token")⟩

/-- Five guesses, one behind the other, and one when the block is over. -/
def patientGuesses : List LoginAction :=
  [.enter guess, .check 0, .enter guess, .check 0, .enter guess, .check 0, .enter guess, .check 0,
    .enter guess, .check 0, .enter guess, .tick webLoginBlockDuration.toNat, .enter guess, .check 0]

theorem login_throttled_guesses :
    Held (run (LoginRun.step emptyLibraries) (.initial guardedConfig 0) patientGuesses).checks ∧
      Limited (run (LoginRun.step emptyLibraries) (.initial guardedConfig 0) patientGuesses).checks := by
  have hraced : Along (LoginRun.step emptyLibraries) Unraced (.initial guardedConfig 0)
      patientGuesses := by
    unfold Unraced
    decide
  exact (login_throttled emptyLibraries guardedConfig 0 patientGuesses).2 hraced

/-- Six guesses at once are all allowed before the first of them has failed. -/
theorem throttle_fails :
    ¬∀ (lib : AuthLibraries) (config : WebAuthConfig) (clock : ℤ) (as : List LoginAction),
      Held (run (LoginRun.step lib) (.initial config clock) as).checks ∨
        Limited (run (LoginRun.step lib) (.initial config clock) as).checks := by
  intro h
  let guesses : List LoginAction := List.replicate 6 (.enter guess) ++ List.replicate 6 (.check 0)
  rcases h emptyLibraries guardedConfig 0 guesses with hheld | hlimited
  · revert hheld
    unfold Held
    decide
  · have hcount := hlimited [] _ [] (bytes "10.0.0.1") (-webLoginFailureWindow) (by simp; rfl) (by decide)
      (by decide) (by decide)
    revert hcount
    decide

end GoNavi.Webserver
