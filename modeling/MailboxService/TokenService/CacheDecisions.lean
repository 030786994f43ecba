import MailboxService.TokenService.ClaimDisposal
import MailboxService.TokenService.TokenScopes

/-!
# Three readings of the cache

`ensure_access_token` decides in three places whether the stored access token
will do: on its fast path, in phase A, and for the token of a concurrent winner.
The first two read a missing scope off the token, and run behind the check of
the provider; the third takes the column as it is.

`cache_decisions_agree_iff` says on which rows that makes no difference.
-/

namespace MailboxService

section

variable [Platform]

def fastPathToken (settings : TokenSettings) (now : ℕ) (preferred : Option MailAccessChannel)
    (m : Mailbox) : Except EnsureError (Option String) :=
  if !m.isMicrosoft then .error .notMicrosoft
  else
    (settings.cacheHit now (m.preferredMailChannel preferred) m).mapError
      fun _ => .unreadableCredential

/-- What phase A makes of a row. -/
def phaseAToken (settings : TokenSettings) (now : ℕ) (preferred : Option MailAccessChannel)
    (m : Mailbox) : Except EnsureError (Option String) :=
  if !m.isMicrosoft then .error .notMicrosoft
  else
    (settings.cachedAccessToken now (m.preferredMailChannel preferred) m).mapError
      fun _ => .unreadableCredential

/-- The token that a decision returns; one that raises returns none. -/
def returnedToken : Except EnsureError (Option String) → Option String
  | .ok accessToken => accessToken
  | .error _ => none

/-- All three return the stored token, or all three decline it. -/
def CacheDecisionsAgree (settings : TokenSettings) (now : ℕ)
    (preferred : Option MailAccessChannel) (m : Mailbox) : Prop :=
  returnedToken (fastPathToken settings now preferred m) =
      settings.winnerAccessToken now preferred (some m) ∧
    returnedToken (phaseAToken settings now preferred m) =
      settings.winnerAccessToken now preferred (some m)

instance (settings : TokenSettings) (now : ℕ) (preferred : Option MailAccessChannel)
    (m : Mailbox) : Decidable (CacheDecisionsAgree settings now preferred m) :=
  inferInstanceAs (Decidable (_ ∧ _))

/-- With a usable token that can be read: a missing scope is for the wanted
channel what the token's own scope is for it, and a row of another provider is
not for that channel. -/
def WinnerSeesScope (settings : TokenSettings) (now : ℕ) (preferred : Option MailAccessChannel)
    (m : Mailbox) : Prop :=
  settings.hasUsableCachedAccessToken now m = true →
    ∀ accessToken, settings.decrypt (m.accessTokenCiphertext.getD "") = .ok accessToken →
      (m.isMicrosoft = true → missing m.scope = true →
        ∀ channel, m.preferredMailChannel preferred = some channel →
          settings.matchesChannel (settings.extractScopes accessToken) channel =
            settings.matchesChannel none channel) ∧
      (m.isMicrosoft = false →
        ∃ channel, m.preferredMailChannel preferred = some channel ∧
          settings.matchesChannel m.scope channel = false)

/-! ## Each decision -/

section Decisions

variable {settings : TokenSettings} {now : ℕ} {preferred target : Option MailAccessChannel}
  {m : Mailbox} {accessToken : String}

omit [Platform] in
theorem orElseMissing_of_missing {value fallback : Option String} (h : missing value = true) :
    orElseMissing value fallback = fallback :=
  if_pos h

omit [Platform] in
theorem orElseMissing_of_stored {value fallback : Option String} (h : missing value = false) :
    orElseMissing value fallback = value := by
  unfold orElseMissing
  rw [h]
  rfl

omit [Platform] in
theorem matchesChannel_of_missing {scope : Option String} (h : missing scope = true)
    (channel : MailAccessChannel) :
    settings.matchesChannel scope channel = settings.matchesChannel none channel := by
  cases scope with
  | none => rfl
  | some s =>
      have hs : s = "" := of_decide_eq_true h
      subst hs
      rfl

omit [Platform] in
/-- The fast path and phase A return the same tokens. -/
theorem cacheHit_eq_some :
    settings.cacheHit now target m = .ok (some accessToken) ↔
      settings.hasUsableCachedAccessToken now m = true ∧
        settings.decrypt (m.accessTokenCiphertext.getD "") = .ok accessToken ∧
        target.all (settings.matchesChannel
          (orElseMissing m.scope (settings.extractScopes accessToken))) = true := by
  unfold TokenSettings.cacheHit
  dsimp only
  cases settings.hasUsableCachedAccessToken now m with
  | false => simp
  | true =>
      rw [Bool.not_true, if_neg Bool.false_ne_true]
      by_cases hscope : missing m.scope = true
      · rw [if_pos hscope]
        cases settings.decrypt (m.accessTokenCiphertext.getD "") with
        | error e => simp [Except.map]
        | ok cached =>
            simp only [Except.map, Except.ok.injEq, true_and, Option.ite_none_right_eq_some,
              Option.some.injEq]
            constructor
            · rintro ⟨hall, rfl⟩
              exact ⟨rfl, by rw [orElseMissing_of_missing hscope]; exact hall⟩
            · rintro ⟨rfl, hall⟩
              exact ⟨by rw [orElseMissing_of_missing hscope] at hall; exact hall, rfl⟩
      · have hstored : missing m.scope = false := by simpa using hscope
        rw [if_neg hscope]
        simp only [orElseMissing_of_stored hstored, true_and]
        by_cases hall : target.all (settings.matchesChannel m.scope) = true
        · rw [if_pos hall]
          cases settings.decrypt (m.accessTokenCiphertext.getD "") with
          | error e => simp [Except.map]
          | ok cached => simp [Except.map, hall]
        · rw [if_neg hall]
          simp [hall]

omit [Platform] in
theorem cachedAccessToken_eq_some :
    settings.cachedAccessToken now target m = .ok (some accessToken) ↔
      settings.hasUsableCachedAccessToken now m = true ∧
        settings.decrypt (m.accessTokenCiphertext.getD "") = .ok accessToken ∧
        target.all (settings.matchesChannel
          (orElseMissing m.scope (settings.extractScopes accessToken))) = true := by
  unfold TokenSettings.cachedAccessToken
  cases settings.hasUsableCachedAccessToken now m with
  | false => simp
  | true =>
      rw [if_pos rfl]
      cases settings.decrypt (m.accessTokenCiphertext.getD "") with
      | error e => simp [Except.map]
      | ok cached =>
          simp only [Except.map, Except.ok.injEq, true_and, Option.ite_none_right_eq_some,
            Option.some.injEq]
          constructor
          · rintro ⟨hall, rfl⟩
            exact ⟨rfl, hall⟩
          · rintro ⟨rfl, hall⟩
            exact ⟨hall, rfl⟩

omit [Platform] in
theorem winnerAccessToken_eq_some :
    settings.winnerAccessToken now preferred (some m) = some accessToken ↔
      settings.hasUsableCachedAccessToken now m = true ∧
        settings.decrypt (m.accessTokenCiphertext.getD "") = .ok accessToken ∧
        (m.preferredMailChannel preferred).all (settings.matchesChannel m.scope) = true := by
  unfold TokenSettings.winnerAccessToken
  rw [Option.bind_some]
  cases settings.hasUsableCachedAccessToken now m with
  | false => simp
  | true =>
      rw [Bool.true_and]
      by_cases hall : (m.preferredMailChannel preferred).all (settings.matchesChannel m.scope) = true
      · rw [if_pos hall]
        cases settings.decrypt (m.accessTokenCiphertext.getD "") with
        | error e => simp [Except.toOption]
        | ok cached => simp [Except.toOption, hall]
      · rw [if_neg hall]
        simp [hall]

omit [Platform] in
theorem returnedToken_mapError {r : Except String (Option String)} :
    returnedToken (r.mapError fun _ => .unreadableCredential) = some accessToken ↔
      r = .ok (some accessToken) := by
  cases r <;> simp [returnedToken, Except.mapError]

theorem returnedToken_fastPathToken :
    returnedToken (fastPathToken settings now preferred m) = some accessToken ↔
      m.isMicrosoft = true ∧ settings.hasUsableCachedAccessToken now m = true ∧
        settings.decrypt (m.accessTokenCiphertext.getD "") = .ok accessToken ∧
        (m.preferredMailChannel preferred).all (settings.matchesChannel
          (orElseMissing m.scope (settings.extractScopes accessToken))) = true := by
  unfold fastPathToken
  cases m.isMicrosoft with
  | false => simp [returnedToken]
  | true =>
      rw [Bool.not_true, if_neg Bool.false_ne_true, returnedToken_mapError, cacheHit_eq_some]
      exact (and_iff_right rfl).symm

theorem returnedToken_phaseAToken :
    returnedToken (phaseAToken settings now preferred m) =
      returnedToken (fastPathToken settings now preferred m) := by
  apply Option.ext
  intro accessToken
  rw [returnedToken_fastPathToken]
  unfold phaseAToken
  cases m.isMicrosoft with
  | false => simp [returnedToken]
  | true =>
      rw [Bool.not_true, if_neg Bool.false_ne_true, returnedToken_mapError,
        cachedAccessToken_eq_some]
      exact (and_iff_right rfl).symm

omit [Platform] in
theorem all_iff_forall {p : MailAccessChannel → Bool} :
    target.all p = true ↔ ∀ channel, target = some channel → p channel = true := by
  cases target <;> simp

/-- The third decision agrees with the other two exactly if it sees a scope that
serves the wanted channel as theirs does. -/
theorem fastPathToken_eq_winner_iff :
    returnedToken (fastPathToken settings now preferred m) =
        settings.winnerAccessToken now preferred (some m) ↔
      WinnerSeesScope settings now preferred m := by
  rw [Option.ext_iff]
  simp only [returnedToken_fastPathToken, winnerAccessToken_eq_some]
  have hall : ∀ scope, (m.preferredMailChannel preferred).all (settings.matchesChannel scope) = true ↔
      ∀ channel, m.preferredMailChannel preferred = some channel →
        settings.matchesChannel scope channel = true := fun _ => all_iff_forall
  constructor
  · intro hsame husable accessToken hread
    have hiff := hsame accessToken
    simp only [husable, hread, true_and] at hiff
    constructor
    · intro hmicrosoft hscope channel hchannel
      simp only [hmicrosoft, true_and, orElseMissing_of_missing hscope, hchannel,
        Option.all_some, matchesChannel_of_missing hscope] at hiff
      exact Bool.eq_iff_iff.mpr hiff
    · intro hother
      simp only [hother, Bool.false_eq_true, false_and, false_iff, hall, not_forall,
        Bool.not_eq_true] at hiff
      obtain ⟨channel, hchannel, hmatch⟩ := hiff
      exact ⟨channel, hchannel, hmatch⟩
  · intro hsees accessToken
    by_cases hcached : settings.hasUsableCachedAccessToken now m = true ∧
        settings.decrypt (m.accessTokenCiphertext.getD "") = .ok accessToken
    · obtain ⟨husable, hread⟩ := hcached
      obtain ⟨hmissing, hother⟩ := hsees husable accessToken hread
      simp only [husable, hread, true_and]
      cases hmicrosoft : m.isMicrosoft with
      | false =>
          obtain ⟨channel, hchannel, hmatch⟩ := hother hmicrosoft
          simp [hchannel, hmatch]
      | true =>
          rw [eq_self_iff_true, true_and]
          by_cases hscope : missing m.scope = true
          · rw [orElseMissing_of_missing hscope, hall, hall]
            refine forall_congr' fun channel => forall_congr' fun hchannel => ?_
            rw [hmissing hmicrosoft hscope channel hchannel, matchesChannel_of_missing hscope]
          · rw [orElseMissing_of_stored (by simpa using hscope)]
    · exact iff_of_false (fun h => hcached ⟨h.2.1, h.2.2.1⟩) (fun h => hcached ⟨h.1, h.2.1⟩)

/-- **The three cache decisions** agree exactly on the rows whose scope the
winner's reading does not mistake. -/
theorem cache_decisions_agree_iff (settings : TokenSettings) (now : ℕ)
    (preferred : Option MailAccessChannel) (m : Mailbox) :
    CacheDecisionsAgree settings now preferred m ↔ WinnerSeesScope settings now preferred m := by
  unfold CacheDecisionsAgree
  rw [returnedToken_phaseAToken, and_self]
  exact fastPathToken_eq_winner_iff

end Decisions

/-! ## The decisions in a call -/

section Steps

variable {settings : TokenSettings} {request : EnsureRequest} {s : EnsureState} {m : Mailbox}

theorem checkCacheStep_claims_iff (probe : Option CapabilityProbeResult) (nonce : ℕ)
    (hforce : request.forceRefresh = false)
    (hm : s.db.mailboxes.get? request.mailboxId = some m) :
    (checkCacheStep settings request s probe nonce).phase = .claiming false ↔
      fastPathToken settings s.now request.preferredChannel m = .ok none := by
  unfold checkCacheStep fastPathToken
  rw [hforce, if_neg Bool.false_ne_true, hm]
  dsimp only
  cases m.isMicrosoft with
  | false => simp
  | true =>
      rw [Bool.not_true, if_neg Bool.false_ne_true, if_neg Bool.false_ne_true]
      rcases settings.cacheHit s.now (m.preferredMailChannel request.preferredChannel) m with
        e | _ | accessToken
      · simp [Except.mapError]
      · simp [Except.mapError]
      · simp only [Except.mapError, Except.ok.injEq, reduceCtorEq, iff_false]
        split
        · simp
        · cases probe <;> simp

theorem phaseAStep_of_cached {accessToken : String} (claimId : String)
    (hforce : request.forceRefresh = false)
    (hm : s.db.mailboxes.get? request.mailboxId = some m)
    (h : phaseAToken settings s.now request.preferredChannel m = .ok (some accessToken)) :
    phaseAStep settings request s false claimId = { s with phase := .returned } := by
  unfold phaseAToken at h
  unfold phaseAStep
  rw [hm]
  dsimp only
  cases hmicrosoft : m.isMicrosoft with
  | false =>
      rw [hmicrosoft] at h
      cases h
  | true =>
      rw [hmicrosoft, Bool.not_true, if_neg Bool.false_ne_true] at h
      rw [hforce, Bool.not_true, if_neg Bool.false_ne_true, Bool.or_self,
        if_neg Bool.false_ne_true]
      rcases hcached : settings.cachedAccessToken s.now
        (m.preferredMailChannel request.preferredChannel) m with e | _ | cached
      · rw [hcached] at h
        cases h
      · rw [hcached] at h
        cases h
      · rfl

end Steps

end

section Sample

attribute [local instance] asciiPlatform replacementHalves

/-- The token of the mailbox says that it is for Graph. The winner's reading declines it
there, and returns it for IMAP, unlike the other two. -/
theorem cache_decisions_disagree :
    ¬ CacheDecisionsAgree scopeSettings 0 (some .graph) issuedMailbox ∧
      ¬ CacheDecisionsAgree scopeSettings 0 (some .imap) issuedMailbox := by
  decide +kernel

end Sample

end MailboxService
