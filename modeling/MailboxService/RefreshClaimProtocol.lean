import Mathlib.Data.List.Count
import MailboxService.TokenRepository

/-!
# The refresh-claim protocol

Any number of workers call the token repository in any order, each call one
transaction, while the clock advances by any amount. The state adds to the
database the claims that were issued and not yet finalised by a call that
found them installed; the code keeps this only as one claim column per
mailbox. `refreshClaims_safe` is the protocol's safety over every run.
-/

namespace MailboxService

open Foundation

/-! ## Calls, claims and versions -/

inductive RefreshCall where
  | claim (claimId mailboxId : String) (decrypt : String → Except String String)
      (claimTtlSeconds : ℕ) (skipActiveRtLeaseCheck : Bool)
  | complete (claim : TokenRefreshClaim) (c : RefreshCompletion)
  | failInvalidGrant (claim : TokenRefreshClaim)
  | release (claim : TokenRefreshClaim)
  | compareAndSwap (mailboxId : String) (expectedTokenVersion : ℕ) (w : RefreshTokenWrite)
  | increment (mailboxId : String) (w : RefreshTokenWrite)
  | advance (elapsed : ℕ)

def RefreshCall.presents : RefreshCall → Option TokenRefreshClaim
  | .complete presented _ => some presented
  | .failInvalidGrant presented => some presented
  | .release presented => some presented
  | _ => none

def RefreshCall.presentsVersion : RefreshCall → Option TokenRefreshClaim
  | .complete presented _ => some presented
  | .failInvalidGrant presented => some presented
  | _ => none

/-- The refresh token a call stores on a row, if its update matches the row. -/
def RefreshCall.replaces (m : Mailbox) : RefreshCall → Option String
  | .complete presented c =>
      if presented.mailboxId = m.id ∧ presented.current m = true ∧
          c.refreshTokenRotated = true ∧ c.refreshTokenUpdatedAt.isSome ∧
          c.refreshTokenExpiresAt.isSome then
        c.encryptedRefreshToken
      else none
  | .compareAndSwap mailboxId expectedTokenVersion w =>
      if mailboxId = m.id ∧ m.tokenVersion = expectedTokenVersion then
        some w.encryptedRefreshToken
      else none
  | .increment mailboxId w =>
      if mailboxId = m.id then some w.encryptedRefreshToken else none
  | _ => none

/-- The version moves by one when the refresh token is replaced and stays
otherwise. -/
def VersionCounts (new : Option String) (before after : Mailbox) : Prop :=
  match new with
  | some ciphertext =>
      after.refreshTokenCiphertext = some ciphertext ∧
        after.tokenVersion = before.tokenVersion + 1
  | none =>
      after.refreshTokenCiphertext = before.refreshTokenCiphertext ∧
        after.tokenVersion = before.tokenVersion

theorem presents_of_presentsVersion {call : RefreshCall} {presented : TokenRefreshClaim}
    (h : call.presentsVersion = some presented) : call.presents = some presented := by
  cases call with
  | complete presented' c => exact h
  | failInvalidGrant presented' => exact h
  | _ => cases h

theorem assignRefreshToken_versionCounts {w : RefreshTokenWrite} {v : Mailbox → ℕ}
    {m : Mailbox} (h : v m = m.tokenVersion + 1) :
    VersionCounts (some w.encryptedRefreshToken) m ((assignRefreshToken w v).set m) :=
  ⟨rfl, h⟩

/-- A row that an update skips keeps its token and version. -/
theorem versionCounts_refl (m : Mailbox) : VersionCounts none m m := ⟨rfl, rfl⟩

theorem versionCounts_le {new : Option String} {before after : Mailbox}
    (h : VersionCounts new before after) : before.tokenVersion ≤ after.tokenVersion := by
  unfold VersionCounts at h
  split at h <;> omega

/-- An issued claim that is not yet due. -/
def TokenRefreshClaim.liveAt (now : ℕ) (c : TokenRefreshClaim) : Bool :=
  !isExpired c.expiresAt now

def TokenRefreshClaim.storedOn (c : TokenRefreshClaim) (m : Mailbox) : Prop :=
  m.tokenRefreshClaimId = some c.claimId ∧ m.tokenRefreshClaimExpiresAt = some c.expiresAt

theorem liveAt_mono {c : TokenRefreshClaim} {now later : ℕ} (h : now ≤ later)
    (hlive : c.liveAt later = true) : c.liveAt now = true := by
  simp only [TokenRefreshClaim.liveAt, isExpired, Bool.not_eq_true', decide_eq_false_iff_not]
    at hlive ⊢
  omega

theorem storedOn_claimedAt {c : TokenRefreshClaim} {now : ℕ} {m : Mailbox}
    (hstored : c.storedOn m) (hlive : c.liveAt now = true) : m.claimedAt now = true := by
  unfold Mailbox.claimedAt
  rw [hstored.1, hstored.2]
  exact hlive

/-! ## Runs -/

section

variable [Collation]

structure RefreshState where
  db : Database
  now : ℕ
  /-- Claims issued and not finalised, the newest first. -/
  outstanding : List TokenRefreshClaim

/-- Drop a claim when the finalising update found its row. -/
def RefreshState.settle (s : RefreshState) (claim : TokenRefreshClaim)
    (q : Mailbox → Bool) : List TokenRefreshClaim :=
  if (s.db.mailboxes.get? claim.mailboxId).any q then
    s.outstanding.filter fun c =>
      !(c.mailboxId = claim.mailboxId && c.claimId = claim.claimId)
  else s.outstanding

def refreshStep (s : RefreshState) : RefreshCall → RefreshState
  | .claim claimId mailboxId decrypt ttl skip =>
      match claimTokenRefresh s.db s.now claimId mailboxId decrypt ttl skip with
      | .error _ => s
      | .ok (claim, db) => { s with db, outstanding := claim :: s.outstanding }
  | .complete claim c =>
      match completeTokenRefresh s.db claim c with
      | .error _ => s
      | .ok (_, db) => { s with db, outstanding := s.settle claim claim.current }
  | .failInvalidGrant claim =>
      { s with
        db := (failTokenRefreshInvalidGrant s.db s.now claim).2
        outstanding := s.settle claim claim.current }
  | .release claim =>
      { s with
        db := releaseTokenRefreshClaim s.db s.now claim
        outstanding := s.settle claim claim.installed }
  | .compareAndSwap mailboxId expectedTokenVersion w =>
      match compareAndSwapRefreshToken s.db mailboxId expectedTokenVersion w with
      | .error _ => s
      | .ok (_, db) => { s with db }
  | .increment mailboxId w =>
      match incrementTokenVersionUnderLock s.db mailboxId w with
      | .error _ => s
      | .ok (_, db) => { s with db }
  | .advance elapsed => { s with now := s.now + elapsed }

/-! ## The promises -/

/-- **One live claim**: a mailbox has at most one claim that is outstanding
and not expired, and it is the one stored on the row. -/
structure OneLiveClaim (s : RefreshState) : Prop where
  single : ∀ m, s.outstanding.countP (fun c => c.mailboxId = m && c.liveAt s.now) ≤ 1
  stored : ∀ c ∈ s.outstanding, c.liveAt s.now = true →
    ∃ row, s.db.mailboxes.get? c.mailboxId = some row ∧ c.storedOn row

/-- What one call promises in the state it is made in. -/
structure CallSafe (s : RefreshState) (call : RefreshCall) : Prop where
  /-- A claim is granted only where no live claim is stored or outstanding. -/
  grant : ∀ claimId mailboxId decrypt ttl skip granted,
    call = .claim claimId mailboxId decrypt ttl skip →
    claimTokenRefresh s.db s.now claimId mailboxId decrypt ttl skip = .ok granted →
    (∀ row, s.db.mailboxes.get? mailboxId = some row → row.claimedAt s.now = false) ∧
      ∀ c ∈ s.outstanding, c.mailboxId = mailboxId → c.liveAt s.now = false
  /-- A claim that is not installed finalises nothing. -/
  wrong_claim : ∀ presented, call.presents = some presented →
    (∀ row, s.db.mailboxes.get? presented.mailboxId = some row →
      row.tokenRefreshClaimId ≠ some presented.claimId) →
    (refreshStep s call).db = s.db
  /-- A claim of another version completes and fails nothing. -/
  wrong_version : ∀ presented, call.presentsVersion = some presented →
    (∀ row, s.db.mailboxes.get? presented.mailboxId = some row →
      row.tokenVersion ≠ presented.expectedTokenVersion) →
    (refreshStep s call).db = s.db
  /-- Every row survives, and its version counts its refresh tokens. -/
  version : ∀ k row, s.db.mailboxes.get? k = some row →
    ∃ row', (refreshStep s call).db.mailboxes.get? k = some row' ∧
      VersionCounts (call.replaces row) row row'

/-! ## What a call does -/

/-- A call that changes the database updates one row conditionally. -/
theorem presents_update {s : RefreshState} {call : RefreshCall}
    {presented : TokenRefreshClaim} (h : call.presents = some presented) :
    refreshStep s call = s ∨
      ∃ q f, (∀ m : Mailbox, q m = true → m.tokenRefreshClaimId = some presented.claimId) ∧
        (refreshStep s call).db = (s.db.updateMailbox presented.mailboxId q f).db ∧
        (refreshStep s call).outstanding = s.settle presented q ∧
        (call.presentsVersion = some presented →
          ∀ m, q m = true → m.tokenVersion = presented.expectedTokenVersion) := by
  have hcurrent : ∀ m, presented.current m = true →
      m.tokenVersion = presented.expectedTokenVersion ∧
        m.tokenRefreshClaimId = some presented.claimId := by
    intro m hm
    simpa only [TokenRefreshClaim.current, Bool.and_eq_true, decide_eq_true_eq] using hm
  cases call with
  | complete presented' c =>
      cases h
      simp only [refreshStep]
      split
      · exact Or.inl rfl
      · rename_i v db' hok
        right
        rcases completeTokenRefresh_ok hok with ⟨-, -, -, encrypted, -, rfl⟩ | ⟨-, rfl⟩
        · exact ⟨presented.current, _, fun m hm => (hcurrent m hm).2, rfl, rfl,
            fun _ m hm => (hcurrent m hm).1⟩
        · exact ⟨presented.current, _, fun m hm => (hcurrent m hm).2, rfl, rfl,
            fun _ m hm => (hcurrent m hm).1⟩
  | failInvalidGrant presented' =>
      cases h
      exact Or.inr ⟨presented.current, _, fun m hm => (hcurrent m hm).2, rfl,
        rfl, fun _ m hm => (hcurrent m hm).1⟩
  | release presented' =>
      cases h
      refine Or.inr ⟨presented.installed, _, ?_, rfl, rfl, ?_⟩
      · intro m hm
        simpa only [TokenRefreshClaim.installed, decide_eq_true_eq] using hm
      · intro hversion
        cases hversion
  | _ => cases h

theorem refreshStep_sameClaim {s : RefreshState} {call : RefreshCall}
    (hpresents : call.presents = none)
    (hgrant : ∀ claimId mailboxId decrypt ttl skip,
      call ≠ .claim claimId mailboxId decrypt ttl skip) :
    (refreshStep s call).outstanding = s.outstanding ∧
      s.now ≤ (refreshStep s call).now ∧
      ∀ k row, s.db.mailboxes.get? k = some row →
        ∃ row', (refreshStep s call).db.mailboxes.get? k = some row' ∧
          row'.tokenRefreshClaimId = row.tokenRefreshClaimId ∧
          row'.tokenRefreshClaimExpiresAt = row.tokenRefreshClaimExpiresAt := by
  have hassign : ∀ (w : RefreshTokenWrite) (v : Mailbox → ℕ) (m : Mailbox),
      ((assignRefreshToken w v).set m).tokenRefreshClaimId = m.tokenRefreshClaimId ∧
        ((assignRefreshToken w v).set m).tokenRefreshClaimExpiresAt =
          m.tokenRefreshClaimExpiresAt := by
    intro w v m
    unfold assignRefreshToken
    dsimp only
    split <;> exact ⟨rfl, rfl⟩
  -- the other writers of a refresh token leave the columns of the claim alone
  have hupdate : ∀ (mailboxId : String) (q : Mailbox → Bool) (w : RefreshTokenWrite)
      (v : Mailbox → ℕ) (k : String) (row : Mailbox), s.db.mailboxes.get? k = some row →
      ∃ row', (s.db.updateMailbox mailboxId q (assignRefreshToken w v)).db.mailboxes.get? k =
          some row' ∧
        row'.tokenRefreshClaimId = row.tokenRefreshClaimId ∧
        row'.tokenRefreshClaimExpiresAt = row.tokenRefreshClaimExpiresAt := by
    intro mailboxId q w v k row hrow
    refine ⟨_, updateMailbox_row hrow, ?_⟩
    split
    · exact hassign w v row
    · exact ⟨rfl, rfl⟩
  cases call with
  | compareAndSwap mailboxId expected w =>
      simp only [refreshStep]
      split
      · exact ⟨rfl, Nat.le_refl _, fun k row hrow => ⟨row, hrow, rfl, rfl⟩⟩
      · rename_i v db' hok
        rw [(compareAndSwapRefreshToken_ok hok).2]
        exact ⟨rfl, Nat.le_refl _, hupdate _ _ _ _⟩
  | increment mailboxId w =>
      simp only [refreshStep]
      split
      · exact ⟨rfl, Nat.le_refl _, fun k row hrow => ⟨row, hrow, rfl, rfl⟩⟩
      · rename_i v db' hok
        rw [incrementTokenVersionUnderLock_ok hok]
        exact ⟨rfl, Nat.le_refl _, hupdate _ _ _ _⟩
  | advance elapsed =>
      exact ⟨rfl, Nat.le_add_right _ _, fun k row hrow => ⟨row, hrow, rfl, rfl⟩⟩
  | claim claimId mailboxId decrypt ttl skip =>
      exact absurd rfl (hgrant claimId mailboxId decrypt ttl skip)
  | _ => cases hpresents

/-! ## One live claim -/

theorem OneLiveClaim.none_outstanding {s : RefreshState} (h : OneLiveClaim s)
    {mailboxId : String} {row : Mailbox} (hrow : s.db.mailboxes.get? mailboxId = some row)
    (hclaimed : row.claimedAt s.now = false) :
    ∀ c ∈ s.outstanding, c.mailboxId = mailboxId → c.liveAt s.now = false := by
  intro c hc hid
  rw [← Bool.not_eq_true]
  intro hlive
  obtain ⟨row', hrow', hstored⟩ := h.stored c hc hlive
  rw [hid, hrow] at hrow'
  cases hrow'
  rw [storedOn_claimedAt hstored hlive] at hclaimed
  cases hclaimed

theorem grant_oneLiveClaim {s : RefreshState} {claimId mailboxId : String}
    {decrypt : String → Except String String} {ttl : ℕ} {skip : Bool}
    (h : OneLiveClaim s) :
    OneLiveClaim (refreshStep s (.claim claimId mailboxId decrypt ttl skip)) := by
  simp only [refreshStep]
  split
  · exact h
  · rename_i granted db' hok
    obtain ⟨row, hrow, hclaimed, hid, hclaimId, -, -, hexpires, rfl⟩ := claimTokenRefresh_ok hok
    have hnone := h.none_outstanding hrow hclaimed
    refine ⟨?_, ?_⟩
    · intro m
      have hold := h.single m
      rw [List.countP_cons]
      by_cases hm : mailboxId = m
      · subst hm
        have hzero : s.outstanding.countP
            (fun c => c.mailboxId = mailboxId && c.liveAt s.now) = 0 := by
          rw [List.countP_eq_zero]
          intro c hc
          simp only [Bool.and_eq_true, decide_eq_true_eq, not_and, Bool.not_eq_true]
          exact hnone c hc
        rw [hzero]
        split <;> omega
      · simp only [hid, hm, decide_false, Bool.false_and, Bool.false_eq_true, if_false]
        exact hold
    · intro c hc hlive
      rcases List.mem_cons.mp hc with rfl | hc
      · rw [hid]
        refine ⟨_, updateMailbox_row hrow, ?_⟩
        simp only [hclaimed, Bool.not_false, and_self, if_true]
        exact ⟨by rw [hclaimId]; rfl, by rw [hexpires]; rfl⟩
      · obtain ⟨row', hrow', hstored⟩ := h.stored c hc hlive
        have hne : c.mailboxId ≠ mailboxId := by
          intro heq
          rw [hnone c hc heq] at hlive
          cases hlive
        refine ⟨_, updateMailbox_row hrow', ?_⟩
        simp only [hne, false_and, if_false]
        exact hstored

/-- A finalising call takes the installed claim off the row and off the books
together. -/
theorem settle_oneLiveClaim {s s' : RefreshState} {presented : TokenRefreshClaim}
    {q : Mailbox → Bool} {f : MailboxAssignment}
    (hq : ∀ m : Mailbox, q m = true → m.tokenRefreshClaimId = some presented.claimId)
    (hnow : s'.now = s.now)
    (hdb : s'.db = (s.db.updateMailbox presented.mailboxId q f).db)
    (hout : s'.outstanding = s.settle presented q) (h : OneLiveClaim s) :
    OneLiveClaim s' := by
  cases hany : (s.db.mailboxes.get? presented.mailboxId).any q with
  | false =>
      rw [updateMailbox_of_not hany] at hdb
      simp only [RefreshState.settle, hany, Bool.false_eq_true, if_false] at hout
      exact ⟨by rw [hout, hnow]; exact h.single, by rw [hout, hnow, hdb]; exact h.stored⟩
  | true =>
      simp only [RefreshState.settle, hany, if_true] at hout
      refine ⟨?_, ?_⟩
      · intro m
        rw [hout, hnow]
        exact Nat.le_trans List.filter_sublist.countP_le (h.single m)
      · intro c hc hlive
        rw [hnow] at hlive
        rw [hout, List.mem_filter] at hc
        obtain ⟨row, hrow, hstored⟩ := h.stored c hc.1 hlive
        rw [hdb]
        refine ⟨_, updateMailbox_row hrow, ?_⟩
        -- a claim left on the books is not the one the row carried
        have hother : ¬ (c.mailboxId = presented.mailboxId ∧ q row = true) := by
          rintro ⟨hid, hqrow⟩
          have hsame : c.claimId = presented.claimId := by
            have := hq row hqrow
            rw [hstored.1] at this
            exact Option.some.inj this
          simp [hid, hsame] at hc
        rw [if_neg hother]
        exact hstored

theorem refreshStep_oneLiveClaim (s : RefreshState) (call : RefreshCall)
    (h : OneLiveClaim s) : OneLiveClaim (refreshStep s call) := by
  by_cases hclaim : ∃ claimId mailboxId decrypt ttl skip,
      call = .claim claimId mailboxId decrypt ttl skip
  · obtain ⟨claimId, mailboxId, decrypt, ttl, skip, rfl⟩ := hclaim
    exact grant_oneLiveClaim h
  · cases hpresents : call.presents with
    | some presented =>
        have hnow : (refreshStep s call).now = s.now := by
          cases call with
          | complete presented c =>
              simp only [refreshStep]
              split <;> rfl
          | failInvalidGrant presented => rfl
          | release presented => rfl
          | _ => cases hpresents
        rcases presents_update hpresents with hsame | ⟨q, f, hq, hdb, hout, -⟩
        · rw [hsame]
          exact h
        · exact settle_oneLiveClaim hq hnow hdb hout h
    | none =>
        obtain ⟨hout, hnow, hrows⟩ := refreshStep_sameClaim (s := s) hpresents (by
          intro claimId mailboxId decrypt ttl skip heq
          exact hclaim ⟨claimId, mailboxId, decrypt, ttl, skip, heq⟩)
        refine ⟨?_, ?_⟩
        · intro m
          rw [hout]
          refine Nat.le_trans (List.countP_mono_left ?_) (h.single m)
          intro c _ hc
          rw [Bool.and_eq_true] at hc ⊢
          exact ⟨hc.1, liveAt_mono hnow hc.2⟩
        · intro c hc hlive
          rw [hout] at hc
          obtain ⟨row, hrow, hstored⟩ := h.stored c hc (liveAt_mono hnow hlive)
          obtain ⟨row', hrow', hid, hexpires⟩ := hrows _ row hrow
          exact ⟨row', hrow', by rw [hid]; exact hstored.1, by rw [hexpires]; exact hstored.2⟩

/-! ## One call -/

/-- A finalising call whose condition fails on the row changes nothing. -/
theorem presents_unchanged {s : RefreshState} {call : RefreshCall}
    {presented : TokenRefreshClaim} (h : call.presents = some presented)
    (hrow : ∀ row, s.db.mailboxes.get? presented.mailboxId = some row →
      row.tokenRefreshClaimId ≠ some presented.claimId ∨
        (call.presentsVersion = some presented ∧
          row.tokenVersion ≠ presented.expectedTokenVersion)) :
    (refreshStep s call).db = s.db := by
  rcases presents_update h with hsame | ⟨q, f, hq, hdb, -, hversion⟩
  · rw [hsame]
  · rw [hdb, updateMailbox_of_not]
    rw [← Bool.not_eq_true]
    intro hany
    obtain ⟨row, hget, hqrow⟩ := (Option.any_eq_true _ _).mp hany
    rcases hrow row hget with hid | ⟨hpresents, hne⟩
    · exact hid (hq row hqrow)
    · exact hne (hversion hpresents row hqrow)

/-- **Version lemma**: a call leaves every row in place, one version on when it
replaces the refresh token and at the same version otherwise. -/
theorem refreshStep_versionCounts (s : RefreshState) (call : RefreshCall) {k : String}
    {row : Mailbox} (hrow : s.db.mailboxes.get? k = some row) :
    ∃ row', (refreshStep s call).db.mailboxes.get? k = some row' ∧
      VersionCounts (call.replaces row) row row' := by
  have hkey : row.id = k := Table.key_of_get? hrow
  cases call with
  | claim claimId mailboxId decrypt ttl skip =>
      simp only [refreshStep, RefreshCall.replaces]
      split
      · exact ⟨row, hrow, versionCounts_refl row⟩
      · rename_i granted db' hok
        obtain ⟨-, -, -, -, -, -, -, -, rfl⟩ := claimTokenRefresh_ok hok
        refine ⟨_, updateMailbox_row hrow, ?_⟩
        split
        · exact ⟨rfl, rfl⟩
        · exact versionCounts_refl row
  | complete presented c =>
      simp only [refreshStep, RefreshCall.replaces, hkey]
      split
      · rename_i e herr
        have hmissing := completeTokenRefresh_error herr
        refine ⟨row, hrow, ?_⟩
        split
        · rename_i hrep
          cases henc : c.encryptedRefreshToken with
          | none => exact versionCounts_refl row
          | some encrypted =>
              exact absurd ⟨by rw [henc]; rfl, hrep.2.2.2⟩ hmissing
        · exact versionCounts_refl row
      · rename_i v db' hok
        rcases completeTokenRefresh_ok hok with
          ⟨hrot, hu, he, encrypted, henc, rfl⟩ | ⟨hrot, rfl⟩
        · refine ⟨_, updateMailbox_row hrow, ?_⟩
          by_cases hcond : k = presented.mailboxId ∧ presented.current row = true
          · rw [if_pos hcond, if_pos ⟨hcond.1.symm, hcond.2, hrot, hu, he⟩, henc]
            -- the SET clause writes the version the claim names, plus one
            have hversion : row.tokenVersion = presented.expectedTokenVersion := by
              have := hcond.2
              simp only [TokenRefreshClaim.current, Bool.and_eq_true, decide_eq_true_eq]
                at this
              exact this.1
            refine ⟨rfl, ?_⟩
            rw [hversion]
            rfl
          · rw [if_neg hcond, if_neg (fun h => hcond ⟨h.1.symm, h.2.1⟩)]
            exact versionCounts_refl row
        · refine ⟨_, updateMailbox_row hrow, ?_⟩
          simp only [hrot, Bool.false_eq_true, false_and, and_false, if_false]
          split
          · exact ⟨rfl, rfl⟩
          · exact versionCounts_refl row
  | failInvalidGrant presented =>
      refine ⟨_, updateMailbox_row hrow, ?_⟩
      split
      · exact ⟨rfl, rfl⟩
      · exact versionCounts_refl row
  | release presented =>
      refine ⟨_, updateMailbox_row hrow, ?_⟩
      split
      · exact ⟨rfl, rfl⟩
      · exact versionCounts_refl row
  | compareAndSwap mailboxId expected w =>
      simp only [refreshStep, RefreshCall.replaces, hkey]
      split
      · rename_i e herr
        have hmiss := compareAndSwapRefreshToken_error herr
        refine ⟨row, hrow, ?_⟩
        rw [if_neg]
        · exact versionCounts_refl row
        -- the update is refused only where the version differs
        · rintro ⟨rfl, hversion⟩
          rw [hrow] at hmiss
          simp [hversion] at hmiss
      · rename_i v db' hok
        rw [(compareAndSwapRefreshToken_ok hok).2]
        refine ⟨_, updateMailbox_row hrow, ?_⟩
        by_cases hcond : mailboxId = k ∧ row.tokenVersion = expected
        · rw [if_pos hcond, if_pos ⟨hcond.1.symm, decide_eq_true hcond.2⟩]
          exact assignRefreshToken_versionCounts (by rw [hcond.2])
        · rw [if_neg hcond, if_neg (fun h => hcond ⟨h.1.symm, of_decide_eq_true h.2⟩)]
          exact versionCounts_refl row
  | increment mailboxId w =>
      simp only [refreshStep, RefreshCall.replaces, hkey]
      split
      · rename_i e herr
        have hmiss := incrementTokenVersionUnderLock_error herr
        refine ⟨row, hrow, ?_⟩
        rw [if_neg]
        · exact versionCounts_refl row
        · rintro rfl
          rw [hrow] at hmiss
          cases hmiss
      · rename_i v db' hok
        rw [incrementTokenVersionUnderLock_ok hok]
        refine ⟨_, updateMailbox_row hrow, ?_⟩
        by_cases hk : mailboxId = k
        · rw [if_pos hk, if_pos ⟨hk.symm, rfl⟩]
          exact assignRefreshToken_versionCounts rfl
        · rw [if_neg hk, if_neg (fun h => hk h.1.symm)]
          exact versionCounts_refl row
  | advance elapsed => exact ⟨row, hrow, versionCounts_refl row⟩

theorem refreshStep_safe (s : RefreshState) (call : RefreshCall) (h : OneLiveClaim s) :
    CallSafe s call where
  grant := by
    rintro claimId mailboxId decrypt ttl skip ⟨granted, db'⟩ - hok
    obtain ⟨row, hrow, hclaimed, -⟩ := claimTokenRefresh_ok hok
    refine ⟨?_, h.none_outstanding hrow hclaimed⟩
    intro row' hrow'
    rw [hrow] at hrow'
    cases hrow'
    exact hclaimed
  wrong_claim := by
    intro presented hpresents hrow
    exact presents_unchanged hpresents fun row hget => Or.inl (hrow row hget)
  wrong_version := by
    intro presented hversion hrow
    exact presents_unchanged (presents_of_presentsVersion hversion) fun row hget =>
      Or.inr ⟨hversion, hrow row hget⟩
  version := fun _ _ hrow => refreshStep_versionCounts s call hrow

/-! ## Every run -/

theorem exec_tokenVersion_le (calls : List RefreshCall) :
    ∀ (s : RefreshState) (k : String) (row : Mailbox), s.db.mailboxes.get? k = some row →
      ∃ row', (exec refreshStep s calls).db.mailboxes.get? k = some row' ∧
        row.tokenVersion ≤ row'.tokenVersion := by
  induction calls with
  | nil =>
      intro s k row hrow
      exact ⟨row, hrow, Nat.le_refl _⟩
  | cons call calls ih =>
      intro s k row hrow
      obtain ⟨mid, hmid, hstep⟩ := refreshStep_versionCounts s call hrow
      obtain ⟨row', hrow', hle⟩ := ih _ k mid hmid
      exact ⟨row', hrow', Nat.le_trans (versionCounts_le hstep) hle⟩

theorem start_oneLiveClaim (db : Database) (now : ℕ) : OneLiveClaim ⟨db, now, []⟩ where
  single _ := Nat.zero_le _
  stored _ hc := absurd hc List.not_mem_nil

theorem exec_oneLiveClaim (db : Database) (now : ℕ) (calls : List RefreshCall) :
    OneLiveClaim (exec refreshStep ⟨db, now, []⟩ calls) :=
  exec_invariant refreshStep_oneLiveClaim (start_oneLiveClaim db now) calls

/-- **Protocol safety**: from any database with no claim issued yet, and for
every order of calls, each mailbox has at most one live claim and it is the
stored one, every call keeps its promises, and versions only grow. -/
theorem refreshClaims_safe (db : Database) (now : ℕ) (calls : List RefreshCall) :
    Throughout refreshStep OneLiveClaim ⟨db, now, []⟩ calls ∧
      Meets refreshStep CallSafe ⟨db, now, []⟩ calls ∧
      ∀ k row, db.mailboxes.get? k = some row →
        ∃ row', (exec refreshStep ⟨db, now, []⟩ calls).db.mailboxes.get? k = some row' ∧
          row.tokenVersion ≤ row'.tokenVersion := by
  have hstart := start_oneLiveClaim db now
  have hall : Meets refreshStep (fun _ _ => True) (⟨db, now, []⟩ : RefreshState) calls :=
    meets_of_forall (fun _ _ => trivial) _ _
  refine ⟨?_, ?_, exec_tokenVersion_le calls ⟨db, now, []⟩⟩
  · exact throughout_of_meets (fun s call h _ => refreshStep_oneLiveClaim s call h) hstart hall
  · exact hall.imp_of_invariant (fun s call h _ => refreshStep_oneLiveClaim s call h)
      (fun s call h _ => refreshStep_safe s call h) hstart

end

end MailboxService
