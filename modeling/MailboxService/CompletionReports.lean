import MailboxService.Ascii
import MailboxService.RefreshClaimProtocol

/-!
# What a completion reports

`complete_token_refresh` answers with a token version when its conditional
`UPDATE` has matched the row. When it has matched none, the answer is read off
the row: a row without a claim, at the version the completion would have left
and with an access token of that version, is taken for the completion's own
work. `completion_truthful_iff` says when the answer can be trusted, and
`live_completion_truthful` that it can as long as the claim has not expired.
-/

namespace MailboxService

open Foundation

def TokenRefreshClaim.completedVersion (claim : TokenRefreshClaim) (c : RefreshCompletion) :
    ℕ :=
  if c.refreshTokenRotated then claim.expectedTokenVersion + 1
  else claim.expectedTokenVersion

/-- A rotation comes with its refresh token and the stamps of its lifetime. -/
def RefreshCompletion.Stamped (c : RefreshCompletion) : Prop :=
  c.refreshTokenRotated = true →
    c.encryptedRefreshToken.isSome ∧ c.refreshTokenUpdatedAt.isSome ∧
      c.refreshTokenExpiresAt.isSome

structure RefreshCompletion.OnRow (c : RefreshCompletion) (m : Mailbox) : Prop where
  accessToken : m.accessTokenCiphertext = some c.encryptedAccessToken
  accessTokenExpiresAt : m.accessTokenExpiresAt = some c.accessTokenExpiresAt
  accessTokenRefreshedAt : m.accessTokenRefreshedAt = some c.accessTokenRefreshedAt
  refreshToken : c.refreshTokenRotated = true →
    m.refreshTokenCiphertext = c.encryptedRefreshToken

/-- What a row without a claim looks like once a refresh has left this version. -/
def Mailbox.looksCompleted (version : ℕ) (m : Mailbox) : Bool :=
  m.tokenVersion = version && m.accessTokenSourceVersion = some version &&
    m.tokenRefreshClaimId = none && m.accessTokenCiphertext.isSome

variable {claim : TokenRefreshClaim} {c : RefreshCompletion}

/-! ## Rows -/

/-- What a completion stores, when its claim is current. -/
def completionAssignment (claim : TokenRefreshClaim) (c : RefreshCompletion) :
    MailboxAssignment :=
  if c.refreshTokenRotated then
    assignRotatedTokens c (c.encryptedRefreshToken.getD "") (claim.expectedTokenVersion + 1)
  else assignAccessToken c claim.expectedTokenVersion

theorem completionAssignment_onRow (h : c.Stamped) (m : Mailbox) :
    c.OnRow ((completionAssignment claim c).set m) := by
  unfold completionAssignment
  cases hrot : c.refreshTokenRotated with
  | true =>
      obtain ⟨henc, -, -⟩ := h hrot
      obtain ⟨encrypted, henc⟩ := Option.isSome_iff_exists.mp henc
      refine ⟨rfl, rfl, rfl, fun _ => ?_⟩
      rw [henc]
      rfl
  | false =>
      refine ⟨rfl, rfl, rfl, fun htrue => ?_⟩
      rw [hrot] at htrue
      cases htrue

theorem completionAssignment_claim (m : Mailbox) :
    ((completionAssignment claim c).set m).tokenRefreshClaimId = none := by
  unfold completionAssignment
  split <;> rfl

theorem not_looksCompleted_of_installed {m : Mailbox} {version : ℕ}
    (h : claim.installed m = true) : m.looksCompleted version = false := by
  unfold TokenRefreshClaim.installed at h
  rw [decide_eq_true_eq] at h
  unfold Mailbox.looksCompleted
  rw [h]
  simp only [reduceCtorEq, decide_false, Bool.and_false, Bool.false_and]

theorem installed_of_current {m : Mailbox} (h : claim.current m = true) :
    claim.installed m = true := by
  unfold TokenRefreshClaim.current at h
  rw [Bool.and_eq_true] at h
  exact h.2

section

variable [Collation] {db : Database}

/-- The call has changed the row of the claim, and the row now carries the
tokens of the completion. -/
def TokensWritten (before after : Database) (claim : TokenRefreshClaim)
    (c : RefreshCompletion) : Prop :=
  ∃ row row', before.mailboxes.get? claim.mailboxId = some row ∧
    after.mailboxes.get? claim.mailboxId = some row' ∧ row' ≠ row ∧ c.OnRow row'

/-- A version is reported exactly for tokens that the call has written, and
otherwise nothing has changed. -/
def ReportsTruthfully (db : Database) (claim : TokenRefreshClaim)
    (c : RefreshCompletion) : Prop :=
  ∃ reported after, completeTokenRefresh db claim c = .ok (reported, after) ∧
    (reported.isSome ↔ TokensWritten db after claim c) ∧ (reported = none → after = db)

/-! ## The two outcomes -/

theorem confirm_eq {version : ℕ} :
    confirmCompletedTokenVersion db claim version version =
      if (db.mailboxes.get? claim.mailboxId).any (Mailbox.looksCompleted version) then
        some version
      else none := by
  unfold confirmCompletedTokenVersion
  cases db.mailboxes.get? claim.mailboxId with
  | none => rfl
  | some m =>
      simp only [Option.any_some, Mailbox.looksCompleted, Bool.and_eq_true, decide_eq_true_eq,
        and_assoc]

/-- **One conditional update**: a completion writes the row of a current claim,
and otherwise answers from the row as it finds it. -/
theorem completeTokenRefresh_eq (db : Database) (claim : TokenRefreshClaim) (h : c.Stamped) :
    completeTokenRefresh db claim c =
      if (db.mailboxes.get? claim.mailboxId).any claim.current then
        .ok (some (claim.completedVersion c),
          (db.updateMailbox claim.mailboxId claim.current (completionAssignment claim c)).db)
      else
        .ok (confirmCompletedTokenVersion db claim (claim.completedVersion c)
          (claim.completedVersion c), db) := by
  have hcount : ∀ f : MailboxAssignment,
      ((db.updateMailbox claim.mailboxId claim.current f).rowcount = 1) =
        ((db.mailboxes.get? claim.mailboxId).any claim.current = true) := by
    intro f
    rw [updateMailbox_rowcount]
    cases (db.mailboxes.get? claim.mailboxId).any claim.current <;> simp
  unfold completeTokenRefresh
  cases hrot : c.refreshTokenRotated with
  | true =>
      obtain ⟨henc, hupdated, hexpires⟩ := h hrot
      obtain ⟨encrypted, henc⟩ := Option.isSome_iff_exists.mp henc
      obtain ⟨updatedAt, hupdated⟩ := Option.isSome_iff_exists.mp hupdated
      obtain ⟨expiresAt, hexpires⟩ := Option.isSome_iff_exists.mp hexpires
      simp only [henc, hupdated, hexpires, hcount, if_true, TokenRefreshClaim.completedVersion,
        completionAssignment, hrot, Option.getD_some]
      split
      · rfl
      · rename_i hany
        rw [updateMailbox_of_not (Bool.eq_false_iff.mpr hany)]
  | false =>
      simp only [hcount, Bool.false_eq_true, if_false, TokenRefreshClaim.completedVersion,
        completionAssignment, hrot]
      split
      · rfl
      · rename_i hany
        rw [updateMailbox_of_not (Bool.eq_false_iff.mpr hany)]

theorem completeTokenRefresh_unstamped (h : ¬ c.Stamped) :
    completeTokenRefresh db claim c = .error .rotationWithoutStamps := by
  unfold RefreshCompletion.Stamped at h
  rw [Classical.not_imp] at h
  obtain ⟨hrot, hmissing⟩ := h
  unfold completeTokenRefresh
  rw [if_pos hrot]
  split
  · rename_i henc hupdated hexpires
    rw [henc, hupdated, hexpires] at hmissing
    exact absurd ⟨rfl, rfl, rfl⟩ hmissing
  · rfl

theorem current_truthful (h : c.Stamped)
    (hcurrent : (db.mailboxes.get? claim.mailboxId).any claim.current = true) :
    ReportsTruthfully db claim c := by
  obtain ⟨row, hrow, hcur⟩ := (Option.any_eq_true _ _).mp hcurrent
  refine ⟨_, _, by rw [completeTokenRefresh_eq db claim h, if_pos hcurrent], ?_, ?_⟩
  · constructor
    · intro _
      have hafter := updateMailbox_row (m := claim.mailboxId) (q := claim.current)
        (f := completionAssignment claim c) hrow
      rw [if_pos ⟨rfl, hcur⟩] at hafter
      refine ⟨row, _, hrow, hafter, ?_, completionAssignment_onRow h row⟩
      -- the claim is on the row before the call and off it afterwards
      intro heq
      have hinstalled := installed_of_current hcur
      rw [TokenRefreshClaim.installed, decide_eq_true_eq, ← heq,
        completionAssignment_claim] at hinstalled
      cases hinstalled
    · intro _
      rfl
  · intro hnone
    cases hnone

/-- A call that leaves the database alone has written nothing. -/
theorem not_tokensWritten_self : ¬ TokensWritten db db claim c := by
  rintro ⟨row, row', hrow, hrow', hne, -⟩
  rw [hrow] at hrow'
  exact hne (Option.some.inj hrow').symm

/-- Where the row is not current, the answer is what the row looks like. -/
theorem not_current_truthful_iff (h : c.Stamped)
    (hcurrent : ¬ (db.mailboxes.get? claim.mailboxId).any claim.current = true) :
    ReportsTruthfully db claim c ↔
      (db.mailboxes.get? claim.mailboxId).any
        (Mailbox.looksCompleted (claim.completedVersion c)) = false := by
  have hcall := completeTokenRefresh_eq db claim h
  rw [if_neg hcurrent, confirm_eq] at hcall
  constructor
  · rintro ⟨reported, after, hcall', hwritten, -⟩
    rw [hcall] at hcall'
    obtain ⟨rfl, rfl⟩ := Prod.mk.inj (Except.ok.inj hcall')
    rw [← Bool.not_eq_true]
    intro hlooks
    rw [if_pos hlooks] at hwritten
    exact not_tokensWritten_self (hwritten.mp rfl)
  · intro hlooks
    rw [hlooks] at hcall
    refine ⟨none, db, hcall, ?_, fun _ => rfl⟩
    constructor
    · intro hsome
      cases hsome
    · intro hwritten
      exact absurd hwritten not_tokensWritten_self

theorem truthful_iff_looks (h : c.Stamped) :
    ReportsTruthfully db claim c ↔
      (db.mailboxes.get? claim.mailboxId).any
        (Mailbox.looksCompleted (claim.completedVersion c)) = false := by
  by_cases hcurrent : (db.mailboxes.get? claim.mailboxId).any claim.current = true
  · constructor
    · intro _
      obtain ⟨row, hrow, hcur⟩ := (Option.any_eq_true _ _).mp hcurrent
      rw [hrow]
      exact not_looksCompleted_of_installed (installed_of_current hcur)
    · intro _
      exact current_truthful h hcurrent
  · exact not_current_truthful_iff h hcurrent

/-- **Truthful completions.** A completion that comes with its stamps reports a
version exactly for tokens that it has written, if and only if the row it finds
does not already look like its own work. -/
theorem completion_truthful_iff (db : Database) (claim : TokenRefreshClaim)
    (c : RefreshCompletion) :
    (¬ c.Stamped → completeTokenRefresh db claim c = .error .rotationWithoutStamps) ∧
      (c.Stamped →
        (ReportsTruthfully db claim c ↔
          ∀ row, db.mailboxes.get? claim.mailboxId = some row →
            row.looksCompleted (claim.completedVersion c) = false)) := by
  refine ⟨completeTokenRefresh_unstamped, fun h => ?_⟩
  rw [truthful_iff_looks h]
  cases db.mailboxes.get? claim.mailboxId with
  | none => simp
  | some m => simp

/-! ## Completions in a run -/

/-- **Only an expired claim can misreport**: in every run of the protocol, a
claim that was issued, is not finalised and has not expired completes
truthfully. -/
theorem live_completion_truthful (db : Database) (now : ℕ) (calls : List RefreshCall)
    (h : c.Stamped) (hissued : claim ∈ (exec refreshStep ⟨db, now, []⟩ calls).outstanding)
    (hlive : claim.liveAt (exec refreshStep ⟨db, now, []⟩ calls).now = true) :
    ReportsTruthfully (exec refreshStep ⟨db, now, []⟩ calls).db claim c := by
  obtain ⟨row, hrow, hstored⟩ := (exec_oneLiveClaim db now calls).stored claim hissued hlive
  rw [truthful_iff_looks h, hrow]
  have hinstalled : claim.installed row = true := by
    rw [TokenRefreshClaim.installed, decide_eq_true_eq]
    exact hstored.1
  exact not_looksCompleted_of_installed hinstalled

end

/-! ## A completion after a takeover -/

section Sample

attribute [local instance] asciiPlatform

def refreshableMailbox : Mailbox where
  id := "mailbox"
  primaryEmail := "a@x.org"
  clientId := some "client"
  refreshTokenCiphertext := some "token"

def refreshableDatabase : Database where
  mailboxes := ⟨[refreshableMailbox], List.pairwise_singleton _ _⟩

/-- The claim of a worker on the mailbox, taken at the time given. -/
def workerClaim (claimId : String) (takenAt : ℕ) : TokenRefreshClaim where
  claimId := claimId
  mailboxId := "mailbox"
  primaryEmail := "a@x.org"
  clientId := "client"
  refreshToken := "token"
  expectedTokenVersion := 1
  expiresAt := takenAt + seconds 120

def workerCompletion (accessToken : String) (refreshedAt : ℕ) : RefreshCompletion where
  encryptedAccessToken := accessToken
  accessTokenExpiresAt := refreshedAt + seconds 3600
  accessTokenRefreshedAt := refreshedAt
  scope := none
  encryptedRefreshToken := none
  refreshTokenRotated := false
  refreshTokenUpdatedAt := none
  refreshTokenExpiresAt := none

/-- The first worker's claim expires during its exchange; a second worker takes
the mailbox over and completes. -/
def takeoverCalls : List RefreshCall :=
  [.claim "first" "mailbox" .ok 120 true, .advance (seconds 121),
    .claim "second" "mailbox" .ok 120 true,
    .complete (workerClaim "second" (seconds 121)) (workerCompletion "new" (seconds 122))]

/-- **The first worker is told that its tokens are stored**, while the row keeps
those of the second. -/
theorem takeover_misreported :
    workerClaim "first" 0 ∈ (exec refreshStep ⟨refreshableDatabase, 0, []⟩
        takeoverCalls).outstanding ∧
      (completeTokenRefresh (exec refreshStep ⟨refreshableDatabase, 0, []⟩ takeoverCalls).db
        (workerClaim "first" 0) (workerCompletion "old" (seconds 123))).toOption.map
          (fun r => (r.1, (r.2.mailboxes.get? "mailbox").bind Mailbox.accessTokenCiphertext)) =
        some (some 1, some "new") ∧
      ¬ ReportsTruthfully (exec refreshStep ⟨refreshableDatabase, 0, []⟩ takeoverCalls).db
        (workerClaim "first" 0) (workerCompletion "old" (seconds 123)) := by
  refine ⟨by decide +kernel, by decide +kernel, ?_⟩
  rw [truthful_iff_looks (by intro h; cases h)]
  decide +kernel

end Sample

end MailboxService
