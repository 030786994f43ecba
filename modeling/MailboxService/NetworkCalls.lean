import MailboxService.LeaseService.CandidateCalls
import MailboxService.LeaseService.FallbackCompleteness
import MailboxService.TokenService.LockedEnsure

/-!
# Row locks across network calls

No call of `ensure_access_token` and no mail-read acquire is to wait for
Microsoft or for an on-demand provider while it holds a row. Two paths do: the
probe of a cached token, which runs under the lock that the cache check has
taken, and the provisioning of an on-demand candidate behind one that has found
a row and given it up without a rollback.

`network_calls_unlocked_iff` says that these are all.
-/

namespace MailboxService

open Foundation

section

variable [Platform]

/-- **Row locks across network calls**: nothing is locked at any connection of
a call exactly if its cache check connects for no probe; and nothing is locked
at any request of an acquire exactly if no candidate sends one while another
has given up a row. -/
theorem network_calls_unlocked_iff (settings : TokenSettings) (ensure : EnsureRequest)
    (events : List (EnsureEvent × ℕ)) (principal : ClientPrincipal)
    (decrypt : String → Except String String) (draws : String → Draws)
    (requests : String → ℕ) (acquire : AcquireRequest) (shuffled : List String)
    (db : Database) (now : ℕ) (hmode : acquire.mode = .mailRead) :
    (Throughout (EnsureTrace.step settings ensure) (·.log.Unlocked) (.start db now) events ↔
      Meets (EnsureTrace.step settings ensure) (ChecksCacheOnly settings ensure)
        (.start db now) events) ∧
    (Throughout (AcquireTrace.step principal now decrypt draws requests acquire db)
        (·.log.Unlocked) (.start principal db) shuffled ↔
      Meets (AcquireTrace.step principal now decrypt draws requests acquire db)
        (AcquireTrace.SendsFreely draws requests) (.start principal db) shuffled) := by
  constructor
  · exact EnsureTrace.ensure_unlocked_iff settings ensure db now events
  · exact AcquireTrace.acquire_unlocked_iff principal now decrypt draws requests acquire db
      shuffled hmode

end

section Sample

attribute [local instance] asciiPlatform

/-- The mailbox has a token in the cache, and has not been probed yet. -/
def unprobedDatabase : Database where
  mailboxes :=
    ⟨[{ id := "mailbox", primaryEmail := "a@x.org", clientId := some "app"
        refreshTokenCiphertext := some "@first", accessTokenCiphertext := some "@access"
        accessTokenExpiresAt := some 3600000000, accessTokenSourceVersion := some 1 }],
      List.pairwise_singleton _ _⟩

def failingDraws (providerType : String) : Draws :=
  { sampleDraws "2" providerType with provision := .error (.onDemandProvider "down") }

theorem network_calls_unlocked_sample :
    Throughout (EnsureTrace.step sampleTokenSettings { mailboxId := "mailbox" })
        (·.log.Unlocked) (.start unprobedDatabase 0) [(.checkCache none 1, 0)] ∧
      Throughout (AcquireTrace.step samplePrincipal 0 .ok failingDraws (fun _ => 1)
        { mode := .mailRead, ttlSeconds := 60, preferredAliasSuffix := some "c" }
        aliasDatabase) (·.log.Unlocked) (.start samplePrincipal aliasDatabase)
        ["moemail", "microsoft"] := by
  have hiff := network_calls_unlocked_iff sampleTokenSettings { mailboxId := "mailbox" }
    [(.checkCache none 1, 0)] samplePrincipal .ok failingDraws (fun _ => 1)
    { mode := .mailRead, ttlSeconds := 60, preferredAliasSuffix := some "c" }
    ["moemail", "microsoft"]
  constructor
  · exact (hiff unprobedDatabase 0 rfl).1.mpr (by decide +kernel)
  · exact (hiff aliasDatabase 0 rfl).2.mpr (by decide +kernel)

/-- The cached token is probed under the lock of its mailbox; and behind an
alias that is out the next provider is asked with the mailbox still locked. -/
theorem network_called_under_row_lock :
    ¬ Throughout (EnsureTrace.step sampleTokenSettings { mailboxId := "mailbox" })
        (·.log.Unlocked) (.start unprobedDatabase 0)
        [(.checkCache (some { capability := .graph }) 1, 1)] ∧
      ¬ Throughout (AcquireTrace.step samplePrincipal 0 .ok failingDraws (fun _ => 1)
        { mode := .mailRead, ttlSeconds := 60, preferredAliasSuffix := some "c" }
        aliasDatabase) (·.log.Unlocked) (.start samplePrincipal aliasDatabase)
        ["microsoft", "moemail"] := by
  constructor
  · rw [EnsureTrace.ensure_unlocked_iff]
    decide +kernel
  · rw [AcquireTrace.acquire_unlocked_iff _ _ _ _ _ _ _ _ rfl]
    decide +kernel

end Sample

end MailboxService
