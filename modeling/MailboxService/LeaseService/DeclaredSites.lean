import MailboxService.LeaseService.FallbackCompleteness
import MailboxService.LeaseService.SiteOccupancy

/-!
# Declared usage sites

A mail-read acquire may declare the site that the address is for. The two paths
for resources carry code that records it, behind an argument for the resolved
site. That argument is resolved for Microsoft alone, so the code behind it never
runs.

`declared_site_recorded_iff` is about every acquire that succeeds: its site is
reported and recorded exactly if the Microsoft candidate answers it.
-/

namespace MailboxService

open Foundation

section

variable [Platform]

def DeclaredSiteRecorded (result : LeaseAcquireResult) (db : Database) (code : String) : Prop :=
  result.usageSite = some code ∧
    ∃ a, result.allocatedEmail = some a ∧ db.Occupied (Text.normalize a) code

/-- The candidate answers the acquire: those shuffled before it are stepped
over, and its own attempt returns. -/
def AnsweredBy (principal : ClientPrincipal) (now : ℕ)
    (decrypt : String → Except String String) (draws : String → Draws)
    (request : AcquireRequest) (shuffled : List String) (db : Database) (p : String) : Prop :=
  ∃ pre post e s, shuffled = pre ++ p :: post ∧
    exec (Work.tryStep (attemptProvider principal now decrypt draws request) LeaseError.tryNext
      db) (.error (.leaseUnavailable "没有可用邮箱"), ⟨db, true⟩) pre = (.error e, s) ∧
    e.tryNext = true ∧
    (attemptProvider principal now decrypt draws request p db s).1.toBool = true

variable {principal : ClientPrincipal} {now : ℕ} {decrypt : String → Except String String}
  {draws : String → Draws} {request : AcquireRequest} {shuffled : List String}
  {db : Database} {s s' : Session Database} {p site code : String}
  {result : LeaseAcquireResult}

/-! ## One candidate -/

/-- A candidate other than Microsoft reports no site. -/
theorem acquireSingleProviderLease_other {draws : Draws}
    (h : acquireSingleProviderLease principal now decrypt draws request p db s =
      (.ok result, s')) (hmode : request.mode = .mailRead) (hother : p ≠ defaultProviderType) :
    result.usageSite = none := by
  unfold acquireSingleProviderLease at h
  split at h
  · cases h
  rename_i hknown
  split at h
  · cases h
  rw [resolveRequestedSite_other request hother] at h
  have hpure : ∀ f : Option String → LeaseWork LeaseAcquireResult,
      (pure none >>= f) = f none := fun f => rfl
  rw [hpure] at h
  split at h
  · rw [ite_self] at h
    unfold acquireOnDemandLease at h
    simp only [Work.bind_eq_ok] at h
    obtain ⟨⟨provisioned, address⟩, s₁, -, _, s₂, -, _, s₃, -, h⟩ := h
    cases h
    rfl
  rename_i hondemand
  split at h
  · split at h
    · cases h
    · unfold acquireSmsbowerLease at h
      simp only [Work.bind_eq_ok] at h
      obtain ⟨picked, s₁, -, r, s₂, -, _, s₃, -, _, s₄, -, _, s₅, -, h⟩ := h
      cases h
      rfl
  · rename_i hsmsbower
    have hnot : p ∉ onDemandProviderTypes := fun hp => hondemand ⟨hmode, hp⟩
    rcases eq_of_not_onDemand _ (not_not.mp hknown) hnot with h | h
    · exact absurd h hother
    · exact absurd h hsmsbower

theorem namesSite_of_enabled (hsite : request.usageSite = some site)
    (henabled : resolveEnabledUsageSite db site = .ok code) : request.namesSite = true := by
  unfold AcquireRequest.namesSite
  rw [hsite]
  dsimp only
  rw [decide_eq_true_eq]
  intro hblank
  have hempty : Text.normalize site = "" := by
    unfold Text.normalize
    rw [hblank]
    rfl
  unfold resolveEnabledUsageSite at henabled
  rw [if_pos hempty] at henabled
  cases henabled

theorem requestedSite_of_enabled (hmode : request.mode = .mailRead)
    (hsite : request.usageSite = some site)
    (henabled : resolveEnabledUsageSite db site = .ok code) :
    requestedSite db request defaultProviderType = .ok (some code) := by
  unfold requestedSite
  rw [if_pos ⟨hmode, rfl⟩, if_pos (namesSite_of_enabled hsite henabled), hsite,
    Option.getD_some, henabled]
  rfl

/-- **Microsoft**: the enabled site is reported and recorded. -/
theorem acquireSingleProviderLease_microsoft {draws : Draws}
    (h : acquireSingleProviderLease principal now decrypt draws request defaultProviderType db s =
      (.ok result, s')) (hmode : request.mode = .mailRead)
    (hsite : request.usageSite = some site)
    (henabled : s.usable = true → resolveEnabledUsageSite s.db site = .ok code) :
    DeclaredSiteRecorded result s'.db code := by
  -- a session that takes no statements lets no attempt return
  have husable : s.usable = true := by
    by_contra hunusable
    have hstuck : s.usable = false := by simpa using hunusable
    obtain ⟨e, herror⟩ := acquireSingleProviderLease_of_unusable db hstuck
    rw [h] at herror
    cases herror
  have hresolve : resolveRequestedSite request defaultProviderType db s = (.ok (some code), s) := by
    rw [resolveRequestedSite_of_usable husable,
      requestedSite_of_enabled hmode hsite (henabled husable)]
  unfold acquireSingleProviderLease at h
  rw [if_neg (by decide), if_neg fun hplus => hplus.1 rfl, Work.bind_of_ok hresolve,
    if_neg fun hondemand => onDemand_ne_default _ hondemand.2 rfl, if_neg (by decide)] at h
  obtain ⟨-, hreported, haddress, m, a, d, s₂, -, -, -, hrecord⟩ := acquireMailboxLease_record h
  obtain ⟨x, hx⟩ := Option.isSome_iff_exists.mp (haddress.mp hmode)
  obtain ⟨-, -, u, hrecorded⟩ := recordEmailSiteUsage_ok (hrecord x code hx rfl)
  exact ⟨hreported, x, hx, u, (hrecorded.usages u).mpr (Or.inr rfl), hrecorded.active,
    hrecorded.slot⟩

/-! ## The candidate loop -/

/-- The whitelist in the session that a candidate starts in. -/
theorem usageSites_of_steppedOver {pre : List String} {e : LeaseError}
    (hpre : exec (Work.tryStep (attemptProvider principal now decrypt draws request)
      LeaseError.tryNext db) (.error (.leaseUnavailable "没有可用邮箱"), ⟨db, true⟩) pre =
        (.error e, s)) : s.usable = true → s.db.usageSites = db.usageSites := by
  refine Work.exec_tryStep_keeps
    (I := fun s : Session Database => s.usable = true → s.db.usageSites = db.usageSites) ?_
    (fun _ => rfl) hpre
  intro q s₁ e₁ s₂ hs₁ hq
  have hkeeps : Work.Keeps db (fun d => d.usageSites = db.usageSites)
      (attemptProvider principal now decrypt draws request q) :=
    (usageSites_acquireFrame (· = db.usageSites) now).acquireSingleProviderLease rfl _ _ _ _ _
  exact (hkeeps s₁ hs₁).2 e₁ s₂ hq

theorem resolveEnabledUsageSite_congr {d : Database} (h : d.usageSites = db.usageSites)
    (site : String) : resolveEnabledUsageSite d site = resolveEnabledUsageSite db site := by
  unfold resolveEnabledUsageSite Database.usageSite?
  rw [h]

/-- **Declared sites**: of the acquires that succeed, those that report and
record the enabled site they declare are the ones that Microsoft answers. -/
theorem declared_site_recorded_iff (principal : ClientPrincipal) (now : ℕ)
    (decrypt : String → Except String String) (draws : String → Draws)
    (request : AcquireRequest) (shuffled : List String) (db db' : Database)
    (site code : String) (result : LeaseAcquireResult) (hmode : request.mode = .mailRead)
    (hsite : request.usageSite = some site)
    (henabled : resolveEnabledUsageSite db site = .ok code)
    (h : (acquireLease principal now decrypt draws request shuffled).transact db =
      (.ok result, db')) :
    DeclaredSiteRecorded result db' code ↔
      AnsweredBy principal now decrypt draws request shuffled db defaultProviderType := by
  have hacquire := Work.transact_eq_ok.mp h
  unfold acquireLease at hacquire
  rw [if_pos hmode, Work.bind_eq_ok] at hacquire
  obtain ⟨_, s₀, hscope, hloop⟩ := hacquire
  obtain rfl := requireScope_ok hscope
  have hmode' : ∀ p, (request.forProvider p).mode = .mailRead := fun p =>
    forProvider_mode.trans hmode
  constructor
  · rintro ⟨hreported, -⟩
    obtain ⟨pre, p, post, e, s, hsplit, hpre, he, hattempt⟩ := Work.tryEach_split rfl hloop
    have hp : p = defaultProviderType := by
      by_contra hother
      have hnone := acquireSingleProviderLease_other hattempt (hmode' p) hother
      rw [hreported] at hnone
      cases hnone
    subst hp
    exact ⟨pre, post, e, s, hsplit, hpre, he, by rw [hattempt]; rfl⟩
  · rintro ⟨pre, post, e, s, rfl, hpre, he, hreturns⟩
    rcases hattempt : attemptProvider principal now decrypt draws request defaultProviderType db s
      with ⟨e' | returned, s'⟩
    · rw [hattempt] at hreturns
      cases hreturns
    -- what the candidate returns is what the acquire returns
    have hloop' : attemptProviders principal now decrypt draws request
        (pre ++ defaultProviderType :: post) db ⟨db, true⟩ = (.ok returned, s') :=
      Work.tryEach_of_split rfl hpre he hattempt
    rw [hloop] at hloop'
    obtain ⟨hresult, rfl⟩ := Prod.mk.inj hloop'
    cases hresult
    have hsite' : (request.forProvider defaultProviderType).usageSite = some site := by
      unfold AcquireRequest.forProvider
      split <;> exact hsite
    refine acquireSingleProviderLease_microsoft hattempt (hmode' _) hsite' ?_
    intro husable
    rw [resolveEnabledUsageSite_congr (usageSites_of_steppedOver hpre husable)]
    exact henabled

end

section Sample

attribute [local instance] asciiPlatform

def shopRequest : AcquireRequest :=
  { mode := .mailRead, ttlSeconds := 60, preferredAliasSuffix := some "d"
    usageSite := some "shop" }

def provisioningDraws (providerType : String) : Draws :=
  { sampleDraws "1" providerType with
    provision := .ok
      { address := some "t@z", externalResourceId := none, instanceId := none
        encryptedSecret := "" } }

theorem declared_site_recorded_sample :
    ∃ result db', (acquireLease samplePrincipal 0 .ok (sampleDraws "1") shopRequest
        ["microsoft"]).transact siteDatabase = (.ok result, db') ∧
      DeclaredSiteRecorded result db' "shop" := by
  have hreturns : ((acquireLease samplePrincipal 0 .ok (sampleDraws "1") shopRequest
      ["microsoft"]).transact siteDatabase).1.toBool = true := by
    decide +kernel
  rcases h : (acquireLease samplePrincipal 0 .ok (sampleDraws "1") shopRequest
    ["microsoft"]).transact siteDatabase with ⟨e | result, db'⟩
  · rw [h] at hreturns
    cases hreturns
  refine ⟨result, db', rfl, ?_⟩
  refine (declared_site_recorded_iff samplePrincipal 0 .ok (sampleDraws "1") shopRequest
    ["microsoft"] siteDatabase db' "shop" "shop" result rfl rfl (by decide +kernel) h).mpr ?_
  exact ⟨[], [], _, _, rfl, rfl, rfl, by decide +kernel⟩

/-- A resource and a provisioned address come without the declared site, although
neither has been used on it. -/
theorem declared_site_lost :
    (∃ result db', (acquireLease samplePrincipal 0 .ok provisioningDraws shopRequest
        ["smsbower_gmail"]).transact siteDatabase = (.ok result, db') ∧
      result.allocatedEmail = some "g@y.org" ∧
      siteDatabase.hasActiveEmailSiteUsage "g@y.org" "shop" = false ∧
      ¬ DeclaredSiteRecorded result db' "shop") ∧
    ∃ result db', (acquireLease samplePrincipal 0 .ok provisioningDraws shopRequest
        ["moemail"]).transact siteDatabase = (.ok result, db') ∧
      result.allocatedEmail = some "t@z" ∧
      siteDatabase.hasActiveEmailSiteUsage "t@z" "shop" = false ∧
      ¬ DeclaredSiteRecorded result db' "shop" := by
  have hother : ∀ p address, siteDatabase.hasActiveEmailSiteUsage address "shop" = false →
      (((acquireLease samplePrincipal 0 .ok provisioningDraws shopRequest [p]).transact
        siteDatabase).1.toOption.map fun r => (r.allocatedEmail, r.usageSite)) =
          some (some address, none) →
      ∃ result db', (acquireLease samplePrincipal 0 .ok provisioningDraws shopRequest
          [p]).transact siteDatabase = (.ok result, db') ∧
        result.allocatedEmail = some address ∧
        siteDatabase.hasActiveEmailSiteUsage address "shop" = false ∧
        ¬ DeclaredSiteRecorded result db' "shop" := by
    intro p address hfree hmap
    rcases h : (acquireLease samplePrincipal 0 .ok provisioningDraws shopRequest [p]).transact
      siteDatabase with ⟨e | result, db'⟩ <;> rw [h] at hmap
    · cases hmap
    · obtain ⟨haddress, hnone⟩ := Prod.mk.inj (Option.some.inj hmap)
      refine ⟨result, db', rfl, haddress, hfree, ?_⟩
      rintro ⟨hreported, -⟩
      rw [hnone] at hreported
      cases hreported
  exact ⟨hother "smsbower_gmail" "g@y.org" (by decide +kernel) (by decide +kernel),
    hother "moemail" "t@z" (by decide +kernel) (by decide +kernel)⟩

end Sample

end MailboxService
