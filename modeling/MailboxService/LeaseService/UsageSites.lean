import MailboxService.LeaseService.Effects

/-!
# Usage sites

The whitelist of registration sites and the occupancies on them, as the
administrator changes them: `create_usage_site`, `update_usage_site`,
`delete_usage_site` and `revoke_email_site_usage`.
-/

namespace MailboxService

open Foundation

/-- The exceptions of these methods, each with its message. -/
inductive UsageSiteError where
  | value (message : String)
  | usageSiteConflict (message : String)
  | usageSiteNotFound (message : String)
  | usageSiteInUse (message : String)
  | leaseNotFound (message : String)
  | integrity
  deriving DecidableEq, Repr

section

variable [Platform]

def Database.countActiveEmailSiteUsages (db : Database) (usageSiteCode : String) : ℕ :=
  db.emailSiteUsages.rowcount fun u =>
    sqlEq u.usageSiteCode (Text.normalize usageSiteCode) && u.revokedAt.isNone

def createUsageSite (db : Database) (now : ℕ) (code displayName : String) (enabled : Bool) :
    Except UsageSiteError (UsageSite × Database) :=
  let normalizedCode := Text.normalize code
  if normalizedCode = "" then .error (.value "usage_site code 不能为空")
  else if (db.usageSite? normalizedCode).isSome then
    .error (.usageSiteConflict ("usage_site 已存在：" ++ normalizedCode))
  else
    let site : UsageSite :=
      { code := normalizedCode, displayName := Text.strip displayName, enabled
        createdAt := now }
    match db.usageSites.insert? site with
    | none => .error .integrity
    | some usageSites => .ok (site, { db with usageSites })

def UsageSite.change (site : UsageSite) (displayName : Option String)
    (enabled : Option Bool) : UsageSite :=
  { site with
    displayName := (displayName.map Text.strip).getD site.displayName
    enabled := enabled.getD site.enabled }

theorem UsageSite.change_keeps (displayName : Option String) (enabled : Option Bool) :
    usageSiteSchema.Keeps fun site => site.change displayName enabled :=
  fun _ => ⟨rfl, fun _ => rfl⟩

/-- `update_usage_site`. The code cannot be changed. -/
def updateUsageSite (db : Database) (code : String) (displayName : Option String)
    (enabled : Option Bool) : Except UsageSiteError (UsageSite × Database) :=
  let normalizedCode := Text.normalize code
  match db.usageSite? normalizedCode with
  | none => .error (.usageSiteNotFound ("usage_site 不存在：" ++ normalizedCode))
  | some site =>
      if displayName.isNone && enabled.isNone then
        .error (.value "至少提供 display_name 或 enabled 之一")
      else .ok (site.change displayName enabled, { db with
        usageSites := db.usageSites.updateWhere
          (Table.whereKey usageSiteSchema site.code fun _ => true)
          (fun site => site.change displayName enabled)
          (UsageSite.change_keeps displayName enabled) })

/-- `delete_usage_site`: refused while an occupancy is active; the revoked ones
go with the site. -/
def deleteUsageSite (db : Database) (code : String) : Except UsageSiteError Database :=
  let normalizedCode := Text.normalize code
  match db.usageSite? normalizedCode with
  | none => .error (.usageSiteNotFound ("usage_site 不存在：" ++ normalizedCode))
  | some site =>
      let activeUsageCount := db.countActiveEmailSiteUsages normalizedCode
      if activeUsageCount > 0 then
        .error (.usageSiteInUse ("usage_site 仍有 " ++ toString activeUsageCount ++
          " 条未撤销占用，无法删除：" ++ normalizedCode))
      else .ok { db with
        emailSiteUsages := db.emailSiteUsages.deleteWhere fun u =>
          sqlEq u.usageSiteCode normalizedCode
        usageSites := db.usageSites.deleteWhere fun s => s.code = site.code }

/-- An occupancy that is revoked; one that was revoked before stays as it is. -/
def EmailSiteUsage.revoke (u : EmailSiteUsage) (now : ℕ) : EmailSiteUsage :=
  match u.revokedAt with
  | none => { u with revokedAt := some now, updatedAt := now }
  | some _ => u

theorem EmailSiteUsage.revoke_keeps (now : ℕ) :
    emailSiteUsageSchema.Keeps fun u => u.revoke now := by
  intro u
  simp only [EmailSiteUsage.revoke]
  split
  · exact ⟨rfl, fun _ => rfl⟩
  · exact ⟨rfl, fun _ => rfl⟩

def revokeEmailSiteUsage (db : Database) (now : ℕ) (usageId : String) :
    Except UsageSiteError (EmailSiteUsage × Database) :=
  match db.emailSiteUsages.get? usageId with
  | none => .error (.leaseNotFound "邮箱站点占用记录不存在")
  | some usage =>
      .ok (usage.revoke now, { db with
        emailSiteUsages := db.emailSiteUsages.updateWhere
          (Table.whereKey emailSiteUsageSchema usage.id fun _ => true)
          (fun u => u.revoke now) (EmailSiteUsage.revoke_keeps now) })

/-! ## Occupied slots -/

def Database.Occupied (db : Database) (email siteCode : String) : Prop :=
  ∃ u ∈ db.emailSiteUsages, u.revokedAt = none ∧ u.inSlot email siteCode = true

/-- An update of the occupancies that leaves the active ones active in their
slots leaves the slot occupied. -/
theorem Database.Occupied.update {db : Database} {email siteCode : String}
    (h : db.Occupied email siteCode) {p : EmailSiteUsage → Bool}
    {f : EmailSiteUsage → EmailSiteUsage} (hf : emailSiteUsageSchema.Keeps f)
    (hsame : ∀ u ∈ db.emailSiteUsages, p u = true → u.revokedAt = none →
      u.inSlot email siteCode = true →
      (f u).revokedAt = none ∧ (f u).inSlot email siteCode = true) :
    Database.Occupied { db with emailSiteUsages := db.emailSiteUsages.updateWhere p f hf }
      email siteCode := by
  obtain ⟨u, hu, hactive, hslot⟩ := h
  have hmem : (if p u then f u else u) ∈ db.emailSiteUsages.updateWhere p f hf :=
    Table.mem_updateWhere.mpr ⟨u, hu, rfl⟩
  by_cases hp : p u = true
  · rw [if_pos hp] at hmem
    exact ⟨f u, hmem, hsame u hu hp hactive hslot⟩
  · rw [if_neg hp] at hmem
    exact ⟨u, hmem, hactive, hslot⟩

theorem Database.Occupied.of_usages {db db' : Database} {email siteCode : String}
    (h : db.Occupied email siteCode) (husages : db'.emailSiteUsages = db.emailSiteUsages) :
    db'.Occupied email siteCode := by
  unfold Database.Occupied
  rw [husages]
  exact h

theorem createUsageSite_ok {db db' : Database} {now : ℕ} {code displayName : String}
    {enabled : Bool} {site : UsageSite}
    (h : createUsageSite db now code displayName enabled = .ok (site, db')) :
    db'.emailSiteUsages = db.emailSiteUsages ∧
      ∀ q ∈ db.usageSites, q ∈ db'.usageSites := by
  unfold createUsageSite at h
  simp only at h
  split at h
  · cases h
  split at h
  · cases h
  split at h
  · cases h
  · rename_i usageSites hinsert
    obtain ⟨-, rfl⟩ := Prod.mk.inj (Except.ok.inj h)
    exact ⟨rfl, fun q hq => (Table.mem_insert? hinsert).mpr (Or.inl hq)⟩

theorem updateUsageSite_ok {db db' : Database} {code : String} {displayName : Option String}
    {enabled : Option Bool} {site : UsageSite}
    (h : updateUsageSite db code displayName enabled = .ok (site, db')) :
    db'.emailSiteUsages = db.emailSiteUsages ∧
      ∀ q ∈ db.usageSites, ∃ q' ∈ db'.usageSites, q'.code = q.code := by
  unfold updateUsageSite at h
  simp only at h
  split at h
  · cases h
  split at h
  · cases h
  · obtain ⟨-, rfl⟩ := Prod.mk.inj (Except.ok.inj h)
    refine ⟨rfl, ?_⟩
    intro q hq
    refine ⟨_, (Table.mem_updateWhere_whereKey (UsageSite.change_keeps displayName
      enabled)).mpr ⟨q, hq, rfl⟩, ?_⟩
    split <;> rfl

/-- **Deletion**: an occupied site is not deleted, and no active occupancy goes
with the one that is. -/
theorem deleteUsageSite_ok {db db' : Database} {code : String}
    (h : deleteUsageSite db code = .ok db') :
    (∀ u ∈ db.emailSiteUsages, u.revokedAt = none → u ∈ db'.emailSiteUsages) ∧
      ∀ site ∈ db.usageSites, ∀ u ∈ db.emailSiteUsages, u.revokedAt = none →
        sqlEq u.usageSiteCode site.code = true → site ∈ db'.usageSites := by
  unfold deleteUsageSite at h
  simp only at h
  cases hsite : db.usageSite? (Text.normalize code) with
  | none =>
      rw [hsite] at h
      cases h
  | some site =>
      rw [hsite] at h
      simp only at h
      split at h
      · cases h
      rename_i hcount
      cases h
      have hfree : ∀ u ∈ db.emailSiteUsages, u.revokedAt = none →
          sqlEq u.usageSiteCode (Text.normalize code) = false := by
        intro u hu hactive
        rw [Bool.eq_false_iff]
        intro hon
        apply hcount
        refine List.countP_pos_iff.mpr ⟨u, hu, ?_⟩
        rw [Text.normalize_normalize, hon, hactive]
        rfl
      have hcode : sqlEq site.code (Text.normalize code) = true := by
        have hfind := List.find?_some hsite
        exact hfind
      constructor
      · intro u hu hactive
        exact Table.mem_deleteWhere.mpr ⟨hu, hfree u hu hactive⟩
      · intro site' hsite' u hu hactive hon
        refine Table.mem_deleteWhere.mpr ⟨hsite', ?_⟩
        rw [decide_eq_false_iff_not]
        intro heq
        have hfreeu := hfree u hu hactive
        rw [heq] at hon
        simp only [sqlEq, decide_eq_true_eq, decide_eq_false_iff_not] at hon hcode hfreeu
        exact hfreeu (hon.trans hcode)

theorem revokeEmailSiteUsage_sites {db db' : Database} {now : ℕ} {usageId : String}
    {u : EmailSiteUsage} (h : revokeEmailSiteUsage db now usageId = .ok (u, db')) :
    db'.usageSites = db.usageSites := by
  unfold revokeEmailSiteUsage at h
  split at h
  · cases h
  · obtain ⟨-, rfl⟩ := Prod.mk.inj (Except.ok.inj h)
    rfl

/-- **Revocation**: the slot stays occupied unless the row revoked is the one
that occupies it. -/
theorem revokeEmailSiteUsage_ok {db db' : Database} {now : ℕ} {usageId email siteCode : String}
    {u : EmailSiteUsage} (h : revokeEmailSiteUsage db now usageId = .ok (u, db'))
    (hocc : db.Occupied email siteCode) :
    db'.Occupied email siteCode ∨
      ∃ u ∈ db.emailSiteUsages, u.id = usageId ∧ u.revokedAt = none ∧
        u.inSlot email siteCode = true := by
  unfold revokeEmailSiteUsage at h
  cases hget : db.emailSiteUsages.get? usageId with
  | none =>
      rw [hget] at h
      cases h
  | some usage =>
      rw [hget] at h
      cases h
      by_cases hmine : usage.revokedAt = none ∧ usage.inSlot email siteCode = true
      · exact Or.inr ⟨usage, Table.mem_of_get? hget, Table.key_of_get? hget, hmine⟩
      · left
        refine hocc.update _ ?_
        intro q hq hp hactive hslot
        have hid : q.id = usage.id := by
          simp only [Table.whereKey, Bool.and_true, decide_eq_true_eq] at hp
          exact hp
        rw [Table.eq_of_key hq (Table.mem_of_get? hget) hid] at hactive hslot
        exact absurd ⟨hactive, hslot⟩ hmine

end

end MailboxService
