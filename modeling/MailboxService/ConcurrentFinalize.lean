import MailboxService.ResourceLifecycle
import MailboxService.LeaseService.LeaseRuns
import MailboxService.Foundation.Interleaving

/-!
# Concurrent finalisations of a release

Request handlers that finalise one release, each in two steps: the resource is
read without a lock, later the loaded instance is written back by primary key.
In between other handlers acquire, release and finalise.

The generation that the read checks is not checked by the write. A write that
reports success sets the generation to one more than the read one, so it is
safe exactly as long as the resource has not been claimed since the read: until
then the generation is at most the one that the write assigns.
-/

namespace MailboxService

open Foundation

/-- What identifies the release to finalise: `ReleaseOperationSnapshot`. -/
structure ReleaseOperationSnapshot where
  operationId : String
  providerResourceId : String
  resourceGeneration : ℕ
  deriving DecidableEq, Repr

section

variable [Platform]

/-! ## Handlers -/

/-- The database, and how often the resource of the release was claimed. -/
structure FinalizeShared where
  db : Database
  claims : ℕ

/-- A handler between its two steps: the instances it has loaded, and the number
of claims at that time. -/
inductive FinalizerState where
  | idle
  | loaded (resource : MailboxProviderResource) (operation : MailboxProviderOperation)
      (claims : ℕ)
  deriving DecidableEq, Repr

inductive FinalizeAction where
  | acquire (principal : ClientPrincipal) (now : ℕ) (draws : Draws) (request : AcquireRequest)
      (usageSite : Option String)
  | release (principal : ClientPrincipal) (now : ℕ) (operationId leaseId : String)
  | load
  | write (now : ℕ) (outcome : ReleaseOutcome) (clearSecret : Bool)

/-- How many claims of the resource an acquire comes to. -/
def claimCount (resourceId : String) : Except LeaseError LeaseAcquireResult → ℕ
  | .ok result => if result.providerResourceId = some resourceId then 1 else 0
  | .error _ => 0

/-- One step of a handler. Acquires and releases are transactions of their own;
a finalisation that does not proceed is over after its read. -/
def finalizeAct (release : ReleaseOperationSnapshot) (s : FinalizeShared)
    (x : FinalizerState) : FinalizeAction → FinalizerState × FinalizeShared
  | .acquire principal now draws request usageSite =>
      let outcome := (acquireSmsbowerLease principal now draws request usageSite).transact s.db
      (x, ⟨outcome.2, s.claims + claimCount release.providerResourceId outcome.1⟩)
  | .release principal now operationId leaseId =>
      (x, { s with db := ((releaseLease principal now operationId leaseId).transact s.db).2 })
  | .load =>
      match finalizeReleaseRead s.db release.operationId release.providerResourceId
          release.resourceGeneration with
      | .proceed resource operation => (.loaded resource operation s.claims, s)
      | .alreadyDone => (.idle, s)
      | .refused => (.idle, s)
  | .write now outcome clearSecret =>
      match x with
      | .idle => (.idle, s)
      | .loaded resource operation _ =>
          (.idle, { s with
            db := finalizeReleaseWrite s.db now outcome clearSecret resource operation })

/-! ## The compare-and-swap -/

/-- No claimed resource becomes available, and no generation is lowered. -/
def KeepsClaims (db db' : Database) : Prop :=
  ∀ k r, db.providerResources.get? k = some r →
    ∃ r', db'.providerResources.get? k = some r' ∧
      (r.lifecycleState = .claimed → r'.lifecycleState ≠ .available) ∧
      r.resourceGeneration ≤ r'.resourceGeneration

/-- What a finalisation must not do when it writes. -/
def FinalizeSafe (release : ReleaseOperationSnapshot) (s : FinalizeShared)
    (x : FinalizerState) (a : FinalizeAction) : Prop :=
  ∀ now outcome clearSecret, a = .write now outcome clearSecret →
    KeepsClaims s.db (finalizeAct release s x a).2.db

/-- No finalisation reports success after its resource was claimed since it was
read. -/
def NotOvertaken (s : FinalizeShared) (x : FinalizerState) (a : FinalizeAction) : Prop :=
  ∀ resource operation claims now clearSecret, x = .loaded resource operation claims →
    a = .write now .succeeded clearSecret → claims = s.claims

/-! ## Reads and writes -/

theorem finalizeReleaseRead_proceed {db : Database} {operationId resourceId : String}
    {expectedGeneration : ℕ} {r : MailboxProviderResource} {o : MailboxProviderOperation}
    (h : finalizeReleaseRead db operationId resourceId expectedGeneration = .proceed r o) :
    db.providerResources.get? resourceId = some r ∧
      r.resourceGeneration = expectedGeneration ∧
      (r.lifecycleState = .releasing ∨ r.lifecycleState = .releaseUnknown) := by
  unfold finalizeReleaseRead at h
  split at h
  · rename_i resource operation hr ho
    by_cases hgen : resource.resourceGeneration = expectedGeneration
    · rw [if_neg (not_not.mpr hgen)] at h
      split at h
      · rename_i hstate
        cases h
        exact ⟨hr, hgen, hstate⟩
      · split at h <;> cases h
    · rw [if_pos hgen] at h
      cases h
  · cases h

/-- A write replaces the row of the resource it loaded. -/
theorem finalizeReleaseWrite_get? {db : Database} (now : ℕ) (outcome : ReleaseOutcome)
    (clearSecret : Bool) {r cur : MailboxProviderResource} (o : MailboxProviderOperation)
    (hcur : db.providerResources.get? r.id = some cur) (k : String) :
    (finalizeReleaseWrite db now outcome clearSecret r o).providerResources.get? k =
      if k = r.id then some (r.flush (r.finalize now outcome clearSecret) cur)
      else db.providerResources.get? k := by
  have hid : cur.id = r.id := Table.key_of_get? hcur
  have hkeeps : providerResourceSchema.Keeps fun current =>
      r.flush (r.finalize now outcome clearSecret) current := fun _ => ⟨rfl, fun _ => rfl⟩
  have hrow := updateResource_get?_of_mem hkeeps (Table.mem_of_get? hcur) k
  rw [hid] at hrow
  exact hrow

omit [Platform] in
theorem flush_succeeded {r : MailboxProviderResource} (now : ℕ) (clearSecret : Bool)
    (cur : MailboxProviderResource)
    (hr : r.lifecycleState = .releasing ∨ r.lifecycleState = .releaseUnknown) :
    (r.flush (r.finalize now .succeeded clearSecret) cur).lifecycleState = .available ∧
      (r.flush (r.finalize now .succeeded clearSecret) cur).resourceGeneration =
        r.resourceGeneration + 1 := by
  constructor
  · apply flushColumn_of_ne
    show ProviderResourceLifecycle.available ≠ r.lifecycleState
    rcases hr with hr | hr <;> rw [hr] <;> decide
  · exact flushColumn_of_ne (Nat.succ_ne_self _) _

omit [Platform] in
/-- Any other outcome leaves the generation, and makes nothing available and
nothing claimed. -/
theorem flush_other {r : MailboxProviderResource} (now : ℕ) {outcome : ReleaseOutcome}
    (clearSecret : Bool) (cur : MailboxProviderResource) (houtcome : outcome ≠ .succeeded) :
    (r.flush (r.finalize now outcome clearSecret) cur).resourceGeneration =
        cur.resourceGeneration ∧
      ((r.flush (r.finalize now outcome clearSecret) cur).lifecycleState =
          cur.lifecycleState ∨
        (r.flush (r.finalize now outcome clearSecret) cur).lifecycleState = .cooldown ∨
        (r.flush (r.finalize now outcome clearSecret) cur).lifecycleState =
          .releaseUnknown) := by
  cases outcome with
  | succeeded => exact absurd rfl houtcome
  | failed =>
      refine ⟨flushColumn_unassigned _ _, ?_⟩
      exact (flushColumn_eq _ _ _).imp id Or.inl
  | unknown =>
      refine ⟨flushColumn_unassigned _ _, ?_⟩
      exact (flushColumn_eq _ _ _).imp id Or.inr

/-! ## What a handler knows between its steps -/

/-- What the row of the resource looks like while a handler holds an instance of
it, loaded in generation `g` after `claims` claims. -/
structure RowSince (g claims : ℕ) (s : FinalizeShared) (cur : MailboxProviderResource) :
    Prop where
  claims_le : claims ≤ s.claims
  /-- A claim needs a success first, so it comes to two generations. -/
  claimed : claims < s.claims → g + 2 ≤ cur.resourceGeneration
  generation : claims = s.claims → g ≤ cur.resourceGeneration ∧
    cur.resourceGeneration ≤ g + 1
  unclaimed : claims = s.claims → cur.lifecycleState ≠ .claimed
  available : claims = s.claims → cur.lifecycleState = .available →
    cur.resourceGeneration = g + 1

/-- The tie between what a handler holds and the database. -/
def FinalizeLink (release : ReleaseOperationSnapshot) (x : FinalizerState)
    (s : FinalizeShared) : Prop :=
  ∀ r o claims, x = .loaded r o claims →
    r.id = release.providerResourceId ∧
      r.resourceGeneration = release.resourceGeneration ∧
      (r.lifecycleState = .releasing ∨ r.lifecycleState = .releaseUnknown) ∧
      ∃ cur, s.db.providerResources.get? release.providerResourceId = some cur ∧
        RowSince release.resourceGeneration claims s cur

theorem finalizeLink_idle {release : ReleaseOperationSnapshot} {s : FinalizeShared} :
    FinalizeLink release .idle s := by
  rintro r o claims ⟨⟩

/-- A step that changes nothing but the row keeps the tie if it keeps what is
known of the row. -/
theorem FinalizeLink.of_row {release : ReleaseOperationSnapshot} {x : FinalizerState}
    {s s' : FinalizeShared} (h : FinalizeLink release x s)
    (hrow : ∀ cur, s.db.providerResources.get? release.providerResourceId = some cur →
      ∃ cur', s'.db.providerResources.get? release.providerResourceId = some cur' ∧
        ∀ claims, RowSince release.resourceGeneration claims s cur →
          RowSince release.resourceGeneration claims s' cur') :
    FinalizeLink release x s' := by
  intro r o claims hx
  obtain ⟨hid, hgen, hstate, cur, hcur, hsince⟩ := h r o claims hx
  obtain ⟨cur', hcur', hkeep⟩ := hrow cur hcur
  exact ⟨hid, hgen, hstate, cur', hcur', hkeep claims hsince⟩

theorem RowSince.leave {g claims : ℕ} {s : FinalizeShared} {cur cur' : MailboxProviderResource}
    (h : RowSince g claims s cur) (db : Database)
    (hgen : cur'.resourceGeneration = cur.resourceGeneration)
    (hclaimed : cur'.lifecycleState = .claimed → cur.lifecycleState = .claimed)
    (havailable : cur'.lifecycleState = .available → cur.lifecycleState = .available) :
    RowSince g claims { s with db } cur' := by
  refine ⟨h.claims_le, ?_, ?_, ?_, ?_⟩
  · rw [hgen]
    exact h.claimed
  · rw [hgen]
    exact h.generation
  · intro heq hstate
    exact h.unclaimed heq (hclaimed hstate)
  · intro heq hstate
    rw [hgen]
    exact h.available heq (havailable hstate)

/-! ### Acquires -/

theorem RowSince.claim {g claims : ℕ} {s : FinalizeShared} {cur : MailboxProviderResource}
    (h : RowSince g claims s cur) (havailable : cur.lifecycleState = .available) (now : ℕ)
    (db : Database) : RowSince g claims ⟨db, s.claims + 1⟩ (cur.claim now) := by
  have hle := h.claims_le
  refine ⟨hle.trans (Nat.le_succ _), ?_, ?_, ?_, ?_⟩
  · intro _
    show g + 2 ≤ cur.resourceGeneration + 1
    rcases hle.lt_or_eq with hlt | heq
    · exact (h.claimed hlt).trans (Nat.le_succ _)
    · rw [h.available heq havailable]
  all_goals
    intro heq
    have heq' : claims = s.claims + 1 := heq
    omega

theorem finalizeLink_acquire {release : ReleaseOperationSnapshot} {x : FinalizerState}
    {s : FinalizeShared} (h : FinalizeLink release x s) (y : FinalizerState)
    (principal : ClientPrincipal) (now : ℕ) (draws : Draws) (request : AcquireRequest)
    (usageSite : Option String) :
    FinalizeLink release x
      (finalizeAct release s y (.acquire principal now draws request usageSite)).2 := by
  show FinalizeLink release x ⟨(Work.transact _ s.db).2,
    s.claims + claimCount _ (Work.transact _ s.db).1⟩
  rcases hrun : (acquireSmsbowerLease principal now draws request usageSite).transact s.db
    with ⟨e | result, db'⟩
  · rw [Work.transact_error hrun]
    exact h
  · have hwork := Work.transact_eq_ok.mp hrun
    obtain ⟨-, r, hpick, hgot⟩ := acquireSmsbowerLease_ok hwork rfl
    obtain ⟨hmem, havailable⟩ := pickResource_available hpick
    have hresult : result.providerResourceId = some r.id :=
      acquireSmsbowerLease_result hpick hwork
    apply h.of_row
    intro cur hcur
    by_cases hid : r.id = release.providerResourceId
    · have hcur' : cur = r := by
        rw [← hid, get?_resource hmem] at hcur
        exact (Option.some.inj hcur).symm
      refine ⟨cur.claim now, ?_, ?_⟩
      · have hrow := hgot.row hmem release.providerResourceId
        rw [if_pos hid.symm, ← hcur'] at hrow
        exact hrow
      · intro claims hsince
        have hclaim := hsince.claim (hcur' ▸ havailable) now db'
        simpa only [claimCount, hresult, hid, if_pos] using hclaim
    · refine ⟨cur, ?_, ?_⟩
      · have hrow := hgot.row hmem release.providerResourceId
        rw [if_neg (Ne.symm hid)] at hrow
        exact hrow.trans hcur
      · intro claims hsince
        have hnone : claimCount release.providerResourceId (.ok result) = 0 := by
          simp [claimCount, hresult, hid]
        rw [hnone]
        exact hsince.leave db' rfl id id

/-! ### Releases -/

theorem finalizeLink_release {release : ReleaseOperationSnapshot} {x : FinalizerState}
    {s : FinalizeShared} (h : FinalizeLink release x s) (y : FinalizerState)
    (principal : ClientPrincipal) (now : ℕ) (operationId leaseId : String) :
    FinalizeLink release x
      (finalizeAct release s y (.release principal now operationId leaseId)).2 := by
  show FinalizeLink release x { s with db := (Work.transact _ s.db).2 }
  rcases hrun : (releaseLease principal now operationId leaseId).transact s.db
    with ⟨e | result, db'⟩
  · rw [Work.transact_error hrun]
    exact h
  · apply h.of_row
    intro cur hcur
    rcases releaseLease_ok (Work.transact_eq_ok.mp hrun) with hsame | ⟨lease, hreleased⟩
    · have hsame' : db' = s.db := hsame
      exact ⟨cur, by rw [hsame']; exact hcur, fun claims hsince =>
        hsince.leave db' rfl id id⟩
    · rcases hreleased.resource with hsame | ⟨resourceId, f, hf, -, hupdate, hchange⟩
      · have hsame' : db'.providerResources = s.db.providerResources := hsame
        exact ⟨cur, by rw [hsame']; exact hcur, fun claims hsince =>
          hsince.leave db' rfl id id⟩
      · have hupdate' : db'.providerResources =
          (s.db.updateResource resourceId f hf).providerResources := hupdate
        by_cases hid : release.providerResourceId = resourceId
        · refine ⟨f cur, ?_, ?_⟩
          · rw [hupdate', hid, updateResource_get?, ← hid, hcur]
            rfl
          · intro claims hsince
            rcases hchange with rfl | rfl
            · exact hsince.leave db' rfl (by rintro ⟨⟩) (by rintro ⟨⟩)
            · exact hsince.leave db' rfl (by rintro ⟨⟩) (by rintro ⟨⟩)
        · refine ⟨cur, ?_, fun claims hsince => hsince.leave db' rfl id id⟩
          rw [hupdate', updateResource_get?_ne hid]
          exact hcur

/-! ### Finalisations -/

theorem finalizeLink_load {release : ReleaseOperationSnapshot} (x : FinalizerState)
    (s : FinalizeShared) :
    FinalizeLink release (finalizeAct release s x .load).1 s := by
  unfold finalizeAct
  rcases hread : finalizeReleaseRead s.db release.operationId release.providerResourceId
    release.resourceGeneration with _ | _ | ⟨r, o⟩
  · exact finalizeLink_idle
  · exact finalizeLink_idle
  · obtain ⟨hr, hgen, hstate⟩ := finalizeReleaseRead_proceed hread
    rintro r' o' claims ⟨⟩
    refine ⟨Table.key_of_get? hr, hgen, hstate, r, hr, le_rfl, ?_, ?_, ?_, ?_⟩
    · intro hlt
      exact absurd hlt (lt_irrefl _)
    · intro _
      rw [hgen]
      exact ⟨le_rfl, Nat.le_succ _⟩
    · rintro _ hclaimed
      rcases hstate with hstate | hstate <;> rw [hstate] at hclaimed <;> cases hclaimed
    · rintro _ havailable
      rcases hstate with hstate | hstate <;> rw [hstate] at havailable <;> cases havailable

/-- A write of one handler that is not overtaken keeps what another one knows:
a success takes the row to the generation after the loaded one. -/
theorem finalizeLink_write {release : ReleaseOperationSnapshot} {x y : FinalizerState}
    {s : FinalizeShared} (h : FinalizeLink release x s) (hy : FinalizeLink release y s)
    (now : ℕ) (outcome : ReleaseOutcome) (clearSecret : Bool)
    (hok : NotOvertaken s y (.write now outcome clearSecret)) :
    FinalizeLink release x (finalizeAct release s y (.write now outcome clearSecret)).2 := by
  cases y with
  | idle => exact h
  | loaded r o claims =>
      obtain ⟨hid, hgen, hstate, cur, hcur, hsince⟩ := hy r o claims rfl
      apply h.of_row
      intro cur' hcur'
      have heq : cur' = cur := Option.some.inj (hcur'.symm.trans hcur)
      subst heq
      refine ⟨r.flush (r.finalize now outcome clearSecret) cur', ?_, ?_⟩
      · have hrow := finalizeReleaseWrite_get? now outcome clearSecret o (hid ▸ hcur)
          release.providerResourceId
        rw [if_pos hid.symm] at hrow
        exact hrow
      · intro claims' hsince'
        by_cases houtcome : outcome = .succeeded
        · subst houtcome
          have hclaims : claims = s.claims := hok r o claims now clearSecret rfl rfl
          obtain ⟨havailable, hnext⟩ := flush_succeeded now clearSecret cur' hstate
          have hupper := (hsince.generation hclaims).2
          refine ⟨hsince'.claims_le, ?_, ?_, ?_, ?_⟩
          · intro hlt
            -- a claim since the other read would have passed this generation
            have hlower := hsince'.claimed hlt
            omega
          · intro _
            rw [hnext, hgen]
            exact ⟨Nat.le_succ _, le_rfl⟩
          · intro _ hclaimed
            rw [havailable] at hclaimed
            cases hclaimed
          · intro _ _
            rw [hnext, hgen]
        · obtain ⟨hsame, hleft⟩ := flush_other now clearSecret cur' houtcome
          apply hsince'.leave _ hsame
          · intro hclaimed
            rcases hleft with hleft | hleft | hleft <;> rw [hleft] at hclaimed
            · exact hclaimed
            · cases hclaimed
            · cases hclaimed
          · intro havailable
            rcases hleft with hleft | hleft | hleft <;> rw [hleft] at havailable
            · exact havailable
            · cases havailable
            · cases havailable

/-! ## Every step and every run -/

theorem finalizeLink_own {release : ReleaseOperationSnapshot} (s : FinalizeShared)
    (x : FinalizerState) (a : FinalizeAction) (h : FinalizeLink release x s)
    (hok : NotOvertaken s x a) :
    FinalizeLink release (finalizeAct release s x a).1 (finalizeAct release s x a).2 := by
  cases a with
  | acquire principal now draws request usageSite =>
      exact finalizeLink_acquire h x principal now draws request usageSite
  | release principal now operationId leaseId =>
      exact finalizeLink_release h x principal now operationId leaseId
  | load =>
      have hsame : (finalizeAct release s x .load).2 = s := by
        unfold finalizeAct
        cases finalizeReleaseRead s.db release.operationId release.providerResourceId
          release.resourceGeneration <;> rfl
      rw [hsame]
      exact finalizeLink_load x s
  | write now outcome clearSecret =>
      cases x with
      | idle => exact finalizeLink_idle
      | loaded r o claims => exact finalizeLink_idle

theorem finalizeLink_other {release : ReleaseOperationSnapshot} (s : FinalizeShared)
    (x y : FinalizerState) (a : FinalizeAction) (h : FinalizeLink release x s)
    (hy : FinalizeLink release y s) (hok : NotOvertaken s y a) :
    FinalizeLink release x (finalizeAct release s y a).2 := by
  cases a with
  | acquire principal now draws request usageSite =>
      exact finalizeLink_acquire h y principal now draws request usageSite
  | release principal now operationId leaseId =>
      exact finalizeLink_release h y principal now operationId leaseId
  | load =>
      unfold finalizeAct
      cases finalizeReleaseRead s.db release.operationId release.providerResourceId
        release.resourceGeneration <;> exact h
  | write now outcome clearSecret => exact finalizeLink_write h hy now outcome clearSecret hok

theorem keepsClaims_refl (db : Database) : KeepsClaims db db := by
  intro k r hr
  refine ⟨r, hr, ?_, le_rfl⟩
  intro hclaimed havailable
  rw [hclaimed] at havailable
  cases havailable

theorem keepsClaims_write {db : Database} {now : ℕ} {outcome : ReleaseOutcome}
    {clearSecret : Bool} {r cur : MailboxProviderResource} {o : MailboxProviderOperation}
    (hcur : db.providerResources.get? r.id = some cur) :
    KeepsClaims db (finalizeReleaseWrite db now outcome clearSecret r o) ↔
      (cur.lifecycleState = .claimed →
        (r.flush (r.finalize now outcome clearSecret) cur).lifecycleState ≠ .available) ∧
      cur.resourceGeneration ≤
        (r.flush (r.finalize now outcome clearSecret) cur).resourceGeneration := by
  constructor
  · intro h
    obtain ⟨r', hr', hkept⟩ := h r.id cur hcur
    rw [finalizeReleaseWrite_get? _ _ _ _ hcur, if_pos rfl] at hr'
    cases hr'
    exact hkept
  · intro h k q hq
    rw [finalizeReleaseWrite_get? _ _ _ _ hcur]
    by_cases hk : k = r.id
    · rw [if_pos hk]
      rw [hk, hcur] at hq
      cases hq
      exact ⟨_, rfl, h⟩
    · rw [if_neg hk]
      exact keepsClaims_refl db k q hq

/-- **Step lemma**: a finalisation keeps the claims exactly if it is not
overtaken. -/
theorem finalizeSafe_iff_notOvertaken {release : ReleaseOperationSnapshot}
    (s : FinalizeShared) (x : FinalizerState) (a : FinalizeAction)
    (h : FinalizeLink release x s) :
    FinalizeSafe release s x a ↔ NotOvertaken s x a := by
  cases a with
  | acquire | release | load =>
      constructor
      · rintro - r o claims now clearSecret - ⟨⟩
      · rintro - now outcome clearSecret ⟨⟩
  | write now outcome clearSecret =>
      cases x with
      | idle =>
          constructor
          · rintro - r o claims now clearSecret ⟨⟩
          · rintro - now outcome clearSecret ⟨⟩
            exact keepsClaims_refl s.db
      | loaded r o claims =>
          obtain ⟨hid, hgen, hstate, cur, hcur, hsince⟩ := h r o claims rfl
          rw [← hid] at hcur
          have hwrite : FinalizeSafe release s (.loaded r o claims)
              (.write now outcome clearSecret) ↔
              KeepsClaims s.db
                (finalizeReleaseWrite s.db now outcome clearSecret r o) := by
            constructor
            · intro hsafe
              exact hsafe now outcome clearSecret rfl
            · rintro hkeeps _ _ _ ⟨⟩
              exact hkeeps
          rw [hwrite, keepsClaims_write hcur]
          by_cases houtcome : outcome = .succeeded
          · subst houtcome
            obtain ⟨havailable, hnext⟩ := flush_succeeded now clearSecret cur hstate
            rw [hnext, hgen]
            constructor
            · rintro ⟨-, hle⟩ _ _ claims' _ _ ⟨⟩ ⟨⟩
              -- had there been a claim, the generation would be lowered
              rcases hsince.claims_le.lt_or_eq with hlt | heq
              · have hpast := hsince.claimed hlt
                omega
              · exact heq
            · intro hnot
              have heq := hnot r o claims now clearSecret rfl rfl
              exact ⟨fun hclaimed => absurd hclaimed (hsince.unclaimed heq),
                (hsince.generation heq).2⟩
          · obtain ⟨hsame, hleft⟩ := flush_other now clearSecret cur houtcome
            constructor
            · rintro - _ _ _ _ _ ⟨⟩ ⟨⟩
              exact absurd rfl houtcome
            · intro _
              refine ⟨?_, hsame.ge⟩
              intro hclaimed havailable
              rcases hleft with hleft | hleft | hleft <;> rw [hleft] at havailable
              · rw [hclaimed] at havailable
                cases havailable
              · cases havailable
              · cases havailable

/-- **Compare-and-swap theorem**: from any database with no handler between its
two steps, the finalisations of a run leave every claimed resource claimed and
every generation as high as it was, exactly if none of them reports success
after its resource was claimed since it was read. -/
theorem finalizations_keep_claims {ι : Type*} [DecidableEq ι]
    (release : ReleaseOperationSnapshot) (db : Database)
    (events : List (ι × FinalizeAction)) :
    Meets (Threads.step (finalizeAct release)) (Threads.At (FinalizeSafe release))
        (Threads.start ⟨db, 0⟩ .idle) events ↔
      Meets (Threads.step (finalizeAct release)) (Threads.At NotOvertaken)
        (Threads.start ⟨db, 0⟩ .idle) events := by
  have hstart : (Threads.start ⟨db, 0⟩ .idle : Threads ι FinalizerState FinalizeShared).Linked
      (FinalizeLink release) := by
    intro i
    exact finalizeLink_idle
  refine (Threads.meets_iff finalizeLink_own finalizeLink_other ?_ hstart).symm
  intro s x a hlink
  exact (finalizeSafe_iff_notOvertaken s x a hlink).symm

end

/-! ## An overtaken finalisation -/

section Sample

attribute [local instance] asciiPlatform

def releasingDatabase : Database where
  providerResources :=
    ⟨[{ sampleResource with lifecycleState := .releasing, resourceGeneration := 1 }],
      List.pairwise_singleton _ _⟩
  providerOperations :=
    ⟨[{ id := "operation", operationType := .release, providerType := "smsbower_gmail"
        providerInstanceId := "default", providerResourceId := some "resource"
        leaseId := some "old", externalResourceId := some "7"
        resourceGeneration := some 1, expectedStateVersion := some 0
        status := .pending, idempotencyKey := releaseKey "old" 1 }],
      List.pairwise_singleton _ _⟩

def sampleRelease : ReleaseOperationSnapshot := ⟨"operation", "resource", 1⟩

/-- The first handler reads, the second one finalises, a new lease claims the
resource, and the first one writes. -/
def overtakenRun : List (Bool × FinalizeAction) :=
  [(false, .load), (true, .load), (true, .write 1 .succeeded true),
   (true, .acquire samplePrincipal 2 (sampleDraws "new" "smsbower_gmail")
     { mode := .mailRead, ttlSeconds := 60 } none),
   (false, .write 3 .succeeded true)]

theorem overtaken_finalization_frees_claim :
    ¬ Meets (Threads.step (finalizeAct sampleRelease))
      (Threads.At (FinalizeSafe sampleRelease))
      (Threads.start ⟨releasingDatabase, 0⟩ .idle) overtakenRun := by
  rintro ⟨-, -, -, -, hlast, -⟩
  have hsafe : KeepsClaims
      (exec (Threads.step (finalizeAct sampleRelease))
        (Threads.start ⟨releasingDatabase, 0⟩ .idle) (overtakenRun.take 4)).shared.db
      (exec (Threads.step (finalizeAct sampleRelease))
        (Threads.start ⟨releasingDatabase, 0⟩ .idle) overtakenRun).shared.db :=
    hlast 3 .succeeded true rfl
  have hbefore : ((exec (Threads.step (finalizeAct sampleRelease))
      (Threads.start ⟨releasingDatabase, 0⟩ .idle)
      (overtakenRun.take 4)).shared.db.providerResources.get? "resource").map
        MailboxProviderResource.lifecycleState = some .claimed := by
    decide +kernel
  have hafter : ((exec (Threads.step (finalizeAct sampleRelease))
      (Threads.start ⟨releasingDatabase, 0⟩ .idle)
      overtakenRun).shared.db.providerResources.get? "resource").map
        MailboxProviderResource.lifecycleState = some .available := by
    decide +kernel
  obtain ⟨r, hr, hclaimed⟩ := Option.map_eq_some_iff.mp hbefore
  obtain ⟨r', hr', hfreed, -⟩ := hsafe "resource" r hr
  rw [hr'] at hafter
  exact hfreed hclaimed (Option.some.inj hafter)

end Sample

end MailboxService
