import Mathlib.Data.List.Sort
import Mathlib.Data.Prod.Lex
import Mathlib.Data.String.Basic
import MailboxService.Foundation.Batch
import MailboxService.Foundation.Run

/-!
# Startup migrations

`migration_runner.py`: the files of the migrations directory, in their order,
and the starts that apply those that `schema_migrations` does not record. A
start that fails leaves the rest to the next one, on whatever instance. Scripts
run on a connection of their own; the record is inserted after them.

The files are ordered by the text of their versions, and a start that loses the
record of a script executes it again next time. `migrations_lawful_iff` says when
neither matters.
-/

namespace MailboxService

open Foundation Foundation.Batch

/-- The decimal digits of the Unicode tables, behind `\\d` and `int`. -/
class DecimalDigits where
  digit : Char → Option ℕ

/-- One ordered SQL migration; its path and checksum are left out. -/
structure MigrationScript where
  version : String
  filename : String
  sqlText : String
  deriving DecidableEq, Repr

inductive SqlDialect where
  | mysql
  | sqlite
  deriving DecidableEq, Repr

inductive MigrationError where
  | duplicateVersion (script : MigrationScript)
  | lockNotAcquired
  | scriptFailed (script : MigrationScript)
  deriving DecidableEq, Repr

/-- The messages; that of a failed script goes on with what the database says. -/
def MigrationError.message : MigrationError → String
  | duplicateVersion script =>
      "存在重复的迁移版本号 " ++ script.version ++ ": " ++ script.filename
  | lockNotAcquired =>
      "无法获取数据库迁移锁，可能有其他实例正在执行迁移；lock=mailbox_service_schema_migrate"
  | scriptFailed script => "迁移失败: " ++ script.filename ++ ": "

/-! ## Discovery -/

section

variable [DecimalDigits]

/-- `MIGRATION_FILE_PATTERN`: three or more digits, an underscore, a name, and
the extension. -/
def migrationVersion? (filename : String) : Option String :=
  let digits := filename.toList.takeWhile fun c => (DecimalDigits.digit c).isSome
  let rest := filename.toList.drop digits.length
  let name := (rest.drop 1).take (rest.length - 5)
  if 3 ≤ digits.length ∧ rest = '_' :: (name ++ ".sql".toList) ∧ name ≠ [] ∧ '\n' ∉ name then
    some (.ofList digits)
  else none

def MigrationScript.number (script : MigrationScript) : ℕ :=
  script.version.toList.foldl (fun n c => 10 * n + (DecimalDigits.digit c).getD 0) 0

/-- The scripts among the files, a file being its name and its text. -/
def migrationScripts (files : List (String × String)) : List MigrationScript :=
  files.filterMap fun file =>
    (migrationVersion? file.1).map fun version =>
      { version, filename := file.1, sqlText := file.2 }

end

/-- The sort key: version, then file name, both as texts. -/
def MigrationScript.sortKey (script : MigrationScript) : String ×ₗ String :=
  toLex (script.version, script.filename)

/-- `_assert_unique_versions`: the first script whose version was there before. -/
def duplicateVersion? : List MigrationScript → List String → Option MigrationScript
  | [], _ => none
  | script :: scripts, seen =>
      if script.version ∈ seen then some script
      else duplicateVersion? scripts (script.version :: seen)

def discoverMigrationScripts [DecimalDigits] (files : List (String × String)) :
    Except MigrationError (List MigrationScript) :=
  let scripts := (migrationScripts files).insertionSort fun a b => a.sortKey ≤ b.sortKey
  match duplicateVersion? scripts [] with
  | some script => .error (.duplicateVersion script)
  | none => .ok scripts

/-! ## Starts -/

/-- The columns of `schema_migrations` take the record; SQLite does not enforce
their widths. -/
def MigrationScript.recordable (dialect : SqlDialect) (script : MigrationScript) : Bool :=
  dialect = .sqlite || (script.version.length ≤ 64 && script.filename.length ≤ 255)

/-- One script, as it goes in a start: where the insertion of the record would
succeed, the columns may still refuse it. -/
def applyScript (dialect : SqlDialect) (goes : MigrationScript → Outcome)
    (script : MigrationScript) : Outcome :=
  match goes script with
  | .recorded => if script.recordable dialect then .recorded else .unrecorded
  | outcome => outcome

/-- A start, with what becomes of each script in it: it fails, or it is executed and
the insertion or the commit of its record fails, or it is applied. A start that times
out on the lock does nothing. -/
inductive MigrationStart where
  | lockRefused
  | run (goes : MigrationScript → Outcome)

/-- The recorded versions, the scripts that were executed, and what the last
start came to: the versions it applied, or why it failed. -/
structure MigrationState where
  journal : Journal MigrationScript String
  result : Except MigrationError (List String)

/-- `run_pending_migrations` on the discovered scripts. -/
def runPendingMigrations (dialect : SqlDialect) (scripts : List MigrationScript)
    (s : MigrationState) : MigrationStart → MigrationState
  | .lockRefused => { s with result := .error .lockNotAcquired }
  | .run goes =>
      let waiting := pending MigrationScript.version scripts s.journal.recorded
      match process MigrationScript.version (applyScript dialect goes) waiting s.journal with
      | (some script, journal) => ⟨journal, .error (.scriptFailed script)⟩
      | (none, journal) => ⟨journal, .ok (waiting.map MigrationScript.version)⟩

/-- Before any start, with the versions recorded by then. -/
def migrationsStart (recorded : List String) : MigrationState := ⟨⟨recorded, []⟩, .ok []⟩

/-! ## The law -/

section

variable [DecimalDigits]

/-- **A failed start** has executed no script after the one it failed at, and
recorded exactly the pending ones before it. -/
def FailsInOrder (dialect : SqlDialect) (scripts : List MigrationScript) (s : MigrationState)
    (start : MigrationStart) : Prop :=
  let s' := runPendingMigrations dialect scripts s start
  ∀ script, s'.result = .error (.scriptFailed script) →
    (∃ new, s'.journal.log = s.journal.log ++ new ∧
      ∀ a ∈ new, a.item.number ≤ script.number) ∧
    ∀ other ∈ pending MigrationScript.version scripts s.journal.recorded,
      other.version ∈ s'.journal.recorded ↔ other.number < script.number

/-- **The law of migrations**, for one run of starts. -/
structure MigrationsLawful (dialect : SqlDialect) (scripts : List MigrationScript)
    (recorded : List String) (starts : List MigrationStart) : Prop where
  /-- Scripts are executed in the order of their numbers. -/
  ordered : (exec (runPendingMigrations dialect scripts) (migrationsStart recorded)
    starts).journal.log.Pairwise fun a b => a.item.number ≤ b.item.number
  /-- A recorded script is not executed again. -/
  once : (∀ a ∈ (exec (runPendingMigrations dialect scripts) (migrationsStart recorded)
      starts).journal.log, a.item.version ∉ recorded) ∧
    (exec (runPendingMigrations dialect scripts) (migrationsStart recorded)
      starts).journal.log.Pairwise fun a b =>
        a.outcome = .recorded → b.item.version ≠ a.item.version
  failing : Meets (runPendingMigrations dialect scripts) (FailsInOrder dialect scripts)
    (migrationsStart recorded) starts
  /-- When the last start has not failed, every script was executed successfully
  exactly once. -/
  complete : ∀ earlier goes versions, starts = earlier ++ [.run goes] →
    (exec (runPendingMigrations dialect scripts) (migrationsStart recorded) starts).result =
      .ok versions →
    ∀ script ∈ pending MigrationScript.version scripts recorded,
      (exec (runPendingMigrations dialect scripts) (migrationsStart recorded)
        starts).journal.log.countP (fun a => a.item = script && a.succeeded) = 1

/-- A start can get to the script: the records before it are not refused. -/
def MigrationScript.Reached (dialect : SqlDialect) (waiting : List MigrationScript)
    (script : MigrationScript) : Prop :=
  ∀ earlier ∈ waiting, earlier.version < script.version → earlier.recordable dialect = true

/-- **The condition on the files**: where versions follow one another as texts, so do
their numbers. -/
def NumberedInOrder (dialect : SqlDialect) (waiting : List MigrationScript) : Prop :=
  ∀ a ∈ waiting, a.Reached dialect waiting →
    ∀ b ∈ waiting, a.version < b.version → a.number < b.number

/-- **The condition on a start**: the script that it gets to, if it is executed, is
recorded as well. -/
def RecordsTaken (dialect : SqlDialect) (scripts : List MigrationScript) (s : MigrationState) :
    MigrationStart → Prop
  | .lockRefused => True
  | .run goes =>
      let waiting := pending MigrationScript.version scripts s.journal.recorded
      ∀ script ∈ waiting,
        (∀ earlier ∈ waiting, earlier.version < script.version →
          applyScript dialect goes earlier = .recorded) →
        applyScript dialect goes script ≠ .unrecorded

/-- The last start of the run gets to the end: every script that is left is applied. -/
def GetsThrough (dialect : SqlDialect) (scripts : List MigrationScript) (recorded : List String)
    (starts : List MigrationStart) : Prop :=
  ∃ earlier goes, starts = earlier ++ [.run goes] ∧
    ∀ script ∈ pending MigrationScript.version scripts
        (exec (runPendingMigrations dialect scripts) (migrationsStart recorded)
          earlier).journal.recorded,
      applyScript dialect goes script = .recorded

/-! ## Discovered scripts -/

omit [DecimalDigits] in
theorem duplicateVersion?_eq_none {scripts : List MigrationScript} :
    ∀ {seen : List String}, (scripts.map MigrationScript.version).Nodup →
      (∀ script ∈ scripts, script.version ∉ seen) → duplicateVersion? scripts seen = none := by
  induction scripts with
  | nil => exact fun _ _ => rfl
  | cons script scripts ih =>
      intro seen hnodup hseen
      rw [List.map_cons, List.nodup_cons] at hnodup
      unfold duplicateVersion?
      rw [if_neg (hseen script (List.mem_cons_self ..))]
      apply ih hnodup.2
      intro other hother hmem
      rcases List.mem_cons.mp hmem with heq | hmem
      · exact hnodup.1 (heq ▸ List.mem_map_of_mem hother)
      · exact hseen other (List.mem_cons_of_mem _ hother) hmem

omit [DecimalDigits] in
theorem version_le_of_sortKey {a b : MigrationScript} (h : a.sortKey ≤ b.sortKey) :
    a.version ≤ b.version := by
  rcases Prod.Lex.toLex_le_toLex.mp h with hlt | ⟨heq, -⟩
  · exact hlt.le
  · exact le_of_eq heq

/-- Scripts with different numbers are found, and sorted by the text of their
versions. -/
theorem discoverMigrationScripts_ok {files : List (String × String)}
    (h : ((migrationScripts files).map MigrationScript.number).Nodup) :
    ∃ scripts, discoverMigrationScripts files = .ok scripts ∧
      (scripts.map MigrationScript.number).Nodup ∧
      scripts.Pairwise (MigrationScript.version · < MigrationScript.version ·) := by
  set r : MigrationScript → MigrationScript → Prop := fun a b => a.sortKey ≤ b.sortKey with hr
  have : Std.Total r := ⟨fun a b => le_total a.sortKey b.sortKey⟩
  have : IsTrans MigrationScript r := ⟨fun a b c hab hbc => le_trans hab hbc⟩
  have hperm := List.perm_insertionSort r (migrationScripts files)
  have hnumbers : (((migrationScripts files).insertionSort r).map
      MigrationScript.number).Nodup := (hperm.map _).nodup_iff.mpr h
  have hversions : (((migrationScripts files).insertionSort r).map
      MigrationScript.version).Nodup := by
    refine List.Nodup.of_map (fun version : String => version.toList.foldl
      (fun n c => 10 * n + (DecimalDigits.digit c).getD 0) 0) ?_
    rw [List.map_map]
    exact hnumbers
  refine ⟨(migrationScripts files).insertionSort r, ?_, hnumbers, ?_⟩
  · unfold discoverMigrationScripts
    dsimp only
    rw [duplicateVersion?_eq_none hversions fun _ _ => List.not_mem_nil]
  · have hsorted := List.pairwise_insertionSort r (migrationScripts files)
    rw [List.Nodup, List.pairwise_map] at hversions
    exact (hsorted.and hversions).imp fun hab =>
      lt_of_le_of_ne (version_le_of_sortKey hab.1) hab.2

/-! ## A start -/

variable {dialect : SqlDialect} {scripts : List MigrationScript} {recorded : List String}
  {s : MigrationState} {goes : MigrationScript → Outcome}

omit [DecimalDigits] in
theorem runPendingMigrations_run (dialect : SqlDialect) (scripts : List MigrationScript)
    (s : MigrationState) (goes : MigrationScript → Outcome) :
    ∃ done rest, Processed MigrationScript.version (applyScript dialect goes)
        (pending MigrationScript.version scripts s.journal.recorded) s.journal done rest
        (rest.head?, (runPendingMigrations dialect scripts s (.run goes)).journal) ∧
      (runPendingMigrations dialect scripts s (.run goes)).result =
        match rest.head? with
        | some script => .error (.scriptFailed script)
        | none => .ok ((pending MigrationScript.version scripts s.journal.recorded).map
            MigrationScript.version) := by
  obtain ⟨done, rest, h⟩ := processed MigrationScript.version (applyScript dialect goes)
    (pending MigrationScript.version scripts s.journal.recorded) s.journal
  refine ⟨done, rest, ?_⟩
  simp only [runPendingMigrations]
  rcases hrun : process MigrationScript.version (applyScript dialect goes)
    (pending MigrationScript.version scripts s.journal.recorded) s.journal with ⟨stop, journal⟩
  rw [hrun] at h
  obtain rfl : stop = rest.head? := h.stopped
  cases hrest : rest.head? with
  | none =>
      rw [hrest] at h
      exact ⟨h, rfl⟩
  | some script =>
      rw [hrest] at h
      exact ⟨h, rfl⟩

omit [DecimalDigits] in
theorem applyScript_recorded {script : MigrationScript}
    (h : applyScript dialect goes script = .recorded) : script.recordable dialect = true := by
  unfold applyScript at h
  split at h
  · split at h
    · assumption
    · cases h
  · rename_i hother
    exact absurd h hother

/-- The progress of the starts so far, on the scripts that were pending at first. -/
abbrev MigrationProgress (dialect : SqlDialect) (scripts : List MigrationScript)
    (recorded : List String) (done todo : List MigrationScript) (s : MigrationState) : Prop :=
  Progress MigrationScript.version (pending MigrationScript.version scripts recorded) recorded
    (MigrationScript.recordable dialect) done todo s.journal

omit [DecimalDigits] in
theorem pending_sorted (recorded : List String)
    (h : scripts.Pairwise (MigrationScript.version · < MigrationScript.version ·)) :
    (pending MigrationScript.version scripts recorded).Pairwise
      (MigrationScript.version · < MigrationScript.version ·) :=
  h.sublist List.filter_sublist

omit [DecimalDigits] in
/-- **Start lemma**: a start goes on where the earlier ones have stopped. -/
theorem runPendingMigrations_progress
    (hsorted : scripts.Pairwise (MigrationScript.version · < MigrationScript.version ·))
    {done todo : List MigrationScript}
    (h : MigrationProgress dialect scripts recorded done todo s)
    (goes : MigrationScript → Outcome) :
    ∃ more rest, Processed MigrationScript.version (applyScript dialect goes) todo s.journal
        more rest (rest.head?, (runPendingMigrations dialect scripts s (.run goes)).journal) ∧
      MigrationProgress dialect scripts recorded (done ++ more) rest
        (runPendingMigrations dialect scripts s (.run goes)) ∧
      (runPendingMigrations dialect scripts s (.run goes)).result =
        match rest.head? with
        | some script => .error (.scriptFailed script)
        | none => .ok (todo.map MigrationScript.version) := by
  obtain ⟨more, rest, hprocessed, hresult⟩ := runPendingMigrations_run dialect scripts s
    goes
  rw [h.pending_eq (pending_sorted recorded hsorted)] at hprocessed hresult
  exact ⟨more, rest, hprocessed, h.process (pending_sorted recorded hsorted) hprocessed
    (fun _ => applyScript_recorded), hresult⟩

omit [DecimalDigits] in
theorem exec_progress (dialect : SqlDialect) (recorded : List String)
    (hsorted : scripts.Pairwise (MigrationScript.version · < MigrationScript.version ·))
    (starts : List MigrationStart) :
    ∃ done todo, MigrationProgress dialect scripts recorded done todo
      (exec (runPendingMigrations dialect scripts) (migrationsStart recorded) starts) := by
  refine exec_invariant (P := fun s => ∃ done todo,
    MigrationProgress dialect scripts recorded done todo s) ?_ ⟨[], _, Progress.start _ _ _⟩ starts
  rintro s start ⟨done, todo, h⟩
  cases start with
  | lockRefused => exact ⟨done, todo, h⟩
  | run goes =>
      obtain ⟨more, rest, -, hnext, -⟩ := runPendingMigrations_progress hsorted h goes
      exact ⟨_, _, hnext⟩

/-! ## The law -/

theorem number_eq_of_version {a b : MigrationScript} (h : a.version = b.version) :
    a.number = b.number := by
  unfold MigrationScript.number
  rw [h]

/-- Under the condition, what comes later in the order of processing has the
greater number. -/
theorem number_lt {done todo : List MigrationScript}
    (hsorted : scripts.Pairwise (MigrationScript.version · < MigrationScript.version ·))
    (h : MigrationProgress dialect scripts recorded done todo s)
    (hnumbered : NumberedInOrder dialect (pending MigrationScript.version scripts recorded))
    {a b : MigrationScript} (ha : a ∈ done ∨ a ∈ todo.head?)
    (hb : b ∈ pending MigrationScript.version scripts recorded) (hlt : a.version < b.version) :
    a.number < b.number := by
  have hmem : a ∈ pending MigrationScript.version scripts recorded := by
    rw [h.split]
    rcases ha with ha | ha
    · exact List.mem_append_left _ ha
    · exact List.mem_append_right _ (List.mem_of_mem_head? ha)
  refine hnumbered a hmem ?_ b hb hlt
  intro earlier hearlier hlt
  exact h.accepted _ (h.mem_done_of_lt (pending_sorted recorded hsorted) ha hearlier hlt)

theorem failsInOrder {done todo : List MigrationScript}
    (hsorted : scripts.Pairwise (MigrationScript.version · < MigrationScript.version ·))
    (h : MigrationProgress dialect scripts recorded done todo s)
    (hnumbered : NumberedInOrder dialect (pending MigrationScript.version scripts recorded))
    (start : MigrationStart) : FailsInOrder dialect scripts s start := by
  cases start with
  | lockRefused =>
      intro script hfailed
      cases hfailed
  | run goes =>
      obtain ⟨more, rest, hp, hnext, hresult⟩ := runPendingMigrations_progress hsorted h goes
      intro script hfailed
      rw [hresult] at hfailed
      have hstop : rest.head? = some script := by
        cases hrest : rest.head? with
        | none =>
            rw [hrest] at hfailed
            cases hfailed
        | some script' =>
            rw [hrest] at hfailed
            cases hfailed
            rfl
      obtain ⟨tail, rfl⟩ := List.head?_eq_some_iff.mp hstop
      have hitems : ∀ x ∈ todo, x ∈ pending MigrationScript.version scripts recorded := by
        intro x hx
        rw [h.split]
        exact List.mem_append_right _ hx
      have hscript : script ∈ todo := by
        rw [hp.split]
        exact List.mem_append_right _ (List.mem_cons_self ..)
      have htodo := h.todo_sorted (pending_sorted recorded hsorted)
      have hbefore := hp.lt htodo
      rw [hp.split, List.pairwise_append, List.pairwise_cons] at htodo
      obtain ⟨-, ⟨hafter, -⟩, -⟩ := htodo
      -- what a start has recorded comes before the script, and has a smaller number
      have hmore : ∀ x ∈ more, x.number < script.number := fun x hx =>
        number_lt hsorted hnext hnumbered (Or.inl (List.mem_append_right _ hx))
          (hitems script hscript) (hbefore x hx script (List.mem_cons_self ..))
      constructor
      · refine ⟨_, by rw [hp.log, List.append_assoc], ?_⟩
        intro a ha
        obtain ⟨-, -, ha | ⟨-, ha⟩⟩ := hp.attempt_mem ha
        · exact (hmore _ ha).le
        · obtain rfl : script = a.item := Option.some.inj ha
          exact le_rfl
      · intro other hother
        rw [h.pending_eq (pending_sorted recorded hsorted)] at hother
        have hfresh : other.version ∉ s.journal.recorded := by
          have hpending := h.pending_eq (pending_sorted recorded hsorted)
          rw [← hpending] at hother
          simpa only [decide_eq_true_eq] using (List.mem_filter.mp hother).2
        rw [hp.recorded, List.mem_append, or_iff_right hfresh]
        constructor
        · intro hmem
          obtain ⟨x, hx, hversion⟩ := List.mem_map.mp hmem
          rw [← number_eq_of_version hversion]
          exact hmore x hx
        · intro hlt
          rw [hp.split, List.mem_append, List.mem_cons] at hother
          rcases hother with hother | rfl | hother
          · exact List.mem_map_of_mem hother
          · exact absurd hlt (lt_irrefl _)
          · have hgt := number_lt hsorted hnext hnumbered (Or.inr rfl)
              (hitems other (by
                rw [hp.split]
                exact List.mem_append_right _ (List.mem_cons_of_mem _ hother)))
              (hafter other hother)
            exact absurd hlt (lt_asymm hgt)

omit [DecimalDigits] in
/-- A start takes the record of what it executes exactly if the script that it stops
at was not executed. -/
theorem recordsTaken_iff
    (hsorted : scripts.Pairwise (MigrationScript.version · < MigrationScript.version ·))
    {done todo more rest : List MigrationScript}
    {result : Option MigrationScript × Journal MigrationScript String}
    (h : MigrationProgress dialect scripts recorded done todo s)
    (hp : Processed MigrationScript.version (applyScript dialect goes) todo s.journal more rest
      result) :
    RecordsTaken dialect scripts s (.run goes) ↔
      ∀ script ∈ rest.head?, applyScript dialect goes script ≠ .unrecorded := by
  have hsplit := hp.split
  have hpending := h.pending_eq (pending_sorted recorded hsorted)
  have hwaiting := pending_sorted s.journal.recorded hsorted
  unfold RecordsTaken
  dsimp only
  rw [hpending] at hwaiting ⊢
  rw [hsplit, List.pairwise_append] at hwaiting
  obtain ⟨-, hrest, hbefore⟩ := hwaiting
  constructor
  · intro htaken script hscript
    obtain ⟨tail, rfl⟩ := List.head?_eq_some_iff.mp hscript
    refine htaken script (hsplit ▸ List.mem_append_right _ (List.mem_cons_self ..)) ?_
    intro earlier hearlier hlt
    rw [hsplit, List.mem_append, List.mem_cons] at hearlier
    rcases hearlier with hmore | rfl | htail
    · exact hp.attempts earlier hmore
    · exact absurd hlt (lt_irrefl _)
    · exact absurd hlt (lt_asymm ((List.pairwise_cons.mp hrest).1 earlier htail))
  · intro htaken script hscript hearlier hunrecorded
    rw [hsplit, List.mem_append] at hscript
    rcases hscript with hmore | hscript
    · rw [hp.attempts script hmore] at hunrecorded
      cases hunrecorded
    · obtain ⟨head, tail, rfl⟩ := List.exists_cons_of_ne_nil (List.ne_nil_of_mem hscript)
      rcases List.mem_cons.mp hscript with rfl | htail
      · exact htaken script rfl hunrecorded
      · refine hp.refused head rfl (hearlier head ?_ ((List.pairwise_cons.mp hrest).1 script htail))
        rw [hsplit]
        exact List.mem_append_right _ (List.mem_cons_self ..)

omit [DecimalDigits] in
/-- A start takes the record of what it executes exactly if none of its attempts lacks
one. -/
theorem recordsTaken_iff_log
    (hsorted : scripts.Pairwise (MigrationScript.version · < MigrationScript.version ·))
    {done todo : List MigrationScript}
    (h : MigrationProgress dialect scripts recorded done todo s) (start : MigrationStart) :
    (∀ a ∈ (runPendingMigrations dialect scripts s start).journal.log,
        a.outcome ≠ .unrecorded) ↔
      (∀ a ∈ s.journal.log, a.outcome ≠ .unrecorded) ∧
        RecordsTaken dialect scripts s start := by
  cases start with
  | lockRefused => exact (and_iff_left trivial).symm
  | run goes =>
      obtain ⟨more, rest, hp, -, -⟩ := runPendingMigrations_progress hsorted h goes
      rw [recordsTaken_iff hsorted h hp, hp.log, List.append_assoc, List.forall_mem_append,
        List.forall_mem_append]
      refine and_congr_right fun _ => ?_
      constructor
      · rintro ⟨-, hstop⟩ script hscript
        rw [hscript] at hstop
        exact hstop _ (List.mem_singleton_self _)
      · intro hstop
        refine ⟨?_, ?_⟩
        · intro a ha
          obtain ⟨x, -, rfl⟩ := List.mem_map.mp ha
          exact fun houtcome => by cases houtcome
        · intro a ha
          obtain ⟨x, hx, rfl⟩ := List.mem_map.mp ha
          exact hstop x (Option.mem_toList.mp hx)

omit [DecimalDigits] in
/-- **Run lemma**: no attempt of a run lacks its record exactly if each start takes
the record of what it executes. -/
theorem log_recorded_iff
    (hsorted : scripts.Pairwise (MigrationScript.version · < MigrationScript.version ·))
    {done todo : List MigrationScript}
    (h : MigrationProgress dialect scripts recorded done todo s) (starts : List MigrationStart) :
    (∀ a ∈ (exec (runPendingMigrations dialect scripts) s starts).journal.log,
        a.outcome ≠ .unrecorded) ↔
      (∀ a ∈ s.journal.log, a.outcome ≠ .unrecorded) ∧
        Meets (runPendingMigrations dialect scripts) (RecordsTaken dialect scripts) s starts := by
  induction starts generalizing s done todo with
  | nil => exact (and_iff_left trivial).symm
  | cons start starts ih =>
      obtain ⟨done', todo', hnext⟩ : ∃ done' todo', MigrationProgress dialect scripts recorded
          done' todo' (runPendingMigrations dialect scripts s start) := by
        cases start with
        | lockRefused => exact ⟨done, todo, h⟩
        | run goes =>
            obtain ⟨more, rest, -, hnext, -⟩ := runPendingMigrations_progress hsorted h goes
            exact ⟨_, _, hnext⟩
      rw [exec_cons, ih hnext, recordsTaken_iff_log hsorted h, and_assoc]
      rfl

omit [DecimalDigits] in
/-- A start ends without an error exactly if it applies all that is left. -/
theorem runPendingMigrations_ok_iff
    (hsorted : scripts.Pairwise (MigrationScript.version · < MigrationScript.version ·))
    {done todo : List MigrationScript}
    (h : MigrationProgress dialect scripts recorded done todo s)
    (goes : MigrationScript → Outcome) :
    (∃ versions, (runPendingMigrations dialect scripts s (.run goes)).result = .ok versions) ↔
      ∀ script ∈ pending MigrationScript.version scripts s.journal.recorded,
        applyScript dialect goes script = .recorded := by
  obtain ⟨more, rest, hp, -, hresult⟩ := runPendingMigrations_progress hsorted h goes
  rw [h.pending_eq (pending_sorted recorded hsorted), hresult, hp.split]
  cases rest with
  | nil =>
      refine iff_of_true ⟨_, rfl⟩ fun script hscript => ?_
      rw [List.append_nil] at hscript
      exact hp.attempts script hscript
  | cons script rest =>
      refine iff_of_false ?_ fun hall => ?_
      · rintro ⟨versions, herror⟩
        cases herror
      · exact hp.refused script rfl
          (hall script (List.mem_append_right _ (List.mem_cons_self ..)))

omit [DecimalDigits] in
theorem executions_of_ok
    (hsorted : scripts.Pairwise (MigrationScript.version · < MigrationScript.version ·))
    {done todo : List MigrationScript}
    (h : MigrationProgress dialect scripts recorded done todo s)
    (hall : ∀ script ∈ pending MigrationScript.version scripts s.journal.recorded,
      applyScript dialect goes script = .recorded) :
    ∀ script ∈ pending MigrationScript.version scripts recorded,
      (runPendingMigrations dialect scripts s (.run goes)).journal.log.countP
          (fun a => a.item = script && a.succeeded) =
        (runPendingMigrations dialect scripts s (.run goes)).journal.log.countP
          (fun a => a.item = script && a.outcome = .unrecorded) + 1 := by
  obtain ⟨more, rest, hp, hnext, -⟩ := runPendingMigrations_progress hsorted h goes
  rw [h.pending_eq (pending_sorted recorded hsorted), hp.split] at hall
  have hrest : rest = [] := by
    cases rest with
    | nil => rfl
    | cons script rest =>
        exact absurd (hall script (List.mem_append_right _ (List.mem_cons_self ..)))
          (hp.refused script rfl)
  have hsplit := hnext.split
  rw [hrest, List.append_nil] at hsplit
  rw [hsplit]
  exact hnext.complete

omit [DecimalDigits] in
/-- **Executions**: when the last start of a run gets to the end, every script was
executed successfully exactly once, if and only if every start took the record of what
it executed. -/
theorem executed_once_iff
    (hsorted : scripts.Pairwise (MigrationScript.version · < MigrationScript.version ·))
    {earlier : List MigrationStart}
    (hall : ∀ script ∈ pending MigrationScript.version scripts
        (exec (runPendingMigrations dialect scripts) (migrationsStart recorded)
          earlier).journal.recorded,
      applyScript dialect goes script = .recorded) :
    (∀ script ∈ pending MigrationScript.version scripts recorded,
        (exec (runPendingMigrations dialect scripts) (migrationsStart recorded)
          (earlier ++ [.run goes])).journal.log.countP
            (fun a => a.item = script && a.succeeded) = 1) ↔
      Meets (runPendingMigrations dialect scripts) (RecordsTaken dialect scripts)
        (migrationsStart recorded) (earlier ++ [.run goes]) := by
  obtain ⟨done, todo, h⟩ := exec_progress dialect recorded hsorted earlier
  obtain ⟨done', todo', hend⟩ := exec_progress dialect recorded hsorted (earlier ++ [.run goes])
  have hcount := executions_of_ok hsorted h hall
  have hstart : MigrationProgress dialect scripts recorded []
      (pending MigrationScript.version scripts recorded) (migrationsStart recorded) :=
    Progress.start _ _ _
  have hlog := log_recorded_iff hsorted hstart (earlier ++ [.run goes])
  have hnone : ∀ a ∈ (migrationsStart recorded).journal.log, a.outcome ≠ .unrecorded :=
    fun a ha => absurd ha List.not_mem_nil
  rw [and_iff_right hnone] at hlog
  rw [← hlog]
  have hexec : exec (runPendingMigrations dialect scripts) (migrationsStart recorded)
      (earlier ++ [.run goes]) = runPendingMigrations dialect scripts
        (exec (runPendingMigrations dialect scripts) (migrationsStart recorded) earlier)
        (.run goes) := exec_append ..
  rw [hexec] at hend ⊢
  constructor
  · intro hone a ha houtcome
    have hitem := hend.item_mem ha
    have hzero := (hcount a.item hitem).symm.trans (hone a.item hitem)
    rw [Nat.add_eq_right, List.countP_eq_zero] at hzero
    exact hzero a ha (by simp [houtcome])
  · intro hrecorded script hscript
    rw [hcount script hscript, Nat.add_eq_right, List.countP_eq_zero]
    intro a ha hmatch
    rw [Bool.and_eq_true, decide_eq_true_eq, decide_eq_true_eq] at hmatch
    exact hrecorded a ha hmatch.2

/-- **In order of their numbers**, migrations are lawful in a run exactly if the run
does not get to the end or takes the record of everything that it executes. -/
theorem migrationsLawful_iff_of_numbered
    (hsorted : scripts.Pairwise (MigrationScript.version · < MigrationScript.version ·))
    (hnumbered : NumberedInOrder dialect (pending MigrationScript.version scripts recorded))
    (starts : List MigrationStart) :
    MigrationsLawful dialect scripts recorded starts ↔
      (GetsThrough dialect scripts recorded starts →
        Meets (runPendingMigrations dialect scripts) (RecordsTaken dialect scripts)
          (migrationsStart recorded) starts) := by
  constructor
  · rintro h ⟨earlier, goes, rfl, hall⟩
    obtain ⟨done, todo, hprogress⟩ := exec_progress dialect recorded hsorted earlier
    obtain ⟨versions, hok⟩ := (runPendingMigrations_ok_iff hsorted hprogress goes).mpr hall
    refine (executed_once_iff hsorted hall).mp (h.complete earlier goes versions rfl ?_)
    rw [exec_append]
    exact hok
  intro htaken
  obtain ⟨done, todo, h⟩ := exec_progress dialect recorded hsorted starts
  refine ⟨?_, ⟨?_, h.once⟩, ?_, ?_⟩
  · refine (List.pairwise_iff_forall_sublist).mpr fun {a b} hsub => ?_
    have ha : a ∈ _ := hsub.subset (List.mem_cons_self ..)
    have hb : b ∈ _ := hsub.subset (List.mem_cons_of_mem _ (List.mem_singleton_self _))
    -- the log is in the order of the texts, which is that of the numbers
    rcases List.pairwise_iff_forall_sublist.mp h.ordered hsub with heq | hlt
    · rw [heq]
    · have hitem : a.item ∈ done ∨ a.item ∈ todo.head? := by
        rcases h.attempted a ha with hdone | ⟨-, hhead⟩
        · exact Or.inl hdone
        · exact Or.inr hhead
      exact (number_lt hsorted h hnumbered hitem (h.item_mem hb) hlt).le
  · intro a ha
    simpa only [decide_eq_true_eq] using (List.mem_filter.mp (h.item_mem ha)).2
  · have hall : Meets (runPendingMigrations dialect scripts) (fun _ _ => True)
        (migrationsStart recorded) starts := meets_of_forall (fun _ _ => trivial) _ _
    refine hall.imp_of_invariant
      (P := fun s => ∃ done todo, MigrationProgress dialect scripts recorded done todo s)
      ?_ ?_ ⟨[], _, Progress.start _ _ _⟩
    · rintro s start ⟨done, todo, hs⟩ -
      cases start with
      | lockRefused => exact ⟨done, todo, hs⟩
      | run goes =>
          obtain ⟨more, rest, -, hnext, -⟩ := runPendingMigrations_progress hsorted hs goes
          exact ⟨_, _, hnext⟩
    · rintro s start ⟨done, todo, hs⟩ -
      exact failsInOrder hsorted hs hnumbered start
  · rintro earlier goes versions rfl hok
    obtain ⟨done', todo', h'⟩ := exec_progress dialect recorded hsorted earlier
    rw [exec_append] at hok
    have hall := (runPendingMigrations_ok_iff hsorted h' goes).mp ⟨versions, hok⟩
    exact (executed_once_iff hsorted hall).mpr (htaken ⟨earlier, goes, rfl, hall⟩)

/-- **Necessity**: a script that a start can get to, and whose number is greater
than that of one after it, makes a start fail out of order when it fails. -/
theorem numbered_of_migrationsLawful
    (hsorted : scripts.Pairwise (MigrationScript.version · < MigrationScript.version ·))
    (hnumbers : (scripts.map MigrationScript.number).Nodup)
    (h : ∀ starts, Meets (runPendingMigrations dialect scripts) (RecordsTaken dialect scripts)
      (migrationsStart recorded) starts → MigrationsLawful dialect scripts recorded starts) :
    NumberedInOrder dialect (pending MigrationScript.version scripts recorded) := by
  intro a ha hreached b hb hlt
  let goes : MigrationScript → Outcome := fun script => if script = a then .failed else .recorded
  have hstart : MigrationProgress dialect scripts recorded []
      (pending MigrationScript.version scripts recorded) (migrationsStart recorded) :=
    Progress.start _ _ _
  obtain ⟨more, rest, hp, -, hresult⟩ := runPendingMigrations_progress hsorted hstart goes
  have hwaiting := pending_sorted recorded hsorted
  -- nothing before the script stops the start
  have hstop : rest.head? = some a := by
    refine hp.head?_eq_some hwaiting ha ?_ fun x hx hxa => ?_
    · simp [applyScript, goes]
    · have hrecordable := hreached x hx hxa
      have hne : x ≠ a := by
        rintro rfl
        exact lt_irrefl _ hxa
      simp [applyScript, goes, hne, hrecordable]
  have htaken : RecordsTaken dialect scripts (migrationsStart recorded) (.run goes) := by
    rw [recordsTaken_iff hsorted hstart hp, hstop]
    rintro script ⟨⟩
    simp [applyScript, goes]
  have hfailing := (h [.run goes] ⟨htaken, trivial⟩).failing.1
  rw [hstop] at hresult
  have hb' := ((hfailing a hresult).2 b hb).not
  have hbmore : b.version ∉ (runPendingMigrations dialect scripts (migrationsStart recorded)
      (.run goes)).journal.recorded := by
    rw [hp.recorded, List.mem_append, not_or]
    constructor
    · show b.version ∉ recorded
      simpa only [decide_eq_true_eq] using (List.mem_filter.mp hb).2
    · intro hmem
      obtain ⟨x, hx, hversion⟩ := List.mem_map.mp hmem
      have hxa := hp.lt hwaiting x hx a (List.mem_of_mem_head? hstop)
      exact lt_asymm hlt (hversion ▸ hxa)
  have hle : a.number ≤ b.number := Nat.not_lt.mp (hb'.mp hbmore)
  refine lt_of_le_of_ne hle fun heq => ?_
  have hsame := List.inj_on_of_nodup_map hnumbers (List.mem_of_mem_filter ha)
    (List.mem_of_mem_filter hb) heq
  rw [hsame] at hlt
  exact lt_irrefl _ hlt

/-- **Migrations.** Whatever files with different numbers there are, they are
found; and on any dialect, and from any recorded versions, where the numbers of the
pending scripts follow the texts of their versions, a run of starts is lawful exactly
if it does not get to the end or each of its starts takes the record of what it
executes. Where they do not, some run that takes all its records is not lawful. -/
theorem migrations_lawful_iff (files : List (String × String))
    (h : ((migrationScripts files).map MigrationScript.number).Nodup) :
    ∃ scripts, discoverMigrationScripts files = .ok scripts ∧
      ∀ dialect recorded,
        (NumberedInOrder dialect (pending MigrationScript.version scripts recorded) →
          ∀ starts, MigrationsLawful dialect scripts recorded starts ↔
            (GetsThrough dialect scripts recorded starts →
              Meets (runPendingMigrations dialect scripts) (RecordsTaken dialect scripts)
                (migrationsStart recorded) starts)) ∧
        ((∀ starts, Meets (runPendingMigrations dialect scripts) (RecordsTaken dialect scripts)
            (migrationsStart recorded) starts →
            MigrationsLawful dialect scripts recorded starts) →
          NumberedInOrder dialect (pending MigrationScript.version scripts recorded)) := by
  obtain ⟨scripts, hdiscovered, hnumbers, hsorted⟩ := discoverMigrationScripts_ok h
  refine ⟨scripts, hdiscovered, fun dialect recorded => ⟨?_, ?_⟩⟩
  · exact migrationsLawful_iff_of_numbered hsorted
  · exact numbered_of_migrationsLawful hsorted hnumbers

end

/-! ## Versions of three and four digits -/

section Sample

@[reducible] def asciiDigits : DecimalDigits where
  digit c := if c.isDigit then some (c.toNat - 48) else none

attribute [local instance] asciiDigits

def orderlyFiles : List (String × String) :=
  [("002_second.sql", "SELECT 2;"), ("001_first.sql", "SELECT 1;"), ("readme.sql", "")]

def orderlyScripts : List MigrationScript :=
  [⟨"001", "001_first.sql", "SELECT 1;"⟩, ⟨"002", "002_second.sql", "SELECT 2;"⟩]

/-- A start fails at the second script, and the next one goes through. -/
def orderlyStarts : List MigrationStart :=
  [.run fun script => if script.version = "002" then .failed else .recorded,
    .run fun _ => .recorded]

theorem migrations_lawful_sample :
    discoverMigrationScripts orderlyFiles = .ok orderlyScripts ∧
      MigrationsLawful .mysql orderlyScripts [] orderlyStarts := by
  obtain ⟨scripts, hdiscovered, hlawful⟩ := migrations_lawful_iff orderlyFiles (by decide +kernel)
  have hscripts : discoverMigrationScripts orderlyFiles = .ok orderlyScripts := by decide +kernel
  rw [hscripts] at hdiscovered
  cases hdiscovered
  refine ⟨hscripts, ((hlawful .mysql []).1 ?_ orderlyStarts).mpr fun _ => ⟨?_, ?_, trivial⟩⟩
  · have hnumbers : ∀ a ∈ orderlyScripts, ∀ b ∈ orderlyScripts, a.version < b.version →
        a.number < b.number := by decide +kernel
    intro a ha _ b hb
    exact hnumbers a (List.mem_of_mem_filter ha) b (List.mem_of_mem_filter hb)
  · intro script hscript _
    revert script
    decide +kernel
  · intro script hscript _
    revert script
    decide +kernel

/-- **A script is executed again** where the record of its execution was lost. -/
theorem unrecorded_script_runs_twice :
    ¬ MigrationsLawful .mysql orderlyScripts []
      [.run fun _ => .unrecorded, .run fun _ => .recorded] := by
  intro h
  have hok : (exec (runPendingMigrations .mysql orderlyScripts) (migrationsStart [])
      [.run fun _ => .unrecorded, .run fun _ => .recorded]).result = .ok ["001", "002"] := by
    decide +kernel
  have hone := h.complete [.run fun _ => .unrecorded] (fun _ => .recorded) _ rfl hok
    ⟨"001", "001_first.sql", "SELECT 1;"⟩ (by decide +kernel)
  revert hone
  decide +kernel

def lateFiles : List (String × String) :=
  [("999_last_of_three.sql", "SELECT 999;"), ("1000_first_of_four.sql", "SELECT 1000;")]

def lateScripts : List MigrationScript :=
  [⟨"1000", "1000_first_of_four.sql", "SELECT 1000;"⟩,
    ⟨"999", "999_last_of_three.sql", "SELECT 999;"⟩]

/-- **The version 1000 runs before 999**, as the texts are ordered. -/
theorem four_digits_run_first :
    ((migrationScripts lateFiles).map MigrationScript.number).Nodup ∧
      discoverMigrationScripts lateFiles = .ok lateScripts ∧
      ¬ MigrationsLawful .mysql lateScripts [] [.run fun _ => .recorded] := by
  refine ⟨by decide +kernel, by decide +kernel, ?_⟩
  intro h
  have hlog : (exec (runPendingMigrations .mysql lateScripts) (migrationsStart [])
      [.run fun _ => .recorded]).journal.log = lateScripts.map (Attempt.mk · .recorded) := by
    decide +kernel
  have hordered := h.ordered
  rw [hlog] at hordered
  revert hordered
  decide +kernel

end Sample

end MailboxService
