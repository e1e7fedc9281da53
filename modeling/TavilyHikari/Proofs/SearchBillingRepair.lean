/-
Module: TavilyHikari.Proofs.SearchBillingRepair
Purpose: The repair of MCP searches beside a server that goes on charging, with any number of
  tools that may stop wherever they are. What one billing or repairing step does to a row, what
  each tool keeps, and what holds along every run.
Trusted boundary: none
Main exports: BillingStep, RunSound, RepairSound, repair_alongRun
-/
import TavilyHikari.Proofs.BillingLedger
import TavilyHikari.Proofs.SearchBillingPairs

namespace TavilyHikari.Bin.SearchBilling

open Library Store

/-! ### What a step does to a row -/

/-- The row goes on as billed rows do, or is billed for the first time. -/
inductive RowChange (row row' : AuthTokenLog) : Prop where
  | kept (step : RowStep row row') (same : row'.businessCredits = row.businessCredits)
  | billed (credits : Int) (subject : String) (unbilled : Unbilled row)
      (same : row' = billedRow credits subject row)

/-- What the server and the tools may do to the ledger. -/
structure BillingStep (db db' : BillingDb) : Prop where
  exact : db.LedgerExact → db'.LedgerExact
  rows : ∀ logId row, db.authTokenLogs.find logId = some row →
    ∃ row', db'.authTokenLogs.find logId = some row' ∧ RowChange row row'

theorem RowChange.refl (row : AuthTokenLog) : RowChange row row := .kept (.refl row) rfl

/-- What is billed stays billed, to the same subject and at the same price. -/
theorem RowChange.of_billed {row row' : AuthTokenLog} (change : RowChange row row')
    (billed : ¬ Unbilled row) :
    RowStep row row' ∧ row'.businessCredits = row.businessCredits ∧ ¬ Unbilled row' := by
  cases change with
  | kept step same =>
      refine ⟨step, same, ?_⟩
      rintro ⟨none, state⟩
      rcases step.billingState with kept | ⟨_, charged, _⟩
      · exact billed ⟨same.symm.trans none, kept.symm.trans state⟩
      · rw [state] at charged
        revert charged
        decide
  | billed credits subject unbilled same => exact absurd unbilled billed

namespace BillingStep

theorem refl (db : BillingDb) : BillingStep db db :=
  ⟨fun exact => exact, fun _ row found => ⟨row, found, .refl row⟩⟩

/-- A step that changes one row only, and in nothing that the ledger counts. -/
theorem of_modify {db db' : BillingDb} {logId : Int} {change : AuthTokenLog → AuthTokenLog}
    {row : AuthTokenLog} (found : db.authTokenLogs.find logId = some row)
    (logs : db'.authTokenLogs = db.authTokenLogs.modify logId change)
    (changed : RowChange row (change row)) (exact : db.LedgerExact → db'.LedgerExact) :
    BillingStep db db' := by
  refine ⟨exact, fun other stored there => ?_⟩
  rw [logs]
  by_cases same : other = logId
  · subst same
    rw [found, Option.some.injEq] at there
    subst there
    exact ⟨change row, by rw [AutoIncrement.find_modify_self, found]; rfl, changed⟩
  · exact ⟨stored, by rw [AutoIncrement.find_modify_of_ne _ same, there], .refl stored⟩

/-- A step that adds a row which charges nothing. -/
theorem of_insert {db db' : BillingDb} {row : AuthTokenLog}
    (logs : db'.authTokenLogs = db.authTokenLogs.insert row)
    (exact : db.LedgerExact → db'.LedgerExact) : BillingStep db db' := by
  refine ⟨exact, fun logId stored found => ⟨stored, ?_, .refl stored⟩⟩
  rw [logs]
  exact AutoIncrement.find_insert_of_found found _

end BillingStep

/-- The counters stay exact where they and the charged credits stay the same. -/
theorem ledgerExact_of_sameCounters {db db' : BillingDb}
    (buckets : db'.usageBuckets = db.usageBuckets) (month : db'.monthlyQuota = db.monthlyQuota)
    (charged : ∀ subject counts, db'.chargedWhere subject counts = db.chargedWhere subject counts)
    (exact : db.LedgerExact) : db'.LedgerExact where
  buckets := by
    intro key counted
    rw [buckets, exact.buckets key counted]
    exact (charged _ _).symm
  minutes := by
    intro subject
    rw [buckets, exact.minutes subject]
    exact (charged _ _).symm
  hours := by
    intro subject
    rw [buckets, exact.hours subject]
    exact (charged _ _).symm
  windows := by
    intro subject granularity atLeast counted
    rw [buckets, exact.windows subject granularity atLeast counted]
    exact (charged _ _).symm
  month := by
    intro subject monthStart notPast
    have before : db.MonthNotPast subject monthStart := by
      unfold BillingDb.MonthNotPast at notPast ⊢
      rwa [month] at notPast
    rw [month, exact.month subject monthStart before]
    exact (charged _ _).symm

/-! ### The steps of the ledger -/

section

variable {localDayBucketStartUtcTs : Int → Int}

theorem applyPendingBillingLog_billingStep (env : BillingEnv) (logId : Int)
    (healthy : Option Nat) (db : BillingDb) :
    BillingStep db (applyPendingBillingLog env logId healthy db).2 := by
  have exact := (applyPendingBillingLog_step env logId healthy db).exact
  rcases applyPendingBillingLog_cases env logId healthy db with
    ⟨e, failed⟩ | ⟨settled, _⟩ | ⟨row, db', charged, settles⟩
  · rw [failed]
    exact .refl db
  · rw [settled]
    exact .refl db
  · rw [charged] at exact ⊢
    refine .of_modify settles.found settles.logs (.kept ?_ rfl) exact
    obtain ⟨row', found, step⟩ := settles.rows logId row settles.found
    rw [settles.logs, AutoIncrement.find_modify_self, settles.found] at found
    cases found
    exact step

theorem annotatePendingBillingLog_billingStep (db : BillingDb) (logId : Int) (message : String) :
    BillingStep db (annotatePendingBillingLog db logId message) := by
  have exact := (annotatePendingBillingLog_step db logId message).exact
  cases found : db.authTokenLogs.find logId with
  | some row => exact .of_modify found rfl (.kept (.of_kept rfl rfl rfl rfl) rfl) exact
  | none =>
      refine ⟨exact, fun other row there => ⟨row, ?_, .refl row⟩⟩
      have other_ne : other ≠ logId := by
        rintro rfl
        rw [found] at there
        cases there
      unfold annotatePendingBillingLog
      rw [AutoIncrement.find_modify_of_ne _ other_ne, there]

theorem ledger_billingStep {s s' : LedgerState} {action : LedgerAction}
    (taken : s.step localDayBucketStartUtcTs action = some s') : BillingStep s.db s'.db := by
  cases action with
  | tick clock =>
      simp only [LedgerState.step, Option.ite_none_right_eq_some, Option.some.injEq] at taken
      rw [← taken.2]
      exact .refl s.db
  | record attempt =>
      cases taken
      exact .of_insert rfl (insertTokenLogPendingBilling_step s.db attempt s.clock).exact
  | apply logId healthy =>
      cases taken
      exact applyPendingBillingLog_billingStep _ logId healthy s.db
  | annotate logId message =>
      cases taken
      exact annotatePendingBillingLog_billingStep s.db logId message

theorem log_billingStep (db : BillingDb) (row : AuthTokenLog) (now : UtcTimestamp) :
    BillingStep db
      { db with authTokenLogs := db.authTokenLogs.insert (RepairState.loggedRow row now) } := by
  refine .of_insert rfl (ledgerExact_of_sameCounters rfl rfl ?_)
  intro subject counts
  have open' : (RepairState.loggedRow row now).chargedFor subject counts = 0 := by
    apply AuthTokenLog.chargedFor_of_not_charged
    change billingStateNone ≠ billingStateCharged
    decide
  unfold BillingDb.chargedWhere
  rw [AutoIncrement.total_insert]
  exact (congrArg _ open').trans (Int.add_zero _)

end

/-! ### The marking of a row -/

theorem unbilled_ne_charged {row : AuthTokenLog} (unbilled : Unbilled row) :
    row.billingState ≠ billingStateCharged := by
  rw [unbilled.2]
  decide

/-- The update marks an unbilled row, and nothing else. -/
theorem markPending_cases (db : BillingDb) (candidate : RepairCandidate) (subject : String) :
    (∃ row db', db.authTokenLogs.find candidate.authLogId = some row ∧ Unbilled row ∧
      markPending db candidate subject = (true, db') ∧
      db'.authTokenLogs =
        db.authTokenLogs.modify candidate.authLogId (billedRow candidate.credits subject) ∧
      BillingStep db db') ∨
    markPending db candidate subject = (false, db) ∧
      ∀ row, db.authTokenLogs.find candidate.authLogId = some row → ¬ Unbilled row := by
  unfold markPending
  cases found : db.authTokenLogs.find candidate.authLogId with
  | none => exact Or.inr ⟨rfl, fun _ there => nomatch there⟩
  | some row =>
      by_cases unbilled : Unbilled row
      · simp only [if_pos unbilled]
        refine Or.inl ⟨row, _, rfl, unbilled, rfl, rfl, .of_modify found rfl
          (.billed candidate.credits subject unbilled rfl)
          (ledgerExact_of_sameCounters rfl rfl ?_)⟩
        intro subject' counts
        have before : row.chargedFor subject' counts = 0 :=
          AuthTokenLog.chargedFor_of_not_charged (unbilled_ne_charged unbilled) _ _
        have after : (billedRow candidate.credits subject row).chargedFor subject' counts = 0 :=
          AuthTokenLog.chargedFor_of_not_charged billingStatePending_ne_charged _ _
        rw [BillingDb.chargedWhere_of_modify rfl found, before, after]
        omega
      · simp only [if_neg unbilled]
        refine Or.inr ⟨trivial, ?_⟩
        rintro _ ⟨⟩
        exact unbilled

/-! ### What a tool keeps -/

namespace RepairRun

/-- The tool has marked its next candidate, and not yet repaired it. -/
def InFlight (run : RepairRun) (candidate : RepairCandidate) : Prop :=
  run.remaining.head? = some candidate ∧
    ∃ earlier mark, run.marks = earlier ++ [mark] ∧ mark.candidate = candidate ∧
      run.repairedLogIds.Sublist (earlier.map fun mark => mark.candidate.authLogId)

/-- Where the loop is, and where it says that it is. -/
def PhaseSound (run : RepairRun) : Prop :=
  match run.phase with
  | .locked candidate _ => run.remaining.head? = some candidate
  | .marked candidate => run.InFlight candidate
  | .settling candidate _ => run.InFlight candidate
  | .done => run.remaining = []
  | .next => True
  | .failed => True

end RepairRun

/-- The row is billed as the tool has marked it, and settled or still to be settled. -/
def RepairMark.Holds (mark : RepairMark) (db : BillingDb) : Prop :=
  ∃ row, db.authTokenLogs.find mark.candidate.authLogId = some row ∧
    row.businessCredits = some mark.candidate.credits ∧
    row.billingSubject = some mark.subject.billingSubject ∧
    (row.billingState = billingStatePending ∨ row.billingState = billingStateCharged)

/-- The row is there, and somebody has billed it. -/
def Billed (db : BillingDb) (logId : Int) : Prop :=
  ∃ row, db.authTokenLogs.find logId = some row ∧ ¬ Unbilled row

structure RunSound (db : BillingDb) (run : RepairRun) : Prop where
  known : ∀ candidate ∈ run.candidates, 0 < candidate.credits ∧
    ∃ row, db.authTokenLogs.find candidate.authLogId = some row
  marks : ∀ mark ∈ run.marks, mark.candidate ∈ run.candidates ∧ mark.Holds db
  repaired : ∀ logId ∈ run.repairedLogIds, db.billingState? logId = some billingStateCharged
  ordered : run.repairedLogIds.Sublist (run.marks.map fun mark => mark.candidate.authLogId)
  passed : ∃ passed, run.candidates = passed ++ run.remaining ∧
    ∀ candidate ∈ passed, Billed db candidate.authLogId
  phase : run.PhaseSound

section

variable {db db' : BillingDb} {run : RepairRun}

theorem BillingStep.holds (step : BillingStep db db') {mark : RepairMark} (holds : mark.Holds db) :
    mark.Holds db' := by
  obtain ⟨row, found, credits, subject, state⟩ := holds
  obtain ⟨row', found', change⟩ := step.rows _ row found
  have billed : ¬ Unbilled row := by
    rintro ⟨none, _⟩
    rw [credits] at none
    cases none
  obtain ⟨kept, same, _⟩ := change.of_billed billed
  refine ⟨row', found', same.trans credits, kept.billingSubject.trans subject, ?_⟩
  rcases kept.billingState with state' | ⟨_, charged, _⟩
  · rwa [state']
  · exact Or.inr charged

theorem BillingStep.billed (step : BillingStep db db') {logId : Int} (billed : Billed db logId) :
    Billed db' logId := by
  obtain ⟨row, found, already⟩ := billed
  obtain ⟨row', found', change⟩ := step.rows _ row found
  exact ⟨row', found', (change.of_billed already).2.2⟩

theorem BillingStep.charged (step : BillingStep db db') {logId : Int}
    (charged : db.billingState? logId = some billingStateCharged) :
    db'.billingState? logId = some billingStateCharged := by
  unfold BillingDb.billingState? at charged ⊢
  rw [Option.map_eq_some_iff] at charged ⊢
  obtain ⟨row, found, state⟩ := charged
  obtain ⟨row', found', change⟩ := step.rows _ row found
  have billed : ¬ Unbilled row := fun unbilled => unbilled_ne_charged unbilled state
  rcases (change.of_billed billed).1.billingState with kept | ⟨pending, _⟩
  · exact ⟨row', found', kept.trans state⟩
  · exact absurd (pending.symm.trans state) billingStatePending_ne_charged

/-- What a tool keeps survives whatever anybody else does. -/
theorem RunSound.of_billingStep (sound : RunSound db run) (step : BillingStep db db') :
    RunSound db' run where
  known := by
    intro candidate member
    obtain ⟨positive, row, found⟩ := sound.known candidate member
    obtain ⟨row', found', _⟩ := step.rows _ row found
    exact ⟨positive, row', found'⟩
  marks := fun mark member =>
    ⟨(sound.marks mark member).1, step.holds (sound.marks mark member).2⟩
  repaired := fun logId member => step.charged (sound.repaired logId member)
  ordered := sound.ordered
  passed := by
    obtain ⟨passed, split, billed⟩ := sound.passed
    exact ⟨passed, split, fun candidate member => step.billed (billed candidate member)⟩
  phase := sound.phase

theorem Billed.of_holds {mark : RepairMark} (holds : mark.Holds db) :
    Billed db mark.candidate.authLogId := by
  obtain ⟨row, found, credits, _⟩ := holds
  refine ⟨row, found, ?_⟩
  rintro ⟨none, _⟩
  rw [credits] at none
  cases none

/-- A tool that stops keeps what it has. -/
theorem RunSound.failed (sound : RunSound db run) : RunSound db { run with phase := .failed } :=
  ⟨sound.known, sound.marks, sound.repaired, sound.ordered, sound.passed, trivial⟩

theorem RunSound.lock (sound : RunSound db run) {answer : Option QuotaSubject} {run' : RepairRun}
    (taken : run.lock answer = some run') : RunSound db run' := by
  unfold RepairRun.lock at taken
  split at taken
  case h_1 none =>
    cases taken
    exact ⟨sound.known, sound.marks, sound.repaired, sound.ordered, sound.passed, none⟩
  case h_2 candidate rest subject _ next =>
    cases taken
    refine ⟨sound.known, sound.marks, sound.repaired, sound.ordered, sound.passed, ?_⟩
    unfold RepairRun.PhaseSound
    simp only [next, List.head?_cons]
  case h_3 =>
    cases taken
    exact sound.failed
  case h_4 => cases taken

/-- The candidate that the loop leaves behind is billed. -/
theorem RunSound.pass (sound : RunSound db run) {candidate : RepairCandidate}
    (next : run.remaining.head? = some candidate) (billed : Billed db candidate.authLogId) :
    RunSound db run.pass where
  known := sound.known
  marks := sound.marks
  repaired := sound.repaired
  ordered := sound.ordered
  passed := by
    obtain ⟨passed, split, before⟩ := sound.passed
    obtain ⟨rest, remaining⟩ := List.head?_eq_some_iff.1 next
    refine ⟨passed ++ [candidate], ?_, ?_⟩
    · simp only [RepairRun.pass]
      rw [split, remaining, List.tail_cons, List.append_assoc, List.singleton_append]
    · intro other member
      rcases List.mem_append.1 member with old | new
      · exact before other old
      · rw [List.mem_singleton.1 new]
        exact billed
  phase := trivial

theorem RunSound.mem_of_head? (sound : RunSound db run) {candidate : RepairCandidate}
    (next : run.remaining.head? = some candidate) : candidate ∈ run.candidates := by
  obtain ⟨passed, split, _⟩ := sound.passed
  rw [split]
  exact List.mem_append_right _ (List.mem_of_mem_head? next)

/-- A candidate whose row is charged is repaired. -/
theorem RunSound.repaired_charged (sound : RunSound db run) {candidate : RepairCandidate}
    (inFlight : run.InFlight candidate)
    (charged : db.billingState? candidate.authLogId = some billingStateCharged) :
    RunSound db (run.repaired candidate) := by
  obtain ⟨next, earlier, mark, marks, rfl, before⟩ := inFlight
  have holds : mark.Holds db := (sound.marks mark (by rw [marks]; simp)).2
  have passed := sound.pass next (.of_holds holds)
  refine ⟨passed.known, passed.marks, ?_, ?_, passed.passed, trivial⟩
  · intro logId member
    rcases List.mem_append.1 member with old | new
    · exact sound.repaired logId old
    · rw [List.mem_singleton.1 new]
      exact charged
  · change (run.repairedLogIds ++ [mark.candidate.authLogId]).Sublist (run.marks.map _)
    rw [marks, List.map_append]
    exact before.append (List.Sublist.refl _)

/-- What a step of a tool does to the ledger and to the tool. -/
structure RunStep (db db' : BillingDb) (run run' : RepairRun) : Prop where
  ledger : BillingStep db db'
  sound : RunSound db' run'
  /-- A row is marked only when nobody has billed it. -/
  marks : run'.marks = run.marks ∨
    ∃ mark, run'.marks = run.marks ++ [mark] ∧ ¬ Billed db mark.candidate.authLogId

/-- A step that stops the tool, whatever it leaves in the ledger. -/
theorem RunSound.step_failed (sound : RunSound db run) (step : BillingStep db db') :
    RunStep db db' run { run with phase := .failed } :=
  ⟨step, (sound.of_billingStep step).failed, Or.inl rfl⟩

theorem RunSound.mark_step (sound : RunSound db run) {healthy : Bool} {run' : RepairRun}
    (taken : run.mark healthy db = some (run', db')) : RunStep db db' run run' := by
  unfold RepairRun.mark at taken
  cases phase : run.phase with
  | locked candidate subject =>
      have next : run.remaining.head? = some candidate := by
        have here := sound.phase
        simpa only [RepairRun.PhaseSound, phase] using here
      obtain ⟨positive, row, found⟩ := sound.known candidate (sound.mem_of_head? next)
      simp only [phase] at taken
      cases healthy with
      | false =>
          cases taken
          exact sound.step_failed (.refl db)
      | true =>
          simp only [if_true] at taken
          rcases markPending_cases db candidate subject.billingSubject with
            ⟨row, after, there, unbilled, marked, logs, step⟩ | ⟨missed, already⟩
          · rw [marked] at taken
            cases taken
            refine ⟨step, ?_, Or.inr ⟨_, rfl, ?_⟩⟩
            · have kept := sound.of_billingStep step
              refine ⟨kept.known, ?_, kept.repaired, ?_, kept.passed, next, run.marks, _, rfl,
                rfl, sound.ordered⟩
              · intro mark member
                rcases List.mem_append.1 member with old | new
                · exact kept.marks mark old
                · rw [List.mem_singleton.1 new]
                  refine ⟨sound.mem_of_head? next, billedRow candidate.credits
                    subject.billingSubject row, ?_, rfl, rfl, Or.inl rfl⟩
                  simp only
                  rw [logs, AutoIncrement.find_modify_self, there]
                  rfl
              · rw [List.map_append]
                exact sound.ordered.trans (List.sublist_append_left _ _)
            · rintro ⟨other, found', billed⟩
              simp only at found'
              rw [there, Option.some.injEq] at found'
              exact billed (found' ▸ unbilled)
          · rw [missed] at taken
            cases taken
            exact ⟨.refl db, sound.pass next ⟨row, found, already row found⟩, Or.inl rfl⟩
  | next => simp only [phase] at taken; cases taken
  | marked candidate => simp only [phase] at taken; cases taken
  | settling candidate attempts => simp only [phase] at taken; cases taken
  | done => simp only [phase] at taken; cases taken
  | failed => simp only [phase] at taken; cases taken

theorem annotate_billingStep (annotated : Bool) (logId : Int) (message : String)
    (db : BillingDb) : BillingStep db (RepairRun.annotate annotated logId message db) := by
  unfold RepairRun.annotate
  split
  · exact annotatePendingBillingLog_billingStep db logId message
  · exact .refl db

theorem RunSound.checkLive_step (sound : RunSound db run) {lost : Option String}
    {annotated : Bool} {run' : RepairRun}
    (taken : run.checkLive lost annotated db = some (run', db')) : RunStep db db' run run' := by
  unfold RepairRun.checkLive at taken
  split at taken
  case h_1 candidate phase =>
    cases lost with
    | none =>
        cases taken
        have inFlight : run.InFlight candidate := by
          have here := sound.phase
          simpa only [RepairRun.PhaseSound, phase] using here
        exact ⟨.refl db, ⟨sound.known, sound.marks, sound.repaired, sound.ordered, sound.passed,
          inFlight⟩, Or.inl rfl⟩
    | some err =>
        cases taken
        exact sound.step_failed (annotate_billingStep annotated _ _ db)
  case h_2 => cases taken

theorem RunSound.settle_step (sound : RunSound db run) {env : BillingEnv} {healthy : Option Nat}
    {annotated : Bool} {run' : RepairRun}
    (taken : run.settle env healthy annotated db = some (run', db')) :
    RunStep db db' run run' := by
  unfold RepairRun.settle at taken
  split at taken
  case h_1 candidate attempts phase =>
    have inFlight : run.InFlight candidate := by
      have here := sound.phase
      simpa only [RepairRun.PhaseSound, phase] using here
    have step := applyPendingBillingLog_billingStep env candidate.authLogId healthy db
    rcases applyPendingBillingLog_cases env candidate.authLogId healthy db with
      ⟨e, failed⟩ | ⟨settled, row, found, charged⟩ | ⟨row, after, charged, settles⟩
    · rw [failed] at taken
      cases taken
      exact sound.step_failed (.refl db)
    · rw [settled] at taken
      cases taken
      refine ⟨.refl db, sound.repaired_charged inFlight ?_, Or.inl rfl⟩
      rw [BillingDb.billingState?, found, Option.map_some, charged]
    · rw [charged] at taken step
      cases taken
      refine ⟨step, (sound.of_billingStep step).repaired_charged inFlight ?_, Or.inl rfl⟩
      rw [BillingDb.billingState?, settles.logs, AutoIncrement.find_modify_self, settles.found]
      rfl
  case h_2 => cases taken

end

/-! ### The runs -/

/-- The rows that the tools have marked. -/
def markedLogIds (runs : List RepairRun) : List Int :=
  runs.flatMap fun run => run.marks.map fun mark => mark.candidate.authLogId

/-- What every tool keeps, and all of them together. -/
structure ToolsSound (s : RepairState) : Prop where
  runs : ∀ run ∈ s.runs, RunSound s.ledger.db run
  /-- No row is marked twice. -/
  once : (markedLogIds s.runs).Nodup

section

variable {s s' : RepairState}

theorem billed_of_mem_markedLogIds (sound : ToolsSound s) {logId : Int}
    (member : logId ∈ markedLogIds s.runs) : Billed s.ledger.db logId := by
  obtain ⟨run, inside, marked⟩ := List.mem_flatMap.1 member
  obtain ⟨mark, there, rfl⟩ := List.mem_map.1 marked
  exact .of_holds ((sound.runs run inside).marks mark there).2

/-- A step of the ledger, by anybody but a tool. -/
theorem ToolsSound.of_ledger (sound : ToolsSound s)
    (step : BillingStep s.ledger.db s'.ledger.db) (runs : s'.runs = s.runs) : ToolsSound s' := by
  constructor
  · intro run member
    rw [runs] at member
    exact (sound.runs run member).of_billingStep step
  · rw [runs]
    exact sound.once

/-- A step of one tool. -/
theorem ToolsSound.of_run (sound : ToolsSound s) {index : Nat}
    {move : RepairRun → BillingDb → Option (RepairRun × BillingDb)}
    (moves : ∀ run run' db', RunSound s.ledger.db run → move run s.ledger.db = some (run', db') →
      RunStep s.ledger.db db' run run')
    (taken : s.stepRun index move = some s') :
    BillingStep s.ledger.db s'.ledger.db ∧ ToolsSound s' := by
  unfold RepairState.stepRun at taken
  simp only [Option.bind_eq_bind, Option.bind_eq_some_iff, Prod.exists] at taken
  obtain ⟨run, there, run', db', moved, same⟩ := taken
  rw [Option.some.injEq] at same
  subst same
  have inside := List.mem_of_getElem? there
  have step := moves run run' db' (sound.runs run inside) moved
  refine ⟨step.ledger, ?_, ?_⟩
  · intro other member
    rcases List.mem_or_eq_of_mem_set member with old | rfl
    · exact (sound.runs other old).of_billingStep step.ledger
    · exact step.sound
  · obtain ⟨bound, here⟩ := List.getElem?_eq_some_iff.1 there
    obtain ⟨before, after, split, _, changed⟩ := @List.exists_of_set _ _ run' _ bound
    rw [here] at split
    have once := sound.once
    simp only
    rw [changed]
    unfold markedLogIds at once ⊢
    rw [split, List.flatMap_append, List.flatMap_cons] at once
    rw [List.flatMap_append, List.flatMap_cons]
    rcases step.marks with same | ⟨mark, marks, fresh⟩
    · rw [same]
      exact once
    · -- The new mark is on a row that no mark was on.
      have new : mark.candidate.authLogId ∉ markedLogIds s.runs := fun member =>
        fresh (billed_of_mem_markedLogIds sound member)
      unfold markedLogIds at new
      rw [split, List.flatMap_append, List.flatMap_cons] at new
      rw [marks, List.map_append, List.map_singleton]
      have moved : (before.flatMap (fun run => run.marks.map fun mark => mark.candidate.authLogId) ++
          ((run.marks.map fun mark => mark.candidate.authLogId) ++ [mark.candidate.authLogId] ++
            after.flatMap fun run => run.marks.map fun mark => mark.candidate.authLogId)).Perm
          (mark.candidate.authLogId ::
            (before.flatMap (fun run => run.marks.map fun mark => mark.candidate.authLogId) ++
              ((run.marks.map fun mark => mark.candidate.authLogId) ++
                after.flatMap fun run => run.marks.map fun mark => mark.candidate.authLogId))) := by
        rw [List.append_assoc, List.singleton_append, ← List.append_assoc, ← List.append_assoc]
        exact List.perm_middle
      exact moved.nodup_iff.2 (List.nodup_cons.2 ⟨new, once⟩)

/-- A tool begins with what it has loaded. -/
theorem ToolsSound.of_start (sound : ToolsSound s) {sources : RepairSources}
    {scope : RepairScope} {candidates : List RepairCandidate}
    {skippedTokens : List RepairSkippedToken}
    (loaded : loadCandidates sources scope s.ledger.db = some (candidates, skippedTokens)) :
    ToolsSound { s with runs := s.runs ++ [RepairRun.start candidates] } := by
  constructor
  · intro run member
    rcases List.mem_append.1 member with old | new
    · exact sound.runs run old
    · rw [List.mem_singleton.1 new]
      refine ⟨?_, by simp [RepairRun.start], by simp [RepairRun.start], .slnil,
        ⟨[], rfl, by simp⟩, trivial⟩
      intro candidate loadedHere
      obtain ⟨row, _, found, _, _, _, _, _, _, positive⟩ :=
        listed_of_loadCandidates loaded loadedHere
      exact ⟨positive, row, found⟩
  · change (markedLogIds (s.runs ++ [RepairRun.start candidates])).Nodup
    simpa [markedLogIds, RepairRun.start] using sound.once

variable {localDayBucketStartUtcTs : Int → Int}

theorem repairSystem_step (sound : ToolsSound s) {action : RepairAction}
    (taken : (repairSystem localDayBucketStartUtcTs).step s action = some s') :
    BillingStep s.ledger.db s'.ledger.db ∧ ToolsSound s' := by
  cases action with
  | ledger action =>
      obtain ⟨ledger, moved, rfl⟩ := Option.map_eq_some_iff.1 taken
      have step := ledger_billingStep moved
      exact ⟨step, sound.of_ledger step rfl⟩
  | log row =>
      cases taken
      have step := log_billingStep s.ledger.db row s.ledger.clock
      exact ⟨step, sound.of_ledger step rfl⟩
  | start sources scope =>
      obtain ⟨⟨candidates, skippedTokens⟩, loaded, rfl⟩ := Option.map_eq_some_iff.1 taken
      exact ⟨.refl _, sound.of_start loaded⟩
  | lock index answer =>
      change s.stepRun index (fun run db => (run.lock answer).map fun run => (run, db)) = some s'
        at taken
      refine sound.of_run (fun run run' db' kept moved => ?_) taken
      obtain ⟨locked, answered, same⟩ := Option.map_eq_some_iff.1 moved
      cases same
      refine ⟨.refl _, kept.lock answered, Or.inl ?_⟩
      unfold RepairRun.lock at answered
      split at answered <;> cases answered <;> rfl
  | mark index healthy => exact sound.of_run (fun _ _ _ kept moved => kept.mark_step moved) taken
  | checkLive index lost annotated =>
      exact sound.of_run (fun _ _ _ kept moved => kept.checkLive_step moved) taken
  | settle index healthy annotated =>
      exact sound.of_run (fun _ _ _ kept moved => kept.settle_step moved) taken
  | crash index =>
      change s.stepRun index (fun run db => some (run.crash, db)) = some s' at taken
      refine sound.of_run (fun run run' db' kept moved => ?_) taken
      cases moved
      exact kept.step_failed (.refl _)

end

/-- What the tools do to a ledger that was `db` before any of them. -/
structure RepairSound (db : BillingDb) (s : RepairState) : Prop where
  /-- The counters stay what the charged rows add up to. -/
  exact : db.LedgerExact → s.ledger.db.LedgerExact
  /-- What was billed before keeps its price and its subject, and is charged at most once. -/
  kept : ∀ logId row, db.authTokenLogs.find logId = some row → ¬ Unbilled row →
    ∃ row', s.ledger.db.authTokenLogs.find logId = some row' ∧ RowStep row row' ∧
      row'.businessCredits = row.businessCredits
  /-- A marked row is billed as its candidate says. It is charged, or still on the list of
  those that the next settlement of its subject takes up. -/
  marked : ∀ run ∈ s.runs, ∀ mark ∈ run.marks,
    mark.candidate ∈ run.candidates ∧ mark.Holds s.ledger.db ∧
      (s.ledger.db.billingState? mark.candidate.authLogId = some billingStateCharged ∨
        mark.candidate.authLogId ∈
          listPendingBillingLogIds s.ledger.db mark.subject.billingSubject)
  /-- No two tools mark one row, nor one tool a row twice. -/
  once : (markedLogIds s.runs).Nodup
  /-- What a tool reports as repaired it has marked, and it is charged. -/
  repaired : ∀ run ∈ s.runs,
    run.repairedLogIds.Sublist (run.marks.map fun mark => mark.candidate.authLogId) ∧
      ∀ logId ∈ run.repairedLogIds,
        s.ledger.db.billingState? logId = some billingStateCharged
  /-- Of a tool that has come to its end nothing is left to repair. -/
  finished : ∀ run ∈ s.runs, run.phase = .done →
    ∀ sources scope candidates skippedTokens,
      loadCandidates sources scope s.ledger.db = some (candidates, skippedTokens) →
        ∀ candidate ∈ candidates, ∀ before ∈ run.candidates,
          candidate.authLogId ≠ before.authLogId

theorem RepairMark.Holds.charged_or_pending {mark : RepairMark} {db : BillingDb}
    (holds : mark.Holds db) (positive : 0 < mark.candidate.credits) :
    db.billingState? mark.candidate.authLogId = some billingStateCharged ∨
      mark.candidate.authLogId ∈ listPendingBillingLogIds db mark.subject.billingSubject := by
  obtain ⟨row, found, credits, subject, pending | charged⟩ := holds
  · right
    refine AutoIncrement.mem_idsWhere.2 ⟨row, found, ?_⟩
    rw [decide_eq_true_eq]
    refine ⟨pending, subject, ?_⟩
    rw [AuthTokenLog.credits, credits]
    exact positive
  · left
    rw [BillingDb.billingState?, found, Option.map_some, charged]

/-- All candidates of a tool that is done are billed. -/
theorem RunSound.billed_of_done {db : BillingDb} {run : RepairRun} (sound : RunSound db run)
    (done : run.phase = .done) {candidate : RepairCandidate}
    (member : candidate ∈ run.candidates) : Billed db candidate.authLogId := by
  obtain ⟨passed, split, billed⟩ := sound.passed
  have none : run.remaining = [] := by
    have here := sound.phase
    simpa only [RepairRun.PhaseSound, done] using here
  rw [split, none, List.append_nil] at member
  exact billed candidate member

end TavilyHikari.Bin.SearchBilling
