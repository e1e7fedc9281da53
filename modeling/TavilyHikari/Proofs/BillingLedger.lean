/-
Module: TavilyHikari.Proofs.BillingLedger
Purpose: The pending-billing ledger charges exactly once. Every step of anybody
  keeps the counters and the charged rows of the log equally far apart, and takes
  a row forward only.
Trusted boundary: none
Main exports: LedgerStep, ledgerSystem_step, pendingBilling_charges_exactly_once
-/
import TavilyHikari.Proofs.PendingBilling
import TavilyHikari.Store.BillingLedgerSystem

namespace TavilyHikari.Store

open Library

/-! ### The charged credits of the log -/

namespace AuthTokenLog

/-- What the row adds to the charged credits that `counts` selects. -/
def chargedFor (row : AuthTokenLog) (subject : QuotaSubject) (counts : Int → Bool) : Int :=
  if row.ChargedTo subject ∧ counts row.createdAt.secs then row.credits else 0

theorem chargedFor_of_not_charged {row : AuthTokenLog}
    (open' : row.billingState ≠ billingStateCharged) (subject : QuotaSubject)
    (counts : Int → Bool) : row.chargedFor subject counts = 0 := by
  unfold chargedFor
  rw [if_neg]
  rintro ⟨charged, _⟩
  exact open' charged.1

theorem chargedFor_of_free {row : AuthTokenLog} (free : row.credits ≤ 0)
    (subject : QuotaSubject) (counts : Int → Bool) : row.chargedFor subject counts = 0 := by
  unfold chargedFor
  rw [if_neg]
  rintro ⟨⟨_, costs, _⟩, _⟩
  omega

/-- A row that has just been charged counts for its own subject. -/
theorem chargedFor_charged {row : AuthTokenLog} {named : QuotaSubject}
    (costs : 0 < row.credits) (owner : row.billingSubject = some named.billingSubject)
    (subject : QuotaSubject) (counts : Int → Bool) :
    row.charged.chargedFor subject counts =
      if named = subject ∧ counts row.createdAt.secs then row.credits else 0 := by
  have same : some named.billingSubject = some subject.billingSubject ↔ named = subject := by
    rw [Option.some.injEq]
    exact QuotaSubject.billingSubject_injective.eq_iff
  simp only [chargedFor, ChargedTo, charged_billingState, charged_credits,
    charged_billingSubject, charged_createdAt, owner, costs, same, true_and]

end AuthTokenLog

theorem billingStatePending_ne_charged : billingStatePending ≠ billingStateCharged := by
  decide

namespace BillingDb

theorem chargedWhere_of_logs {db db' : BillingDb}
    (same : db'.authTokenLogs = db.authTokenLogs) (subject : QuotaSubject)
    (counts : Int → Bool) : db'.chargedWhere subject counts = db.chargedWhere subject counts := by
  simp only [chargedWhere, same]

/-- What changing one row does to the charged credits. -/
theorem chargedWhere_of_modify {db db' : BillingDb} {logId : Int}
    {change : AuthTokenLog → AuthTokenLog} {row : AuthTokenLog}
    (changed : db'.authTokenLogs = db.authTokenLogs.modify logId change)
    (found : db.authTokenLogs.find logId = some row) (subject : QuotaSubject)
    (counts : Int → Bool) :
    db'.chargedWhere subject counts =
      db.chargedWhere subject counts +
        ((change row).chargedFor subject counts - row.chargedFor subject counts) := by
  unfold chargedWhere
  rw [changed, AutoIncrement.total_modify, found]
  rfl

end BillingDb

/-! ### What a step may do -/

/-- What may become of a row: it keeps what it charges and to whom, and goes from
pending to charged only, with a subject when it costs anything. -/
structure RowStep (row row' : AuthTokenLog) : Prop where
  credits : row'.credits = row.credits
  billingSubject : row'.billingSubject = row.billingSubject
  createdAt : row'.createdAt = row.createdAt
  billingState : row'.billingState = row.billingState ∨
    row.billingState = billingStatePending ∧ row'.billingState = billingStateCharged ∧
      (0 < row.credits → ∃ subject : QuotaSubject,
        row.billingSubject = some subject.billingSubject)

/-- A row that differs in nothing the ledger looks at. -/
theorem RowStep.of_kept {row row' : AuthTokenLog} (credits : row'.credits = row.credits)
    (billingSubject : row'.billingSubject = row.billingSubject)
    (createdAt : row'.createdAt = row.createdAt)
    (billingState : row'.billingState = row.billingState) : RowStep row row' :=
  ⟨credits, billingSubject, createdAt, Or.inl billingState⟩

theorem RowStep.refl (row : AuthTokenLog) : RowStep row row := .of_kept rfl rfl rfl rfl

theorem RowStep.trans {row row' row'' : AuthTokenLog} (first : RowStep row row')
    (second : RowStep row' row'') : RowStep row row'' where
  credits := second.credits.trans first.credits
  billingSubject := second.billingSubject.trans first.billingSubject
  createdAt := second.createdAt.trans first.createdAt
  billingState := by
    have later := second.billingState
    rw [first.credits, first.billingSubject] at later
    rcases first.billingState with kept | ⟨pending, charged, named⟩
    · rw [kept] at later
      exact later
    · rcases later with kept | ⟨again, _⟩
      · exact Or.inr ⟨pending, kept.trans charged, named⟩
      · exact absurd (again.symm.trans charged) billingStatePending_ne_charged

/-- How far the rows and the counters of `db'` may be from those of `db`. -/
structure LedgerStep (db db' : BillingDb) : Prop where
  rows : ∀ logId row, db.authTokenLogs.find logId = some row →
    ∃ row', db'.authTokenLogs.find logId = some row' ∧ RowStep row row'
  /-- A bucket gains what its rows gain. -/
  buckets : ∀ key, key.granularity ≠ .requestMinute →
    usageIn db'.usageBuckets key - db'.chargedInBucket key =
      usageIn db.usageBuckets key - db.chargedInBucket key
  /-- So do all minute buckets of a subject together, and all its hour buckets. -/
  totals : ∀ subject granularity, granularity ≠ .requestMinute →
    subjectUsage db'.usageBuckets subject granularity - db'.chargedTotal subject =
      subjectUsage db.usageBuckets subject granularity - db.chargedTotal subject
  /-- And the buckets of a subject from any one on. -/
  windows : ∀ subject granularity atLeast, granularity ≠ .requestMinute →
    sumUsageBuckets db'.usageBuckets subject granularity atLeast -
        db'.chargedFrom subject granularity atLeast =
      sumUsageBuckets db.usageBuckets subject granularity atLeast -
        db.chargedFrom subject granularity atLeast
  /-- No stored month goes back. -/
  months : ∀ subject monthStart, db'.MonthNotPast subject monthStart →
    db.MonthNotPast subject monthStart
  /-- The counter of a month gains what the rows of the month gain, unless the
  stored month is already later. -/
  month : ∀ subject monthStart, db'.MonthNotPast subject monthStart →
    countIn db'.monthlyQuota subject monthStart - db'.chargedInMonth subject monthStart =
      countIn db.monthlyQuota subject monthStart - db.chargedInMonth subject monthStart

namespace LedgerStep

theorem refl (db : BillingDb) : LedgerStep db db where
  rows := fun _ row found => ⟨row, found, .refl row⟩
  buckets := fun _ _ => rfl
  totals := fun _ _ _ => rfl
  windows := fun _ _ _ _ => rfl
  months := fun _ _ notPast => notPast
  month := fun _ _ _ => rfl

theorem trans {db db' db'' : BillingDb} (first : LedgerStep db db')
    (second : LedgerStep db' db'') : LedgerStep db db'' where
  rows := by
    intro logId row found
    obtain ⟨row', found', kept'⟩ := first.rows logId row found
    obtain ⟨row'', found'', kept''⟩ := second.rows logId row' found'
    exact ⟨row'', found'', kept'.trans kept''⟩
  buckets := fun key counted => (second.buckets key counted).trans (first.buckets key counted)
  totals := fun subject granularity counted =>
    (second.totals subject granularity counted).trans (first.totals subject granularity counted)
  windows := fun subject granularity atLeast counted =>
    (second.windows subject granularity atLeast counted).trans
      (first.windows subject granularity atLeast counted)
  months := fun subject monthStart notPast =>
    first.months subject monthStart (second.months subject monthStart notPast)
  month := fun subject monthStart notPast =>
    (second.month subject monthStart notPast).trans
      (first.month subject monthStart (second.months subject monthStart notPast))

/-- Nothing leads back from charged. -/
theorem charged_stays {db db' : BillingDb} (step : LedgerStep db db') {logId : Int}
    (charged : db.billingState? logId = some billingStateCharged) :
    db'.billingState? logId = some billingStateCharged := by
  unfold BillingDb.billingState? at charged ⊢
  rw [Option.map_eq_some_iff] at charged ⊢
  obtain ⟨row, found, state⟩ := charged
  obtain ⟨row', found', next⟩ := step.rows logId row found
  rcases next.billingState with kept | ⟨pending, _⟩
  · exact ⟨row', found', kept.trans state⟩
  · exact absurd (pending.symm.trans state) billingStatePending_ne_charged

/-- A step that leaves the counters alone, and the log up to what it charges. -/
theorem of_sameCounters {db db' : BillingDb} (buckets : db'.usageBuckets = db.usageBuckets)
    (month : db'.monthlyQuota = db.monthlyQuota)
    (charged : ∀ subject counts, db'.chargedWhere subject counts = db.chargedWhere subject counts)
    (rows : ∀ logId row, db.authTokenLogs.find logId = some row →
      ∃ row', db'.authTokenLogs.find logId = some row' ∧ RowStep row row') :
    LedgerStep db db' where
  rows := rows
  buckets := by
    intro key _
    simp only [BillingDb.chargedInBucket, buckets, charged]
  totals := by
    intro subject granularity _
    simp only [BillingDb.chargedTotal, buckets, charged]
  windows := by
    intro subject granularity atLeast _
    simp only [BillingDb.chargedFrom, buckets, charged]
  months := by
    intro subject monthStart notPast
    simpa only [BillingDb.MonthNotPast, month] using notPast
  month := by
    intro subject monthStart _
    simp only [BillingDb.chargedInMonth, month, charged]

end LedgerStep

/-! ### The steps -/

theorem insertTokenLogPendingBilling_step (db : BillingDb) (attempt : PendingBillingAttempt)
    (now : UtcTimestamp) : LedgerStep db (insertTokenLogPendingBilling db attempt now).2 := by
  refine LedgerStep.of_sameCounters rfl rfl ?_ ?_
  · intro subject counts
    have open' : (attempt.row now).chargedFor subject counts = 0 :=
      AuthTokenLog.chargedFor_of_not_charged billingStatePending_ne_charged subject counts
    unfold BillingDb.chargedWhere insertTokenLogPendingBilling
    rw [AutoIncrement.total_insert]
    exact (congrArg _ open').trans (Int.add_zero _)
  · intro logId row found
    exact ⟨row, AutoIncrement.find_insert_of_found found _, .refl row⟩

theorem annotatePendingBillingLog_step (db : BillingDb) (logId : Int) (message : String) :
    LedgerStep db (annotatePendingBillingLog db logId message) := by
  refine LedgerStep.of_sameCounters rfl rfl ?_ ?_
  · intro subject counts
    unfold BillingDb.chargedWhere annotatePendingBillingLog
    rw [AutoIncrement.total_modify]
    cases db.authTokenLogs.find logId with
    | none => exact Int.add_zero _
    | some row => exact (congrArg _ (Int.sub_self _)).trans (Int.add_zero _)
  · intro other row found
    by_cases same : other = logId
    · subst same
      refine ⟨{ row with errorMessage := some (annotatedMessage row.errorMessage message) },
        ?_, .of_kept rfl rfl rfl rfl⟩
      simp [annotatePendingBillingLog, found]
    · refine ⟨row, ?_, .refl row⟩
      rw [← found]
      exact AutoIncrement.find_modify_of_ne _ same _

/-- What a claim does to the rows. -/
theorem Settles.rows {db db' : BillingDb} {logId : Int} {row : AuthTokenLog}
    (settles : Settles db db' logId row) :
    ∀ other stored, db.authTokenLogs.find other = some stored →
      ∃ row', db'.authTokenLogs.find other = some row' ∧ RowStep stored row' := by
  intro other stored found
  rw [settles.logs]
  by_cases same : other = logId
  · subst same
    rw [settles.found] at found
    cases found
    refine ⟨row.charged, by simp [settles.found], rfl, rfl, rfl,
      Or.inr ⟨settles.pending, rfl, ?_⟩⟩
    intro costs
    rcases settles.counted with ⟨free, _⟩ | ⟨subject, _, named, _⟩
    · exact absurd costs (Int.not_lt.2 free)
    · exact ⟨subject, named⟩
  · exact ⟨stored, by rw [AutoIncrement.find_modify_of_ne _ same, found], .refl stored⟩

/-- The three counters of a charged row, each with the credits of the log that it
counts. -/
theorem Settles.step_of_counted {db db' : BillingDb} {logId : Int} {row : AuthTokenLog}
    {named : QuotaSubject} (settles : Settles db db' logId row) (costs : 0 < row.credits)
    (owner : row.billingSubject = some named.billingSubject)
    (counted : BillingDb.SameLedger
      ((db.claim logId).charge named row.createdAt.secs row.credits) db') :
    LedgerStep db db' := by
  have gained : ∀ subject counts, db'.chargedWhere subject counts =
      db.chargedWhere subject counts +
        if named = subject ∧ counts row.createdAt.secs then row.credits else 0 := by
    intro subject counts
    have open' : row.chargedFor subject counts = 0 := by
      apply AuthTokenLog.chargedFor_of_not_charged
      rw [settles.pending]
      exact billingStatePending_ne_charged
    rw [BillingDb.chargedWhere_of_modify settles.logs settles.found, open',
      AuthTokenLog.chargedFor_charged costs owner, Int.sub_zero]
  have months : ∀ subject monthStart, db'.MonthNotPast subject monthStart →
      db.MonthNotPast subject monthStart ∧
        (subject = named → startOfMonthTs row.createdAt.secs ≤ monthStart) := by
    intro subject monthStart notPast
    unfold BillingDb.MonthNotPast at notPast
    rw [counted.month] at notPast
    exact notPast_of_chargeMonth notPast
  refine ⟨settles.rows, ?_, ?_, ?_, fun subject monthStart notPast =>
    (months subject monthStart notPast).1, ?_⟩
  · rintro ⟨subject, bucketStart, granularity⟩ counts
    rw [counted.buckets]
    simp only [BillingDb.charge_usageBuckets, BillingDb.claim_usageBuckets,
      usageIn_incrementUsageBucketBy, BillingDb.chargedInBucket, gained,
      UsageBucketKey.mk.injEq]
    cases granularity with
    | minute =>
        simp only [Granularity.bucketOf, Option.some.injEq, decide_eq_true_eq]
        grind
    | hour =>
        simp only [Granularity.bucketOf, Option.some.injEq, decide_eq_true_eq]
        grind
    | requestMinute => exact absurd rfl counts
  · intro subject granularity counts
    rw [counted.buckets]
    simp only [BillingDb.charge_usageBuckets, BillingDb.claim_usageBuckets,
      subjectUsage_incrementUsageBucketBy, BillingDb.chargedTotal, gained]
    cases granularity with
    | minute => grind
    | hour => grind
    | requestMinute => exact absurd rfl counts
  · intro subject granularity atLeast counts
    rw [counted.buckets]
    simp only [BillingDb.charge_usageBuckets, BillingDb.claim_usageBuckets,
      sumUsageBuckets_incrementUsageBucketBy, BillingDb.chargedFrom, gained]
    cases granularity with
    | minute =>
        simp only [Granularity.bucketOf, Option.any_some, decide_eq_true_eq]
        grind
    | hour =>
        simp only [Granularity.bucketOf, Option.any_some, decide_eq_true_eq]
        grind
    | requestMinute => exact absurd rfl counts
  · intro subject monthStart notPast
    obtain ⟨before, reached⟩ := months subject monthStart notPast
    rw [counted.month]
    simp only [BillingDb.charge_monthlyQuota, BillingDb.claim_monthlyQuota,
      BillingDb.chargedInMonth, gained, decide_eq_true_eq]
    by_cases same : subject = named
    · subst same
      rcases Int.lt_or_eq_of_le (reached rfl) with earlier | current
      · rw [countIn_chargeMonth_of_lt _ _ _ earlier,
          if_neg fun both => Int.ne_of_lt earlier both.2, Int.add_zero]
      · rw [current, countIn_chargeMonth_of_le _ _ _ _ before, if_pos ⟨rfl, rfl⟩]
        omega
    · rw [countIn_chargeMonth_of_ne _ same, if_neg fun both => same both.1.symm, Int.add_zero]

/-- A row that costs nothing is charged without a counter. -/
theorem Settles.step_of_free {db db' : BillingDb} {logId : Int} {row : AuthTokenLog}
    (settles : Settles db db' logId row) (free : row.credits ≤ 0)
    (same : BillingDb.SameLedger (db.claim logId) db') : LedgerStep db db' := by
  refine LedgerStep.of_sameCounters same.buckets same.month ?_ settles.rows
  intro subject counts
  rw [BillingDb.chargedWhere_of_modify settles.logs settles.found,
    AuthTokenLog.chargedFor_of_free free,
    AuthTokenLog.chargedFor_of_free (show row.charged.credits ≤ 0 from free)]
  omega

theorem applyPendingBillingLog_step (env : BillingEnv) (logId : Int) (healthy : Option Nat)
    (db : BillingDb) : LedgerStep db (applyPendingBillingLog env logId healthy db).2 := by
  rcases applyPendingBillingLog_cases env logId healthy db with
    ⟨e, failed⟩ | ⟨settled, _⟩ | ⟨row, db', charged, settles⟩
  · rw [failed]
    exact .refl db
  · rw [settled]
    exact .refl db
  · rw [charged]
    rcases settles.counted with ⟨free, same⟩ | ⟨named, costs, owner, counted⟩
    · exact settles.step_of_free free same
    · exact settles.step_of_counted costs owner counted

variable {localDayBucketStartUtcTs : Int → Int}

theorem ledgerSystem_step {s s' : LedgerState} {action : LedgerAction}
    (taken : (ledgerSystem localDayBucketStartUtcTs).step s action = some s') :
    LedgerStep s.db s'.db := by
  cases action with
  | tick clock =>
      simp only [ledgerSystem, LedgerState.step, Option.ite_none_right_eq_some,
        Option.some.injEq] at taken
      rw [← taken.2]
      exact .refl s.db
  | record attempt =>
      cases taken
      exact insertTokenLogPendingBilling_step s.db attempt s.clock
  | apply logId healthy =>
      cases taken
      exact applyPendingBillingLog_step _ logId healthy s.db
  | annotate logId message =>
      cases taken
      exact annotatePendingBillingLog_step s.db logId message

/-! ### The runs -/

/-- Every state of a run is one long step away from the first. -/
theorem ledgerStep_along (s : LedgerState) (actions : List LedgerAction) :
    (ledgerSystem localDayBucketStartUtcTs).AlongRun (fun t => LedgerStep s.db t.db) s
      actions :=
  (ledgerSystem localDayBucketStartUtcTs).alongRun_of_preserved
    (fun _ _ _ before taken => before.trans (ledgerSystem_step taken)) (.refl s.db) actions

/-- A row that is charged is not charged again. -/
theorem timesCharged_of_charged {s : LedgerState} {logId : Int}
    (charged : s.db.billingState? logId = some billingStateCharged)
    (actions : List LedgerAction) :
    timesCharged (ledgerSystem localDayBucketStartUtcTs) logId s actions = 0 := by
  induction actions generalizing s with
  | nil => rfl
  | cons action rest ih =>
      unfold timesCharged
      cases taken : (ledgerSystem localDayBucketStartUtcTs).step s action with
      | none => rfl
      | some s' =>
          have stays := (ledgerSystem_step taken).charged_stays charged
          simp only [charged, Option.some.injEq, billingStatePending_ne_charged.symm, false_and,
            if_false, Nat.zero_add]
          exact ih stays

theorem timesCharged_le_one (s : LedgerState) (logId : Int) (actions : List LedgerAction) :
    timesCharged (ledgerSystem localDayBucketStartUtcTs) logId s actions ≤ 1 := by
  induction actions generalizing s with
  | nil => exact Nat.zero_le 1
  | cons action rest ih =>
      unfold timesCharged
      cases taken : (ledgerSystem localDayBucketStartUtcTs).step s action with
      | none => exact Nat.zero_le 1
      | some s' =>
          simp only
          split
          · rename_i flipped
            rw [timesCharged_of_charged flipped.2]
          · rw [Nat.zero_add]
            exact ih s'

/-- The counters stay exact from a database in which they are. -/
theorem LedgerStep.exact {db db' : BillingDb} (step : LedgerStep db db')
    (exact : db.LedgerExact) : db'.LedgerExact where
  buckets := by
    intro key counts
    have gained := step.buckets key counts
    rw [exact.buckets key counts] at gained
    omega
  minutes := by
    intro subject
    have gained := step.totals subject .minute (by decide)
    rw [exact.minutes subject] at gained
    omega
  hours := by
    intro subject
    have gained := step.totals subject .hour (by decide)
    rw [exact.hours subject] at gained
    omega
  windows := by
    intro subject granularity atLeast counts
    have gained := step.windows subject granularity atLeast counts
    rw [exact.windows subject granularity atLeast counts] at gained
    omega
  month := by
    intro subject monthStart notPast
    have gained := step.month subject monthStart notPast
    rw [exact.month subject monthStart (step.months subject monthStart notPast)] at gained
    omega

theorem BillingDb.LedgerExact.of_empty : BillingDb.empty.LedgerExact where
  buckets := fun _ _ => rfl
  minutes := fun _ => rfl
  hours := fun _ => rfl
  windows := fun _ _ _ _ => rfl
  month := fun _ _ _ => rfl

/-- A charge that is settled by the request, settled again by a replay, and a
replay that breaks while it charges another row. -/
def replayedRun : List LedgerAction :=
  let attempt : PendingBillingAttempt :=
    { tokenId := "t", httpStatus := some 200, mcpStatus := none, countsBusinessQuota := true,
      resultStatus := "success", errorMessage := none, businessCredits := 5,
      billingSubject := "token:t", apiKeyId := none, requestLogId := none }
  [.record attempt, .record attempt, .apply 1 none, .apply 1 none, .apply 2 (some 3),
    .annotate 2 "replay", .apply 2 none]

end TavilyHikari.Store
