/-
Module: TavilyHikari.Proofs.AuditWindows
Purpose: What the report of the audit says: it counts no mismatched subject exactly where the
  log and the counters of every subject agree in the hour, in the day and in the month.
Trusted boundary: none
Main exports: quotaIn, Balanced, audit_clean_iff
-/
import TavilyHikari.Proofs.LedgerAudit

namespace TavilyHikari.Models

open Library Store

/-- The usage of a subject in the buckets of a window. -/
def quotaIn (db : BillingDb) (granularity : Granularity) (windowStart windowEnd : Int)
    (subject : QuotaSubject) : Int :=
  db.usageBuckets.total
    (fun key => key.subject = subject ∧ key.granularity = granularity ∧
      key.bucketStart ≥ windowStart ∧ key.bucketStart ≤ windowEnd) id

/-- The log and the counters of a subject agree in the three windows. -/
structure Balanced (db : BillingDb) (windows : BillingLedgerWindows) (subject : QuotaSubject) :
    Prop where
  hour : ledgerTotal db windows.hourWindowStart windows.generatedAt subject.billingSubject =
    quotaIn db .minute windows.hourWindowStart windows.minuteBucketStart subject
  day : ledgerTotal db windows.dayWindowStart windows.generatedAt subject.billingSubject =
    quotaIn db .hour windows.dayWindowStart windows.hourBucketStart subject
  month : ledgerTotal db windows.monthWindowStart windows.generatedAt subject.billingSubject =
    effectiveCount db.monthlyQuota subject windows.monthWindowStart

/-! ### The usage in a window -/

section Windows

variable {id? : QuotaSubject → Option String} {mk : String → QuotaSubject}
  (inverse : ∀ subject owner, id? subject = some owner ↔ subject = mk owner)
  {db : BillingDb} {granularity : Granularity} {windowStart windowEnd : Int}
include inverse

theorem mem_fetchQuotaWindow {owner : String} {count : Int}
    (member : (owner, count) ∈ fetchQuotaWindow id? db granularity windowStart windowEnd) :
    quotaIn db granularity windowStart windowEnd (mk owner) = count := by
  unfold fetchQuotaWindow at member
  obtain ⟨listed, _, same⟩ := List.mem_map.1 member
  cases same
  unfold quotaIn
  congr 1
  funext key
  rw [Bool.eq_iff_iff]
  simp only [decide_eq_true_eq, Bool.and_eq_true, inverse]
  tauto

/-- A subject without a bucket in the window has used nothing in it. -/
theorem quotaIn_of_notMem {owner : String}
    (absent : owner ∉ (fetchQuotaWindow id? db granularity windowStart windowEnd).map Prod.fst) :
    quotaIn db granularity windowStart windowEnd (mk owner) = 0 := by
  unfold quotaIn KeyedTable.total
  have none : db.usageBuckets.rows.filter (fun row => decide (row.1.subject = mk owner ∧
      row.1.granularity = granularity ∧ row.1.bucketStart ≥ windowStart ∧
        row.1.bucketStart ≤ windowEnd)) = [] := by
    apply List.filter_eq_nil_iff.2
    intro row member chosen
    rw [decide_eq_true_eq] at chosen
    obtain ⟨owned, granular, started, ended⟩ := chosen
    apply absent
    unfold fetchQuotaWindow
    rw [List.map_map]
    apply List.mem_map.2
    refine ⟨owner, ?_, rfl⟩
    rw [List.mem_insertionSort, List.mem_dedup, List.mem_filterMap]
    refine ⟨row, member, ?_⟩
    rw [if_pos]
    · exact (inverse _ _).2 owned
    · rw [decide_eq_true_eq]
      exact ⟨granular, started, ended⟩
  rw [none]
  rfl

omit inverse in
theorem fetchQuotaWindow_nodup :
    ((fetchQuotaWindow id? db granularity windowStart windowEnd).map Prod.fst).Nodup := by
  unfold fetchQuotaWindow
  rw [List.map_map]
  have keys : ∀ owners : List String, owners.map (Prod.fst ∘ fun owner => (owner,
      db.usageBuckets.total (fun key => decide (key.granularity = granularity ∧
        key.bucketStart ≥ windowStart ∧ key.bucketStart ≤ windowEnd) &&
          decide (id? key.subject = some owner)) id)) = owners := by
    intro owners
    exact List.map_id owners
  rw [keys]
  exact (List.perm_insertionSort _ _).nodup_iff.2 (List.nodup_dedup _)

end Windows

/-! ### The accumulators of a subject -/

section Fills

variable {set : Int → BillingLedgerAccumulator → BillingLedgerAccumulator}
  {field : BillingLedgerAccumulator → Int}

/-- The totals of the log go into an empty field. -/
theorem accumulated_ledger_of_fresh (own : ∀ value totals, field (set value totals) = value)
    {db : BillingDb} (windowStart generatedAt : Int) {subjects : LedgerSubjects} {text : String}
    (fresh : accumulated field subjects text = 0) :
    accumulated field (fillSubjects set
        ((ledgerSubjects db windowStart generatedAt).map fun subject =>
          (subject, ledgerTotal db windowStart generatedAt subject)) subjects) text =
      ledgerTotal db windowStart generatedAt text := by
  have keys : ((ledgerSubjects db windowStart generatedAt).map fun subject =>
      (subject, ledgerTotal db windowStart generatedAt subject)).map Prod.fst =
        ledgerSubjects db windowStart generatedAt := by
    rw [List.map_map]
    exact List.map_id _
  by_cases listed : text ∈ ledgerSubjects db windowStart generatedAt
  · apply accumulated_fillSubjects_of_mem own
    · rw [keys]
      exact ledgerSubjects_nodup
    · exact List.mem_map.2 ⟨text, listed, rfl⟩
  · rw [accumulated_fillSubjects_of_notMem, fresh, ledgerTotal_of_notMem listed]
    rw [keys]
    exact listed

/-- The usage of the tokens and of the accounts goes into an empty field. -/
theorem accumulated_usage_of_fresh (own : ∀ value totals, field (set value totals) = value)
    {db : BillingDb} (granularity : Granularity) (windowStart windowEnd : Int)
    {subjects : LedgerSubjects} (subject : QuotaSubject)
    (fresh : accumulated field subjects subject.billingSubject = 0) :
    accumulated field (fillSubjects set
        (accountSubjects (fetchAccountQuotaWindow db granularity windowStart windowEnd))
        (fillSubjects set
          (tokenSubjects (fetchTokenQuotaWindow db granularity windowStart windowEnd)) subjects))
        subject.billingSubject =
      quotaIn db granularity windowStart windowEnd subject := by
  cases subject with
  | token tokenId =>
      rw [accumulated_fillSubjects_of_notMem]
      · by_cases listed : tokenId ∈
            (fetchTokenQuotaWindow db granularity windowStart windowEnd).map Prod.fst
        · obtain ⟨⟨owner, count⟩, member, rfl⟩ := List.mem_map.1 listed
          rw [mem_fetchQuotaWindow tokenId?_eq_some_iff member]
          apply accumulated_fillSubjects_of_mem own
          · exact tokenSubjects_nodup fetchQuotaWindow_nodup
          · exact List.mem_map.2 ⟨(owner, count), member, rfl⟩
        · rw [accumulated_fillSubjects_of_notMem, fresh,
            quotaIn_of_notMem tokenId?_eq_some_iff listed]
          intro inFill
          obtain ⟨owner, count, same, member⟩ := mem_tokenSubjects.1 inFill
          cases same
          exact listed (List.mem_map.2 ⟨(_, count), member, rfl⟩)
      · intro inFill
        obtain ⟨_, _, same, _⟩ := mem_accountSubjects.1 inFill
        cases same
  | account userId =>
      by_cases listed : userId ∈
          (fetchAccountQuotaWindow db granularity windowStart windowEnd).map Prod.fst
      · obtain ⟨⟨owner, count⟩, member, rfl⟩ := List.mem_map.1 listed
        rw [mem_fetchQuotaWindow userId?_eq_some_iff member]
        apply accumulated_fillSubjects_of_mem own
        · exact accountSubjects_nodup fetchQuotaWindow_nodup
        · exact List.mem_map.2 ⟨(owner, count), member, rfl⟩
      · rw [accumulated_fillSubjects_of_notMem, accumulated_fillSubjects_of_notMem, fresh,
          quotaIn_of_notMem userId?_eq_some_iff listed]
        · intro inFill
          obtain ⟨_, _, same, _⟩ := mem_tokenSubjects.1 inFill
          cases same
        · intro inFill
          obtain ⟨owner, count, same, member⟩ := mem_accountSubjects.1 inFill
          cases same
          exact listed (List.mem_map.2 ⟨(_, count), member, rfl⟩)

end Fills

/-- What the audit has gathered about a subject. -/
theorem accumulated_gathered (db : BillingDb) (windows : BillingLedgerWindows)
    (subject : QuotaSubject) :
    accumulated (·.hourLedger) (gathered db windows) subject.billingSubject =
        ledgerTotal db windows.hourWindowStart windows.generatedAt subject.billingSubject ∧
      accumulated (·.dayLedger) (gathered db windows) subject.billingSubject =
        ledgerTotal db windows.dayWindowStart windows.generatedAt subject.billingSubject ∧
      accumulated (·.hourQuota) (gathered db windows) subject.billingSubject =
        quotaIn db .minute windows.hourWindowStart windows.minuteBucketStart subject ∧
      accumulated (·.dayQuota) (gathered db windows) subject.billingSubject =
        quotaIn db .hour windows.dayWindowStart windows.hourBucketStart subject := by
  unfold gathered gatherSubjects
  refine ⟨?_, ?_, ?_, ?_⟩
  · iterate 8
      refine Eq.trans (accumulated_fillSubjects_of_other (by rfl) (by intros; rfl) _ _ _) ?_
    exact accumulated_ledger_of_fresh (by intros; rfl) _ _ rfl
  · iterate 7
      refine Eq.trans (accumulated_fillSubjects_of_other (by rfl) (by intros; rfl) _ _ _) ?_
    apply accumulated_ledger_of_fresh (by intros; rfl)
    exact accumulated_fillSubjects_of_other (by rfl) (by intros; rfl) _ _ _
  · iterate 4
      refine Eq.trans (accumulated_fillSubjects_of_other (by rfl) (by intros; rfl) _ _ _) ?_
    apply accumulated_usage_of_fresh (by intros; rfl)
    iterate 2
      refine Eq.trans (accumulated_fillSubjects_of_other (by rfl) (by intros; rfl) _ _ _) ?_
    exact accumulated_fillSubjects_of_other (by rfl) (by intros; rfl) _ _ _
  · iterate 2
      refine Eq.trans (accumulated_fillSubjects_of_other (by rfl) (by intros; rfl) _ _ _) ?_
    apply accumulated_usage_of_fresh (by intros; rfl)
    iterate 4
      refine Eq.trans (accumulated_fillSubjects_of_other (by rfl) (by intros; rfl) _ _ _) ?_
    exact accumulated_fillSubjects_of_other (by rfl) (by intros; rfl) _ _ _

/-! ### The report -/

/-- The three windows of an accumulator agree. -/
structure BillingLedgerAccumulator.Agrees (totals : BillingLedgerAccumulator) : Prop where
  hour : totals.hourLedger = totals.hourQuota
  day : totals.dayLedger = totals.dayQuota
  month : totals.monthLedger = totals.monthQuota

/-- The entry of a subject mismatches where its accumulator does not agree. -/
theorem auditEntry_hasMismatch (subject : QuotaSubject) (totals : BillingLedgerAccumulator) :
    ∃ entry, auditEntry subject.billingSubject totals = .ok entry ∧
      (entry.hasMismatch = false ↔ totals.Agrees) := by
  obtain ⟨entry, made, hour, day, month⟩ := auditEntry_ok subject totals
  refine ⟨entry, made, ?_⟩
  unfold BillingLedgerAuditEntry.hasMismatch
  rw [Bool.not_eq_false', Bool.and_eq_true, Bool.and_eq_true, hour, day, month, isMatch_new,
    isMatch_new, isMatch_new]
  constructor
  · intro same
    exact ⟨same.1.1, same.1.2, same.2⟩
  · intro agrees
    exact ⟨⟨agrees.hour, agrees.day⟩, agrees.month⟩

/-- The subject of an accumulator is balanced where the accumulator agrees. -/
theorem balanced_iff_agrees (db : BillingDb) (windows : BillingLedgerWindows)
    (subject : QuotaSubject) :
    Balanced db windows subject ↔
      ∀ totals, (gathered db windows).find subject.billingSubject = some totals →
        totals.Agrees := by
  obtain ⟨hourLedger, dayLedger, hourQuota, dayQuota⟩ :=
    accumulated_gathered db windows subject
  have monthLedger : accumulated (·.monthLedger) (gathered db windows) subject.billingSubject =
      ledgerTotal db windows.monthWindowStart windows.generatedAt subject.billingSubject :=
    accumulated_monthLedger windows _ _ _ _ _
  have monthQuota : accumulated (·.monthQuota) (gathered db windows) subject.billingSubject =
      effectiveCount db.monthlyQuota subject windows.monthWindowStart :=
    accumulated_monthQuota windows _ _ _ subject
  unfold accumulated at hourLedger dayLedger hourQuota dayQuota monthLedger monthQuota
  cases found : (gathered db windows).find subject.billingSubject with
  | none =>
      rw [found] at hourLedger dayLedger hourQuota dayQuota monthLedger monthQuota
      constructor
      · intro _ totals impossible
        cases impossible
      · intro _
        exact ⟨hourLedger.symm.trans hourQuota, dayLedger.symm.trans dayQuota,
          monthLedger.symm.trans monthQuota⟩
  | some totals =>
      rw [found, Option.elim_some] at hourLedger dayLedger hourQuota dayQuota
      rw [found, Option.elim_some] at monthLedger monthQuota
      constructor
      · intro balanced totals' same
        cases same
        constructor
        · rw [hourLedger, hourQuota]
          exact balanced.hour
        · rw [dayLedger, dayQuota]
          exact balanced.day
        · rw [monthLedger, monthQuota]
          exact balanced.month
      · intro agree
        have agrees := agree totals rfl
        constructor
        · rw [← hourLedger, ← hourQuota]
          exact agrees.hour
        · rw [← dayLedger, ← dayQuota]
          exact agrees.day
        · rw [← monthLedger, ← monthQuota]
          exact agrees.month

/-- Over a database with valid subjects the audit succeeds, and it reports no mismatched subject
exactly where every subject is balanced. -/
theorem audit_clean_iff {db : BillingDb} (valid : ValidSubjects db) (now : UtcTimestamp) :
    ∃ report, auditBusinessQuotaLedger db now = .ok report ∧
      (report.mismatchedSubjects = 0 ↔
        ∀ subject, Balanced db (BillingLedgerWindows.fromNow now) subject) := by
  obtain ⟨entries, audited, matching⟩ := audit_ok auditEntry_hasMismatch
    (fun totals empty =>
      have same := sameTotals_of_hasNoValue empty
      { hour := same.1, day := same.2.1, month := same.2.2 }) valid now
  refine ⟨_, audited, ?_⟩
  have mismatched : (auditReport db (BillingLedgerWindows.fromNow now) entries).mismatchedSubjects =
      entries.countP BillingLedgerAuditEntry.hasMismatch := rfl
  rw [mismatched, List.countP_eq_zero]
  simp only [Bool.not_eq_true]
  exact matching.trans (forall_congr' fun subject => (balanced_iff_agrees db _ subject).symm)

end TavilyHikari.Models
