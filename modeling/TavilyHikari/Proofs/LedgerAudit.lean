/-
Module: TavilyHikari.Proofs.LedgerAudit
Purpose: What the queries of the audit return, and what it means for the audit
  that the months of all subjects match.
Trusted boundary: none
Main exports: fetchChargedLedgerWindow_ok, effectiveCount, audit_month_matches_iff
-/
import Mathlib.Data.List.Dedup
import TavilyHikari.Models.BillingLedger

namespace TavilyHikari.Models

open Library Store

/-- Every charged row names a subject. -/
def ValidSubjects (db : BillingDb) : Prop :=
  ∀ logId row, db.authTokenLogs.find logId = some row →
    row.billingState = billingStateCharged → row.credits > 0 →
    ∃ subject : QuotaSubject, row.billingSubject = some subject.billingSubject

theorem chargedBetween_iff {windowStart generatedAt : Int} {row : AuthTokenLog} :
    chargedBetween windowStart generatedAt row = true ↔
      row.billingState = billingStateCharged ∧ row.credits > 0 ∧
        row.createdAt.secs ≥ windowStart ∧ row.createdAt.secs ≤ generatedAt := by
  simp [chargedBetween]

theorem likeNoSubject_billingSubject (subject : QuotaSubject) :
    likeNoSubject (some subject.billingSubject) = false := by
  cases subject with
  | token tokenId => simp [likeNoSubject, QuotaSubject.billingSubject, likePrefix_append]
  | account userId => simp [likeNoSubject, QuotaSubject.billingSubject, likePrefix_append]

/-- A row of the table under its id. -/
theorem find_of_mem_rows {db : BillingDb} {row : Int × AuthTokenLog}
    (member : row ∈ db.authTokenLogs.table.rows) :
    db.authTokenLogs.find row.1 = some row.2 :=
  KeyedTable.find_eq_some_iff.2 member

theorem mem_rows_of_find {db : BillingDb} {logId : Int} {row : AuthTokenLog}
    (found : db.authTokenLogs.find logId = some row) :
    (logId, row) ∈ db.authTokenLogs.table.rows :=
  KeyedTable.find_eq_some_iff.1 found

section Queries

variable {db : BillingDb} {windowStart generatedAt : Int}

theorem ensureChargedSubjectsAreValid_of_valid (valid : ValidSubjects db)
    (windowStart generatedAt : Int) :
    ensureChargedSubjectsAreValid db windowStart generatedAt = .ok ⟨⟩ := by
  have none' : invalidSubjectCount db windowStart generatedAt = 0 := by
    apply List.countP_eq_zero.2
    intro row member both
    rw [Bool.and_eq_true, chargedBetween_iff] at both
    obtain ⟨⟨charged, costs, _⟩, unnamed⟩ := both
    obtain ⟨subject, named⟩ := valid row.1 row.2 (find_of_mem_rows member) charged costs
    rw [named, likeNoSubject_billingSubject] at unnamed
    cases unnamed
  unfold ensureChargedSubjectsAreValid
  rw [none']
  rfl

theorem mem_ledgerSubjects {text : String} :
    text ∈ ledgerSubjects db windowStart generatedAt ↔
      ∃ logId row, db.authTokenLogs.find logId = some row ∧
        chargedBetween windowStart generatedAt row = true ∧
        row.billingSubject = some text := by
  simp only [ledgerSubjects, List.mem_insertionSort, List.mem_dedup, List.mem_filterMap]
  constructor
  · rintro ⟨⟨logId, row⟩, member, named⟩
    split at named
    · rename_i charged
      exact ⟨logId, row, find_of_mem_rows member, charged, named⟩
    · cases named
  · rintro ⟨logId, row, found, charged, named⟩
    exact ⟨(logId, row), mem_rows_of_find found, by rw [if_pos charged, named]⟩

theorem ledgerSubjects_nodup : (ledgerSubjects db windowStart generatedAt).Nodup :=
  (List.perm_insertionSort _ _).nodup_iff.2 (List.nodup_dedup _)

/-- A subject that no row of the window names has no credits in it. -/
theorem ledgerTotal_of_notMem {text : String}
    (absent : text ∉ ledgerSubjects db windowStart generatedAt) :
    ledgerTotal db windowStart generatedAt text = 0 := by
  apply (AutoIncrement.total_eq_zero_iff _ ?_).2
  · intro logId row found
    rw [if_neg]
    rintro ⟨charged, named⟩
    exact absent (mem_ledgerSubjects.2 ⟨logId, row, found, charged, named⟩)
  · intro row
    split
    · rename_i counted
      exact Int.le_of_lt (chargedBetween_iff.1 counted.1).2.1
    · exact Int.le_refl 0

/-- With valid subjects every group can be decoded. -/
theorem fetchChargedLedgerWindow_of_valid (valid : ValidSubjects db)
    (windowStart generatedAt : Int) :
    fetchChargedLedgerWindow db windowStart generatedAt =
      .ok ((ledgerSubjects db windowStart generatedAt).map fun subject =>
        (subject, ledgerTotal db windowStart generatedAt subject)) := by
  unfold fetchChargedLedgerWindow
  rw [if_neg]
  rw [Bool.not_eq_true, List.any_eq_false]
  intro row member both
  rw [Bool.and_eq_true, chargedBetween_iff] at both
  obtain ⟨⟨charged, costs, _⟩, unnamed⟩ := both
  obtain ⟨subject, named⟩ := valid row.1 row.2 (find_of_mem_rows member) charged costs
  rw [named] at unnamed
  cases unnamed

theorem ledgerSubjects_named (valid : ValidSubjects db) {text : String}
    (member : text ∈ ledgerSubjects db windowStart generatedAt) :
    ∃ subject : QuotaSubject, text = subject.billingSubject := by
  obtain ⟨logId, row, found, charged, named⟩ := mem_ledgerSubjects.1 member
  obtain ⟨charged, costs, _⟩ := chargedBetween_iff.1 charged
  obtain ⟨subject, valid⟩ := valid logId row found charged costs
  rw [named, Option.some.injEq] at valid
  exact ⟨subject, valid⟩

end Queries

/-! ### The monthly counters in the audit -/

/-- The count of a subject that the audit takes for a month. -/
def effectiveCount (quota : MonthlyQuotaTable) (subject : QuotaSubject)
    (monthWindowStart : Int) : Int :=
  (quota.find subject).elim 0 (effectiveMonthCount monthWindowStart)

section Monthly

variable {id? : QuotaSubject → Option String} {mk : String → QuotaSubject}
  (inverse : ∀ subject owner, id? subject = some owner ↔ subject = mk owner)
include inverse

/-- The counts that one monthly table contributes. -/
theorem mem_effectiveCounts {db : BillingDb} {monthWindowStart : Int} {owner : String}
    {count : Int} :
    (owner, count) ∈ effectiveCounts monthWindowStart (fetchMonthlyQuotaRows id? db) ↔
      count ≠ 0 ∧ effectiveCount db.monthlyQuota (mk owner) monthWindowStart = count := by
  simp only [effectiveCounts, fetchMonthlyQuotaRows, List.mem_filterMap,
    Option.map_eq_some_iff, inverse]
  constructor
  · rintro ⟨row, ⟨⟨subject, stored⟩, member, owner', rfl, rfl⟩, counted⟩
    have found := KeyedTable.find_eq_some_iff.2 member
    split at counted
    · rename_i nonzero
      cases counted
      exact ⟨nonzero, by rw [effectiveCount, found]; rfl⟩
    · cases counted
  · rintro ⟨nonzero, counted⟩
    cases found : db.monthlyQuota.find (mk owner) with
    | none =>
        rw [effectiveCount, found] at counted
        exact absurd counted.symm nonzero
    | some stored =>
        rw [effectiveCount, found, Option.elim_some] at counted
        refine ⟨(owner, stored), ⟨(mk owner, stored), KeyedTable.find_eq_some_iff.1 found,
          owner, rfl, rfl⟩, ?_⟩
        simp only [counted, ne_eq, nonzero, not_false_eq_true, if_true]

theorem effectiveCounts_nodup {db : BillingDb} {monthWindowStart : Int} :
    ((effectiveCounts monthWindowStart (fetchMonthlyQuotaRows id? db)).map Prod.fst).Nodup := by
  have distinct : db.monthlyQuota.rows.Pairwise fun one two => one.1 ≠ two.1 :=
    List.pairwise_map.1 db.monthlyQuota.distinct
  simp only [effectiveCounts, fetchMonthlyQuotaRows, List.Nodup, List.pairwise_map,
    List.pairwise_filterMap, Option.map_eq_some_iff, inverse]
  apply distinct.imp
  rintro ⟨one, oneRow⟩ ⟨two, twoRow⟩ different value ⟨owner, named, rfl⟩ value'
    ⟨owner', named', rfl⟩ counted taken counted' taken' same
  apply different
  rw [Option.ite_none_right_eq_some] at taken taken'
  cases taken.2
  cases taken'.2
  have owners : owner = owner' := same
  rw [named, named', owners]

end Monthly

theorem tokenId?_eq_some_iff (subject : QuotaSubject) (owner : String) :
    tokenId? subject = some owner ↔ subject = .token owner := by
  cases subject <;> simp [tokenId?]

theorem userId?_eq_some_iff (subject : QuotaSubject) (owner : String) :
    userId? subject = some owner ↔ subject = .account owner := by
  cases subject <;> simp [userId?]

/-! ### The accumulators -/

section Accumulators

variable {set : Int → BillingLedgerAccumulator → BillingLedgerAccumulator}
  {field : BillingLedgerAccumulator → Int}

/-- What a subject has accumulated in a field. -/
def accumulated (field : BillingLedgerAccumulator → Int) (subjects : LedgerSubjects)
    (text : String) : Int :=
  (subjects.find text).elim 0 field

/-- Filling another field changes nothing. -/
theorem accumulated_fillSubjects_of_other (fresh : field {} = 0)
    (other : ∀ value totals, field (set value totals) = field totals)
    (values : List (String × Int)) (subjects : LedgerSubjects) (text : String) :
    accumulated field (fillSubjects set values subjects) text =
      accumulated field subjects text :=
  subjects.elim_find_upsertAll values
    (fun value => (other value {}).trans fresh) other text

theorem accumulated_fillSubjects_of_notMem {values : List (String × Int)} {text : String}
    (absent : text ∉ values.map Prod.fst) (subjects : LedgerSubjects) :
    accumulated field (fillSubjects set values subjects) text =
      accumulated field subjects text := by
  unfold accumulated fillSubjects
  rw [subjects.find_upsertAll_of_notMem _ _ absent]

theorem accumulated_fillSubjects_of_mem
    (own : ∀ value totals, field (set value totals) = value)
    {values : List (String × Int)} (distinct : (values.map Prod.fst).Nodup)
    {text : String} {value : Int} (member : (text, value) ∈ values)
    (subjects : LedgerSubjects) :
    accumulated field (fillSubjects set values subjects) text = value := by
  unfold accumulated fillSubjects
  rw [subjects.find_upsertAll_of_mem _ _ distinct member]
  cases subjects.find text with
  | none => exact own value {}
  | some totals => exact own value totals

/-- Every subject is one that was there or one that a value is for. -/
theorem mem_fillSubjects {values : List (String × Int)} {subjects : LedgerSubjects}
    {text : String} (present : (fillSubjects set values subjects).find text ≠ none) :
    subjects.find text ≠ none ∨ text ∈ values.map Prod.fst := by
  by_cases listed : text ∈ values.map Prod.fst
  · exact Or.inr listed
  · unfold fillSubjects at present
    rw [subjects.find_upsertAll_of_notMem _ _ listed] at present
    exact Or.inl present

end Accumulators

theorem accumulated_monthLedger {db : BillingDb} (windows : BillingLedgerWindows)
    (hourLedger dayLedger : List (String × Int)) (windowStart generatedAt : Int)
    (text : String) :
    accumulated (·.monthLedger)
        (gatherSubjects db windows hourLedger dayLedger
          ((ledgerSubjects db windowStart generatedAt).map fun subject =>
            (subject, ledgerTotal db windowStart generatedAt subject))) text =
      ledgerTotal db windowStart generatedAt text := by
  unfold gatherSubjects
  iterate 6
    refine Eq.trans (accumulated_fillSubjects_of_other (by rfl) (by intros; rfl) _ _ _) ?_
  by_cases listed : text ∈ ledgerSubjects db windowStart generatedAt
  · apply accumulated_fillSubjects_of_mem fun _ _ => rfl
    · rw [List.map_map]
      simpa [Function.comp_def] using ledgerSubjects_nodup
    · exact List.mem_map.2 ⟨text, listed, rfl⟩
  · rw [accumulated_fillSubjects_of_notMem, ledgerTotal_of_notMem listed]
    · refine Eq.trans (accumulated_fillSubjects_of_other (by rfl) (by intros; rfl) _ _ _) ?_
      exact accumulated_fillSubjects_of_other (by rfl) (by intros; rfl) _ _ _
    · rw [List.map_map]
      simpa [Function.comp_def] using listed

theorem tokenSubjects_nodup {values : List (String × Int)}
    (distinct : (values.map Prod.fst).Nodup) : ((tokenSubjects values).map Prod.fst).Nodup := by
  unfold tokenSubjects
  rw [List.map_map]
  have keys : (Prod.fst ∘ fun value : String × Int =>
      (QuotaSubject.billingSubject (.token value.1), value.2)) =
      (fun owner => QuotaSubject.billingSubject (.token owner)) ∘ Prod.fst := rfl
  rw [keys, ← List.map_map]
  apply distinct.map
  intro one two same
  exact QuotaSubject.token.inj (QuotaSubject.billingSubject_injective same)

theorem accountSubjects_nodup {values : List (String × Int)}
    (distinct : (values.map Prod.fst).Nodup) :
    ((accountSubjects values).map Prod.fst).Nodup := by
  unfold accountSubjects
  rw [List.map_map]
  have keys : (Prod.fst ∘ fun value : String × Int =>
      (QuotaSubject.billingSubject (.account value.1), value.2)) =
      (fun owner => QuotaSubject.billingSubject (.account owner)) ∘ Prod.fst := rfl
  rw [keys, ← List.map_map]
  apply distinct.map
  intro one two same
  exact QuotaSubject.account.inj (QuotaSubject.billingSubject_injective same)

theorem mem_tokenSubjects {values : List (String × Int)} {subject : QuotaSubject} :
    subject.billingSubject ∈ (tokenSubjects values).map Prod.fst ↔
      ∃ owner count, subject = .token owner ∧ (owner, count) ∈ values := by
  simp only [tokenSubjects, List.map_map, List.mem_map, Function.comp_apply,
    QuotaSubject.billingSubject_injective.eq_iff, Prod.exists]
  constructor
  · rintro ⟨owner, count, member, same⟩
    exact ⟨owner, count, same.symm, member⟩
  · rintro ⟨owner, count, same, member⟩
    exact ⟨owner, count, member, same.symm⟩

theorem mem_accountSubjects {values : List (String × Int)} {subject : QuotaSubject} :
    subject.billingSubject ∈ (accountSubjects values).map Prod.fst ↔
      ∃ owner count, subject = .account owner ∧ (owner, count) ∈ values := by
  simp only [accountSubjects, List.map_map, List.mem_map, Function.comp_apply,
    QuotaSubject.billingSubject_injective.eq_iff, Prod.exists]
  constructor
  · rintro ⟨owner, count, member, same⟩
    exact ⟨owner, count, same.symm, member⟩
  · rintro ⟨owner, count, same, member⟩
    exact ⟨owner, count, member, same.symm⟩

/-- The last two fills, over subjects that have no month counter yet. -/
theorem accumulated_monthQuota_of_fresh {db : BillingDb} (monthWindowStart : Int)
    {subjects : LedgerSubjects} (subject : QuotaSubject)
    (fresh : accumulated (·.monthQuota) subjects subject.billingSubject = 0) :
    accumulated (·.monthQuota)
        (fillSubjects (fun value totals => { totals with monthQuota := value })
          (accountSubjects (effectiveCounts monthWindowStart (fetchMonthlyQuotaRows userId? db)))
          (fillSubjects (fun value totals => { totals with monthQuota := value })
            (tokenSubjects (effectiveCounts monthWindowStart (fetchMonthlyQuotaRows tokenId? db)))
            subjects)) subject.billingSubject =
      effectiveCount db.monthlyQuota subject monthWindowStart := by
  cases subject with
  | token tokenId =>
      rw [accumulated_fillSubjects_of_notMem]
      · by_cases zero : effectiveCount db.monthlyQuota (.token tokenId) monthWindowStart = 0
        · rw [accumulated_fillSubjects_of_notMem, fresh, zero]
          intro listed
          obtain ⟨owner, count, same, member⟩ := mem_tokenSubjects.1 listed
          cases same
          obtain ⟨nonzero, counted⟩ := (mem_effectiveCounts tokenId?_eq_some_iff).1 member
          exact nonzero (counted.symm.trans zero)
        · apply accumulated_fillSubjects_of_mem fun _ _ => rfl
          · exact tokenSubjects_nodup (effectiveCounts_nodup tokenId?_eq_some_iff)
          · exact List.mem_map.2
              ⟨(tokenId, _), (mem_effectiveCounts tokenId?_eq_some_iff).2 ⟨zero, rfl⟩, rfl⟩
      · intro listed
        obtain ⟨_, _, same, _⟩ := mem_accountSubjects.1 listed
        cases same
  | account userId =>
      by_cases zero : effectiveCount db.monthlyQuota (.account userId) monthWindowStart = 0
      · rw [accumulated_fillSubjects_of_notMem, accumulated_fillSubjects_of_notMem, fresh, zero]
        · intro listed
          obtain ⟨_, _, same, _⟩ := mem_tokenSubjects.1 listed
          cases same
        · intro listed
          obtain ⟨owner, count, same, member⟩ := mem_accountSubjects.1 listed
          cases same
          obtain ⟨nonzero, counted⟩ := (mem_effectiveCounts userId?_eq_some_iff).1 member
          exact nonzero (counted.symm.trans zero)
      · apply accumulated_fillSubjects_of_mem fun _ _ => rfl
        · exact accountSubjects_nodup (effectiveCounts_nodup userId?_eq_some_iff)
        · exact List.mem_map.2
            ⟨(userId, _), (mem_effectiveCounts userId?_eq_some_iff).2 ⟨zero, rfl⟩, rfl⟩

theorem accumulated_monthQuota {db : BillingDb} (windows : BillingLedgerWindows)
    (hourLedger dayLedger monthLedger : List (String × Int)) (subject : QuotaSubject) :
    accumulated (·.monthQuota) (gatherSubjects db windows hourLedger dayLedger monthLedger)
        subject.billingSubject =
      effectiveCount db.monthlyQuota subject windows.monthWindowStart := by
  unfold gatherSubjects
  apply accumulated_monthQuota_of_fresh
  iterate 7
    refine Eq.trans (accumulated_fillSubjects_of_other (by rfl) (by intros; rfl) _ _ _) ?_
  rfl

/-- Every accumulator belongs to a subject, when every ledger row does. -/
theorem gatherSubjects_named {db : BillingDb} {windows : BillingLedgerWindows}
    {hourLedger dayLedger monthLedger : List (String × Int)}
    (named : ∀ ledger ∈ [hourLedger, dayLedger, monthLedger], ∀ text ∈ ledger.map Prod.fst,
      ∃ subject : QuotaSubject, text = subject.billingSubject) {text : String}
    (present : (gatherSubjects db windows hourLedger dayLedger monthLedger).find text ≠ none) :
    ∃ subject : QuotaSubject, text = subject.billingSubject := by
  have tokens : ∀ values, text ∈ (tokenSubjects values).map Prod.fst →
      ∃ subject : QuotaSubject, text = subject.billingSubject := by
    intro values member
    obtain ⟨_, listed, rfl⟩ := List.mem_map.1 member
    obtain ⟨value, _, rfl⟩ := List.mem_map.1 listed
    exact ⟨.token value.1, rfl⟩
  have accounts : ∀ values, text ∈ (accountSubjects values).map Prod.fst →
      ∃ subject : QuotaSubject, text = subject.billingSubject := by
    intro values member
    obtain ⟨_, listed, rfl⟩ := List.mem_map.1 member
    obtain ⟨value, _, rfl⟩ := List.mem_map.1 listed
    exact ⟨.account value.1, rfl⟩
  unfold gatherSubjects at present
  rcases mem_fillSubjects present with present | listed
  · rcases mem_fillSubjects present with present | listed
    · rcases mem_fillSubjects present with present | listed
      · rcases mem_fillSubjects present with present | listed
        · rcases mem_fillSubjects present with present | listed
          · rcases mem_fillSubjects present with present | listed
            · rcases mem_fillSubjects present with present | listed
              · rcases mem_fillSubjects present with present | listed
                · rcases mem_fillSubjects present with present | listed
                  · exact absurd rfl present
                  · exact named hourLedger (by simp) text listed
                · exact named dayLedger (by simp) text listed
              · exact named monthLedger (by simp) text listed
            · exact tokens _ listed
          · exact accounts _ listed
        · exact tokens _ listed
      · exact accounts _ listed
    · exact tokens _ listed
  · exact accounts _ listed

/-! ### The entries -/

theorem billingSubjectParts_ok (subject : QuotaSubject) :
    ∃ kind subjectId, billingSubjectParts subject.billingSubject = .ok (kind, subjectId) := by
  unfold billingSubjectParts
  rw [QuotaSubject.fromBillingSubject_billingSubject]
  cases subject with
  | token tokenId => exact ⟨_, _, rfl⟩
  | account userId => exact ⟨_, _, rfl⟩

/-- The entry of a subject shows the totals of its accumulator. -/
theorem auditEntry_ok (subject : QuotaSubject) (totals : BillingLedgerAccumulator) :
    ∃ entry, auditEntry subject.billingSubject totals = .ok entry ∧
      entry.hour = .new totals.hourLedger totals.hourQuota ∧
      entry.day = .new totals.dayLedger totals.dayQuota ∧
      entry.month = .new totals.monthLedger totals.monthQuota := by
  obtain ⟨kind, subjectId, parts⟩ := billingSubjectParts_ok subject
  unfold auditEntry
  rw [parts]
  exact ⟨_, rfl, rfl, rfl, rfl⟩

theorem isMatch_new (ledgerCredits quotaCredits : Int) :
    (BillingLedgerWindowSnapshot.new ledgerCredits quotaCredits).isMatch = true ↔
      ledgerCredits = quotaCredits := by
  unfold BillingLedgerWindowSnapshot.isMatch BillingLedgerWindowSnapshot.new
  rw [decide_eq_true_eq]
  constructor
  · intro none
    change quotaCredits - ledgerCredits = 0 at none
    omega
  · intro same
    change quotaCredits - ledgerCredits = 0
    omega

/-- An accumulator that the audit leaves out has the same totals in the log and in the
counters. -/
theorem sameTotals_of_hasNoValue {totals : BillingLedgerAccumulator}
    (empty : totals.hasAnyValue = false) :
    totals.hourLedger = totals.hourQuota ∧ totals.dayLedger = totals.dayQuota ∧
      totals.monthLedger = totals.monthQuota := by
  simp only [BillingLedgerAccumulator.hasAnyValue, Bool.or_eq_false_iff,
    decide_eq_false_iff_not, Decidable.not_not] at empty
  refine ⟨?_, ?_, ?_⟩ <;> omega

/-! ### The report -/

/-- The ledger lists that the audit gathers. -/
def chargedLedger (db : BillingDb) (windowStart generatedAt : Int) : List (String × Int) :=
  (ledgerSubjects db windowStart generatedAt).map fun subject =>
    (subject, ledgerTotal db windowStart generatedAt subject)

def gathered (db : BillingDb) (windows : BillingLedgerWindows) : LedgerSubjects :=
  gatherSubjects db windows (chargedLedger db windows.hourWindowStart windows.generatedAt)
    (chargedLedger db windows.dayWindowStart windows.generatedAt)
    (chargedLedger db windows.monthWindowStart windows.generatedAt)

theorem chargedLedger_named {db : BillingDb} (valid : ValidSubjects db)
    (windowStart generatedAt : Int) :
    ∀ text ∈ (chargedLedger db windowStart generatedAt).map Prod.fst,
      ∃ subject : QuotaSubject, text = subject.billingSubject := by
  intro text member
  unfold chargedLedger at member
  obtain ⟨_, listed, rfl⟩ := List.mem_map.1 member
  obtain ⟨text, inWindow, rfl⟩ := List.mem_map.1 listed
  exact ledgerSubjects_named valid inWindow

/-- Every accumulator that the audit gathers belongs to a subject. -/
theorem gathered_named {db : BillingDb} (valid : ValidSubjects db)
    (windows : BillingLedgerWindows) {text : String}
    (present : (gathered db windows).find text ≠ none) :
    ∃ subject : QuotaSubject, text = subject.billingSubject := by
  apply gatherSubjects_named _ present
  intro ledger member
  rw [List.mem_cons, List.mem_cons, List.mem_cons, or_iff_left List.not_mem_nil] at member
  rcases member with rfl | rfl | rfl
  · exact chargedLedger_named valid _ _
  · exact chargedLedger_named valid _ _
  · exact chargedLedger_named valid _ _

section Report

/-! `Shows` is what is asked of an entry, and `Agrees` what it says of the accumulator that the
entry is made of. An accumulator without values, which has no entry, agrees. -/

variable {Shows : BillingLedgerAuditEntry → Prop} {Agrees : BillingLedgerAccumulator → Prop}
  (shows_iff : ∀ (subject : QuotaSubject) totals,
    ∃ entry, auditEntry subject.billingSubject totals = .ok entry ∧ (Shows entry ↔ Agrees totals))
  (agrees_of_empty : ∀ totals : BillingLedgerAccumulator, totals.hasAnyValue = false →
    Agrees totals)
include shows_iff agrees_of_empty

/-- The loop gets through named subjects. -/
theorem auditEntries_ok {rows : List (String × BillingLedgerAccumulator)}
    (named : ∀ row ∈ rows, ∃ subject : QuotaSubject, row.1 = subject.billingSubject) :
    ∃ entries, auditEntries rows = .ok entries ∧
      ((∀ entry ∈ entries, Shows entry) ↔ ∀ row ∈ rows, Agrees row.2) := by
  induction rows with
  | nil => exact ⟨[], rfl, by simp⟩
  | cons row rows ih =>
      obtain ⟨text, totals⟩ := row
      obtain ⟨entries, listed, matching⟩ :=
        ih fun row member => named row (List.mem_cons_of_mem _ member)
      obtain ⟨subject, rfl⟩ := named _ List.mem_cons_self
      obtain ⟨entry, made, agrees⟩ := shows_iff subject totals
      unfold auditEntries
      cases shown : totals.hasAnyValue with
      | true =>
          rw [if_pos rfl, made, listed]
          refine ⟨entry :: entries, rfl, ?_⟩
          rw [List.forall_mem_cons, List.forall_mem_cons, matching, agrees]
      | false =>
          rw [if_neg Bool.false_ne_true]
          refine ⟨entries, listed, ?_⟩
          rw [matching, List.forall_mem_cons]
          exact (and_iff_right (agrees_of_empty totals shown)).symm

/-- Over a database with valid subjects the audit succeeds, and its entries say what the
accumulators of all subjects do. -/
theorem audit_ok {db : BillingDb} (valid : ValidSubjects db) (now : UtcTimestamp) :
    ∃ entries, auditBusinessQuotaLedger db now =
        .ok (auditReport db (BillingLedgerWindows.fromNow now) entries) ∧
      ((∀ entry ∈ entries, Shows entry) ↔
        ∀ (subject : QuotaSubject) totals,
          (gathered db (BillingLedgerWindows.fromNow now)).find subject.billingSubject =
            some totals → Agrees totals) := by
  let windows := BillingLedgerWindows.fromNow now
  have named : ∀ row ∈ (gathered db windows).rows.insertionSort fun one two => one.1 ≤ two.1,
      ∃ subject : QuotaSubject, row.1 = subject.billingSubject := by
    intro row member
    have found := KeyedTable.find_eq_some_iff.2 ((List.mem_insertionSort _).1 member)
    apply gathered_named valid windows
    rw [found]
    exact Option.some_ne_none _
  obtain ⟨entries, listed, matching⟩ := auditEntries_ok shows_iff agrees_of_empty named
  refine ⟨entries, ?_, matching.trans ?_⟩
  · unfold auditBusinessQuotaLedger
    simp only [ensureChargedSubjectsAreValid_of_valid valid,
      fetchChargedLedgerWindow_of_valid valid]
    exact congrArg (fun result => result.bind fun entries =>
      Except.ok (auditReport db windows entries)) listed
  · constructor
    · intro agree subject totals found
      exact agree (subject.billingSubject, totals)
        ((List.mem_insertionSort _).2 (KeyedTable.find_eq_some_iff.1 found))
    · intro agree row member
      obtain ⟨subject, text⟩ := named row member
      have found := KeyedTable.find_eq_some_iff.2 ((List.mem_insertionSort _).1 member)
      rw [text] at found
      exact agree subject row.2 found

end Report

/-- Over a database with valid subjects the audit succeeds, and the months it
reports match exactly when the counter of every subject holds what the charged
rows of the month add up to. -/
theorem audit_month_matches_iff {db : BillingDb} (valid : ValidSubjects db)
    (now : UtcTimestamp) :
    ∃ report, auditBusinessQuotaLedger db now = .ok report ∧
      ((∀ entry ∈ report.entries, entry.month.isMatch = true) ↔
        ∀ subject : QuotaSubject,
          ledgerTotal db (startOfMonthTs now.secs) now.secs subject.billingSubject =
            effectiveCount db.monthlyQuota subject (startOfMonthTs now.secs)) := by
  let windows := BillingLedgerWindows.fromNow now
  have shows_iff : ∀ (subject : QuotaSubject) (totals : BillingLedgerAccumulator),
      ∃ entry, auditEntry subject.billingSubject totals = .ok entry ∧
        (entry.month.isMatch = true ↔ totals.monthLedger = totals.monthQuota) := by
    intro subject totals
    obtain ⟨entry, made, _, _, month⟩ := auditEntry_ok subject totals
    exact ⟨entry, made, by rw [month, isMatch_new]⟩
  obtain ⟨entries, audited, matching⟩ := audit_ok shows_iff
    (fun totals empty => (sameTotals_of_hasNoValue empty).2.2) valid now
  refine ⟨_, audited, matching.trans (forall_congr' fun subject => ?_)⟩
  have monthLedger : accumulated (·.monthLedger) (gathered db windows) subject.billingSubject =
      ledgerTotal db (startOfMonthTs now.secs) now.secs subject.billingSubject :=
    accumulated_monthLedger windows _ _ _ _ _
  have monthQuota : accumulated (·.monthQuota) (gathered db windows) subject.billingSubject =
      effectiveCount db.monthlyQuota subject (startOfMonthTs now.secs) :=
    accumulated_monthQuota windows _ _ _ subject
  rw [← monthLedger, ← monthQuota]
  unfold accumulated
  cases found : (gathered db windows).find subject.billingSubject with
  | none =>
      apply iff_of_true _ rfl
      intro totals absent
      cases absent
  | some totals =>
      constructor
      · intro same
        exact same totals rfl
      · intro same totals' found'
        cases found'
        exact same

end TavilyHikari.Models
