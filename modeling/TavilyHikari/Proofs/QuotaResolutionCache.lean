/-
Module: TavilyHikari.Proofs.QuotaResolutionCache
Purpose: When the cache of quota resolutions is coherent: what a call returns is the
  resolution of a state no older than the updates that had returned when it began, in every
  run in which no update comes between the reads and the fill of a call, or between the
  listing and the write of another update.
Trusted boundary: none
Main exports: Uninterrupted, QuotaCacheInvariant, quotaCache_coherent, quotaCache_stale_fill
-/
import TavilyHikari.Proofs.QuotaInvalidation
import TavilyHikari.Store.QuotaResolutionCache

namespace TavilyHikari.Store

open Library

/-! ### The cache -/

/-- An entry that is found after a fill is the new one or was there. -/
theorem find_cacheAccountQuotaResolution {now : Nat} {order : List String} {userId other : String}
    {resolution : AccountQuotaResolution} {cache : AccountQuotaResolutionCache}
    {entry : AccountQuotaResolutionCacheEntry}
    (found : (cacheAccountQuotaResolution now order userId resolution cache).find other =
      some entry) :
    (other = userId ∧ entry.resolution = resolution) ∨
      (other ≠ userId ∧ cache.find other = some entry) := by
  have inserted {fresh : AccountQuotaResolutionCacheEntry} (same : fresh.resolution = resolution)
      (found : (cache.upsert userId fresh fun _ => fresh).find other = some entry) :
      (other = userId ∧ entry.resolution = resolution) ∨
        (other ≠ userId ∧ cache.find other = some entry) := by
    by_cases here : other = userId
    · subst here
      left
      refine ⟨rfl, ?_⟩
      rw [KeyedTable.find_upsert_self] at found
      cases before : cache.find other with
      | none =>
          rw [before] at found
          rw [← Option.some.inj found]
          exact same
      | some old =>
          rw [before] at found
          rw [← Option.some.inj found]
          exact same
    · rw [KeyedTable.find_upsert_of_ne _ here] at found
      exact Or.inr ⟨here, found⟩
  unfold cacheAccountQuotaResolution at found
  simp only at found
  split at found
  · exact inserted rfl found
  · split at found
    · rw [KeyedTable.find_deleteWhere] at found
      exact inserted rfl (Option.filter_eq_some_iff.1 found).1
    · rw [KeyedTable.find_deleteWhere, KeyedTable.find_deleteWhere] at found
      have kept := (Option.filter_eq_some_iff.1 found).1
      exact inserted rfl (Option.filter_eq_some_iff.1 kept).1

theorem find_invalidateAccountQuotaResolutions {users : List String} {userId : String}
    {cache : AccountQuotaResolutionCache} {entry : AccountQuotaResolutionCacheEntry}
    (found : (invalidateAccountQuotaResolutions users cache).find userId = some entry) :
    cache.find userId = some entry ∧ userId ∉ users := by
  unfold invalidateAccountQuotaResolutions at found
  rw [KeyedTable.find_deleteWhere] at found
  obtain ⟨here, kept⟩ := Option.filter_eq_some_iff.1 found
  exact ⟨here, by simpa using kept⟩

theorem find_of_cached {now : Nat} {cache : AccountQuotaResolutionCache} {userId : String}
    {resolution : AccountQuotaResolution}
    (hit : cachedAccountQuotaResolution now cache userId = some resolution) :
    ∃ entry, cache.find userId = some entry ∧ now < entry.expiresAt ∧
      entry.resolution = resolution := by
  obtain ⟨entry, found, same⟩ := Option.map_eq_some_iff.1 hit
  obtain ⟨here, live⟩ := Option.filter_eq_some_iff.1 found
  exact ⟨entry, here, of_decide_eq_true live, same⟩

/-! ### Copies -/

/-- A resolution that was read from version `i`. -/
def ReadFrom (s : QuotaCacheState) (userId : String) (i : Nat)
    (resolution : AccountQuotaResolution) : Prop :=
  ∃ db, IsVersion s.versions i db ∧ resolutionOf db userId = some resolution

/-- No update that has returned has changed the user since version `i`. -/
def UpToDate (s : QuotaCacheState) (userId : String) (i : Nat) : Prop :=
  Unchanged (quotaData · userId) s.versions i s.settled

def CallInvariant (s : QuotaCacheState) : ResolverPhase → Prop
  | .idle => True
  | .missed _ floor | .limitsMissing _ floor | .limitsInserted _ floor => floor ≤ s.version
  | .gotLimits userId floor limitsAt base =>
      floor ≤ limitsAt ∧ limitsAt ≤ s.version ∧
        ∃ db, IsVersion s.versions limitsAt db ∧ db.accountQuotaLimits.find userId = some base
  | .gotTags userId floor readAt resolution =>
      floor ≤ readAt ∧ ReadFrom s userId readAt resolution

/-- Before its write an update has listed all users whom it affects, after it all whom it has
changed. -/
def UpdateInvariant (s : QuotaCacheState) : UpdatePhase → Prop
  | .idle => True
  | .prepared update reads => ∀ userId, update.Affects s.db userId → userId ∈ reads.users
  | .written users version =>
      version ≤ s.version ∧
        ∀ userId, ChangedAt (quotaData · userId) s.versions version → userId ∈ users

structure QuotaCacheInvariant (s : QuotaCacheState) : Prop where
  present : IsVersion s.versions s.version s.db
  reference : BindingsReferenceTags s.db
  settled : s.settled ≤ s.version
  cached : ∀ userId entry, s.cache.find userId = some entry → s.now < entry.expiresAt →
    ReadFrom s userId (s.cachedAt userId) entry.resolution ∧ UpToDate s userId (s.cachedAt userId)
  calls : ∀ call, CallInvariant s (s.resolvers call)
  updates : ∀ task, UpdateInvariant s (s.updates task)
  answers : ∀ answer ∈ s.answers,
    ReadSince (resolutionOf · answer.userId) s.versions answer.floor (some answer.resolution)

/-- No update comes in between: no write to the tags of a user after one to the limits, between
the reads of a call; no return of an update that has changed the user, between the reads and
the fill; no new user of a tag, between the listing and the write of an update of the tag; and
no return ahead of an earlier update that has changed a user with a live entry from before. -/
def Uninterrupted (s : QuotaCacheState) : QuotaCacheAction → Prop
  | .readTags call => ∀ userId floor limitsAt base,
      s.resolvers call = .gotLimits userId floor limitsAt base →
        ∀ i j, limitsAt < i → i ≤ j →
          ChangedAt (fun db => db.accountQuotaLimits.find userId) s.versions i →
            ¬ChangedAt (listUserTagBindingsForUser · userId) s.versions j
  | .fill call _ => ∀ userId floor readAt resolution,
      s.resolvers call = .gotTags userId floor readAt resolution →
        ∀ i, readAt < i → i ≤ s.settled → ¬ChangedAt (quotaData · userId) s.versions i
  | .write task => ∀ update reads, s.updates task = .prepared update reads →
      ∀ userId tagId, update.givesTag s.db = some (userId, tagId) →
        ∀ other listing listed, s.updates other = .prepared listing listed →
          listing.listedTag = some tagId → userId ∈ listed.users
  | .finish task => ∀ users version, s.updates task = .written users version →
      ∀ userId entry, s.cache.find userId = some entry → s.now < entry.expiresAt →
        userId ∉ users → ∀ i, s.settled < i → i < version →
          ChangedAt (quotaData · userId) s.versions i → i ≤ s.cachedAt userId
  | _ => True

section

variable {s s' : QuotaCacheState} {userId : String} {i : Nat} {more : List QuotaDb}

theorem ReadFrom.extend {resolution : AccountQuotaResolution}
    (read : ReadFrom s userId i resolution) (versions : s'.versions = s.versions ++ more) :
    ReadFrom s' userId i resolution := by
  obtain ⟨db, version, same⟩ := read
  refine ⟨db, ?_, same⟩
  rw [versions]
  exact version.append more

/-- Later writes do not matter before the update that made them returns. -/
theorem UpToDate.extend (current : UpToDate s userId i)
    (old : s.settled < s.versions.length) (versions : s'.versions = s.versions ++ more)
    (settled : s'.settled = s.settled) : UpToDate s' userId i := by
  rw [UpToDate, versions, settled]
  exact current.append old more

theorem CallInvariant.extend {phase : ResolverPhase} (holds : CallInvariant s phase)
    (versions : s'.versions = s.versions ++ more) (later : s.version ≤ s'.version) :
    CallInvariant s' phase := by
  cases phase with
  | idle => trivial
  | missed userId floor => exact Nat.le_trans holds later
  | limitsMissing userId floor => exact Nat.le_trans holds later
  | limitsInserted userId floor => exact Nat.le_trans holds later
  | gotLimits userId floor limitsAt base =>
      obtain ⟨notOlder, within, db, version, found⟩ := holds
      refine ⟨notOlder, Nat.le_trans within later, db, ?_, found⟩
      rw [versions]
      exact version.append more
  | gotTags userId floor readAt resolution => exact ⟨holds.1, holds.2.extend versions⟩

/-- What is up to date is the resolution of a state since the last update that returned. -/
theorem readSince_of_upToDate {resolution : AccountQuotaResolution}
    (read : ReadFrom s userId i resolution) (current : UpToDate s userId i)
    (old : s.settled < s.versions.length) :
    ReadSince (resolutionOf · userId) s.versions s.settled (some resolution) := by
  obtain ⟨db, version, same⟩ := read
  rcases Nat.le_total s.settled i with since | before
  · exact ⟨i, db, since, version, same⟩
  · obtain ⟨later, there⟩ : ∃ later, IsVersion s.versions s.settled later :=
      ⟨s.versions[s.settled], List.getElem?_eq_getElem old⟩
    have data : quotaData db userId = quotaData later userId := current.same before version there
    refine ⟨s.settled, later, Nat.le_refl _, there, ?_⟩
    simp only [resolutionOf, quotaData, Prod.mk.injEq] at same data ⊢
    rw [← data.1, ← data.2]
    exact same

end

/-! ### Steps -/

namespace QuotaCacheInvariant

variable {s : QuotaCacheState}

theorem settled_lt (invariant : QuotaCacheInvariant s) : s.settled < s.versions.length :=
  Nat.lt_of_le_of_lt invariant.settled invariant.present.lt

/-- A call goes on to a phase whose invariant holds. -/
theorem setResolver (invariant : QuotaCacheInvariant s) {call : Nat} {phase : ResolverPhase}
    (holds : CallInvariant s phase) : QuotaCacheInvariant (s.setResolver call phase) :=
  { invariant with
    calls := by
      intro other
      by_cases same : other = call
      · subst same
        simp only [QuotaCacheState.setResolver, Function.update_self]
        exact holds
      · simp only [QuotaCacheState.setResolver, Function.update_of_ne same]
        exact invariant.calls other }

theorem setUpdate (invariant : QuotaCacheInvariant s) {task : Nat} {phase : UpdatePhase}
    (holds : UpdateInvariant s phase) : QuotaCacheInvariant (s.setUpdate task phase) :=
  { invariant with
    updates := by
      intro other
      by_cases same : other = task
      · subst same
        simp only [QuotaCacheState.setUpdate, Function.update_self]
        exact holds
      · simp only [QuotaCacheState.setUpdate, Function.update_of_ne same]
        exact invariant.updates other }

theorem version_commit (invariant : QuotaCacheInvariant s) (db : QuotaDb) :
    (s.commit db).version = s.versions.length ∧ s.version + 1 = s.versions.length ∧
      s.version ≤ (s.commit db).version := by
  have small := invariant.present.lt
  simp only [QuotaCacheState.version, QuotaCacheState.commit, List.length_append,
    List.length_singleton]
  omega

/-- A write that gives no tag of an update on its way to a user whom that has not listed. -/
theorem commit (invariant : QuotaCacheInvariant s) {db : QuotaDb}
    (reference : BindingsReferenceTags db)
    (listed : ∀ task update reads, s.updates task = .prepared update reads →
      ∀ userId, update.Affects db userId → update.Affects s.db userId ∨ userId ∈ reads.users) :
    QuotaCacheInvariant (s.commit db) := by
  obtain ⟨new, _, later⟩ := invariant.version_commit db
  have versions : (s.commit db).versions = s.versions ++ [db] := rfl
  exact
    { present := by
        rw [new]
        exact isVersion_new s.versions db
      reference
      settled := Nat.le_trans invariant.settled later
      cached := by
        intro userId entry found live
        obtain ⟨read, current⟩ := invariant.cached userId entry found live
        exact ⟨read.extend versions, current.extend invariant.settled_lt versions rfl⟩
      calls := fun call => (invariant.calls call).extend versions later
      updates := by
        intro task
        have holds := invariant.updates task
        change UpdateInvariant (s.commit db) (s.updates task)
        cases phase : s.updates task with
        | idle => trivial
        | prepared update reads =>
            rw [phase] at holds
            intro userId affected
            rcases listed task update reads phase userId affected with before | among
            · exact holds userId before
            · exact among
        | written users version =>
            rw [phase] at holds
            refine ⟨Nat.le_trans holds.1 later, fun userId changed => holds.2 userId ?_⟩
            exact changed.of_append (Nat.lt_of_le_of_lt holds.1 invariant.present.lt)
      answers := fun answer member => (invariant.answers answer member).append [db] }

/-- A write that leaves bindings and tags alone. -/
theorem commit_of_tables (invariant : QuotaCacheInvariant s) {db : QuotaDb}
    (tables : db.userTagBindings = s.db.userTagBindings ∧ db.userTags = s.db.userTags) :
    QuotaCacheInvariant (s.commit db) := by
  have same (userId tagId : String) : HasTag db userId tagId ↔ HasTag s.db userId tagId := by
    rw [HasTag, HasTag, tables.1]
  apply invariant.commit
  · intro userId tagId has
    rw [tables.2]
    exact invariant.reference userId tagId ((same userId tagId).1 has)
  · intro task update reads _ userId affected
    left
    simpa only [QuotaUpdate.Affects, same] using affected

theorem answer (invariant : QuotaCacheInvariant s) {answer : QuotaAnswer}
    (since : ReadSince (resolutionOf · answer.userId) s.versions answer.floor
      (some answer.resolution)) : QuotaCacheInvariant (s.answer answer) :=
  { invariant with
    answers := by
      intro other member
      rcases List.mem_append.1 member with old | new
      · exact invariant.answers other old
      · rw [List.mem_singleton.1 new]
        exact since }

/-- Limits and tags that no two writes have torn apart stood together in some version. -/
theorem gotTags (invariant : QuotaCacheInvariant s) {userId : String} {floor limitsAt : Nat}
    {base : AccountQuotaLimits} (holds : CallInvariant s (.gotLimits userId floor limitsAt base))
    (untorn : ∀ i j, limitsAt < i → i ≤ j →
      ChangedAt (fun db => db.accountQuotaLimits.find userId) s.versions i →
        ¬ChangedAt (listUserTagBindingsForUser · userId) s.versions j) :
    CallInvariant s (.gotTags userId floor
      ((latestVersion s.versions fun db =>
        quotaData db userId = (some base, listUserTagBindingsForUser s.db userId)).getD limitsAt)
      (buildAccountQuotaResolution base (listUserTagBindingsForUser s.db userId))) := by
  obtain ⟨notOlder, within, db, version, found⟩ := holds
  obtain ⟨i, stood, since, there, limits, tags⟩ :=
    exists_version_of_reads within version invariant.present
      fun i j after upTo _ => untorn i j after upTo
  have together : quotaData stood userId =
      (some base, listUserTagBindingsForUser s.db userId) := by
    rw [quotaData, tags, ← found]
    exact congrArg (fun base => (base, listUserTagBindingsForUser s.db userId)) limits
  obtain ⟨j, last, latest, later, versionLast, same⟩ := latestVersion_of_version
    (p := fun db => decide (quotaData db userId =
      (some base, listUserTagBindingsForUser s.db userId))) there (decide_eq_true together)
  rw [decide_eq_true_eq, quotaData, Prod.mk.injEq] at same
  rw [latest, Option.getD_some]
  refine ⟨Nat.le_trans notOlder (Nat.le_trans since later), last, versionLast, ?_⟩
  rw [resolutionOf, same.1, same.2, Option.map_some]

theorem fill (invariant : QuotaCacheInvariant s) {userId : String} {readAt : Nat}
    {resolution : AccountQuotaResolution} (read : ReadFrom s userId readAt resolution)
    (current : UpToDate s userId readAt) (order : List String) :
    QuotaCacheInvariant { s with
      cache := cacheAccountQuotaResolution s.now order userId resolution s.cache
      cachedAt := Function.update s.cachedAt userId readAt } :=
  { invariant with
    cached := by
      intro other entry found live
      rcases find_cacheAccountQuotaResolution found with ⟨here, same⟩ | ⟨elsewhere, old⟩
      · subst here
        simp only [Function.update_self, same]
        exact ⟨read, current⟩
      · simp only [Function.update_of_ne elsewhere]
        exact invariant.cached other entry old live }

/-- The write of an update: it has listed whom it changes. -/
theorem written (invariant : QuotaCacheInvariant s) {task : Nat} {update : QuotaUpdate}
    {reads : PreparedUpdate} {legacy : AccountQuotaLimits} {db : QuotaDb}
    (phase : s.updates task = .prepared update reads)
    (committed : commitQuotaUpdate legacy reads s.db update = some db)
    (gives : ∀ userId tagId, update.givesTag s.db = some (userId, tagId) →
      ∀ other listing listed, s.updates other = .prepared listing listed →
        listing.listedTag = some tagId → userId ∈ listed.users) :
    QuotaCacheInvariant
      ((s.commit db).setUpdate task (.written reads.users s.versions.length)) := by
  obtain ⟨new, last, _⟩ := invariant.version_commit db
  have next : QuotaCacheInvariant (s.commit db) := by
    apply invariant.commit (bindingsReferenceTags_of_commit invariant.reference committed)
    intro other listing listed otherPhase userId affected
    rcases affects_of_commit committed affected with before | ⟨tagId, lists, given⟩
    · exact Or.inl before
    · exact Or.inr (gives userId tagId given other listing listed otherPhase lists)
  refine next.setUpdate ⟨Nat.le_of_eq new.symm, ?_⟩
  rintro userId ⟨i, before, after, made, versionBefore, versionAfter, differ⟩
  have isBefore : IsVersion (s.versions ++ [db]) i s.db := by
    rw [← last] at made
    rw [← Nat.succ.inj made]
    exact invariant.present.append [db]
  have isAfter : IsVersion (s.versions ++ [db]) s.versions.length db := isVersion_new s.versions db
  cases versionBefore.symm.trans isBefore
  cases versionAfter.symm.trans isAfter
  have listing := invariant.updates task
  rw [phase] at listing
  exact listing userId (affects_of_changed invariant.reference committed differ)

/-- The return of an update: whom it has changed it invalidates, and no earlier update that has
not returned has changed a user who stays in the cache. -/
theorem finish (invariant : QuotaCacheInvariant s) {task : Nat} {users : List String}
    {version : Nat} (phase : s.updates task = .written users version)
    (inOrder : ∀ userId entry, s.cache.find userId = some entry → s.now < entry.expiresAt →
      userId ∉ users → ∀ i, s.settled < i → i < version →
        ChangedAt (quotaData · userId) s.versions i → i ≤ s.cachedAt userId) :
    QuotaCacheInvariant { s with
      cache := invalidateAccountQuotaResolutions users s.cache
      settled := max s.settled version } := by
  have ⟨bound, covers⟩ : UpdateInvariant s (.written users version) := phase ▸ invariant.updates task
  exact
    { invariant with
      settled := Nat.max_le.2 ⟨invariant.settled, bound⟩
      cached := by
        intro userId entry found live
        obtain ⟨here, spared⟩ := find_invalidateAccountQuotaResolutions found
        obtain ⟨read, current⟩ := invariant.cached userId entry here live
        refine ⟨read, fun i after upTo changed => ?_⟩
        have bounded : i ≤ max s.settled version := upTo
        rcases Nat.lt_or_ge s.settled i with waiting | returned
        · have within : i ≤ version := by omega
          rcases Nat.lt_or_eq_of_le within with earlier | own
          · exact absurd (inOrder userId entry here live spared i waiting earlier changed)
              (Nat.not_le_of_lt after)
          · subst own
            exact spared (covers userId changed)
        · exact current i after returned changed }

end QuotaCacheInvariant

theorem quotaCacheInvariant_step {defaults : QuotaDefaults} {s s' : QuotaCacheState}
    {action : QuotaCacheAction} (invariant : QuotaCacheInvariant s)
    (apart : Uninterrupted s action)
    (taken : (quotaCacheSystem defaults).step s action = some s') : QuotaCacheInvariant s' := by
  cases action with
  | tick =>
      cases taken
      exact
        { invariant with
          cached := fun userId entry found live =>
            invariant.cached userId entry found (Nat.lt_of_succ_lt live) }
  | start call userId =>
      simp only [quotaCacheSystem, quotaCacheStep] at taken
      split at taken
      · split at taken
        · rename_i resolution hit
          cases taken
          obtain ⟨entry, found, live, same⟩ := find_of_cached hit
          obtain ⟨read, current⟩ := invariant.cached userId entry found live
          rw [same] at read
          exact invariant.answer (readSince_of_upToDate read current invariant.settled_lt)
        · cases taken
          exact invariant.setResolver invariant.settled
      · cases taken
  | fetchLimits call =>
      simp only [quotaCacheSystem, quotaCacheStep] at taken
      split at taken
      · rename_i userId floor phase
        have before := invariant.calls call
        rw [phase] at before
        split at taken
        · rename_i base found
          cases taken
          exact invariant.setResolver ⟨before, Nat.le_refl _, s.db, invariant.present, found⟩
        · cases taken
          exact invariant.setResolver before
      · cases taken
  | insertDefaults call =>
      simp only [quotaCacheSystem, quotaCacheStep] at taken
      split at taken
      · rename_i userId floor phase
        cases taken
        have before := invariant.calls call
        rw [phase] at before
        let db := insertDefaultLimits userId (defaults.forUser userId) s.db
        have inserted : QuotaCacheInvariant (s.commit db) := invariant.commit_of_tables ⟨rfl, rfl⟩
        exact inserted.setResolver (Nat.le_trans before (invariant.version_commit _).2.2)
      · cases taken
  | refetchLimits call =>
      simp only [quotaCacheSystem, quotaCacheStep] at taken
      split at taken
      · rename_i userId floor phase
        have before := invariant.calls call
        rw [phase] at before
        split at taken
        · rename_i base found
          cases taken
          exact invariant.setResolver ⟨before, Nat.le_refl _, s.db, invariant.present, found⟩
        · cases taken
          exact invariant.setResolver trivial
      · cases taken
  | readTags call =>
      simp only [quotaCacheSystem, quotaCacheStep] at taken
      split at taken
      · rename_i userId floor limitsAt base phase
        cases taken
        have before := invariant.calls call
        rw [phase] at before
        exact invariant.setResolver
          (invariant.gotTags before (apart userId floor limitsAt base phase))
      · cases taken
  | fill call order =>
      simp only [quotaCacheSystem, quotaCacheStep] at taken
      split at taken
      · rename_i userId floor readAt resolution phase
        cases taken
        have holds := invariant.calls call
        rw [phase] at holds
        obtain ⟨before, read⟩ := holds
        have since : ReadSince (resolutionOf · userId) s.versions floor (some resolution) := by
          obtain ⟨db, version, same⟩ := read
          exact ⟨readAt, db, before, version, same⟩
        have filled := invariant.fill read (apart userId floor readAt resolution phase) order
        exact (filled.answer since).setResolver trivial
      · cases taken
  | abandonCall call =>
      cases taken
      exact invariant.setResolver trivial
  | prepare task update =>
      simp only [quotaCacheSystem, quotaCacheStep] at taken
      split at taken
      · split at taken
        · rename_i reads db prepared
          cases taken
          exact (invariant.commit_of_tables (tables_of_prepare prepared)).setUpdate
            fun userId affected => listed_of_prepare prepared affected
        · cases taken
          exact invariant
      · cases taken
  | write task =>
      simp only [quotaCacheSystem, quotaCacheStep] at taken
      split at taken
      · rename_i update reads phase
        split at taken
        · rename_i db committed
          cases taken
          exact invariant.written phase committed (apart update reads phase)
        · cases taken
          exact invariant.setUpdate trivial
      · cases taken
  | finish task =>
      simp only [quotaCacheSystem, quotaCacheStep] at taken
      split at taken
      · rename_i users version phase
        cases taken
        exact (invariant.finish phase (apart users version phase)).setUpdate trivial
      · cases taken
  | abandonUpdate task =>
      cases taken
      exact invariant.setUpdate trivial

theorem quotaCacheInvariant_initial (db : ReferencedQuotaDb) :
    QuotaCacheInvariant (.initial db.toQuotaDb) where
  present := rfl
  reference := db.tagReference
  settled := Nat.le_refl 0
  cached := by simp [QuotaCacheState.initial]
  calls := fun _ => trivial
  updates := fun _ => trivial
  answers := by simp [QuotaCacheState.initial]

/-- Every answer is the resolution of a state at or after the updates that had returned when
its call began. -/
def CoherentAnswers (s : QuotaCacheState) : Prop :=
  ∀ answer ∈ s.answers,
    ReadSince (resolutionOf · answer.userId) s.versions answer.floor (some answer.resolution)

/-! ### Runs -/

/-- One user, whose limits are as an administrator has set them. -/
def singleUserDb (hourlyLimit : Int) : QuotaDb where
  users := ["user"]
  accountQuotaLimits :=
    { rows := [("user", { hourlyAnyLimit := 500, hourlyLimit, dailyLimit := 500,
                          monthlyLimit := 5000, inheritsDefaults := false })]
      distinct := by simp }
  userTags := .empty
  userTagBindings := .empty

def noDefaults : QuotaDefaults where
  forUser := fun _ => { hourlyAnyLimit := 0, hourlyLimit := 0, dailyLimit := 0, monthlyLimit := 0,
                        inheritsDefaults := false }
  legacy := { hourlyAnyLimit := 500, hourlyLimit := 100, dailyLimit := 500, monthlyLimit := 5000,
              inheritsDefaults := true }

/-- **Coherence.** In every run in which no update comes in between, all answers are coherent. -/
theorem quotaCache_coherent (defaults : QuotaDefaults) (db : ReferencedQuotaDb)
    {actions : List QuotaCacheAction}
    (apart : (quotaCacheSystem defaults).Guarded Uninterrupted (.initial db.toQuotaDb) actions) :
    (quotaCacheSystem defaults).AlongRun CoherentAnswers (.initial db.toQuotaDb) actions := by
  have along := (quotaCacheSystem defaults).alongRun_of_guarded
    (fun _ _ _ invariant apart taken => quotaCacheInvariant_step invariant apart taken)
    (quotaCacheInvariant_initial db) apart
  exact along.mono (quotaCacheSystem defaults) fun _ invariant => invariant.answers

/-- The user has a tag that changes nothing. -/
def taggedUserDb : ReferencedQuotaDb where
  toQuotaDb :=
    { singleUserDb 100 with
      userTags :=
        { rows := [("tag", { id := "tag", name := "vip", displayName := "VIP", icon := none,
                             systemKey := none,
                             effect := { effectKind := "quota_delta", hourlyAnyDelta := 0,
                                         hourlyDelta := 0, dailyDelta := 0, monthlyDelta := 0 } })]
          distinct := by simp }
      userTagBindings := { rows := [(("user", "tag"), "manual")], distinct := by simp } }
  tagReference := by
    intro userId tagId has
    obtain ⟨source, found⟩ := Option.isSome_iff_exists.1 has
    cases List.mem_singleton.1 (KeyedTable.find_eq_some_iff.1 found)
    rfl

def blockingEffect : UserTagEffect where
  effectKind := "block_all"
  hourlyAnyDelta := 0
  hourlyDelta := 0
  dailyDelta := 0
  monthlyDelta := 0

/-- A call fills the cache; the tag is made to block while a second call is answered from the
cache; after the update has returned a third call reads anew. -/
def blockedTagRun : List QuotaCacheAction :=
  [.start 1 "user", .fetchLimits 1, .readTags 1, .fill 1 [],
    .prepare 1 (.updateUserTag "tag" "vip" "VIP" none blockingEffect), .write 1,
    .start 2 "user", .finish 1,
    .start 3 "user", .fetchLimits 3, .readTags 3, .fill 3 []]

theorem blockedTagRun_uninterrupted : (quotaCacheSystem noDefaults).Guarded Uninterrupted
    (.initial taggedUserDb.toQuotaDb) blockedTagRun := by
  intro s started
  cases started
  refine ⟨trivial, ?_⟩
  intro s fetched
  cases fetched
  refine ⟨trivial, ?_⟩
  intro s read
  cases read
  refine ⟨?_, ?_⟩
  · rintro userId floor limitsAt base phase i j after upTo changed
    cases phase
    exact absurd changed.lt (Nat.not_lt_of_le after)
  intro s filled
  cases filled
  refine ⟨?_, ?_⟩
  · rintro userId floor readAt resolution phase i after upTo changed
    cases phase
    exact absurd upTo (Nat.not_le_of_lt after)
  intro s prepared
  cases prepared
  refine ⟨trivial, ?_⟩
  intro s written
  cases written
  refine ⟨?_, ?_⟩
  · rintro update reads phase userId tagId gives
    cases phase
    cases gives
  intro s hit
  cases hit
  refine ⟨trivial, ?_⟩
  intro s finished
  cases finished
  refine ⟨?_, ?_⟩
  · -- The only write before that of the update is the empty one that prepares it.
    rintro users version phase userId entry found live spared i waiting earlier ⟨j, before, after,
      made, versionBefore, versionAfter, differ⟩
    cases phase
    have first : i = 1 := by
      have upper : i < 2 := earlier
      have lower : 0 < i := waiting
      omega
    subst first
    cases made
    cases versionBefore
    cases versionAfter
    exact absurd rfl differ
  intro s missed
  cases missed
  refine ⟨trivial, ?_⟩
  intro s fetched
  cases fetched
  refine ⟨trivial, ?_⟩
  intro s read
  cases read
  refine ⟨?_, ?_⟩
  · rintro userId floor limitsAt base phase i j after upTo changed
    cases phase
    exact absurd changed.lt (Nat.not_lt_of_le after)
  intro s filled
  cases filled
  refine ⟨?_, trivial⟩
  rintro userId floor readAt resolution phase i after upTo changed
  cases phase
  exact absurd upTo (Nat.not_le_of_lt after)

theorem quotaCache_coherent_blockedTag : (quotaCacheSystem noDefaults).AlongRun CoherentAnswers
    (.initial taggedUserDb.toQuotaDb) blockedTagRun :=
  quotaCache_coherent noDefaults taggedUserDb blockedTagRun_uninterrupted

/-- A call that reads before an update and fills the cache after it has returned: the next
call still gets the old limits. -/
theorem quotaCache_stale_fill :
    ∃ s, (quotaCacheSystem noDefaults).run (.initial (singleUserDb 100))
        [.start 1 "user", .fetchLimits 1, .readTags 1,
          .prepare 1 (.updateAccountQuotaLimits "user" 500 0 500 5000), .write 1, .finish 1,
          .fill 1 [], .start 2 "user"] = some s ∧ ¬ CoherentAnswers s := by
  refine ⟨_, rfl, ?_⟩
  intro coherent
  obtain ⟨i, db, notOlder, version, same⟩ :=
    coherent _ (List.mem_append_right _ (List.mem_singleton.2 rfl))
  have last : i = 2 := Nat.le_antisymm (Nat.le_of_lt_succ version.lt) notOlder
  subst last
  cases version
  have limits := congrArg (Option.map fun r => r.base.hourlyLimit) same
  revert limits
  decide

end TavilyHikari.Store
