/-
Module: TavilyHikari.Proofs.RequestKindMigration
Purpose: What the migration to canonical request kinds leaves behind in any interleaving:
  rows up to the cursors, and up to the bounds once it is done, store canonical keys,
  except for keys that are canonical only once they are trimmed.
Trusted boundary: none
Main exports: PaddedKey, buildRequestKindBackfillUpdate_eq_none_iff, MigrationInvariant,
  migration_leaves_canonical_keys, migration_leaves_padded_key
-/
import TavilyHikari.Proofs.StoredRequestKind
import TavilyHikari.Store.RequestKindMigration

namespace TavilyHikari.Store

open Library Analysis

/-! ### Markers as texts -/

/-- The markers of the state are read back as they were written. -/
theorem parse_asMetaValue {state : RequestKindCanonicalMigrationState}
    (stamp : ∀ timestamp, (∃ pid, state = .running timestamp pid) ∨ state = .failed timestamp ∨
      state = .done timestamp → i64Min ≤ timestamp ∧ timestamp ≤ i64Max)
    (owner : ∀ timestamp pid, state = .running timestamp (some pid) → pid ≤ 4294967295) :
    parseRequestKindCanonicalMigrationState state.asMetaValue = some state := by
  have colon : String.singleton ':' = ":" := rfl
  have split (first : String) (free : ':' ∉ first.toList) (rest : String) :
      splitAt ':' (first ++ ":" ++ rest) = first :: splitAt ':' rest := splitAt_append free rest
  have number (a : Int) : splitAt ':' (toString a) = [toString a] :=
    splitAt_of_notMem (colon_notMem_toString a)
  cases state with
  | running heartbeatAt ownerPid =>
      obtain ⟨lower, upper⟩ := stamp heartbeatAt (Or.inl ⟨ownerPid, rfl⟩)
      have parsed := parseI64_toString_int lower upper
      cases ownerPid with
      | none =>
          have parts : splitAt ':' ("running" ++ ":" ++ toString heartbeatAt) =
              ["running", toString heartbeatAt] := by
            rw [split _ (by decide), number]
          have text : RequestKindCanonicalMigrationState.asMetaValue (.running heartbeatAt none) =
              "running" ++ ":" ++ toString heartbeatAt := rfl
          simp only [parseRequestKindCanonicalMigrationState, text, parts, parsed,
            Option.bind_some, if_true]
      | some pid =>
          have pidNumber : splitAt ':' (toString pid) = [toString pid] := number (pid : Int)
          have parts : splitAt ':' ("running" ++ ":" ++ (toString heartbeatAt ++ ":" ++ toString pid))
              = ["running", toString heartbeatAt, toString pid] := by
            rw [split _ (by decide), split _ (colon_notMem_toString heartbeatAt), pidNumber]
          have text :
              RequestKindCanonicalMigrationState.asMetaValue (.running heartbeatAt (some pid)) =
                "running" ++ ":" ++ (toString heartbeatAt ++ ":" ++ toString pid) := by
            have front : "running:" = "running" ++ ":" := rfl
            simp only [RequestKindCanonicalMigrationState.asMetaValue, front, String.append_assoc]
          have ownerParsed := parseU32_toString (owner heartbeatAt pid rfl)
          simp only [parseRequestKindCanonicalMigrationState, text, parts, parsed,
            Option.bind_some, if_true, ownerParsed, Option.map_some]
  | failed failedAt =>
      obtain ⟨lower, upper⟩ := stamp failedAt (Or.inr (Or.inl rfl))
      have parts : splitAt ':' ("failed" ++ ":" ++ toString failedAt) =
          ["failed", toString failedAt] := by
        rw [split _ (by decide), number]
      have text : RequestKindCanonicalMigrationState.asMetaValue (.failed failedAt) =
          "failed" ++ ":" ++ toString failedAt := rfl
      have parsed := parseI64_toString_int lower upper
      simp only [parseRequestKindCanonicalMigrationState, text, parts, parsed, Option.bind_some,
        String.reduceEq, if_false, if_true, and_true]
  | done doneAt =>
      obtain ⟨lower, upper⟩ := stamp doneAt (Or.inr (Or.inr rfl))
      have parts : splitAt ':' ("done" ++ ":" ++ toString doneAt) = ["done", toString doneAt] := by
        rw [split _ (by decide), number]
      have text : RequestKindCanonicalMigrationState.asMetaValue (.done doneAt) =
          "done" ++ ":" ++ toString doneAt := rfl
      have parsed := parseI64_toString_int lower upper
      simp only [parseRequestKindCanonicalMigrationState, text, parts, parsed, Option.bind_some,
        String.reduceEq, if_false, if_true, and_true]

/-! ### One row -/

/-- The stored key satisfies the predicate of the queries. -/
def LogRow.Canonical {Request : Type} (row : LogRow Request) : Prop :=
  canonicalRequestKindStoredPredicateSql row.requestKindKey = true

/-- A key that is canonical only without the blanks around it, under its own label. -/
def LogRow.PaddedKey {Request : Type} (row : LogRow Request) : Prop :=
  ∃ key kind, row.requestKindKey = some key ∧
    tokenRequestKindFromCanonicalKey key none = some kind ∧
    row.requestKindLabel.bind nonBlank = some kind.label ∧
    canonicalRequestKindStoredPredicateSql (some key) = false

theorem canonicalKey_canonicalKind (json : SerdeJson) (name : LogTableName)
    (request : LoggedRequest name) (key label detail : Option String) :
    CanonicalKey (canonicalKind json name request key label detail).key := by
  cases name with
  | requestLogs =>
      rw [canonicalKind]
      apply canonicalKey_canonicalize
  | authTokenLogs =>
      rw [canonicalKind]
      apply canonicalKey_finalize

/-- The detail is only passed on. -/
theorem tokenRequestKindFromCanonicalKey_detail (key : String) (detail : Option String) :
    tokenRequestKindFromCanonicalKey (trim key) detail =
      (tokenRequestKindFromCanonicalKey key none).map fun kind =>
        { kind with detail := detail.bind nonBlank } := by
  simp only [tokenRequestKindFromCanonicalKey, trim_trim, Option.map_map]
  rfl

/-- A stored key that is canonical once it is trimmed decides the kind, in both tables. -/
theorem canonicalKind_of_known (json : SerdeJson) (name : LogTableName)
    (request : LoggedRequest name) {key : String} {kind : TokenRequestKind}
    (known : tokenRequestKindFromCanonicalKey key none = some kind) (label detail : Option String) :
    canonicalKind json name request (some (trim key)) label (detail.bind nonBlank) =
      { kind with detail := detail.bind nonBlank } := by
  have canonical : CanonicalKey (trim key) := by
    apply tokenRequestKindFromCanonicalKey_isSome_iff.1
    rw [known]
    rfl
  have withDetail : tokenRequestKindFromCanonicalKey (trim key) (detail.bind nonBlank) =
      some { kind with detail := detail.bind nonBlank } := by
    rw [tokenRequestKindFromCanonicalKey_detail, known, bind_nonBlank_twice]
    rfl
  cases name with
  | requestLogs =>
      have kept : (some (trim key)).filter isCanonicalRequestKindKey = some (trim key) := by
        rw [Option.filter_some, if_pos]
        rw [isCanonicalRequestKindKey_iff, trim_trim]
        exact canonical
      simp only [canonicalKind, canonicalizeRequestLogRequestKind, kept, bind_nonBlank_twice,
        withDetail, Option.getD_some]
  | authTokenLogs =>
      have nonempty : nonBlank (trim key) = some (trim key) := by
        have twice : CanonicalKey (trim (trim key)) := by
          rw [trim_trim]
          exact canonical
        rw [nonBlank_of_canonical twice, trim_trim]
      simp only [canonicalKind, finalizeTokenRequestKind, Option.bind_some, nonempty,
        bind_nonBlank_twice, withDetail]

/-- A row that is left alone stores a canonical key or a padded one. -/
theorem settled_of_build_none {json : SerdeJson} {name : LogTableName}
    {row : LogRow (LoggedRequest name)}
    (left : buildRequestKindBackfillUpdate json name row = none) :
    row.Canonical ∨ row.PaddedKey := by
  unfold buildRequestKindBackfillUpdate at left
  simp only at left
  split_ifs at left with same
  obtain ⟨sameKey, sameLabel, _⟩ := same
  have canonical := canonicalKey_canonicalKind json name row.request
    (row.requestKindKey.bind nonBlank) (row.requestKindLabel.bind nonBlank)
    (row.requestKindDetail.bind nonBlank)
  obtain ⟨key, stored, given⟩ := Option.bind_eq_some_iff.1 sameKey
  have trimmed := (nonBlank_eq_some_iff.mp given).1
  rw [← trimmed] at canonical
  obtain ⟨kind, known⟩ := Option.isSome_iff_exists.1
    ((@tokenRequestKindFromCanonicalKey_isSome_iff key none).2 canonical)
  cases predicate : canonicalRequestKindStoredPredicateSql (some key) with
  | true =>
      left
      rw [LogRow.Canonical, stored, predicate]
  | false =>
      right
      have decided := canonicalKind_of_known json name row.request known
        (row.requestKindLabel.bind nonBlank) row.requestKindDetail
      have currentKey : row.requestKindKey.bind nonBlank = some (trim key) := by
        rw [stored, Option.bind_some, nonBlank_of_canonical canonical]
      rw [currentKey, decided] at sameLabel
      exact ⟨key, kind, stored, known, sameLabel, predicate⟩

/-- A padded key is left alone. -/
theorem build_none_of_paddedKey (json : SerdeJson) {name : LogTableName}
    {row : LogRow (LoggedRequest name)} (padded : row.PaddedKey) :
    buildRequestKindBackfillUpdate json name row = none := by
  obtain ⟨key, kind, stored, known, sameLabel, _⟩ := padded
  have canonical : CanonicalKey (trim key) := by
    apply tokenRequestKindFromCanonicalKey_isSome_iff.1
    rw [known]
    rfl
  have currentKey : row.requestKindKey.bind nonBlank = some (trim key) := by
    rw [stored, Option.bind_some, nonBlank_of_canonical canonical]
  have decided := canonicalKind_of_known json name row.request known
    (row.requestKindLabel.bind nonBlank) row.requestKindDetail
  unfold buildRequestKindBackfillUpdate
  simp only
  rw [currentKey, decided, if_pos]
  refine ⟨?_, sameLabel, ?_⟩
  · rw [key_of_tokenRequestKindFromCanonicalKey known]
  · simp only
    rw [bind_nonBlank_twice]

theorem LogRow.PaddedKey.not_canonical {Request : Type} {row : LogRow Request}
    (padded : row.PaddedKey) : ¬ row.Canonical := by
  obtain ⟨key, kind, stored, _, _, rejected⟩ := padded
  rw [LogRow.Canonical, stored, rejected]
  exact Bool.false_ne_true

theorem canonical_of_build {json : SerdeJson} {name : LogTableName}
    {row : LogRow (LoggedRequest name)} {update : RequestKindCanonicalUpdate}
    (built : buildRequestKindBackfillUpdate json name row = some update) :
    canonicalRequestKindStoredPredicateSql (some update.requestKindKey) = true := by
  unfold buildRequestKindBackfillUpdate at built
  simp only at built
  split_ifs at built
  rw [← Option.some.inj built]
  exact (canonicalKey_canonicalKind json name row.request _ _ _).stored

/-! ### One batch -/

namespace LogTable

variable {Request : Type}

/-- The rows of a batch are rows of the table between the cursor and the bound. -/
theorem mem_selectBatch {t : LogTable Request} {cursor upperBound : Int} {limit : Nat}
    {row : Int × LogRow Request} (selected : row ∈ t.selectBatch cursor upperBound limit) :
    t.find row.1 = some row.2 ∧ cursor < row.1 ∧ row.1 ≤ upperBound := by
  have member := List.mem_of_mem_take selected
  rw [List.mem_insertionSort, List.mem_filter, decide_eq_true_eq] at member
  exact ⟨(t.rows.table.find_eq_some_iff).2 member.1, member.2⟩

/-- No row up to the last one of a batch is passed over. -/
theorem selectBatch_complete {t : LogTable Request} {cursor upperBound : Int} {limit : Nat}
    {last : Int × LogRow Request}
    (final : (t.selectBatch cursor upperBound limit).getLast? = some last) {id : Int}
    {row : LogRow Request} (found : t.find id = some row) (after : cursor < id)
    (upTo : id ≤ last.1) : (id, row) ∈ t.selectBatch cursor upperBound limit := by
  have lastMember := List.mem_of_getLast? final
  obtain ⟨lastFound, _, within⟩ := mem_selectBatch lastMember
  have member : (id, row) ∈ (t.rows.table.rows.filter fun row =>
      cursor < row.1 ∧ row.1 ≤ upperBound).insertionSort fun a b => a.1 ≤ b.1 := by
    rw [List.mem_insertionSort, List.mem_filter, decide_eq_true_eq]
    exact ⟨(t.rows.table.find_eq_some_iff).1 found, after, le_trans upTo within⟩
  have sorted := List.pairwise_insertionSort (fun a b : Int × LogRow Request => a.1 ≤ b.1)
    (t.rows.table.rows.filter fun row => cursor < row.1 ∧ row.1 ≤ upperBound)
  unfold selectBatch at lastMember ⊢
  rw [← List.take_append_drop limit (List.insertionSort _ _), List.mem_append] at member
  rw [← List.take_append_drop limit (List.insertionSort _ _), List.pairwise_append] at sorted
  rcases member with taken | dropped
  · exact taken
  · -- A row that is dropped stands after the last one, so it is that one.
    have order : last.1 ≤ id := sorted.2.2 last lastMember (id, row) dropped
    have same : id = last.1 := le_antisymm upTo order
    subst same
    rw [lastFound] at found
    rw [← Option.some.inj found]
    exact lastMember

theorem selectBatch_eq_nil {t : LogTable Request} {cursor upperBound : Int} {limit : Nat}
    (positive : 0 < limit) (none : t.selectBatch cursor upperBound limit = []) {id : Int}
    {row : LogRow Request} (found : t.find id = some row) (upTo : id ≤ upperBound) :
    id ≤ cursor := by
  by_contra after
  rw [selectBatch, List.take_eq_nil_iff] at none
  rcases none with zero | empty
  · omega
  · have member : (id, row) ∈ (t.rows.table.rows.filter fun row =>
        cursor < row.1 ∧ row.1 ≤ upperBound).insertionSort fun a b => a.1 ≤ b.1 := by
      rw [List.mem_insertionSort, List.mem_filter, decide_eq_true_eq]
      exact ⟨(t.rows.table.find_eq_some_iff).1 found, by omega, upTo⟩
    rw [empty] at member
    cases member

@[simp] theorem find_setKind_self (t : LogTable Request) (id : Int)
    (update : RequestKindCanonicalUpdate) :
    (t.setKind id update).find id = (t.find id).map (·.setKind update) :=
  t.rows.find_modify_self id _

theorem find_setKind_of_ne (t : LogTable Request) {id other : Int} (different : other ≠ id)
    (update : RequestKindCanonicalUpdate) : (t.setKind id update).find other = t.find other :=
  t.rows.find_modify_of_ne different _

/-- After the updates of a batch a row is as it was, or stores the key of one of them;
where one of them is for it, it stores such a key. -/
theorem find_applyUpdates {t : LogTable Request}
    {updates : List (Int × RequestKindCanonicalUpdate)} {id : Int} {row : LogRow Request}
    (found : (t.applyUpdates updates).find id = some row) :
    ∃ old, t.find id = some old ∧
      ((row = old ∧ ∀ update ∈ updates, update.1 ≠ id) ∨
        ∃ update ∈ updates, update.1 = id ∧ row.requestKindKey = some update.2.requestKindKey) := by
  induction updates generalizing t with
  | nil => exact ⟨row, found, Or.inl ⟨rfl, by simp⟩⟩
  | cons first rest ih =>
      obtain ⟨mid, foundMid, outcome⟩ := ih found
      by_cases same : id = first.1
      · subst same
        rw [find_setKind_self, Option.map_eq_some_iff] at foundMid
        obtain ⟨old, foundOld, changed⟩ := foundMid
        refine ⟨old, foundOld, Or.inr ?_⟩
        rcases outcome with ⟨kept, _⟩ | ⟨update, member, here, key⟩
        · refine ⟨first, List.mem_cons_self, rfl, ?_⟩
          rw [kept, ← changed]
          rfl
        · exact ⟨update, List.mem_cons_of_mem _ member, here, key⟩
      · rw [find_setKind_of_ne _ same] at foundMid
        refine ⟨mid, foundMid, ?_⟩
        rcases outcome with ⟨kept, others⟩ | ⟨update, member, here, key⟩
        · left
          refine ⟨kept, ?_⟩
          intro update member
          rcases List.mem_cons.1 member with rfl | member
          · exact Ne.symm same
          · exact others update member
        · exact Or.inr ⟨update, List.mem_cons_of_mem _ member, here, key⟩

@[simp] theorem last_applyUpdates (t : LogTable Request)
    (updates : List (Int × RequestKindCanonicalUpdate)) :
    (t.applyUpdates updates).rows.last = t.rows.last := by
  induction updates generalizing t with
  | nil => rfl
  | cons first rest ih => exact ih (t.setKind first.1 first.2)

theorem maxId_le_last (t : LogTable Request) : t.maxId ≤ t.rows.last := by
  unfold maxId
  cases top : (t.rows.table.rows.map Prod.fst).max? with
  | none => exact t.nonneg
  | some id =>
      obtain ⟨row, member, rfl⟩ := List.mem_map.1 (List.max?_mem top)
      exact t.rows.bounded row.1 row.2 ((t.rows.table.find_eq_some_iff).2 member)

end LogTable

/-! ### What every database of a run satisfies -/

def LogTable.CanonicalUpTo {Request : Type} (t : LogTable Request) (bound : Int) : Prop :=
  ∀ id row, t.find id = some row → id ≤ bound → row.Canonical

/-- Between two states of the database rows are only added, past the bounds, or made
canonical, and the bounds stay. -/
structure Advances (db db' : MigrationDb) : Prop where
  bounds : ∀ bounds, db.markers.upperBounds = some bounds → db'.markers.upperBounds = some bounds
  last : ∀ name, (db.tables name).rows.last ≤ (db'.tables name).rows.last
  rows : ∀ name id row', (db'.tables name).find id = some row' →
    id ≤ (db.tables name).rows.last →
      ∃ row, (db.tables name).find id = some row ∧ (row.Canonical → row'.Canonical) ∧
        (row'.PaddedKey → row.PaddedKey)

/-- What holds of the tables and the markers. -/
structure MarkersInvariant (db : MigrationDb) : Prop where
  padded : ∀ name id row, (db.tables name).find id = some row → row.PaddedKey →
    ∃ bounds, db.markers.upperBounds = some bounds ∧ bounds name < id
  started : db.markers.status = none ↔ db.markers.upperBounds = none
  within : ∀ bounds, db.markers.upperBounds = some bounds →
    ∀ name, bounds name ≤ (db.tables name).rows.last
  cursors : ∀ name cursor, db.markers.cursor name = some cursor →
    cursor ≤ (db.tables name).rows.last ∧ (db.tables name).CanonicalUpTo cursor
  finished : ∀ doneAt bounds, db.markers.status = some (.done doneAt) →
    db.markers.upperBounds = some bounds → ∀ name, (db.tables name).CanonicalUpTo (bounds name)

/-- The tables before this one are canonical up to their bounds. -/
def EarlierCanonical (db : MigrationDb) (bounds : UpperBounds) : LogTableName → Prop
  | .requestLogs => True
  | .authTokenLogs => (db.tables .requestLogs).CanonicalUpTo (bounds .requestLogs)

/-- What a process relies on. -/
def PhaseInvariant (db : MigrationDb) : MigrationPhase → Prop
  | .opening name bounds =>
      db.markers.upperBounds = some bounds ∧ EarlierCanonical db bounds name
  | .scanning name bounds cursor =>
      db.markers.upperBounds = some bounds ∧ EarlierCanonical db bounds name ∧
        cursor ≤ (db.tables name).rows.last ∧ (db.tables name).CanonicalUpTo cursor
  | .writing name bounds batch =>
      db.markers.upperBounds = some bounds ∧ EarlierCanonical db bounds name ∧
        batch.maxId ≤ bounds name ∧
        (∀ update ∈ batch.updates,
          canonicalRequestKindStoredPredicateSql (some update.2.requestKindKey) = true) ∧
        ∀ id row, (db.tables name).find id = some row → id ≤ batch.maxId →
          row.Canonical ∨ ∃ update ∈ batch.updates, update.1 = id
  | .completed bounds =>
      db.markers.upperBounds = some bounds ∧
        ∀ name, (db.tables name).CanonicalUpTo (bounds name)
  | .failed => ∃ bounds, db.markers.upperBounds = some bounds
  | _ => True

structure MigrationInvariant (s : MigrationSystemState) : Prop where
  markers : MarkersInvariant s.toMigrationDb
  phases : ∀ pid, PhaseInvariant s.toMigrationDb (s.phases pid)

theorem Advances.refl (db : MigrationDb) : Advances db db where
  bounds := fun _ same => same
  last := fun _ => le_refl _
  rows := fun _ _ row found _ => ⟨row, found, id, id⟩

/-- Only the markers changed, and not the bounds. -/
theorem Advances.of_tables {db db' : MigrationDb} (tables : db'.tables = db.tables)
    (bounds : ∀ bounds, db.markers.upperBounds = some bounds →
      db'.markers.upperBounds = some bounds) : Advances db db' where
  bounds := bounds
  last := by
    intro name
    rw [tables]
  rows := by
    intro name id row found _
    rw [tables] at found
    exact ⟨row, found, fun canonical => canonical, fun padded => padded⟩

theorem Advances.canonicalUpTo {db db' : MigrationDb} (advances : Advances db db')
    {name : LogTableName} {bound : Int} (within : bound ≤ (db.tables name).rows.last)
    (canonical : (db.tables name).CanonicalUpTo bound) :
    (db'.tables name).CanonicalUpTo bound := by
  intro id row found upTo
  obtain ⟨old, foundOld, kept, _⟩ := advances.rows name id row found (le_trans upTo within)
  exact kept (canonical id old foundOld upTo)

theorem Advances.earlier {db db' : MigrationDb} (advances : Advances db db')
    (invariant : MarkersInvariant db) {bounds : UpperBounds}
    (given : db.markers.upperBounds = some bounds) {name : LogTableName}
    (earlier : EarlierCanonical db bounds name) : EarlierCanonical db' bounds name := by
  cases name with
  | requestLogs => trivial
  | authTokenLogs =>
      exact advances.canonicalUpTo (invariant.within bounds given .requestLogs) earlier

/-- What a process relies on stays when others advance. -/
theorem Advances.phase {db db' : MigrationDb} (advances : Advances db db')
    (invariant : MarkersInvariant db) {phase : MigrationPhase} (holds : PhaseInvariant db phase) :
    PhaseInvariant db' phase := by
  cases phase with
  | opening name bounds =>
      obtain ⟨given, earlier⟩ := holds
      exact ⟨advances.bounds bounds given, advances.earlier invariant given earlier⟩
  | scanning name bounds cursor =>
      obtain ⟨given, earlier, within, canonical⟩ := holds
      exact ⟨advances.bounds bounds given, advances.earlier invariant given earlier,
        le_trans within (advances.last name), advances.canonicalUpTo within canonical⟩
  | writing name bounds batch =>
      obtain ⟨given, earlier, upTo, keys, covered⟩ := holds
      refine ⟨advances.bounds bounds given, advances.earlier invariant given earlier, upTo, keys,
        ?_⟩
      intro id row found before
      have last : id ≤ (db.tables name).rows.last :=
        le_trans (le_trans before upTo) (invariant.within bounds given name)
      obtain ⟨old, foundOld, kept, _⟩ := advances.rows name id row found last
      rcases covered id old foundOld before with canonical | update
      · exact Or.inl (kept canonical)
      · exact Or.inr update
  | completed bounds =>
      obtain ⟨given, canonical⟩ := holds
      exact ⟨advances.bounds bounds given, fun name =>
        advances.canonicalUpTo (invariant.within bounds given name) (canonical name)⟩
  | idle => trivial
  | claiming nowTs => trivial
  | claimed => trivial
  | failed =>
      obtain ⟨bounds, given⟩ := holds
      exact ⟨bounds, advances.bounds bounds given⟩

/-- A step of one process on the database keeps the invariant. -/
theorem MigrationInvariant.advance {s : MigrationSystemState} (invariant : MigrationInvariant s)
    {db : MigrationDb} (advances : Advances s.toMigrationDb db) (markers : MarkersInvariant db)
    {pid : Nat} {phase : MigrationPhase} (holds : PhaseInvariant db phase) :
    MigrationInvariant ((s.setDb db).setPhase pid phase) where
  markers := markers
  phases := by
    intro other
    by_cases same : other = pid
    · subst same
      simp only [MigrationSystemState.setPhase, Function.update_self]
      exact holds
    · simp only [MigrationSystemState.setPhase, Function.update_of_ne same]
      exact advances.phase invariant.markers (invariant.phases other)

/-- A step of one process that leaves the database keeps the invariant. -/
theorem MigrationInvariant.setPhase {s : MigrationSystemState} (invariant : MigrationInvariant s)
    {pid : Nat} {phase : MigrationPhase} (holds : PhaseInvariant s.toMigrationDb phase) :
    MigrationInvariant (s.setPhase pid phase) :=
  invariant.advance (.refl _) invariant.markers holds

/-! ### The statements -/

theorem upperBounds_of_all {m : MigrationMeta} {bounds : UpperBounds}
    (all : m.upperBound = fun name => some (bounds name)) : m.upperBounds = some bounds := by
  rw [MigrationMeta.upperBounds, all]
  simp only [Option.some.injEq]
  funext name
  cases name <;> rfl

/-- What the transaction of a claim does, by what it finds. -/
theorem tryClaim_cases (live : Nat → Bool) (nowTs : Int) (pid : Nat) (db : MigrationDb) :
    (∃ doneAt, db.markers.status = some (.done doneAt) ∧
      tryClaimRequestKindCanonicalMigration live nowTs pid db = (.alreadyDone doneAt,
        { db with
          markers := { db.markers with done := some doneAt, state := some (.done doneAt) } })) ∨
    (∃ heartbeatAt,
      tryClaimRequestKindCanonicalMigration live nowTs pid db =
        (.runningElsewhere heartbeatAt, db)) ∨
    ((∀ doneAt, db.markers.status ≠ some (.done doneAt)) ∧
      tryClaimRequestKindCanonicalMigration live nowTs pid db = (.claimed,
        { db with
          markers := { db.markers with
            upperBound := fun name => some (db.claimUpperBounds name)
            state := some (.running nowTs (some pid))
            done := none } })) := by
  unfold tryClaimRequestKindCanonicalMigration lookAtMigration
  cases found : db.markers.status with
  | none => exact Or.inr (Or.inr ⟨by simp, rfl⟩)
  | some state =>
      cases state with
      | done doneAt => exact Or.inl ⟨doneAt, rfl, rfl⟩
      | running heartbeatAt ownerPid =>
          simp only
          cases blocked : requestKindCanonicalMigrationStateBlocksReentry live nowTs
              (.running heartbeatAt ownerPid) with
          | none => exact Or.inr (Or.inr ⟨by simp, rfl⟩)
          | some beat => exact Or.inr (Or.inl ⟨beat, rfl⟩)
      | failed failedAt => exact Or.inr (Or.inr ⟨by simp, rfl⟩)

/-- A claim keeps the bounds that are there. -/
theorem claimUpperBounds_of_some {db : MigrationDb} (invariant : MarkersInvariant db)
    (pending : ∀ doneAt, db.markers.status ≠ some (.done doneAt)) {bounds : UpperBounds}
    (given : db.markers.upperBounds = some bounds) : db.claimUpperBounds = bounds := by
  unfold MigrationDb.claimUpperBounds
  cases found : db.markers.status with
  | none =>
      rw [invariant.started.1 found] at given
      cases given
  | some state =>
      cases state with
      | done doneAt => exact absurd found (pending doneAt)
      | running heartbeatAt ownerPid => simp only [given, Option.getD_some]
      | failed failedAt => simp only [given, Option.getD_some]

/-- A first claim takes the ends of the tables. -/
theorem claimUpperBounds_of_none {db : MigrationDb} (invariant : MarkersInvariant db)
    (missing : db.markers.upperBounds = none) : db.claimUpperBounds = db.captureUpperBounds := by
  have fresh : db.markers.status = none := invariant.started.2 missing
  simp only [MigrationDb.claimUpperBounds, fresh]

theorem markers_claimed {db : MigrationDb} (invariant : MarkersInvariant db)
    (pending : ∀ doneAt, db.markers.status ≠ some (.done doneAt)) (nowTs : Int) (pid : Nat) :
    let db' : MigrationDb :=
      { db with
        markers := { db.markers with
          upperBound := fun name => some (db.claimUpperBounds name)
          state := some (.running nowTs (some pid))
          done := none } }
    Advances db db' ∧ MarkersInvariant db' := by
  intro db'
  have written : db'.markers.upperBounds = some db.claimUpperBounds := upperBounds_of_all rfl
  have kept : ∀ bounds, db.markers.upperBounds = some bounds →
      db'.markers.upperBounds = some bounds := by
    intro bounds given
    rw [written, claimUpperBounds_of_some invariant pending given]
  refine ⟨.of_tables rfl kept, ?_, ?_, ?_, invariant.cursors, ?_⟩
  · intro name id row found padded
    obtain ⟨bounds, given, past⟩ := invariant.padded name id row found padded
    exact ⟨bounds, kept bounds given, past⟩
  · rw [written]
    simp [db', MigrationMeta.status]
  · intro bounds given name
    rw [written] at given
    cases given
    cases before : db.markers.upperBounds with
    | none =>
        rw [claimUpperBounds_of_none invariant before]
        exact (db.tables name).maxId_le_last
    | some bounds =>
        rw [claimUpperBounds_of_some invariant pending before]
        exact invariant.within bounds before name
  · intro doneAt bounds found
    simp [db', MigrationMeta.status] at found

/-- Writing the markers of a state that changes neither the bounds nor the status. -/
theorem markers_of_status {db db' : MigrationDb} (invariant : MarkersInvariant db)
    (tables : db'.tables = db.tables) (upperBound : db'.markers.upperBound = db.markers.upperBound)
    (cursor : db'.markers.cursor = db.markers.cursor)
    (status : db'.markers.status = db.markers.status) :
    Advances db db' ∧ MarkersInvariant db' := by
  have bounds : db'.markers.upperBounds = db.markers.upperBounds := by
    rw [MigrationMeta.upperBounds, upperBound, MigrationMeta.upperBounds]
  refine ⟨.of_tables tables fun b given => by rw [bounds, given], ?_, ?_, ?_, ?_, ?_⟩
  · rw [tables, bounds]
    exact invariant.padded
  · rw [bounds, status]
    exact invariant.started
  · rw [tables, bounds]
    exact invariant.within
  · rw [tables, cursor]
    exact invariant.cursors
  · rw [tables, bounds, status]
    exact invariant.finished

theorem markers_claim {db : MigrationDb} (invariant : MarkersInvariant db) (live : Nat → Bool)
    (nowTs : Int) (pid : Nat) :
    Advances db (tryClaimRequestKindCanonicalMigration live nowTs pid db).2 ∧
      MarkersInvariant (tryClaimRequestKindCanonicalMigration live nowTs pid db).2 := by
  rcases tryClaim_cases live nowTs pid db with ⟨doneAt, found, result⟩ | ⟨beat, result⟩ |
    ⟨pending, result⟩
  · rw [result]
    exact markers_of_status invariant rfl rfl rfl (by rw [found]; rfl)
  · rw [result]
    exact ⟨.refl db, invariant⟩
  · rw [result]
    exact markers_claimed invariant pending nowTs pid

/-- Writing another status over bounds that are there. -/
theorem markers_of_written {db db' : MigrationDb} (invariant : MarkersInvariant db)
    (tables : db'.tables = db.tables) (upperBound : db'.markers.upperBound = db.markers.upperBound)
    (cursor : db'.markers.cursor = db.markers.cursor)
    {bounds : UpperBounds} (given : db.markers.upperBounds = some bounds)
    {state : RequestKindCanonicalMigrationState} (status : db'.markers.status = some state)
    (finished : ∀ doneAt, state = .done doneAt →
      ∀ name, (db.tables name).CanonicalUpTo (bounds name)) :
    Advances db db' ∧ MarkersInvariant db' := by
  have same : db'.markers.upperBounds = db.markers.upperBounds := by
    rw [MigrationMeta.upperBounds, upperBound, MigrationMeta.upperBounds]
  refine ⟨.of_tables tables fun b given => by rw [same, given], ?_, ?_, ?_, ?_, ?_⟩
  · rw [tables, same]
    exact invariant.padded
  · rw [status, same, given]
    simp
  · rw [tables, same]
    exact invariant.within
  · rw [tables, cursor]
    exact invariant.cursors
  · intro doneAt other found givenOther
    rw [status] at found
    rw [same, given] at givenOther
    cases givenOther
    rw [tables]
    exact finished doneAt (Option.some.inj found)

theorem markers_finish {db : MigrationDb} (invariant : MarkersInvariant db)
    {bounds : UpperBounds} (given : db.markers.upperBounds = some bounds)
    (state : RequestKindCanonicalMigrationState)
    (finished : ∀ doneAt, state = .done doneAt →
      ∀ name, (db.tables name).CanonicalUpTo (bounds name)) :
    Advances db (finishRequestKindCanonicalMigration state db) ∧
      MarkersInvariant (finishRequestKindCanonicalMigration state db) := by
  unfold finishRequestKindCanonicalMigration
  cases present : db.markers.done with
  | some doneAt =>
      simp only
      refine markers_of_status invariant rfl rfl rfl ?_
      simp only [MigrationMeta.status, present]
  | none =>
      cases state with
      | done doneAt =>
          exact markers_of_written invariant rfl rfl rfl given rfl finished
      | running heartbeatAt ownerPid => exact ⟨.refl db, invariant⟩
      | failed failedAt =>
          have status : MigrationMeta.status { db.markers with state := some (.failed failedAt) } =
              some (.failed failedAt) := by
            simp only [MigrationMeta.status, present]
          exact markers_of_written invariant rfl rfl rfl given status (by simp)

/-- A new row comes after the bounds. -/
theorem markers_insert {db : MigrationDb} (invariant : MarkersInvariant db) (name : LogTableName)
    (row : LogRow (LoggedRequest name))
    (unpadded : db.markers.upperBounds = none → ¬ row.PaddedKey) :
    let db' : MigrationDb :=
      { db with tables := Function.update db.tables name ((db.tables name).insert row) }
    Advances db db' ∧ MarkersInvariant db' := by
  intro db'
  have last : ∀ other, (db.tables other).rows.last ≤ (db'.tables other).rows.last := by
    intro other
    by_cases same : other = name
    · subst same
      simp only [db', Function.update_self, LogTable.insert, AutoIncrement.last_insert]
      omega
    · simp only [db', Function.update_of_ne same]
      exact le_refl _
  have old : ∀ other id stored, (db'.tables other).find id = some stored →
      id ≤ (db.tables other).rows.last → (db.tables other).find id = some stored := by
    intro other id stored found within
    by_cases same : other = name
    · subst same
      simp only [db', Function.update_self] at found
      rw [← found]
      exact ((db.tables other).rows.find_insert_of_ne (by omega) row).symm
    · simp only [db', Function.update_of_ne same] at found
      exact found
  have upTo : ∀ other bound, bound ≤ (db.tables other).rows.last →
      (db.tables other).CanonicalUpTo bound → (db'.tables other).CanonicalUpTo bound := by
    intro other bound within canonical id stored found before
    exact canonical id stored (old other id stored found (le_trans before within)) before
  refine ⟨⟨fun _ same => same, last, ?_⟩, ?_, invariant.started, ?_, ?_, ?_⟩
  · intro other id stored found within
    exact ⟨stored, old other id stored found within, fun canonical => canonical,
      fun padded => padded⟩
  · intro other id stored found padded
    by_cases within : id ≤ (db.tables other).rows.last
    · exact invariant.padded other id stored (old other id stored found within) padded
    · -- Only the new row stands past the end of its table.
      by_cases same : other = name
      · subst same
        have isLast : id ≤ (db.tables other).rows.last + 1 := by
          simp only [db', Function.update_self] at found
          exact AutoIncrement.le_last found
        have new : id = (db.tables other).rows.last + 1 := by omega
        subst new
        simp only [db', Function.update_self] at found
        have isRow : stored = row := by
          have self := (db.tables other).rows.find_insert_self row
          unfold LogTable.find LogTable.insert at found
          rw [self] at found
          exact (Option.some.inj found).symm
        subst isRow
        cases given : db.markers.upperBounds with
        | none => exact absurd padded (unpadded given)
        | some bounds =>
            have below := invariant.within bounds given other
            exact ⟨bounds, rfl, by omega⟩
      · simp only [db', Function.update_of_ne same] at found
        exact invariant.padded other id stored found padded
  · intro bounds given other
    exact le_trans (invariant.within bounds given other) (last other)
  · intro other cursor given
    obtain ⟨within, canonical⟩ := invariant.cursors other cursor given
    exact ⟨le_trans within (last other), upTo other cursor within canonical⟩
  · intro doneAt bounds found given other
    exact upTo other _ (invariant.within bounds given other)
      (invariant.finished doneAt bounds found given other)

/-- The rows of a batch are canonical once it is committed, and so are those before it. -/
theorem canonicalUpTo_commit {Request : Type} {t : LogTable Request} {batch : Batch}
    (keys : ∀ update ∈ batch.updates,
      canonicalRequestKindStoredPredicateSql (some update.2.requestKindKey) = true)
    (covered : ∀ id row, t.find id = some row → id ≤ batch.maxId →
      row.Canonical ∨ ∃ update ∈ batch.updates, update.1 = id) :
    (t.applyUpdates batch.updates).CanonicalUpTo batch.maxId := by
  intro id row found upTo
  obtain ⟨old, foundOld, outcome⟩ := LogTable.find_applyUpdates found
  rcases outcome with ⟨same, others⟩ | ⟨update, member, _, key⟩
  · rcases covered id old foundOld upTo with canonical | ⟨update, member, here⟩
    · rw [same]
      exact canonical
    · exact absurd here (others update member)
  · rw [LogRow.Canonical, key]
    exact keys update member

theorem markers_commit {db : MigrationDb} (invariant : MarkersInvariant db) (pid : Nat)
    (nowTs : Int) {name : LogTableName} {bounds : UpperBounds} {batch : Batch}
    (holds : PhaseInvariant db (.writing name bounds batch)) :
    Advances db (commitBatch pid nowTs name batch db) ∧
      MarkersInvariant (commitBatch pid nowTs name batch db) ∧
        ((commitBatch pid nowTs name batch db).tables name).CanonicalUpTo batch.maxId := by
  obtain ⟨given, earlier, upTo, keys, covered⟩ := holds
  have sameBounds : (commitBatch pid nowTs name batch db).markers.upperBounds =
      db.markers.upperBounds := rfl
  have last : ∀ other, ((commitBatch pid nowTs name batch db).tables other).rows.last =
      (db.tables other).rows.last := by
    intro other
    by_cases same : other = name
    · subst same
      simp only [commitBatch, Function.update_self, LogTable.last_applyUpdates]
    · simp only [commitBatch, Function.update_of_ne same]
  have written : ((commitBatch pid nowTs name batch db).tables name).CanonicalUpTo
      batch.maxId := by
    simp only [commitBatch, Function.update_self]
    exact canonicalUpTo_commit keys covered
  have rows : ∀ other id row',
      ((commitBatch pid nowTs name batch db).tables other).find id = some row' →
        ∃ row, (db.tables other).find id = some row ∧ (row.Canonical → row'.Canonical) ∧
          (row'.PaddedKey → row.PaddedKey) := by
    intro other id row' found
    by_cases same : other = name
    · subst same
      simp only [commitBatch, Function.update_self] at found
      obtain ⟨old, foundOld, outcome⟩ := LogTable.find_applyUpdates found
      refine ⟨old, foundOld, ?_⟩
      rcases outcome with ⟨kept, _⟩ | ⟨update, member, _, key⟩
      · subst kept
        exact ⟨fun canonical => canonical, fun padded => padded⟩
      · have canonical : row'.Canonical := by
          rw [LogRow.Canonical, key]
          exact keys update member
        exact ⟨fun _ => canonical, fun padded => absurd canonical padded.not_canonical⟩
    · simp only [commitBatch, Function.update_of_ne same] at found
      exact ⟨row', found, fun canonical => canonical, fun padded => padded⟩
  have advances : Advances db (commitBatch pid nowTs name batch db) :=
    { bounds := fun _ same => same
      last := fun other => le_of_eq (last other).symm
      rows := fun other id row' found _ => rows other id row' found }
  refine ⟨advances, ⟨?_, ?_, ?_, ?_, ?_⟩, written⟩
  · intro other id row' found padded
    obtain ⟨row, foundRow, _, wasPadded⟩ := rows other id row' found
    exact invariant.padded other id row foundRow (wasPadded padded)
  · rw [sameBounds, given]
    have marked : (commitBatch pid nowTs name batch db).markers.status ≠ none := by
      simp only [commitBatch, MigrationMeta.status]
      split <;> simp
    simp [marked]
  · intro other givenOther table
    rw [last]
    exact invariant.within other givenOther table
  · intro other cursor found
    rw [last]
    by_cases same : other = name
    · subst same
      have isMax : batch.maxId = cursor := by
        simp only [commitBatch, Function.update_self] at found
        exact Option.some.inj found
      subst isMax
      exact ⟨le_trans upTo (invariant.within bounds given other), written⟩
    · simp only [commitBatch, Function.update_of_ne same] at found
      obtain ⟨within, canonical⟩ := invariant.cursors other cursor found
      exact ⟨within, advances.canonicalUpTo within canonical⟩
  · intro doneAt other found givenOther table
    -- A heartbeat does not hide the marker of a finished run.
    have wasDone : db.markers.status = some (.done doneAt) := by
      simp only [commitBatch, MigrationMeta.status] at found
      cases present : db.markers.done with
      | some at_ =>
          rw [present] at found
          simp only [MigrationMeta.status, present]
          exact found
      | none =>
          rw [present] at found
          simp at found
    exact advances.canonicalUpTo (invariant.within other givenOther table)
      (invariant.finished doneAt other wasDone givenOther table)

/-! ### The reads of a process -/

/-- A batch that was read covers every row up to its end. -/
theorem phase_of_readBatch {json : SerdeJson} {db : MigrationDb} (invariant : MarkersInvariant db)
    {name : LogTableName} {bounds : UpperBounds} {cursor : Int} {batch : Batch}
    (holds : PhaseInvariant db (.scanning name bounds cursor))
    (selected : readBatch json db name cursor (bounds name) = some batch) :
    PhaseInvariant db (.writing name bounds batch) := by
  obtain ⟨given, earlier, _, canonical⟩ := holds
  obtain ⟨last, final, built⟩ := Option.map_eq_some_iff.1 selected
  subst built
  have upTo := (LogTable.mem_selectBatch (List.mem_of_getLast? final)).2.2
  refine ⟨given, earlier, upTo, ?_, ?_⟩
  · intro update member
    obtain ⟨row, _, mapped⟩ := List.mem_filterMap.1 member
    obtain ⟨change, changed, rfl⟩ := Option.map_eq_some_iff.1 mapped
    exact canonical_of_build changed
  · intro id row found before
    by_cases seen : id ≤ cursor
    · exact Or.inl (canonical id row found seen)
    · have inBatch := LogTable.selectBatch_complete final found (by omega) before
      cases change : buildRequestKindBackfillUpdate json name row with
      | none =>
          left
          rcases settled_of_build_none change with settled | padded
          · exact settled
          · -- No padded key stands within the bounds.
            obtain ⟨other, givenOther, past⟩ := invariant.padded name id row found padded
            rw [given] at givenOther
            cases givenOther
            have bound : id ≤ bounds name := le_trans before upTo
            omega
      | some update =>
          right
          refine ⟨(id, update), ?_, rfl⟩
          rw [List.mem_filterMap]
          exact ⟨(id, row), inBatch, by rw [change]; rfl⟩

/-- Where no batch is left the table is canonical up to its bound. -/
theorem phase_of_tableEnd {json : SerdeJson} {db : MigrationDb}
    {name : LogTableName} {bounds : UpperBounds} {cursor : Int}
    (holds : PhaseInvariant db (.scanning name bounds cursor))
    (selected : readBatch json db name cursor (bounds name) = none) :
    PhaseInvariant db (afterTable bounds name) := by
  obtain ⟨given, earlier, _, canonical⟩ := holds
  have empty : (db.tables name).selectBatch cursor (bounds name)
      requestKindCanonicalBackfillBatchSize = [] := by
    rw [← List.getLast?_eq_none_iff]
    exact Option.map_eq_none_iff.1 selected
  have complete : (db.tables name).CanonicalUpTo (bounds name) := by
    intro id row found upTo
    exact canonical id row found (LogTable.selectBatch_eq_nil (by decide) empty found upTo)
  cases name with
  | requestLogs => exact ⟨given, complete⟩
  | authTokenLogs =>
      refine ⟨given, ?_⟩
      intro name
      cases name with
      | requestLogs => exact earlier
      | authTokenLogs => exact complete

theorem phase_of_openTable {db : MigrationDb} (invariant : MarkersInvariant db)
    {name : LogTableName} {bounds : UpperBounds} (holds : PhaseInvariant db (.opening name bounds)) :
    PhaseInvariant db (.scanning name bounds ((db.markers.cursor name).getD 0)) := by
  obtain ⟨given, earlier⟩ := holds
  refine ⟨given, earlier, ?_⟩
  cases stored : db.markers.cursor name with
  | none =>
      refine ⟨(db.tables name).nonneg, ?_⟩
      intro id row found upTo
      have first := (db.tables name).positive id row found
      simp only [Option.getD_none] at upTo
      omega
  | some cursor => exact invariant.cursors name cursor stored

/-! ### Runs -/

/-- Nothing is reset, and no padded key is logged before the bounds are taken. -/
def KeepsKeys (s : MigrationSystemState) : MigrationAction → Prop
  | .reset => False
  | .insert _ row => s.markers.upperBounds = none → ¬ row.PaddedKey
  | _ => True

theorem migrationInvariant_step {json : SerdeJson} {s s' : MigrationSystemState}
    {action : MigrationAction} (invariant : MigrationInvariant s) (keeps : KeepsKeys s action)
    (taken : (migrationSystem json).step s action = some s') : MigrationInvariant s' := by
  cases action with
  | insert name row =>
      cases taken
      obtain ⟨advances, markers⟩ := markers_insert invariant.markers name row keeps
      exact ⟨markers, fun pid => advances.phase invariant.markers (invariant.phases pid)⟩
  | look pid nowTs live =>
      simp only [migrationSystem, migrationStep] at taken
      split at taken
      · split at taken
        · cases taken
          exact invariant
        · cases taken
          exact invariant.setPhase trivial
      · cases taken
  | claim pid live =>
      simp only [migrationSystem, migrationStep] at taken
      split at taken
      · rename_i nowTs _
        obtain ⟨advances, markers⟩ := markers_claim invariant.markers live nowTs pid
        split at taken
        all_goals
          rename_i result
          cases taken
          rw [result] at advances markers
          exact invariant.advance advances markers trivial
      · cases taken
  | readBounds pid =>
      simp only [migrationSystem, migrationStep] at taken
      split at taken
      · split at taken
        · rename_i bounds given
          cases taken
          exact invariant.setPhase ⟨given, trivial⟩
        · cases taken
          exact invariant.setPhase trivial
      · cases taken
  | openTable pid =>
      simp only [migrationSystem, migrationStep] at taken
      split at taken
      · rename_i name bounds phase
        cases taken
        have holds := invariant.phases pid
        rw [phase] at holds
        exact invariant.setPhase (phase_of_openTable invariant.markers holds)
      · cases taken
  | select pid =>
      simp only [migrationSystem, migrationStep] at taken
      split at taken
      · rename_i name bounds cursor phase
        have holds := invariant.phases pid
        rw [phase] at holds
        split at taken
        · rename_i batch selected
          cases taken
          exact invariant.setPhase (phase_of_readBatch invariant.markers holds selected)
        · rename_i selected
          cases taken
          exact invariant.setPhase (phase_of_tableEnd holds selected)
      · cases taken
  | commit pid nowTs =>
      simp only [migrationSystem, migrationStep] at taken
      split at taken
      · rename_i name bounds batch phase
        cases taken
        have holds := invariant.phases pid
        rw [phase] at holds
        obtain ⟨advances, markers, written⟩ :=
          markers_commit invariant.markers pid nowTs holds
        apply invariant.advance advances markers
        obtain ⟨given, earlier, upTo, _⟩ := holds
        have within := le_trans upTo (invariant.markers.within bounds given name)
        exact ⟨advances.bounds bounds given, advances.earlier invariant.markers given earlier,
          le_trans within (advances.last name), written⟩
      · cases taken
  | fail pid =>
      simp only [migrationSystem, migrationStep] at taken
      have holds := invariant.phases pid
      split at taken
      all_goals first
        | cases taken
          rename_i phase
          rw [phase] at holds
          exact invariant.setPhase ⟨_, holds.1⟩
        | cases taken
  | finish pid nowTs =>
      simp only [migrationSystem, migrationStep] at taken
      have holds := invariant.phases pid
      split at taken
      · rename_i bounds phase
        cases taken
        rw [phase] at holds
        obtain ⟨given, canonical⟩ := holds
        obtain ⟨advances, markers⟩ :=
          markers_finish invariant.markers given (.done nowTs) fun _ _ => canonical
        exact invariant.advance advances markers trivial
      · rename_i phase
        cases taken
        rw [phase] at holds
        obtain ⟨bounds, given⟩ := holds
        obtain ⟨advances, markers⟩ :=
          markers_finish invariant.markers given (.failed nowTs) (by simp)
        exact invariant.advance advances markers trivial
      · cases taken
  | crash pid =>
      cases taken
      exact invariant.setPhase trivial
  | reset => exact absurd keeps id

theorem migrationInvariant_initial
    {tables : (name : LogTableName) → LogTable (LoggedRequest name)}
    (unpadded : ∀ name id row, (tables name).find id = some row → ¬ row.PaddedKey) :
    MigrationInvariant (.initial tables) where
  markers :=
    { padded := fun name id row found padded => absurd padded (unpadded name id row found)
      started := by simp [MigrationSystemState.initial, MigrationMeta.empty, MigrationMeta.status,
        MigrationMeta.upperBounds]
      within := by simp [MigrationSystemState.initial, MigrationMeta.empty,
        MigrationMeta.upperBounds]
      cursors := by simp [MigrationSystemState.initial, MigrationMeta.empty]
      finished := by simp [MigrationSystemState.initial, MigrationMeta.empty,
        MigrationMeta.status] }
  phases := fun _ => trivial

/-- What a state promises: the rows up to the bounds once the migration is done, and at
any time the rows up to a cursor, store canonical keys. -/
def PromisesKept (s : MigrationSystemState) : Prop :=
  (∀ doneAt, s.markers.status = some (.done doneAt) →
    ∃ bounds, s.markers.upperBounds = some bounds ∧
      ∀ name, (s.tables name).CanonicalUpTo (bounds name)) ∧
  ∀ name cursor bounds, s.markers.cursor name = some cursor →
    s.markers.upperBounds = some bounds →
      (s.tables name).CanonicalUpTo (min cursor (bounds name))

theorem MigrationInvariant.promisesKept {s : MigrationSystemState}
    (invariant : MigrationInvariant s) : PromisesKept s := by
  constructor
  · intro doneAt found
    cases given : s.markers.upperBounds with
    | none =>
        rw [invariant.markers.started.2 given] at found
        cases found
    | some bounds => exact ⟨bounds, rfl, invariant.markers.finished doneAt bounds found given⟩
  · intro name cursor bounds found _ id row stored upTo
    exact (invariant.markers.cursors name cursor found).2 id row stored
      (le_trans upTo (min_le_left _ _))

/-- A state marked as done has the marker that says when. -/
def DoneMarked (s : MigrationSystemState) : Prop :=
  ∀ doneAt, s.markers.status = some (.done doneAt) → s.markers.done = some doneAt

/-- One step keeps the marker, and only a reset removes it. -/
theorem doneMarked_step {json : SerdeJson} {s s' : MigrationSystemState}
    {action : MigrationAction} (marked : DoneMarked s)
    (taken : (migrationSystem json).step s action = some s') :
    DoneMarked s' ∧ (action = .reset ∨ ∀ doneAt, s.markers.done = some doneAt →
      s'.markers.done = some doneAt) := by
  have kept : DoneMarked s ∧ (action = .reset ∨ ∀ doneAt, s.markers.done = some doneAt →
      s.markers.done = some doneAt) := ⟨marked, Or.inr fun _ same => same⟩
  cases action with
  | insert name row =>
      cases taken
      exact kept
  | look pid nowTs live =>
      simp only [migrationSystem, migrationStep] at taken
      split at taken
      · split at taken <;> cases taken <;> exact kept
      · cases taken
  | claim pid live =>
      simp only [migrationSystem, migrationStep] at taken
      split at taken
      · rename_i nowTs _
        rcases tryClaim_cases live nowTs pid s.toMigrationDb with
          ⟨doneAt, found, result⟩ | ⟨beat, result⟩ | ⟨pending, result⟩
        · rw [result] at taken
          cases taken
          have same := marked doneAt found
          refine ⟨fun other written => ?_, Or.inr fun other present => ?_⟩
          · cases written
            rfl
          · rw [same] at present
            exact present
        · rw [result] at taken
          cases taken
          exact kept
        · rw [result] at taken
          cases taken
          refine ⟨fun other written => ?_, Or.inr fun other present => ?_⟩
          · cases written
          · exact absurd (by simp only [MigrationMeta.status, present]) (pending other)
      · cases taken
  | readBounds pid =>
      simp only [migrationSystem, migrationStep] at taken
      split at taken
      · split at taken <;> cases taken <;> exact kept
      · cases taken
  | openTable pid =>
      simp only [migrationSystem, migrationStep] at taken
      split at taken
      · cases taken
        exact kept
      · cases taken
  | select pid =>
      simp only [migrationSystem, migrationStep] at taken
      split at taken
      · split at taken <;> cases taken <;> exact kept
      · cases taken
  | commit pid nowTs =>
      simp only [migrationSystem, migrationStep] at taken
      split at taken
      · cases taken
        refine ⟨fun other written => ?_, Or.inr fun _ present => present⟩
        cases present : s.markers.done with
        | none => simp [MigrationSystemState.setPhase, MigrationSystemState.setDb, commitBatch,
            MigrationMeta.status, present] at written
        | some doneAt => simpa [MigrationSystemState.setPhase, MigrationSystemState.setDb,
            commitBatch, MigrationMeta.status, present] using written
      · cases taken
  | fail pid =>
      simp only [migrationSystem, migrationStep] at taken
      split at taken <;> cases taken <;> exact kept
  | finish pid nowTs =>
      have finished (state : RequestKindCanonicalMigrationState) :
          (∀ doneAt,
            (finishRequestKindCanonicalMigration state s.toMigrationDb).markers.status =
              some (.done doneAt) →
            (finishRequestKindCanonicalMigration state s.toMigrationDb).markers.done =
              some doneAt) ∧
          ∀ doneAt, s.markers.done = some doneAt →
            (finishRequestKindCanonicalMigration state s.toMigrationDb).markers.done =
              some doneAt := by
        unfold finishRequestKindCanonicalMigration
        cases present : s.markers.done with
        | some doneAt =>
            simp only [MigrationMeta.status, present]
            exact ⟨fun other same => by cases same; rfl, fun other same => same⟩
        | none =>
            cases state with
            | done doneAt =>
                exact ⟨fun other same => by cases same; rfl, fun other same => by cases same⟩
            | running heartbeatAt ownerPid =>
                refine ⟨fun other same => ?_, fun other same => by cases same⟩
                exact marked other same
            | failed failedAt =>
                refine ⟨fun other same => ?_, fun other same => by cases same⟩
                simp [MigrationMeta.status, present] at same
      simp only [migrationSystem, migrationStep] at taken
      split at taken
      · cases taken
        exact ⟨(finished (.done nowTs)).1, Or.inr (finished (.done nowTs)).2⟩
      · cases taken
        exact ⟨(finished (.failed nowTs)).1, Or.inr (finished (.failed nowTs)).2⟩
      · cases taken
  | crash pid =>
      cases taken
      exact kept
  | reset =>
      cases taken
      refine ⟨fun other written => ?_, Or.inl rfl⟩
      cases written

/-- Whatever is done next, the migration stays done, unless it is reset. -/
def StaysDone (json : SerdeJson) (s : MigrationSystemState) : Prop :=
  ∀ action s' doneAt, (migrationSystem json).step s action = some s' →
    s.markers.status = some (.done doneAt) → action ≠ .reset →
      s'.markers.status = some (.done doneAt)

theorem staysDone_of_marked {json : SerdeJson} {s : MigrationSystemState} (marked : DoneMarked s) :
    StaysDone json s := by
  intro action s' doneAt taken found other
  rcases (doneMarked_step marked taken).2 with reset | kept
  · exact absurd reset other
  · have present := kept doneAt (marked doneAt found)
    simp only [MigrationMeta.status, present]

/-- Along every run without a reset that logs no padded key before the bounds are taken,
the promises are kept; and along every run the migration stays done until a reset. -/
theorem migration_leaves_canonical_keys (json : SerdeJson)
    {tables : (name : LogTableName) → LogTable (LoggedRequest name)}
    (unpadded : ∀ name id row, (tables name).find id = some row → ¬ row.PaddedKey)
    {actions : List MigrationAction}
    (guarded : (migrationSystem json).Guarded KeepsKeys (.initial tables) actions) :
    (migrationSystem json).AlongRun PromisesKept (.initial tables) actions ∧
      ∀ others, (migrationSystem json).AlongRun (StaysDone json) (.initial tables) others := by
  constructor
  · have along := (migrationSystem json).alongRun_of_guarded
      (fun _ _ _ invariant keeps taken => migrationInvariant_step invariant keeps taken)
      (migrationInvariant_initial unpadded) guarded
    exact along.mono (migrationSystem json) fun _ invariant => invariant.promisesKept
  · intro others
    have marked : DoneMarked (.initial tables) := by
      intro doneAt found
      cases found
    have along := (migrationSystem json).alongRun_of_preserved
      (fun _ _ _ invariant taken => (doneMarked_step invariant taken).1) marked others
    exact along.mono (migrationSystem json) fun _ invariant => staysDone_of_marked invariant

/-- One row that is logged, and nothing else. -/
def singleRow (row : LogRow (LoggedRequest .requestLogs)) :
    (name : LogTableName) → LogTable (LoggedRequest name)
  | .requestLogs => LogTable.empty.insert row
  | .authTokenLogs => LogTable.empty

theorem find_singleRow {row : LogRow (LoggedRequest .requestLogs)} {name : LogTableName} {id : Int}
    {stored : LogRow (LoggedRequest name)} (found : (singleRow row name).find id = some stored) :
    ∃ same : name = .requestLogs, stored = same ▸ row := by
  cases name with
  | requestLogs =>
      refine ⟨rfl, ?_⟩
      by_cases first : id = 1
      · subst first
        cases found
        rfl
      · unfold singleRow LogTable.find LogTable.insert at found
        rw [AutoIncrement.find_insert_of_ne _ fun same => first (same.trans rfl)] at found
        cases found
  | authTokenLogs => cases found

/-- A call of another tool, under a key of an older version. -/
def legacyTool : LogRow (LoggedRequest .requestLogs) where
  request := { path := "/mcp", requestBody := none }
  requestKindKey := some "mcp:tool:acme"
  requestKindLabel := some "MCP | acme"
  requestKindDetail := none

/-- The first process crashes between its read and its write. Another takes over, writes the batch
and finishes. -/
def takeoverRun : List MigrationAction :=
  [.look 1 100 fun _ => true, .claim 1 fun _ => true, .readBounds 1,
    .insert .requestLogs legacyTool, .openTable 1, .select 1, .crash 1,
    .look 2 200 fun _ => false, .claim 2 fun _ => false, .readBounds 2, .openTable 2, .select 2,
    .commit 2 201, .select 2, .openTable 2, .select 2, .finish 2 202]

theorem migration_leaves_canonical_keys_legacyTool :
    ∃ s, (migrationSystem (.ofDocuments [])).run (.initial (singleRow legacyTool)) takeoverRun =
        some s ∧
      s.markers.status = some (.done 202) ∧ PromisesKept s ∧
      ∀ others, (migrationSystem (.ofDocuments [])).AlongRun (StaysDone (.ofDocuments []))
        (.initial (singleRow legacyTool)) others := by
  have unpadded : ¬ legacyTool.PaddedKey := by
    rintro ⟨key, kind, stored, known, _⟩
    cases stored
    have canonical : CanonicalKey (trim "mcp:tool:acme") := by
      apply tokenRequestKindFromCanonicalKey_isSome_iff.1
      rw [known]
      rfl
    rw [← isCanonicalRequestKindKey_iff] at canonical
    exact absurd canonical (by decide)
  have noneBefore : ∀ name id row, (singleRow legacyTool name).find id = some row →
      ¬ row.PaddedKey := by
    intro name id row found
    obtain ⟨rfl, rfl⟩ := find_singleRow found
    exact unpadded
  have guarded : (migrationSystem (.ofDocuments [])).Guarded KeepsKeys
      (.initial (singleRow legacyTool)) takeoverRun := by
    simp only [takeoverRun, TransitionSystem.Guarded, KeepsKeys, true_and, and_true]
    intros
    refine ⟨fun _ => unpadded, ?_⟩
    intros
    trivial
  obtain ⟨kept, done⟩ := migration_leaves_canonical_keys (.ofDocuments []) noneBefore guarded
  exact ⟨_, rfl, rfl, kept.last _ rfl, done⟩

/-- The first batch of one padded row changes nothing. -/
theorem select_padded (json : SerdeJson) {row : LogRow (LoggedRequest .requestLogs)}
    (padded : row.PaddedKey) {s : MigrationSystemState} {bounds : UpperBounds}
    (tables : s.tables = singleRow row) (upTo : bounds .requestLogs = 1)
    (phase : s.phases 1 = .scanning .requestLogs bounds 0) :
    (migrationSystem json).step s (.select 1) =
      some (s.setPhase 1 (.writing .requestLogs bounds { updates := [], maxId := 1 })) := by
  have rows : (s.tables .requestLogs).selectBatch 0 (bounds .requestLogs)
      requestKindCanonicalBackfillBatchSize = [(1, row)] := by
    rw [tables, upTo]
    rfl
  have batch : readBatch json s.toMigrationDb .requestLogs 0 (bounds .requestLogs) =
      some { updates := [], maxId := 1 } := by
    unfold readBatch
    simp only [rows, List.filterMap_cons, build_none_of_paddedKey json padded, Option.map_none,
      List.filterMap_nil]
    rfl
  simp only [migrationSystem, migrationStep, phase, batch]

/-- One process that migrates one row with a padded key: it is done, and the row is as
it was. -/
theorem singleRun_of_padded (json : SerdeJson) {row : LogRow (LoggedRequest .requestLogs)}
    (padded : row.PaddedKey) :
    ∃ s, (migrationSystem json).run (.initial (singleRow row))
        [.look 1 100 fun _ => true, .claim 1 fun _ => true, .readBounds 1, .openTable 1, .select 1,
          .commit 1 101, .select 1, .openTable 1, .select 1, .finish 1 102] = some s ∧
      s.markers.status = some (.done 102) ∧ s.markers.upperBound .requestLogs = some 1 ∧
      (s.tables .requestLogs).find 1 = some row := by
  refine ⟨_, (migrationSystem json).run_cons.2 ⟨_, rfl, (migrationSystem json).run_cons.2 ⟨_, rfl,
    (migrationSystem json).run_cons.2 ⟨_, rfl, (migrationSystem json).run_cons.2 ⟨_, rfl,
      (migrationSystem json).run_cons.2 ⟨_, select_padded json padded rfl rfl rfl,
        rfl⟩⟩⟩⟩⟩, rfl, rfl, rfl⟩

/-- A ping whose key is stored with a blank after it. -/
def paddedPing : LogRow (LoggedRequest .requestLogs) where
  request := { path := "/mcp", requestBody := none }
  requestKindKey := some "mcp:ping "
  requestKindLabel := some "MCP | ping"
  requestKindDetail := none

theorem paddedPing_padded : paddedPing.PaddedKey := by
  have trimmed : trim "mcp:ping " = "mcp:ping" := by decide
  refine ⟨"mcp:ping ", { key := "mcp:ping", label := "MCP | ping", detail := none }, rfl, ?_, ?_, ?_⟩
  · have label : canonicalRequestKindLabel "mcp:ping" = some "MCP | ping" := by decide
    simp only [tokenRequestKindFromCanonicalKey, trimmed, label, Option.map_some]
    rfl
  · decide
  · decide

/-- The promises are broken by one process that migrates one such row. -/
theorem migration_leaves_padded_key :
    ∃ s, (migrationSystem (SerdeJson.ofDocuments [])).run (.initial (singleRow paddedPing))
        [.look 1 100 fun _ => true, .claim 1 fun _ => true, .readBounds 1, .openTable 1, .select 1,
          .commit 1 101, .select 1, .openTable 1, .select 1, .finish 1 102] = some s ∧
      ¬ PromisesKept s := by
  obtain ⟨s, ran, done, bound, found⟩ :=
    singleRun_of_padded (SerdeJson.ofDocuments []) paddedPing_padded
  refine ⟨s, ran, ?_⟩
  intro promises
  obtain ⟨bounds, given, canonical⟩ := promises.1 102 done
  have first : bounds .requestLogs = 1 := by
    unfold MigrationMeta.upperBounds at given
    rw [bound] at given
    split at given
    · rename_i requestLogs authTokenLogs one _
      cases given
      exact (Option.some.inj one).symm
    · cases given
  exact paddedPing_padded.not_canonical
    (canonical .requestLogs 1 paddedPing found (le_of_eq first.symm))

end TavilyHikari.Store
