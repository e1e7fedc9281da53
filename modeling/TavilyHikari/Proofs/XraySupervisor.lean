/-
Module: TavilyHikari.Proofs.XraySupervisor
Purpose: The supervisor of the relays loses no process and stops none twice, leaves a relay
  that is no longer wanted running for its grace, and gives every endpoint the relay of its
  own route.
Trusted boundary: none
Main exports: XrayMove, Accounted, accounted_alongRun, relayRuns_alongRun, syncEndpoints_routes,
  syncEndpoints_again
-/
import Mathlib.Data.List.Perm.Lattice
import Mathlib.Logic.Relation
import TavilyHikari.ForwardProxy.XraySupervisor

namespace TavilyHikari.ForwardProxy

open Library

namespace XrayState

variable {parsers : ProxyParsers} {stableHashU64 : String → UInt64} {env : XrayEnvironment}

/-! ### What a state owns -/

/-- The relays that the supervisor keeps, in use or retiring. -/
def owned (state : XrayState) : List XrayInstance :=
  state.instances.rows.map Prod.snd ++ state.retiringInstances.map RetiringXrayInstance.relay

/-- The processes that have been started. -/
def started (env : XrayEnvironment) (state : XrayState) : List Nat :=
  (List.range state.attempts).filter fun child => (env.start child).hasProcess

/-- The relay listens where the endpoint that is handed out for it says. -/
structure Serves (stableHashU64 : String → UInt64) (env : XrayEnvironment) (key : String)
    (relay : XrayInstance) : Prop where
  routeKey : relay.routeKey = key
  configPath : relay.configPath = xrayConfigPath stableHashU64 key
  listens : ∃ localPort, env.start relay.child = .ready localPort ∧
    relay.localProxyUrl = localProxyUrl localPort

/-- The config that an attempt has written last is that of the relay which the attempt started,
or the attempt had no process and left it. -/
def Answered (env : XrayEnvironment) (state : XrayState) (path : String) (child : Nat) : Prop :=
  (∃ relay ∈ state.owned, relay.child = child ∧ relay.configPath = path) ∨
    child < state.attempts ∧ (env.start child).leavesConfig = true

/-- Every process that was started is kept or has been terminated, and no process is both or
twice; a config that no relay is responsible for was left by the attempt that wrote it. -/
structure Accounted (stableHashU64 : String → UInt64) (env : XrayEnvironment)
    (state : XrayState) : Prop where
  processes : (state.owned.map XrayInstance.child ++ state.terminated).Perm (state.started env)
  serves : ∀ key relay, state.instances.find key = some relay →
    Serves stableHashU64 env key relay
  configs : ∀ path child, state.configFiles.find path = some child →
    state.Answered env path child

/-! ### Configs -/

/-- What a table of configs has after some were removed. -/
theorem find_configs_deleted {configFiles : KeyedTable String Nat} {removed : String → Bool}
    {path : String} {child : Nat}
    (found : (configFiles.deleteWhere fun path _ => removed path).find path = some child) :
    configFiles.find path = some child ∧ removed path = false := by
  rw [KeyedTable.find_deleteWhere, Option.filter_eq_some_iff] at found
  exact ⟨found.1, by simpa using found.2⟩

/-- What a table of configs has after one was written. -/
theorem find_configs_written {configFiles : KeyedTable String Nat} {path written : String}
    {child attempt : Nat}
    (found : (configFiles.upsert written attempt fun _ => attempt).find path = some child) :
    (path = written ∧ child = attempt) ∨ configFiles.find path = some child := by
  by_cases same : path = written
  · subst same
    rw [KeyedTable.find_upsert_self] at found
    cases before : configFiles.find path with
    | none =>
        rw [before] at found
        cases found
        exact Or.inl ⟨rfl, rfl⟩
    | some older =>
        rw [before] at found
        cases found
        exact Or.inl ⟨rfl, rfl⟩
  · rw [KeyedTable.find_upsert_of_ne _ same] at found
    exact Or.inr found

/-! ### Moves -/

theorem terminateAll_eq (state : XrayState) (stopped : List RetiringXrayInstance) :
    state.terminateAll stopped =
      { state with
        terminated := (stopped.map fun retiring => retiring.relay.child).reverse ++ state.terminated
        configFiles := state.configFiles.deleteWhere fun path _ =>
          path ∈ stopped.map fun retiring => retiring.relay.configPath } := by
  induction stopped generalizing state with
  | nil =>
      have same : (state.configFiles.deleteWhere fun _ _ => decide False) = state.configFiles :=
        KeyedTable.ext (List.filter_eq_self.2 fun _ _ => rfl)
      simp only [terminateAll, List.foldl_nil, List.map_nil, List.reverse_nil, List.nil_append,
        List.not_mem_nil, same]
  | cons retiring rest ih =>
      change (state.terminate retiring.relay).terminateAll rest = _
      rw [ih]
      simp only [terminate, removeConfig, List.map_cons, List.reverse_cons, List.append_assoc,
        List.singleton_append]
      congr 1
      refine KeyedTable.ext ?_
      simp only [KeyedTable.deleteWhere, List.filter_filter, List.mem_cons, Bool.decide_or,
        Bool.not_or, Bool.and_comm]

/-- What the operations of the supervisor are made of. `stops` are the relays that may be
stopped before their time. -/
inductive XrayMove (stableHashU64 : String → UInt64) (env : XrayEnvironment)
    (stops : XrayInstance → Prop) : XrayState → XrayState → Prop where
  /-- Retiring relays are stopped: their time has come by what the clock says, or at once. -/
  | stopRetiring {state : XrayState} {kept stopped : List RetiringXrayInstance} (clockReads : Nat)
      (split : (kept ++ stopped).Perm state.retiringInstances)
      (ticks : state.clockReads ≤ clockReads)
      (due : ∀ retiring ∈ stopped,
        (state.clockReads < clockReads ∧ retiring.removeAfter ≤ env.instant state.clockReads) ∨
          stops retiring.relay) :
      XrayMove stableHashU64 env stops state
        (terminateAll { state with clockReads, retiringInstances := kept } stopped)
  | remove {state : XrayState} {key : String} {relay : XrayInstance}
      (found : state.instances.find key = some relay) (stopped : stops relay) :
      XrayMove stableHashU64 env stops state ((state.dropInstance key).terminate relay)
  | retire {state : XrayState} {key : String} {relay : XrayInstance}
      (found : state.instances.find key = some relay) :
      XrayMove stableHashU64 env stops state
        { state.dropInstance key with
          clockReads := state.clockReads + 1
          retiringInstances :=
            state.retiringInstances ++
              [{ removeAfter := env.instant state.clockReads + retireGraceNanos, relay }]
          retirements := (relay.child, state.clockReads) :: state.retirements }
  | poll (state : XrayState) :
      XrayMove stableHashU64 env stops state { state with polls := state.polls + 1 }
  | spawn {state : XrayState} {routeKey : String}
      (absent : state.instances.find routeKey = none) :
      XrayMove stableHashU64 env stops state
        (state.spawnInstance stableHashU64 env routeKey).2
  | reorder {state : XrayState} {instances : KeyedTable String XrayInstance}
      (same : instances.rows.Perm state.instances.rows) :
      XrayMove stableHashU64 env stops state { state with instances }

/-- Any number of moves. -/
abbrev XrayMoves (stableHashU64 : String → UInt64) (env : XrayEnvironment)
    (stops : XrayInstance → Prop) : XrayState → XrayState → Prop :=
  Relation.ReflTransGen (XrayMove stableHashU64 env stops)

/-! ### An attempt -/

/-- An attempt leaves the retiring relays and the clock alone, whatever comes of it. -/
theorem spawnInstance_frame (stableHashU64 : String → UInt64) (env : XrayEnvironment)
    (state : XrayState) (routeKey : String) :
    (state.spawnInstance stableHashU64 env routeKey).2.attempts = state.attempts + 1 ∧
      (state.spawnInstance stableHashU64 env routeKey).2.clockReads = state.clockReads ∧
      (state.spawnInstance stableHashU64 env routeKey).2.retiringInstances =
        state.retiringInstances ∧
      (state.spawnInstance stableHashU64 env routeKey).2.retirements = state.retirements := by
  unfold spawnInstance writeConfig removeConfig
  simp only
  cases env.start state.attempts with
  | notWritten created => cases created <;> exact ⟨rfl, rfl, rfl, rfl⟩
  | unprepared => exact ⟨rfl, rfl, rfl, rfl⟩
  | notStarted => exact ⟨rfl, rfl, rfl, rfl⟩
  | notReady => exact ⟨rfl, rfl, rfl, rfl⟩
  | ready => exact ⟨rfl, rfl, rfl, rfl⟩

/-- An attempt hands out the URL of a relay that it adds to the table, or fails and leaves the
table as it is. -/
theorem spawnInstance_cases (stableHashU64 : String → UInt64) (env : XrayEnvironment)
    (state : XrayState) (routeKey : String) :
    ((∀ localPort, env.start state.attempts ≠ .ready localPort) ∧
        (state.spawnInstance stableHashU64 env routeKey).1 = none ∧
        (state.spawnInstance stableHashU64 env routeKey).2.instances = state.instances) ∨
      ∃ relay : XrayInstance,
        (state.spawnInstance stableHashU64 env routeKey).1 = some relay.localProxyUrl ∧
        (state.spawnInstance stableHashU64 env routeKey).2.instances =
          state.instances.upsert routeKey relay fun _ => relay := by
  unfold spawnInstance writeConfig removeConfig
  simp only
  cases answer : env.start state.attempts with
  | unprepared => exact Or.inl ⟨nofun, rfl, rfl⟩
  | notWritten created => cases created <;> exact Or.inl ⟨nofun, rfl, rfl⟩
  | notStarted => exact Or.inl ⟨nofun, rfl, rfl⟩
  | notReady => exact Or.inl ⟨nofun, rfl, rfl⟩
  | ready localPort =>
      exact Or.inr ⟨readyInstance stableHashU64 routeKey localPort state.attempts, rfl, rfl⟩

/-! ### No process is lost -/

theorem owned_perm_of_find {state : XrayState} {key : String} {relay : XrayInstance}
    (found : state.instances.find key = some relay) :
    state.owned.Perm (relay :: (state.dropInstance key).owned) :=
  ((KeyedTable.rows_perm_of_find found).map Prod.snd).append_right _

theorem find_dropInstance (state : XrayState) (key other : String) :
    (state.dropInstance key).instances.find other =
      if other = key then none else state.instances.find other := by
  rw [dropInstance, KeyedTable.find_deleteWhere]
  split
  · rename_i same
    simp [same]
  · rename_i different
    cases state.instances.find other <;> simp [different]

theorem started_succ (env : XrayEnvironment) (state : XrayState) :
    started env { state with attempts := state.attempts + 1 } =
      state.started env ++
        if (env.start state.attempts).hasProcess then [state.attempts] else [] := by
  unfold started
  rw [List.range_succ, List.filter_append, List.filter_singleton, cond_eq_ite]

/-- A config stays answered for while its relay is kept and the attempts go on. -/
theorem Answered.later {state after : XrayState} {path : String} {child : Nat}
    (answered : state.Answered env path child) (later : state.attempts ≤ after.attempts)
    (kept : ∀ relay ∈ state.owned, relay.configPath = path → relay ∈ after.owned) :
    after.Answered env path child := by
  rcases answered with ⟨relay, member, same, here⟩ | ⟨tried, left⟩
  · exact Or.inl ⟨relay, kept relay member here, same, here⟩
  · exact Or.inr ⟨Nat.lt_of_lt_of_le tried later, left⟩

theorem Accounted.stopRetiring {state : XrayState} {kept stopped : List RetiringXrayInstance}
    (clockReads : Nat) (split : (kept ++ stopped).Perm state.retiringInstances)
    (accounted : state.Accounted stableHashU64 env) :
    (terminateAll { state with clockReads, retiringInstances := kept } stopped).Accounted
      stableHashU64 env := by
  rw [terminateAll_eq]
  constructor
  · refine List.Perm.trans ?_ accounted.processes
    have moved := split.map fun retiring => retiring.relay.child
    rw [List.perm_iff_count] at moved ⊢
    intro child
    have here := moved child
    simp only [List.map_append, List.count_append] at here
    simp only [owned, List.map_append, List.map_map, Function.comp_def, List.count_append,
      List.count_reverse]
    omega
  · exact accounted.serves
  · intro path child found
    obtain ⟨before, other⟩ := find_configs_deleted found
    refine (accounted.configs path child before).later (Nat.le_refl _) ?_
    intro relay mine same
    rcases List.mem_append.1 mine with used | retiring
    · exact List.mem_append_left _ used
    · obtain ⟨entry, listed, rfl⟩ := List.mem_map.1 retiring
      rcases List.mem_append.1 (split.mem_iff.2 listed) with stays | goes
      · exact List.mem_append_right _ (List.mem_map_of_mem stays)
      · refine absurd ?_ (of_decide_eq_false other)
        exact List.mem_map.2 ⟨entry, goes, same⟩

theorem Accounted.remove {state : XrayState} {key : String} {relay : XrayInstance}
    (found : state.instances.find key = some relay)
    (accounted : state.Accounted stableHashU64 env) :
    ((state.dropInstance key).terminate relay).Accounted stableHashU64 env := by
  have before := owned_perm_of_find found
  constructor
  · refine List.Perm.trans ?_ accounted.processes
    refine List.Perm.trans ?_ ((before.map XrayInstance.child).append_right _).symm
    exact List.perm_middle
  · intro other used here
    change (state.dropInstance key).instances.find other = some used at here
    rw [find_dropInstance] at here
    split at here
    · cases here
    · exact accounted.serves other used here
  · intro path child found
    obtain ⟨stored, different⟩ := find_configs_deleted found
    refine (accounted.configs path child stored).later (Nat.le_refl _) ?_
    intro used mine same
    rcases List.mem_cons.1 (before.mem_iff.1 mine) with rfl | stays
    · exact absurd same.symm (of_decide_eq_false different)
    · exact stays

theorem Accounted.retire {state : XrayState} {key : String} {relay : XrayInstance}
    (found : state.instances.find key = some relay) (removeAfter : Int)
    (accounted : state.Accounted stableHashU64 env) :
    ({ state.dropInstance key with
        clockReads := state.clockReads + 1
        retiringInstances := state.retiringInstances ++ [{ removeAfter, relay }]
        retirements := (relay.child, state.clockReads) :: state.retirements } :
      XrayState).Accounted stableHashU64 env := by
  have moved : ((state.dropInstance key).owned ++ [relay]).Perm state.owned :=
    (List.perm_append_singleton relay _).trans (owned_perm_of_find found).symm
  have same : ({ state.dropInstance key with
        clockReads := state.clockReads + 1
        retiringInstances := state.retiringInstances ++ [{ removeAfter, relay }]
        retirements := (relay.child, state.clockReads) :: state.retirements } :
      XrayState).owned = (state.dropInstance key).owned ++ [relay] := by
    simp [owned, dropInstance]
  constructor
  · rw [same]
    exact ((moved.map XrayInstance.child).append_right _).trans accounted.processes
  · intro other used here
    change (state.dropInstance key).instances.find other = some used at here
    rw [find_dropInstance] at here
    split at here
    · cases here
    · exact accounted.serves other used here
  · intro path child stored
    refine (accounted.configs path child stored).later (Nat.le_refl _) ?_
    intro used mine _
    rw [same]
    exact moved.mem_iff.2 mine

/-- An attempt without a process keeps the account, whichever config it leaves. -/
theorem Accounted.attempt {state : XrayState} {configFiles : KeyedTable String Nat}
    (accounted : state.Accounted stableHashU64 env)
    (idle : (env.start state.attempts).hasProcess = false)
    (left : ∀ path child, configFiles.find path = some child →
      (child = state.attempts ∧ (env.start state.attempts).leavesConfig = true) ∨
        state.configFiles.find path = some child) :
    ({ state with attempts := state.attempts + 1, configFiles } : XrayState).Accounted
      stableHashU64 env := by
  have grown := started_succ env state
  simp only [idle, Bool.false_eq_true, if_false, List.append_nil] at grown
  constructor
  · exact accounted.processes.trans (.of_eq grown.symm)
  · exact accounted.serves
  · intro path child found
    rcases left path child found with ⟨rfl, leaves⟩ | before
    · exact Or.inr ⟨Nat.lt_succ_self _, leaves⟩
    · exact (accounted.configs path child before).later (Nat.le_succ _) fun _ mine _ => mine

theorem Accounted.spawn {state : XrayState} {routeKey : String}
    (absent : state.instances.find routeKey = none)
    (accounted : state.Accounted stableHashU64 env) :
    (state.spawnInstance stableHashU64 env routeKey).2.Accounted stableHashU64 env := by
  have grown := started_succ env state
  unfold spawnInstance writeConfig removeConfig
  simp only
  cases answer : env.start state.attempts with
  | unprepared =>
      exact accounted.attempt (by rw [answer]; rfl) fun path child found => Or.inr found
  | notWritten created =>
      cases created with
      | false => exact accounted.attempt (by rw [answer]; rfl) fun path child found => Or.inr found
      | true =>
          refine accounted.attempt (by rw [answer]; rfl) fun path child found => ?_
          exact (find_configs_written found).imp_left fun same => ⟨same.2, by rw [answer]; rfl⟩
  | notStarted =>
      refine accounted.attempt (by rw [answer]; rfl) fun path child found => ?_
      exact (find_configs_written found).imp_left fun same => ⟨same.2, by rw [answer]; rfl⟩
  | notReady =>
      simp only [answer, StartAnswer.hasProcess, if_true] at grown
      constructor
      · refine List.Perm.trans ?_ (.of_eq grown.symm)
        refine List.perm_middle.trans ?_
        exact (accounted.processes.cons _).trans (List.perm_append_singleton _ _).symm
      · exact accounted.serves
      · intro path child found
        obtain ⟨written, different⟩ := find_configs_deleted found
        rcases find_configs_written written with ⟨same, _⟩ | before
        · exact absurd same (of_decide_eq_false different)
        · exact (accounted.configs path child before).later (Nat.le_succ _) fun _ mine _ => mine
  | ready localPort =>
      simp only [answer, StartAnswer.hasProcess, if_true] at grown
      let relay := readyInstance stableHashU64 routeKey localPort state.attempts
      have rows : (state.instances.upsert routeKey relay fun _ => relay).rows =
          state.instances.rows ++ [(routeKey, relay)] :=
        KeyedTable.rows_upsert_of_absent absent _ _
      constructor
      · refine List.Perm.trans ?_ (.of_eq grown.symm)
        refine List.Perm.trans ?_ (accounted.processes.append_right _)
        change ((((state.instances.upsert routeKey relay fun _ => relay).rows.map Prod.snd ++ _).map
          XrayInstance.child) ++ state.terminated).Perm _
        rw [rows, List.perm_iff_count]
        intro child
        simp only [owned, List.map_append, List.map_cons, List.map_nil, List.count_append, relay,
          readyInstance]
        omega
      · intro key used here
        change (state.instances.upsert routeKey relay fun _ => relay).find key = some used at here
        by_cases same : key = routeKey
        · subst same
          simp only [KeyedTable.find_upsert_self, absent, Option.elim_none,
            Option.some.injEq] at here
          subst here
          exact ⟨rfl, rfl, localPort, answer, rfl⟩
        · rw [KeyedTable.find_upsert_of_ne _ same] at here
          exact accounted.serves key used here
      · intro path child found
        rcases find_configs_written found with ⟨rfl, rfl⟩ | before
        · refine Or.inl ⟨relay, List.mem_append_left _ ?_, rfl, rfl⟩
          change relay ∈ (state.instances.upsert routeKey relay fun _ => relay).rows.map Prod.snd
          rw [rows, List.map_append]
          exact List.mem_append_right _ List.mem_cons_self
        · refine (accounted.configs path child before).later (Nat.le_succ _) ?_
          intro used mine _
          refine List.mem_append.2 ((List.mem_append.1 mine).imp_left fun inUse => ?_)
          change used ∈ (state.instances.upsert routeKey relay fun _ => relay).rows.map Prod.snd
          rw [rows, List.map_append]
          exact List.mem_append_left _ inUse

theorem Accounted.reorder {state : XrayState} {instances : KeyedTable String XrayInstance}
    (same : instances.rows.Perm state.instances.rows)
    (accounted : state.Accounted stableHashU64 env) :
    ({ state with instances } : XrayState).Accounted stableHashU64 env := by
  have moved : ({ state with instances } : XrayState).owned.Perm state.owned :=
    (same.map Prod.snd).append_right _
  constructor
  · exact ((moved.map XrayInstance.child).append_right _).trans accounted.processes
  · intro key relay found
    rw [KeyedTable.find_eq_some_iff] at found
    exact accounted.serves key relay (KeyedTable.find_eq_some_iff.2 (same.mem_iff.1 found))
  · intro path child stored
    exact (accounted.configs path child stored).later (Nat.le_refl _)
      fun relay mine _ => moved.mem_iff.2 mine

theorem Accounted.move {stops : XrayInstance → Prop} {state after : XrayState}
    (accounted : state.Accounted stableHashU64 env)
    (move : XrayMove stableHashU64 env stops state after) :
    after.Accounted stableHashU64 env := by
  cases move with
  | stopRetiring clockReads split ticks due => exact accounted.stopRetiring clockReads split
  | remove found stopped => exact accounted.remove found
  | retire found => exact accounted.retire found _
  | poll => exact ⟨accounted.processes, accounted.serves, accounted.configs⟩
  | spawn absent => exact accounted.spawn absent
  | reorder same => exact accounted.reorder same

theorem Accounted.moves {stops : XrayInstance → Prop} {state after : XrayState}
    (accounted : state.Accounted stableHashU64 env)
    (moves : XrayMoves stableHashU64 env stops state after) :
    after.Accounted stableHashU64 env := by
  induction moves with
  | refl => exact accounted
  | tail _ move ih => exact ih.move move

/-! ### The operations -/

/-- The retiring relays are split by what the clock says at that moment. -/
theorem reap_split (env : XrayEnvironment) (state : XrayState) :
    ∃ kept stopped : List RetiringXrayInstance,
      state.reapRetiringInstances env =
          terminateAll
            { state with clockReads := state.clockReads + 1, retiringInstances := kept } stopped ∧
        (kept ++ stopped).Perm state.retiringInstances ∧
        (∀ retiring ∈ kept, env.instant state.clockReads < retiring.removeAfter) ∧
        ∀ retiring ∈ stopped, retiring.removeAfter ≤ env.instant state.clockReads := by
  let due : RetiringXrayInstance → Bool := fun retiring =>
    !decide (retiring.removeAfter > env.instant state.clockReads)
  have kept := swapDrain_kept_perm due state.retiringInstances
  have taken := swapDrain_taken_perm due state.retiringInstances
  refine ⟨_, _, rfl, ?_, fun retiring member => ?_, fun retiring member => ?_⟩
  · refine (kept.append taken).trans ?_
    exact List.perm_append_comm.trans (List.filter_append_perm due state.retiringInstances)
  · have early := (List.mem_filter.1 (kept.mem_iff.1 member)).2
    simpa only [due, Bool.not_not, decide_eq_true_eq] using early
  · have timely := (List.mem_filter.1 (taken.mem_iff.1 member)).2
    simpa only [due, Bool.not_eq_true', decide_eq_false_iff_not, not_lt] using timely

theorem moves_reap (stableHashU64 : String → UInt64) (env : XrayEnvironment)
    (stops : XrayInstance → Prop) (state : XrayState) :
    XrayMoves stableHashU64 env stops state (state.reapRetiringInstances env) := by
  obtain ⟨kept, stopped, reaped, split, _, due⟩ := reap_split env state
  rw [reaped]
  exact .single (.stopRetiring _ split (Nat.le_succ _) fun retiring member =>
    Or.inl ⟨Nat.lt_succ_self _, due retiring member⟩)

@[simp] theorem reap_instances (state : XrayState) :
    (state.reapRetiringInstances env).instances = state.instances := by
  unfold reapRetiringInstances
  simp only
  rw [terminateAll_eq]

@[simp] theorem reap_attempts (state : XrayState) :
    (state.reapRetiringInstances env).attempts = state.attempts := by
  unfold reapRetiringInstances
  simp only
  rw [terminateAll_eq]

theorem moves_remove {stops : XrayInstance → Prop} (state : XrayState) (key : String)
    (stopped : ∀ relay, state.instances.find key = some relay → stops relay) :
    XrayMoves stableHashU64 env stops state (state.removeInstance env key) := by
  have reaped := moves_reap stableHashU64 env stops state
  unfold removeInstance
  simp only
  split
  · exact reaped
  · rename_i relay found
    rw [reap_instances] at found
    exact reaped.tail (.remove (by rwa [reap_instances]) (stopped relay found))

@[simp] theorem find_removeInstance (state : XrayState) (key other : String) :
    (state.removeInstance env key).instances.find other =
      if other = key then none else state.instances.find other := by
  unfold removeInstance
  simp only [reap_instances]
  split
  · rename_i absent
    rw [reap_instances]
    split
    · rename_i same
      rw [same, absent]
    · rfl
  · change ((state.reapRetiringInstances env).dropInstance key).instances.find other = _
    rw [find_dropInstance, reap_instances]

theorem moves_retire {stops : XrayInstance → Prop} (state : XrayState) (key : String) :
    XrayMoves stableHashU64 env stops state (state.retireInstance env key) := by
  have reaped := moves_reap stableHashU64 env stops state
  unfold retireInstance
  simp only
  split
  · exact reaped
  · rename_i relay found
    exact reaped.tail (.retire found)

theorem moves_spawn {stops : XrayInstance → Prop} {state : XrayState} {routeKey : String}
    (absent : state.instances.find routeKey = none) :
    XrayMoves stableHashU64 env stops state
      (state.spawnInstance stableHashU64 env routeKey).2 :=
  .single (.spawn absent)

/-- Where the process of a relay has ended, it is replaced. -/
theorem moves_ensure {stops : XrayInstance → Prop} (state : XrayState)
    (endpoint : ForwardProxyEndpoint) (egressSocks5Url : Option ProxyUrl)
    (ended : ∀ relay poll, env.exited relay.child poll = true → stops relay) :
    XrayMoves stableHashU64 env stops state
      (state.ensureInstance stableHashU64 env endpoint egressSocks5Url).2 := by
  have reaped := moves_reap stableHashU64 env stops state
  unfold ensureInstance
  simp only
  split
  · rename_i absent
    refine reaped.trans (.trans (moves_remove _ _ ?_) (moves_spawn (by simp)))
    intro relay found
    rw [absent] at found
    cases found
  · rename_i relay found
    have polled := reaped.tail (.poll _)
    split
    · rename_i exited
      refine polled.trans (.trans (moves_remove _ _ ?_) (moves_spawn (by simp)))
      intro other found'
      change (state.reapRetiringInstances env).instances.find _ = some other at found'
      rw [found] at found'
      cases found'
      exact ended relay _ exited
    · exact polled

theorem moves_syncLoop {stops : XrayInstance → Prop} (state : XrayState)
    (egressSocks5Url : Option ProxyUrl) (endpoints : List ForwardProxyEndpoint)
    (ended : ∀ relay poll, env.exited relay.child poll = true → stops relay) :
    XrayMoves stableHashU64 env stops state
      (state.syncLoop parsers stableHashU64 env egressSocks5Url endpoints).2 := by
  induction endpoints generalizing state with
  | nil => exact .refl
  | cons endpoint rest ih =>
      have first : XrayMoves stableHashU64 env stops state
          (state.syncEndpoint parsers stableHashU64 env egressSocks5Url endpoint).2 := by
        unfold syncEndpoint
        split
        · exact moves_ensure _ _ _ ended
        · exact .refl
      exact first.trans (ih _)

theorem moves_retireAll {stops : XrayInstance → Prop} (state : XrayState) (keys : List String) :
    XrayMoves stableHashU64 env stops state
      (keys.foldl (fun state key => state.retireInstance env key) state) := by
  induction keys generalizing state with
  | nil => exact .refl
  | cons key rest ih => exact (moves_retire state key).trans (ih _)

theorem moves_sync {stops : XrayInstance → Prop} (state : XrayState)
    (egressSocks5Url : Option ProxyUrl) (endpoints : List ForwardProxyEndpoint)
    (ended : ∀ relay poll, env.exited relay.child poll = true → stops relay) :
    XrayMoves stableHashU64 env stops state
      (state.syncEndpoints parsers stableHashU64 env egressSocks5Url endpoints).2 :=
  (moves_reap stableHashU64 env stops state).trans
    ((moves_syncLoop _ _ _ ended).trans (moves_retireAll _ _))

theorem moves_removeAll (state : XrayState) (keys : List String) :
    XrayMoves stableHashU64 env (fun _ => True) state
      (keys.foldl (fun state key => state.removeInstance env key) state) := by
  induction keys generalizing state with
  | nil => exact .refl
  | cons key rest ih => exact (moves_remove state key fun _ _ => trivial).trans (ih _)

theorem moves_shutdown (state : XrayState) :
    XrayMoves stableHashU64 env (fun _ => True) state (state.shutdownAll env) := by
  have removed := (moves_reap stableHashU64 env _ state).trans
    (moves_removeAll _ ((state.reapRetiringInstances env).instances.rows.map Prod.fst))
  refine removed.tail (.stopRetiring _ ?_ (Nat.le_refl _) fun _ _ => Or.inr trivial)
  rw [List.nil_append]
  exact List.reverse_perm _

/-! ### Runs -/

theorem accounted_step {state after : XrayState} {action : XrayAction}
    (accounted : state.Accounted stableHashU64 env)
    (taken : state.step parsers stableHashU64 env action = some after) :
    after.Accounted stableHashU64 env := by
  have anyStops : ∀ (relay : XrayInstance) poll, env.exited relay.child poll = true →
      (fun _ => True) relay := fun _ _ _ => trivial
  cases action with
  | sync egressSocks5Url endpoints =>
      cases taken
      exact accounted.moves (moves_sync state egressSocks5Url endpoints anyStops)
  | ensure endpoint egressSocks5Url =>
      cases taken
      exact accounted.moves (moves_ensure state endpoint egressSocks5Url anyStops)
  | remove key =>
      cases taken
      exact accounted.moves (moves_remove state key fun relay _ => True.intro)
  | shutdown =>
      cases taken
      exact accounted.moves (moves_shutdown state)
  | reorder instances =>
      simp only [step] at taken
      split at taken
      · rename_i same
        cases taken
        exact accounted.reorder same
      · cases taken

theorem accounted_new : XrayState.new.Accounted stableHashU64 env where
  processes := .refl _
  serves := fun _ _ found => nomatch found
  configs := fun _ _ found => nomatch found

/-- The supervisor keeps nothing, every process that was started has been terminated once, and
each config that is left was written by an attempt that had no process. -/
structure Stopped (env : XrayEnvironment) (state : XrayState) : Prop where
  nothing : state.owned = []
  processes : state.terminated.Perm (state.started env)
  configs : ∀ path child, state.configFiles.find path = some child →
    child < state.attempts ∧ (env.start child).leavesConfig = true

theorem find_removeAll (state : XrayState) (keys : List String) (other : String) :
    (keys.foldl (fun state key => state.removeInstance env key) state).instances.find other =
      if other ∈ keys then none else state.instances.find other := by
  induction keys generalizing state with
  | nil => simp
  | cons key rest ih =>
      rw [List.foldl_cons, ih, find_removeInstance]
      by_cases same : other = key <;> simp [same]

theorem stopped_shutdownAll {state : XrayState} (accounted : state.Accounted stableHashU64 env) :
    (state.shutdownAll env).Stopped env := by
  have after := accounted.moves (moves_shutdown state)
  have nothing : (state.shutdownAll env).owned = [] := by
    have rows : (((state.reapRetiringInstances env).instances.rows.map Prod.fst).foldl
        (fun state key => state.removeInstance env key)
        (state.reapRetiringInstances env)).instances.rows = [] := by
      rw [KeyedTable.rows_eq_nil_iff]
      intro key
      rw [find_removeAll]
      split
      · rfl
      · rename_i absent
        exact KeyedTable.find_eq_none_iff.2 absent
    unfold shutdownAll owned
    simp only
    rw [terminateAll_eq]
    simp only [rows, List.map_nil, List.append_nil]
  refine ⟨nothing, ?_, ?_⟩
  · have processes := after.processes
    rwa [nothing] at processes
  · intro path child found
    rcases after.configs path child found with ⟨relay, mine, _⟩ | failed
    · rw [nothing] at mine
      cases mine
    · exact failed

/-- The grace that is counted from one reading was over at a later one. -/
def GraceOver (env : XrayEnvironment) (state : XrayState) (retired : Nat) : Prop :=
  ∃ reading, retired < reading ∧ reading < state.clockReads ∧
    env.instant retired + retireGraceNanos ≤ env.instant reading

/-- Since the reading `since` the relay is in use, or it was retired and is stopped only once its
grace is over. -/
def Spared (env : XrayEnvironment) (relay : XrayInstance) (since : Nat) (state : XrayState) :
    Prop :=
  relay ∈ state.instances.rows.map Prod.snd ∨
    ∃ retired, since ≤ retired ∧ retired < state.clockReads ∧
      (relay.child, retired) ∈ state.retirements ∧
      ((∃ retiring ∈ state.retiringInstances, retiring.relay = relay ∧
          retiring.removeAfter = env.instant retired + retireGraceNanos) ∨
        GraceOver env state retired)

theorem clockReads_move {stops : XrayInstance → Prop} {state after : XrayState}
    (move : XrayMove stableHashU64 env stops state after) :
    state.clockReads ≤ after.clockReads := by
  cases move with
  | stopRetiring clockReads split ticks due =>
      rw [terminateAll_eq]
      exact ticks
  | remove => exact Nat.le_refl _
  | retire => exact Nat.le_succ _
  | poll => exact Nat.le_refl _
  | spawn => exact Nat.le_of_eq (spawnInstance_frame stableHashU64 env state _).2.1.symm
  | reorder => exact Nat.le_refl _

theorem clockReads_moves {stops : XrayInstance → Prop} {state after : XrayState}
    (moves : XrayMoves stableHashU64 env stops state after) :
    state.clockReads ≤ after.clockReads := by
  induction moves with
  | refl => exact Nat.le_refl _
  | tail _ move ih => exact ih.trans (clockReads_move move)

/-- Another relay than the one that leaves the table is still in it. -/
theorem mem_dropInstance {state : XrayState} {key : String} {gone relay : XrayInstance}
    (found : state.instances.find key = some gone) (other : relay ≠ gone)
    (used : relay ∈ state.instances.rows.map Prod.snd) :
    relay ∈ (state.dropInstance key).instances.rows.map Prod.snd := by
  have rows := (KeyedTable.rows_perm_of_find found).map Prod.snd
  rcases List.mem_cons.1 (rows.mem_iff.1 used) with same | rest
  · exact absurd same other
  · exact rest

theorem GraceOver.later {state after : XrayState} {retired : Nat}
    (elapsed : state.GraceOver env retired) (later : state.clockReads ≤ after.clockReads) :
    after.GraceOver env retired := by
  obtain ⟨reading, next, taken, grace⟩ := elapsed
  exact ⟨reading, next, Nat.lt_of_lt_of_le taken later, grace⟩

/-- A relay that was retired keeps its grace where the retiring ones stay as they are. -/
theorem Spared.frame {relay : XrayInstance} {since : Nat} {state after : XrayState}
    (spared : state.Spared env relay since)
    (clockReads : state.clockReads ≤ after.clockReads)
    (retirements : ∀ entry ∈ state.retirements, entry ∈ after.retirements)
    (retiring : ∀ entry ∈ state.retiringInstances, entry ∈ after.retiringInstances)
    (used : relay ∈ state.instances.rows.map Prod.snd → after.Spared env relay since) :
    after.Spared env relay since := by
  rcases spared with inUse | ⟨retired, later, ticked, recorded, waits | elapsed⟩
  · exact used inUse
  · obtain ⟨entry, listed, same, grace⟩ := waits
    exact Or.inr ⟨retired, later, Nat.lt_of_lt_of_le ticked clockReads, retirements _ recorded,
      Or.inl ⟨entry, retiring entry listed, same, grace⟩⟩
  · exact Or.inr ⟨retired, later, Nat.lt_of_lt_of_le ticked clockReads, retirements _ recorded,
      Or.inr (elapsed.later clockReads)⟩

theorem attempts_move {stops : XrayInstance → Prop} {state after : XrayState}
    (move : XrayMove stableHashU64 env stops state after) : state.attempts ≤ after.attempts := by
  cases move with
  | stopRetiring => rw [terminateAll_eq]
  | remove => exact Nat.le_refl _
  | retire => exact Nat.le_refl _
  | poll => exact Nat.le_refl _
  | spawn =>
      rw [(spawnInstance_frame stableHashU64 env state _).1]
      exact Nat.le_succ _
  | reorder => exact Nat.le_refl _

theorem attempts_moves {stops : XrayInstance → Prop} {state after : XrayState}
    (moves : XrayMoves stableHashU64 env stops state after) : state.attempts ≤ after.attempts := by
  induction moves with
  | refl => exact Nat.le_refl _
  | tail _ move ih => exact ih.trans (attempts_move move)

theorem Spared.move {stops : XrayInstance → Prop} {relay : XrayInstance} {since : Nat}
    {state after : XrayState} (spared : state.Spared env relay since)
    (later : since ≤ state.clockReads) (kept : ¬ stops relay)
    (move : XrayMove stableHashU64 env stops state after) :
    after.Spared env relay since := by
  cases move with
  | stopRetiring clockReads split ticks due =>
      rw [terminateAll_eq]
      rcases spared with used | ⟨retired, since, ticked, recorded, waits | elapsed⟩
      · exact Or.inl used
      · obtain ⟨entry, listed, rfl, grace⟩ := waits
        refine Or.inr ⟨retired, since, Nat.lt_of_lt_of_le ticked ticks, recorded, ?_⟩
        rcases List.mem_append.1 (split.mem_iff.2 listed) with stays | goes
        · exact Or.inl ⟨entry, stays, rfl, grace⟩
        · rcases due entry goes with ⟨read, timely⟩ | stopped
          · exact Or.inr ⟨state.clockReads, ticked, read, grace ▸ timely⟩
          · exact absurd stopped kept
      · exact Or.inr ⟨retired, since, Nat.lt_of_lt_of_le ticked ticks, recorded,
          Or.inr (elapsed.later ticks)⟩
  | remove found stopped =>
      rename_i key gone
      have other : relay ≠ gone := fun same => kept (same ▸ stopped)
      exact spared.imp_left (mem_dropInstance found other)
  | retire found =>
      rename_i key gone
      refine spared.frame (Nat.le_succ _) (fun _ => List.mem_cons_of_mem _)
        (fun _ => List.mem_append_left _) fun used => ?_
      by_cases same : relay = gone
      · subst same
        exact Or.inr ⟨state.clockReads, later, Nat.lt_succ_self _, List.mem_cons_self,
          Or.inl ⟨_, List.mem_append_right _ List.mem_cons_self, rfl, rfl⟩⟩
      · exact Or.inl (mem_dropInstance found same used)
  | poll => exact spared
  | spawn absent =>
      rename_i routeKey
      obtain ⟨_, clockReads, retiring, retirements⟩ :=
        spawnInstance_frame stableHashU64 env state routeKey
      refine spared.frame (Nat.le_of_eq clockReads.symm) (fun _ member => by rwa [retirements])
        (fun _ member => by rwa [retiring]) fun used => Or.inl ?_
      rcases spawnInstance_cases stableHashU64 env state routeKey with
        ⟨_, _, same⟩ | ⟨added, _, more⟩
      · rwa [same]
      · rw [more, KeyedTable.rows_upsert_of_absent absent, List.map_append]
        exact List.mem_append_left _ used
  | reorder same => exact spared.imp_left (same.map Prod.snd).mem_iff.2

theorem Spared.moves {stops : XrayInstance → Prop} {relay : XrayInstance} {since : Nat}
    {state after : XrayState} (spared : state.Spared env relay since)
    (later : since ≤ state.clockReads) (kept : ¬ stops relay)
    (moves : XrayMoves stableHashU64 env stops state after) :
    after.Spared env relay since := by
  induction moves with
  | refl => exact spared
  | tail before move ih => exact ih.move (later.trans (clockReads_moves before)) kept move

/-- The action stops nothing under the key but processes that have ended. -/
def Spares (key : String) : XrayAction → Prop
  | .shutdown => False
  | .remove other => other ≠ key
  | _ => True

/-- What such an action may stop before its time. -/
def StopsOthers (env : XrayEnvironment) (key : String) (relay : XrayInstance) : Prop :=
  relay.routeKey ≠ key ∨ ∃ poll, env.exited relay.child poll = true

theorem moves_step {state after : XrayState} {action : XrayAction} {key : String}
    (accounted : state.Accounted stableHashU64 env) (spares : Spares key action)
    (taken : state.step parsers stableHashU64 env action = some after) :
    XrayMoves stableHashU64 env (StopsOthers env key) state after := by
  have ended : ∀ (relay : XrayInstance) poll, env.exited relay.child poll = true →
      StopsOthers env key relay := fun _ poll exited => Or.inr ⟨poll, exited⟩
  cases action with
  | sync egressSocks5Url endpoints =>
      cases taken
      exact moves_sync _ _ _ ended
  | ensure endpoint egressSocks5Url =>
      cases taken
      exact moves_ensure _ _ _ ended
  | remove other =>
      cases taken
      refine moves_remove _ _ fun relay found => Or.inl ?_
      rw [(accounted.serves other relay found).routeKey]
      exact spares
  | shutdown => exact spares.elim
  | reorder instances =>
      simp only [step] at taken
      split at taken
      · rename_i same
        cases taken
        exact .single (.reorder same)
      · cases taken

theorem moves_run {state after : XrayState} {actions : List XrayAction} {key : String}
    (accounted : state.Accounted stableHashU64 env) (spares : ∀ action ∈ actions, Spares key action)
    (ran : (xraySystem parsers stableHashU64 env).run state actions = some after) :
    XrayMoves stableHashU64 env (StopsOthers env key) state after := by
  induction actions generalizing state with
  | nil =>
      cases ran
      exact .refl
  | cons action rest ih =>
      obtain ⟨next, taken, ran⟩ := (xraySystem parsers stableHashU64 env).run_cons.1 ran
      have first := moves_step accounted (spares action List.mem_cons_self) taken
      exact first.trans (ih (accounted_step accounted taken)
        (fun other member => spares other (List.mem_cons_of_mem _ member)) ran)

/-- A relay whose process does not end runs on, whatever endpoints and egress the following syncs
are for, unless it is removed by its key or everything is shut down: it is stopped only after
it was retired, for a later reading of the clock that has its whole grace since behind it. -/
theorem relayRuns_alongRun {state after : XrayState} {actions : List XrayAction} {key : String}
    {relay : XrayInstance} (accounted : state.Accounted stableHashU64 env)
    (found : state.instances.find key = some relay)
    (alive : ∀ poll, env.exited relay.child poll = false)
    (spares : ∀ action ∈ actions, Spares key action)
    (ran : (xraySystem parsers stableHashU64 env).run state actions = some after) :
    (relay ∈ after.owned ∧ relay.child ∉ after.terminated) ∨
      ∃ retired, state.clockReads ≤ retired ∧ (relay.child, retired) ∈ after.retirements ∧
        after.GraceOver env retired := by
  have moves := moves_run accounted spares ran
  have kept : ¬ StopsOthers env key relay := by
    rintro (other | ⟨poll, exited⟩)
    · exact other (accounted.serves key relay found).routeKey
    · rw [alive poll] at exited
      cases exited
  have here : state.Spared env relay state.clockReads :=
    Or.inl (List.mem_map_of_mem (f := Prod.snd) (KeyedTable.find_eq_some_iff.1 found))
  have runs : relay ∈ after.owned → relay ∈ after.owned ∧ relay.child ∉ after.terminated := by
    refine fun owned => ⟨owned, fun terminated => ?_⟩
    have distinct := (accounted.moves moves).processes.nodup_iff.2 (List.nodup_range.filter _)
    rw [List.nodup_append] at distinct
    exact distinct.2.2 _ (List.mem_map_of_mem owned) _ terminated rfl
  rcases here.moves (Nat.le_refl _) kept moves with
    used | ⟨retired, later, _, recorded, ⟨retiring, listed, same, _⟩ | elapsed⟩
  · exact Or.inl (runs (List.mem_append_left _ used))
  · exact Or.inl (runs (List.mem_append_right _ (List.mem_map.2 ⟨retiring, listed, same⟩)))
  · exact Or.inr ⟨retired, later, recorded, elapsed⟩

/-- A share link, as the settings have it. -/
def shadowsocksEndpoint : ForwardProxyEndpoint :=
  .newManual
    { normalized := "ss://YWVzLTI1Ni1nY206cGFzcw@192.0.2.1:8388"
      protocol := .shadowsocks
      endpointUrl := none }

/-- The same for another server. -/
def replacingEndpoint : ForwardProxyEndpoint :=
  .newManual
    { normalized := "ss://YWVzLTI1Ni1nY206cGFzcw@192.0.2.2:8388"
      protocol := .shadowsocks
      endpointUrl := none }

/-- What the hasher makes of the texts that are hashed for the share links. -/
def shareLinkHash (text : String) : UInt64 :=
  if text = "relay::fcafb945dc7f240c" then 6465580729021936532
  else if text = "relay::2a9c1499c649fe02" then 11968854156656965581
  else if startsWith replacingEndpoint.key text then 3070351696649125378
  else 18207975528185406476

/-- Every relay starts and runs on. -/
def steadyEnvironment : XrayEnvironment where
  instant reading := reading
  exited _ _ := false
  start attempt := .ready (40000 + attempt)

/-- No URL is parsed for an endpoint that needs a relay. -/
def relayOnlyParsers : ProxyParsers where
  parseUrl _ := none
  parseVmessShareLink _ := false
  parseShadowsocksShareLink _ := true

def relayedState : XrayState :=
  (XrayState.new.syncEndpoints relayOnlyParsers shareLinkHash steadyEnvironment none
    [shadowsocksEndpoint]).2

def droppedState : XrayState :=
  (relayedState.syncEndpoints relayOnlyParsers shareLinkHash steadyEnvironment none []).2

theorem relayRuns_afterDropped :
    readyInstance shareLinkHash "relay::fcafb945dc7f240c" 40000 0 ∈ droppedState.owned ∧
      0 ∉ droppedState.terminated := by
  have moves : XrayMoves shareLinkHash steadyEnvironment (fun _ => True) .new relayedState :=
    moves_sync _ _ _ fun _ _ _ => trivial
  have accounted : relayedState.Accounted shareLinkHash steadyEnvironment :=
    accounted_new.moves moves
  have reads : droppedState.clockReads = 6 := by decide +kernel
  refine (@relayRuns_alongRun relayOnlyParsers shareLinkHash steadyEnvironment relayedState
    droppedState [.sync none []] "relay::fcafb945dc7f240c" _ accounted (by decide +kernel)
    (fun _ => rfl) ?_ rfl).resolve_right ?_
  · intro action member
    rw [List.mem_singleton.1 member]
    trivial
  · rintro ⟨retired, _, _, reading, _, early, elapsed⟩
    rw [reads] at early
    simp only [steadyEnvironment, retireGraceNanos] at elapsed
    omega

/-! ### The routes of a sync -/

/-- The URL of the relay that serves a route. -/
def routeUrl (state : XrayState) (routeKey : String) : Option ProxyUrl :=
  (state.instances.find routeKey).map XrayInstance.localProxyUrl

/-- Between two counts of the attempts one has started no relay that listens. -/
def AttemptFailed (env : XrayEnvironment) (before after : Nat) : Prop :=
  ∃ attempt, before ≤ attempt ∧ attempt < after ∧
    ∀ localPort, env.start attempt ≠ .ready localPort

theorem AttemptFailed.widen {before after earlier later : Nat}
    (failed : AttemptFailed env before after) (first : earlier ≤ before) (last : after ≤ later) :
    AttemptFailed env earlier later := by
  obtain ⟨attempt, tried, counted, failed⟩ := failed
  exact ⟨attempt, first.trans tried, Nat.lt_of_lt_of_le counted last, failed⟩

theorem spawnInstance_routes (stableHashU64 : String → UInt64) (env : XrayEnvironment)
    {state : XrayState} {routeKey : String}
    (absent : state.instances.find routeKey = none) :
    (state.spawnInstance stableHashU64 env routeKey).1 =
        (state.spawnInstance stableHashU64 env routeKey).2.routeUrl routeKey ∧
      (∀ other ≠ routeKey, (state.spawnInstance stableHashU64 env routeKey).2.instances.find other =
        state.instances.find other) ∧
      ((state.spawnInstance stableHashU64 env routeKey).1 = none →
        AttemptFailed env state.attempts
          (state.spawnInstance stableHashU64 env routeKey).2.attempts) := by
  have counted := (spawnInstance_frame stableHashU64 env state routeKey).1
  unfold routeUrl
  rcases spawnInstance_cases stableHashU64 env state routeKey with
    ⟨failed, url, same⟩ | ⟨relay, url, more⟩
  · refine ⟨by rw [url, same, absent]; rfl, fun other _ => by rw [same], fun _ => ?_⟩
    exact ⟨state.attempts, Nat.le_refl _, by omega, failed⟩
  · refine ⟨?_, fun other different => ?_, fun failed => ?_⟩
    · rw [url, more, KeyedTable.find_upsert_self, absent]
      rfl
    · rw [more, KeyedTable.find_upsert_of_ne _ different]
    · rw [url] at failed
      cases failed

/-- What is handed out is the URL of the relay that is then in the table; where there is none an
attempt has failed. -/
theorem ensureInstance_routes (stableHashU64 : String → UInt64) (env : XrayEnvironment)
    (state : XrayState) (endpoint : ForwardProxyEndpoint)
    (egressSocks5Url : Option ProxyUrl) :
    (state.ensureInstance stableHashU64 env endpoint egressSocks5Url).1 =
        (state.ensureInstance stableHashU64 env endpoint egressSocks5Url).2.routeUrl
          (buildXrayRouteKey stableHashU64 endpoint egressSocks5Url) ∧
      (∀ other ≠ buildXrayRouteKey stableHashU64 endpoint egressSocks5Url,
        (state.ensureInstance stableHashU64 env endpoint egressSocks5Url).2.instances.find other =
          state.instances.find other) ∧
      ((state.ensureInstance stableHashU64 env endpoint egressSocks5Url).1 = none →
        AttemptFailed env state.attempts
          (state.ensureInstance stableHashU64 env endpoint egressSocks5Url).2.attempts) := by
  have replaced : ∀ (current : XrayState) (routeKey : String),
      current.instances = state.instances → state.attempts ≤ current.attempts →
      ((current.removeInstance env routeKey).spawnInstance stableHashU64 env routeKey).1 =
          ((current.removeInstance env routeKey).spawnInstance stableHashU64 env
            routeKey).2.routeUrl routeKey ∧
        (∀ other ≠ routeKey, ((current.removeInstance env routeKey).spawnInstance stableHashU64 env
          routeKey).2.instances.find other = state.instances.find other) ∧
        (((current.removeInstance env routeKey).spawnInstance stableHashU64 env routeKey).1 = none →
          AttemptFailed env state.attempts ((current.removeInstance env routeKey).spawnInstance
            stableHashU64 env routeKey).2.attempts) := by
    intro current routeKey same later
    have absent : (current.removeInstance env routeKey).instances.find routeKey = none := by simp
    obtain ⟨url, others, failed⟩ := spawnInstance_routes stableHashU64 env absent
    have removed : XrayMoves stableHashU64 env (fun _ => True) current
        (current.removeInstance env routeKey) := moves_remove current routeKey fun _ _ => trivial
    refine ⟨url, fun other different => ?_, fun missing => ?_⟩
    · rw [others other different, find_removeInstance, if_neg different, same]
    · exact (failed missing).widen (later.trans (attempts_moves removed)) (Nat.le_refl _)
  unfold ensureInstance
  simp only
  split
  · exact replaced _ _ (by simp) (by simp)
  · rename_i relay found
    split
    · exact replaced _ _ (by simp) (by simp)
    · refine ⟨?_, fun other _ => by simp, nofun⟩
      change some relay.localProxyUrl =
        ((state.reapRetiringInstances env).instances.find _).map XrayInstance.localProxyUrl
      rw [found]
      rfl

theorem find_retireInstance (state : XrayState) (key other : String) :
    (state.retireInstance env key).instances.find other =
      if other = key then none else state.instances.find other := by
  unfold retireInstance
  simp only [reap_instances]
  split
  · rename_i absent
    rw [reap_instances]
    split
    · rename_i same
      rw [same, absent]
    · rfl
  · change ((state.reapRetiringInstances env).dropInstance key).instances.find other = _
    rw [find_dropInstance, reap_instances]

theorem find_retireAll (state : XrayState) (keys : List String) (other : String) :
    (keys.foldl (fun state key => state.retireInstance env key) state).instances.find other =
      if other ∈ keys then none else state.instances.find other := by
  induction keys generalizing state with
  | nil => simp
  | cons key rest ih =>
      rw [List.foldl_cons, ih, find_retireInstance]
      by_cases same : other = key <;> simp [same]

/-- Which relay an endpoint is given, read off a state. -/
def routeOf (stableHashU64 : String → UInt64) (egressSocks5Url : Option ProxyUrl)
    (state : XrayState) (endpoint : ForwardProxyEndpoint) : Option ProxyUrl :=
  state.routeUrl (buildXrayRouteKey stableHashU64 endpoint egressSocks5Url)

theorem desiredKeys_cons (egressSocks5Url : Option ProxyUrl) (endpoint : ForwardProxyEndpoint)
    (rest : List ForwardProxyEndpoint) :
    desiredKeys stableHashU64 egressSocks5Url (endpoint :: rest) =
      if endpoint.needsLocalRelay egressSocks5Url then
        buildXrayRouteKey stableHashU64 endpoint egressSocks5Url ::
          desiredKeys stableHashU64 egressSocks5Url rest
      else desiredKeys stableHashU64 egressSocks5Url rest := by
  unfold desiredKeys
  rw [List.filter_cons]
  split <;> rfl

/-- The loop touches the relays of its own routes only, and leaves every endpoint with the relay
of its route; where a route has none, an attempt of the loop has failed. -/
theorem syncLoop_routes (parsers : ProxyParsers) (env : XrayEnvironment) (state : XrayState)
    (egressSocks5Url : Option ProxyUrl) (endpoints : List ForwardProxyEndpoint)
    (distinct : (desiredKeys stableHashU64 egressSocks5Url endpoints).Nodup) :
    let looped := state.syncLoop parsers stableHashU64 env egressSocks5Url endpoints
    looped.1 = ForwardProxy.syncEndpoints parsers egressSocks5Url
        (routeOf stableHashU64 egressSocks5Url looped.2) endpoints ∧
      (∀ key ∉ desiredKeys stableHashU64 egressSocks5Url endpoints,
        looped.2.instances.find key = state.instances.find key) ∧
      ∀ endpoint ∈ endpoints, endpoint.needsLocalRelay egressSocks5Url = true →
        routeOf stableHashU64 egressSocks5Url looped.2 endpoint = none →
        AttemptFailed env state.attempts looped.2.attempts := by
  induction endpoints generalizing state with
  | nil => exact ⟨rfl, fun _ _ => rfl, fun _ member => absurd member List.not_mem_nil⟩
  | cons endpoint rest ih =>
      rw [desiredKeys_cons] at distinct ⊢
      unfold syncLoop syncEndpoint ForwardProxy.syncEndpoints
      simp only [List.map_cons, List.forall_mem_cons]
      cases needed : endpoint.needsLocalRelay egressSocks5Url with
      | false =>
          simp only [needed, Bool.false_eq_true, if_false] at distinct ⊢
          obtain ⟨routes, others, failed⟩ := ih state distinct
          refine ⟨?_, others, nofun, failed⟩
          simp only [routes, ForwardProxy.syncEndpoints, ForwardProxy.syncEndpoint, needed,
            Bool.false_eq_true, if_false]
      | true =>
          simp only [needed, if_true] at distinct ⊢
          obtain ⟨fresh, distinct⟩ := List.nodup_cons.1 distinct
          obtain ⟨routes, others, failed⟩ :=
            ih (state.ensureInstance stableHashU64 env endpoint egressSocks5Url).2 distinct
          obtain ⟨url, untouched, missed⟩ :=
            ensureInstance_routes stableHashU64 env state endpoint egressSocks5Url
          have here : XrayMoves stableHashU64 env (fun _ => True) state
              (state.ensureInstance stableHashU64 env endpoint egressSocks5Url).2 :=
            moves_ensure _ _ _ fun _ _ _ => trivial
          have there : XrayMoves stableHashU64 env (fun _ => True)
              (state.ensureInstance stableHashU64 env endpoint egressSocks5Url).2
              (syncLoop parsers stableHashU64 env
                (state.ensureInstance stableHashU64 env endpoint egressSocks5Url).2
                egressSocks5Url rest).2 :=
            moves_syncLoop _ _ _ fun _ _ _ => trivial
          refine ⟨?_, ?_, fun _ missing => ?_, fun other member needs missing => ?_⟩
          · simp only [routes, ForwardProxy.syncEndpoints, ForwardProxy.syncEndpoint, needed,
              if_true]
            rw [url]
            simp only [routeOf, routeUrl, others _ fresh]
          · intro key absent
            rw [List.mem_cons, not_or] at absent
            rw [others key absent.2, untouched key absent.1]
          · rw [routeOf, routeUrl, others _ fresh] at missing
            exact (missed (url.trans missing)).widen (Nat.le_refl _) (attempts_moves there)
          · exact (failed other member needs missing).widen (attempts_moves here) (Nat.le_refl _)

/-- Which relays a sync leaves. -/
theorem find_syncEndpoints (parsers : ProxyParsers) (env : XrayEnvironment) (state : XrayState)
    (egressSocks5Url : Option ProxyUrl) (endpoints : List ForwardProxyEndpoint)
    (distinct : (desiredKeys stableHashU64 egressSocks5Url endpoints).Nodup) (key : String) :
    (state.syncEndpoints parsers stableHashU64 env egressSocks5Url endpoints).2.instances.find key =
      if key ∈ desiredKeys stableHashU64 egressSocks5Url endpoints then
        ((state.reapRetiringInstances env).syncLoop parsers stableHashU64 env egressSocks5Url
          endpoints).2.instances.find key
      else if startsWith validateXrayPrefix key then state.instances.find key
      else none := by
  obtain ⟨_, others, _⟩ := syncLoop_routes parsers env
    (state.reapRetiringInstances env) egressSocks5Url endpoints distinct
  unfold syncEndpoints
  simp only [find_retireAll]
  by_cases wanted : key ∈ desiredKeys stableHashU64 egressSocks5Url endpoints
  · simp [staleKeys, wanted]
  · rw [if_neg wanted, others key wanted, reap_instances]
    cases validates : startsWith validateXrayPrefix key with
    | true => simp [staleKeys, validates]
    | false =>
        split
        · rfl
        · rename_i kept
          simp only [staleKeys, reap_instances, List.mem_filter, validates, wanted,
            not_false_eq_true, decide_true, Bool.not_false, Bool.and_self, and_true] at kept
          exact KeyedTable.find_eq_none_iff.2 kept

/-- A sync leaves the relay of a wanted route as the loop has left it. -/
theorem routeOf_syncEndpoints (parsers : ProxyParsers) (env : XrayEnvironment) (state : XrayState)
    (egressSocks5Url : Option ProxyUrl) {endpoints : List ForwardProxyEndpoint}
    (distinct : (desiredKeys stableHashU64 egressSocks5Url endpoints).Nodup)
    {endpoint : ForwardProxyEndpoint} (member : endpoint ∈ endpoints)
    (needed : endpoint.needsLocalRelay egressSocks5Url = true) :
    routeOf stableHashU64 egressSocks5Url
        (state.syncEndpoints parsers stableHashU64 env egressSocks5Url endpoints).2 endpoint =
      routeOf stableHashU64 egressSocks5Url
        ((state.reapRetiringInstances env).syncLoop parsers stableHashU64 env egressSocks5Url
          endpoints).2 endpoint := by
  have wanted : buildXrayRouteKey stableHashU64 endpoint egressSocks5Url ∈
      desiredKeys stableHashU64 egressSocks5Url endpoints :=
    List.mem_map_of_mem (List.mem_filter.2 ⟨member, needed⟩)
  rw [routeOf, routeUrl, find_syncEndpoints parsers env state egressSocks5Url endpoints distinct,
    if_pos wanted]
  rfl

/-- A sync routes every endpoint by the table of relays that it leaves. -/
theorem syncEndpoints_fst (parsers : ProxyParsers) (env : XrayEnvironment) (state : XrayState)
    (egressSocks5Url : Option ProxyUrl) (endpoints : List ForwardProxyEndpoint)
    (distinct : (desiredKeys stableHashU64 egressSocks5Url endpoints).Nodup) :
    let synced := state.syncEndpoints parsers stableHashU64 env egressSocks5Url endpoints
    synced.1 = ForwardProxy.syncEndpoints parsers egressSocks5Url
      (routeOf stableHashU64 egressSocks5Url synced.2) endpoints := by
  intro synced
  obtain ⟨routes, _⟩ := syncLoop_routes parsers env (state.reapRetiringInstances env)
    egressSocks5Url endpoints distinct
  refine routes.trans ?_
  unfold ForwardProxy.syncEndpoints
  refine List.map_congr_left fun endpoint member => ?_
  unfold ForwardProxy.syncEndpoint
  split
  · rename_i needed
    rw [routeOf_syncEndpoints parsers env state egressSocks5Url distinct member needed]
  · rfl

/-- What a sync leaves runs for a wanted route or for a validation. -/
theorem left_of_syncEndpoints {parsers : ProxyParsers} {env : XrayEnvironment} {state : XrayState}
    {egressSocks5Url : Option ProxyUrl} {endpoints : List ForwardProxyEndpoint}
    (distinct : (desiredKeys stableHashU64 egressSocks5Url endpoints).Nodup)
    {key : String} {relay : XrayInstance}
    (found : (state.syncEndpoints parsers stableHashU64 env egressSocks5Url
      endpoints).2.instances.find key = some relay) :
    key ∈ desiredKeys stableHashU64 egressSocks5Url endpoints ∨
      startsWith validateXrayPrefix key = true := by
  rw [find_syncEndpoints parsers env state egressSocks5Url endpoints distinct] at found
  split at found
  · rename_i wanted
    exact Or.inl wanted
  · split at found
    · rename_i validates
      exact Or.inr validates
    · cases found

/-- What a sync makes of an endpoint, from the state before it and over the relays that it
leaves. -/
structure Routed (parsers : ProxyParsers) (stableHashU64 : String → UInt64)
    (env : XrayEnvironment) (egressSocks5Url : Option ProxyUrl) (before after : XrayState)
    (endpoint synced : ForwardProxyEndpoint) : Prop where
  others : synced =
    { endpoint with
      endpointUrl := synced.endpointUrl, usesLocalRelay := synced.usesLocalRelay }
  usesLocalRelay : synced.usesLocalRelay = endpoint.needsLocalRelay egressSocks5Url
  /-- The relay of its own route, at the port that the relay listens on. -/
  relayed : endpoint.needsLocalRelay egressSocks5Url = true →
    ∀ relay, after.instances.find (buildXrayRouteKey stableHashU64 endpoint egressSocks5Url) =
      some relay → ∃ localPort, env.start relay.child = .ready localPort ∧
        synced.endpointUrl = some (localProxyUrl localPort)
  /-- No relay, and no address: the sync has tried to start one and failed. -/
  failed : endpoint.needsLocalRelay egressSocks5Url = true →
    after.instances.find (buildXrayRouteKey stableHashU64 endpoint egressSocks5Url) = none →
      synced.endpointUrl = none ∧ AttemptFailed env before.attempts after.attempts
  plain : endpoint.needsLocalRelay egressSocks5Url = false →
    synced.endpointUrl = endpointTransportUrl parsers endpoint

/-- Nothing has changed but that retiring relays were stopped, each for a reading of the clock
that had its time behind it. -/
structure OnlyReaped (env : XrayEnvironment) (before after : XrayState) : Prop where
  instances : after.instances = before.instances
  attempts : after.attempts = before.attempts
  retirements : after.retirements = before.retirements
  ticks : before.clockReads ≤ after.clockReads
  stopped : ∃ stopped : List RetiringXrayInstance,
    (after.retiringInstances ++ stopped).Perm before.retiringInstances ∧
      after.terminated.Perm
        ((stopped.map fun retiring => retiring.relay.child) ++ before.terminated) ∧
      ∀ retiring ∈ stopped, ∃ reading, before.clockReads ≤ reading ∧
        reading < after.clockReads ∧ retiring.removeAfter ≤ env.instant reading

theorem OnlyReaped.refl (env : XrayEnvironment) (state : XrayState) :
    OnlyReaped env state state where
  instances := rfl
  attempts := rfl
  retirements := rfl
  ticks := Nat.le_refl _
  stopped := ⟨[], by rw [List.append_nil], .refl _, nofun⟩

theorem OnlyReaped.trans {before middle after : XrayState}
    (first : OnlyReaped env before middle) (second : OnlyReaped env middle after) :
    OnlyReaped env before after where
  instances := second.instances.trans first.instances
  attempts := second.attempts.trans first.attempts
  retirements := second.retirements.trans first.retirements
  ticks := first.ticks.trans second.ticks
  stopped := by
    obtain ⟨early, kept, terminated, due⟩ := first.stopped
    obtain ⟨late, kept', terminated', due'⟩ := second.stopped
    refine ⟨late ++ early, ?_, ?_, ?_⟩
    · rw [← List.append_assoc]
      exact (kept'.append_right _).trans kept
    · rw [List.map_append, List.append_assoc]
      exact terminated'.trans (terminated.append_left _)
    · intro retiring member
      rcases List.mem_append.1 member with later | earlier
      · obtain ⟨reading, since, read, elapsed⟩ := due' retiring later
        exact ⟨reading, first.ticks.trans since, read, elapsed⟩
      · obtain ⟨reading, since, read, elapsed⟩ := due retiring earlier
        exact ⟨reading, since, Nat.lt_of_lt_of_le read second.ticks, elapsed⟩

theorem OnlyReaped.mem {before after : XrayState} (reaped : OnlyReaped env before after)
    {retiring : RetiringXrayInstance} (kept : retiring ∈ after.retiringInstances) :
    retiring ∈ before.retiringInstances := by
  obtain ⟨stopped, split, _⟩ := reaped.stopped
  exact split.mem_iff.1 (List.mem_append_left _ kept)

/-- What the clock says is over is stopped at once. -/
theorem onlyReaped_reap (env : XrayEnvironment) (state : XrayState) :
    OnlyReaped env state (state.reapRetiringInstances env) ∧
      ∀ retiring ∈ (state.reapRetiringInstances env).retiringInstances,
        env.instant state.clockReads < retiring.removeAfter := by
  obtain ⟨kept, stopped, reaped, split, early, due⟩ := reap_split env state
  rw [reaped, terminateAll_eq]
  refine ⟨⟨rfl, rfl, rfl, Nat.le_succ _, stopped, split, ?_, fun retiring member => ?_⟩, early⟩
  · exact (List.reverse_perm _).append_right _
  · exact ⟨state.clockReads, Nat.le_refl _, Nat.lt_succ_self _, due retiring member⟩

/-- The endpoint is as a sync leaves it where the relay of its route runs. -/
structure Settled (parsers : ProxyParsers) (stableHashU64 : String → UInt64)
    (egressSocks5Url : Option ProxyUrl) (state : XrayState) (endpoint : ForwardProxyEndpoint) :
    Prop where
  relayed : endpoint.needsLocalRelay egressSocks5Url = true → endpoint.usesLocalRelay = true ∧
    ∃ relay, state.instances.find (buildXrayRouteKey stableHashU64 endpoint egressSocks5Url) =
      some relay ∧ endpoint.endpointUrl = some relay.localProxyUrl
  plain : endpoint.needsLocalRelay egressSocks5Url = false → endpoint.usesLocalRelay = false ∧
    endpoint.endpointUrl = endpointTransportUrl parsers endpoint

theorem Settled.of_instances {egressSocks5Url : Option ProxyUrl} {state after : XrayState}
    {endpoint : ForwardProxyEndpoint} (same : after.instances = state.instances)
    (settled : Settled parsers stableHashU64 egressSocks5Url state endpoint) :
    Settled parsers stableHashU64 egressSocks5Url after endpoint where
  relayed := fun needed => by rw [same]; exact settled.relayed needed
  plain := settled.plain

/-- Over settled endpoints and running processes the loop starts nothing and stops only retiring
relays that are due. -/
theorem syncLoop_settled (alive : ∀ child poll, env.exited child poll = false) (state : XrayState)
    (egressSocks5Url : Option ProxyUrl) (endpoints : List ForwardProxyEndpoint)
    (settled : ∀ endpoint ∈ endpoints,
      Settled parsers stableHashU64 egressSocks5Url state endpoint) :
    (state.syncLoop parsers stableHashU64 env egressSocks5Url endpoints).1 = endpoints ∧
      OnlyReaped env state
        (state.syncLoop parsers stableHashU64 env egressSocks5Url endpoints).2 := by
  induction endpoints generalizing state with
  | nil => exact ⟨rfl, .refl env state⟩
  | cons endpoint rest ih =>
      have here := settled endpoint List.mem_cons_self
      have first : (state.syncEndpoint parsers stableHashU64 env egressSocks5Url endpoint).1 =
            endpoint ∧
          OnlyReaped env state
            (state.syncEndpoint parsers stableHashU64 env egressSocks5Url endpoint).2 := by
        unfold syncEndpoint
        cases needed : endpoint.needsLocalRelay egressSocks5Url with
        | true =>
            obtain ⟨relayed, relay, found, url⟩ := here.relayed needed
            have answers : state.ensureInstance stableHashU64 env endpoint egressSocks5Url =
                (some relay.localProxyUrl,
                  { state.reapRetiringInstances env with
                    polls := (state.reapRetiringInstances env).polls + 1 }) := by
              unfold ensureInstance
              simp only [reap_instances, found, alive, Bool.false_eq_true, if_false]
            obtain ⟨reaped, _⟩ := onlyReaped_reap env state
            simp only [if_true, answers]
            exact ⟨by rw [← relayed, ← url], reaped.instances, reaped.attempts,
              reaped.retirements, reaped.ticks, reaped.stopped⟩
        | false =>
            obtain ⟨plain, url⟩ := here.plain needed
            simp only [Bool.false_eq_true, if_false]
            exact ⟨by rw [← plain, ← url], .refl env state⟩
      obtain ⟨same, reaped⟩ := first
      obtain ⟨others, later⟩ := ih
        (state.syncEndpoint parsers stableHashU64 env egressSocks5Url endpoint).2
        fun other member =>
          (settled other (List.mem_cons_of_mem _ member)).of_instances reaped.instances
      unfold syncLoop
      simp only [same, others, true_and]
      exact reaped.trans later

/-- A relayed endpoint keeps its route key, as long as the key is built from the raw URL. -/
theorem routeKey_of_raw {egressSocks5Url : Option ProxyUrl}
    {endpoint after : ForwardProxyEndpoint} (key : after.key = endpoint.key)
    (rawUrl : after.rawUrl = endpoint.rawUrl) (raw : endpoint.rawUrl.isSome = true) :
    buildXrayRouteKey stableHashU64 after egressSocks5Url =
      buildXrayRouteKey stableHashU64 endpoint egressSocks5Url := by
  unfold buildXrayRouteKey
  obtain ⟨text, known⟩ := Option.isSome_iff_exists.1 raw
  rw [rawUrl, known, key]

theorem needsLocalRelay_syncEndpoint (egressSocks5Url : Option ProxyUrl)
    (route : ForwardProxyEndpoint → Option ProxyUrl) (endpoint : ForwardProxyEndpoint) :
    (ForwardProxy.syncEndpoint parsers egressSocks5Url route endpoint).needsLocalRelay
      egressSocks5Url = endpoint.needsLocalRelay egressSocks5Url := by
  unfold ForwardProxy.syncEndpoint
  split <;> rfl

theorem routeKey_syncEndpoint {egressSocks5Url : Option ProxyUrl}
    {route : ForwardProxyEndpoint → Option ProxyUrl} {endpoint : ForwardProxyEndpoint}
    (raw : endpoint.rawUrl.isSome = true) :
    buildXrayRouteKey stableHashU64
        (ForwardProxy.syncEndpoint parsers egressSocks5Url route endpoint) egressSocks5Url =
      buildXrayRouteKey stableHashU64 endpoint egressSocks5Url := by
  refine routeKey_of_raw ?_ ?_ raw
  · unfold ForwardProxy.syncEndpoint
    split <;> rfl
  · unfold ForwardProxy.syncEndpoint
    split <;> rfl

/-- An endpoint is settled by the relay that the table has for its route. -/
theorem settled_syncEndpoint {egressSocks5Url : Option ProxyUrl} {state : XrayState}
    {endpoint : ForwardProxyEndpoint}
    (raw : endpoint.needsLocalRelay egressSocks5Url = true → endpoint.rawUrl.isSome = true)
    (routed : endpoint.needsLocalRelay egressSocks5Url = true →
      (routeOf stableHashU64 egressSocks5Url state endpoint).isSome = true) :
    Settled parsers stableHashU64 egressSocks5Url state
      (ForwardProxy.syncEndpoint parsers egressSocks5Url
        (routeOf stableHashU64 egressSocks5Url state) endpoint) := by
  constructor
  · intro needed
    rw [needsLocalRelay_syncEndpoint] at needed
    rw [routeKey_syncEndpoint (raw needed)]
    have isSome := routed needed
    rw [routeOf, routeUrl, Option.isSome_map, Option.isSome_iff_exists] at isSome
    obtain ⟨relay, found⟩ := isSome
    simp only [ForwardProxy.syncEndpoint, needed, if_true, routeOf, routeUrl, found,
      Option.map_some, true_and]
    exact ⟨relay, rfl, rfl⟩
  · intro plain
    rw [needsLocalRelay_syncEndpoint] at plain
    simp only [ForwardProxy.syncEndpoint, plain, Bool.false_eq_true, if_false, true_and]
    unfold endpointTransportUrl
    cases (endpoint.rawUrl.bind (parseForwardProxyEntry parsers)).bind
      ParsedForwardProxyEntry.endpointUrl <;> rfl

theorem desiredKeys_syncEndpoints {egressSocks5Url : Option ProxyUrl}
    {route : ForwardProxyEndpoint → Option ProxyUrl} {endpoints : List ForwardProxyEndpoint}
    (raw : ∀ endpoint ∈ endpoints, endpoint.needsLocalRelay egressSocks5Url = true →
      endpoint.rawUrl.isSome = true) :
    desiredKeys stableHashU64 egressSocks5Url
        (ForwardProxy.syncEndpoints parsers egressSocks5Url route endpoints) =
      desiredKeys stableHashU64 egressSocks5Url endpoints := by
  induction endpoints with
  | nil => rfl
  | cons endpoint rest ih =>
      have later := ih fun other member => raw other (List.mem_cons_of_mem _ member)
      unfold ForwardProxy.syncEndpoints at later ⊢
      rw [List.map_cons, desiredKeys_cons, desiredKeys_cons, later, needsLocalRelay_syncEndpoint]
      split
      · rename_i needed
        rw [routeKey_syncEndpoint (raw endpoint List.mem_cons_self needed)]
      · rfl

/-- A second sync over what the first has made of its endpoints changes no endpoint, keeps every
relay that is in use, starts and retires none, as long as the processes run; of the relays that
are retiring it stops those whose grace is over. -/
theorem syncEndpoints_again (alive : ∀ child poll, env.exited child poll = false)
    (state : XrayState) (egressSocks5Url : Option ProxyUrl)
    (endpoints : List ForwardProxyEndpoint)
    (distinct : (desiredKeys stableHashU64 egressSocks5Url endpoints).Nodup)
    (raw : ∀ endpoint ∈ endpoints, endpoint.needsLocalRelay egressSocks5Url = true →
      endpoint.rawUrl.isSome = true)
    (routed : ∀ endpoint ∈
        (state.syncEndpoints parsers stableHashU64 env egressSocks5Url endpoints).1,
      endpoint.needsLocalRelay egressSocks5Url = true → endpoint.endpointUrl.isSome = true) :
    let synced := state.syncEndpoints parsers stableHashU64 env egressSocks5Url endpoints
    let again := synced.2.syncEndpoints parsers stableHashU64 env egressSocks5Url synced.1
    again.1 = synced.1 ∧ OnlyReaped env synced.2 again.2 ∧
      ∀ retiring ∈ again.2.retiringInstances,
        env.instant synced.2.clockReads < retiring.removeAfter := by
  have routes := syncEndpoints_fst parsers env state egressSocks5Url endpoints distinct
  have left : ∀ key relay, (state.syncEndpoints parsers stableHashU64 env egressSocks5Url
      endpoints).2.instances.find key = some relay →
      key ∈ desiredKeys stableHashU64 egressSocks5Url endpoints ∨
        startsWith validateXrayPrefix key = true :=
    fun _ _ found => left_of_syncEndpoints distinct found
  generalize state.syncEndpoints parsers stableHashU64 env egressSocks5Url endpoints = synced
    at routed routes left
  obtain ⟨after, synced⟩ := synced
  simp only at routed routes left ⊢
  subst routes
  have settled : ∀ endpoint ∈ ForwardProxy.syncEndpoints parsers egressSocks5Url
      (routeOf stableHashU64 egressSocks5Url synced) endpoints,
      Settled parsers stableHashU64 egressSocks5Url (synced.reapRetiringInstances env)
        endpoint := by
    intro endpoint member
    have url := routed endpoint member
    obtain ⟨before, listed, rfl⟩ := List.mem_map.1 member
    refine (settled_syncEndpoint (raw before listed) fun needed => ?_).of_instances
      (reap_instances synced)
    have isSome := url ((needsLocalRelay_syncEndpoint _ _ _).trans needed)
    simpa only [ForwardProxy.syncEndpoint, needed, if_true] using isSome
  have fresh : (synced.reapRetiringInstances env).staleKeys
      (desiredKeys stableHashU64 egressSocks5Url (ForwardProxy.syncEndpoints parsers
        egressSocks5Url (routeOf stableHashU64 egressSocks5Url synced) endpoints)) = [] := by
    rw [desiredKeys_syncEndpoints raw, staleKeys, reap_instances, List.filter_eq_nil_iff]
    intro key listed stale
    obtain ⟨relay, found⟩ := Option.isSome_iff_exists.1
      (Option.isSome_iff_ne_none.2 fun absent => KeyedTable.find_eq_none_iff.1 absent listed)
    rw [Bool.and_eq_true, decide_eq_true_eq, Bool.not_eq_true'] at stale
    rcases left key relay found with wanted | validates
    · exact stale.2 wanted
    · rw [stale.1] at validates
      cases validates
  obtain ⟨same, looped⟩ := syncLoop_settled alive (synced.reapRetiringInstances env)
    egressSocks5Url _ settled
  obtain ⟨reaped, early⟩ := onlyReaped_reap env synced
  unfold syncEndpoints
  simp only [fresh, List.foldl_nil]
  exact ⟨same, reaped.trans looped, fun retiring kept => early retiring (looped.mem kept)⟩

/-- A minute passes between two readings of the clock. -/
def slowEnvironment : XrayEnvironment :=
  { steadyEnvironment with instant := fun reading => 60 * 1000000000 * reading }

def replacedState : XrayState :=
  (relayedState.syncEndpoints relayOnlyParsers shareLinkHash slowEnvironment none
    [replacingEndpoint]).2

theorem syncEndpoints_again_replaced :
    let again := (replacedState.syncEndpoints relayOnlyParsers shareLinkHash slowEnvironment none
      (relayedState.syncEndpoints relayOnlyParsers shareLinkHash slowEnvironment none
        [replacingEndpoint]).1).2
    again.attempts = 2 ∧ again.instances = replacedState.instances ∧
      again.retiringInstances = [] := by
  intro again
  obtain ⟨_, reaped, early⟩ := @syncEndpoints_again relayOnlyParsers shareLinkHash slowEnvironment
    (fun _ _ => rfl) relayedState none [replacingEndpoint] (by decide) (by decide) (by decide)
  refine ⟨reaped.attempts.trans (by decide), reaped.instances, ?_⟩
  have elapsed : ∀ retiring ∈ replacedState.retiringInstances,
      retiring.removeAfter ≤ slowEnvironment.instant replacedState.clockReads := by decide
  rw [List.eq_nil_iff_forall_not_mem]
  intro retiring kept
  exact absurd (early retiring kept) (Int.not_lt.2 (elapsed retiring (reaped.mem kept)))

end XrayState

end TavilyHikari.ForwardProxy
