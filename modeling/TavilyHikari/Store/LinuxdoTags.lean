/-
Module: TavilyHikari.Store.LinuxdoTags
Purpose: The system tags of LinuxDo (`store/mod.rs`, `lib.rs`): the statements of a startup
  that seed them, repair them and let their deltas follow the environment, and the updates of
  tags between the startups.
Trusted boundary: human-reviewed spec (the meaning of the statements); the process of a startup
  is the only writer until it runs
Main exports: TokenLimitsEnv, linuxdoSystemTagDefaultDeltas, seedLinuxdoSystemTag,
  inferLinuxdoSystemTagDefaultDeltas, syncSystemTagDeltas, TagSystemState, linuxdoTagSystem
-/
import TavilyHikari.Library.TransitionSystem
import TavilyHikari.Library.Trim
import TavilyHikari.Store.AccountQuota
import TavilyHikari.Store.UsageBuckets

namespace TavilyHikari.Store

open Library

/-! ### The defaults of the environment -/

/-- The environment variables of the token limits, `none` where one is not set. -/
structure TokenLimitsEnv where
  tokenHourlyRequestLimit : Option String
  tokenHourlyLimit : Option String
  tokenDailyLimit : Option String
  tokenMonthlyLimit : Option String
deriving DecidableEq, Repr

/-- The four deltas of a system tag. -/
structure SystemTagDeltas where
  hourlyAny : Int
  hourly : Int
  daily : Int
  monthly : Int
deriving DecidableEq, Repr

def tokenLimitFromEnv (value : Option String) (default : Int) : Int :=
  match value with
  | some raw =>
      let trimmed := trim raw
      if trimmed = "" then default
      else
        match parseI64 trimmed with
        | some limit => if limit > 0 then limit else default
        | none => default
  | none => default

def linuxdoSystemTagDefaultDeltas (env : TokenLimitsEnv) : SystemTagDeltas where
  hourlyAny := tokenLimitFromEnv env.tokenHourlyRequestLimit 500
  hourly := tokenLimitFromEnv env.tokenHourlyLimit 100
  daily := tokenLimitFromEnv env.tokenDailyLimit 500
  monthly := tokenLimitFromEnv env.tokenMonthlyLimit 5000

def formatLinuxdoSystemTagDefaultDeltas (value : SystemTagDeltas) : String :=
  toString value.hourlyAny ++ "," ++ (toString value.hourly ++ "," ++
    (toString value.daily ++ "," ++ toString value.monthly))

def parseLinuxdoSystemTagDefaultDeltas (raw : String) : Option SystemTagDeltas :=
  match (splitAt ',' raw).map trim with
  | [hourlyAny, hourly, daily, monthly] => do
      let hourlyAny ← parseI64 hourlyAny
      let hourly ← parseI64 hourly
      let daily ← parseI64 daily
      let monthly ← parseI64 monthly
      pure { hourlyAny, hourly, daily, monthly }
  | _ => none

/-- The effect of a tag with the deltas. -/
def SystemTagDeltas.effect (deltas : SystemTagDeltas) : UserTagEffect where
  effectKind := userTagEffectQuotaDelta
  hourlyAnyDelta := deltas.hourlyAny
  hourlyDelta := deltas.hourly
  dailyDelta := deltas.daily
  monthlyDelta := deltas.monthly

def UserTagEffect.deltas (effect : UserTagEffect) : SystemTagDeltas where
  hourlyAny := effect.hourlyAnyDelta
  hourly := effect.hourlyDelta
  daily := effect.dailyDelta
  monthly := effect.monthlyDelta

/-! ### The statements of a startup -/

def userTagIconLinuxdo : String := "linuxdo"

/-- The statement of `seed_linuxdo_system_tags` for one level, `none` where the database
rejects it. -/
def seedLinuxdoSystemTag (deltas : SystemTagDeltas) (level : Int) (db : QuotaDb) :
    Option QuotaDb :=
  let systemKey := linuxdoSystemKeyForLevel level
  let displayName := "L" ++ toString level
  match db.userTags.rows.find? fun row => row.2.systemKey = some systemKey with
  | some (tagId, _) =>
      if nameTaken db tagId systemKey then none
      else
        some { db with
          userTags := db.userTags.modify tagId fun tag =>
            { tag with name := systemKey, displayName, icon := some userTagIconLinuxdo } }
  | none =>
      if (db.userTags.find systemKey).isSome ∨ nameTaken db systemKey systemKey then none
      else
        let tag : UserTagRecord :=
          { id := systemKey, name := systemKey, displayName, icon := some userTagIconLinuxdo,
            systemKey := some systemKey, effect := deltas.effect }
        some { db with userTags := db.userTags.upsert systemKey tag fun _ => tag }

/-- `UPDATE user_tags SET` the deltas of the LinuxDo tags that have the old ones. -/
def updateSystemTagDeltas (old deltas : SystemTagDeltas) (db : QuotaDb) : QuotaDb :=
  { db with
    userTags := db.userTags.updateWhere
      (fun _ tag => tag.systemKey.any linuxdoSystemKey &&
        tag.effect.effectKind = userTagEffectQuotaDelta && tag.effect.deltas = old)
      fun tag => { tag with effect := { deltas.effect with effectKind := tag.effect.effectKind } } }

def backfillLinuxdoSystemTagDefaultDeltas (deltas : SystemTagDeltas) (db : QuotaDb) : QuotaDb :=
  updateSystemTagDeltas { hourlyAny := 0, hourly := 0, daily := 0, monthly := 0 } deltas db

/-- The loop of `infer_linuxdo_system_tag_default_deltas_from_rows`. -/
def inferFromEffects : Option SystemTagDeltas → List UserTagEffect → Option SystemTagDeltas
  | expected, [] => expected
  | expected, effect :: rest =>
      if effect.effectKind ≠ userTagEffectQuotaDelta then none
      else
        match expected with
        | some previous =>
            if previous ≠ effect.deltas then none else inferFromEffects expected rest
        | none => inferFromEffects (some effect.deltas) rest

/-- The order of the tags by their system keys. -/
def systemKeyOrder (a b : UserTagRecord) : Prop := a.systemKey.getD "" ≤ b.systemKey.getD ""

instance : DecidableRel systemKeyOrder := fun _ _ => by
  unfold systemKeyOrder
  infer_instance

def inferLinuxdoSystemTagDefaultDeltasFromRows (db : QuotaDb) : Option SystemTagDeltas :=
  let rows := ((db.userTags.rows.map Prod.snd).filter fun tag =>
    tag.systemKey.any linuxdoSystemKey).insertionSort systemKeyOrder
  if rows.length ≠ 5 then none else inferFromEffects none (rows.map UserTagRecord.effect)

/-- `META_KEY_LINUXDO_SYSTEM_TAG_DEFAULTS_V1`. -/
def metaKeyLinuxdoSystemTagDefaultsV1 : String := "linuxdo_system_tag_defaults_v1"

/-- `META_KEY_LINUXDO_SYSTEM_TAG_DEFAULTS_TUPLE_V1`. -/
def metaKeyLinuxdoSystemTagDefaultsTupleV1 : String := "linuxdo_system_tag_defaults_tuple_v1"

abbrev MetaTable := KeyedTable String String

/-- `get_meta_i64` of the marker of the backfill. -/
def getBackfillMarker (values : MetaTable) : Option Int :=
  (values.find metaKeyLinuxdoSystemTagDefaultsV1).bind parseI64

def getLinuxdoSystemTagDefaultDeltasMeta (values : MetaTable) : Option SystemTagDeltas :=
  (values.find metaKeyLinuxdoSystemTagDefaultsTupleV1).bind parseLinuxdoSystemTagDefaultDeltas

def setMetaString (key value : String) (values : MetaTable) : MetaTable :=
  values.upsert key value fun _ => value

/-- What `sync_linuxdo_system_tag_default_deltas_with_env` takes for the previous defaults. -/
def previousDeltas (current : SystemTagDeltas) (values : MetaTable) (db : QuotaDb) :
    SystemTagDeltas :=
  match getLinuxdoSystemTagDefaultDeltasMeta values with
  | some value => value
  | none => (inferLinuxdoSystemTagDefaultDeltasFromRows db).getD current

/-- The part of `sync_linuxdo_system_tag_default_deltas_with_env` before it stores the
defaults. -/
def syncSystemTagDeltas (current : SystemTagDeltas) (values : MetaTable) (db : QuotaDb) :
    QuotaDb :=
  let previous := previousDeltas current values db
  if previous = current then db else updateSystemTagDeltas previous current db

/-! ### The system -/

/-- Where the process of the server stands, with the defaults of its environment. A startup
seeds the levels, repairs once, synchronises, and does the rest. -/
inductive TagPhase where
  | down
  | seeding (current : SystemTagDeltas) (level : Nat)
  | markingBackfill (current : SystemTagDeltas)
  | syncing (current : SystemTagDeltas)
  | storingDefaults (current : SystemTagDeltas)
  | finishing (current : SystemTagDeltas)
  | running (current : SystemTagDeltas)
deriving DecidableEq, Repr

/-- The database and the process, with the defaults of all startups so far and what an admin
has last set of each system tag. -/
structure TagSystemState where
  quota : QuotaDb
  metaValues : MetaTable
  phase : TagPhase
  environments : List SystemTagDeltas
  edits : KeyedTable String UserTagEffect

/-- `stop` is a shutdown or a crash. -/
inductive TagAction where
  | start (env : TokenLimitsEnv)
  | advance (now : UtcTimestamp)
  | stop
  | update (update : QuotaUpdate) (defaults : String → AccountQuotaLimits)
      (legacyDefaults : AccountQuotaLimits)

/-- The next statement of a startup. -/
def advanceStartup (now : UtcTimestamp) (s : TagSystemState) : Option TagSystemState :=
  match s.phase with
  | .seeding current level =>
      if level < 5 then
        match seedLinuxdoSystemTag current level s.quota with
        | some quota => some { s with quota, phase := .seeding current (level + 1) }
        | none => some { s with phase := .down }
      else if (getBackfillMarker s.metaValues).isNone then
        some { s with
          quota := backfillLinuxdoSystemTagDefaultDeltas current s.quota
          phase := .markingBackfill current }
      else some { s with phase := .syncing current }
  | .markingBackfill current =>
      some { s with
        metaValues :=
          setMetaString metaKeyLinuxdoSystemTagDefaultsV1 (toString now.secs) s.metaValues
        phase := .syncing current }
  | .syncing current =>
      some { s with
        quota := syncSystemTagDeltas current s.metaValues s.quota
        phase := .storingDefaults current }
  | .storingDefaults current =>
      some { s with
        metaValues :=
          setMetaString metaKeyLinuxdoSystemTagDefaultsTupleV1
            (formatLinuxdoSystemTagDefaultDeltas current) s.metaValues
        phase := .finishing current }
  | .finishing current => some { s with phase := .running current }
  | .down | .running _ => none

/-- An update of the quota, `none` where it is rejected. -/
def applyQuotaUpdate (defaults : String → AccountQuotaLimits)
    (legacyDefaults : AccountQuotaLimits) (update : QuotaUpdate) (db : QuotaDb) : Option QuotaDb :=
  (prepareQuotaUpdate defaults db update).bind fun (prepared, db) =>
    commitQuotaUpdate legacyDefaults prepared db update

/-- What an admin has set of the system tags, after an update. -/
def recordEdit (db : QuotaDb) (edits : KeyedTable String UserTagEffect) :
    QuotaUpdate → KeyedTable String UserTagEffect
  | .updateUserTag tagId _ _ _ effect =>
      if (db.userTags.find tagId).any UserTagRecord.isSystem then
        edits.upsert tagId effect fun _ => effect
      else edits
  | _ => edits

def tagStep (s : TagSystemState) : TagAction → Option TagSystemState
  | .start env =>
      match s.phase with
      | .down =>
          let current := linuxdoSystemTagDefaultDeltas env
          some { s with
            phase := .seeding current 0
            environments := current :: s.environments }
      | _ => none
  | .advance now => advanceStartup now s
  | .stop => some { s with phase := .down }
  | .update update defaults legacyDefaults =>
      match s.phase with
      | .running _ =>
          (applyQuotaUpdate defaults legacyDefaults update s.quota).map fun quota =>
            { s with quota, edits := recordEdit s.quota s.edits update }
      | _ => none

def linuxdoTagSystem : TransitionSystem TagSystemState TagAction where
  step := tagStep

end TavilyHikari.Store
