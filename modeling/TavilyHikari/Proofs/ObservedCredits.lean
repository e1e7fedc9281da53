/-
Module: TavilyHikari.Proofs.ObservedCredits
Purpose: The total of the credits that an answer reports, for an array of messages and for
  a stream that may repeat them. The two are the same as long as an `i64` holds the sum:
  the array stops at its upper end, the stream adds past it.
Trusted boundary: none
Main exports: creditEntries, expectedTotal, Repeats, NoOverflow, observedCredits_iff
-/
import TavilyHikari.Proofs.McpCharge
import TavilyHikari.Proofs.ResponseBodies

namespace TavilyHikari.Server

open Library Analysis

variable (json : SerdeJson)

/-! ### What is reported -/

/-- The credits of a message, under its id. -/
def creditEntries (messages : List JsonValue) : List (String × Int) :=
  messages.filterMap fun message => (idKey json message).bind fun id =>
    (extractUsageCreditsFromValue message).map fun credits => (id, credits)

/-- What the messages report together, as an `i64` holds it. -/
def expectedTotal (messages : List JsonValue) : Option Int :=
  let found := messages.filterMap extractUsageCreditsFromValue
  if found.isEmpty then none else some (min i64Max found.sum)

theorem credits_nonneg {messages : List JsonValue} :
    ∀ credits ∈ messages.filterMap extractUsageCreditsFromValue, 0 ≤ credits := by
  intro credits member
  obtain ⟨message, _, found⟩ := List.mem_filterMap.mp member
  exact extractUsageCreditsFromValue_nonneg message found

/-- The array path adds up what the messages report, and stops where an `i64` does. -/
theorem sumBatchCredits_eq (messages : List JsonValue) :
    sumBatchCredits messages = expectedTotal messages := by
  simp only [sumBatchCredits, expectedTotal]
  rw [foldl_saturatingAdd credits_nonneg (le_refl 0) (by decide), zero_add]

/-! ### Streams that repeat messages -/

/-- The stream has the messages, and besides them only messages of their ids that do not
report more. -/
structure Repeats (stream messages : List JsonValue) : Prop where
  complete : ∀ message ∈ messages, message ∈ stream
  bounded : ∀ update ∈ stream, ∃ message ∈ messages, idKey json update = idKey json message ∧
    ∀ credits, extractUsageCreditsFromValue update = some credits →
      ∃ most, extractUsageCreditsFromValue message = some most ∧ credits ≤ most

theorem Repeats.refl (messages : List JsonValue) : Repeats json messages messages where
  complete _ member := member
  bounded update member :=
    ⟨update, member, rfl, fun credits found => ⟨credits, found, le_refl credits⟩⟩

variable {json} {stream messages : List JsonValue} {text : String}

/-- A message with an id is an object, and counts as a whole. -/
theorem totalFromValue_of_id {message : JsonValue} {id : String}
    (keyed : idKey json message = some id) :
    extractUsageCreditsTotalFromValue message = extractUsageCreditsFromValue message := by
  cases message with
  | array items => cases keyed
  | _ => rfl

theorem streamEntries_of_ids (read : extractSseJsonMessages json text = stream)
    (present : ∀ update ∈ stream, (idKey json update).isSome = true) :
    streamEntries json text = creditEntries json stream := by
  unfold streamEntries creditEntries
  rw [read]
  apply List.filterMap_congr
  intro update member
  obtain ⟨id, keyed⟩ := Option.isSome_iff_exists.mp (present update member)
  rw [totalFromValue_of_id keyed, totalKey, keyed]
  rfl

theorem creditEntries_keys (messages : List JsonValue) :
    ((creditEntries json messages).map Prod.fst).Sublist (messages.filterMap (idKey json)) := by
  unfold creditEntries
  induction messages with
  | nil => exact List.Sublist.refl []
  | cons message messages ih =>
      cases keyed : idKey json message with
      | none => simpa [keyed] using ih
      | some id =>
          cases found : extractUsageCreditsFromValue message with
          | none => simpa [keyed, found] using ih.cons id
          | some credits => simpa [keyed, found] using ih.cons_cons id

theorem creditEntries_values (present : ∀ message ∈ messages, (idKey json message).isSome = true) :
    (creditEntries json messages).map Prod.snd =
      messages.filterMap extractUsageCreditsFromValue := by
  unfold creditEntries
  rw [List.map_filterMap]
  apply List.filterMap_congr
  intro message member
  obtain ⟨id, keyed⟩ := Option.isSome_iff_exists.mp (present message member)
  rw [keyed]
  cases extractUsageCreditsFromValue message with
  | none => rfl
  | some credits => rfl

theorem mem_creditEntries {id : String} {credits : Int} :
    (id, credits) ∈ creditEntries json messages ↔
      ∃ message ∈ messages, idKey json message = some id ∧
        extractUsageCreditsFromValue message = some credits := by
  simp only [creditEntries, List.mem_filterMap, Option.bind_eq_some_iff, Option.map_eq_some_iff,
    Prod.mk.injEq, exists_eq_right_right]

theorem mem_keys_creditEntries {id : String} :
    id ∈ (creditEntries json messages).map Prod.fst ↔
      ∃ credits, (id, credits) ∈ creditEntries json messages := by
  simp only [List.mem_map, Prod.exists, exists_eq_right, exists_and_right]

/-- Every update of a stream has an id, as the messages do. -/
theorem Repeats.present (repeats : Repeats json stream messages)
    (ids : DistinctIds json messages) :
    ∀ update ∈ stream, (idKey json update).isSome = true := by
  intro update member
  obtain ⟨message, among, sameId, _⟩ := repeats.bounded update member
  rw [sameId]
  exact ids.present message among

/-- With distinct ids, a message is told by its id. -/
theorem DistinctIds.unique (ids : DistinctIds json messages) {one two : JsonValue} {id : String}
    (first : one ∈ messages) (second : two ∈ messages) (keyedOne : idKey json one = some id)
    (keyedTwo : idKey json two = some id) : one = two := by
  have left := filter_key_eq_singleton ids.distinct first keyedOne
  rw [filter_key_eq_singleton ids.distinct second keyedTwo] at left
  exact (List.cons.inj left).1.symm

/-! ### The table of a stream -/

/-- The most that a stream reports under the id of a message is what the message reports. -/
theorem find_of_repeats (repeats : Repeats json stream messages) (ids : DistinctIds json messages)
    {entry : String × Int} (member : entry ∈ creditEntries json messages) :
    (KeyedTable.collect max (creditEntries json stream)).find entry.1 = some entry.2 := by
  obtain ⟨id, most⟩ := entry
  obtain ⟨message, among, keyed, found⟩ := mem_creditEntries.mp member
  rw [KeyedTable.find_collect, mergeAll_max, List.max?_eq_some_iff, creditEntries,
    valuesOf_filterMap]
  simp only [List.mem_filterMap, List.mem_filter, decide_eq_true_eq]
  constructor
  · exact ⟨message, ⟨repeats.complete message among, keyed⟩, found⟩
  · rintro credits ⟨update, ⟨inStream, sameId⟩, reported⟩
    obtain ⟨other, known, idOf, bound⟩ := repeats.bounded update inStream
    obtain ⟨limit, reportsLimit, small⟩ := bound credits reported
    have same : other = message := ids.unique known among (idOf.symm.trans sameId) keyed
    rw [same, found] at reportsLimit
    cases reportsLimit
    exact small

/-- The table of the maxima of a stream has the rows of the messages. -/
theorem table_of_repeats (repeats : Repeats json stream messages)
    (ids : DistinctIds json messages) :
    (KeyedTable.collect max (creditEntries json stream)).rows.Perm
      (creditEntries json messages) := by
  apply KeyedTable.rows_perm
  · exact ids.distinct.sublist (creditEntries_keys messages)
  · intro entry member
    exact find_of_repeats repeats ids member
  · intro id known
    rw [KeyedTable.mem_keys_collect, mem_keys_creditEntries] at known
    obtain ⟨credits, member⟩ := known
    obtain ⟨update, inStream, keyed, found⟩ := mem_creditEntries.mp member
    obtain ⟨message, among, sameId, bound⟩ := repeats.bounded update inStream
    obtain ⟨most, reports, _⟩ := bound credits found
    rw [mem_keys_creditEntries]
    exact ⟨most, mem_creditEntries.mpr ⟨message, among, sameId.symm.trans keyed, reports⟩⟩

/-- The maxima that the reader of a stream adds up. -/
def maxima (json : SerdeJson) (text : String) : List Int :=
  (KeyedTable.collect max (streamEntries json text)).rows.map Prod.snd

theorem maxima_of_repeats (read : extractSseJsonMessages json text = stream)
    (repeats : Repeats json stream messages) (ids : DistinctIds json messages) :
    (maxima json text).Perm (messages.filterMap extractUsageCreditsFromValue) := by
  rw [maxima, streamEntries_of_ids read (repeats.present ids),
    ← creditEntries_values ids.present]
  exact (table_of_repeats repeats ids).map Prod.snd

/-- What the reader of a stream returns, from the maxima that it adds up. -/
theorem sseTotal_of_maxima (text : String) :
    extractUsageCreditsTotalFromSseBytes json text.toUTF8 =
      if (maxima json text).isEmpty then none else some (wrapI64 (maxima json text).sum) := by
  have total : (KeyedTable.collect max (streamEntries json text)).total (fun _ => true) id =
      (maxima json text).sum := by
    rw [KeyedTable.total, List.filter_true]
    rfl
  rw [sseTotal_eq, fromUTF8?_toUTF8, Option.bind_some, tableCredits, total, maxima,
    List.isEmpty_map]

/-! ### The totals -/

theorem expectedTotal_bounds {credits : Int} (total : expectedTotal messages = some credits) :
    0 ≤ credits ∧ credits ≤ i64Max := by
  simp only [expectedTotal] at total
  split at total
  · cases total
  · cases total
    have nonneg : 0 ≤ (messages.filterMap extractUsageCreditsFromValue).sum :=
      List.sum_nonneg credits_nonneg
    exact ⟨le_min (by decide) nonneg, min_le_left _ _⟩

theorem arrayTotal_eq (parsed : json.fromStr text = some (.array messages)) :
    extractUsageCreditsTotalFromJsonBytes json text.toUTF8 = expectedTotal messages := by
  have slice : json.fromSlice text.toUTF8 = some (.array messages) := parsed
  rw [extractUsageCreditsTotalFromJsonBytes, slice, ← sumBatchCredits_eq]
  rfl

/-- The reader finds what the messages report together, and no addition on its way leaves the
range of an `i64`. -/
def StreamTotalExact (json : SerdeJson) (messages : List JsonValue) (text : String) : Prop :=
  extractUsageCreditsTotalFromJsonBytes json text.toUTF8 = expectedTotal messages ∧
    (∀ credits, extractUsageCreditsTotalFromJsonBytes json text.toUTF8 = some credits →
      0 ≤ credits) ∧
    SumsInRange (maxima json text)

theorem streamTotalExact_iff (noJson : json.fromStr text = none)
    (read : extractSseJsonMessages json text = stream) (repeats : Repeats json stream messages)
    (ids : DistinctIds json messages) :
    StreamTotalExact json messages text ↔
      (messages.filterMap extractUsageCreditsFromValue).sum ≤ i64Max := by
  have perm := maxima_of_repeats read repeats ids
  have nonneg : ∀ credits ∈ maxima json text, 0 ≤ credits := by
    intro credits member
    exact credits_nonneg credits (perm.mem_iff.mp member)
  have fits := sumsInRange_iff nonneg
  rw [perm.sum_eq] at fits
  constructor
  · intro settled
    exact fits.mp settled.2.2
  · intro small
    have slice : json.fromSlice text.toUTF8 = none := noJson
    have lower : i64Min ≤ (messages.filterMap extractUsageCreditsFromValue).sum :=
      le_trans (by decide) (List.sum_nonneg credits_nonneg)
    have total : extractUsageCreditsTotalFromJsonBytes json text.toUTF8 =
        expectedTotal messages := by
      simp only [extractUsageCreditsTotalFromJsonBytes, slice, sseTotal_of_maxima, expectedTotal]
      rw [perm.isEmpty_eq, perm.sum_eq, wrapI64_of_bounds lower small, min_eq_right small]
    refine ⟨total, ?_, fits.mpr small⟩
    intro credits found
    rw [total] at found
    exact (expectedTotal_bounds found).1

/-- **Observed credits.** An array of messages with distinct ids has the total of what they
report, up to the largest `i64`. A stream that repeats them, and so the stream with one event
for each, has it exactly where an `i64` holds the sum. -/
theorem observedCredits_iff (json : SerdeJson) (messages : List (SseEvent json))
    (ids : DistinctIds json (messages.map SseEvent.value))
    (parsed : json.fromStr (BodyFormat.batch.render (messages.map SseEvent.text)) =
      some (.array (messages.map SseEvent.value))) :
    (extractUsageCreditsTotalFromJsonBytes json
          (BodyFormat.batch.render (messages.map SseEvent.text)).toUTF8 =
        expectedTotal (messages.map SseEvent.value) ∧
      ∀ credits, expectedTotal (messages.map SseEvent.value) = some credits →
        0 ≤ credits ∧ credits ≤ i64Max) ∧
    (∀ (text : String) (stream : List JsonValue), json.fromStr text = none →
      extractSseJsonMessages json text = stream →
      Repeats json stream (messages.map SseEvent.value) →
      (StreamTotalExact json (messages.map SseEvent.value) text ↔
        ((messages.map SseEvent.value).filterMap extractUsageCreditsFromValue).sum ≤ i64Max)) ∧
    (json.fromStr (BodyFormat.eventStream.render (messages.map SseEvent.text)) = none →
      (StreamTotalExact json (messages.map SseEvent.value)
          (BodyFormat.eventStream.render (messages.map SseEvent.text)) ↔
        ((messages.map SseEvent.value).filterMap extractUsageCreditsFromValue).sum ≤
          i64Max)) := by
  refine ⟨⟨arrayTotal_eq parsed, fun credits total => expectedTotal_bounds total⟩, ?_, ?_⟩
  · intro text stream noJson read repeats
    exact streamTotalExact_iff noJson read repeats ids
  · intro noJson
    exact streamTotalExact_iff noJson (extractSseJsonMessages_events messages)
      (Repeats.refl json _) ids

/-! ### Two large charges -/

def firstText : String :=
  "\x7b\"id\":1,\"result\":\x7b\"usage\":\x7b\"credits\":9223372036854775807\x7d\x7d\x7d"

def secondText : String :=
  "\x7b\"id\":2,\"result\":\x7b\"usage\":\x7b\"credits\":9223372036854775807\x7d\x7d\x7d"

/-- The parser, on two answers that report the largest usage, and on arrays of them. -/
def largeJson : SerdeJson :=
  .ofDocuments
    [(firstText, usageAnswer 1 9223372036854775807),
      (secondText, usageAnswer 2 9223372036854775807),
      (BodyFormat.batch.render [firstText], .array [usageAnswer 1 9223372036854775807]),
      (BodyFormat.batch.render [firstText, secondText],
        .array [usageAnswer 1 9223372036854775807, usageAnswer 2 9223372036854775807])]

theorem fromStr_largeJson (text : String) :
    largeJson.fromStr text =
      ([(firstText, usageAnswer 1 9223372036854775807),
        (secondText, usageAnswer 2 9223372036854775807),
        (BodyFormat.batch.render [firstText], .array [usageAnswer 1 9223372036854775807]),
        (BodyFormat.batch.render [firstText, secondText],
          .array [usageAnswer 1 9223372036854775807, usageAnswer 2 9223372036854775807])].find?
        fun document => document.1 = text).map Prod.snd :=
  SerdeJson.fromSlice_ofDocuments _ text

def firstAnswer : SseEvent largeJson where
  text := firstText
  value := usageAnswer 1 9223372036854775807
  nonempty := by decide
  oneLine := by decide
  trimmed := ⟨by decide, by decide⟩
  parsed := by
    rw [fromStr_largeJson]
    rfl

def secondAnswer : SseEvent largeJson where
  text := secondText
  value := usageAnswer 2 9223372036854775807
  nonempty := by decide
  oneLine := by decide
  trimmed := ⟨by decide, by decide⟩
  parsed := by
    rw [fromStr_largeJson, List.find?_cons_of_neg (by decide), List.find?_cons_of_pos (by decide)]
    rfl

theorem ne_batch {text : String} {texts : List String} (start : text.toList.head? ≠ some '[') :
    text ≠ BodyFormat.batch.render texts := by
  rintro rfl
  apply start
  rw [BodyFormat.render, String.toList_ofList]
  rfl

theorem firstText_ne_batch (texts : List String) : firstText ≠ BodyFormat.batch.render texts :=
  ne_batch (by decide)

theorem secondText_ne_batch (texts : List String) : secondText ≠ BodyFormat.batch.render texts :=
  ne_batch (by decide)

theorem batch_ne_batch : BodyFormat.batch.render [firstText] ≠
    BodyFormat.batch.render [firstText, secondText] := by
  intro same
  have lengths := congrArg (fun text => text.toList.length) same
  simp [BodyFormat.render, List.intercalate] at lengths

theorem parsed_first : largeJson.fromStr
    (BodyFormat.batch.render ([firstAnswer].map SseEvent.text)) =
      some (.array ([firstAnswer].map SseEvent.value)) := by
  rw [fromStr_largeJson, List.find?_cons_of_neg, List.find?_cons_of_neg, List.find?_cons_of_pos]
  · rfl
  · exact decide_eq_true rfl
  · exact fun same => secondText_ne_batch _ (of_decide_eq_true same)
  · exact fun same => firstText_ne_batch _ (of_decide_eq_true same)

theorem parsed_both : largeJson.fromStr
    (BodyFormat.batch.render ([firstAnswer, secondAnswer].map SseEvent.text)) =
      some (.array ([firstAnswer, secondAnswer].map SseEvent.value)) := by
  rw [fromStr_largeJson, List.find?_cons_of_neg, List.find?_cons_of_neg,
    List.find?_cons_of_neg, List.find?_cons_of_pos]
  · rfl
  · exact decide_eq_true rfl
  · exact fun same => batch_ne_batch (of_decide_eq_true same)
  · exact fun same => secondText_ne_batch _ (of_decide_eq_true same)
  · exact fun same => firstText_ne_batch _ (of_decide_eq_true same)

theorem distinctIds_first :
    DistinctIds largeJson ([firstAnswer].map SseEvent.value) where
  present := by decide
  distinct := by decide

theorem distinctIds_both :
    DistinctIds largeJson ([firstAnswer, secondAnswer].map SseEvent.value) where
  present := by decide
  distinct := by decide

/-- No document that the parser knows begins like an event. -/
theorem noJson_stream {events : List (SseEvent largeJson)} (sent : events ≠ []) :
    largeJson.fromStr (BodyFormat.eventStream.render (events.map SseEvent.text)) = none := by
  rw [fromStr_largeJson, Option.map_eq_none_iff, List.find?_eq_none]
  have first : (BodyFormat.eventStream.render (events.map SseEvent.text)).toList.head? =
      some 'e' := by
    cases events with
    | nil => exact absurd rfl sent
    | cons event rest =>
        rw [BodyFormat.render, String.toList_ofList]
        rfl
  intro document known same
  rw [← of_decide_eq_true same] at first
  clear same
  simp only [List.mem_cons, List.not_mem_nil, or_false] at known
  rcases known with rfl | rfl | rfl | rfl
  · exact absurd first (by decide)
  · exact absurd first (by decide)
  · rw [BodyFormat.render, String.toList_ofList] at first
    cases first
  · rw [BodyFormat.render, String.toList_ofList] at first
    cases first

/-- A stream that sends one answer twice has its credits once. -/
theorem observedCredits_iff_repeated :
    StreamTotalExact largeJson ([firstAnswer].map SseEvent.value)
      (BodyFormat.eventStream.render ([firstAnswer, firstAnswer].map SseEvent.text)) := by
  obtain ⟨_, streams, _⟩ := observedCredits_iff largeJson [firstAnswer] distinctIds_first
    parsed_first
  have repeats : Repeats largeJson ([firstAnswer, firstAnswer].map SseEvent.value)
      ([firstAnswer].map SseEvent.value) := by
    constructor
    · intro message member
      exact List.mem_cons_of_mem _ member
    · intro update member
      have same : update = firstAnswer.value := by simpa using member
      exact ⟨update, by simp [same], rfl, fun credits found => ⟨credits, found, le_refl credits⟩⟩
  apply (streams _ _ (noJson_stream (List.cons_ne_nil _ _)) (extractSseJsonMessages_events _)
    repeats).mpr
  decide

/-- The events of two answers with the largest usage add up to a negative total. -/
theorem stream_wraps_large :
    ¬ ∀ (json : SerdeJson) (messages : List (SseEvent json)),
      DistinctIds json (messages.map SseEvent.value) →
      json.fromStr (BodyFormat.batch.render (messages.map SseEvent.text)) =
        some (.array (messages.map SseEvent.value)) →
      json.fromStr (BodyFormat.eventStream.render (messages.map SseEvent.text)) = none →
      extractUsageCreditsTotalFromJsonBytes json
          (BodyFormat.eventStream.render (messages.map SseEvent.text)).toUTF8 =
        expectedTotal (messages.map SseEvent.value) := by
  intro agrees
  have noJson := @noJson_stream [firstAnswer, secondAnswer] (List.cons_ne_nil _ _)
  have total := agrees largeJson [firstAnswer, secondAnswer] distinctIds_both
    parsed_both noJson
  have slice : largeJson.fromSlice
      (BodyFormat.eventStream.render ([firstAnswer, secondAnswer].map SseEvent.text)).toUTF8 =
        none := noJson
  have perm := maxima_of_repeats (extractSseJsonMessages_events [firstAnswer, secondAnswer])
    (Repeats.refl largeJson _) distinctIds_both
  rw [extractUsageCreditsTotalFromJsonBytes, slice] at total
  simp only [sseTotal_of_maxima] at total
  rw [perm.isEmpty_eq, perm.sum_eq] at total
  revert total
  decide

end TavilyHikari.Server
