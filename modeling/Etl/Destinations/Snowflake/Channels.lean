import Etl.Destinations.Snowflake.ChannelView

/-! # Channels that are open when they are needed

Channels are opened by rows: the first row of a table in a process creates the table and opens its
channel. Truncates and schema changes take the channel for granted. They fail in a process in which
the table had no row before, for example after a restart (`restarted_fails_without_row`); by then a
schema change has been applied and stored. `processEvents_succeed_iff` says which sequences of calls
succeed when Snowflake and the store accept every call.

Reference: `etl-destinations/src/snowflake/core.rs` (`write_events`).
-/

namespace Etl.Snowflake

open List View AList
open Calls.Completes
open Calls.SucceedsIff

open Calls

/-! ## Rows, schema changes and truncates -/

/-- The row can be serialized within the limit. -/
def Serializes (format : RowFormat) (columns : List ColumnSchema) (row : TableRow) (cdc : CdcMeta) :
    Prop :=
  ∃ bytes, format.serializeRow columns row cdc = .ok bytes ∧
    bytes.length ≤ MAX_UNCOMPRESSED_ROW_BYTES

/-- The image of a row can be sent, with any of the given columns; updates carry full rows. -/
def CanSend (format : RowFormat) (columnLists : List ColumnSchema → Prop)
    (schema : ReplicatedTableSchema) (offset : OffsetToken) : RowImage → Prop
  | .insert row => ∀ columns, columnLists columns → Serializes format columns row ⟨.insert, offset⟩
  | .update (.full row) _ =>
    ∀ columns, columnLists columns → Serializes format columns row ⟨.update, offset⟩
  | .update (.partialImage _) _ => False
  | .delete (some (.full row)) =>
    ∀ columns, columnLists columns → Serializes format columns row ⟨.delete, offset⟩
  | .delete (some (.key row)) =>
    Serializes format schema.identityColumnSchemas row ⟨.delete, offset⟩
  | .delete none => True

/-- The columns under which rows of a table are sent among the events. -/
def SentColumns (events : List (Event RowImage)) (tableId : TableId)
    (columns : List ColumnSchema) : Prop :=
  ∃ event ∈ events, ∃ schema ∈ sentSchema event, schema.id = tableId ∧
    schema.columnSchemas = columns

/-- Nothing but a missing channel stands against processing the events: their tables have names and
columns that Snowflake can have, their rows can be sent, and all versions are stored. -/
structure Ready (casing : CaseMapping) (format : RowFormat) (tableSchemas : TableSchemaSnapshots)
    (events : List (Event RowImage)) : Prop where
  named : ∀ event ∈ events, ∀ schema ∈ eventSchemas event,
    ∃ name, snowflakeTableName casing schema.tableSchema.name = .ok name
  columns : ∀ event ∈ events, ∀ schema ∈ eventSchemas event,
    validateNoCdcCollisions schema.columnSchemas = .ok ()
  stored : ∀ event ∈ events, ∀ schema ∈ eventSchemas event,
    (tableSchemas.getAtOrBefore schema.id schema.tableSchema.snapshotId).isSome = true
  rows : ∀ event ∈ events, ∀ kind schema image, event.body = .row kind schema image →
    CanSend format (SentColumns events schema.id) schema
      (OffsetToken.new event.commitLsn event.txOrdinal) image

/-- The tables of the events have applied metadata, for a version that is stored. -/
structure View.Applied (view : View) (events : List (Event RowImage)) : Prop where
  applied : ∀ event ∈ events, ∀ schema ∈ eventSchemas event, (view.applied schema.id).isSome = true
  stored : ∀ tableId version, view.applied tableId = some version →
    (view.tableSchemas.getAtOrBefore tableId version.1).isSome = true

variable {format : RowFormat} {casing : CaseMapping} {view : View}
  {all events : List (Event RowImage)}

/-- Events apply versions that are stored. -/
theorem View.Applied.after {all : List (Event RowImage)} (happlied : view.Applied all)
    (hready : Ready casing format view.tableSchemas all) {event : Event RowImage}
    (hevent : event ∈ all) : (view.after event).Applied all := by
  -- storing a schema of an event keeps what is known to be applied
  have happly : ∀ schema ∈ eventSchemas event, ∀ channel,
      ({ view.apply schema with channel } : View).Applied all := by
    intro schema hschema channel
    refine ⟨fun other hother schema' hschema' => ?_, fun tableId version hversion => ?_⟩
    · dsimp only [apply]
      by_cases hid : schema'.id = schema.id
      · rw [hid, Function.update_self]
        rfl
      · rw [Function.update_of_ne hid]
        exact happlied.applied other hother schema' hschema'
    · dsimp only [apply] at hversion ⊢
      by_cases hid : tableId = schema.id
      · subst hid
        rw [Function.update_self] at hversion
        rw [← Option.some.inj hversion]
        exact hready.stored event hevent schema hschema
      · rw [Function.update_of_ne hid] at hversion
        exact happlied.stored tableId version hversion
  have hsent : ∀ schema ∈ sentSchema event, schema ∈ eventSchemas event := by
    intro schema hschema
    rw [sentSchema] at hschema
    rw [eventSchemas]
    cases hbody : event.body with
    | row kind schema' image =>
      rw [hbody] at hschema
      dsimp only at hschema ⊢
      split_ifs at hschema
      · cases hschema
      · exact mem_singleton.mpr (Option.some.inj hschema).symm
    | _ =>
      rw [hbody] at hschema
      cases hschema
  -- a row prepares its table if the channel is not open yet
  have hprepare : (((sentSchema event).map view.prepare).getD view).Applied all := by
    cases hschema : sentSchema event with
    | none => exact happlied
    | some schema =>
      show (view.prepare schema).Applied all
      rw [prepare]
      split_ifs
      · exact happlied
      · exact happly schema (hsent schema hschema) _
  rw [View.after]
  cases hbody : event.body with
  | relation schema =>
    have hschema : schema ∈ eventSchemas event := by
      rw [eventSchemas, hbody]
      exact mem_singleton_self schema
    dsimp only
    rw [relate]
    split_ifs
    · exact happlied
    · exact happly schema hschema _
  | truncate tables => exact ⟨happlied.applied, happlied.stored⟩
  | _ => exact hprepare

theorem View.Applied.foldl (happlied : view.Applied all)
    (hready : Ready casing format view.tableSchemas all) (hevents : ∀ event ∈ events, event ∈ all) :
    (events.foldl View.after view).Applied all ∧
      (events.foldl View.after view).tableSchemas = view.tableSchemas := by
  induction events generalizing view with
  | nil => exact ⟨happlied, rfl⟩
  | cons event events ih =>
    rw [forall_mem_cons] at hevents
    have hschemas := tableSchemas_after view event
    obtain ⟨hrest, hrestSchemas⟩ :=
      ih (happlied.after hready hevents.1) (hschemas ▸ hready) hevents.2
    exact ⟨hrest, hrestSchemas.trans hschemas⟩

/-- Nothing but a missing channel stands against processing the events. -/
structure Processable (casing : CaseMapping) (format : RowFormat) (events : List (Event RowImage))
    (destination : Destination) : Prop where
  ready : Ready casing format destination.tableSchemas events
  applied : destination.view.Applied events

/-- That remains so. -/
theorem Processable.of_view {destination t : Destination}
    (h : Processable casing format all destination)
    (hview : t.view = events.foldl View.after destination.view)
    (hevents : ∀ event ∈ events, event ∈ all) : Processable casing format all t := by
  obtain ⟨happlied, hschemas⟩ := h.applied.foldl h.ready hevents
  rw [← hview] at happlied hschemas
  have hschemas : t.tableSchemas = destination.tableSchemas := hschemas
  exact ⟨hschemas ▸ h.ready, happlied⟩

theorem view_setMetadata (destination : Destination) (tableId : TableId)
    (metadata : DestinationTableMetadata) :
    (destination.setMetadata tableId metadata).view =
      { destination.view with
        applied := Function.update destination.view.applied tableId
          (if metadata.isApplied then some (metadata.snapshotId, metadata.replicationMask)
            else none) } := by
  refine congrArg (fun applied => mk _ applied _) (funext fun id => ?_)
  exact Function.apply_update (fun _ : TableId => fun stored : Option DestinationTableMetadata =>
    stored.bind fun metadata =>
      if metadata.isApplied then some (metadata.snapshotId, metadata.replicationMask) else none)
    destination.metadata tableId (some metadata) id

theorem completes_storeDestinationTableMetadata (tableId : TableId)
    (metadata : DestinationTableMetadata) (destination : Destination) :
    Completes (storeDestinationTableMetadata tableId metadata) destination fun _ t =>
      t = destination.setMetadata tableId metadata :=
  call rfl rfl

section Truncated

variable {tables : List ReplicatedTableSchema}
  {truncated : AList fun _ : TableId => ReplicatedTableSchema} {tableId : TableId}

theorem mem_foldl_insert :
    tableId ∈ tables.foldl (fun map schema => map.insert schema.id schema) truncated ↔
      tableId ∈ truncated ∨ ∃ schema ∈ tables, tableId = schema.id := by
  induction tables generalizing truncated with
  | nil => simp
  | cons schema tables ih =>
    rw [foldl_cons, ih, mem_insert, exists_mem_cons_iff, or_assoc, or_left_comm]

theorem lookup_foldl_insert {schema : ReplicatedTableSchema}
    (hlookup : (tables.foldl (fun map schema => map.insert schema.id schema) truncated).lookup
      tableId = some schema) :
    truncated.lookup tableId = some schema ∨ schema.id = tableId ∧ schema ∈ tables := by
  induction tables generalizing truncated with
  | nil => exact .inl hlookup
  | cons first tables ih =>
    rcases ih hlookup with hlookup | ⟨hid, hmem⟩
    · by_cases hfirst : tableId = first.id
      · subst hfirst
        rw [lookup_insert] at hlookup
        cases hlookup
        exact .inr ⟨rfl, mem_cons_self⟩
      · rw [lookup_insert_ne hfirst] at hlookup
        exact .inl hlookup
    · exact .inr ⟨hid, mem_cons_of_mem _ hmem⟩

end Truncated

section Process

variable {config : Config} {server : Server} {casing : CaseMapping} {order : HashOrder}
  {format : RowFormat}
  (haccepts : ∀ requests request, ∃ response, server requests request = .ok response)
  {schema : ReplicatedTableSchema} {name : String} {events : List (Event RowImage)}
  {destination : Destination} {accumulator : Accumulator format} {all : List (Event RowImage)}

include haccepts

theorem completes_prepareTableForStreaming
    (hname : snowflakeTableName casing schema.tableSchema.name = .ok name)
    (hcolumns : validateNoCdcCollisions schema.columnSchemas = .ok ()) (destination : Destination) :
    Completes (prepareTableForStreaming config server casing schema) destination fun _ t =>
      t.view = destination.view.prepare schema := by
  refine (ofExcept (Q := fun a t => a = name ∧ t = destination) hname ⟨rfl, rfl⟩).bind ?_
  rintro _ destination ⟨rfl, rfl⟩
  refine (completes_ensureTable haccepts schema.id _ hcolumns _).mapError.bind ?_
  rintro _ t ⟨rfl, hview⟩
  rw [prepare]
  by_cases hopen : (destination.view.channel schema.id).isSome = true
  · rw [hopen] at hview ⊢
    exact pure hview
  · rw [Bool.not_eq_true] at hopen
    rw [hopen] at hview ⊢
    refine (completes_storeDestinationTableMetadata _ _ t).mono ?_
    rintro - _ rfl
    rw [view_setMetadata, hview]
    rfl

omit haccepts in
/-- What is accumulated from events: the tables in the cache are open, with columns of the events,
and the builders have rows. -/
structure Accumulated (events : List (Event RowImage)) (view : View)
    (accumulator : Accumulator format) : Prop where
  opened : ∀ tableId, (accumulator.columnCache.lookup tableId).isSome = true →
    (view.channel tableId).isSome = true
  columns : ∀ tableId columns, accumulator.columnCache.lookup tableId = some columns →
    SentColumns events tableId columns
  built : ∀ tableId builder, accumulator.builders.lookup tableId = some builder →
    builder.Built ∧ 0 < builder.currentRowCount

omit haccepts in
theorem accumulated_empty {view : View} :
    Accumulated events view ({} : Accumulator format) where
  opened _ h := by simp at h
  columns _ _ h := by simp at h
  built _ _ h := by simp at h

theorem completes_ensureColumnCache (haccumulated : Accumulated events destination.view accumulator)
    (hsent : SentColumns events schema.id schema.columnSchemas)
    (hname : snowflakeTableName casing schema.tableSchema.name = .ok name)
    (hcolumns : validateNoCdcCollisions schema.columnSchemas = .ok ()) :
    Completes (ensureColumnCache config server casing accumulator.columnCache schema) destination
      fun columnCache t => t.view = destination.view.prepare schema ∧
        Accumulated events t.view { accumulator with columnCache } ∧
        ∃ columns, columnCache.lookup schema.id = some columns := by
  rw [ensureColumnCache]
  split_ifs with hcached
  · -- a table in the cache has its channel
    have hview : destination.view.prepare schema = destination.view :=
      if_pos (haccumulated.opened schema.id hcached)
    exact pure ⟨hview.symm, haccumulated, Option.isSome_iff_exists.mp hcached⟩
  · refine (completes_prepareTableForStreaming haccepts hname hcolumns destination).bind ?_
    intro _ t ht
    refine pure ⟨ht, ⟨fun tableId hlookup => ?_, fun tableId columns hlookup => ?_,
      haccumulated.built⟩, schema.columnSchemas, lookup_insert _⟩
    · rw [ht, channel_prepare]
      split_ifs with hid
      · rfl
      · rw [lookup_insert_ne hid] at hlookup
        exact haccumulated.opened tableId hlookup
    · by_cases hid : tableId = schema.id
      · subst hid
        rw [lookup_insert] at hlookup
        exact Option.some.inj hlookup ▸ hsent
      · rw [lookup_insert_ne hid] at hlookup
        exact haccumulated.columns tableId columns hlookup

theorem completes_encodeRow (haccumulated : Accumulated events destination.view accumulator)
    (hsent : SentColumns events schema.id schema.columnSchemas)
    (hname : snowflakeTableName casing schema.tableSchema.name = .ok name)
    (hcolumns : validateNoCdcCollisions schema.columnSchemas = .ok ())
    {columns : Option (List ColumnSchema)} {row : TableRow} {operation : CdcOperation}
    {offset : OffsetToken}
    (hrow : ∀ cached, SentColumns events schema.id cached →
      Serializes format (columns.getD cached) row ⟨operation, offset⟩) :
    Completes (encodeRow config server casing format accumulator schema columns row operation
        offset) destination fun result t => t.view = destination.view.prepare schema ∧
        Accumulated events t.view result ∧
        ∀ tableId, tableId ∈ result.builders ↔
          tableId = schema.id ∨ tableId ∈ accumulator.builders := by
  refine (completes_ensureColumnCache haccepts haccumulated hsent hname hcolumns).bind ?_
  rintro columnCache t ⟨ht, hcache, cached, hcached⟩
  obtain ⟨bytes, hbytes, hlength⟩ := hrow cached (hcache.columns _ _ hcached)
  obtain ⟨builder, hpush, hrows⟩ : ∃ builder,
      ((accumulator.builders.lookup schema.id).getD {}).pushRow (columns.getD cached) row
        ⟨operation, offset⟩ offset = .ok builder ∧ 0 < builder.currentRowCount := RowBatchBuilder.exists_pushRow hbytes hlength offset
  rw [hcached]
  refine (ofExcept (Q := fun b u => b = builder ∧ u = t) hpush
    ⟨rfl, rfl⟩).mapError.bind ?_
  rintro _ t ⟨rfl, rfl⟩
  refine pure ⟨ht, ⟨hcache.opened, hcache.columns, fun tableId built hlookup => ?_⟩,
    fun tableId => mem_insert _⟩
  by_cases hid : tableId = schema.id
  · subst hid
    rw [lookup_insert] at hlookup
    cases hlookup
    refine ⟨.pushRow ?_ hpush, hrows⟩
    cases hbefore : accumulator.builders.lookup schema.id with
    | none => exact .empty
    | some before => exact (haccumulated.built _ _ hbefore).1
  · rw [lookup_insert_ne hid] at hlookup
    exact haccumulated.built tableId built hlookup

theorem completes_encodeEvent (hready : Ready casing format destination.tableSchemas events)
    (haccumulated : Accumulated events destination.view accumulator) {event : Event RowImage}
    (hevent : event ∈ events) {kind : RowKind} {image : RowImage}
    (hbody : event.body = .row kind schema image) :
    Completes (encodeEvent config server casing format accumulator schema image
        (OffsetToken.new event.commitLsn event.txOrdinal))
      destination fun result t => t.view = destination.view.after event ∧
        Accumulated events t.view result ∧
        ∀ tableId, tableId ∈ result.builders ↔
          (∃ schema ∈ sentSchema event, tableId = schema.id) ∨ tableId ∈ accumulator.builders := by
  have hschema : schema ∈ eventSchemas event := by
    rw [eventSchemas, hbody]
    exact mem_singleton_self schema
  obtain ⟨name, hname⟩ := hready.named event hevent schema hschema
  have hcolumns := hready.columns event hevent schema hschema
  have hrow := hready.rows event hevent kind schema image hbody
  -- a row that is sent prepares its table
  have hencode : image ≠ .delete none → ∀ columns row operation,
      (∀ cached, SentColumns events schema.id cached → Serializes format (columns.getD cached) row
        ⟨operation, OffsetToken.new event.commitLsn event.txOrdinal⟩) →
      Completes (encodeRow config server casing format accumulator schema columns row operation
          (OffsetToken.new event.commitLsn event.txOrdinal))
        destination fun result t => t.view = destination.view.after event ∧
          Accumulated events t.view result ∧
          ∀ tableId, tableId ∈ result.builders ↔
            (∃ schema ∈ sentSchema event, tableId = schema.id) ∨
              tableId ∈ accumulator.builders := by
    intro himage columns row operation hserializes
    have hsent : sentSchema event = some schema := by
      rw [sentSchema, hbody]
      exact if_neg himage
    refine (completes_encodeRow haccepts haccumulated ⟨event, hevent, schema, hsent, rfl, rfl⟩
      hname hcolumns hserializes).mono fun result t h => ⟨?_, h.2.1, fun tableId => ?_⟩
    · rw [View.after, hbody, h.1]
      rw [hsent]
      rfl
    · rw [h.2.2 tableId, hsent]
      simp
  cases image with
  | insert row => exact hencode (by simp) none row .insert hrow
  | update updated old =>
    cases updated with
    | full row => exact hencode (by simp) none row .update hrow
    | partialImage row => exact hrow.elim
  | delete old =>
    cases old with
    | some old =>
      cases old with
      | full row => exact hencode (by simp) none row .delete hrow
      | key row =>
        exact hencode (by simp) (some schema.identityColumnSchemas) row .delete fun _ _ => hrow
    | none =>
      have hsent : sentSchema event = none := by
        rw [sentSchema, hbody]
        rfl
      refine pure ⟨?_, haccumulated, fun tableId => ?_⟩
      · rw [View.after, hbody]
        rw [hsent]
        rfl
      · rw [hsent]
        simp

/-- The rows up to the next barrier are encoded. -/
theorem completes_accumulateDataEvents (hready : Ready casing format destination.tableSchemas all)
    (hevents : ∀ event ∈ events, event ∈ all)
    (haccumulated : Accumulated all destination.view accumulator) :
    Completes (accumulateDataEvents config server casing format accumulator events) destination
      fun result t =>
        result.2 = events.dropWhile (!isBarrier ·) ∧
        t.view = (events.takeWhile (!isBarrier ·)).foldl View.after destination.view ∧
        Accumulated all t.view result.1 ∧
        ∀ tableId, tableId ∈ result.1.builders ↔
          (∃ event ∈ events.takeWhile (!isBarrier ·), ∃ schema ∈ sentSchema event,
            tableId = schema.id) ∨ tableId ∈ accumulator.builders := by
  induction events generalizing accumulator destination with
  | nil => exact pure ⟨rfl, rfl, haccumulated, by simp⟩
  | cons event events ih =>
    have hrest : ∀ event ∈ events, event ∈ all := fun e he => hevents e (mem_cons_of_mem _ he)
    rw [accumulateDataEvents.eq_def]
    dsimp only
    cases hbody : event.body with
    | truncate tables | relation schema =>
      have hbarrier : isBarrier event = true := by rw [isBarrier, hbody]
      refine pure ?_
      simp [hbarrier, haccumulated]
    | row kind schema image =>
      have hbarrier : isBarrier event = false := by rw [isBarrier, hbody]
      refine (completes_encodeEvent haccepts hready haccumulated
        (hevents event mem_cons_self) hbody).bind fun result t ht => ?_
      obtain ⟨hview, hresult, hkeys⟩ := ht
      have hschemas : t.tableSchemas = destination.tableSchemas :=
        (congrArg View.tableSchemas hview).trans (View.tableSchemas_after _ _)
      refine (ih (hschemas ▸ hready) hrest hresult).mono fun final u hu => ?_
      obtain ⟨hdrop, htake, hfinal, hfinalKeys⟩ := hu
      simp only [dropWhile_cons, takeWhile_cons, hbarrier, Bool.not_false, if_true, foldl_cons]
      refine ⟨hdrop, by rw [htake, hview], hfinal, fun tableId => ?_⟩
      rw [hfinalKeys, hkeys, exists_mem_cons_iff, or_assoc, or_left_comm]
    | begin | commit endLsn =>
      have hbarrier : isBarrier event = false := by rw [isBarrier, hbody]
      have hsent : sentSchema event = none := by rw [sentSchema, hbody]
      have hafter : destination.view.after event = destination.view := by
        rw [View.after, hbody, hsent]
        rfl
      refine (ih hready hrest haccumulated).mono fun final u hu => ?_
      simpa [hbarrier, hafter, hsent] using hu

/-- The rows of every table are sent. -/
theorem succeedsIff_flushBatches
    (hfinish : ∀ builder : RowBatchBuilder format, builder.Built →
      ∃ batches, builder.finish = .ok batches)
    (haccumulated : Accumulated events destination.view accumulator) :
    SucceedsIff (flushBatches server order format accumulator.builders) destination
      (∀ tableId ∈ accumulator.builders, destination.view.channel tableId = some true)
      fun _ t => t.view = destination.view := by
  have hkeys : (∀ entry ∈ order.entries accumulator.builders,
      destination.view.channel entry.1 = some true) ↔
        ∀ tableId ∈ accumulator.builders, destination.view.channel tableId = some true := by
    constructor
    · intro h tableId hmem
      obtain ⟨builder, hlookup⟩ := lookup_isSome.mpr hmem |> Option.isSome_iff_exists.mp
      exact h ⟨tableId, builder⟩ ((order.perm _).mem_iff.mpr (mem_lookup_iff.mp hlookup))
    · intro h entry hentry
      exact h entry.1 (mem_keys.mpr
        (mem_map_of_mem (f := Sigma.fst) ((order.perm _).mem_iff.mp hentry)))
  refine congr (mono (loop
    (I := fun _ t => t.view = destination.view) ?_ rfl) fun _ _ _ h => h) hkeys
  rintro - ⟨tableId, builder⟩ t hentry ht -
  have hlookup : accumulator.builders.lookup tableId = some builder :=
    mem_lookup_iff.mpr ((order.perm _).mem_iff.mp hentry)
  obtain ⟨hbuilt, hrows⟩ := haccumulated.built tableId builder hlookup
  obtain ⟨batches, hbatches⟩ := hfinish builder hbuilt
  refine after (ofExcept (Q := fun b u => b = batches ∧ u = t) hbatches
    ⟨rfl, rfl⟩).mapError ?_
  rintro _ t ⟨rfl, rfl⟩
  have hne := RowBatchBuilder.finish_ne_nil hrows hbatches
  refine ((succeedsIff_insertBatches haccepts tableId hne t).mapError.mono
    fun _ _ _ h => h.trans ht).congr ?_
  rw [ht]

/-- A relation event with another schema needs the channel of its table. -/
theorem succeedsIff_handleRelationEvent
    (hname : snowflakeTableName casing schema.tableSchema.name = .ok name)
    (hcolumns : validateNoCdcCollisions schema.columnSchemas = .ok ())
    (happlied : (destination.view.applied schema.id).isSome = true)
    (hstored : ∀ version, destination.view.applied schema.id = some version →
      (destination.tableSchemas.getAtOrBefore schema.id version.1).isSome = true) :
    SucceedsIff (handleRelationEvent config server casing schema) destination
      (destination.view.Current schema ∨ (destination.view.channel schema.id).isSome = true)
      fun _ t => t.view = destination.view.relate schema := by
  obtain ⟨version, hversion⟩ := Option.isSome_iff_exists.mp happlied
  obtain ⟨metadata, hmetadata, hmatch⟩ := Option.bind_eq_some_iff.mp hversion
  split_ifs at hmatch with hisApplied
  cases hmatch
  obtain ⟨tableSchema, htableSchema⟩ := Option.isSome_iff_exists.mp (hstored _ hversion)
  have hget : getAppliedDestinationTableMetadata (destination.metadata schema.id) =
      .ok (some ⟨metadata.destinationTableId, metadata.snapshotId, metadata.replicationMask⟩) := by
    rw [hmetadata, getAppliedDestinationTableMetadata, DestinationTableMetadata.intoApplied,
      hisApplied]
    rfl
  refine read ?_
  rw [hget]
  show SucceedsIff (ite _ _ _) destination _ _
  have hcurrent : destination.view.Current schema ↔
      metadata.snapshotId = schema.tableSchema.snapshotId ∧
        metadata.replicationMask = schema.replicationMask := by
    rw [View.Current, hversion, Option.some.injEq, Prod.mk.injEq]
  rw [relate]
  split_ifs with hsame hview hview
  · exact .of_completes (pure rfl) (.inl hview)
  · exact absurd (hcurrent.mpr hsame) hview
  · exact absurd (hcurrent.mp hview) hsame
  · -- the change is applied and stored before the channel is asked for
    rw [htableSchema]
    refine after
      (ofExcept (Q := fun a t => a = name ∧ t = destination) hname ⟨rfl, rfl⟩) ?_
    rintro _ destination ⟨rfl, rfl⟩
    refine after (completes_storeDestinationTableMetadata _ _ _) ?_
    rintro - _ rfl
    refine after (completes_applySchemaDiff haccepts _ _ _).mapError ?_
    rintro - t ht
    refine after (completes_storeDestinationTableMetadata _ _ t) ?_
    rintro - _ rfl
    refine after
      (ofExcept (Q := fun _ u => u = t.setMetadata schema.id _) hcolumns rfl).mapError ?_
    rintro - _ rfl
    have happly : (t.setMetadata schema.id ((DestinationTableMetadata.newApplied
        metadata.destinationTableId metadata.snapshotId metadata.replicationMask).withSchemaChange
          schema.tableSchema.snapshotId schema.replicationMask .applying).toApplied).view =
            destination.view.apply schema := by
      rw [view_setMetadata, ht, view_setMetadata]
      simp only [Function.update_idem]
      rfl
    refine ((succeedsIff_refreshTable haccepts schema.id _).mapError.mono
      fun _ _ _ h => ?_).congr ?_
    · rw [h, happly]
    · rw [happly]
      exact (or_iff_right hview).symm

/-- The relation events at the front find their channels. -/
theorem succeedsIff_applyRelationEvents (hready : Ready casing format destination.tableSchemas all)
    (happlied : destination.view.Applied all) (hevents : ∀ event ∈ events, event ∈ all) :
    SucceedsIff (applyRelationEvents config server casing events) destination
      (destination.view.OpenInTime (events.takeWhile isRelation)) fun rest t =>
        rest = events.dropWhile isRelation ∧
          t.view = (events.takeWhile isRelation).foldl View.after destination.view := by
  induction events generalizing destination with
  | nil => exact .of_completes (pure ⟨rfl, rfl⟩) trivial
  | cons event events ih =>
    rw [applyRelationEvents.eq_def]
    dsimp only
    cases hbody : event.body with
    | relation schema =>
      have hrelation : isRelation event = true := by rw [isRelation, hbody]
      have hevent := hevents event mem_cons_self
      have hschema : schema ∈ eventSchemas event := by
        rw [eventSchemas, hbody]
        exact mem_singleton_self schema
      obtain ⟨name, hname⟩ := hready.named event hevent schema hschema
      have hafter : destination.view.after event = destination.view.relate schema := by
        rw [View.after, hbody]
      have hopens : destination.view.Opens event ↔
          destination.view.Current schema ∨ (destination.view.channel schema.id).isSome = true := by
        rw [View.Opens, hbody]
      rw [takeWhile_cons, dropWhile_cons, hrelation]
      refine bind (φ := destination.view.Opens event)
        ((succeedsIff_handleRelationEvent haccepts hname
          (hready.columns event hevent schema hschema)
          (happlied.applied event hevent schema hschema) (happlied.stored schema.id)).congr
          hopens.symm) fun _ _ t ht => ?_
      rw [← hafter] at ht
      have hschemas : t.tableSchemas = destination.tableSchemas :=
        (congrArg View.tableSchemas ht).trans (View.tableSchemas_after _ _)
      have happlied' : t.view.Applied all := ht ▸ happlied.after hready hevent
      rw [← ht]
      have hrest : ∀ e ∈ events, e ∈ all := fun e he => hevents e (mem_cons_of_mem _ he)
      exact (ih (hschemas ▸ hready) happlied' hrest).mono
        fun _ _ u hu => ⟨hu.1, by rw [hu.2, ht]; rfl⟩
    | _ =>
      have hrelation : isRelation event = false := by rw [isRelation, hbody]
      simp only [takeWhile_cons, dropWhile_cons, hrelation]
      exact .of_completes (pure ⟨rfl, rfl⟩) trivial

omit haccepts in
/-- The tables of the truncate events at the front, each under its identifier. -/
theorem collectTruncated_spec (truncated : AList fun _ : TableId => ReplicatedTableSchema)
    (events : List (Event RowImage)) :
    (collectTruncated truncated events).2 = events.dropWhile isTruncate ∧
      (∀ tableId schema, (collectTruncated truncated events).1.lookup tableId = some schema →
        truncated.lookup tableId = some schema ∨
          schema.id = tableId ∧
            ∃ event ∈ events.takeWhile isTruncate, schema ∈ eventSchemas event) ∧
      ∀ tableId, tableId ∈ (collectTruncated truncated events).1 ↔ tableId ∈ truncated ∨
        ∃ event ∈ events.takeWhile isTruncate, ∃ schema ∈ eventSchemas event,
          tableId = schema.id := by
  induction events generalizing truncated with
  | nil => exact ⟨rfl, fun _ _ h => .inl h, by simp [collectTruncated]⟩
  | cons event events ih =>
    rw [collectTruncated.eq_def]
    dsimp only
    cases hbody : event.body with
    | truncate tables =>
      have htruncate : isTruncate event = true := by rw [isTruncate, hbody]
      have hschemas : eventSchemas event = tables := by rw [eventSchemas, hbody]
      obtain ⟨hrest, hlookup, hkeys⟩ :=
        ih (tables.foldl (fun map schema => map.insert schema.id schema) truncated)
      rw [takeWhile_cons, dropWhile_cons, htruncate]
      refine ⟨hrest, fun tableId schema hfound => ?_, fun tableId => ?_⟩
      · rcases hlookup tableId schema hfound with hfound | ⟨hid, other, hother, hmem⟩
        · rcases lookup_foldl_insert hfound with hfound | ⟨hid, hmem⟩
          · exact .inl hfound
          · exact .inr ⟨hid, event, mem_cons_self, hschemas ▸ hmem⟩
        · exact .inr ⟨hid, other, mem_cons_of_mem _ hother, hmem⟩
      · rw [hkeys, mem_foldl_insert]
        simp only [if_true, exists_mem_cons_iff, hschemas, or_assoc]
    | _ =>
      have htruncate : isTruncate event = false := by rw [isTruncate, hbody]
      simp [htruncate]

/-- The truncate events at the front find the channels of their tables. -/
theorem succeedsIff_applyTruncateEvents {tableSchemas : TableSchemaSnapshots}
    (hready : Ready casing format tableSchemas all) (hevents : ∀ event ∈ events, event ∈ all)
    (destination : Destination) :
    SucceedsIff (applyTruncateEvents config server casing order events) destination
      (destination.view.OpenInTime (events.takeWhile isTruncate)) fun rest t =>
        rest = events.dropWhile isTruncate ∧
          t.view = (events.takeWhile isTruncate).foldl View.after destination.view := by
  obtain ⟨hrest, hlookup, hkeys⟩ := collectTruncated_spec ∅ events
  rw [applyTruncateEvents]
  generalize hcollected : collectTruncated ∅ events = collected at hrest hlookup hkeys ⊢
  obtain ⟨truncated, rest⟩ := collected
  -- the entries are the tables of the events
  have hentry : ∀ entry ∈ order.entries truncated, entry.2.id = entry.1 ∧
      ∃ event ∈ events.takeWhile isTruncate, entry.2 ∈ eventSchemas event := by
    intro entry hmem
    have hfound : truncated.lookup entry.1 = some entry.2 :=
      mem_lookup_iff.mpr ((order.perm _).mem_iff.mp hmem)
    exact (hlookup entry.1 entry.2 hfound).resolve_left (by simp)
  have hids : ∀ tableId, tableId ∈ ((order.entries truncated).map Sigma.snd).map
      ReplicatedTableSchema.id ↔ tableId ∈
        ((events.takeWhile isTruncate).flatMap eventSchemas).map ReplicatedTableSchema.id := by
    intro tableId
    rw [map_map, mem_map, mem_map]
    constructor
    · rintro ⟨entry, hmem, rfl⟩
      obtain ⟨-, event, hevent, hschema⟩ := hentry entry hmem
      exact ⟨entry.2, mem_flatMap.mpr ⟨event, hevent, hschema⟩, rfl⟩
    · rintro ⟨schema, hschema, rfl⟩
      obtain ⟨event, hevent, hschema⟩ := mem_flatMap.mp hschema
      have hmem := (hkeys schema.id).mpr (.inr ⟨event, hevent, schema, hschema, rfl⟩)
      obtain ⟨found, hfound⟩ := Option.isSome_iff_exists.mp (lookup_isSome.mpr hmem)
      have hfoundEntry : (⟨schema.id, found⟩ : Sigma fun _ : TableId => ReplicatedTableSchema) ∈
          order.entries truncated := (order.perm _).mem_iff.mpr (mem_lookup_iff.mp hfound)
      exact ⟨_, hfoundEntry, (hentry _ hfoundEntry).1⟩
  have htruncates : ∀ event ∈ events.takeWhile isTruncate, isTruncate event = true :=
    fun event hevent => mem_takeWhile_imp hevent
  have hcondition : (∀ entry ∈ order.entries truncated,
      (destination.view.channel entry.2.id).isSome = true) ↔
        destination.view.OpenInTime (events.takeWhile isTruncate) := by
    rw [openInTime_truncates htruncates]
    refine Iff.trans ?_ (forall_mem_map (P := fun tableId =>
      (destination.view.channel tableId).isSome = true))
    rw [← forall_congr' fun tableId => imp_congr_left (hids tableId), forall_mem_map,
      forall_mem_map]
  have hview : destination.view.truncate ((order.entries truncated).map Sigma.snd) =
      (events.takeWhile isTruncate).foldl after destination.view := by
    rw [foldl_after_truncates htruncates, truncate, truncate]
    simp only [hids]
  refine before (congr (loop
    (I := fun (done : List (Sigma fun _ : TableId => ReplicatedTableSchema)) (t : Destination) =>
      t.view = destination.view.truncate (done.map Sigma.snd)) ?_ ?_) hcondition)
    fun _ _ t ht => pure ⟨hrest, ht.trans hview⟩
  · intro done entry t hmem ht hdone
    obtain ⟨-, event, hevent, hschema⟩ := hentry entry hmem
    obtain ⟨name, hname⟩ := hready.named event
      (hevents event (takeWhile_subset _ hevent)) entry.2 hschema
    refine after
      (ofExcept (Q := fun a u => a = name ∧ u = t) hname ⟨rfl, rfl⟩) ?_
    rintro _ t ⟨rfl, rfl⟩
    refine ((succeedsIff_truncateTable haccepts entry.2.id _ t).mapError.mono
      fun _ _ _ h => ?_).congr ?_
    · rw [h, ht, openChannel_eq_truncate, truncate_truncate, map_append]
      rfl
    · -- a table that is already reset had its channel before
      rw [ht, truncate]
      dsimp only
      split_ifs with hreset
      · rw [map_map] at hreset
        obtain ⟨earlier, hearlier, hid⟩ := mem_map.mp hreset
        exact iff_of_true rfl (hid ▸ hdone earlier hearlier)
      · rfl
  · simp [truncate]

omit haccepts in
/-- A round takes the first event: it is a row, or it ends the rows, and then it is the first
relation event or the first truncate. -/
theorem length_after_round (event : Event RowImage) (events : List (Event RowImage)) :
    ((((event :: events).dropWhile (!isBarrier ·)).dropWhile isRelation).dropWhile
      isTruncate).length ≤ events.length := by
  have hlength : ∀ (p : Event RowImage → Bool) (xs : List (Event RowImage)),
      (xs.dropWhile p).length ≤ xs.length := fun p xs => (dropWhile_suffix p).length_le
  cases hbody : event.body with
  | relation schema =>
    have hbarrier : isBarrier event = true := by rw [isBarrier, hbody]
    have hrelation : isRelation event = true := by rw [isRelation, hbody]
    simp only [dropWhile_cons, hbarrier, hrelation, Bool.not_true, Bool.false_eq_true,
      if_false, if_true]
    exact (hlength _ _).trans (hlength _ _)
  | truncate tables =>
    have hbarrier : isBarrier event = true := by rw [isBarrier, hbody]
    have hrelation : isRelation event = false := by rw [isRelation, hbody]
    have htruncate : isTruncate event = true := by rw [isTruncate, hbody]
    simp only [dropWhile_cons, hbarrier, hrelation, htruncate, Bool.not_true,
      Bool.false_eq_true, if_false, if_true]
    exact hlength _ _
  | _ =>
    have hbarrier : isBarrier event = false := by rw [isBarrier, hbody]
    simp only [dropWhile_cons, hbarrier, Bool.not_false, if_true]
    exact ((hlength _ _).trans (hlength _ _)).trans (hlength _ _)

omit haccepts in
theorem openInTime_round (view : View) (events : List (Event RowImage)) :
    view.OpenInTime events ↔
      let rows := events.takeWhile (!isBarrier ·)
      let afterRows := events.dropWhile (!isBarrier ·)
      let relations := afterRows.takeWhile isRelation
      let afterRelations := afterRows.dropWhile isRelation
      let truncates := afterRelations.takeWhile isTruncate
      view.OpenInTime rows ∧ (rows.foldl after view).OpenInTime relations ∧
        (relations.foldl after (rows.foldl after view)).OpenInTime truncates ∧
        (truncates.foldl after
          (relations.foldl after (rows.foldl after view))).OpenInTime
            (afterRelations.dropWhile isTruncate) := by
  dsimp only
  rw [← openInTime_append, takeWhile_append_dropWhile, ← openInTime_append,
    takeWhile_append_dropWhile, ← openInTime_append, takeWhile_append_dropWhile]

theorem succeedsIff_processRounds
    (hfinish : ∀ builder : RowBatchBuilder format, builder.Built →
      ∃ batches, builder.finish = .ok batches) (rounds : ℕ) (hlength : events.length ≤ rounds)
    (hevents : ∀ event ∈ events, event ∈ all)
    (hprocessable : Processable casing format all destination) :
    SucceedsIff (processRounds config server casing order format rounds events) destination
      (destination.view.OpenInTime events) fun _ t =>
        t.view = events.foldl View.after destination.view := by
  induction rounds generalizing events destination with
  | zero =>
    obtain rfl := length_eq_zero_iff.mp (Nat.le_zero.mp hlength)
    exact .of_completes (pure rfl) trivial
  | succ rounds ih =>
    cases events with
    | nil => exact .of_completes (pure rfl) trivial
    | cons event events =>
      have hround := (length_after_round event events).trans (Nat.le_of_succ_le_succ hlength)
      rw [processRounds, if_neg (by simp)]
      generalize event :: events = front at hevents hround ⊢
      -- a round takes the rows up to a barrier, then relations, then truncates
      rw [openInTime_round]
      have hafterRows : ∀ e ∈ front.dropWhile (!isBarrier ·), e ∈ all := fun e he =>
        hevents e ((dropWhile_suffix _).subset he)
      have hafterRelations : ∀ e ∈ (front.dropWhile (!isBarrier ·)).dropWhile isRelation, e ∈ all :=
        fun e he => hafterRows e ((dropWhile_suffix _).subset he)
      refine after (completes_accumulateDataEvents haccepts hprocessable.ready hevents
        accumulated_empty) ?_
      rintro ⟨accumulator, afterRows⟩ t ⟨rfl, ht, haccumulated, hkeys⟩
      have hrows : (∀ tableId ∈ accumulator.builders, t.view.channel tableId = some true) ↔
          destination.view.OpenInTime (front.takeWhile (!isBarrier ·)) := by
        rw [openInTime_rows_iff fun e he => by simpa using mem_takeWhile_imp he, ← ht]
        simp only [hkeys]
        simp only [notMem_empty, or_false]
        constructor
        · exact fun h e he schema hschema => h _ ⟨e, he, schema, hschema, rfl⟩
        · rintro h _ ⟨e, he, schema, hschema, rfl⟩
          exact h e he schema hschema
      -- the rows are sent if the channels of their tables are open
      refine bind ((succeedsIff_flushBatches haccepts hfinish haccumulated).congr hrows)
        fun _ _ t' ht' => ?_
      have hprocessableFlushed := hprocessable.of_view (ht'.trans ht) fun e he =>
        hevents e (takeWhile_subset _ he)
      rw [← ht'.trans ht]
      refine bind (succeedsIff_applyRelationEvents haccepts hprocessableFlushed.ready
        hprocessableFlushed.applied hafterRows) ?_
      rintro - _ u ⟨rfl, hu⟩
      have hprocessableRelations := hprocessableFlushed.of_view hu fun e he =>
        hafterRows e (takeWhile_subset _ he)
      rw [← hu]
      refine bind (succeedsIff_applyTruncateEvents haccepts hprocessableRelations.ready
        hafterRelations u) ?_
      rintro - _ w ⟨rfl, hw⟩
      have hprocessableTruncates := hprocessableRelations.of_view hw fun e he =>
        hafterRelations e (takeWhile_subset _ he)
      rw [← hw]
      refine (ih hround (fun e he => hafterRelations e ((dropWhile_suffix _).subset he))
        hprocessableTruncates).mono fun _ _ final hfinal => ?_
      rw [hfinal, hw, hu, ht', ht, ← foldl_append, ← foldl_append, ← foldl_append,
        takeWhile_append_dropWhile, takeWhile_append_dropWhile,
        takeWhile_append_dropWhile]

theorem succeedsIff_calls
    (hfinish : ∀ builder : RowBatchBuilder format, builder.Built →
      ∃ batches, builder.finish = .ok batches) {calls : List (List (Event RowImage))}
    (hcalls : ∀ event ∈ calls.flatten, event ∈ all)
    (hprocessable : Processable casing format all destination) :
    SucceedsIff (forM calls (processEvents config server casing order format)) destination
      (destination.view.OpenInTime calls.flatten) fun _ _ => True := by
  induction calls generalizing destination with
  | nil => exact .of_completes (pure trivial) trivial
  | cons events calls ih =>
    rw [flatten_cons, forall_mem_append] at hcalls
    rw [flatten_cons, openInTime_append]
    refine bind (succeedsIff_processRounds haccepts hfinish events.length le_rfl
      hcalls.1 hprocessable) fun _ _ t ht => ?_
    rw [← ht]
    exact ih hcalls.2 (hprocessable.of_view ht hcalls.1)

end Process

/-- When Snowflake and the store accept every call, and nothing else stands against the events,
calls of `process_events` one after the other succeed exactly when every truncate, and every relation
event with another schema, finds an open channel of its table, and every row a channel that has not
lost its token, or none. -/
theorem processEvents_succeed_iff (config : Config) (server : Server) (casing : CaseMapping)
    (order : HashOrder) (format : RowFormat)
    (haccepts : ∀ requests request, ∃ response, server requests request = .ok response)
    (hfinish : ∀ builder : RowBatchBuilder format, builder.Built →
      ∃ batches, builder.finish = .ok batches)
    (calls : List (List (Event RowImage))) (destination : Destination)
    (hprocessable : Processable casing format calls.flatten destination) :
    (∃ u t, (forM calls (processEvents config server casing order format)).run
        ⟨destination, none⟩ = .ok u t) ↔
      destination.view.OpenInTime calls.flatten :=
  (succeedsIff_calls haccepts hfinish (fun _ h => h) hprocessable).exists_ok_iff

/-! ## After a restart -/

/-- Version `snapshotId` of a table, with a column more after the first. -/
def invoices (snapshotId : SnapshotId) : ReplicatedTableSchema :=
  ⟨⟨1, ⟨"public", "invoices"⟩,
      ⟨"id", .int8, -1, 1, some 1, false⟩ ::
        if snapshotId = 0 then [] else [⟨"note", .text, -1, 2, none, true⟩], snapshotId⟩,
    if snapshotId = 0 then [true] else [true, true],
    if snapshotId = 0 then [true] else [true, false]⟩

/-- A row, a truncate and a schema change of the table. -/
def insertEvent : Event RowImage := ⟨10, 20, 0, .row .insert (invoices 0) (.insert ⟨[.i64 1]⟩)⟩

def truncateEvent : Event RowImage := ⟨11, 20, 1, .truncate [invoices 0]⟩

def relationEvent : Event RowImage := ⟨12, 20, 2, .relation (invoices 5)⟩

/-- Rows of one byte that compress to nothing. -/
def emptyFormat : RowFormat where
  serializeRow _ _ _ := .ok [0]
  Encoder := Unit
  newEncoder := ()
  write _ _ := ()
  flush _ := ()
  outputLength _ := 0
  finish _ := []

def insertionOrder : HashOrder where
  entries map := map.entries
  perm _ := List.Perm.refl _

/-- A process that has just started: the table is at Snowflake and its metadata are applied, and no
channel is open. -/
def restarted : Destination where
  channels _ := none
  metadata tableId := if tableId = 1 then some (.newApplied "PUBLIC_INVOICES" 0 [true]) else none
  tableSchemas := (TableSchemaSnapshots.empty.insert (invoices 0).tableSchema).insert
    (invoices 5).tableSchema

/-- Processes events after the restart. -/
def processRestarted (events : List (Event RowImage)) : Calls EtlError Destination Unit :=
  processEvents ⟨"DB", "RAW", 7⟩ (fun _ _ => .ok ⟨none, "token"⟩) .caseless insertionOrder
    emptyFormat events

theorem processable_restarted {events : List (Event RowImage)}
    (hevents : ∀ event ∈ events, event ∈ [insertEvent, truncateEvent, relationEvent]) :
    Processable .caseless emptyFormat events restarted := by
  have hschemas : ∀ event ∈ events, ∀ schema ∈ eventSchemas event,
      schema = invoices 0 ∨ schema = invoices 5 := by
    have hall : ∀ event ∈ [insertEvent, truncateEvent, relationEvent],
        ∀ schema ∈ eventSchemas event, schema = invoices 0 ∨ schema = invoices 5 := by decide
    exact fun event hevent => hall event (hevents event hevent)
  refine ⟨⟨fun event hevent schema hschema => ⟨"PUBLIC_INVOICES", ?_⟩,
    fun event hevent schema hschema => ?_, fun event hevent schema hschema => ?_, ?_⟩,
    fun event hevent schema hschema => ?_, fun tableId version hversion => ?_⟩
  · rcases hschemas event hevent schema hschema with rfl | rfl <;> rfl
  · rcases hschemas event hevent schema hschema with rfl | rfl <;> rfl
  · rcases hschemas event hevent schema hschema with rfl | rfl <;> rfl
  · intro event hevent kind schema image hbody
    have hrow := hevents event hevent
    simp only [mem_cons, not_mem_nil, or_false] at hrow
    rcases hrow with rfl | rfl | rfl
    · cases hbody
      exact fun columns _ => ⟨[0], rfl, by decide⟩
    all_goals cases hbody
  · rcases hschemas event hevent schema hschema with rfl | rfl <;> rfl
  · obtain ⟨metadata, hmetadata, hversion⟩ := Option.bind_eq_some_iff.mp hversion
    dsimp only [restarted] at hmetadata
    split_ifs at hmetadata with hid
    subst hid
    rfl

/-- A row opens the channel that the truncate and the schema change after it need. -/
theorem restarted_row_first :
    ∃ u t, (forM [[insertEvent], [truncateEvent, relationEvent]] processRestarted).run
      ⟨restarted, none⟩ = .ok u t := by
  have hprocessable : Processable .caseless emptyFormat
      [[insertEvent], [truncateEvent, relationEvent]].flatten restarted :=
    processable_restarted fun _ hevent => hevent
  refine (processEvents_succeed_iff ⟨"DB", "RAW", 7⟩ (fun _ _ => .ok ⟨none, "token"⟩) .caseless
    insertionOrder emptyFormat (fun _ _ => ⟨_, rfl⟩) (fun builder _ => ?_) _ restarted
    hprocessable).mpr ?_
  · rw [RowBatchBuilder.finish]
    split_ifs <;> exact ⟨_, rfl⟩
  · refine ⟨?_, ?_, ?_, trivial⟩ <;> decide

/-- After a restart, a truncate fails for want of a channel, and so does a schema change. -/
theorem restarted_fails_without_row :
    (Processable .caseless emptyFormat [truncateEvent] restarted ∧
      ∃ t, (processRestarted [truncateEvent]).run ⟨restarted, none⟩ =
        .error ⟨.destinationError, "Snowflake channel error",
          some "Channel error: no open channel for table 1"⟩ t) ∧
    Processable .caseless emptyFormat [relationEvent] restarted ∧
      ∃ t, (processRestarted [relationEvent]).run ⟨restarted, none⟩ =
        .error ⟨.destinationError, "Snowflake channel error",
          some "Channel error: no open channel for table 1"⟩ t := by
  refine ⟨⟨processable_restarted (by simp), _, rfl⟩, processable_restarted (by simp), _, rfl⟩

end Etl.Snowflake
