import Etl.Destinations.Snowflake.Process
import Mathlib.Data.List.TakeWhile

/-! # What processing depends on

Whether events can be processed depends on the channels that are open in the process, and on the
versions that are applied. This is the view of a destination. The module says how events change the
view, which channels an event needs (`View.Opens`), and what the operations of the client do to the
view when Snowflake accepts every request.

Reference: `etl-destinations/src/snowflake/core.rs` (`write_events`).
-/

namespace Etl.Snowflake

open List
open Calls.Completes

open Calls

/-! ## What the events depend on -/

/-- The part of the destination that decides whether events can be processed: the open channels,
with whether they have a continuation token, and the applied versions. -/
structure View where
  channel : TableId → Option Bool
  applied : TableId → Option (SnapshotId × List Bool)
  tableSchemas : TableSchemaSnapshots

def Destination.view (destination : Destination) : View where
  channel tableId := (destination.channels tableId).map (·.continuationToken.isSome)
  applied tableId := (destination.metadata tableId).bind fun metadata =>
    if metadata.isApplied then some (metadata.snapshotId, metadata.replicationMask) else none
  tableSchemas := destination.tableSchemas

namespace View

variable (view : View)

/-- The channel of a table is opened. -/
def openChannel (tableId : TableId) : View :=
  { view with channel := Function.update view.channel tableId (some true) }

/-- The version of a schema is applied. -/
def apply (schema : ReplicatedTableSchema) : View :=
  { view with
    applied := Function.update view.applied schema.id
      (some (schema.tableSchema.snapshotId, schema.replicationMask)) }

/-- A table is prepared at its first row in the process. -/
def prepare (schema : ReplicatedTableSchema) : View :=
  if (view.channel schema.id).isSome then view else (view.openChannel schema.id).apply schema

/-- The schema is the one that is applied. -/
def Current (schema : ReplicatedTableSchema) : Prop :=
  view.applied schema.id = some (schema.tableSchema.snapshotId, schema.replicationMask)

instance (schema : ReplicatedTableSchema) : Decidable (view.Current schema) :=
  inferInstanceAs (Decidable (_ = _))

/-- A relation event applies a schema that is not current, and reopens the channel. -/
def relate (schema : ReplicatedTableSchema) : View :=
  if view.Current schema then view else (view.apply schema).openChannel schema.id

/-- A truncate event resets the channels of its tables. -/
def truncate (tables : List ReplicatedTableSchema) : View :=
  { view with
    channel := fun tableId =>
      if tableId ∈ tables.map ReplicatedTableSchema.id then some true else view.channel tableId }

end View

namespace View

variable {view : View}

theorem channel_prepare (schema : ReplicatedTableSchema) (tableId : TableId) :
    (view.prepare schema).channel tableId =
      if tableId = schema.id then some ((view.channel tableId).getD true)
      else view.channel tableId := by
  rw [prepare]
  split_ifs with hopen hid hid
  · obtain ⟨token, htoken⟩ := Option.isSome_iff_exists.mp hopen
    rw [hid, htoken]
    rfl
  · rfl
  · have hnone : view.channel schema.id = none := by simpa using hopen
    rw [hid, hnone]
    exact Function.update_self _ _ _
  · exact Function.update_of_ne hid _ _

end View

/-- The schema of a row event that sends a row. -/
def sentSchema (event : Event RowImage) : Option ReplicatedTableSchema :=
  match event.body with
  | .row _ schema image => if image = .delete none then none else some schema
  | _ => none

/-- The schemas of an event. -/
def eventSchemas (event : Event RowImage) : List ReplicatedTableSchema :=
  match event.body with
  | .relation schema | .row _ schema _ => [schema]
  | .truncate tables => tables
  | _ => []

/-- An event that ends the rows of a round. -/
def isBarrier (event : Event RowImage) : Bool :=
  match event.body with
  | .truncate _ | .relation _ => true
  | _ => false

def isRelation (event : Event RowImage) : Bool :=
  match event.body with
  | .relation _ => true
  | _ => false

def isTruncate (event : Event RowImage) : Bool :=
  match event.body with
  | .truncate _ => true
  | _ => false

/-- What the destination depends on after an event. -/
def View.after (view : View) (event : Event RowImage) : View :=
  match event.body with
  | .relation schema => view.relate schema
  | .truncate tables => view.truncate tables
  | _ => ((sentSchema event).map view.prepare).getD view

theorem View.tableSchemas_after (view : View) (event : Event RowImage) :
    (view.after event).tableSchemas = view.tableSchemas := by
  have hprepare : ∀ schema, (view.prepare schema).tableSchemas = view.tableSchemas := by
    intro schema
    rw [prepare]
    split_ifs <;> rfl
  rw [after]
  cases event.body with
  | relation schema =>
    dsimp only
    rw [relate]
    split_ifs <;> rfl
  | truncate tables => rfl
  | _ =>
    cases sentSchema event with
    | none => rfl
    | some schema => exact hprepare schema

/-- The event finds the channels it needs: a truncate those of its tables, and a relation event with
another schema that of its table. A row opens a channel where there is none; one that has lost its
token does not take rows. -/
def View.Opens (view : View) (event : Event RowImage) : Prop :=
  match event.body with
  | .relation schema => view.Current schema ∨ (view.channel schema.id).isSome = true
  | .truncate tables => ∀ schema ∈ tables, (view.channel schema.id).isSome = true
  | _ => ∀ schema ∈ sentSchema event, view.channel schema.id ≠ some false

instance (view : View) (event : Event RowImage) : Decidable (view.Opens event) := by
  unfold View.Opens
  cases event.body <;> infer_instance

/-- Every event finds the channels it needs, after the ones before it. -/
def View.OpenInTime (view : View) : List (Event RowImage) → Prop
  | [] => True
  | event :: events => view.Opens event ∧ (view.after event).OpenInTime events

namespace View

variable {view : View} {events : List (Event RowImage)}

theorem openInTime_append (events later : List (Event RowImage)) :
    view.OpenInTime (events ++ later) ↔
      view.OpenInTime events ∧ (events.foldl View.after view).OpenInTime later := by
  induction events generalizing view with
  | nil => simp [OpenInTime]
  | cons event events ih =>
    rw [cons_append, OpenInTime, OpenInTime, ih, and_assoc, foldl_cons]

section Rows

variable {event : Event RowImage} (hrow : isBarrier event = false)

include hrow

theorem after_row : view.after event = ((sentSchema event).map view.prepare).getD view := by
  rw [isBarrier] at hrow
  rw [after]
  cases hbody : event.body with
  | relation schema | truncate tables => simp [hbody] at hrow
  | _ => rfl

theorem opens_row :
    view.Opens event ↔ ∀ schema ∈ sentSchema event, view.channel schema.id ≠ some false := by
  rw [isBarrier] at hrow
  rw [Opens]
  cases hbody : event.body with
  | relation schema | truncate tables => simp [hbody] at hrow
  | _ => rfl

/-- A row neither takes the token of a channel nor gives it one; it opens the channel of its
table. -/
theorem channel_after_row (tableId : TableId) :
    (view.after event).channel tableId =
      if tableId ∈ (sentSchema event).map ReplicatedTableSchema.id then
        some ((view.channel tableId).getD true)
      else view.channel tableId := by
  rw [after_row hrow]
  cases sentSchema event with
  | none => rfl
  | some schema =>
    refine (channel_prepare schema tableId).trans (if_congr ?_ rfl rfl)
    exact eq_comm.trans Option.some_inj.symm

end Rows

theorem channel_foldl_rows (hrows : ∀ event ∈ events, isBarrier event = false) (tableId : TableId) :
    (events.foldl View.after view).channel tableId =
      if ∃ event ∈ events, tableId ∈ (sentSchema event).map ReplicatedTableSchema.id then
        some ((view.channel tableId).getD true)
      else view.channel tableId := by
  induction events generalizing view with
  | nil => simp
  | cons event events ih =>
    rw [forall_mem_cons] at hrows
    rw [foldl_cons, ih hrows.2, channel_after_row hrows.1]
    by_cases hfirst : tableId ∈ (sentSchema event).map ReplicatedTableSchema.id
    · simp only [exists_mem_cons_iff, hfirst, true_or, if_true, Option.getD_some, ite_self]
    · simp only [exists_mem_cons_iff, hfirst, false_or, if_false]

theorem openInTime_rows (hrows : ∀ event ∈ events, isBarrier event = false) :
    view.OpenInTime events ↔
      ∀ event ∈ events, ∀ schema ∈ sentSchema event, view.channel schema.id ≠ some false := by
  induction events generalizing view with
  | nil => simp [OpenInTime]
  | cons event events ih =>
    rw [forall_mem_cons] at hrows
    rw [OpenInTime, forall_mem_cons, opens_row hrows.1, ih hrows.2]
    refine and_congr_right fun _ => forall₂_congr fun other _ => forall₂_congr fun schema _ => ?_
    rw [channel_after_row hrows.1]
    split_ifs
    · cases view.channel schema.id <;> simp
    · rfl

theorem openInTime_rows_iff (hrows : ∀ event ∈ events, isBarrier event = false) :
    view.OpenInTime events ↔
      ∀ event ∈ events, ∀ schema ∈ sentSchema event,
        (events.foldl View.after view).channel schema.id = some true := by
  rw [openInTime_rows hrows]
  refine forall₂_congr fun event hevent => forall₂_congr fun schema hschema => ?_
  rw [channel_foldl_rows hrows, if_pos ⟨event, hevent, Option.mem_map_of_mem _ hschema⟩]
  cases view.channel schema.id <;> simp

section Truncates

variable {event : Event RowImage} (htruncate : isTruncate event = true)

include htruncate

theorem after_truncate : view.after event = view.truncate (eventSchemas event) := by
  rw [isTruncate] at htruncate
  rw [after, eventSchemas]
  cases hbody : event.body with
  | truncate tables => rfl
  | _ => simp [hbody] at htruncate

theorem opens_truncate :
    view.Opens event ↔ ∀ schema ∈ eventSchemas event, (view.channel schema.id).isSome = true := by
  rw [isTruncate] at htruncate
  rw [Opens, eventSchemas]
  cases hbody : event.body with
  | truncate tables => rfl
  | _ => simp [hbody] at htruncate

end Truncates

theorem openChannel_eq_truncate (schema : ReplicatedTableSchema) :
    view.openChannel schema.id = view.truncate [schema] := by
  refine congrArg (fun channel => View.mk channel _ _) (funext fun tableId => ?_)
  rw [Function.update_apply]
  exact if_congr mem_singleton.symm rfl rfl

theorem truncate_truncate (tables later : List ReplicatedTableSchema) :
    (view.truncate tables).truncate later = view.truncate (tables ++ later) := by
  refine congrArg (fun channel => View.mk channel _ _) (funext fun tableId => ?_)
  simp only [truncate, map_append, mem_append]
  by_cases hlater : tableId ∈ later.map ReplicatedTableSchema.id
  all_goals simp [hlater]

theorem foldl_after_truncates (htruncates : ∀ event ∈ events, isTruncate event = true) :
    events.foldl View.after view = view.truncate (events.flatMap eventSchemas) := by
  induction events generalizing view with
  | nil => simp [truncate]
  | cons event events ih =>
    rw [forall_mem_cons] at htruncates
    rw [foldl_cons, ih htruncates.2, after_truncate htruncates.1, truncate_truncate, flatMap_cons]

/-- Truncates find their channels when all their tables have one at the start. -/
theorem openInTime_truncates (htruncates : ∀ event ∈ events, isTruncate event = true) :
    view.OpenInTime events ↔
      ∀ schema ∈ events.flatMap eventSchemas, (view.channel schema.id).isSome = true := by
  induction events generalizing view with
  | nil => simp [OpenInTime]
  | cons event events ih =>
    rw [forall_mem_cons] at htruncates
    rw [OpenInTime, ih htruncates.2, opens_truncate htruncates.1, after_truncate htruncates.1,
      flatMap_cons, forall_mem_append]
    refine and_congr_right fun hfirst => forall₂_congr fun schema _ => ?_
    rw [truncate]
    dsimp only
    split_ifs with hmem
    · obtain ⟨other, hother, hid⟩ := mem_map.mp hmem
      exact iff_of_true rfl (hid ▸ hfirst other hother)
    · rfl

end View

/-! ## The client -/

theorem view_setChannel (destination : Destination) (tableId : TableId) (handle : ChannelHandle) :
    (destination.setChannel tableId handle).view =
      { destination.view with
        channel := Function.update destination.view.channel tableId
          (some handle.continuationToken.isSome) } := by
  refine congrArg (fun channel => View.mk channel _ _) (funext fun id => ?_)
  exact Function.apply_update (fun _ : TableId => Option.map (·.continuationToken.isSome))
    destination.channels tableId (some handle) id

theorem view_setChannel_of_token {destination : Destination} {tableId : TableId}
    {handle : ChannelHandle} (htoken : handle.continuationToken.isSome = true) :
    (destination.setChannel tableId handle).view = destination.view.openChannel tableId := by
  rw [view_setChannel, htoken]
  rfl

/-- A channel is there or is not. -/
theorem succeedsIff_getChannel (tableId : TableId) (destination : Destination) :
    SucceedsIff (getChannel tableId) destination
      ((destination.view.channel tableId).isSome = true) fun handle t =>
        t = destination ∧
          destination.view.channel tableId = some handle.continuationToken.isSome := by
  have hview : destination.view.channel tableId =
      (destination.channels tableId).map (·.continuationToken.isSome) := rfl
  rw [hview]
  cases hchannel : destination.channels tableId with
  | none =>
    refine .of_error (e := .channel ("no open channel for table " ++ toString tableId))
      (t := ⟨destination, none⟩) ?_ Bool.false_ne_true
    rw [getChannel, run_bind_read]
    rw [hchannel]
    rfl
  | some handle =>
    refine .of_completes ⟨handle, destination, ?_, rfl, rfl⟩ rfl
    rw [getChannel, run_bind_read]
    rw [hchannel]
    rfl

section Client

variable {config : Config} {server : Server}
  (haccepts : ∀ requests request, ∃ response, server requests request = .ok response)
  {handle : ChannelHandle}

include haccepts

theorem completes_send (request : Request) (destination : Destination) :
    Completes (send server request) destination fun _ t => t.view = destination.view := by
  obtain ⟨response, hresponse⟩ := haccepts destination.requests request
  refine ⟨response, { destination with requests := destination.requests ++ [request] }, ?_, rfl⟩
  rw [send, run_bind_read]
  rw [hresponse]
  rfl

theorem completes_executeDdl (sql : String) (destination : Destination) :
    Completes (executeDdl server sql) destination fun _ t => t.view = destination.view :=
  (completes_send haccepts (.executeDdl sql) destination).discard.mono fun _ _ ⟨_, h⟩ => h

theorem completes_openChannel (handle : ChannelHandle) (destination : Destination) :
    Completes (handle.openChannel server) destination fun opened t =>
      opened.continuationToken.isSome = true ∧ t.view = destination.view :=
  (completes_send haccepts _ destination).bind fun _ _ h => pure ⟨rfl, h⟩

theorem completes_dropChannel (handle : ChannelHandle) (destination : Destination) :
    Completes (handle.dropChannel server) destination fun _ t => t.view = destination.view :=
  (completes_send haccepts _ destination).discard.bind fun _ _ ⟨_, h⟩ => pure h

theorem completes_sendBatch (htoken : handle.continuationToken.isSome = true) (batch : RowBatch)
    (destination : Destination) :
    Completes (handle.sendBatch server batch) destination fun sent t =>
      sent.continuationToken.isSome = true ∧ t.view = destination.view := by
  obtain ⟨token, htoken⟩ := Option.isSome_iff_exists.mp htoken
  rw [ChannelHandle.sendBatch, htoken]
  exact (completes_send haccepts _ destination).bind fun _ _ h => pure ⟨rfl, h⟩

theorem completes_processBatch {tableId : TableId} {destination : Destination}
    (htoken : handle.continuationToken.isSome = true)
    (hopen : destination.view.channel tableId = some true) (batch : RowBatch) :
    Completes (processBatch server tableId handle batch) destination fun sent t =>
      sent.continuationToken.isSome = true ∧ t.view = destination.view := by
  have hsend : Completes (some <$> handle.sendBatch server batch) destination fun sent t =>
      ∃ handle, sent = some handle ∧ handle.continuationToken.isSome = true ∧
        t.view = destination.view := by
    exact (completes_sendBatch haccepts htoken batch destination).bind fun sent t h =>
      pure ⟨sent, rfl, h⟩
  refine hsend.tryCatch.bind ?_
  rintro _ t ⟨sent, rfl, htoken, hview⟩
  refine bind (update ?_) fun _ u hu => pure ⟨htoken, hu⟩
  -- the channel is as open as it was
  rw [view_setChannel_of_token htoken, hview, View.openChannel, ← hopen, Function.update_eq_self]

theorem succeedsIff_insertBatches (tableId : TableId) {batches : List RowBatch}
    (hbatches : batches ≠ []) (destination : Destination) :
    SucceedsIff (Client.insertBatches server tableId batches) destination
      (destination.view.channel tableId = some true) fun _ t => t.view = destination.view := by
  refine ((succeedsIff_getChannel tableId destination).bind fun _ handle t h => ?_).congr
    (and_iff_right_of_imp fun h => by rw [h]; rfl)
  obtain ⟨rfl, hchannel⟩ := h
  by_cases htoken : handle.continuationToken.isSome = true
  · rw [htoken] at hchannel
    refine .of_completes (mono (discard (foldlM
      (I := fun sent u => sent.continuationToken.isSome = true ∧ u.view = t.view) ?_
      ⟨htoken, rfl⟩)) fun _ _ ⟨_, h⟩ => h.2) hchannel
    rintro batch - sent u ⟨hsent, hu⟩
    exact (completes_processBatch haccepts hsent (by rw [hu]; exact hchannel) batch).mono
      fun _ _ h => ⟨h.1, h.2.trans hu⟩
  · obtain ⟨batch, rest, rfl⟩ := exists_cons_of_ne_nil hbatches
    have hnone : handle.continuationToken = none := by simpa using htoken
    have hfails : (processBatch server tableId handle batch).run ⟨t, none⟩ =
        .error (.channel "send_batch called on channel without continuation token")
          ⟨t, none⟩ := by
      rw [processBatch, ChannelHandle.sendBatch, hnone]
      rfl
    have hfold : (discard ((batch :: rest).foldlM (processBatch server tableId) handle)).run
        ⟨t, none⟩ = .error (.channel "send_batch called on channel without continuation token")
          ⟨t, none⟩ := by
      rw [discard_eq, foldlM_cons, bind_assoc]
      exact bind_of_error hfails
    exact .of_error hfold fun h => htoken (Option.some.inj (hchannel.symm.trans h))

/-- Reopening fails without a channel. -/
theorem succeedsIff_refreshTable (tableId : TableId) (destination : Destination) :
    SucceedsIff (Client.refreshTable server tableId) destination
      ((destination.view.channel tableId).isSome = true) fun _ t =>
        t.view = destination.view.openChannel tableId := by
  refine (succeedsIff_getChannel tableId destination).before fun _ handle t h => ?_
  refine (completes_openChannel haccepts handle t).bind fun opened u hu => update ?_
  rw [view_setChannel_of_token hu.1, hu.2, h.1]

/-- Truncating fails without a channel. -/
theorem succeedsIff_truncateTable (tableId : TableId) (tableName : String)
    (destination : Destination) :
    SucceedsIff (Client.truncateTable config server tableId tableName) destination
      ((destination.view.channel tableId).isSome = true) fun _ t =>
        t.view = destination.view.openChannel tableId := by
  refine (succeedsIff_getChannel tableId destination).before fun _ handle t h => ?_
  refine (completes_executeDdl haccepts _ t).bind fun _ u hu => ?_
  refine (completes_dropChannel haccepts handle u).bind fun dropped v hv => ?_
  refine (update (Q := fun _ w => w = v.setChannel tableId dropped) rfl).bind ?_
  rintro _ _ rfl
  refine (completes_openChannel haccepts dropped _).bind fun opened w hw => update ?_
  rw [view_setChannel_of_token hw.1, hw.2, view_setChannel, hv, hu, h.1]
  simp [View.openChannel]

/-- A table that has a channel in this process is not created again. -/
theorem completes_ensureTable (tableId : TableId) (tableName : String)
    {columns : List ColumnSchema} (hcolumns : validateNoCdcCollisions columns = .ok ())
    (destination : Destination) :
    Completes (Client.ensureTable config server tableId tableName columns) destination
      fun tableIsNew t =>
        tableIsNew = !(destination.view.channel tableId).isSome ∧
          t.view = if (destination.view.channel tableId).isSome then destination.view
            else destination.view.openChannel tableId := by
  have hview : (destination.view.channel tableId).isSome =
      (destination.channels tableId).isSome := Option.isSome_map
  rw [hview]
  refine read ?_
  by_cases hopen : (destination.channels tableId).isSome = true
  · rw [hopen]
    exact pure ⟨rfl, rfl⟩
  · have hclosed : (destination.channels tableId).isSome = false := by simpa using hopen
    rw [if_neg hopen, if_neg hopen, hclosed]
    refine (ofExcept (Q := fun _ t => t = destination) hcolumns rfl).bind ?_
    rintro - _ rfl
    refine (completes_executeDdl haccepts _ _).bind fun _ u hu => ?_
    refine (completes_openChannel haccepts _ u).bind fun opened v hv => ?_
    refine (update (Q := fun _ w => w = v.setChannel tableId opened) rfl).bind ?_
    rintro - _ rfl
    refine pure ⟨rfl, ?_⟩
    rw [view_setChannel_of_token hv.1, hv.2, hu]

theorem completes_applySchemaDiff (tableName : String) (diff : SchemaDiff)
    (destination : Destination) :
    Completes (Client.applySchemaDiff config server tableName diff) destination
      fun _ t => t.view = destination.view := by
  have hloop : ∀ {α : Type} (columns : List α) (sql : α → String) (t : Destination),
      t.view = destination.view →
        Completes (forM columns fun column => executeDdl server (sql column)) t fun _ u =>
          u.view = destination.view :=
    fun columns sql t ht => forM (I := fun u => u.view = destination.view)
      (fun column _ u hu => (completes_executeDdl haccepts _ u).mono fun _ _ h => h.trans hu) ht
  rw [Client.applySchemaDiff]
  split_ifs with hempty
  · exact pure rfl
  · refine (hloop diff.columnsToAdd _ destination rfl).bind fun _ t ht => ?_
    refine (hloop diff.columnsToRename _ t ht).bind fun _ u hu => ?_
    exact hloop diff.columnsToRemove _ u hu

end Client

end Etl.Snowflake
