import Etl.Common.Transition
import Etl.Store.SchemaRows
import Etl.Store.SchemaSnapshots

/-! # Schema versions in the Postgres store

The database side of schema versions and the store that answers lookups from a bounded cache
in front of it. The cache is right as long as it is a top segment of the database for every
table: loading at startup establishes that and pruning keeps it; it is lost when a version is
cached although a newer one is known to the database only.

Reference: `etl/src/store/both/postgres.rs` (`get_table_schema`) and
`etl-postgres/src/replication/schema.rs`.
-/

namespace Etl

open TableSchemaSnapshots

/-! ## The database -/

/-- The schema versions a pipeline has in the database. -/
structure SchemaTables where
  tables : List TableId
  versions : TableId → SortedMap SnapshotId StoredSchema
  nodup : tables.Nodup
  complete : ∀ tableId, tableId ∉ tables → versions tableId = SortedMap.empty

namespace SchemaTables

def empty : SchemaTables := ⟨[], fun _ => SortedMap.empty, List.nodup_nil, fun _ _ => rfl⟩

/-- Upserts a version: the row of an equal snapshot is replaced with its columns. -/
def upsert (db : SchemaTables) (tableId : TableId) (snapshotId : SnapshotId)
    (row : StoredSchema) : SchemaTables where
  tables := if tableId ∈ db.tables then db.tables else tableId :: db.tables
  versions :=
    Function.update db.versions tableId ((db.versions tableId).insert snapshotId row)
  nodup := by
    split_ifs with h
    · exact db.nodup
    · exact List.nodup_cons.mpr ⟨h, db.nodup⟩
  complete := by
    intro t ht
    have hne : t ≠ tableId := by
      rintro rfl
      split_ifs at ht with h
      · exact ht h
      · exact ht (List.mem_cons_self ..)
    rw [Function.update_of_ne hne]
    refine db.complete t fun hmem => ht ?_
    split_ifs
    · exact hmem
    · exact List.mem_cons_of_mem _ hmem

/-- Deletes, for each table with a boundary, the versions older than the one in force there. -/
def deleteObsoleteTableSchemaVersions (db : SchemaTables)
    (retentions : TableId → Option TableSchemaRetention) : SchemaTables where
  tables := db.tables
  versions := fun tableId =>
    match retentions tableId with
    | none => db.versions tableId
    | some retention => (db.versions tableId).prune retention.toLsn
  nodup := db.nodup
  complete := by
    intro t ht
    rw [db.complete t ht]
    cases retentions t with
    | none => rfl
    | some retention => rfl

/-- Reads the version in force at the snapshot. -/
def loadTableSchemaAtSnapshot (db : SchemaTables) (tableId : TableId)
    (snapshotId : SnapshotId) : Option TableSchema :=
  ((db.versions tableId).floor snapshotId).bind fun e => loadedSchema tableId e.1 e.2

/-- Reads the latest version of a table. The maximal snapshot is above every stored one, so
the bounded read is the last entry. -/
def latest (db : SchemaTables) (tableId : TableId) : Option TableSchema :=
  (db.versions tableId).entries.getLast?.bind fun e => loadedSchema tableId e.1 e.2

/-- Reads the latest version of every table. -/
def loadTableSchemas (db : SchemaTables) : List TableSchema :=
  db.tables.filterMap db.latest

end SchemaTables

/-! ## The store -/

/-- The number of versions of a table the cache keeps. -/
def maxCachedSchemasPerTable : ℕ := 2

/-- The store's schema state: the database and the in-process cache. -/
structure PostgresSchemaStore where
  db : SchemaTables
  tableSchemas : TableSchemaSnapshots

namespace PostgresSchemaStore

/-- Answers from the cache if it has any version at or before the snapshot; otherwise reads
the database and caches what it finds. -/
def getTableSchema (store : PostgresSchemaStore) (tableId : TableId)
    (snapshotId : SnapshotId) : Option TableSchema × PostgresSchemaStore :=
  match store.tableSchemas.getAtOrBefore tableId snapshotId with
  | some tableSchema => (some tableSchema, store)
  | none =>
    match store.db.loadTableSchemaAtSnapshot tableId snapshotId with
    | none => (none, store)
    | some tableSchema =>
      (some tableSchema,
        { store with
          tableSchemas :=
            store.tableSchemas.insertWithEviction tableSchema maxCachedSchemasPerTable })

/-- Replaces the cache with the latest version of every table. -/
def loadTableSchemas (store : PostgresSchemaStore) : PostgresSchemaStore :=
  { store with tableSchemas := TableSchemaSnapshots.replaceAll store.db.loadTableSchemas }

/-- Writes a version to the database, which refuses repeated column names and positions, and
then caches it. -/
def storeTableSchema (store : PostgresSchemaStore) (tableSchema : TableSchema) :
    Option PostgresSchemaStore :=
  if (tableSchema.columnSchemas.map (·.name)).Nodup ∧
      (tableSchema.columnSchemas.map (·.ordinalPosition)).Nodup then
    some
      { db := store.db.upsert tableSchema.id tableSchema.snapshotId (storedSchema tableSchema)
        tableSchemas :=
          store.tableSchemas.insertWithEviction tableSchema maxCachedSchemasPerTable }
  else none

/-- Prunes the database and the cache with the same boundaries. -/
def pruneTableSchemas (store : PostgresSchemaStore)
    (retentions : TableId → Option TableSchemaRetention) : PostgresSchemaStore where
  db := store.db.deleteObsoleteTableSchemaVersions retentions
  tableSchemas := store.tableSchemas.prune retentions

end PostgresSchemaStore

/-- The calls a process makes on the schema side of the store. -/
inductive SchemaCall where
  | load
  | store (tableSchema : TableSchema)
  | get (tableId : TableId) (snapshotId : SnapshotId)
  | prune (retentions : TableId → Option TableSchemaRetention)

/-- One process over a database left by earlier ones: the cache starts empty. A call whose
database statement fails changes nothing and is not a step. -/
def schemaStoreMachine : Machine PostgresSchemaStore SchemaCall where
  init store := store.tableSchemas = TableSchemaSnapshots.empty
  next store call :=
    match call with
    | .load => some store.loadTableSchemas
    | .store tableSchema => store.storeTableSchema tableSchema
    | .get tableId snapshotId => some (store.getTableSchema tableId snapshotId).2
    | .prune retentions => some (store.pruneTableSchemas retentions)

/-! ## What a lookup should answer -/

/-- A schema is the version a row holds: it was written as that row or is read from it. -/
def IsVersion (tableId : TableId) (snapshotId : SnapshotId) (tableSchema : TableSchema)
    (row : StoredSchema) : Prop :=
  tableSchema.id = tableId ∧ tableSchema.snapshotId = snapshotId ∧
    (storedSchema tableSchema = row ∨ loadedSchema tableId snapshotId row = some tableSchema)

/-- The answer is the database's version with the greatest snapshot at or before the
requested one, and nothing only if there is no such version. -/
def Answers (db : SchemaTables) (tableId : TableId) (snapshotId : SnapshotId)
    (answer : Option TableSchema) : Prop :=
  match (db.versions tableId).floor snapshotId with
  | none => answer = none
  | some e => ∃ tableSchema, answer = some tableSchema ∧ IsVersion tableId e.1 tableSchema e.2

/-- Caching the version is harmless: every newer version of the database is cached, or the
cache is full of newer versions and drops this one at once. -/
def Cacheable (store : PostgresSchemaStore) (tableId : TableId) (snapshotId : SnapshotId) :
    Prop :=
  (∀ k row, (k, row) ∈ (store.db.versions tableId).entries → snapshotId < k →
      (store.tableSchemas tableId).HasKey k) ∨
    maxCachedSchemasPerTable ≤
      ((store.tableSchemas tableId).entries.filter (fun e => snapshotId < e.1)).length

/-- The calls that keep lookups right. A lookup that misses the cache must find a version
with columns whose caching is harmless. -/
def Admissible (store : PostgresSchemaStore) : SchemaCall → Prop
  | .load => True
  | .prune _ => True
  | .store tableSchema => Cacheable store tableSchema.id tableSchema.snapshotId
  | .get tableId snapshotId =>
    store.tableSchemas.getAtOrBefore tableId snapshotId = none →
      ∀ e, (store.db.versions tableId).floor snapshotId = some e →
        e.2.columns ≠ [] ∧ Cacheable store tableId e.1

/-- The cache is a top segment of the database for every table. -/
def CacheAligned (store : PostgresSchemaStore) : Prop :=
  ∀ tableId, SortedMap.TopSegment (IsVersion tableId) (store.tableSchemas tableId)
    (store.db.versions tableId)

/-! ## Each call keeps the cache aligned -/

variable {tableId : TableId} {tableSchema : TableSchema} {snapshotId : SnapshotId}
  {row : StoredSchema} {store : PostgresSchemaStore} {db : SchemaTables}
  {e : SnapshotId × TableSchema} {call : SchemaCall}

theorem loadedSchema_id (h : loadedSchema tableId snapshotId row = some tableSchema) :
    tableSchema.id = tableId ∧ tableSchema.snapshotId = snapshotId := by
  unfold loadedSchema at h
  split_ifs at h
  cases h
  exact ⟨rfl, rfl⟩

theorem isVersion_loaded (h : loadedSchema tableId snapshotId row = some tableSchema) :
    IsVersion tableId snapshotId tableSchema row :=
  ⟨(loadedSchema_id h).1, (loadedSchema_id h).2, .inr h⟩

theorem isVersion_stored (tableSchema : TableSchema) :
    IsVersion tableSchema.id tableSchema.snapshotId tableSchema (storedSchema tableSchema) :=
  ⟨rfl, rfl, .inl rfl⟩

/-- Caching a version of a table keeps the alignment when it is harmless. The database may
be rewritten at that version at the same time. -/
theorem aligned_insertWithEviction (h : CacheAligned store)
    (hother : ∀ t, t ≠ tableSchema.id → db.versions t = store.db.versions t)
    (hagree : ∀ k w, k ≠ tableSchema.snapshotId →
      ((k, w) ∈ (db.versions tableSchema.id).entries ↔
        (k, w) ∈ (store.db.versions tableSchema.id).entries))
    (hrow : (tableSchema.snapshotId, row) ∈ (db.versions tableSchema.id).entries)
    (hversion : IsVersion tableSchema.id tableSchema.snapshotId tableSchema row)
    (hcacheable : Cacheable store tableSchema.id tableSchema.snapshotId) :
    CacheAligned
      ⟨db, store.tableSchemas.insertWithEviction tableSchema maxCachedSchemasPerTable⟩ := by
  intro t
  simp only [insertWithEviction_apply]
  split_ifs with ht
  · subst ht
    rcases hcacheable with hnewer | hfull
    · exact ((h tableSchema.id).insert_of_agree hagree hrow hversion hnewer).evict _
    · exact (h tableSchema.id).insert_evict_of_full hagree hfull
  · rw [hother t ht]
    exact h t

theorem mem_insert_snapshots {snapshots : TableSchemaSnapshots}
    (h : e ∈ (snapshots.insert tableSchema tableId).entries) :
    e ∈ (snapshots tableId).entries ∨
      (tableId = tableSchema.id ∧ e = (tableSchema.snapshotId, tableSchema)) := by
  rw [TableSchemaSnapshots.insert] at h
  by_cases ht : tableId = tableSchema.id
  · rw [ht, Function.update_self] at h
    rcases SortedMap.mem_insert.mp h with heq | ⟨hmem, -⟩
    · exact .inr ⟨ht, heq⟩
    · exact .inl (ht ▸ hmem)
  · rw [Function.update_of_ne ht] at h
    exact .inl h

theorem mem_foldl_insert_latest (db : SchemaTables) (tableId : TableId)
    (e : SnapshotId × TableSchema) (tables : List TableId) (snapshots : TableSchemaSnapshots)
    (h : e ∈ ((tables.filterMap db.latest).foldl TableSchemaSnapshots.insert snapshots
      tableId).entries) :
    e ∈ (snapshots tableId).entries ∨
      (db.latest tableId = some e.2 ∧ e.1 = e.2.snapshotId) := by
  induction tables generalizing snapshots with
  | nil => exact .inl h
  | cons t tables ih =>
    rw [List.filterMap_cons] at h
    cases hlatest : db.latest t with
    | none =>
      rw [hlatest] at h
      exact ih snapshots h
    | some tableSchema =>
      rw [hlatest] at h
      rcases ih _ h with hmem | hloaded
      · rcases mem_insert_snapshots hmem with hold | ⟨ht, rfl⟩
        · exact .inl hold
        · obtain ⟨last, -, hloaded⟩ := Option.bind_eq_some_iff.mp hlatest
          rw [ht, (loadedSchema_id hloaded).1]
          exact .inr ⟨hlatest, rfl⟩
      · exact .inr hloaded

/-- A load leaves the cache aligned, whatever it was before. -/
theorem aligned_loadTableSchemas (store : PostgresSchemaStore) :
    CacheAligned store.loadTableSchemas := by
  intro t
  have hmem : ∀ e ∈ (store.loadTableSchemas.tableSchemas t).entries,
      ∃ row, (store.db.versions t).entries.getLast? = some (e.1, row) ∧
        loadedSchema t e.1 row = some e.2 := by
    intro e he
    rcases mem_foldl_insert_latest store.db t e store.db.tables empty he with
      hnone | ⟨hlatest, hkey⟩
    · simp [empty, SortedMap.empty] at hnone
    · obtain ⟨last, hlast, hloaded⟩ := Option.bind_eq_some_iff.mp hlatest
      have hlastKey : last.1 = e.1 := by rw [hkey, (loadedSchema_id hloaded).2]
      refine ⟨last.2, ?_, hlastKey ▸ hloaded⟩
      rw [hlast, ← hlastKey]
  refine ⟨?_, ?_⟩
  · intro k v hv
    obtain ⟨row, hlast, hloaded⟩ := hmem (k, v) hv
    exact ⟨row, List.mem_of_getLast? hlast, isVersion_loaded hloaded⟩
  · -- nothing is newer than the latest version
    rintro k k' row ⟨v, hv⟩ hrow hlt
    obtain ⟨last, hlast, -⟩ := hmem (k, v) hv
    have hle := ((SortedMap.getLast?_eq_some_iff (store.db.versions t).sorted _).mp hlast).2
      (k', row) hrow
    exact absurd hlt (not_lt.mpr hle)

theorem aligned_pruneTableSchemas (h : CacheAligned store)
    (retentions : TableId → Option TableSchemaRetention) :
    CacheAligned (store.pruneTableSchemas retentions) := by
  intro t
  simp only [PostgresSchemaStore.pruneTableSchemas, prune,
    SchemaTables.deleteObsoleteTableSchemaVersions]
  cases retentions t with
  | none => exact h t
  | some retention => exact (h t).prune retention.toLsn

/-- Storing a version keeps the cache aligned when caching it is harmless. -/
theorem aligned_storeTableSchema {store store' : PostgresSchemaStore} (h : CacheAligned store)
    (hstore : store.storeTableSchema tableSchema = some store')
    (hcacheable : Cacheable store tableSchema.id tableSchema.snapshotId) :
    CacheAligned store' := by
  unfold PostgresSchemaStore.storeTableSchema at hstore
  split_ifs at hstore
  cases hstore
  refine aligned_insertWithEviction h ?_ ?_ ?_ (isVersion_stored tableSchema) hcacheable
  · intro t ht
    simp [SchemaTables.upsert, ht]
  · intro k w hk
    simp [SchemaTables.upsert, SortedMap.mem_insert, hk]
  · simp [SchemaTables.upsert, SortedMap.mem_insert]

/-- A lookup keeps the cache aligned when what it caches is harmless. -/
theorem aligned_getTableSchema (h : CacheAligned store)
    (hadmissible : Admissible store (.get tableId snapshotId)) :
    CacheAligned (store.getTableSchema tableId snapshotId).2 := by
  unfold PostgresSchemaStore.getTableSchema
  cases hcached : store.tableSchemas.getAtOrBefore tableId snapshotId with
  | some tableSchema => exact h
  | none =>
    cases hload : store.db.loadTableSchemaAtSnapshot tableId snapshotId with
    | none => exact h
    | some tableSchema =>
      obtain ⟨e, hfloor, hloaded⟩ := Option.bind_eq_some_iff.mp hload
      obtain ⟨rfl, hsnapshot⟩ := loadedSchema_id hloaded
      have hcacheable := (hadmissible hcached e hfloor).2
      rw [← hsnapshot] at hloaded hcacheable
      refine aligned_insertWithEviction h (fun _ _ => rfl) (fun _ _ _ => Iff.rfl) ?_
        (isVersion_loaded hloaded) hcacheable
      rw [hsnapshot]
      exact (SortedMap.floor_eq_some_iff.mp hfloor).1

/-- Every admissible call keeps the cache aligned. -/
theorem aligned_next {store store' : PostgresSchemaStore} (h : CacheAligned store)
    (hadmissible : Admissible store call) (hnext : schemaStoreMachine.next store call = some store') :
    CacheAligned store' := by
  cases call with
  | load => exact Option.some.inj hnext ▸ aligned_loadTableSchemas store
  | store tableSchema => exact aligned_storeTableSchema h hnext hadmissible
  | get tableId snapshotId => exact Option.some.inj hnext ▸ aligned_getTableSchema h hadmissible
  | prune retentions => exact Option.some.inj hnext ▸ aligned_pruneTableSchemas h retentions

/-! ## Lookups -/

/-- From an aligned cache an admissible lookup gives the database's answer. -/
theorem answers_of_aligned (h : CacheAligned store)
    (hadmissible : Admissible store (.get tableId snapshotId)) :
    Answers store.db tableId snapshotId (store.getTableSchema tableId snapshotId).1 := by
  unfold PostgresSchemaStore.getTableSchema Answers
  cases hcached : store.tableSchemas.getAtOrBefore tableId snapshotId with
  | some tableSchema =>
    obtain ⟨⟨k, v⟩, hfloor, rfl⟩ := Option.map_eq_some_iff.mp hcached
    obtain ⟨row, hrow, hversion⟩ := (h tableId).floor_eq hfloor
    rw [hrow]
    exact ⟨v, rfl, hversion⟩
  | none =>
    cases hfloor : (store.db.versions tableId).floor snapshotId with
    | none => simp [SchemaTables.loadTableSchemaAtSnapshot, hfloor]
    | some e =>
      have hcolumns := (hadmissible hcached e hfloor).1
      obtain ⟨tableSchema, hloaded⟩ : ∃ v, loadedSchema tableId e.1 e.2 = some v := by
        simp [loadedSchema, hcolumns]
      simp only [SchemaTables.loadTableSchemaAtSnapshot, hfloor, Option.bind_some, hloaded]
      exact ⟨tableSchema, rfl, isVersion_loaded hloaded⟩

/-- In a process all of whose calls are admissible, every lookup gives the version of the
database with the greatest snapshot at or before the requested one. -/
theorem getTableSchema_answers (store : PostgresSchemaStore)
    (hreach : schemaStoreMachine.ReachableUnder Admissible store) (tableId : TableId)
    (snapshotId : SnapshotId) (hadmissible : Admissible store (.get tableId snapshotId)) :
    Answers store.db tableId snapshotId (store.getTableSchema tableId snapshotId).1 := by
  have haligned : CacheAligned store := by
    refine hreach.invariant ?_ (fun s call s' hI hguard hnext => aligned_next hI hguard hnext)
    intro s hinit t
    rw [show s.tableSchemas = empty from hinit]
    exact SortedMap.TopSegment.empty _
  exact answers_of_aligned haligned hadmissible

/-- A version of a table with one column, whose name tells the versions apart. -/
def oneColumnRow (columnName : String) : StoredSchema :=
  ⟨"public", "orders", [⟨columnName, "INT4", -1, false, 1, some 1⟩]⟩

/-- A database left by earlier processes with three versions of one table. -/
def threeVersions : SchemaTables :=
  ((SchemaTables.empty.upsert 7 100 (oneColumnRow "a")).upsert 7 200 (oneColumnRow "b")).upsert
    7 300 (oneColumnRow "c")

/-- The version that a process stores after it loaded the latest one. -/
def fourthVersion : TableSchema :=
  ⟨7, ⟨"public", "orders"⟩, [⟨"d", .int4, -1, 1, some 1, false⟩], 400⟩

/-- A process loads version 300 and stores version 400. Its lookup at 250 reads version 200, which
is evicted at once; the lookup at 350 is then answered from the cache. -/
theorem getTableSchema_answers_threeVersions :
    ∃ store, schemaStoreMachine.run ⟨threeVersions, empty⟩
        [.load, .store fourthVersion, .get 7 250] = some store ∧
      (store.tableSchemas 7).entries.map Prod.fst = [300, 400] ∧
      (store.tableSchemas.getAtOrBefore 7 350).map (·.snapshotId) = some 300 ∧
      Answers store.db 7 350 (store.getTableSchema 7 350).1 := by
  let loaded := PostgresSchemaStore.loadTableSchemas ⟨threeVersions, empty⟩
  have hstore : Admissible loaded (.store fourthVersion) := by
    -- no version of the database is newer
    refine .inl fun k row hmem hlt => ?_
    have hle : ∀ e ∈ (threeVersions.versions 7).entries, e.1 ≤ 400 := by decide
    exact absurd hlt (not_lt.mpr (hle _ hmem))
  let stored : PostgresSchemaStore :=
    ⟨threeVersions.upsert 7 400 (storedSchema fourthVersion),
      loaded.tableSchemas.insertWithEviction fourthVersion maxCachedSchemasPerTable⟩
  have hget : Admissible stored (.get 7 250) := by
    intro _ e he
    obtain rfl : (200, oneColumnRow "b") = e := Option.some.inj he
    -- the cache is full of newer versions
    exact ⟨by decide, .inr (by decide)⟩
  have hinit : schemaStoreMachine.ReachableUnder Admissible ⟨threeVersions, empty⟩ := .init rfl
  have hloaded : schemaStoreMachine.ReachableUnder Admissible loaded :=
    @Machine.ReachableUnder.step _ _ _ _ _ _ .load hinit trivial rfl
  have hstored : schemaStoreMachine.ReachableUnder Admissible stored := hloaded.step hstore rfl
  exact ⟨_, rfl, by decide, by decide,
    getTableSchema_answers _ (hstored.step hget rfl) 7 350 fun hmiss => absurd hmiss (by decide)⟩

/-- After a load and a lookup of an old version, the lookup at 250 is answered with version
100 although the database holds version 200. -/
theorem getTableSchema_returns_older_version :
    ∃ store, schemaStoreMachine.Reachable store ∧
      (store.getTableSchema 7 250).1.map (·.snapshotId) = some 100 ∧
      ((store.db.versions 7).floor 250).map Prod.fst = some 200 ∧
      ¬ Answers store.db 7 250 (store.getTableSchema 7 250).1 := by
  let initial : PostgresSchemaStore := ⟨threeVersions, empty⟩
  have hget : ((initial.loadTableSchemas.getTableSchema 7 150).2.getTableSchema 7 250).1.map
      (·.snapshotId) = some 100 := by decide
  refine ⟨(initial.loadTableSchemas.getTableSchema 7 150).2,
    Machine.Reachable.run (s := initial) (.init rfl) [.load, .get 7 150] rfl, hget, by decide, ?_⟩
  rintro ⟨tableSchema, hanswer, -, hsnapshot, -⟩
  rw [hanswer] at hget
  have hsnapshot : tableSchema.snapshotId = 200 := hsnapshot
  simp [hsnapshot] at hget

/-! ## Why the condition is needed -/

/-- A cached version older than an uncached version of the database makes the lookup at the
latter answer with an older one. -/
theorem not_answers_of_gap {k newer : SnapshotId}
    (hkeys : ∀ e ∈ (store.tableSchemas tableId).entries, e.2.snapshotId = e.1)
    (hcached : (store.tableSchemas tableId).HasKey k) (hlt : k < newer)
    (hrow : (newer, row) ∈ (store.db.versions tableId).entries)
    (hgap : ¬ (store.tableSchemas tableId).HasKey newer) :
    ¬ Answers store.db tableId newer (store.getTableSchema tableId newer).1 := by
  have hdb : (store.db.versions tableId).floor newer = some (newer, row) :=
    SortedMap.floor_eq_some_iff.mpr ⟨hrow, le_rfl, fun _ _ hle => hle⟩
  cases hfloor : (store.tableSchemas tableId).floor newer with
  | none =>
    obtain ⟨v, hv⟩ := hcached
    exact absurd (SortedMap.floor_eq_none_iff.mp hfloor (k, v) hv) (not_lt.mpr hlt.le)
  | some e =>
    obtain ⟨k₁, v₁⟩ := e
    have hmem := (SortedMap.floor_eq_some_iff.mp hfloor).1
    have hget : (store.getTableSchema tableId newer).1 = some v₁ := by
      simp [PostgresSchemaStore.getTableSchema, getAtOrBefore, hfloor]
    rw [Answers, hdb, hget]
    rintro ⟨tableSchema, heq, -, hsnapshot, -⟩
    cases heq
    -- the answer would have to be the uncached version itself
    have hkey : k₁ = newer := (hkeys (k₁, v₁) hmem).symm.trans hsnapshot
    exact hgap ⟨v₁, hkey ▸ hmem⟩

/-- Caching a version that is not harmless leaves a gap below it. -/
theorem gap_of_not_cacheable (hcacheable : ¬ Cacheable store tableSchema.id tableSchema.snapshotId) :
    ∃ newer row, (newer, row) ∈ (store.db.versions tableSchema.id).entries ∧
      tableSchema.snapshotId < newer ∧
      (store.tableSchemas.insertWithEviction tableSchema maxCachedSchemasPerTable
        tableSchema.id).HasKey tableSchema.snapshotId ∧
      ¬ (store.tableSchemas.insertWithEviction tableSchema maxCachedSchemasPerTable
        tableSchema.id).HasKey newer := by
  rw [Cacheable, not_or, not_le] at hcacheable
  obtain ⟨hmissing, hroom⟩ := hcacheable
  push Not at hmissing
  obtain ⟨newer, row, hrow, hlt, hgap⟩ := hmissing
  refine ⟨newer, row, hrow, hlt, ?_, ?_⟩
  · rw [insertWithEviction_apply, if_pos rfl]
    refine ⟨tableSchema, SortedMap.mem_evict_of_length_lt
      (SortedMap.mem_insert.mpr (.inl rfl)) ?_⟩
    rw [SortedMap.filter_gt_insert]
    exact hroom
  · rw [insertWithEviction_apply, if_pos rfl]
    rintro ⟨v, hv⟩
    rcases SortedMap.mem_insert.mp (SortedMap.mem_of_mem_evict hv) with heq | ⟨hold, -⟩
    · exact absurd (Prod.mk.inj heq).1 hlt.ne'
    · exact hgap ⟨v, hold⟩

/-- Entries of an aligned cache are filed under their own snapshot. -/
theorem CacheAligned.snapshotId_eq (h : CacheAligned store)
    (he : e ∈ (store.tableSchemas tableId).entries) : e.2.snapshotId = e.1 := by
  obtain ⟨row, -, -, hsnapshot, -⟩ := (h tableId).sub e.1 e.2 he
  exact hsnapshot

/-- Caching a version from an aligned cache, when that is not harmless, makes some later
lookup wrong. The database may be rewritten at that version at the same time. -/
theorem exists_wrong_answer_of_caching (h : CacheAligned store)
    (hrows : ∀ k row, (k, row) ∈ (store.db.versions tableSchema.id).entries →
      k ≠ tableSchema.snapshotId → (k, row) ∈ (db.versions tableSchema.id).entries)
    (hcacheable : ¬ Cacheable store tableSchema.id tableSchema.snapshotId)
    {store' : PostgresSchemaStore}
    (hstore' : store' =
      ⟨db, store.tableSchemas.insertWithEviction tableSchema maxCachedSchemasPerTable⟩) :
    ∃ tableId snapshotId,
      ¬ Answers store'.db tableId snapshotId (store'.getTableSchema tableId snapshotId).1 := by
  subst hstore'
  obtain ⟨newer, row, hrow, hlt, hcached, hgap⟩ := gap_of_not_cacheable hcacheable
  have hrow' := hrows newer row hrow hlt.ne'
  refine ⟨tableSchema.id, newer, not_answers_of_gap ?_ hcached hlt hrow' hgap⟩
  intro e he
  simp only [insertWithEviction_apply] at he
  rcases SortedMap.mem_insert.mp (SortedMap.mem_of_mem_evict he) with rfl | ⟨hold, -⟩
  · rfl
  · exact h.snapshotId_eq hold

/-- The condition is exact: from an aligned cache, every call that is not admissible is a
lookup that is answered wrongly or makes some later lookup wrong. -/
theorem exists_wrong_answer_of_not_admissible {store store' : PostgresSchemaStore}
    (h : CacheAligned store) (hcall : ¬ Admissible store call)
    (hnext : schemaStoreMachine.next store call = some store') :
    (∃ tableId snapshotId, call = .get tableId snapshotId ∧
        ¬ Answers store.db tableId snapshotId (store.getTableSchema tableId snapshotId).1) ∨
      ∃ tableId snapshotId,
        ¬ Answers store'.db tableId snapshotId (store'.getTableSchema tableId snapshotId).1 := by
  cases call with
  | load | prune retentions => exact absurd trivial hcall
  | store tableSchema =>
    simp only [schemaStoreMachine, PostgresSchemaStore.storeTableSchema] at hnext
    split_ifs at hnext
    refine .inr (exists_wrong_answer_of_caching h ?_ hcall (Option.some.inj hnext).symm)
    intro k row hrow hne
    simp only [SchemaTables.upsert, Function.update_self]
    exact SortedMap.mem_insert.mpr (.inr ⟨hrow, hne⟩)
  | get tableId snapshotId =>
    simp only [Admissible] at hcall
    push Not at hcall
    obtain ⟨hmiss, e, hfloor, hbad⟩ := hcall
    have hload : store.db.loadTableSchemaAtSnapshot tableId snapshotId
        = loadedSchema tableId e.1 e.2 := by
      simp [SchemaTables.loadTableSchemaAtSnapshot, hfloor]
    by_cases hcolumns : e.2.columns = []
    · -- the inner join drops the version
      refine .inl ⟨tableId, snapshotId, rfl, ?_⟩
      simp [Answers, hfloor, PostgresSchemaStore.getTableSchema, hmiss, hload, loadedSchema,
        hcolumns]
    · have hcacheable := hbad hcolumns
      obtain ⟨tableSchema, hloaded⟩ : ∃ v, loadedSchema tableId e.1 e.2 = some v := by
        simp [loadedSchema, hcolumns]
      obtain ⟨rfl, hsnapshot⟩ := loadedSchema_id hloaded
      rw [← hsnapshot] at hcacheable
      refine .inr (exists_wrong_answer_of_caching h (fun _ _ hrow _ => hrow) hcacheable ?_)
      have hnext := (Option.some.inj hnext).symm
      simpa [PostgresSchemaStore.getTableSchema, hmiss, hload, hloaded] using hnext

/-- The lookup of version 100 that made the later one wrong is such a call. -/
theorem exists_wrong_answer_threeVersions :
    let loaded := PostgresSchemaStore.loadTableSchemas ⟨threeVersions, empty⟩
    let store := (loaded.getTableSchema 7 150).2
    (loaded.tableSchemas 7).entries.map Prod.fst = [300] ∧
      (store.tableSchemas 7).entries.map Prod.fst = [100, 300] ∧
      ¬ Admissible loaded (.get 7 150) ∧
      ∃ tableId snapshotId,
        ¬ Answers store.db tableId snapshotId (store.getTableSchema tableId snapshotId).1 := by
  intro loaded store
  have hcall : ¬ Admissible loaded (.get 7 150) := by
    intro h
    obtain ⟨-, hnewer | hfull⟩ := h (by decide) (100, oneColumnRow "a") (by decide)
    · obtain ⟨cached, hcached⟩ := hnewer 200 (oneColumnRow "b") (by decide) (by decide)
      have hkeys : ∀ e ∈ (loaded.tableSchemas 7).entries, e.1 = 300 := by decide
      exact absurd (hkeys (200, cached) hcached) (by simp)
    · exact absurd hfull (by decide)
  refine ⟨by decide, by decide, hcall, ?_⟩
  obtain ⟨tableId, snapshotId, heq, hwrong⟩ | hwrong :=
    exists_wrong_answer_of_not_admissible (aligned_loadTableSchemas _) hcall rfl
  · -- the lookup itself reads the right version
    cases heq
    exact absurd ⟨_, rfl, isVersion_loaded rfl⟩ hwrong
  · exact hwrong

end Etl
