import Etl.Common.Selection
import Etl.Replication.CtidPartitions
import Mathlib.Data.List.Sort
import Mathlib.Data.List.Lookmap

/-! # Table copy

The initial copy reads a table either with one query or in parallel: a table with storage of its
own by ctid ranges, a partitioned table one leaf partition at a time. Each query looks up the
publication's row filter for the table it names. A query is kept by its clauses; a row filter is
an expression text whose value on a row is a parameter, as is everything else the source database
answers.

The catalog's view of a publication lists a partitioned table and not its partitions when the
publication publishes via the root, so the filter attached to the root is not found under a
leaf's name (`getRowFilter_partitioned`). The rows of both ways agree exactly when nothing
depends on that filter, and for a table with storage when the rows of inheriting tables lie in
planned blocks (`tableCopy_rows_eq_serial_iff`).

Reference: `etl/src/workers/table_sync_copy.rs` (`table_copy`) and `etl/src/replication/client.rs`.
-/

namespace Etl

open List

/-! ## The source database -/

/-- A row: the text of each column, or null. -/
abbrev SourceRow : Type := String → Option String

structure HeapTuple where
  ctid : Tid
  row : SourceRow

/-- A table with storage: its size in blocks when it is sampled, its tuples in the exported
snapshot and those of the tables that inherit from it. The size is sampled after the snapshot was
taken and blocks with visible tuples stay, so the table's own tuples lie in sampled blocks. -/
structure HeapTable where
  id : TableId
  blocks : ℕ
  tuples : List HeapTuple
  inherited : List HeapTuple
  offset_pos : ∀ tuple ∈ tuples ++ inherited, 1 ≤ tuple.ctid.offset
  in_sample : ∀ tuple ∈ tuples, tuple.ctid.block < blocks

/-- What a query on the table scans. -/
def HeapTable.scan (table : HeapTable) : List HeapTuple := table.tuples ++ table.inherited

/-- A table with storage or a partitioned table with any tree of partitions. -/
inductive SourceRelation where
  | heap (table : HeapTable)
  | partitioned (id : TableId) (partitions : List SourceRelation)

namespace SourceRelation

def id : SourceRelation → TableId
  | .heap table => table.id
  | .partitioned id _ => id

mutual

/-- The leaf partitions of a relation, and a table with storage itself. -/
def leaves : SourceRelation → List HeapTable
  | .heap table => [table]
  | .partitioned _ partitions => leavesOfAll partitions

def leavesOfAll : List SourceRelation → List HeapTable
  | [] => []
  | relation :: relations => leaves relation ++ leavesOfAll relations

end

mutual

/-- A relation and all partitions below it. -/
def nodes : SourceRelation → List SourceRelation
  | .heap table => [.heap table]
  | .partitioned id partitions => .partitioned id partitions :: nodesOfAll partitions

def nodesOfAll : List SourceRelation → List SourceRelation
  | [] => []
  | relation :: relations => nodes relation ++ nodesOfAll relations

end

/-- What a query on the relation scans. -/
def scan (relation : SourceRelation) : List HeapTuple := relation.leaves.flatMap HeapTable.scan

def find? (relation : SourceRelation) (tableId : TableId) : Option SourceRelation :=
  relation.nodes.find? (·.id = tableId)

end SourceRelation

/-- A publication: whether it publishes via the partition root, and its tables with their row
filters. -/
structure Publication where
  viaRoot : Bool
  entries : List (TableId × Option String)

mutual

/-- The rows of `pg_publication_tables` for a relation and its partitions, given whether an
ancestor is published too: the topmost published tables when publishing via the root, and
otherwise the leaves, each with the filter of its own entry. -/
def publicationTables (publication : Publication) (ancestorPublished : Bool) :
    SourceRelation → List (TableId × Option String)
  | .heap table =>
    match publication.entries.lookup table.id with
    | some rowFilter =>
      if publication.viaRoot && ancestorPublished then [] else [(table.id, rowFilter)]
    | none => if !publication.viaRoot && ancestorPublished then [(table.id, none)] else []
  | .partitioned id partitions =>
    match publication.entries.lookup id with
    | some rowFilter =>
      (if publication.viaRoot && !ancestorPublished then [(id, rowFilter)] else []) ++
        publicationTablesOfAll publication true partitions
    | none => publicationTablesOfAll publication ancestorPublished partitions

def publicationTablesOfAll (publication : Publication) (ancestorPublished : Bool) :
    List SourceRelation → List (TableId × Option String)
  | [] => []
  | relation :: relations =>
    publicationTables publication ancestorPublished relation ++
      publicationTablesOfAll publication ancestorPublished relations

end

/-- What the queries of one table's copy read: the server version, the publications by name, the
copied table with whether an ancestor of it is published, and the value of an expression on a
row. -/
structure CopySource where
  serverVersion : Option ℕ
  publication : String → Publication
  ancestorPublished : Bool
  relation : SourceRelation
  holds : String → SourceRow → Option Bool
  nodup_ids : (relation.nodes.map SourceRelation.id).Nodup

/-! ## Queries -/

/-- The first server version with row filters. -/
def postgres15 : ℕ := 150000

def getRowFilter (source : CopySource) (tableId : TableId) (publicationName : Option String) :
    Option String :=
  if !source.serverVersion.any (postgres15 ≤ ·) then none
  else
    match publicationName with
    | none => none
    | some publicationName =>
      ((publicationTables (source.publication publicationName) source.ancestorPublished
        source.relation).lookup tableId).join

/-- A copy query by its clauses. -/
structure CopyQuery where
  columnList : List String
  tableId : TableId
  partition : Option CtidPartition
  rowFilter : Option String

/-- Whether the tuple meets the query's condition on `ctid`. -/
def CopyQuery.inPartition (query : CopyQuery) (tuple : HeapTuple) : Bool :=
  query.partition.all (·.selects tuple.ctid)

/-- Whether a row passes a filter: only true counts, not null. -/
def CopySource.passes (source : CopySource) (rowFilter : Option String) (tuple : HeapTuple) :
    Bool :=
  rowFilter.all fun rowFilter => source.holds rowFilter tuple.row == some true

/-- The rows a query selects. -/
def CopySource.rows (source : CopySource) (query : CopyQuery) : List (List (Option String)) :=
  match source.relation.find? query.tableId with
  | none => []
  | some relation =>
    (relation.scan.filter fun tuple =>
      query.inPartition tuple && source.passes query.rowFilter tuple).map
      fun tuple => query.columnList.map tuple.row

/-- Checks that the table has a name, as every query does before it is built. -/
def getTableName (source : CopySource) (tableId : TableId) : EtlResult Unit :=
  match source.relation.find? tableId with
  | some _ => .ok ()
  | none =>
    bailWith .sourceSchemaError "Table not found in source database"
      s!"Table with ID {tableId} not found in database"

/-- The query over a whole table. -/
def getTableCopyStream (source : CopySource) (tableId : TableId) (columnList : List String)
    (publicationName : Option String) : EtlResult CopyQuery := do
  getTableName source tableId
  return ⟨columnList, tableId, none, getRowFilter source tableId publicationName⟩

/-- The query over one ctid range. -/
def getTableCopyStreamWithCtidPartition (source : CopySource) (tableId : TableId)
    (columnList : List String) (publicationName : Option String) (partition : CtidPartition) :
    EtlResult CopyQuery := do
  getTableName source tableId
  return ⟨columnList, tableId, some partition, getRowFilter source tableId publicationName⟩

/-! ## Copying -/

/-- The slice of a table one parallel task reads. -/
inductive CopyPartition where
  | ctidRange (partition : CtidPartition)
  | leafPartition (leafTableId : TableId)

/-- The size of the table when it is sampled. -/
def CopySource.tableBlocks (source : CopySource) : Option ℕ :=
  match source.relation with
  | .heap table => some table.blocks
  | .partitioned _ _ => some 0

/-- The leaf partitions in identifier order, without the table itself. -/
def getLeafPartitions (source : CopySource) : List TableId :=
  ((source.relation.leaves.map HeapTable.id).filter (· ≠ source.relation.id)).insertionSort
    (· ≤ ·)

def isPartitionedTable (source : CopySource) : Bool :=
  match source.relation with
  | .heap _ => false
  | .partitioned _ _ => true

/-- The query of a table's copy by one connection. -/
def serialTableCopy (source : CopySource) (columnList : List String)
    (publicationName : Option String) : EtlResult (List CopyQuery) := do
  return [← getTableCopyStream source source.relation.id columnList publicationName]

/-- The query of one slice. -/
def copyPartition (source : CopySource) (columnList : List String)
    (publicationName : Option String) : CopyPartition → EtlResult CopyQuery
  | .ctidRange partition =>
    getTableCopyStreamWithCtidPartition source source.relation.id columnList publicationName
      partition
  | .leafPartition leafTableId =>
    getTableCopyStream source leafTableId columnList publicationName

/-- The queries of a table's copy by several connections. -/
def parallelTableCopy (source : CopySource) (columnList : List String)
    (publicationName : Option String) (maxCopyConnections : ℕ) : EtlResult (List CopyQuery) := do
  let copyPartitions ←
    if isPartitionedTable source then
      .ok ((getLeafPartitions source).map .leafPartition)
    else do
      let ctidPartitions ←
        planCtidPartitions source.relation.id source.tableBlocks maxCopyConnections
      .ok (ctidPartitions.map .ctidRange)
  copyPartitions.mapM (copyPartition source columnList publicationName)

/-- The queries of a table's copy. -/
def tableCopy (source : CopySource) (columnList : List String) (publicationName : Option String)
    (maxCopyConnections : ℕ) : EtlResult (List CopyQuery) :=
  if maxCopyConnections > 1 then
    parallelTableCopy source columnList publicationName maxCopyConnections
  else serialTableCopy source columnList publicationName

/-- A row filter that the publication's view lists for a table. Servers before version 15 have
none. -/
def CopySource.Filters (source : CopySource) (publicationName : Option String) (tableId : TableId)
    (rowFilter : String) : Prop :=
  (∃ version ∈ source.serverVersion, postgres15 ≤ version) ∧
    ∃ name ∈ publicationName, (tableId, some rowFilter) ∈
      publicationTables (source.publication name) source.ancestorPublished source.relation

/-- The row of a tuple meets the filter listed for a table, if there is one. -/
def CopySource.Meets (source : CopySource) (publicationName : Option String) (tableId : TableId)
    (tuple : HeapTuple) : Prop :=
  ∀ rowFilter, source.Filters publicationName tableId rowFilter →
    source.holds rowFilter tuple.row = some true

/-- When a copy misses nothing and adds nothing: it is serial; or the rows of inheriting tables
that meet the filter lie in planned blocks; or the rows of a partitioned table meet the filters
listed for the table and for their leaf. -/
def CopiesWhole (source : CopySource) (publicationName : Option String)
    (maxCopyConnections : ℕ) : Prop :=
  maxCopyConnections ≤ 1 ∨
    match source.relation with
    | .heap table => ∀ tuple ∈ table.inherited, source.Meets publicationName table.id tuple →
        InPlan table.blocks maxCopyConnections tuple.ctid.block
    | .partitioned id partitions =>
      ∀ leaf ∈ (SourceRelation.partitioned id partitions).leaves, ∀ tuple ∈ leaf.scan,
        source.Meets publicationName id tuple ∧ source.Meets publicationName leaf.id tuple

/-! ## The partition tree -/

namespace SourceRelation

mutual

theorem heap_mem_nodes : ∀ (relation : SourceRelation) {leaf : HeapTable},
    leaf ∈ relation.leaves → .heap leaf ∈ relation.nodes
  | .heap table, leaf, hleaf => by
    rw [leaves, mem_singleton] at hleaf
    rw [nodes, hleaf]
    exact mem_singleton_self _
  | .partitioned id partitions, leaf, hleaf => by
    rw [leaves] at hleaf
    rw [nodes]
    exact mem_cons_of_mem _ (heap_mem_nodesOfAll partitions hleaf)

theorem heap_mem_nodesOfAll : ∀ (relations : List SourceRelation) {leaf : HeapTable},
    leaf ∈ leavesOfAll relations → .heap leaf ∈ nodesOfAll relations
  | [], leaf, hleaf => by simp [leavesOfAll] at hleaf
  | relation :: relations, leaf, hleaf => by
    rw [leavesOfAll, mem_append] at hleaf
    rw [nodesOfAll, mem_append]
    exact hleaf.imp (heap_mem_nodes relation) (heap_mem_nodesOfAll relations)

end

theorem mem_nodes_self (relation : SourceRelation) : relation ∈ relation.nodes := by
  cases relation with
  | heap table | partitioned id partitions => simp [nodes]

theorem find?_of_mem {relation node : SourceRelation}
    (hnodup : (relation.nodes.map SourceRelation.id).Nodup) (hnode : node ∈ relation.nodes) :
    relation.find? node.id = some node := by
  rw [find?]
  generalize relation.nodes = nodes at hnodup hnode
  induction nodes with
  | nil => simp at hnode
  | cons first rest ih =>
    rw [map_cons, nodup_cons] at hnodup
    rcases mem_cons.mp hnode with rfl | hrest
    · simp
    · have hne : first.id ≠ node.id := fun heq =>
        hnodup.1 (heq ▸ mem_map_of_mem hrest)
      rw [List.find?_cons_of_neg (by simpa using hne)]
      exact ih hnodup.2 hrest

end SourceRelation

/-! ## Row filters of a publication -/

mutual

/-- The view lists relations of the tree, each at most once. -/
theorem sublist_publicationTables (publication : Publication) :
    ∀ (ancestorPublished : Bool) (relation : SourceRelation),
      ((publicationTables publication ancestorPublished relation).map Prod.fst).Sublist
        (relation.nodes.map SourceRelation.id)
  | ancestorPublished, .heap table => by
    rw [publicationTables]
    split <;> split <;> simp [SourceRelation.nodes, SourceRelation.id]
  | ancestorPublished, .partitioned id partitions => by
    rw [publicationTables, SourceRelation.nodes, map_cons]
    split
    · have hbelow := sublist_publicationTablesOfAll publication true partitions
      split_ifs
      · exact hbelow.cons_cons id
      · exact hbelow.cons _
    · exact (sublist_publicationTablesOfAll publication ancestorPublished partitions).cons _

theorem sublist_publicationTablesOfAll (publication : Publication) :
    ∀ (ancestorPublished : Bool) (relations : List SourceRelation),
      ((publicationTablesOfAll publication ancestorPublished relations).map Prod.fst).Sublist
        ((SourceRelation.nodesOfAll relations).map SourceRelation.id)
  | ancestorPublished, [] => by
    rw [publicationTablesOfAll]
    exact nil_sublist _
  | ancestorPublished, relation :: relations => by
    rw [publicationTablesOfAll, SourceRelation.nodesOfAll, map_append, map_append]
    exact (sublist_publicationTables publication ancestorPublished relation).append
      (sublist_publicationTablesOfAll publication ancestorPublished relations)

end

mutual

/-- When publishing via the root, nothing below a published table is listed. -/
theorem publicationTables_of_viaRoot {publication : Publication}
    (hroot : publication.viaRoot = true) :
    ∀ relation : SourceRelation, publicationTables publication true relation = []
  | .heap table => by
    rw [publicationTables]
    split <;> simp [hroot]
  | .partitioned id partitions => by
    rw [publicationTables]
    split <;> simp [publicationTablesOfAll_of_viaRoot hroot partitions]

theorem publicationTablesOfAll_of_viaRoot {publication : Publication}
    (hroot : publication.viaRoot = true) :
    ∀ relations : List SourceRelation, publicationTablesOfAll publication true relations = []
  | [] => by rw [publicationTablesOfAll]
  | relation :: relations => by
    rw [publicationTablesOfAll, publicationTables_of_viaRoot hroot relation,
      publicationTablesOfAll_of_viaRoot hroot relations, append_nil]

end

theorem publicationTables_partitioned (publication : Publication) (ancestorPublished : Bool)
    (id : TableId) (partitions : List SourceRelation) :
    (∃ rowFilter, publicationTables publication ancestorPublished (.partitioned id partitions) =
        [(id, rowFilter)]) ∨
      ∃ published, publicationTables publication ancestorPublished (.partitioned id partitions) =
        publicationTablesOfAll publication published partitions := by
  rw [publicationTables]
  split
  · rename_i rowFilter _
    by_cases htop : (publication.viaRoot && !ancestorPublished) = true
    · have hroot : publication.viaRoot = true := (Bool.and_eq_true_iff.mp htop).1
      refine .inl ⟨rowFilter, ?_⟩
      rw [if_pos htop, publicationTablesOfAll_of_viaRoot hroot, append_nil]
    · exact .inr ⟨true, by rw [if_neg htop, nil_append]⟩
  · exact .inr ⟨ancestorPublished, rfl⟩

variable {source : CopySource} {partitions : List SourceRelation} {id : TableId}
  {maxCopyConnections : ℕ} {table : HeapTable}

/-- Of a partitioned table, either the table or its leaves have no row filter to be found. -/
theorem getRowFilter_partitioned (hrelation : source.relation = .partitioned id partitions)
    (publicationName : Option String) :
    getRowFilter source id publicationName = none ∨
      ∀ leaf ∈ source.relation.leaves, getRowFilter source leaf.id publicationName = none := by
  have hnodup := source.nodup_ids
  rw [hrelation, SourceRelation.nodes, map_cons, nodup_cons] at hnodup
  unfold getRowFilter
  split
  · exact .inl rfl
  cases publicationName with
  | none => exact .inl rfl
  | some publicationName =>
    dsimp only
    rw [hrelation]
    rcases publicationTables_partitioned (source.publication publicationName)
      source.ancestorPublished id partitions with ⟨rowFilter, hlisted⟩ | ⟨published, hlisted⟩
    · -- The table is listed: no leaf has its identifier.
      right
      intro leaf hleaf
      have hmem : leaf.id ∈ (SourceRelation.nodesOfAll partitions).map SourceRelation.id :=
        mem_map.mpr ⟨_, SourceRelation.heap_mem_nodesOfAll partitions hleaf, rfl⟩
      have hne : (leaf.id == id) = false := by
        rw [beq_eq_false_iff_ne]
        rintro rfl
        exact hnodup.1 hmem
      simp [hlisted, lookup_cons, hne]
    · -- The table is not listed.
      left
      rw [hlisted, lookup_eq_none_iff.mpr]
      · rfl
      · intro row hrow
        rw [bne_iff_ne]
        rintro rfl
        exact hnodup.1 ((sublist_publicationTablesOfAll _ published partitions).subset
          (mem_map_of_mem hrow))

/-- With distinct keys, a lookup finds what the list has. -/
theorem lookup_eq_some_iff_mem {rows : List (TableId × Option String)}
    (hnodup : (rows.map Prod.fst).Nodup) {tableId : TableId} {rowFilter : Option String} :
    rows.lookup tableId = some rowFilter ↔ (tableId, rowFilter) ∈ rows := by
  induction rows with
  | nil => simp
  | cons row rows ih =>
    rw [map_cons, nodup_cons] at hnodup
    obtain ⟨id, listed⟩ := row
    by_cases hid : tableId = id
    · subst hid
      have hnot : (tableId, rowFilter) ∉ rows := fun hmem =>
        hnodup.1 (mem_map.mpr ⟨_, hmem, rfl⟩)
      simp [hnot, eq_comm]
    · have hne : (tableId == id) = false := beq_eq_false_iff_ne.mpr hid
      simp [lookup_cons, hne, hid, ih hnodup.2]

/-- The filter of a copy query is the one the view lists. -/
theorem getRowFilter_eq_some_iff {publicationName : Option String} {tableId : TableId}
    {rowFilter : String} :
    getRowFilter source tableId publicationName = some rowFilter ↔
      source.Filters publicationName tableId rowFilter := by
  unfold getRowFilter CopySource.Filters
  by_cases hversion : source.serverVersion.any (postgres15 ≤ ·) = true
  · have hversion' : ∃ version ∈ source.serverVersion, postgres15 ≤ version := by
      simpa [Option.any_eq_true] using hversion
    rw [if_neg (by simp [hversion]), and_iff_right hversion']
    cases publicationName with
    | none => simp
    | some name =>
      have hnodup := source.nodup_ids.sublist (sublist_publicationTables (source.publication name)
        source.ancestorPublished source.relation)
      simp [Option.join_eq_some_iff, lookup_eq_some_iff_mem hnodup]
  · rw [if_pos (by simpa using hversion)]
    refine iff_of_false nofun ?_
    rintro ⟨⟨version, hmem, hle⟩, -⟩
    exact hversion (by simp [Option.mem_def.mp hmem, hle])

theorem passes_getRowFilter_iff {publicationName : Option String} {tableId : TableId}
    {tuple : HeapTuple} :
    source.passes (getRowFilter source tableId publicationName) tuple = true ↔
      source.Meets publicationName tableId tuple := by
  simp only [CopySource.Meets, ← getRowFilter_eq_some_iff, CopySource.passes, Option.all_eq_true,
    beq_iff_eq]

/-! ## The rows of a copy -/

/-- The rows all queries of a copy select. -/
def CopySource.copiedRows (source : CopySource) (queries : List CopyQuery) :
    Multiset (List (Option String)) :=
  (queries.flatMap source.rows : List (List (Option String)))

section Copy

variable {source : CopySource} (columnList : List String) (publicationName : Option String)
  {node : SourceRelation} {id : TableId} {partitions : List SourceRelation}

/-- The row a query returns for a tuple. -/
def projected (tuple : HeapTuple) : List (Option String) := columnList.map tuple.row

/-- A query scans the relation its identifier names. -/
theorem rows_of_mem (hnode : node ∈ source.relation.nodes) (partition : Option CtidPartition)
    (rowFilter : Option String) :
    source.rows ⟨columnList, node.id, partition, rowFilter⟩ =
      ((node.scan.filter (source.passes rowFilter)).filter
        fun tuple => partition.all (·.selects tuple.ctid)).map (projected columnList) := by
  rw [CopySource.rows, SourceRelation.find?_of_mem source.nodup_ids hnode, filter_filter]
  rfl

theorem getTableCopyStream_of_mem (hnode : node ∈ source.relation.nodes) :
    getTableCopyStream source node.id columnList publicationName =
      .ok ⟨columnList, node.id, none, getRowFilter source node.id publicationName⟩ := by
  rw [getTableCopyStream, getTableName, SourceRelation.find?_of_mem source.nodup_ids hnode]
  rfl

theorem getTableCopyStreamWithCtidPartition_of_mem (hnode : node ∈ source.relation.nodes)
    (partition : CtidPartition) :
    getTableCopyStreamWithCtidPartition source node.id columnList publicationName partition =
      .ok ⟨columnList, node.id, some partition,
        getRowFilter source node.id publicationName⟩ := by
  rw [getTableCopyStreamWithCtidPartition, getTableName,
    SourceRelation.find?_of_mem source.nodup_ids hnode]
  rfl

/-- The serial copy is one query over everything the table's filter lets through. -/
theorem serialTableCopy_rows (source : CopySource) :
    ∃ queries, serialTableCopy source columnList publicationName = .ok queries ∧
      source.copiedRows queries =
        ((source.relation.scan : Multiset HeapTuple).filter
          (source.passes (getRowFilter source source.relation.id publicationName) ·)).map
          (projected columnList) := by
  have hnode := source.relation.mem_nodes_self
  refine ⟨_, by rw [serialTableCopy, getTableCopyStream_of_mem _ _ hnode]; rfl, ?_⟩
  simp only [CopySource.copiedRows, flatMap_cons, rows_of_mem columnList hnode]
  simp

/-- The parallel copy of a table with storage returns what the planned ranges select of the
tuples the filter lets through. -/
theorem parallelTableCopy_rows_heap {table : HeapTable} (hrelation : source.relation = .heap table)
    {maxCopyConnections : ℕ} (hconnections : 1 ≤ maxCopyConnections) :
    ∃ queries,
      parallelTableCopy source columnList publicationName maxCopyConnections = .ok queries ∧
        source.copiedRows queries =
          (Multiset.select
            (plannedPartitions table.blocks maxCopyConnections : Multiset CtidPartition)
            (fun partition (tuple : HeapTuple) => partition.selects tuple.ctid)
            ((source.relation.scan : Multiset HeapTuple).filter
              (source.passes (getRowFilter source source.relation.id publicationName) ·))).map
            (projected columnList) := by
  have hnode := source.relation.mem_nodes_self
  have hplan : planCtidPartitions source.relation.id source.tableBlocks maxCopyConnections =
      .ok (plannedPartitions table.blocks maxCopyConnections) := by
    rw [CopySource.tableBlocks, hrelation]
    exact planCtidPartitions_eq _ _ hconnections
  have hheap : isPartitionedTable source = false := by rw [isPartitionedTable, hrelation]
  refine ⟨(plannedPartitions table.blocks maxCopyConnections).map fun partition =>
    ⟨columnList, source.relation.id, some partition,
      getRowFilter source source.relation.id publicationName⟩, ?_, ?_⟩
  · rw [parallelTableCopy, hheap, hplan]
    show ((plannedPartitions table.blocks maxCopyConnections).map CopyPartition.ctidRange).mapM
      (copyPartition source columnList publicationName) = _
    rw [mapM_map]
    exact mapM_eq_ok fun partition _ =>
      getTableCopyStreamWithCtidPartition_of_mem columnList publicationName hnode partition
  · rw [CopySource.copiedRows, flatMap_map, Multiset.select, Multiset.map_bind, ← Multiset.coe_bind]
    refine congrArg _ (funext fun partition => ?_)
    rw [rows_of_mem columnList hnode]
    simp

/-- The tuples of a relation, each with the leaf it is stored in. -/
def SourceRelation.storedTuples (relation : SourceRelation) : List (HeapTable × HeapTuple) :=
  relation.leaves.flatMap fun leaf => leaf.scan.map (leaf, ·)

theorem map_snd_storedTuples (relation : SourceRelation) :
    relation.storedTuples.map Prod.snd = relation.scan := by
  rw [SourceRelation.storedTuples, SourceRelation.scan, map_flatMap]
  simp

theorem mem_storedTuples {relation : SourceRelation} {stored : HeapTable × HeapTuple} :
    stored ∈ relation.storedTuples ↔
      stored.1 ∈ relation.leaves ∧ stored.2 ∈ stored.1.scan := by
  rw [SourceRelation.storedTuples, mem_flatMap]
  constructor
  · rintro ⟨leaf, hleaf, hstored⟩
    obtain ⟨tuple, htuple, rfl⟩ := mem_map.mp hstored
    exact ⟨hleaf, htuple⟩
  · rintro ⟨hleaf, htuple⟩
    exact ⟨stored.1, hleaf, mem_map.mpr ⟨stored.2, htuple, rfl⟩⟩

/-- The leaf partitions of a partitioned table are all its leaves. -/
theorem getLeafPartitions_perm (hrelation : source.relation = .partitioned id partitions) :
    (getLeafPartitions source).Perm (source.relation.leaves.map HeapTable.id) := by
  have hnodup := source.nodup_ids
  have hall : ∀ leafId ∈ source.relation.leaves.map HeapTable.id,
      decide (leafId ≠ source.relation.id) = true := by
    rw [hrelation] at hnodup ⊢
    rw [SourceRelation.nodes, map_cons, nodup_cons] at hnodup
    intro leafId hleafId
    obtain ⟨leaf, hleaf, rfl⟩ := mem_map.mp hleafId
    have hmem : leaf.id ∈ (SourceRelation.nodesOfAll partitions).map SourceRelation.id :=
      mem_map.mpr ⟨_, SourceRelation.heap_mem_nodesOfAll partitions hleaf, rfl⟩
    exact decide_eq_true fun heq => hnodup.1 (heq ▸ hmem)
  rw [getLeafPartitions, filter_eq_self.mpr hall]
  exact perm_insertionSort _ _

/-- The parallel copy of a partitioned table returns the tuples that pass the filter found under
the name of their leaf. -/
theorem parallelTableCopy_rows_partitioned
    (hrelation : source.relation = .partitioned id partitions) (maxCopyConnections : ℕ) :
    ∃ queries,
      parallelTableCopy source columnList publicationName maxCopyConnections = .ok queries ∧
        source.copiedRows queries =
          ((source.relation.storedTuples : Multiset (HeapTable × HeapTuple)).filter fun stored =>
            source.passes (getRowFilter source stored.1.id publicationName) stored.2).map
            fun stored => projected columnList stored.2 := by
  have hperm := getLeafPartitions_perm hrelation
  have hpartitioned : isPartitionedTable source = true := by rw [isPartitionedTable, hrelation]
  refine ⟨(getLeafPartitions source).map fun leafTableId =>
    ⟨columnList, leafTableId, none, getRowFilter source leafTableId publicationName⟩, ?_, ?_⟩
  · rw [parallelTableCopy, hpartitioned]
    show ((getLeafPartitions source).map CopyPartition.leafPartition).mapM
      (copyPartition source columnList publicationName) = _
    rw [mapM_map]
    refine mapM_eq_ok fun leafTableId hid => ?_
    obtain ⟨leaf, hleaf, rfl⟩ := mem_map.mp (hperm.mem_iff.mp hid)
    exact getTableCopyStream_of_mem columnList publicationName
      (SourceRelation.heap_mem_nodes source.relation hleaf)
  · have hrows : ∀ leaf ∈ source.relation.leaves,
        source.rows ⟨columnList, leaf.id, none, getRowFilter source leaf.id publicationName⟩ =
          (leaf.scan.filter (source.passes (getRowFilter source leaf.id publicationName))).map
            (projected columnList) := by
      intro leaf hleaf
      have hnode := SourceRelation.heap_mem_nodes source.relation hleaf
      have hscan : (SourceRelation.heap leaf).scan = leaf.scan := by
        simp [SourceRelation.scan, SourceRelation.leaves]
      have hleafRows := rows_of_mem columnList hnode none
        (getRowFilter source leaf.id publicationName)
      rw [hscan] at hleafRows
      exact hleafRows.trans (by simp)
    rw [CopySource.copiedRows, flatMap_map,
      Multiset.coe_eq_coe.mpr (hperm.flatMap_right _), flatMap_map,
      SourceRelation.storedTuples]
    refine congrArg _ ?_
    rw [filter_flatMap, map_flatMap]
    refine flatMap_congr fun leaf hleaf => ?_
    rw [hrows leaf hleaf]
    simp [filter_map, Function.comp_def]

end Copy

/-- The planned ranges select every tuple of a table with storage that passes the filter, except
tuples of inheriting tables outside the plan. -/
theorem copiesWhole_heap_iff (hrelation : source.relation = .heap table)
    {publicationName : Option String} (hconnections : 1 < maxCopyConnections) :
    CopiesWhole source publicationName maxCopyConnections ↔
      ∀ tuple ∈ source.relation.scan,
        source.passes (getRowFilter source source.relation.id publicationName) tuple →
          InPlan table.blocks maxCopyConnections tuple.ctid.block := by
  have hparallel : ¬ maxCopyConnections ≤ 1 := by omega
  have hscan : source.relation.scan = table.tuples ++ table.inherited := by
    simp [hrelation, SourceRelation.scan, SourceRelation.leaves, HeapTable.scan]
  rw [CopiesWhole, hscan, hrelation]
  simp only [hparallel, false_or]
  constructor
  · intro hinherited tuple htuple hpasses
    rcases mem_append.mp htuple with hown | hchild
    · have hblock := table.in_sample tuple hown
      exact ⟨by omega, .inl hblock⟩
    · exact hinherited tuple hchild (passes_getRowFilter_iff.mp hpasses)
  · intro hall tuple htuple hmeets
    exact hall tuple (mem_append_right _ htuple) (passes_getRowFilter_iff.mpr hmeets)

/-- A parallel copy of a table with storage selects the serial rows exactly when it copies the
whole table. -/
theorem select_planned_eq_iff (hrelation : source.relation = .heap table) (columnList : List String)
    (publicationName : Option String) (hconnections : 1 < maxCopyConnections) :
    (Multiset.select
        (plannedPartitions table.blocks maxCopyConnections : Multiset CtidPartition)
        (fun partition (tuple : HeapTuple) => partition.selects tuple.ctid)
        ((source.relation.scan : Multiset HeapTuple).filter
          (source.passes (getRowFilter source source.relation.id publicationName) ·))).map
        (projected columnList) =
      ((source.relation.scan : Multiset HeapTuple).filter
        (source.passes (getRowFilter source source.relation.id publicationName) ·)).map
        (projected columnList) ↔
      CopiesWhole source publicationName maxCopyConnections := by
  have hcount : ∀ tuple ∈ source.relation.scan,
      Multiset.countP (fun partition : CtidPartition => partition.selects tuple.ctid)
        (plannedPartitions table.blocks maxCopyConnections : Multiset CtidPartition) =
        if InPlan table.blocks maxCopyConnections tuple.ctid.block then 1 else 0 := by
    intro tuple htuple
    have hoffset : 1 ≤ tuple.ctid.offset := by
      refine table.offset_pos tuple ?_
      simpa [hrelation, SourceRelation.scan, SourceRelation.leaves, HeapTable.scan] using htuple
    have hplanned : (plannedPartitions table.blocks maxCopyConnections).countP
        (·.selects tuple.ctid) = _ := countP_planned (by omega) hoffset
    simpa using hplanned
  rw [copiesWhole_heap_iff hrelation hconnections, Multiset.map_select_eq_map_iff]
  · refine forall_congr' fun tuple => ?_
    simp only [Multiset.mem_filter, and_imp]
    refine forall_congr' fun htuple => forall_congr' fun _ => ?_
    rw [hcount tuple htuple]
    split_ifs with hin <;> simp [hin]
  · intro tuple htuple
    rw [hcount tuple (Multiset.mem_coe.mp (Multiset.mem_filter.mp htuple).1)]
    split_ifs <;> decide

/-- A parallel copy of a partitioned table selects the serial rows exactly when every tuple passes
both the filter found for the table and the one found for its leaf. -/
theorem filter_leaves_eq_iff (hrelation : source.relation = .partitioned id partitions)
    (columnList : List String) (publicationName : Option String)
    (hconnections : 1 < maxCopyConnections) :
    ((source.relation.storedTuples : Multiset (HeapTable × HeapTuple)).filter fun stored =>
        source.passes (getRowFilter source stored.1.id publicationName) stored.2).map
        (fun stored => projected columnList stored.2) =
      ((source.relation.scan : Multiset HeapTuple).filter
        (source.passes (getRowFilter source source.relation.id publicationName) ·)).map
        (projected columnList) ↔
      CopiesWhole source publicationName maxCopyConnections := by
  have hparallel : ¬ maxCopyConnections ≤ 1 := by omega
  have hid : source.relation.id = id := by rw [hrelation, SourceRelation.id]
  -- Both sides as a filter of the stored tuples.
  have hserial : ((source.relation.scan : Multiset HeapTuple).filter
        (source.passes (getRowFilter source id publicationName) ·)).map (projected columnList) =
      ((source.relation.storedTuples : Multiset (HeapTable × HeapTuple)).filter fun stored =>
        source.passes (getRowFilter source id publicationName) stored.2).map
        (fun stored => projected columnList stored.2) := by
    rw [← map_snd_storedTuples, ← Multiset.map_coe, Multiset.filter_map, Multiset.map_map]
    rfl
  have hcondition : CopiesWhole source publicationName maxCopyConnections ↔
      ∀ stored ∈ source.relation.storedTuples,
        source.passes (getRowFilter source id publicationName) stored.2 ∧
          source.passes (getRowFilter source stored.1.id publicationName) stored.2 := by
    rw [CopiesWhole]
    simp only [hparallel, false_or, mem_storedTuples, Prod.forall, and_imp,
      passes_getRowFilter_iff]
    rw [hrelation]
    exact forall_congr' fun leaf =>
      ⟨fun hall tuple hleaf => hall hleaf tuple, fun hall hleaf tuple => hall tuple hleaf⟩
  have hpasses : ∀ tuple, source.passes none tuple = true := fun _ => rfl
  rw [hid, hserial, hcondition]
  rcases getRowFilter_partitioned hrelation publicationName with hroot | hleaves
  · simp only [hroot, hpasses, true_and, Multiset.filter_true]
    exact Multiset.map_filter_eq_map_iff _ _
  · have hleaf : ∀ stored ∈ source.relation.storedTuples,
        source.passes (getRowFilter source stored.1.id publicationName) stored.2 = true := by
      intro stored hstored
      rw [hleaves stored.1 (mem_storedTuples.mp hstored).1]
      exact hpasses stored.2
    rw [Multiset.filter_eq_self.mpr hleaf, eq_comm, Multiset.map_filter_eq_map_iff]
    exact forall_congr' fun stored => forall_congr' fun hstored =>
      (and_iff_left (hleaf stored hstored)).symm

/-- With any number of connections, a copy selects the rows the serial copy selects exactly when
it copies the whole table. -/
theorem tableCopy_rows_eq_serial_iff (source : CopySource) (columnList : List String)
    (publicationName : Option String) (maxCopyConnections : ℕ) :
    ∃ queries serialQueries,
      tableCopy source columnList publicationName maxCopyConnections = .ok queries ∧
        serialTableCopy source columnList publicationName = .ok serialQueries ∧
          (source.copiedRows queries = source.copiedRows serialQueries ↔
            CopiesWhole source publicationName maxCopyConnections) := by
  obtain ⟨serialQueries, hserial, hserialRows⟩ :=
    serialTableCopy_rows columnList publicationName source
  by_cases hconnections : maxCopyConnections > 1
  · rw [tableCopy, if_pos hconnections]
    cases hrelation : source.relation with
    | heap table =>
      obtain ⟨queries, hqueries, hrows⟩ := parallelTableCopy_rows_heap columnList publicationName
        hrelation (Nat.le_of_lt hconnections)
      refine ⟨queries, serialQueries, hqueries, hserial, ?_⟩
      rw [hrows, hserialRows]
      exact select_planned_eq_iff hrelation columnList publicationName hconnections
    | partitioned id partitions =>
      obtain ⟨queries, hqueries, hrows⟩ := parallelTableCopy_rows_partitioned columnList
        publicationName hrelation maxCopyConnections
      refine ⟨queries, serialQueries, hqueries, hserial, ?_⟩
      rw [hrows, hserialRows]
      exact filter_leaves_eq_iff hrelation columnList publicationName hconnections
  · rw [tableCopy, if_neg hconnections]
    refine ⟨serialQueries, serialQueries, hserial, hserial, iff_of_true rfl ?_⟩
    exact .inl (Nat.le_of_not_gt hconnections)

/-- Orders partitioned into one leaf, published via the root with a row filter on the root. -/
def filteredOrders : CopySource where
  serverVersion := some 170000
  publication _ := ⟨true, [(1, some "(region = 'us')")]⟩
  ancestorPublished := false
  relation := .partitioned 1 [.heap
    { id := 2
      blocks := 1
      tuples := [⟨⟨0, 1⟩, fun column => if column = "region" then some "eu" else some "7"⟩]
      inherited := []
      offset_pos := by simp
      in_sample := by simp }]
  holds _ row := some (row "region" == some "us")
  nodup_ids := by decide

/-- The leaf's row is copied in parallel although the filter on the root excludes it. -/
theorem tableCopy_ignores_root_filter :
    ∃ queries serialQueries,
      tableCopy filteredOrders ["id"] (some "pub") 2 = .ok queries ∧
        serialTableCopy filteredOrders ["id"] (some "pub") = .ok serialQueries ∧
          filteredOrders.copiedRows queries = {[some "7"]} ∧
            filteredOrders.copiedRows serialQueries = 0 := by
  refine ⟨[⟨["id"], 2, none, none⟩], [⟨["id"], 1, none, some "(region = 'us')"⟩], rfl, rfl, ?_, ?_⟩
  · have hrows : [(⟨["id"], 2, none, none⟩ : CopyQuery)].flatMap filteredOrders.rows =
        [[some "7"]] := by decide
    rw [CopySource.copiedRows, hrows, Multiset.coe_singleton]
  · have hrows : [(⟨["id"], 1, none, some "(region = 'us')"⟩ : CopyQuery)].flatMap
        filteredOrders.rows = [] := by decide
    rw [CopySource.copiedRows, hrows, Multiset.coe_nil]

end Etl
