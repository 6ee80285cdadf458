import Etl.Replication.Connection

/-! # What a fed loop has written

An apply loop on a connection produces an event for every change that it must write and that
the connection has gone past. A position the loop counts as flushed or reports lies below
what the connection has not gone past, and the events of what commits before it are
acknowledged. So every change that commits before such a position has been written, also when
the loop has failed.

Reference: `etl/src/replication/apply.rs`.
-/

namespace Etl

open List

variable {ρ : Type}

namespace Session

/-- The loop has produced an event for every change of the table that it must write, as told
by the commit position, and that the connection has gone past. What earlier loops produced
counts too. -/
structure Covers (s : Session ρ) (tableId : TableId) (wal : Wal ρ) (cursor : Cursor ρ)
    (prior : List (Event ρ)) (must : PgLsn → Prop) : Prop extends s.Follows wal cursor where
  behind : ∀ tx ∈ wal.txs.take cursor.next, must tx.commitLsn → ∀ record ∈ tx.records,
    record.change.concerns tableId = true →
      Writes tableId (prior ++ s.producedEvents) tx.commitLsn record
  opened : s.point.isFailed = false → s.sender.openCommit.isSome = true →
    ∀ tx, wal.txs[cursor.next]? = some tx → ∃ taken, tx.records = taken ++ cursor.rest ∧
      (must tx.commitLsn → ∀ record ∈ taken, record.change.concerns tableId = true →
        Writes tableId s.openEvents tx.commitLsn record)

variable {s s' : Session ρ} {tableId : TableId} {wal : Wal ρ} {cursor cursor' : Cursor ρ}
  {prior : List (Event ρ)} {must : PgLsn → Prop} {input : LoopInput ρ} {record : WalRecord ρ}
  {lsn : PgLsn} {tx : WalTx ρ}

/-! ## Acknowledged positions -/

/-- A position that is acknowledged, below the sender's ceiling and below the open events
covers every change that commits before it. -/
theorem Covers.writes_of_acked (h : s.Covers tableId wal cursor prior must)
    (hacked : AckedThrough s.delivered s.acked lsn) (hceiling : lsn ≤ s.sender.ceiling)
    (hopen : ∀ e ∈ s.openEvents, lsn ≤ e.commitLsn) (htx : tx ∈ wal.txs) (hmust : must tx.commitLsn)
    (hlt : tx.commitLsn < lsn) (hrecord : record ∈ tx.records)
    (hconcerns : record.change.concerns tableId = true) :
    Writes tableId (prior ++ s.acked) tx.commitLsn record := by
  have hbehind := h.aligned.mem_take_of_lt htx (lt_of_lt_of_le hlt hceiling)
  obtain ⟨e, he, hstart, hcommit, hcarried⟩ := h.behind tx hbehind hmust record hrecord hconcerns
  refine ⟨e, ?_, hstart, hcommit, hcarried⟩
  rcases mem_append.mp he with he | he
  · exact mem_append_left _ he
  refine mem_append_right _ ?_
  rcases mem_append.mp he with he | he
  · -- the event belongs to a delivered transaction, which commits before the position
    obtain ⟨delivered, hmem, he⟩ := mem_flatMap.mp he
    obtain ⟨done, rest, hsplit, hrest, hdone⟩ := hacked
    have hcommit' := h.inv.stopped.delivered_commit delivered hmem e he
    rw [hsplit] at hmem
    rcases mem_append.mp hmem with hmem | hmem
    · exact hdone.subset (mem_flatMap.mpr ⟨delivered, hmem, he⟩)
    · have hle := (hrest delivered hmem).1
      rw [← hcommit', hcommit] at hle
      exact absurd hle (not_le.mpr hlt)
  · have hle := hopen e he
    rw [hcommit] at hle
    exact absurd hle (not_le.mpr hlt)

/-- Every change that commits before a reported or flushed position has been written, whether
or not the loop has failed. -/
theorem Covers.writes_of_position (h : s.Covers tableId wal cursor prior must)
    (hlsn : lsn ∈ s.positions) (htx : tx ∈ wal.txs) (hmust : must tx.commitLsn)
    (hlt : tx.commitLsn < lsn) (hrecord : record ∈ tx.records)
    (hconcerns : record.change.concerns tableId = true) :
    Writes tableId (prior ++ s.acked) tx.commitLsn record := by
  have hstopped := h.inv.stopped
  have hacked : AckedThrough s.delivered s.acked lsn := by
    rcases mem_cons.mp hlsn with rfl | hreport
    · exact hstopped.flush_acked
    · obtain ⟨r, hr, rfl⟩ := mem_map.mp hreport
      exact hstopped.reports_acked r hr
  exact h.writes_of_acked hacked (hstopped.positions_le lsn hlsn)
    (fun e he => hstopped.positions_le_open e he lsn hlsn) htx hmust hlt hrecord hconcerns

/-! ## Steps -/

/-- With a `COMMIT` every change of the transaction has been taken. -/
theorem Covers.behind_next [DecidableEq ρ] (h : s.Covers tableId wal cursor prior must)
    (hnext : s.next input = some s')
    (hfollow : wal.follow cursor s.sender.openCommit.isSome input = some cursor') :
    ∀ tx ∈ wal.txs.take cursor'.next, must tx.commitLsn → ∀ record ∈ tx.records,
      record.change.concerns tableId = true →
        Writes tableId (prior ++ s'.producedEvents) tx.commitLsn record := by
  have hsubset : prior ++ s.producedEvents ⊆ prior ++ s'.producedEvents :=
    append_subset.mpr ⟨subset_append_left _ _,
      List.Subset.trans (txStep_of_next hnext).producedEvents_subset
        (subset_append_right _ _)⟩
  intro tx htx hmust record hrecord hconcerns
  rcases Wal.follow_next hfollow with hsame | ⟨last, hdata, hget, hrest, rfl⟩
  · rw [hsame] at htx
    exact (h.behind tx htx hmust record hrecord hconcerns).mono hsubset
  rcases Wal.mem_take_succ hget htx with htx | rfl
  · exact (h.behind tx htx hmust record hrecord hconcerns).mono hsubset
  · have hopen : s.sender.openCommit.isSome = true := by rw [open_of_commit hnext hdata]; rfl
    obtain ⟨taken, hrecords, htaken⟩ := h.opened (isFailed_of_next hnext) hopen tx hget
    rw [hrest, append_nil] at hrecords
    have hwrites := htaken hmust record (hrecords ▸ hrecord) hconcerns
    refine hwrites.mono (List.Subset.trans ?_ hsubset)
    exact List.Subset.trans (subset_append_right _ _) (subset_append_right _ _)

theorem Covers.opened_record (h : s.Covers tableId wal cursor prior must)
    {rest : List (WalRecord ρ)} {ans : MessageAnswers} {progress : ReplicationProgress}
    {state : ApplyLoopState ρ} {result : HandleMessageResult ρ} (hpoint : s.point = .select)
    (hrest : cursor.rest = record :: rest)
    (hhandle : handleLogicalReplicationMessage ans record.lsn record.change.toMessage
      { s.state with replicationProgress := progress } = .ok (state, result))
    (howns : ∀ commitLsn, s.sender.openCommit = some commitLsn → must commitLsn →
      ans.Owns tableId) (hopenTx : s.sender.openCommit.isSome = true)
    (hget : wal.txs[cursor.next]? = some tx) :
    ∃ taken, tx.records = taken ++ rest ∧
      (must tx.commitLsn → ∀ record ∈ taken, record.change.concerns tableId = true →
        Writes tableId (s.openEvents ++ result.event.toList) tx.commitLsn record) := by
  obtain ⟨taken, hrecords, htaken⟩ := h.opened (by rw [hpoint]; rfl) hopenTx tx hget
  obtain ⟨commitLsn, hopen⟩ := Option.isSome_iff_exists.mp hopenTx
  obtain ⟨tx', hget', rfl⟩ := h.aligned.open_eq commitLsn hopen
  obtain rfl : tx' = tx := Option.some.inj (hget'.symm.trans hget)
  refine ⟨taken ++ [record], by rw [hrecords, hrest, append_assoc]; rfl, ?_⟩
  intro hmust record' hrecord' hconcerns
  rcases mem_append.mp hrecord' with hrecord' | hrecord'
  · exact (htaken hmust record' hrecord' hconcerns).mono (subset_append_left _ _)
  · obtain rfl := mem_singleton.mp hrecord'
    obtain ⟨e, hevent, hstart, hfinal, hcarried⟩ :=
      handleLogicalReplicationMessage_carried (howns _ hopen hmust) hconcerns hhandle
    have hcommit := (h.inv.open_eq hpoint).symm.trans hopen
    refine ⟨e, by simp [hevent], hstart, ?_, hcarried⟩
    exact Option.some.inj (hfinal.symm.trans hcommit)

theorem Covers.opened_next [DecidableEq ρ] (h : s.Covers tableId wal cursor prior must)
    (hnext : s.next input = some s')
    (hfollow : wal.follow cursor s.sender.openCommit.isSome input = some cursor')
    (howns : ∀ ans, input.answers? = some ans → ∀ commitLsn,
      s.sender.openCommit = some commitLsn → must commitLsn → ans.Owns tableId)
    (hfailed : s'.point.isFailed = false) (hopen : s'.sender.openCommit.isSome = true)
    (tx : WalTx ρ) (hget : wal.txs[cursor'.next]? = some tx) :
    ∃ taken, tx.records = taken ++ cursor'.rest ∧
      (must tx.commitLsn → ∀ record ∈ taken, record.change.concerns tableId = true →
        Writes tableId s'.openEvents tx.commitLsn record) := by
  have hrunning := isFailed_of_next hnext
  cases txStep_of_next hnext with
  | quiet hdata hsame _ _ =>
    obtain rfl := Wal.follow_eq hdata hfollow
    rw [hsame.openEvents_eq]
    exact h.opened hrunning (hsame.openCommit_eq ▸ hopen) tx hget
  | failed hpoint _ _ => simp [hpoint, LoopPoint.isFailed] at hfailed
  | @handled walStart walEnd data ans _ _ _ _ _ progress state result hpoint hdata hsend hhandle
      hopenEvents _ _ =>
    have hdeliver := Wal.deliver_data hfollow
    rw [hopenEvents]
    cases data with
    -- nothing of the new transaction has been delivered yet
    | begin finalLsn =>
      obtain ⟨first, hfirst, -, rfl⟩ := hdeliver
      obtain rfl : first = tx := Option.some.inj (hfirst.symm.trans hget)
      exact ⟨[], rfl, by simp⟩
    | commit commitLsn endLsn => exact absurd rfl (hdata commitLsn endLsn)
    -- a delivered record is written if the worker owns the table
    | row kind relId image | truncate relIds =>
      obtain ⟨rest, hrest, rfl⟩ := hdeliver
      rw [WalSender.openCommit_of_inner rfl hsend] at hopen
      exact h.opened_record hpoint hrest hhandle (howns ans rfl) hopen hget
    | _ =>
      obtain rfl : cursor' = cursor := hdeliver
      rw [WalSender.openCommit_of_inner rfl hsend] at hopen
      obtain ⟨taken, hrecords, htaken⟩ := h.opened hrunning hopen tx hget
      exact ⟨taken, hrecords, fun hmust record hrecord hconcerns =>
        (htaken hmust record hrecord hconcerns).mono (subset_append_left _ _)⟩
  -- after the commit no transaction is open
  | commitBegun _ hsend =>
    simp only [WalSender.send] at hsend
    split_ifs at hsend
    rw [← Option.some.inj hsend] at hopen
    simp at hopen
  | commitEnded hpoint _ _ hsender _ =>
    have hclosed := h.inv
    unfold Inv at hclosed
    rw [hpoint] at hclosed
    rw [hsender, hclosed.open_eq.1] at hopen
    simp at hopen

/-- A step keeps the coverage if the worker owns the table for every transaction whose changes
it must write. -/
theorem Covers.next [DecidableEq ρ] (h : s.Covers tableId wal cursor prior must)
    (hnext : s.next input = some s')
    (hfollow : wal.follow cursor s.sender.openCommit.isSome input = some cursor')
    (howns : ∀ ans, input.answers? = some ans → ∀ commitLsn,
      s.sender.openCommit = some commitLsn → must commitLsn → ans.Owns tableId) :
    s'.Covers tableId wal cursor' prior must where
  toFollows := h.toFollows.next hnext hfollow
  behind := h.behind_next hnext hfollow
  opened := h.opened_next hnext hfollow howns

/-! ## Growth of the log and new connections -/

theorem Covers.extend (h : s.Covers tableId wal cursor prior must) {wal' : Wal ρ}
    (hextends : wal.Extends wal') : s.Covers tableId wal' cursor prior must := by
  have htake := hextends.take_eq h.aligned.next_le
  refine ⟨h.toFollows.extend hextends, ?_, ?_⟩
  · rw [htake]
    exact h.behind
  · intro hfailed hopen tx hget
    obtain ⟨commitLsn, hcommit⟩ := Option.isSome_iff_exists.mp hopen
    obtain ⟨tx', hget', -⟩ := h.aligned.open_eq commitLsn hcommit
    obtain rfl : tx' = tx := Option.some.inj ((hextends.getElem?_eq hget').symm.trans hget)
    exact h.opened hfailed hopen tx' hget'

/-- A new loop covers what it must write if earlier loops have written what commits before its
start. -/
theorem covers_start {startLsn : PgLsn} {durableProgress : Option PgLsn}
    (hdurable : ∀ durable, durableProgress = some durable → durable ≤ startLsn)
    (hstart : startLsn ≤ wal.tip)
    (hprior : ∀ tx ∈ wal.txs, tx.commitLsn < startLsn → must tx.commitLsn →
      ∀ record ∈ tx.records, record.change.concerns tableId = true →
        Writes tableId prior tx.commitLsn record) :
    (Session.start startLsn durableProgress : Session ρ).Covers tableId wal
      (wal.cursorAt startLsn) prior must where
  toFollows := follows_start hdurable hstart
  behind tx htx hmust record hrecord hconcerns :=
    (hprior tx (mem_of_mem_take htx) (wal.lt_of_mem_take_cursorAt htx) hmust record hrecord
      hconcerns).mono (subset_append_left _ _)
  opened _ hopen := by simp [Session.start] at hopen

theorem Covers.change (h : s.Covers tableId wal cursor prior must) {must' : PgLsn → Prop}
    (hbehind : ∀ tx ∈ wal.txs.take cursor.next, must' tx.commitLsn → must tx.commitLsn)
    (hclosed : s.sender.openCommit = none ∨ ∀ commitLsn, must' commitLsn → must commitLsn) :
    s.Covers tableId wal cursor prior must' where
  toFollows := h.toFollows
  behind tx htx hmust := h.behind tx htx (hbehind tx htx hmust)
  opened hfailed hopen tx hget := by
    rcases hclosed with hclosed | hmust'
    · simp [hclosed] at hopen
    · obtain ⟨taken, hrecords, htaken⟩ := h.opened hfailed hopen tx hget
      exact ⟨taken, hrecords, fun hmust => htaken (hmust' _ hmust)⟩

end Session

end Etl
