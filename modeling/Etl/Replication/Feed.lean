import Etl.Replication.EventOrder
import Etl.Replication.ReportSafety
import Mathlib.Data.List.TakeWhile

/-! # What Postgres sends on a connection

The write-ahead log of the source, the position of a connection in it, and the messages
Postgres may send there. A connection resends every transaction that commits at or after its
start position, in commit order, and sends a position only after every transaction that
commits before it, apart from the open one. The second half says which event carries a
change of the log, and that a worker that owns the table produces one.
-/

namespace Etl

open List

variable {ρ : Type}

/-! ## The write-ahead log -/

/-- A change as the output plugin sends it. -/
inductive WalChange (ρ : Type) where
  | row (kind : RowKind) (relId : TableId) (image : ρ)
  | truncate (relIds : List TableId)
  deriving DecidableEq

def WalChange.concerns (tableId : TableId) : WalChange ρ → Bool
  | .row _ relId _ => relId = tableId
  | .truncate relIds => tableId ∈ relIds

/-- A change with its position. -/
structure WalRecord (ρ : Type) where
  lsn : PgLsn
  change : WalChange ρ
  deriving DecidableEq

/-- A committed transaction: the position and the end of its commit record, and its changes. -/
structure WalTx (ρ : Type) where
  commitLsn : PgLsn
  endLsn : PgLsn
  records : List (WalRecord ρ)

/-- The committed transactions in commit order and the end of the log. -/
structure Wal (ρ : Type) where
  txs : List (WalTx ρ)
  tip : PgLsn
  commit_lt : ∀ tx ∈ txs, tx.commitLsn < tx.endLsn
  end_le : ∀ tx ∈ txs, tx.endLsn ≤ tip
  ordered : txs.Pairwise fun tx tx' => tx.endLsn ≤ tx'.commitLsn

namespace Wal

/-- A log without transactions. -/
def empty (tip : PgLsn) : Wal ρ := ⟨[], tip, by simp, by simp, .nil⟩

/-- A transaction commits at the end of the log. -/
def commit (wal : Wal ρ) (tx : WalTx ρ) : Option (Wal ρ) :=
  if h : wal.tip ≤ tx.commitLsn ∧ tx.commitLsn < tx.endLsn then
    some
      { txs := wal.txs ++ [tx]
        tip := tx.endLsn
        commit_lt := by
          intro tx' htx'
          rcases mem_append.mp htx' with hmem | hmem
          · exact wal.commit_lt tx' hmem
          · rw [mem_singleton.mp hmem]
            exact h.2
        end_le := by
          intro tx' htx'
          rcases mem_append.mp htx' with hmem | hmem
          · exact le_trans (wal.end_le tx' hmem) (le_trans h.1 (Nat.le_of_lt h.2))
          · rw [mem_singleton.mp hmem]
        ordered := by
          refine pairwise_append.mpr ⟨wal.ordered, pairwise_singleton _ _, ?_⟩
          intro tx' htx' tx'' htx''
          rw [mem_singleton.mp htx'']
          exact le_trans (wal.end_le tx' htx') h.1 }
  else none

/-- The log grows by records of no transaction of ours. -/
def advance (wal : Wal ρ) (lsn : PgLsn) : Wal ρ where
  txs := wal.txs
  tip := max wal.tip lsn
  commit_lt := wal.commit_lt
  end_le tx htx := le_trans (wal.end_le tx htx) (le_max_left _ _)
  ordered := wal.ordered

end Wal

/-! ## The position of a connection -/

/-- How many transactions a connection has gone past, and the changes of the open transaction
that are still to come. -/
structure Cursor (ρ : Type) where
  next : ℕ
  rest : List (WalRecord ρ)

namespace Wal

/-- A connection starts with the first transaction that commits at or after its start. -/
def cursorAt (wal : Wal ρ) (startLsn : PgLsn) : Cursor ρ :=
  ⟨(wal.txs.takeWhile (·.commitLsn < startLsn)).length, []⟩

/-- A position may be sent if the transactions from an index on commit at or after it. -/
def AllowsEnd (wal : Wal ρ) (pending : ℕ) (walEnd : PgLsn) : Prop :=
  walEnd ≤ wal.tip ∧ ∀ tx ∈ wal.txs.drop pending, walEnd ≤ tx.commitLsn

instance (wal : Wal ρ) (pending : ℕ) (walEnd : PgLsn) : Decidable (wal.AllowsEnd pending walEnd) :=
  inferInstanceAs (Decidable (_ ∧ _))

/-- Sends the next change of the open transaction. -/
def deliverRecord [DecidableEq ρ] (wal : Wal ρ) (cursor : Cursor ρ) (openTx : Bool)
    (walEnd : PgLsn) (record : WalRecord ρ) : Option (Cursor ρ) :=
  match cursor.rest with
  | [] => none
  | expected :: rest =>
    if expected = record ∧ wal.AllowsEnd (cursor.next + openTx.toNat) walEnd then
      some { cursor with rest }
    else none

/-- Whether the message is the next one on a connection, and where the connection is then. -/
def deliver [DecidableEq ρ] (wal : Wal ρ) (cursor : Cursor ρ) (openTx : Bool)
    (message : ReplicationMessage ρ) : Option (Cursor ρ) :=
  match message with
  | .primaryKeepAlive walEnd _ =>
    if wal.AllowsEnd (cursor.next + openTx.toNat) walEnd then some cursor else none
  | .xLogData walStart walEnd data =>
    match data with
    | .begin finalLsn =>
      match wal.txs[cursor.next]? with
      | some tx =>
        if tx.commitLsn = finalLsn ∧ wal.AllowsEnd (cursor.next + 1) walEnd then
          some ⟨cursor.next, tx.records⟩
        else none
      | none => none
    | .commit commitLsn endLsn =>
      match wal.txs[cursor.next]?, cursor.rest with
      | some tx, [] =>
        if tx.commitLsn = commitLsn ∧ tx.endLsn = endLsn ∧
            wal.AllowsEnd (cursor.next + 1) walEnd then
          some ⟨cursor.next + 1, []⟩
        else none
      | _, _ => none
    | .row kind relId image =>
      wal.deliverRecord cursor openTx walEnd ⟨walStart, .row kind relId image⟩
    | .truncate relIds => wal.deliverRecord cursor openTx walEnd ⟨walStart, .truncate relIds⟩
    | _ => if wal.AllowsEnd (cursor.next + openTx.toNat) walEnd then some cursor else none

/-- Where the connection is after an input of the loop that reads it. -/
def follow [DecidableEq ρ] (wal : Wal ρ) (cursor : Cursor ρ) (openTx : Bool)
    (input : LoopInput ρ) : Option (Cursor ρ) :=
  match input with
  | .message message _ _ _ _ _ => wal.deliver cursor openTx message
  | _ => some cursor

end Wal

/-- The connection and the sender agree: what the connection has gone past commits below
everything sent, and what it has not reached commits above it. -/
structure Wal.Aligned (wal : Wal ρ) (w : WalSender) (cursor : Cursor ρ) : Prop where
  next_le : cursor.next ≤ wal.txs.length
  sent_le : w.sentUpTo ≤ wal.tip
  behind_lt : ∀ tx ∈ wal.txs.take cursor.next, tx.commitLsn < w.sentUpTo
  ahead_ge : ∀ tx ∈ wal.txs.drop (cursor.next + w.openCommit.isSome.toNat),
    w.sentUpTo ≤ tx.commitLsn
  open_eq : ∀ commitLsn, w.openCommit = some commitLsn →
    ∃ tx, wal.txs[cursor.next]? = some tx ∧ tx.commitLsn = commitLsn

namespace Wal

variable {wal : Wal ρ} {w w' : WalSender} {cursor cursor' : Cursor ρ} {n : ℕ} {tx : WalTx ρ}
  {walEnd : PgLsn} {openTx : Bool} {input : LoopInput ρ} {wal' : Wal ρ} {startLsn : PgLsn}

/-- Later transactions commit after earlier ones. -/
theorem end_le_of_drop {tx tx' : WalTx ρ} (hget : wal.txs[n]? = some tx)
    (hmem : tx' ∈ wal.txs.drop (n + 1)) : tx.endLsn ≤ tx'.commitLsn := by
  obtain ⟨hlt, hget⟩ := List.getElem?_eq_some_iff.mp hget
  have hordered := wal.ordered
  rw [← take_append_drop n wal.txs, drop_eq_getElem_cons hlt, hget] at hordered
  exact rel_of_pairwise_cons (pairwise_append.mp hordered).2.1 hmem

theorem end_le_of_take {tx tx' : WalTx ρ} (hget : wal.txs[n]? = some tx)
    (hmem : tx' ∈ wal.txs.take n) : tx'.endLsn ≤ tx.commitLsn := by
  obtain ⟨hlt, hget⟩ := List.getElem?_eq_some_iff.mp hget
  have hordered := wal.ordered
  rw [← take_append_drop n wal.txs, drop_eq_getElem_cons hlt, hget] at hordered
  exact (pairwise_append.mp hordered).2.2 tx' hmem tx (by simp)

theorem mem_take_succ {tx tx' : WalTx ρ} (hget : wal.txs[n]? = some tx)
    (hmem : tx' ∈ wal.txs.take (n + 1)) : tx' ∈ wal.txs.take n ∨ tx' = tx := by
  rw [take_add_one, hget] at hmem
  rcases mem_append.mp hmem with hmem | hmem
  · exact .inl hmem
  · exact .inr (by simpa using hmem)

theorem mem_take_of_getElem? (hget : wal.txs[n]? = some tx) :
    tx ∈ wal.txs.take (n + 1) := by
  rw [take_add_one, hget]
  simp

/-- What the connection has not gone past commits at or above the sender's ceiling. -/
theorem Aligned.ceiling_le (h : wal.Aligned w cursor) :
    ∀ tx ∈ wal.txs.drop cursor.next, w.ceiling ≤ tx.commitLsn := by
  intro tx htx
  unfold WalSender.ceiling
  cases hopen : w.openCommit with
  | none =>
    have hahead := h.ahead_ge tx
    rw [hopen] at hahead
    exact hahead htx
  | some commitLsn =>
    obtain ⟨first, hget, rfl⟩ := h.open_eq commitLsn hopen
    obtain ⟨hlt, hfirst⟩ := List.getElem?_eq_some_iff.mp hget
    rw [drop_eq_getElem_cons hlt, hfirst] at htx
    rcases mem_cons.mp htx with rfl | htx
    · exact le_rfl
    · exact le_trans (Nat.le_of_lt (wal.commit_lt first (mem_of_getElem? hget)))
        (end_le_of_drop hget htx)

/-- What commits below the ceiling, the connection has gone past. -/
theorem Aligned.mem_take_of_lt (h : wal.Aligned w cursor) (htx : tx ∈ wal.txs)
    (hlt : tx.commitLsn < w.ceiling) : tx ∈ wal.txs.take cursor.next := by
  rw [← take_append_drop cursor.next wal.txs] at htx
  rcases mem_append.mp htx with htx | htx
  · exact htx
  · exact absurd (h.ceiling_le tx htx) (not_le.mpr hlt)

theorem Aligned.ceiling_le_tip (h : wal.Aligned w cursor) : w.ceiling ≤ wal.tip := by
  unfold WalSender.ceiling
  cases hopen : w.openCommit with
  | none => exact h.sent_le
  | some commitLsn =>
    obtain ⟨tx, hget, rfl⟩ := h.open_eq commitLsn hopen
    have hmem := mem_of_getElem? hget
    exact le_trans (Nat.le_of_lt (wal.commit_lt tx hmem)) (wal.end_le tx hmem)

/-- A position that may be sent keeps everything but the open transaction's bookkeeping. -/
theorem Aligned.raise (h : wal.Aligned w cursor) {pending : ℕ}
    (hallows : wal.AllowsEnd pending walEnd)
    (hpending : cursor.next + w.openCommit.isSome.toNat ≤ pending) :
    max w.sentUpTo walEnd ≤ wal.tip ∧
      (∀ tx ∈ wal.txs.take cursor.next, tx.commitLsn < max w.sentUpTo walEnd) ∧
      ∀ tx ∈ wal.txs.drop pending, max w.sentUpTo walEnd ≤ tx.commitLsn := by
  refine ⟨max_le h.sent_le hallows.1, ?_, ?_⟩
  · intro tx htx
    exact lt_of_lt_of_le (h.behind_lt tx htx) (le_max_left _ _)
  · intro tx htx
    exact max_le (h.ahead_ge tx (drop_subset_drop_left wal.txs hpending htx))
      (hallows.2 tx htx)

/-- A message that neither begins nor commits keeps the alignment. -/
theorem Aligned.inner (h : wal.Aligned w cursor) {rest : List (WalRecord ρ)}
    (hallows : wal.AllowsEnd (cursor.next + w.openCommit.isSome.toNat) walEnd) :
    wal.Aligned ⟨max w.sentUpTo walEnd, w.openCommit⟩ ⟨cursor.next, rest⟩ := by
  obtain ⟨hsent, hbehind, hahead⟩ := h.raise hallows le_rfl
  exact ⟨h.next_le, hsent, hbehind, hahead, h.open_eq⟩

theorem deliverRecord_eq [DecidableEq ρ] {record : WalRecord ρ}
    (hdeliver : wal.deliverRecord cursor openTx walEnd record = some cursor') :
    ∃ rest, cursor.rest = record :: rest ∧ cursor' = ⟨cursor.next, rest⟩ ∧
      wal.AllowsEnd (cursor.next + openTx.toNat) walEnd := by
  unfold deliverRecord at hdeliver
  split at hdeliver
  · simp at hdeliver
  next expected rest hrest =>
    split_ifs at hdeliver with hexpected
    cases hdeliver
    exact ⟨rest, by rw [hrest, hexpected.1], rfl, hexpected.2⟩

/-- What a message of the output plugin does to the position of the connection. -/
theorem deliver_data [DecidableEq ρ] {walStart walEnd : PgLsn} {data : LogicalReplicationMessage ρ}
    (hdeliver : wal.deliver cursor openTx (.xLogData walStart walEnd data) = some cursor') :
    match data with
    | .begin finalLsn => ∃ tx, wal.txs[cursor.next]? = some tx ∧ tx.commitLsn = finalLsn ∧
        cursor' = ⟨cursor.next, tx.records⟩
    | .commit commitLsn endLsn => ∃ tx, wal.txs[cursor.next]? = some tx ∧
        tx.commitLsn = commitLsn ∧ tx.endLsn = endLsn ∧ cursor.rest = [] ∧
        cursor' = ⟨cursor.next + 1, []⟩
    | .row kind relId image => ∃ rest,
        cursor.rest = ⟨walStart, .row kind relId image⟩ :: rest ∧ cursor' = ⟨cursor.next, rest⟩
    | .truncate relIds => ∃ rest,
        cursor.rest = ⟨walStart, .truncate relIds⟩ :: rest ∧ cursor' = ⟨cursor.next, rest⟩
    | _ => cursor' = cursor := by
  cases data with
  | begin finalLsn =>
    simp only [Wal.deliver] at hdeliver
    split at hdeliver
    next tx hget =>
      split_ifs at hdeliver with htx
      exact ⟨tx, hget, htx.1, (Option.some.inj hdeliver).symm⟩
    · simp at hdeliver
  | commit commitLsn endLsn =>
    simp only [Wal.deliver] at hdeliver
    split at hdeliver
    next tx hget hrest =>
      split_ifs at hdeliver with htx
      exact ⟨tx, hget, htx.1, htx.2.1, hrest, (Option.some.inj hdeliver).symm⟩
    · simp at hdeliver
  | row kind relId image | truncate relIds =>
    obtain ⟨rest, hrest, heq, -⟩ := deliverRecord_eq hdeliver
    exact ⟨rest, hrest, heq⟩
  | _ =>
    simp only [Wal.deliver] at hdeliver
    split_ifs at hdeliver
    exact (Option.some.inj hdeliver).symm

theorem follow_eq [DecidableEq ρ] (hdata : input.data? = none)
    (hfollow : wal.follow cursor openTx input = some cursor') : cursor' = cursor := by
  cases input with
  | message message ans sizeHint batchSizeBytes writeEvents withinInterval =>
    cases message with
    | xLogData walStart walEnd data => simp [LoopInput.data?] at hdata
    | primaryKeepAlive walEnd replyRequested =>
      simp only [follow, Wal.deliver] at hfollow
      split_ifs at hfollow
      exact (Option.some.inj hfollow).symm
  | _ => exact (Option.some.inj hfollow).symm

/-- With a `COMMIT` the connection goes past the transaction it is at. -/
theorem follow_commit [DecidableEq ρ] {commitLsn endLsn : PgLsn}
    (hdata : input.data? = some (.commit commitLsn endLsn))
    (hfollow : wal.follow cursor openTx input = some cursor') :
    ∃ tx, wal.txs[cursor.next]? = some tx ∧ tx.commitLsn = commitLsn ∧
      cursor' = ⟨cursor.next + 1, []⟩ := by
  cases input with
  | message message ans sizeHint batchSizeBytes writeEvents withinInterval =>
    cases message with
    | primaryKeepAlive walEnd replyRequested => simp [LoopInput.data?] at hdata
    | xLogData walStart walEnd data =>
      cases hdata
      simp only [follow] at hfollow
      obtain ⟨tx, hget, hcommit, -, -, hcursor⟩ := deliver_data hfollow
      exact ⟨tx, hget, hcommit, hcursor⟩
  | _ => simp [LoopInput.data?] at hdata

/-- The connection goes past a transaction only with its `COMMIT`. -/
theorem follow_next [DecidableEq ρ] (hfollow : wal.follow cursor openTx input = some cursor') :
    cursor'.next = cursor.next ∨ ∃ tx, input.data? = some (.commit tx.commitLsn tx.endLsn) ∧
      wal.txs[cursor.next]? = some tx ∧ cursor.rest = [] ∧ cursor' = ⟨cursor.next + 1, []⟩ := by
  cases hdata : input.data? with
  | none => exact .inl (by rw [follow_eq hdata hfollow])
  | some data =>
    cases input with
    | message message ans sizeHint batchSizeBytes writeEvents withinInterval =>
      cases message with
      | primaryKeepAlive walEnd replyRequested => simp [LoopInput.data?] at hdata
      | xLogData walStart walEnd data' =>
        obtain rfl := Option.some.inj hdata
        have hdeliver := deliver_data hfollow
        cases data' with
        | begin finalLsn =>
          obtain ⟨tx, -, -, rfl⟩ := hdeliver
          exact .inl rfl
        | commit commitLsn endLsn =>
          obtain ⟨tx, hget, rfl, rfl, hrest, hcursor⟩ := hdeliver
          exact .inr ⟨tx, rfl, hget, hrest, hcursor⟩
        | row kind relId image | truncate relIds =>
          obtain ⟨rest, -, rfl⟩ := hdeliver
          exact .inl rfl
        | _ => exact .inl (congrArg Cursor.next hdeliver)
    | _ => simp [LoopInput.data?] at hdata

/-- Every message Postgres sends keeps the alignment. -/
theorem Aligned.deliver [DecidableEq ρ] (h : wal.Aligned w cursor)
    {message : ReplicationMessage ρ} (hsend : w.send message = some w')
    (hdeliver : wal.deliver cursor w.openCommit.isSome message = some cursor') :
    wal.Aligned w' cursor' := by
  cases message with
  | primaryKeepAlive walEnd replyRequested =>
    cases hsend
    simp only [Wal.deliver] at hdeliver
    split_ifs at hdeliver with hallows
    cases hdeliver
    exact h.inner hallows
  | xLogData walStart walEnd data =>
    simp only [WalSender.send] at hsend
    split_ifs at hsend
    cases data with
    | begin finalLsn =>
      simp only at hsend
      split_ifs at hsend with hfresh
      cases hsend
      simp only [Wal.deliver] at hdeliver
      split at hdeliver
      next tx hget =>
        split_ifs at hdeliver with htx
        cases hdeliver
        have hpending : cursor.next + w.openCommit.isSome.toNat ≤ cursor.next + 1 := by
          simp [hfresh.1]
        obtain ⟨hsent, hbehind, hahead⟩ := h.raise htx.2 hpending
        refine ⟨h.next_le, hsent, hbehind, hahead, ?_⟩
        intro commitLsn hopen
        exact ⟨tx, hget, htx.1.trans (Option.some.inj hopen)⟩
      · simp at hdeliver
    | commit commitLsn endLsn =>
      simp only at hsend
      split_ifs at hsend with hopen
      cases hsend
      simp only [Wal.deliver] at hdeliver
      split at hdeliver
      next tx hget hrest =>
        split_ifs at hdeliver with htx
        cases hdeliver
        have hpending : cursor.next + w.openCommit.isSome.toNat ≤ cursor.next + 1 := by
          simp [hopen.1]
        obtain ⟨hsent, hbehind, hahead⟩ := h.raise htx.2.2 hpending
        refine ⟨(List.getElem?_eq_some_iff.mp hget).1, hsent, ?_, hahead, by simp⟩
        intro tx' htx'
        rcases mem_take_succ hget htx' with htx' | rfl
        · exact hbehind tx' htx'
        · -- the message of a commit carries at least the end of its record
          have hlt := wal.commit_lt tx' (mem_of_getElem? hget)
          rw [htx.2.1] at hlt
          exact lt_of_lt_of_le hlt (le_trans hopen.2.2 (le_max_right _ _))
      · simp at hdeliver
    | row kind relId image | truncate relIds =>
      cases hsend
      obtain ⟨rest, -, rfl, hallows⟩ := deliverRecord_eq hdeliver
      exact h.inner hallows
    | _ =>
      cases hsend
      simp only [Wal.deliver] at hdeliver
      split_ifs at hdeliver with hallows
      cases hdeliver
      exact h.inner hallows

/-! ### Growth and connections -/

/-- The log has grown: new transactions commit after its old end. -/
structure Extends (wal wal' : Wal ρ) : Prop where
  txs_eq : ∃ more, wal'.txs = wal.txs ++ more ∧ ∀ tx ∈ more, wal.tip ≤ tx.commitLsn
  tip_le : wal.tip ≤ wal'.tip

theorem extends_commit (hcommit : wal.commit tx = some wal') :
    wal.Extends wal' := by
  unfold commit at hcommit
  split_ifs at hcommit with htx
  cases hcommit
  refine ⟨⟨[tx], rfl, ?_⟩, le_trans htx.1 (Nat.le_of_lt htx.2)⟩
  intro tx' htx'
  rw [mem_singleton.mp htx']
  exact htx.1

theorem extends_advance (wal : Wal ρ) (lsn : PgLsn) : wal.Extends (wal.advance lsn) :=
  ⟨⟨[], by simp [advance], by simp⟩, le_max_left _ _⟩

namespace Extends

variable {wal' : Wal ρ} {tx : WalTx ρ} {n : ℕ}

theorem refl (wal : Wal ρ) : wal.Extends wal := ⟨⟨[], by simp, by simp⟩, le_rfl⟩

theorem mem_of_lt (h : wal.Extends wal') (htx : tx ∈ wal'.txs) (hlt : tx.commitLsn < wal.tip) :
    tx ∈ wal.txs := by
  obtain ⟨more, heq, hmore⟩ := h.txs_eq
  rw [heq] at htx
  rcases mem_append.mp htx with htx | htx
  · exact htx
  · exact absurd (hmore tx htx) (not_le.mpr hlt)

theorem subset (h : wal.Extends wal') : wal.txs ⊆ wal'.txs := by
  obtain ⟨more, heq, -⟩ := h.txs_eq
  rw [heq]
  exact subset_append_left _ _

theorem take_eq (h : wal.Extends wal') (hn : n ≤ wal.txs.length) :
    wal'.txs.take n = wal.txs.take n := by
  obtain ⟨more, heq, -⟩ := h.txs_eq
  rw [heq, take_append_of_le_length hn]

theorem getElem?_eq (h : wal.Extends wal') (hget : wal.txs[n]? = some tx) :
    wal'.txs[n]? = some tx := by
  obtain ⟨more, heq, -⟩ := h.txs_eq
  obtain ⟨hlt, -⟩ := List.getElem?_eq_some_iff.mp hget
  rw [heq, List.getElem?_append_left hlt]
  exact hget

end Extends

theorem Aligned.extend (h : wal.Aligned w cursor) (hextends : wal.Extends wal') :
    wal'.Aligned w cursor := by
  obtain ⟨more, heq, hmore⟩ := hextends.txs_eq
  refine ⟨?_, le_trans h.sent_le hextends.tip_le, ?_, ?_, ?_⟩
  · rw [heq, length_append]
    exact le_trans h.next_le (Nat.le_add_right _ _)
  · rw [hextends.take_eq h.next_le]
    exact h.behind_lt
  · intro tx htx
    rw [heq, drop_append] at htx
    rcases mem_append.mp htx with htx | htx
    · exact h.ahead_ge tx htx
    · exact le_trans h.sent_le (hmore tx (mem_of_mem_drop htx))
  · intro commitLsn hopen
    obtain ⟨tx, hget, htx⟩ := h.open_eq commitLsn hopen
    exact ⟨tx, hextends.getElem?_eq hget, htx⟩

theorem take_cursorAt (wal : Wal ρ) (startLsn : PgLsn) :
    wal.txs.take (wal.cursorAt startLsn).next = wal.txs.takeWhile (·.commitLsn < startLsn) := by
  have hsplit := takeWhile_append_dropWhile (p := (·.commitLsn < startLsn)) (l := wal.txs)
  conv_lhs => rw [← hsplit]
  exact take_left

theorem drop_cursorAt (wal : Wal ρ) (startLsn : PgLsn) :
    wal.txs.drop (wal.cursorAt startLsn).next = wal.txs.dropWhile (·.commitLsn < startLsn) := by
  have hsplit := takeWhile_append_dropWhile (p := (·.commitLsn < startLsn)) (l := wal.txs)
  conv_lhs => rw [← hsplit]
  exact drop_left

/-- In commit order, everything after the skipped transactions commits at or after the
start. -/
theorem le_of_mem_dropWhile (startLsn : PgLsn) {txs : List (WalTx ρ)}
    (hordered : txs.Pairwise fun tx tx' => tx.commitLsn ≤ tx'.commitLsn) :
    ∀ tx ∈ txs.dropWhile (·.commitLsn < startLsn), startLsn ≤ tx.commitLsn := by
  induction txs with
  | nil => simp
  | cons first txs ih =>
    obtain ⟨hfirst, hrest⟩ := pairwise_cons.mp hordered
    intro tx htx
    by_cases hskip : first.commitLsn < startLsn
    · rw [dropWhile_cons_of_pos (by simpa using hskip)] at htx
      exact ih hrest tx htx
    · rw [dropWhile_cons_of_neg (by simpa using hskip)] at htx
      rcases mem_cons.mp htx with rfl | htx
      · exact not_lt.mp hskip
      · exact le_trans (not_lt.mp hskip) (hfirst tx htx)

theorem commitLsn_ordered (wal : Wal ρ) :
    wal.txs.Pairwise fun tx tx' => tx.commitLsn ≤ tx'.commitLsn :=
  List.Pairwise.imp_of_mem (fun htx _ hle => le_trans (Nat.le_of_lt (wal.commit_lt _ htx)) hle)
    wal.ordered

theorem aligned_cursorAt (wal : Wal ρ) (hstart : startLsn ≤ wal.tip) :
    wal.Aligned ⟨startLsn, none⟩ (wal.cursorAt startLsn) := by
  refine ⟨( takeWhile_prefix _).length_le, hstart, ?_, ?_, by simp⟩
  · rw [take_cursorAt]
    intro tx htx
    simpa using mem_takeWhile_imp htx
  · simp only [Option.isSome_none, Bool.toNat_false, Nat.add_zero]
    rw [drop_cursorAt]
    exact le_of_mem_dropWhile startLsn wal.commitLsn_ordered

theorem lt_of_mem_take_cursorAt (wal : Wal ρ) (htx : tx ∈ wal.txs.take (wal.cursorAt startLsn).next) :
    tx.commitLsn < startLsn := by
  rw [take_cursorAt] at htx
  simpa using mem_takeWhile_imp htx

end Wal

end Etl
