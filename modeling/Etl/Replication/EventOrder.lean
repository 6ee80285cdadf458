import Etl.Replication.LoopSteps

/-! # Sequence keys

Destinations order and deduplicate events by commit position and ordinal. The ordinal of an
event is the number of ordinal-consuming messages of its transaction handled before it, so
within a connection keys increase strictly until the counter saturates. Across connections
they agree exactly when as many `RELATION` messages came before the change: those consume
ordinals too, but Postgres sends them once per connection.

Reference: `etl/src/replication/apply.rs` (`next_tx_ordinal`) and `etl/src/types/event.rs`
(`EventSequenceKey`).
-/

namespace Etl

open List LogicalReplicationMessage

variable {ρ : Type}

/-! ## The open transaction on the wire -/

/-- Whether the message is sent once per connection and not once per transaction. -/
def LogicalReplicationMessage.isMetadata : LogicalReplicationMessage ρ → Bool
  | .relation _ _ | .type => true
  | _ => false

def LogicalReplicationMessage.isRelation : LogicalReplicationMessage ρ → Bool
  | .relation _ _ => true
  | _ => false

/-- The messages of the last begun transaction, after one more input. -/
def extendTransaction (messages : List (LogicalReplicationMessage ρ)) (input : LoopInput ρ) :
    List (LogicalReplicationMessage ρ) :=
  match input.data? with
  | none | some (.commit _ _) => messages
  | some (.begin finalLsn) => [.begin finalLsn]
  | some data => messages ++ [data]

/-- The messages of the last begun transaction, from `BEGIN` on and without `COMMIT`. -/
def lastTransaction (inputs : List (LoopInput ρ)) : List (LogicalReplicationMessage ρ) :=
  inputs.foldl extendTransaction []

theorem lastTransaction_concat (inputs : List (LoopInput ρ)) (input : LoopInput ρ) :
    lastTransaction (inputs ++ [input]) = extendTransaction (lastTransaction inputs) input := by
  simp [lastTransaction]

/-- The part of a transaction that every connection delivers alike. -/
def sourceMessages (messages : List (LogicalReplicationMessage ρ)) :
    List (LogicalReplicationMessage ρ) :=
  messages.filter (!·.isMetadata)

def ordinalsTaken (messages : List (LogicalReplicationMessage ρ)) : ℕ :=
  messages.countP (·.consumesOrdinal)

def relationsAnnounced (messages : List (LogicalReplicationMessage ρ)) : ℕ :=
  messages.countP (·.isRelation)

/-- Only relation messages take ordinals beyond those of the source's messages. -/
theorem ordinalsTaken_eq (messages : List (LogicalReplicationMessage ρ)) :
    ordinalsTaken messages
      = ordinalsTaken (sourceMessages messages) + relationsAnnounced messages := by
  induction messages with
  | nil => rfl
  | cons message messages ih =>
    have hmetadata : message.isMetadata = true → message.consumesOrdinal = message.isRelation := by
      cases message <;> simp [isMetadata,
        consumesOrdinal, isRelation]
    have hsource : message.isMetadata = false → message.isRelation = false := by
      cases message <;> simp [isMetadata,
        isRelation]
    simp only [ordinalsTaken, sourceMessages, relationsAnnounced, countP_cons, filter_cons] at ih ⊢
    cases hcase : message.isMetadata with
    | true =>
      rw [hmetadata hcase]
      simp only [Bool.not_true, Bool.false_eq_true, if_false]
      omega
    | false =>
      rw [hsource hcase]
      simp only [Bool.not_false, if_true, Bool.false_eq_true, if_false, countP_cons]
      omega

/-! ## The order of events -/

/-- The key of the first event is smaller, or the counter of their transaction has reached
its maximum. -/
def Event.Precedes (e e' : Event ρ) : Prop :=
  e.commitLsn < e'.commitLsn ∨ e.commitLsn = e'.commitLsn ∧
    (e.txOrdinal < e'.txOrdinal ∨ e.txOrdinal = u64Max ∧ e'.txOrdinal = u64Max)

/-- Events in order share a key only after saturation. -/
theorem Event.Precedes.key_eq_iff {e e' : Event ρ} (h : e.Precedes e') :
    e.eventSequenceKey = e'.eventSequenceKey ↔
      e.commitLsn = e'.commitLsn ∧ e.txOrdinal = u64Max ∧ e'.txOrdinal = u64Max := by
  simp only [Event.eventSequenceKey, EventSequenceKey.mk.injEq]
  constructor
  · rintro ⟨hcommit, hordinal⟩
    rcases h with hlt | ⟨-, hlt | hmax⟩
    · exact absurd hcommit (ne_of_lt hlt)
    · exact absurd hordinal (ne_of_lt hlt)
    · exact ⟨hcommit, hmax⟩
  · rintro ⟨hcommit, hmax, hmax'⟩
    exact ⟨hcommit, hmax.trans hmax'.symm⟩

namespace Session

def producedEvents (s : Session ρ) : List (Event ρ) :=
  s.delivered.flatMap (·.events) ++ s.openEvents

/-- What holds while a transaction is open: the counter counts its messages, and its events
lie between those of earlier transactions and the counter. -/
structure OpenTx (s : Session ρ) (messages : List (LogicalReplicationMessage ρ))
    (commitLsn : PgLsn) : Prop where
  head_eq : messages.head? = some (.begin commitLsn)
  ordinal_eq : s.state.nextTxOrdinal = min u64Max (ordinalsTaken messages)
  open_lt : ∀ e ∈ s.openEvents, e.commitLsn = commitLsn ∧
    (e.txOrdinal < s.state.nextTxOrdinal ∨
      e.txOrdinal = u64Max ∧ s.state.nextTxOrdinal = u64Max)
  delivered_lt : ∀ tx ∈ s.delivered, ∀ e ∈ tx.events, e.commitLsn < commitLsn

/-- What holds between transactions. -/
structure ClosedTx (s : Session ρ) : Prop where
  open_eq : s.openEvents = []
  delivered_lt : ∀ tx ∈ s.delivered, ∀ e ∈ tx.events, e.commitLsn < s.sender.sentUpTo

/-- The ordering invariant at a plain point: loop and Postgres agree on whether a transaction
is open. -/
structure PlainTx (s : Session ρ) (messages : List (LogicalReplicationMessage ρ)) : Prop where
  openCommit_eq : s.sender.openCommit = s.state.remoteFinalLsn
  openTx : ∀ commitLsn, s.state.remoteFinalLsn = some commitLsn → s.OpenTx messages commitLsn
  closedTx : s.state.remoteFinalLsn = none → s.ClosedTx

/-- The ordering invariant while the commit hook runs: both sides have closed the
transaction. -/
structure CommitTx (s : Session ρ) (messages : List (LogicalReplicationMessage ρ))
    (commitLsn : PgLsn) : Prop where
  openCommit_eq : s.sender.openCommit = none
  remoteFinalLsn_eq : s.state.remoteFinalLsn = none
  openTx : s.OpenTx messages commitLsn
  commit_lt : commitLsn < s.sender.sentUpTo

/-- The ordering invariant, with the messages of the last transaction. -/
structure Ordered (s : Session ρ) (messages : List (LogicalReplicationMessage ρ)) : Prop where
  produced : s.producedEvents.Pairwise Event.Precedes
  plain : s.point.isPlain = true → s.PlainTx messages
  inCommit : ∀ startLsn commitLsn endLsn, s.point = .inCommit startLsn commitLsn endLsn →
    s.CommitTx messages commitLsn

variable {s s' : Session ρ} {messages : List (LogicalReplicationMessage ρ)} {n : ℕ}
  {st : ApplyLoopState ρ} {data : LogicalReplicationMessage ρ} {result : HandleMessageResult ρ}

theorem Ordered.of_failed {error : EtlError} (hpoint : s.point = .failed error)
    (h : s.producedEvents.Pairwise Event.Precedes) : s.Ordered messages where
  produced := h
  plain hplain := by simp [hpoint, LoopPoint.isPlain] at hplain
  inCommit _ _ _ hin := by simp [hpoint] at hin

theorem Ordered.of_plain (hpoint : s.point.isPlain = true)
    (h : s.producedEvents.Pairwise Event.Precedes) (hplain : s.PlainTx messages) :
    s.Ordered messages where
  produced := h
  plain _ := hplain
  inCommit _ _ _ hin := by simp [hin, LoopPoint.isPlain] at hpoint

theorem PlainTx.congr (h : s.PlainTx messages) (hsame : s.SameTx s') :
    s'.PlainTx messages := by
  obtain ⟨hfinal, hordinal, hopen, hdelivered, hopenCommit, hsent⟩ := hsame
  refine ⟨?_, ?_, ?_⟩
  · rw [hopenCommit, hfinal]
    exact h.openCommit_eq
  · intro commitLsn hcommit
    rw [hfinal] at hcommit
    obtain ⟨h₁, h₂, h₃, h₄⟩ := h.openTx commitLsn hcommit
    exact ⟨h₁, hordinal ▸ h₂, hordinal ▸ hopen ▸ h₃, hdelivered ▸ h₄⟩
  · intro hnone
    rw [hfinal] at hnone
    obtain ⟨h₁, h₂⟩ := h.closedTx hnone
    refine ⟨hopen ▸ h₁, ?_⟩
    intro tx htx e he
    exact lt_of_lt_of_le (h₂ tx (hdelivered ▸ htx) e he) hsent

/-- One more event in order. -/
theorem pairwise_concat {events : List (Event ρ)} {event : Event ρ}
    (h : events.Pairwise Event.Precedes) (hlast : ∀ e ∈ events, e.Precedes event) :
    (events ++ [event]).Pairwise Event.Precedes := by
  refine pairwise_append.mpr ⟨h, pairwise_singleton _ _, ?_⟩
  intro e he event' hevent'
  rw [mem_singleton.mp hevent']
  exact hlast e he

theorem OpenTx.precedes {commitLsn : PgLsn} (h : s.OpenTx messages commitLsn) {event : Event ρ}
    (hcommit : event.commitLsn = commitLsn) (hordinal : event.txOrdinal = s.state.nextTxOrdinal) :
    ∀ e ∈ s.producedEvents, e.Precedes event := by
  intro e he
  rcases mem_append.mp he with he | he
  · obtain ⟨tx, htx, he⟩ := mem_flatMap.mp he
    exact .inl (hcommit ▸ h.delivered_lt tx htx e he)
  · obtain ⟨heq, hlt⟩ := h.open_lt e he
    refine .inr ⟨heq.trans hcommit.symm, ?_⟩
    rw [hordinal]
    exact hlt

/-- Taking an ordinal keeps earlier ordinals below the counter. -/
theorem ordinal_lt_takeTxOrdinal (hle : st.nextTxOrdinal ≤ u64Max) (h : n ≤ st.nextTxOrdinal) :
    n < st.takeTxOrdinal.2.nextTxOrdinal ∨
      n = u64Max ∧ st.takeTxOrdinal.2.nextTxOrdinal = u64Max := by
  simp only [ApplyLoopState.takeTxOrdinal]
  split_ifs <;> omega

theorem takeTxOrdinal_eq_min (h : st.nextTxOrdinal = min u64Max n) :
    st.takeTxOrdinal.2.nextTxOrdinal = min u64Max (n + 1) := by
  simp only [ApplyLoopState.takeTxOrdinal]
  split_ifs <;> omega

/-! ## Steps -/

/-- `BEGIN` opens a transaction that commits after everything delivered. -/
theorem ordered_begin {walStart walEnd finalLsn : PgLsn} (h : s.PlainTx messages)
    (hproduced : s.producedEvents.Pairwise Event.Precedes)
    (hsend : s.sender.send (ρ := ρ) (.xLogData walStart walEnd (.begin finalLsn))
      = some s'.sender)
    (hopen : s'.openEvents = s.openEvents ++ [⟨walStart, finalLsn, 0, .begin⟩])
    (hdelivered : s'.delivered = s.delivered)
    (hpoint : (∃ error, s'.point = .failed error) ∨ s'.point = .epilogue ∧
      s'.state.remoteFinalLsn = some finalLsn ∧ s'.state.nextTxOrdinal = 1) :
    s'.Ordered [.begin finalLsn] := by
  simp only [WalSender.send] at hsend
  split_ifs at hsend with horder hfresh
  obtain ⟨hclosed, hle⟩ := hfresh
  have hsender := Option.some.inj hsend
  obtain ⟨hnone, hlt⟩ := h.closedTx (h.openCommit_eq.symm.trans hclosed)
  have hlt' : ∀ tx ∈ s.delivered, ∀ e ∈ tx.events, e.commitLsn < finalLsn :=
    fun tx htx e he => lt_of_lt_of_le (hlt tx htx e he) hle
  have hordered : s'.producedEvents.Pairwise Event.Precedes := by
    have heq : s'.producedEvents = s.producedEvents ++ [⟨walStart, finalLsn, 0, .begin⟩] := by
      simp [producedEvents, hopen, hdelivered]
    rw [heq]
    refine pairwise_concat hproduced ?_
    intro e he
    rw [producedEvents, hnone, append_nil] at he
    obtain ⟨tx, htx, he⟩ := mem_flatMap.mp he
    exact .inl (hlt' tx htx e he)
  rcases hpoint with ⟨error, hfailed⟩ | ⟨hepilogue, hfinal, hordinal⟩
  · exact .of_failed hfailed hordered
  · refine .of_plain (by rw [hepilogue]; rfl) hordered ⟨?_, ?_, ?_⟩
    · rw [← hsender, hfinal]
    · intro commitLsn hcommit
      cases hfinal.symm.trans hcommit
      refine ⟨rfl, ?_, ?_, hdelivered ▸ hlt'⟩
      · rw [hordinal]
        rfl
      · intro e he
        rw [hopen, hnone] at he
        obtain rfl := mem_singleton.mp he
        exact ⟨rfl, .inl (by rw [hordinal]; exact Nat.zero_lt_one)⟩
    · intro hnone'
      rw [hfinal] at hnone'
      simp at hnone'

/-- An inner message of an open transaction takes an ordinal or not, and its event comes
last. -/
theorem OpenTx.inner {commitLsn startLsn : PgLsn} (h : s.OpenTx messages commitLsn)
    {st state : ApplyLoopState ρ}
    (houtcome : InnerOutcome startLsn data.consumesOrdinal st state result)
    (hst : st.nextTxOrdinal = s.state.nextTxOrdinal ∧ st.remoteFinalLsn = some commitLsn)
    (hopen : s'.openEvents = s.openEvents ++ result.event.toList)
    (hdelivered : s'.delivered = s.delivered)
    (hordinal : s'.state.nextTxOrdinal = state.nextTxOrdinal) :
    s'.OpenTx (messages ++ [data]) commitLsn := by
  have hle : st.nextTxOrdinal ≤ u64Max := by
    rw [hst.1, h.ordinal_eq]
    exact min_le_left _ _
  refine ⟨?_, ?_, ?_, hdelivered ▸ h.delivered_lt⟩
  · have hhead := h.head_eq
    cases messages with
    | nil => simp at hhead
    | cons message messages => simpa using hhead
  · rw [hordinal, houtcome.state_eq, ordinalsTaken, countP_append, countP_singleton]
    cases data.consumesOrdinal with
    | true => exact takeTxOrdinal_eq_min (hst.1.trans h.ordinal_eq)
    | false => exact hst.1.trans h.ordinal_eq
  · intro e he
    rw [hopen] at he
    rw [hordinal, houtcome.state_eq]
    rcases mem_append.mp he with he | he
    · obtain ⟨hcommit, hlt⟩ := h.open_lt e he
      refine ⟨hcommit, ?_⟩
      rw [← hst.1] at hlt
      cases data.consumesOrdinal with
      | false => exact hlt
      | true =>
        refine ordinal_lt_takeTxOrdinal hle ?_
        omega
    · obtain ⟨hconsumes, hcommit, -, htaken⟩ :=
        houtcome.event_open e (Option.mem_toList.mp he)
      rw [hconsumes]
      refine ⟨Option.some.inj (hcommit.symm.trans hst.2), ?_⟩
      exact ordinal_lt_takeTxOrdinal hle (le_of_eq htaken)

theorem ordered_inner {walStart walEnd : PgLsn} (h : s.PlainTx messages)
    (hproduced : s.producedEvents.Pairwise Event.Precedes) (hinner : data.isInner = true)
    {progress : ReplicationProgress} {state : ApplyLoopState ρ}
    (hsend : s.sender.send (.xLogData walStart walEnd data) = some s'.sender)
    (houtcome : InnerOutcome walStart data.consumesOrdinal
      { s.state with replicationProgress := progress } state result)
    (hopen : s'.openEvents = s.openEvents ++ result.event.toList)
    (hdelivered : s'.delivered = s.delivered)
    (hpoint : (∃ error, s'.point = .failed error) ∨ s'.point = .epilogue ∧
      s'.state.remoteFinalLsn = state.remoteFinalLsn ∧
      s'.state.nextTxOrdinal = state.nextTxOrdinal) :
    s'.Ordered (messages ++ [data]) := by
  have hsender : s'.sender.openCommit = s.sender.openCommit := by
    simp only [WalSender.send] at hsend
    split_ifs at hsend
    cases data <;> simp_all [isInner] <;> simp [← hsend]
  obtain ⟨ordinal, hstate⟩ := houtcome.exists_ordinal
  have hordered : s'.producedEvents.Pairwise Event.Precedes := by
    have heq : s'.producedEvents = s.producedEvents ++ result.event.toList := by
      simp [producedEvents, hopen, hdelivered]
    rw [heq]
    cases hevent : result.event with
    | none => simpa using hproduced
    | some event =>
      obtain ⟨-, hcommit, -, htaken⟩ := houtcome.event_open event hevent
      exact pairwise_concat hproduced ((h.openTx event.commitLsn hcommit).precedes rfl htaken)
  rcases hpoint with ⟨error, hfailed⟩ | ⟨hepilogue, hfinal, hordinal⟩
  · exact .of_failed hfailed hordered
  have hfinal' : s'.state.remoteFinalLsn = s.state.remoteFinalLsn := by
    rw [hfinal, hstate]
  refine .of_plain (by rw [hepilogue]; rfl) hordered ⟨?_, ?_, ?_⟩
  · rw [hsender, hfinal']
    exact h.openCommit_eq
  · intro commitLsn hcommit
    rw [hfinal'] at hcommit
    exact (h.openTx commitLsn hcommit).inner houtcome ⟨rfl, hcommit⟩ hopen hdelivered hordinal
  · intro hnone
    rw [hfinal'] at hnone
    obtain ⟨hempty, hlt⟩ := h.closedTx hnone
    -- outside of a transaction an inner message yields no event
    have hevent : result.event = none := by
      cases hevent : result.event with
      | none => rfl
      | some event =>
        obtain ⟨-, hcommit, -⟩ := houtcome.event_open event hevent
        simp [hnone] at hcommit
    refine ⟨by rw [hopen, hempty, hevent]; rfl, ?_⟩
    intro tx htx e he
    exact lt_of_lt_of_le (hlt tx (hdelivered ▸ htx) e he) (WalSender.sentUpTo_le hsend)

/-- `COMMIT` closes the transaction on both sides. -/
theorem commitTx_of_commitBegun {walStart walEnd commitLsn endLsn : PgLsn}
    (h : s.PlainTx messages)
    (hsend : s.sender.send (ρ := ρ) (.xLogData walStart walEnd (.commit commitLsn endLsn))
      = some s'.sender)
    (hfinal : s.state.remoteFinalLsn = some commitLsn) (hfinal' : s'.state.remoteFinalLsn = none)
    (hordinal : s'.state.nextTxOrdinal = s.state.nextTxOrdinal)
    (hopen : s'.openEvents = s.openEvents) (hdelivered : s'.delivered = s.delivered) :
    s'.CommitTx messages commitLsn := by
  simp only [WalSender.send] at hsend
  split_ifs at hsend with horder hcommit
  have hsender := Option.some.inj hsend
  obtain ⟨h₁, h₂, h₃, h₄⟩ := h.openTx commitLsn hfinal
  refine ⟨by rw [← hsender], hfinal',
    ⟨h₁, hordinal ▸ h₂, hordinal ▸ hopen ▸ h₃, hdelivered ▸ h₄⟩, ?_⟩
  calc commitLsn < endLsn := hcommit.2.1
    _ ≤ walEnd := hcommit.2.2
    _ ≤ max s.sender.sentUpTo walEnd := le_max_right _ _
    _ = s'.sender.sentUpTo := by rw [← hsender]

/-- The commit event is the last of its transaction. -/
theorem ordered_commitEnded {startLsn commitLsn endLsn : PgLsn}
    (h : s.CommitTx messages commitLsn)
    (hproduced : s.producedEvents.Pairwise Event.Precedes)
    (hdelivered : s'.delivered = s.delivered ++ [⟨commitLsn, endLsn, s.openEvents ++
      [⟨startLsn, commitLsn, s.state.nextTxOrdinal, .commit endLsn⟩]⟩])
    (hopen : s'.openEvents = []) (hsender : s'.sender = s.sender)
    (hpoint : (∃ error, s'.point = .failed error) ∨ s'.point = .epilogue ∧
      s'.state.remoteFinalLsn = s.state.remoteFinalLsn) :
    s'.Ordered messages := by
  have hordered : s'.producedEvents.Pairwise Event.Precedes := by
    have heq : s'.producedEvents = s.producedEvents ++
        [⟨startLsn, commitLsn, s.state.nextTxOrdinal, .commit endLsn⟩] := by
      simp [producedEvents, hopen, hdelivered]
    rw [heq]
    exact pairwise_concat hproduced (h.openTx.precedes rfl rfl)
  rcases hpoint with ⟨error, hfailed⟩ | ⟨hepilogue, hfinal⟩
  · exact .of_failed hfailed hordered
  refine .of_plain (by rw [hepilogue]; rfl) hordered ⟨?_, ?_, ?_⟩
  · rw [hsender, hfinal, h.remoteFinalLsn_eq]
    exact h.openCommit_eq
  · intro commitLsn' hcommit
    rw [hfinal, h.remoteFinalLsn_eq] at hcommit
    simp at hcommit
  · intro _
    refine ⟨hopen, ?_⟩
    intro tx htx e he
    rw [hsender]
    rw [hdelivered] at htx
    rcases mem_append.mp htx with htx | htx
    · exact lt_trans (h.openTx.delivered_lt tx htx e he) h.commit_lt
    · obtain rfl := mem_singleton.mp htx
      have hcommit : e.commitLsn = commitLsn := by
        rcases mem_append.mp he with he | he
        · exact (h.openTx.open_lt e he).1
        · rw [mem_singleton.mp he]
      rw [hcommit]
      exact h.commit_lt

theorem ordered_txStep {input : LoopInput ρ} (h : s.Ordered messages)
    (hstep : s.TxStep input s') : s'.Ordered (extendTransaction messages input) := by
  cases hstep with
  | quiet hinput hsame hplain hplain' =>
    have hmessages : extendTransaction messages input = messages := by
      simp [extendTransaction, hinput]
    rw [hmessages]
    refine .of_plain hplain' ?_ ((h.plain hplain).congr hsame)
    rw [producedEvents, hsame.delivered_eq, hsame.openEvents_eq]
    exact h.produced
  | failed hpoint hopen hdelivered =>
    refine .of_failed hpoint ?_
    rw [producedEvents, hdelivered, hopen]
    exact h.produced
  | handled progress state result hselect hdata hsend hhandle hopen hdelivered hpoint =>
    have hplain := h.plain (by rw [hselect]; rfl)
    rename_i data _ _ _ _ _
    cases data with
    | begin finalLsn =>
      cases hhandle
      exact ordered_begin hplain h.produced hsend hopen hdelivered hpoint
    | commit commitLsn endLsn => exact absurd rfl (hdata commitLsn endLsn)
    | _ =>
      exact ordered_inner hplain h.produced rfl hsend
        (handleLogicalReplicationMessage_outcome rfl hhandle) hopen hdelivered hpoint
  | commitBegun hselect hsend hfinal hpoint hfinal' hordinal hopen hdelivered =>
    have hcommit := commitTx_of_commitBegun (h.plain (by rw [hselect]; rfl)) hsend hfinal hfinal'
      hordinal hopen hdelivered
    refine ⟨?_, ?_, ?_⟩
    · rw [producedEvents, hdelivered, hopen]
      exact h.produced
    · intro hplain
      rw [hpoint] at hplain
      simp [LoopPoint.isPlain] at hplain
    · intro startLsn' commitLsn' endLsn' hin
      rw [hpoint] at hin
      obtain ⟨rfl, rfl, rfl⟩ := LoopPoint.inCommit.inj hin
      exact hcommit
  | commitEnded hpoint hdelivered hopen hsender hpoint' =>
    exact ordered_commitEnded (h.inCommit _ _ _ hpoint) h.produced hdelivered hopen hsender hpoint'

theorem ordered_start (startLsn : PgLsn) (durableProgress : Option PgLsn) :
    (Session.start startLsn durableProgress : Session ρ).Ordered [] := by
  refine .of_plain rfl List.Pairwise.nil ⟨rfl, ?_, ?_⟩
  · intro commitLsn hcommit
    simp [Session.start, ApplyLoopState.new] at hcommit
  · intro _
    exact ⟨rfl, by simp [Session.start]⟩

end Session

theorem ordered_of_run {start s : Session ρ} {inputs : List (LoopInput ρ)}
    (hinit : (applyLoopMachine ρ).init start)
    (hrun : (applyLoopMachine ρ).run start inputs = some s) :
    s.Ordered (lastTransaction inputs) := by
  obtain ⟨startLsn, durableProgress, -, rfl⟩ := hinit
  refine Machine.run_invariant (I := fun inputs s => s.Ordered (lastTransaction inputs))
    (Session.ordered_start startLsn durableProgress) ?_ hrun
  intro inputs s input s' h hnext
  rw [lastTransaction_concat]
  exact Session.ordered_txStep h (Session.txStep_of_next hnext)

theorem exists_ordered {s : Session ρ} (h : (applyLoopMachine ρ).Reachable s) :
    ∃ messages, s.Ordered messages := by
  refine h.invariant (I := fun s => ∃ messages, s.Ordered messages) ?_ ?_
  · rintro s ⟨startLsn, durableProgress, -, rfl⟩
    exact ⟨_, Session.ordered_start startLsn durableProgress⟩
  · rintro s input s' ⟨messages, hordered⟩ hnext
    exact ⟨_, Session.ordered_txStep hordered (Session.txStep_of_next hnext)⟩

/-! ## Two deliveries of a change -/

/-- After the inputs, a connection delivers the row change and produces the event for it. -/
def Delivers (inputs : List (LoopInput ρ)) (kind : RowKind) (relId : TableId) (image : ρ)
    (s' : Session ρ) (event : Event ρ) : Prop :=
  ∃ start s walStart walEnd ans sizeHint batchSizeBytes writeEvents withinInterval,
    (applyLoopMachine ρ).init start ∧ (applyLoopMachine ρ).run start inputs = some s ∧
      s.next (.message (.xLogData walStart walEnd (.row kind relId image)) ans sizeHint
        batchSizeBytes writeEvents withinInterval) = some s' ∧
      s'.openEvents = s.openEvents ++ [event]

variable {inputs inputs' : List (LoopInput ρ)} {kind : RowKind} {relId : TableId} {image : ρ}
  {s s' : Session ρ} {event event' : Event ρ}

/-- The key of a delivered row: the commit position from `BEGIN` and the number of ordinals
taken before it. -/
theorem Delivers.key (h : Delivers inputs kind relId image s event) :
    (lastTransaction inputs).head? = some (.begin event.commitLsn) ∧
      event.txOrdinal = min u64Max (ordinalsTaken (lastTransaction inputs)) := by
  obtain ⟨start, s₀, walStart, walEnd, ans, sizeHint, batchSizeBytes, writeEvents,
    withinInterval, hinit, hrun, hnext, hevent⟩ := h
  have hordered := ordered_of_run hinit hrun
  cases Session.txStep_of_next hnext with
  | quiet hinput => simp [LoopInput.data?] at hinput
  | failed hpoint hopen hdelivered =>
    rw [hopen] at hevent
    simp at hevent
  | handled progress state result hselect hdata hsend hhandle hopen hdelivered hpoint =>
    rw [hevent, append_cancel_left_eq] at hopen
    have hresult : result.event = some event :=
      Option.mem_toList.mp (hopen ▸ mem_singleton_self event)
    obtain ⟨-, hcommit, -, htaken⟩ :=
      (handleLogicalReplicationMessage_outcome rfl hhandle).event_open event hresult
    have hopenTx := (hordered.plain (by rw [hselect]; rfl)).openTx event.commitLsn hcommit
    exact ⟨hopenTx.head_eq, htaken.trans hopenTx.ordinal_eq⟩

theorem Delivers.produced (h : Delivers inputs kind relId image s event) :
    s.producedEvents.Pairwise Event.Precedes := by
  obtain ⟨start, s₀, walStart, walEnd, ans, sizeHint, batchSizeBytes, writeEvents,
    withinInterval, hinit, hrun, hnext, -⟩ := h
  exact (Session.ordered_txStep (ordered_of_run hinit hrun)
    (Session.txStep_of_next hnext)).produced

theorem head?_sourceMessages {messages : List (LogicalReplicationMessage ρ)} {commitLsn : PgLsn}
    (h : messages.head? = some (.begin commitLsn)) :
    (sourceMessages messages).head? = some (.begin commitLsn) := by
  cases messages with
  | nil => simp at h
  | cons message messages =>
    cases h
    rfl

/-- Two deliveries of one row change, each after the same source messages of the
transaction, give it the same key exactly if as many relations were announced before it, or
both counters were saturated. On one connection two events share a key exactly if both carry
the saturated ordinal of one transaction, which a row change does exactly if that many ordinals
of its transaction were taken before it. -/
theorem rowEvent_sequenceKey_iff (h : Delivers inputs kind relId image s event)
    (h' : Delivers inputs' kind relId image s' event')
    (hsource : sourceMessages (lastTransaction inputs)
      = sourceMessages (lastTransaction inputs')) :
    (event.eventSequenceKey = event'.eventSequenceKey ↔
      relationsAnnounced (lastTransaction inputs) = relationsAnnounced (lastTransaction inputs') ∨
        u64Max ≤ ordinalsTaken (lastTransaction inputs) ∧
          u64Max ≤ ordinalsTaken (lastTransaction inputs')) ∧
      (s.producedEvents.Pairwise fun e e' =>
        (e.eventSequenceKey = e'.eventSequenceKey ↔
          e.commitLsn = e'.commitLsn ∧ e.txOrdinal = u64Max ∧ e'.txOrdinal = u64Max)) ∧
      (event.txOrdinal = u64Max ↔ u64Max ≤ ordinalsTaken (lastTransaction inputs)) := by
  obtain ⟨hhead, hordinal⟩ := h.key
  obtain ⟨hhead', hordinal'⟩ := h'.key
  refine ⟨?_, h.produced.imp Event.Precedes.key_eq_iff, by omega⟩
  have hcommit : event.commitLsn = event'.commitLsn := by
    have hsame := (head?_sourceMessages hhead).symm.trans
      ((congrArg List.head? hsource).trans (head?_sourceMessages hhead'))
    exact begin.inj (Option.some.inj hsame)
  have hcount := ordinalsTaken_eq (lastTransaction inputs)
  have hcount' := ordinalsTaken_eq (lastTransaction inputs')
  rw [← hsource] at hcount'
  simp only [Event.eventSequenceKey, EventSequenceKey.mk.injEq, hcommit, true_and]
  omega

/-- The inputs by which a loop that owns every table takes a message up to its epilogue. -/
def takeMessage (walLsn : PgLsn) (data : LogicalReplicationMessage Unit) : List (LoopInput Unit) :=
  [.idle none, .message (.xLogData walLsn walLsn data)
    (.owning ⟨⟨1, ⟨"public", "users"⟩, [], 0⟩, [], []⟩) 10 1000 (.ok ()) false]

/-- A connection that streams from the start: the first transaction announces the relation,
and the second one begins. -/
def streamedFromStart : List (LoopInput Unit) :=
  takeMessage 5 (.begin 20) ++ [.idle none] ++ takeMessage 6 (.relation 1 []) ++ [.idle none] ++
    takeMessage 6 (.row .insert 1 ()) ++ [.idle none] ++ takeMessage 30 (.commit 20 30) ++
    [.commitHook none 10 1000 (.ok ()), .idle none] ++ takeMessage 31 (.begin 40) ++
    [.idle none, .idle none]

/-- A connection that resumes after the first transaction: the second one begins and carries
the metadata messages. -/
def streamedAfterRestart (metadata : List (LogicalReplicationMessage Unit)) :
    List (LoopInput Unit) :=
  takeMessage 31 (.begin 40) ++
    metadata.flatMap (fun data => [.idle none] ++ takeMessage 32 data) ++
    [.idle none, .idle none]

theorem rowEvent_sequenceKey_sameRelations :
    ∃ s s' event event',
      Delivers (streamedAfterRestart [.relation 1 []]) .insert 1 () s event ∧
      Delivers (streamedAfterRestart [.type, .relation 1 []]) .insert 1 () s' event' ∧
      event.eventSequenceKey = event'.eventSequenceKey := by
  let ans : MessageAnswers := .owning ⟨⟨1, ⟨"public", "users"⟩, [], 0⟩, [], []⟩
  have hinit : (applyLoopMachine Unit).init (.start 30 (some 30)) := ⟨30, some 30, by simp, rfl⟩
  have h : Delivers (streamedAfterRestart [.relation 1 []]) .insert 1 () _ _ :=
    ⟨.start 30 (some 30), _, 32, 32, ans, 10, 1000, .ok (), false, hinit, rfl, rfl, rfl⟩
  have h' : Delivers (streamedAfterRestart [.type, .relation 1 []]) .insert 1 () _ _ :=
    ⟨.start 30 (some 30), _, 32, 32, ans, 10, 1000, .ok (), false, hinit, rfl, rfl, rfl⟩
  exact ⟨_, _, _, _, h, h', (rowEvent_sequenceKey_iff h h' rfl).1.mpr (.inl rfl)⟩

/-- The restarted connection announces the relation again. -/
theorem rowEvent_sequenceKey_differs :
    ∃ s s' event event', Delivers streamedFromStart .insert 1 () s event ∧
      Delivers (streamedAfterRestart [.relation 1 []]) .insert 1 () s' event' ∧
      sourceMessages (lastTransaction streamedFromStart)
        = sourceMessages (lastTransaction (streamedAfterRestart [.relation 1 []])) ∧
      event.eventSequenceKey = ⟨40, 1⟩ ∧ event'.eventSequenceKey = ⟨40, 2⟩ := by
  let ans : MessageAnswers := .owning ⟨⟨1, ⟨"public", "users"⟩, [], 0⟩, [], []⟩
  refine ⟨_, _, _, _, ⟨.start 0 none, _, 32, 32, ans, 10, 1000, .ok (), false, ?_, rfl, rfl, rfl⟩,
    ⟨.start 30 (some 30), _, 32, 32, ans, 10, 1000, .ok (), false, ?_, rfl, rfl, rfl⟩, rfl, rfl,
    rfl⟩
  · exact ⟨0, none, by simp, rfl⟩
  · exact ⟨30, some 30, by simp, rfl⟩

end Etl
