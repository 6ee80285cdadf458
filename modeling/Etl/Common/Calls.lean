import Mathlib.Data.List.Basic

/-! # Programs with external calls

A program reads and changes a state and makes external calls, any of which can fail. A run is
given how many of its calls still succeed: the call after them returns an error and changes
nothing, and without a number no call fails. What a crash leaves of the durable part of the state
is what such a run leaves; reads and changes of memory are not counted.
-/

/-- A state with the number of calls that still succeed. -/
structure CallState (σ : Type) where
  state : σ
  remaining : Option ℕ

/-- Programs that make external calls on a state. -/
abbrev Calls (ε σ α : Type) : Type := EStateM ε (CallState σ) α

namespace Calls

open List

variable {ε σ α β χ : Type}

/-- Reads the state. -/
def read : Calls ε σ σ := fun s => .ok s.state s

/-- Changes what is kept in memory. -/
def update (f : σ → σ) : Calls ε σ Unit := fun s => .ok () { s with state := f s.state }

/-- A computation without calls. -/
def ofExcept : Except ε α → Calls ε σ α
  | .ok a => fun s => .ok a s
  | .error e => fun s => .error e s

/-- A call with an effect, which can be rejected by the other side; `failure` is what the call
returns when it does not come through. -/
def call (failure : ε) (effect : σ → Except ε σ) : Calls ε σ Unit := fun s =>
  match s.remaining with
  | some 0 => .error failure s
  | remaining =>
    match effect s.state with
    | .ok state => .ok () ⟨state, remaining.map (· - 1)⟩
    | .error e => .error e s

/-- A call that asks for something, where the program takes a failure for an answer and goes on.
The failure is then over: later calls come through. -/
def query (whenFailed : α) (answer : σ → α) : Calls ε σ α := fun s =>
  match s.remaining with
  | some 0 => .ok whenFailed ⟨s.state, none⟩
  | remaining => .ok (answer s.state) ⟨s.state, remaining.map (· - 1)⟩

/-- The program with its errors translated. -/
def mapError {ε' : Type} (f : ε → ε') (p : Calls ε σ α) : Calls ε' σ α := fun s =>
  match p s with
  | .ok a t => .ok a t
  | .error e t => .error (f e) t

/-- The state a run ends in, with or without an error. -/
def endState (result : EStateM.Result ε (CallState σ) α) : σ :=
  match result with
  | .ok _ s => s.state
  | .error _ s => s.state

/-! ## Sequences -/

variable {p : Calls ε σ α} {f : α → Calls ε σ β} {s t : CallState σ} {a : α} {e : ε}

theorem bind_of_ok (hp : p.run s = .ok a t) : (p >>= f).run s = (f a).run t := by
  rw [EStateM.run] at hp
  show EStateM.bind p f s = _
  rw [EStateM.bind, hp]
  rfl

theorem bind_of_error (hp : p.run s = .error e t) : (p >>= f).run s = .error e t := by
  rw [EStateM.run] at hp
  show EStateM.bind p f s = _
  rw [EStateM.bind, hp]

theorem run_bind_congr {q : Calls ε σ α} (hpq : p.run s = q.run s) :
    (p >>= f).run s = (q >>= f).run s := by
  cases hp : p.run s with
  | ok a t => rw [bind_of_ok hp, bind_of_ok (hpq ▸ hp)]
  | error e t => rw [bind_of_error hp, bind_of_error (hpq ▸ hp)]

@[simp]
theorem run_bind_read {f : σ → Calls ε σ β} : (read >>= f).run s = (f s.state).run s :=
  rfl

@[simp]
theorem run_bind_ofExcept_ok : (ofExcept (.ok a) >>= f).run s = (f a).run s :=
  rfl

theorem discard_bind {f : PUnit → Calls ε σ β} : discard p >>= f = p >>= fun _ => f ⟨⟩ := by
  funext s
  show EStateM.bind (EStateM.map (Function.const α ⟨⟩) p) f s = EStateM.bind p (fun _ => f ⟨⟩) s
  rw [EStateM.bind, EStateM.bind, EStateM.map]
  cases p s <;> rfl

/-- A sequence succeeds when both parts do. -/
theorem bind_eq_ok_iff {b : β} :
    (p >>= f).run s = .ok b t ↔ ∃ a u, p.run s = .ok a u ∧ (f a).run u = .ok b t := by
  cases hp : p.run s with
  | ok a u =>
    rw [bind_of_ok hp]
    constructor
    · intro hf
      exact ⟨a, u, rfl, hf⟩
    · rintro ⟨a', u', heq, hf⟩
      cases heq
      exact hf
  | error e u =>
    rw [bind_of_error hp]
    constructor
    · intro heq
      cases heq
    · rintro ⟨a, u', heq, -⟩
      cases heq

theorem discard_eq : (discard p : Calls ε σ PUnit) = p >>= fun _ => pure ⟨⟩ := by
  rw [← discard_bind, bind_pure]

theorem exists_bind_pure_eq_ok_iff {g : α → β} :
    (∃ b t, (p >>= fun a => pure (g a)).run s = .ok b t) ↔ ∃ a t, p.run s = .ok a t := by
  constructor
  · rintro ⟨b, t, hrun⟩
    obtain ⟨a, u, hp, -⟩ := bind_eq_ok_iff.mp hrun
    exact ⟨a, u, hp⟩
  · rintro ⟨a, t, hp⟩
    exact ⟨g a, t, bind_eq_ok_iff.mpr ⟨a, t, hp, rfl⟩⟩

/-! ## Calls -/

variable {failure : ε} {effect : σ → Except ε σ} {xs : List χ}

theorem run_call (failure : ε) (effect : σ → Except ε σ) (state : σ) (remaining : Option ℕ) :
    (call failure effect).run ⟨state, remaining⟩ =
      if remaining = some 0 then .error failure ⟨state, remaining⟩
      else
        match effect state with
        | .ok next => .ok () ⟨next, remaining.map (· - 1)⟩
        | .error e => .error e ⟨state, remaining⟩ := by
  match remaining with
  | none => rfl
  | some 0 => rfl
  | some (k + 1) => rfl

theorem run_query (whenFailed : α) (answer : σ → α) (state : σ) (remaining : Option ℕ) :
    (query whenFailed answer : Calls ε σ α).run ⟨state, remaining⟩ =
      if remaining = some 0 then .ok whenFailed ⟨state, none⟩
      else .ok (answer state) ⟨state, remaining.map (· - 1)⟩ := by
  match remaining with
  | none => rfl
  | some 0 => rfl
  | some (k + 1) => rfl

/-- Calls that were made are counted together. -/
theorem map_sub_map_sub (remaining : Option ℕ) (m n : ℕ) :
    (remaining.map (· - m)).map (· - n) = remaining.map (· - (m + n)) := by
  rw [Option.map_map]
  refine congrArg (fun g => Option.map g remaining) (funext fun k => ?_)
  exact Nat.sub_sub k m n

theorem call_eq_ok_iff {u : Unit} :
    (call failure effect).run s = .ok u t ↔
      s.remaining ≠ some 0 ∧ effect s.state = .ok t.state ∧
        t.remaining = s.remaining.map (· - 1) := by
  obtain ⟨state, remaining⟩ := s
  obtain ⟨state', remaining'⟩ := t
  rw [run_call]
  split_ifs with hremaining
  · simp [hremaining]
  · cases effect state with
    | ok next => simp [hremaining, eq_comm]
    | error e => simp

/-- The calls for a list succeed when enough of them come through and none is rejected. -/
theorem forM_call_eq_ok_iff {effect : χ → σ → Except ε σ} {u : PUnit} :
    (forM xs fun x => call failure (effect x)).run s = .ok u t ↔
      (∀ k, s.remaining = some k → xs.length ≤ k) ∧
        xs.foldlM (fun state x => effect x state) s.state = .ok t.state ∧
          t.remaining = s.remaining.map (· - xs.length) := by
  induction xs generalizing s with
  | nil =>
    obtain ⟨state, remaining⟩ := s
    obtain ⟨state', remaining'⟩ := t
    show EStateM.Result.ok _ _ = _ ↔ _
    simp [pure, Except.pure, eq_comm]
  | cons x xs ih =>
    rw [forM_cons, bind_eq_ok_iff, foldlM_cons]
    constructor
    · rintro ⟨_, mid, hcall, hrest⟩
      obtain ⟨hsome, hmid, hremaining⟩ := call_eq_ok_iff.mp hcall
      obtain ⟨henough, hfold, hleft⟩ := ih.mp hrest
      refine ⟨fun k hk => ?_, by rw [hmid]; exact hfold, ?_⟩
      · have hpos : k ≠ 0 := fun h => hsome (by rw [hk, h])
        have hle := henough (k - 1) (by rw [hremaining, hk]; rfl)
        rw [length_cons]
        omega
      · rw [hleft, hremaining, map_sub_map_sub, length_cons, Nat.add_comm]
    · rintro ⟨henough, hfold, hleft⟩
      cases hmid : effect x s.state with
      | error e =>
        rw [hmid] at hfold
        cases hfold
      | ok mid =>
        rw [hmid] at hfold
        refine ⟨(), ⟨mid, s.remaining.map (· - 1)⟩, call_eq_ok_iff.mpr ⟨?_, hmid, rfl⟩,
          ih.mpr ⟨?_, hfold, ?_⟩⟩
        · intro h
          exact absurd (henough 0 h) (by simp)
        · intro k hk
          obtain ⟨n, hn, rfl⟩ := Option.map_eq_some_iff.mp hk
          have hle := henough n hn
          rw [length_cons] at hle
          omega
        · rw [hleft, map_sub_map_sub, length_cons, Nat.add_comm]

/-! ## What a run ensures -/

/-- From a state with the property `P`, whatever calls come through, a run that succeeds ends in a
state with the property `Q` for what it returns, and one that fails in a state with the property
`E`. -/
def Ensures (P : σ → Prop) (p : Calls ε σ α) (Q : α → σ → Prop) (E : σ → Prop) : Prop :=
  ∀ s, P s.state →
    match p.run s with
    | .ok a t => Q a t.state
    | .error _ t => E t.state

section Ensures

variable {P P' : σ → Prop} {Q : α → σ → Prop} {R : β → σ → Prop} {E : σ → Prop} {a : α}

theorem Ensures.of_ok (hp : Ensures P p Q E) (hs : P s.state) (hrun : p.run s = .ok a t) :
    Q a t.state := by
  have h := hp s hs
  rwa [hrun] at h

theorem Ensures.endState (hp : Ensures P p Q E) (hs : P s.state) {I : σ → Prop}
    (hok : ∀ a state, Q a state → I state) (herror : ∀ state, E state → I state) :
    I (endState (p.run s)) := by
  have h := hp s hs
  cases hrun : p.run s with
  | ok a t =>
    rw [hrun] at h
    exact hok a _ h
  | error e t =>
    rw [hrun] at h
    exact herror _ h

theorem Ensures.pre (hp : Ensures P p Q E) (hpre : ∀ state, P' state → P state) :
    Ensures P' p Q E :=
  fun s hs => hp s (hpre _ hs)

theorem Ensures.of_fact {φ : Prop} (hp : φ → Ensures P p Q E) :
    Ensures (fun state => φ ∧ P state) p Q E :=
  fun s hs => hp hs.1 s hs.2

theorem Ensures.bind (hp : Ensures P p Q E) (hf : ∀ a, Ensures (Q a) (f a) R E) :
    Ensures P (p >>= f) R E := by
  intro s hs
  have hmid := hp s hs
  cases hrun : p.run s with
  | ok a t =>
    rw [hrun] at hmid
    rw [bind_of_ok hrun]
    exact hf a t hmid
  | error e t =>
    rw [hrun] at hmid
    rw [bind_of_error hrun]
    exact hmid

theorem Ensures.pure (h : ∀ state, P state → Q a state) :
    Ensures P (pure a : Calls ε σ α) Q E := fun _ hs => h _ hs

theorem Ensures.ofExcept {x : Except ε α} (hok : ∀ a, x = .ok a → ∀ state, P state → Q a state)
    (herror : ∀ state, P state → E state) : Ensures P (ofExcept x : Calls ε σ α) Q E := by
  intro s hs
  cases x with
  | ok a => exact hok a rfl _ hs
  | error e => exact herror _ hs

theorem Ensures.read : Ensures P (read : Calls ε σ σ) (fun a state => a = state ∧ P state) E :=
  fun _ hs => ⟨rfl, hs⟩

theorem Ensures.update {f : σ → σ} {Q : Unit → σ → Prop} (hf : ∀ state, P state → Q () (f state)) :
    Ensures P (update f : Calls ε σ Unit) Q E := fun _ hs => hf _ hs

theorem Ensures.call {failure : ε} {effect : σ → Except ε σ} {Q : Unit → σ → Prop}
    (hok : ∀ state next, P state → effect state = .ok next → Q () next)
    (herror : ∀ state, P state → E state) : Ensures P (call failure effect) Q E := by
  rintro ⟨state, remaining⟩ hs
  rw [run_call]
  split_ifs
  · exact herror state hs
  · cases hnext : effect state with
    | ok next => exact hok state next hs hnext
    | error e => exact herror state hs

end Ensures

/-! ## What a run keeps -/

/-- Whatever calls come through, a run from a state with the property ends in one. -/
def Keeps (P : σ → Prop) (p : Calls ε σ α) : Prop := ∀ s, P s.state → P (endState (p.run s))

variable {P : σ → Prop}

theorem Keeps.bind (hp : Keeps P p) (hf : ∀ a, Keeps P (f a)) : Keeps P (p >>= f) := by
  intro s hs
  have hmid := hp s hs
  cases hrun : p.run s with
  | ok a t =>
    rw [hrun] at hmid
    rw [bind_of_ok hrun]
    exact hf a t hmid
  | error e t =>
    rw [hrun] at hmid
    rw [bind_of_error hrun]
    exact hmid

theorem Keeps.ofExcept (x : Except ε α) : Keeps P (ofExcept x : Calls ε σ α) := by
  intro s hs
  cases x <;> exact hs

theorem Keeps.pure (a : α) : Keeps P (pure a : Calls ε σ α) := fun _ hs => hs

theorem Keeps.update {f : σ → σ} (hf : ∀ state, P state → P (f state)) :
    Keeps P (update f : Calls ε σ Unit) := fun _ hs => hf _ hs

theorem Keeps.query (whenFailed : α) (answer : σ → α) :
    Keeps P (query whenFailed answer : Calls ε σ α) := by
  rintro ⟨state, remaining⟩ hs
  rw [run_query]
  split_ifs <;> exact hs

theorem Keeps.discard (hp : Keeps P p) : Keeps P (discard p) := by
  exact hp.bind fun _ => Keeps.pure _

theorem Keeps.call (heffect : ∀ state next, P state → effect state = .ok next → P next) :
    Keeps P (call failure effect) := by
  rintro ⟨state, remaining⟩ hs
  rw [run_call]
  split_ifs
  · exact hs
  · cases hnext : effect state with
    | ok next => exact heffect state next hs hnext
    | error e => exact hs

theorem Keeps.forM {body : χ → Calls ε σ PUnit} (hbody : ∀ x ∈ xs, Keeps P (body x)) :
    Keeps P (forM xs body) := by
  induction xs with
  | nil => exact Keeps.pure _
  | cons x xs ih =>
    exact (hbody x mem_cons_self).bind fun _ =>
      ih fun y hy => hbody y (mem_cons_of_mem x hy)

/-! ## Runs without failures -/

/-- When every call comes through, the run succeeds and ends as said. -/
def Completes (p : Calls ε σ α) (state : σ) (Q : α → σ → Prop) : Prop :=
  ∃ a t, p.run ⟨state, none⟩ = .ok a ⟨t, none⟩ ∧ Q a t

/-- When every call comes through, the run succeeds exactly under the condition, and then ends as
said. -/
def SucceedsIff (p : Calls ε σ α) (state : σ) (φ : Prop) (Q : α → σ → Prop) : Prop :=
  (φ → Completes p state Q) ∧ (¬ φ → ∃ e t, p.run ⟨state, none⟩ = .error e t)

section Runs

variable {state : σ} {φ ψ : Prop} {Q Q' : α → σ → Prop} {R : β → σ → Prop} {a : α} {xs : List χ}

theorem Completes.mono (hp : Completes p state Q) (hQ : ∀ a t, Q a t → Q' a t) :
    Completes p state Q' := by
  obtain ⟨a, t, hrun, h⟩ := hp
  exact ⟨a, t, hrun, hQ a t h⟩

theorem Completes.bind (hp : Completes p state Q) (hf : ∀ a t, Q a t → Completes (f a) t R) :
    Completes (p >>= f) state R := by
  obtain ⟨a, t, hrun, h⟩ := hp
  obtain ⟨b, u, hnext, h⟩ := hf a t h
  exact ⟨b, u, (bind_of_ok hrun).trans hnext, h⟩

theorem Completes.read {f : σ → Calls ε σ β} (hf : Completes (f state) state R) :
    Completes (read >>= f) state R := hf

theorem Completes.pure (h : Q a state) : Completes (pure a : Calls ε σ α) state Q :=
  ⟨a, state, rfl, h⟩

theorem Completes.ofExcept {x : Except ε α} (hx : x = .ok a) (h : Q a state) :
    Completes (ofExcept x) state Q := by
  subst hx
  exact ⟨a, state, rfl, h⟩

theorem Completes.update {f : σ → σ} {Q : Unit → σ → Prop} (h : Q () (f state)) :
    Completes (update f : Calls ε σ Unit) state Q :=
  ⟨(), f state, rfl, h⟩

theorem Completes.call {Q : Unit → σ → Prop} {next : σ} (heffect : effect state = .ok next)
    (h : Q () next) : Completes (call failure effect) state Q := by
  refine ⟨(), next, ?_, h⟩
  rw [run_call, heffect]
  rfl

/-- Nothing is caught from a run that succeeds. -/
theorem Completes.tryCatch {handler : ε → Calls ε σ α} (hp : Completes p state Q) :
    Completes (tryCatch p handler) state Q := by
  obtain ⟨a, t, hrun, h⟩ := hp
  refine ⟨a, t, ?_, h⟩
  rw [EStateM.run] at hrun
  show EStateM.tryCatch p handler _ = _
  delta EStateM.tryCatch
  rw [hrun]

theorem Completes.discard (hp : Completes p state Q) :
    Completes (discard p) state fun _ t => ∃ a, Q a t := by
  exact hp.bind fun a t h => Completes.pure ⟨a, h⟩

/-- A loop completes when every round does, with what the rounds keep. -/
theorem Completes.forM {body : χ → Calls ε σ PUnit} {I : σ → Prop}
    (hbody : ∀ x ∈ xs, ∀ t, I t → Completes (body x) t fun _ u => I u) (h : I state) :
    Completes (forM xs body) state fun _ t => I t := by
  induction xs generalizing state with
  | nil => exact Completes.pure h
  | cons x xs ih =>
    refine (hbody x mem_cons_self state h).bind fun _ t ht => ?_
    exact ih (fun y hy => hbody y (mem_cons_of_mem x hy)) ht

theorem Completes.foldlM {body : α → χ → Calls ε σ α} {I : α → σ → Prop}
    (hbody : ∀ x ∈ xs, ∀ b t, I b t → Completes (body b x) t I) (h : I a state) :
    Completes (xs.foldlM body a) state I := by
  induction xs generalizing a state with
  | nil => exact Completes.pure h
  | cons x xs ih =>
    refine (hbody x mem_cons_self a state h).bind fun b t ht => ?_
    exact ih (fun y hy => hbody y (mem_cons_of_mem x hy)) ht

theorem Completes.mapError {ε' : Type} {g : ε → ε'} (hp : Completes p state Q) :
    Completes (mapError g p) state Q := by
  obtain ⟨a, t, hrun, h⟩ := hp
  refine ⟨a, t, ?_, h⟩
  rw [EStateM.run] at hrun
  rw [EStateM.run, Calls.mapError, hrun]

namespace SucceedsIff

theorem of_completes (hp : Completes p state Q) (h : φ) : SucceedsIff p state φ Q :=
  ⟨fun _ => hp, fun hnot => absurd h hnot⟩

theorem of_error {e : ε} {t : CallState σ} (hp : p.run ⟨state, none⟩ = .error e t) (h : ¬ φ) :
    SucceedsIff p state φ Q :=
  ⟨fun hφ => absurd hφ h, fun _ => ⟨e, t, hp⟩⟩

theorem congr (hp : SucceedsIff p state φ Q) (hφ : φ ↔ ψ) : SucceedsIff p state ψ Q :=
  ⟨fun h => hp.1 (hφ.mpr h), fun h => hp.2 fun h' => h (hφ.mp h')⟩

theorem mono (hp : SucceedsIff p state φ Q) (hQ : φ → ∀ a t, Q a t → Q' a t) :
    SucceedsIff p state φ Q' :=
  ⟨fun h => (hp.1 h).mono (hQ h), hp.2⟩

theorem bind (hp : SucceedsIff p state φ Q)
    (hf : φ → ∀ a t, Q a t → SucceedsIff (f a) t ψ R) :
    SucceedsIff (p >>= f) state (φ ∧ ψ) R := by
  by_cases h : φ
  · obtain ⟨a, t, hrun, hQ⟩ := hp.1 h
    have hnext := hf h a t hQ
    constructor
    · rintro ⟨-, hψ⟩
      obtain ⟨b, u, hrest, hR⟩ := hnext.1 hψ
      exact ⟨b, u, (bind_of_ok hrun).trans hrest, hR⟩
    · intro hnot
      obtain ⟨e, u, hrest⟩ := hnext.2 fun hψ => hnot ⟨h, hψ⟩
      exact ⟨e, u, (bind_of_ok hrun).trans hrest⟩
  · obtain ⟨e, t, hrun⟩ := hp.2 h
    exact of_error (bind_of_error hrun) fun hboth => h hboth.1

theorem read {f : σ → Calls ε σ β} (hf : SucceedsIff (f state) state φ R) :
    SucceedsIff (read >>= f) state φ R := hf

/-- What comes after a program that always succeeds decides. -/
theorem after (hp : Completes p state Q) (hf : ∀ a t, Q a t → SucceedsIff (f a) t φ R) :
    SucceedsIff (p >>= f) state φ R :=
  ((of_completes hp trivial).bind fun _ => hf).congr (by rw [true_and])

/-- What comes before a program that always succeeds decides. -/
theorem before (hp : SucceedsIff p state φ Q) (hf : φ → ∀ a t, Q a t → Completes (f a) t R) :
    SucceedsIff (p >>= f) state φ R :=
  (hp.bind fun h a t hQ => of_completes (hf h a t hQ) trivial).congr (by rw [and_true])

theorem mapError {ε' : Type} {g : ε → ε'} (hp : SucceedsIff p state φ Q) :
    SucceedsIff (mapError g p) state φ Q := by
  refine ⟨fun h => (hp.1 h).mapError, fun h => ?_⟩
  obtain ⟨e, t, hrun⟩ := hp.2 h
  refine ⟨g e, t, ?_⟩
  rw [EStateM.run] at hrun
  rw [EStateM.run, Calls.mapError, hrun]

/-- A loop succeeds when every round does. -/
theorem loop {body : χ → Calls ε σ PUnit} {xs : List χ} {φ : χ → Prop} {I : List χ → σ → Prop}
    (hbody : ∀ done x t, x ∈ xs → I done t → (∀ y ∈ done, φ y) →
      SucceedsIff (body x) t (φ x) fun _ u => I (done ++ [x]) u) (h : I [] state) :
    SucceedsIff (forM xs body) state (∀ x ∈ xs, φ x) fun _ t => I xs t := by
  -- the rounds that are left, after those that are done
  have hloop : ∀ todo done t, (∀ x ∈ todo, x ∈ xs) → I done t → (∀ y ∈ done, φ y) →
      SucceedsIff (forM todo body) t (∀ x ∈ todo, φ x) fun _ u => I (done ++ todo) u := by
    intro todo
    induction todo with
    | nil =>
      intro done t _ hI _
      refine of_completes (Completes.pure ?_) fun x hx => absurd hx not_mem_nil
      rw [append_nil]
      exact hI
    | cons x todo ih =>
      intro done t hsub hI hdone
      rw [forall_mem_cons]
      refine (hbody done x t (hsub x mem_cons_self) hI hdone).bind fun hx _ u hu => ?_
      have hrest := ih (done ++ [x]) u (fun y hy => hsub y (mem_cons_of_mem x hy)) hu
        fun y hy => (mem_append.mp hy).elim (hdone y) fun h => mem_singleton.mp h ▸ hx
      rwa [append_assoc] at hrest
  exact hloop xs [] state (fun _ hx => hx) h fun _ hy => absurd hy not_mem_nil

/-- Whether the run succeeds. -/
theorem exists_ok_iff (hp : SucceedsIff p state φ Q) :
    (∃ a t, p.run ⟨state, none⟩ = .ok a t) ↔ φ := by
  constructor
  · rintro ⟨a, t, hrun⟩
    by_contra hnot
    obtain ⟨e, u, herror⟩ := hp.2 hnot
    rw [hrun] at herror
    cases herror
  · intro h
    obtain ⟨a, t, hrun, -⟩ := hp.1 h
    exact ⟨a, ⟨t, none⟩, hrun⟩

end SucceedsIff

/-- A call that always has its effect when it comes through. -/
def apply (failure : ε) (effect : σ → σ) : Calls ε σ Unit :=
  call failure fun s => .ok (effect s)

theorem endState_forM_apply (effect : χ → σ → σ) (k : ℕ) (state : σ) :
    endState ((forM xs fun x => apply failure (effect x)).run ⟨state, some k⟩) =
      (xs.take k).foldl (fun s x => effect x s) state := by
  induction xs generalizing state k with
  | nil =>
    rw [take_nil]
    rfl
  | cons x xs ih =>
    rw [forM_cons]
    cases k with
    | zero => rfl
    | succ k => exact ih k (effect x state)

theorem completes_forM_apply (effect : χ → σ → σ) (state : σ) :
    Completes (forM xs fun x => apply failure (effect x)) state
      fun _ final => final = xs.foldl (fun s x => effect x s) state := by
  induction xs generalizing state with
  | nil => exact .pure rfl
  | cons x xs ih =>
    rw [forM_cons]
    exact ih (effect x state)

end Runs

end Calls
