import Mathlib.Data.List.Basic
import Mathlib.Order.Lattice

/-! # Sorted maps

Finite maps as strictly key-sorted association lists, with the lookup of the greatest key at
or below a bound. The main notion is that of a *top segment*: a map that holds, for every
key it has, all greater keys of another map. A bounded lookup that hits a top segment gives
the answer of the full map; eviction of the smallest keys and truncation from below keep
the relation.
-/

/-- A finite map whose entries are strictly sorted by key. -/
structure SortedMap (K V : Type*) [LinearOrder K] where
  entries : List (K × V)
  sorted : entries.Pairwise (fun a b => a.1 < b.1)

namespace SortedMap

open List

variable {K V W : Type*} [LinearOrder K] {m : SortedMap K V} {k : K} {v : V} {l : List (K × V)}
  {e : K × V} {bound : K} {n : ℕ}

/-- The empty map. -/
def empty : SortedMap K V := ⟨[], List.Pairwise.nil⟩

def HasKey (m : SortedMap K V) (k : K) : Prop := ∃ v, (k, v) ∈ m.entries

/-- A sorted map has one value for each key. -/
theorem eq_of_mem {v v' : V} (h : (k, v) ∈ m.entries) (h' : (k, v') ∈ m.entries) : v = v' := by
  obtain ⟨l, hl⟩ := m
  induction l with
  | nil => simp at h
  | cons e l ih =>
    obtain ⟨hhead, htail⟩ := pairwise_cons.mp hl
    rcases mem_cons.mp h with rfl | hrest
    · rcases mem_cons.mp h' with heq | hrest'
      · exact (Prod.mk.inj heq).2.symm
      · exact absurd (hhead _ hrest') (lt_irrefl _)
    · rcases mem_cons.mp h' with rfl | hrest'
      · exact absurd (hhead _ hrest) (lt_irrefl _)
      · exact ih htail hrest hrest'

/-! ## Insertion -/

/-- Inserts into a sorted association list, replacing the value of an equal key. -/
def insertEntry (k : K) (v : V) : List (K × V) → List (K × V)
  | [] => [(k, v)]
  | e :: l =>
    if k < e.1 then (k, v) :: e :: l
    else if k = e.1 then (k, v) :: l
    else e :: insertEntry k v l

theorem mem_insertEntry (hl : l.Pairwise (fun a b => a.1 < b.1)) (e : K × V) :
    e ∈ insertEntry k v l ↔ e = (k, v) ∨ (e ∈ l ∧ e.1 ≠ k) := by
  induction l with
  | nil => simp [insertEntry]
  | cons a l ih =>
    obtain ⟨hhead, htail⟩ := pairwise_cons.mp hl
    unfold insertEntry
    split_ifs with hlt heq
    · have hne : ∀ b ∈ a :: l, b.1 ≠ k := by
        intro b hb
        rcases mem_cons.mp hb with rfl | hb
        · exact hlt.ne'
        · exact (hlt.trans (hhead b hb)).ne'
      constructor
      · intro h
        rcases mem_cons.mp h with h | h
        · exact .inl h
        · exact .inr ⟨h, hne e h⟩
      · rintro (h | h)
        · exact mem_cons.mpr (.inl h)
        · exact mem_cons_of_mem _ h.1
    · have hne : ∀ b ∈ l, b.1 ≠ k := fun b hb => (heq ▸ hhead b hb).ne'
      constructor
      · intro h
        rcases mem_cons.mp h with h | h
        · exact .inl h
        · exact .inr ⟨mem_cons_of_mem _ h, hne e h⟩
      · rintro (h | ⟨h, hk⟩)
        · exact mem_cons.mpr (.inl h)
        · rcases mem_cons.mp h with rfl | h
          · exact absurd heq.symm hk
          · exact mem_cons_of_mem _ h
    · have hne : a.1 ≠ k := fun h => heq h.symm
      rw [mem_cons, ih htail, mem_cons]
      constructor
      · rintro (rfl | h | h)
        · exact .inr ⟨.inl rfl, hne⟩
        · exact .inl h
        · exact .inr ⟨.inr h.1, h.2⟩
      · rintro (h | ⟨h | h, hk⟩)
        · exact .inr (.inl h)
        · exact .inl h
        · exact .inr (.inr ⟨h, hk⟩)

theorem insertEntry_sorted (hl : l.Pairwise (fun a b => a.1 < b.1)) :
    (insertEntry k v l).Pairwise (fun a b => a.1 < b.1) := by
  induction l with
  | nil => exact pairwise_singleton _ _
  | cons a l ih =>
    obtain ⟨hhead, htail⟩ := pairwise_cons.mp hl
    unfold insertEntry
    split_ifs with hlt heq
    · refine pairwise_cons.mpr ⟨?_, hl⟩
      intro b hb
      rcases mem_cons.mp hb with rfl | hb
      · exact hlt
      · exact hlt.trans (hhead b hb)
    · exact pairwise_cons.mpr ⟨fun b hb => heq ▸ hhead b hb, htail⟩
    · refine pairwise_cons.mpr ⟨?_, ih htail⟩
      intro b hb
      rcases (mem_insertEntry htail b).mp hb with rfl | ⟨hb, -⟩
      · exact lt_of_le_of_ne (not_lt.mp hlt) (fun h => heq h.symm)
      · exact hhead b hb

def insert (m : SortedMap K V) (k : K) (v : V) : SortedMap K V :=
  ⟨insertEntry k v m.entries, insertEntry_sorted m.sorted⟩

theorem mem_insert :
    e ∈ (m.insert k v).entries ↔ e = (k, v) ∨ (e ∈ m.entries ∧ e.1 ≠ k) :=
  mem_insertEntry m.sorted e

/-- The value of a key. -/
def get? (m : SortedMap K V) (k : K) : Option V := (m.entries.find? (·.1 = k)).map Prod.snd

theorem get?_eq_some_iff :
    m.get? k = some v ↔ (k, v) ∈ m.entries := by
  rw [get?, Option.map_eq_some_iff]
  constructor
  · rintro ⟨⟨k', v'⟩, hfind, rfl⟩
    obtain rfl : k' = k := by simpa using List.find?_some hfind
    exact mem_of_find?_eq_some hfind
  · intro hmem
    obtain ⟨⟨k', v'⟩, hfind⟩ : ∃ e, m.entries.find? (·.1 = k) = some e :=
      Option.isSome_iff_exists.mp (List.find?_isSome.mpr ⟨(k, v), hmem, by simp⟩)
    obtain rfl : k' = k := by simpa using List.find?_some hfind
    exact ⟨_, hfind, m.eq_of_mem (mem_of_find?_eq_some hfind) hmem⟩

theorem get?_insert (m : SortedMap K V) (k : K) (v : V) (k' : K) :
    (m.insert k v).get? k' = if k' = k then some v else m.get? k' := by
  refine Option.ext fun v' => ?_
  rw [get?_eq_some_iff, mem_insert]
  split_ifs with hk
  · subst hk
    simp [eq_comm]
  · rw [get?_eq_some_iff]
    simp [hk]

def erase (m : SortedMap K V) (k : K) : SortedMap K V :=
  ⟨m.entries.filter (·.1 ≠ k), m.sorted.filter _⟩

theorem mem_erase : e ∈ (m.erase k).entries ↔ e ∈ m.entries ∧ e.1 ≠ k := by
  simp [erase]

theorem get?_erase (m : SortedMap K V) (k k' : K) :
    (m.erase k).get? k' = if k' = k then none else m.get? k' := by
  refine Option.ext fun v => ?_
  rw [get?_eq_some_iff, mem_erase]
  split_ifs with hk
  · simp [hk]
  · simp [hk, get?_eq_some_iff]

theorem mem_keys : k ∈ m.entries.map Prod.fst ↔ m.get? k ≠ none := by
  rw [Option.ne_none_iff_exists']
  simp [get?_eq_some_iff]

/-- The map that sends the key of each value to it, the last one of a key winning. -/
def ofValues (key : V → K) (vs : List V) : SortedMap K V :=
  vs.foldl (fun m v => m.insert (key v) v) empty

theorem mem_ofValues {key : V → K} {vs : List V} (hkeys : (vs.map key).Nodup) :
    e ∈ (ofValues key vs).entries ↔ e.2 ∈ vs ∧ e.1 = key e.2 := by
  have hfold : ∀ (vs : List V) (m : SortedMap K V), (vs.map key).Nodup →
      (∀ e ∈ m.entries, e.1 ∉ vs.map key) →
        ∀ e, e ∈ (vs.foldl (fun m v => m.insert (key v) v) m).entries ↔
          e ∈ m.entries ∨ e.2 ∈ vs ∧ e.1 = key e.2 := by
    intro vs
    induction vs with
    | nil => simp
    | cons v vs ih =>
      intro m hnodup hfresh e
      rw [map_cons, nodup_cons] at hnodup
      have hkeep : ∀ e ∈ m.entries, e.1 ≠ key v := fun e he heq =>
        hfresh e he (by simp [heq])
      rw [foldl_cons, ih _ hnodup.2]
      · rw [mem_insert]
        constructor
        · rintro ((rfl | ⟨hmem, -⟩) | ⟨hmem, heq⟩)
          · exact .inr ⟨mem_cons_self, rfl⟩
          · exact .inl hmem
          · exact .inr ⟨mem_cons_of_mem _ hmem, heq⟩
        · rintro (hmem | ⟨hmem, heq⟩)
          · exact .inl (.inr ⟨hmem, hkeep e hmem⟩)
          · rcases mem_cons.mp hmem with hv | hvs
            · exact .inl (.inl (Prod.ext (by rw [heq, hv]) hv))
            · exact .inr ⟨hvs, heq⟩
      · intro e he
        rcases mem_insert.mp he with rfl | ⟨hmem, -⟩
        · exact hnodup.1
        · exact fun hin => hfresh e hmem (mem_cons_of_mem _ hin)
  rw [ofValues, hfold vs empty hkeys (by simp [empty]) e]
  simp [empty]

theorem filter_gt_insert (m : SortedMap K V) (k : K) (v : V) :
    (m.insert k v).entries.filter (fun e => k < e.1)
      = m.entries.filter (fun e => k < e.1) := by
  obtain ⟨l, hl⟩ := m
  simp only [insert]
  clear hl
  induction l with
  | nil => simp [insertEntry]
  | cons a l ih =>
    unfold insertEntry
    split_ifs with hlt heq
    · simp
    · simp [heq]
    · simp only [filter_cons, ih]

/-! ## Bounded lookup -/

/-- The entry with the greatest key at or below the bound. -/
def floor (m : SortedMap K V) (bound : K) : Option (K × V) :=
  (m.entries.filter (fun e => e.1 ≤ bound)).getLast?

theorem getLast?_eq_some_iff (hl : l.Pairwise (fun a b => a.1 < b.1)) (e : K × V) :
    l.getLast? = some e ↔ e ∈ l ∧ ∀ e' ∈ l, e'.1 ≤ e.1 := by
  constructor
  · intro h
    obtain ⟨init, rfl⟩ := List.getLast?_eq_some_iff.mp h
    refine ⟨by simp, ?_⟩
    intro e' he'
    rcases mem_append.mp he' with he' | he'
    · exact (pairwise_append.mp hl).2.2 e' he' e (by simp) |>.le
    · rw [mem_singleton.mp he']
  · rintro ⟨he, hmax⟩
    obtain ⟨init, last, rfl⟩ : ∃ init last, l = init ++ [last] :=
      by simpa using (eq_nil_or_concat l).resolve_left (ne_nil_of_mem he)
    rcases mem_append.mp he with he | he
    · have hlt := (pairwise_append.mp hl).2.2 e he last (by simp)
      exact absurd (hmax last (by simp)) (not_le.mpr hlt)
    · rw [mem_singleton.mp he]
      simp

theorem floor_eq_some_iff :
    m.floor bound = some e ↔
      e ∈ m.entries ∧ e.1 ≤ bound ∧ ∀ e' ∈ m.entries, e'.1 ≤ bound → e'.1 ≤ e.1 := by
  rw [floor, getLast?_eq_some_iff (m.sorted.filter _)]
  simp only [mem_filter, decide_eq_true_eq]
  constructor
  · rintro ⟨⟨hmem, hle⟩, hmax⟩
    exact ⟨hmem, hle, fun e' he' hle' => hmax e' ⟨he', hle'⟩⟩
  · rintro ⟨hmem, hle, hmax⟩
    exact ⟨⟨hmem, hle⟩, fun e' he' => hmax e' he'.1 he'.2⟩

theorem floor_eq_none_iff :
    m.floor bound = none ↔ ∀ e ∈ m.entries, bound < e.1 := by
  rw [floor]
  simp

/-! ## Removal of the smallest keys -/

/-- Keeps the `n` greatest keys. -/
def evict (m : SortedMap K V) (n : ℕ) : SortedMap K V :=
  ⟨m.entries.drop (m.entries.length - n), m.sorted.drop⟩

def retainFrom (m : SortedMap K V) (bound : K) : SortedMap K V :=
  ⟨m.entries.filter (fun e => bound ≤ e.1), m.sorted.filter _⟩

theorem mem_retainFrom :
    e ∈ (m.retainFrom bound).entries ↔ e ∈ m.entries ∧ bound ≤ e.1 := by
  simp [retainFrom]

theorem mem_of_mem_evict (h : e ∈ (m.evict n).entries) : e ∈ m.entries :=
  mem_of_mem_drop h

/-- Whatever is greater than an entry that survives the eviction survives it too. -/
theorem mem_evict_of_lt {e e' : K × V} (he : e ∈ (m.evict n).entries) (he' : e' ∈ m.entries)
    (hlt : e.1 < e'.1) :
    e' ∈ (m.evict n).entries := by
  have hsplit := take_append_drop (m.entries.length - n) m.entries
  rw [← hsplit] at he'
  rcases mem_append.mp he' with htake | hdrop
  · have hsorted := m.sorted
    rw [← hsplit] at hsorted
    have hgt := (pairwise_append.mp hsorted).2.2 e' htake e he
    exact absurd hlt (not_lt.mpr hgt.le)
  · exact hdrop

/-- An entry below `n` others does not survive the eviction down to `n`. -/
theorem not_mem_evict (hn : n ≤ (m.entries.filter (fun e' => e.1 < e'.1)).length) :
    e ∉ (m.evict n).entries := by
  intro he
  -- everything above `e` and `e` itself would be in the last `n` entries
  have hsub : (m.evict n).entries.filter (fun e' => e.1 < e'.1)
      = m.entries.filter (fun e' => e.1 < e'.1) := by
    have htake : (m.entries.take (m.entries.length - n)).filter (fun e' => e.1 < e'.1) = [] := by
      refine filter_eq_nil_iff.mpr ?_
      intro e' he'
      have hsorted := m.sorted
      rw [← take_append_drop (m.entries.length - n) m.entries] at hsorted
      have hgt := (pairwise_append.mp hsorted).2.2 e' he' e he
      simpa using hgt.le
    conv_rhs => rw [← take_append_drop (m.entries.length - n) m.entries]
    rw [filter_append, htake]
    rfl
  have hlen : (m.evict n).entries.length ≤ n := by
    simp only [evict, length_drop]
    omega
  have hlt : ((m.evict n).entries.filter (fun e' => e.1 < e'.1)).length
      < (m.evict n).entries.length :=
    length_filter_lt_length_iff_exists.mpr ⟨e, he, by simp⟩
  rw [hsub] at hlt
  omega

/-- An entry with fewer than `n` others above it survives the eviction down to `n`. -/
theorem mem_evict_of_length_lt (he : e ∈ m.entries)
    (hn : (m.entries.filter (fun e' => e.1 < e'.1)).length < n) : e ∈ (m.evict n).entries := by
  have hsplit := take_append_drop (m.entries.length - n) m.entries
  have hsorted := m.sorted
  rw [← hsplit] at hsorted he
  rcases mem_append.mp he with htake | hdrop
  · -- the dropped part would be `n` entries above `e`
    have hall : (m.evict n).entries.filter (fun e' => e.1 < e'.1) = (m.evict n).entries := by
      refine filter_eq_self.mpr ?_
      intro e' he'
      simpa using (pairwise_append.mp hsorted).2.2 e htake e' he'
    have hle : ((m.evict n).entries.filter (fun e' => e.1 < e'.1)).length
        ≤ (m.entries.filter (fun e' => e.1 < e'.1)).length :=
      ((drop_sublist _ _).filter _).length_le
    have hpos : 0 < m.entries.length - n := by
      have := length_pos_of_mem htake
      rw [length_take] at this
      omega
    rw [hall] at hle
    simp only [evict, length_drop] at hle
    omega
  · exact hdrop

/-- Removes the entries below the one in force at the bound, if there is one. -/
def prune (m : SortedMap K V) (bound : K) : SortedMap K V :=
  match m.floor bound with
  | none => m
  | some e => m.retainFrom e.1

/-- Pruning changes no lookup at or above the bound. -/
theorem floor_prune {x : K} (hle : bound ≤ x) (m : SortedMap K V) :
    (m.prune bound).floor x = m.floor x := by
  unfold prune
  cases hbound : m.floor bound with
  | none => rfl
  | some e =>
    obtain ⟨hmem, he, -⟩ := floor_eq_some_iff.mp hbound
    cases hfloor : m.floor x with
    | none =>
      exact absurd (le_trans he hle) (not_le.mpr (floor_eq_none_iff.mp hfloor e hmem))
    | some e' =>
      obtain ⟨hmem', hle', hmax⟩ := floor_eq_some_iff.mp hfloor
      refine floor_eq_some_iff.mpr ⟨mem_retainFrom.mpr ⟨hmem', ?_⟩, hle', ?_⟩
      · exact hmax e hmem (le_trans he hle)
      · exact fun e'' hmem'' => hmax e'' (mem_retainFrom.mp hmem'').1

/-! ## Top segments -/

/-- `c` holds every key of `d` above any key it holds, with related values. -/
structure TopSegment (R : K → V → W → Prop) (c : SortedMap K V) (d : SortedMap K W) : Prop where
  sub : ∀ k v, (k, v) ∈ c.entries → ∃ w, (k, w) ∈ d.entries ∧ R k v w
  top : ∀ k k' w, c.HasKey k → (k', w) ∈ d.entries → k < k' → c.HasKey k'

namespace TopSegment

variable {R : K → V → W → Prop} {c : SortedMap K V} {d : SortedMap K W} {v : V} {k : K}
  {d' : SortedMap K W}

theorem empty (d : SortedMap K W) : TopSegment R (SortedMap.empty : SortedMap K V) d where
  sub := by simp [SortedMap.empty]
  top := by simp [SortedMap.empty, HasKey]

/-- A bounded lookup that hits a top segment agrees with the full map. -/
theorem floor_eq (h : TopSegment R c d) {bound k : K} (hc : c.floor bound = some (k, v)) :
    ∃ w, d.floor bound = some (k, w) ∧ R k v w := by
  obtain ⟨hmem, hle, hmax⟩ := floor_eq_some_iff.mp hc
  obtain ⟨w, hw, hR⟩ := h.sub k v hmem
  refine ⟨w, floor_eq_some_iff.mpr ⟨hw, hle, ?_⟩, hR⟩
  intro e he hebound
  -- a greater key of `d` below the bound would be in `c`
  by_contra hlt
  obtain ⟨v', hv'⟩ := h.top k e.1 e.2 ⟨v, hmem⟩ he (not_le.mp hlt)
  exact hlt (hmax (e.1, v') hv' hebound)

/-- Eviction of the smallest keys keeps a top segment. -/
theorem evict (h : TopSegment R c d) (n : ℕ) : TopSegment R (c.evict n) d where
  sub k v hmem := h.sub k v (mem_of_mem_evict hmem)
  top k k' w := by
    rintro ⟨v, hv⟩ hw hlt
    obtain ⟨v', hv'⟩ := h.top k k' w ⟨v, mem_of_mem_evict hv⟩ hw hlt
    exact ⟨v', mem_evict_of_lt hv hv' hlt⟩

/-- Truncating both maps at one bound keeps a top segment. -/
theorem retainFrom (h : TopSegment R c d) (bound : K) :
    TopSegment R (c.retainFrom bound) (d.retainFrom bound) where
  sub k v hmem := by
    obtain ⟨hmem, hle⟩ := mem_retainFrom.mp hmem
    obtain ⟨w, hw, hR⟩ := h.sub k v hmem
    exact ⟨w, mem_retainFrom.mpr ⟨hw, hle⟩, hR⟩
  top k k' w := by
    rintro ⟨v, hv⟩ hw hlt
    obtain ⟨v', hv'⟩ := h.top k k' w ⟨v, (mem_retainFrom.mp hv).1⟩ (mem_retainFrom.mp hw).1 hlt
    exact ⟨v', mem_retainFrom.mpr ⟨hv', (mem_retainFrom.mp hw).2⟩⟩

/-- Truncating the full map below every key of the segment keeps a top segment. -/
theorem retainFrom_right (h : TopSegment R c d) {bound : K}
    (hbound : ∀ e ∈ c.entries, bound ≤ e.1) : TopSegment R c (d.retainFrom bound) where
  sub k v hmem := by
    obtain ⟨w, hw, hR⟩ := h.sub k v hmem
    exact ⟨w, mem_retainFrom.mpr ⟨hw, hbound _ hmem⟩, hR⟩
  top k k' w hk hw hlt := h.top k k' w hk (mem_retainFrom.mp hw).1 hlt

/-- Pruning both maps at one bound keeps a top segment. -/
theorem prune (h : TopSegment R c d) (bound : K) :
    TopSegment R (c.prune bound) (d.prune bound) := by
  unfold SortedMap.prune
  cases hc : c.floor bound with
  | some e =>
    -- the segment keeps the entry that the full map keeps
    obtain ⟨w, hw, -⟩ := h.floor_eq hc
    rw [hw]
    exact h.retainFrom e.1
  | none =>
    cases hd : d.floor bound with
    | none => exact h
    | some e =>
      refine h.retainFrom_right ?_
      intro e' he'
      have hle := (floor_eq_some_iff.mp hd).2.1
      exact hle.trans (floor_eq_none_iff.mp hc e' he').le

/-- Writing an entry into a top segment whose full map has it, and otherwise agrees with the
old one, keeps a top segment when the greater keys are present. -/
theorem insert_of_agree (h : TopSegment R c d) {w : W}
    (hagree : ∀ k' w', k' ≠ k → ((k', w') ∈ d'.entries ↔ (k', w') ∈ d.entries))
    (hw : (k, w) ∈ d'.entries) (hR : R k v w)
    (hnewer : ∀ k' w', (k', w') ∈ d.entries → k < k' → c.HasKey k') :
    TopSegment R (c.insert k v) d' where
  sub k₁ v₁ hmem := by
    rcases mem_insert.mp hmem with heq | ⟨hmem, hne⟩
    · obtain ⟨rfl, rfl⟩ := Prod.mk.inj heq
      exact ⟨w, hw, hR⟩
    · obtain ⟨w₁, hw₁, hR₁⟩ := h.sub k₁ v₁ hmem
      exact ⟨w₁, (hagree k₁ w₁ hne).mpr hw₁, hR₁⟩
  top k₁ k' w' := by
    rintro ⟨v₁, hv₁⟩ hw' hlt
    by_cases hk' : k' = k
    · exact ⟨v, mem_insert.mpr (.inl (by rw [hk']))⟩
    · have hold := (hagree k' w' hk').mp hw'
      have hkey : c.HasKey k' := by
        rcases mem_insert.mp hv₁ with heq | ⟨hv₁, -⟩
        · exact hnewer k' w' hold ((Prod.mk.inj heq).1 ▸ hlt)
        · exact h.top k₁ k' w' ⟨v₁, hv₁⟩ hold hlt
      obtain ⟨v', hv'⟩ := hkey
      exact ⟨v', mem_insert.mpr (.inr ⟨hv', hk'⟩)⟩

/-- The same when the segment already holds `n` greater keys and the insertion is followed
by the eviction down to `n`: the new entry does not survive it. -/
theorem insert_evict_of_full (h : TopSegment R c d) {n : ℕ}
    (hagree : ∀ k' w', k' ≠ k → ((k', w') ∈ d'.entries ↔ (k', w') ∈ d.entries))
    (hfull : n ≤ (c.entries.filter (fun e => k < e.1)).length) :
    TopSegment R ((c.insert k v).evict n) d' := by
  have hgone : (k, v) ∉ ((c.insert k v).evict n).entries := by
    apply not_mem_evict
    rw [filter_gt_insert]
    exact hfull
  have hgreater : ∀ e ∈ ((c.insert k v).evict n).entries, k < e.1 ∧ e ∈ c.entries := by
    intro e he
    rcases mem_insert.mp (mem_of_mem_evict he) with heq | ⟨hmem, hne⟩
    · exact absurd (heq ▸ he) hgone
    · refine ⟨lt_of_not_ge fun hle => hgone ?_, hmem⟩
      exact mem_evict_of_lt he (mem_insert.mpr (.inl rfl)) (lt_of_le_of_ne hle hne)
  refine ⟨?_, ?_⟩
  · intro k₁ v₁ hmem
    obtain ⟨hlt, hold⟩ := hgreater (k₁, v₁) hmem
    obtain ⟨w₁, hw₁, hR₁⟩ := h.sub k₁ v₁ hold
    exact ⟨w₁, (hagree k₁ w₁ hlt.ne').mpr hw₁, hR₁⟩
  · rintro k₁ k' w' ⟨v₁, hv₁⟩ hw' hlt
    obtain ⟨hlt₁, hold⟩ := hgreater (k₁, v₁) hv₁
    have hne : k' ≠ k := (hlt₁.trans hlt).ne'
    obtain ⟨v', hv'⟩ := h.top k₁ k' w' ⟨v₁, hold⟩ ((hagree k' w' hne).mp hw') hlt
    exact ⟨v', mem_evict_of_lt hv₁ (mem_insert.mpr (.inr ⟨hv', hne⟩)) hlt⟩

end TopSegment

end SortedMap
