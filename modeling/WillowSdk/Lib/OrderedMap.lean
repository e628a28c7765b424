/-
# Maps in key order

A map as its entries, sorted by key: a key has at most one. Inserting
replaces the value at the key and no other (`get_insert`); what is kept of a
map is what was there (`get_retain`); what is inserted above the greatest key
comes last (`lastKey_insert`).
-/
import Mathlib.Algebra.Ring.Nat
import Mathlib.Order.Lattice
import Mathlib.Data.List.Nodup

structure OrderedMap (K V : Type) [LinearOrder K] where
  entries : List (K × V)
  sorted : entries.Pairwise fun a b => a.1 < b.1

namespace OrderedMap

variable {K V : Type} [LinearOrder K]

def empty : OrderedMap K V := ⟨[], .nil⟩

/-- The value at a key. -/
def get (m : OrderedMap K V) (key : K) : Option V :=
  (m.entries.find? fun e => e.1 = key).map Prod.snd

/-- The value at the greatest key. -/
def last (m : OrderedMap K V) : Option V := m.entries.getLast?.map Prod.snd

/-- The greatest key. -/
def lastKey (m : OrderedMap K V) : Option K := m.entries.getLast?.map Prod.fst

def insertEntry (key : K) (value : V) : List (K × V) → List (K × V)
  | [] => [(key, value)]
  | (k, v) :: rest =>
    if key < k then (key, value) :: (k, v) :: rest
    else if key = k then (key, value) :: rest
    else (k, v) :: insertEntry key value rest

theorem mem_insertEntry {key : K} {value : V} {e : K × V} {entries : List (K × V)}
    (h : e ∈ insertEntry key value entries) : e = (key, value) ∨ e ∈ entries := by
  induction entries with
  | nil => exact .inl (List.mem_singleton.mp h)
  | cons head rest ih =>
    obtain ⟨k, v⟩ := head
    unfold insertEntry at h
    split_ifs at h with hlt heq
    · exact List.mem_cons.mp h
    · rcases List.mem_cons.mp h with he | he
      · exact .inl he
      · exact .inr (List.mem_cons_of_mem _ he)
    · rcases List.mem_cons.mp h with he | he
      · exact .inr (he ▸ List.mem_cons_self)
      · exact (ih he).imp_right (List.mem_cons_of_mem _)

theorem insertEntry_sorted {key : K} {value : V} {entries : List (K × V)}
    (h : entries.Pairwise fun a b => a.1 < b.1) :
    (insertEntry key value entries).Pairwise fun a b => a.1 < b.1 := by
  induction entries with
  | nil => exact List.pairwise_singleton _ _
  | cons head rest ih =>
    obtain ⟨k, v⟩ := head
    obtain ⟨hhead, htail⟩ := List.pairwise_cons.mp h
    unfold insertEntry
    split_ifs with hlt heq
    · refine List.pairwise_cons.mpr ⟨fun e he => ?_, h⟩
      rcases List.mem_cons.mp he with rfl | he
      · exact hlt
      · exact lt_trans hlt (hhead e he)
    · exact List.pairwise_cons.mpr ⟨fun e he => heq ▸ hhead e he, htail⟩
    · refine List.pairwise_cons.mpr ⟨fun e he => ?_, ih htail⟩
      rcases mem_insertEntry he with rfl | he
      · exact lt_of_le_of_ne (not_lt.mp hlt) (Ne.symm heq)
      · exact hhead e he

def insert (m : OrderedMap K V) (key : K) (value : V) : OrderedMap K V :=
  ⟨insertEntry key value m.entries, insertEntry_sorted m.sorted⟩

/-- The entries that pass a test. -/
def retain (m : OrderedMap K V) (keep : V → Bool) : OrderedMap K V :=
  ⟨m.entries.filter fun e => keep e.2, m.sorted.filter _⟩

@[simp] theorem get_empty (key : K) : (empty : OrderedMap K V).get key = none := rfl

theorem find_insertEntry (key key' : K) (value : V) (entries : List (K × V)) :
    ((insertEntry key value entries).find? fun e => e.1 = key') =
      if key = key' then some (key, value) else entries.find? fun e => e.1 = key' := by
  induction entries with
  | nil =>
    by_cases h : key = key' <;> simp [insertEntry, h]
  | cons head rest ih =>
    obtain ⟨k, v⟩ := head
    unfold insertEntry
    by_cases hlt : key < k
    · rw [if_pos hlt]
      by_cases h : key = key' <;> simp [h]
    · rw [if_neg hlt]
      by_cases heq : key = k
      · rw [if_pos heq]
        by_cases h : key = key'
        · simp [h]
        · have hk : ¬ k = key' := fun hk => h (heq.trans hk)
          simp [h, hk]
      · rw [if_neg heq, List.find?_cons, List.find?_cons, ih]
        by_cases hk : k = key'
        · have h : ¬ key = key' := fun h => heq (h.trans hk.symm)
          simp [h, hk]
        · simp [hk]

@[simp] theorem get_insert (m : OrderedMap K V) (key key' : K) (value : V) :
    (m.insert key value).get key' = if key = key' then some value else m.get key' := by
  unfold get insert
  rw [find_insertEntry]
  split_ifs with h
  · rfl
  · rfl

theorem keys_nodup (m : OrderedMap K V) : (m.entries.map Prod.fst).Nodup :=
  m.sorted.map Prod.fst fun _ _ h => ne_of_lt h

theorem get_eq_some {m : OrderedMap K V} {key : K} {value : V} :
    m.get key = some value ↔ (key, value) ∈ m.entries := by
  unfold get
  rw [Option.map_eq_some_iff]
  refine ⟨fun h => ?_, fun h => ?_⟩
  · obtain ⟨⟨k, v⟩, hfind, rfl⟩ := h
    obtain rfl : k = key := by simpa using List.find?_some hfind
    exact List.mem_of_find?_eq_some hfind
  · have hsome : (m.entries.find? fun e => e.1 = key).isSome := by
      rw [List.find?_isSome]
      exact ⟨_, h, by simp⟩
    obtain ⟨⟨k, v⟩, hfind⟩ := Option.isSome_iff_exists.mp hsome
    obtain rfl : k = key := by simpa using List.find?_some hfind
    have hmem : (k, v) ∈ m.entries := List.mem_of_find?_eq_some hfind
    have hsame : (k, v) = (k, value) := List.inj_on_of_nodup_map m.keys_nodup hmem h rfl
    exact ⟨_, hfind, congrArg Prod.snd hsame⟩

/-- What is kept was there. -/
theorem get_retain {m : OrderedMap K V} {keep : V → Bool} {key : K} {value : V}
    (h : (m.retain keep).get key = some value) : m.get key = some value := by
  rw [get_eq_some] at h ⊢
  exact (List.mem_filter.mp h).1

/-! ### The last entry -/

/-- The greatest key has the last value. -/
theorem get_lastKey {m : OrderedMap K V} {key : K} (h : m.lastKey = some key) :
    ∃ value, m.last = some value ∧ m.get key = some value := by
  obtain ⟨⟨k, value⟩, hlast, rfl⟩ := Option.map_eq_some_iff.mp h
  refine ⟨value, congrArg (Option.map Prod.snd) hlast, ?_⟩
  exact get_eq_some.mpr (List.mem_of_getLast? hlast)

theorem le_lastKey {m : OrderedMap K V} {key : K} (h : m.lastKey = some key) {e : K × V}
    (he : e ∈ m.entries) : e.1 ≤ key := by
  obtain ⟨⟨k, value⟩, hlast, rfl⟩ := Option.map_eq_some_iff.mp h
  obtain ⟨before, hsplit⟩ := List.getLast?_eq_some_iff.mp hlast
  have hsorted := m.sorted
  rw [hsplit] at he hsorted
  rcases List.mem_append.mp he with hbefore | hlast
  · exact le_of_lt ((List.pairwise_append.mp hsorted).2.2 e hbefore _ List.mem_cons_self)
  · exact le_of_eq (congrArg Prod.fst (List.mem_singleton.mp hlast))

/-- Nothing is above the greatest key. -/
theorem get_of_lastKey_lt {m : OrderedMap K V} {last key : K} (h : m.lastKey = some last)
    (hlt : last < key) : m.get key = none := by
  refine Option.eq_none_iff_forall_ne_some.mpr fun value hget => ?_
  exact absurd (le_lastKey h (get_eq_some.mp hget)) (not_le.mpr hlt)

theorem insertEntry_of_forall_lt {key : K} {value : V} {entries : List (K × V)}
    (h : ∀ e ∈ entries, e.1 < key) :
    insertEntry key value entries = entries ++ [(key, value)] := by
  induction entries with
  | nil => rfl
  | cons head rest ih =>
    obtain ⟨k, v⟩ := head
    obtain ⟨hhead, hrest⟩ := List.forall_mem_cons.mp h
    unfold insertEntry
    rw [if_neg (not_lt.mpr (le_of_lt hhead)), if_neg (ne_of_gt hhead), ih hrest, List.cons_append]

/-- Entries inserted in order, above what is there, come after it. -/
theorem entries_foldl_insert (m : OrderedMap K V) {entries : List (K × V)}
    (hsorted : entries.Pairwise fun a b => a.1 < b.1)
    (habove : ∀ e ∈ m.entries, ∀ e' ∈ entries, e.1 < e'.1) :
    (entries.foldl (fun m e => m.insert e.1 e.2) m).entries = m.entries ++ entries := by
  induction entries generalizing m with
  | nil => exact (List.append_nil _).symm
  | cons head rest ih =>
    obtain ⟨hhead, hrest⟩ := List.pairwise_cons.mp hsorted
    have hinsert : (m.insert head.1 head.2).entries = m.entries ++ [head] :=
      insertEntry_of_forall_lt fun e he => habove e he head List.mem_cons_self
    rw [List.foldl_cons, ih _ hrest, hinsert, List.append_assoc, List.singleton_append]
    intro e he e' he'
    rw [hinsert] at he
    rcases List.mem_append.mp he with he | he
    · exact habove e he e' (List.mem_cons_of_mem _ he')
    · rw [List.mem_singleton.mp he]
      exact hhead e' he'

/-- **A map is rebuilt from its values**, if each names its key. -/
theorem rebuild {m : OrderedMap K V} {keyOf : V → K} (h : ∀ e ∈ m.entries, keyOf e.2 = e.1) :
    (m.entries.map Prod.snd).foldl (fun m v => m.insert (keyOf v) v) empty = m := by
  have hsame : ∀ (start : OrderedMap K V) (entries : List (K × V)),
      (∀ e ∈ entries, keyOf e.2 = e.1) →
      (entries.map Prod.snd).foldl (fun m v => m.insert (keyOf v) v) start =
        entries.foldl (fun m e => m.insert e.1 e.2) start := by
    intro start entries hentries
    rw [List.foldl_map]
    refine List.foldl_ext _ _ _ fun m e he => ?_
    rw [hentries e he]
  have hentries : ((m.entries.map Prod.snd).foldl (fun m v => m.insert (keyOf v) v) empty).entries =
      m.entries := by
    rw [hsame empty m.entries h, entries_foldl_insert empty m.sorted fun e he => by cases he]
    rfl
  cases m with
  | mk entries sorted => exact (OrderedMap.mk.injEq ..).mpr hentries

/-- A key inserted above the greatest becomes it. -/
theorem lastKey_insert {m : OrderedMap K V} {last key : K} {value : V}
    (h : m.lastKey = some last) (hlt : last < key) : (m.insert key value).lastKey = some key := by
  show (insertEntry key value m.entries).getLast?.map Prod.fst = some key
  rw [insertEntry_of_forall_lt fun e he => lt_of_le_of_lt (le_lastKey h he) hlt,
    List.getLast?_concat]
  rfl

end OrderedMap
