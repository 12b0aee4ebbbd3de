/-!
# Sorted maps

`SortedMap K V` is a finite map kept as its list of entries in strictly
increasing key order, so a map has one representation and two maps with the
same lookups are equal (`SortedMap.ext_get?`).  `insert` overwrites and `union`
lets the right-hand map win.
-/

namespace Sequencer

structure SortedMap (K V : Type) [Ord K] where
  entries : List (K × V)
  sorted : entries.Pairwise fun a b => compare a.1 b.1 = .lt

namespace SortedMap

section Entries

variable {K V : Type} [Ord K]

def insertEntry (key : K) (value : V) : List (K × V) → List (K × V)
  | [] => [(key, value)]
  | (k, v) :: rest =>
      match compare key k with
      | .lt => (key, value) :: (k, v) :: rest
      | .eq => (key, value) :: rest
      | .gt => (k, v) :: insertEntry key value rest

def findEntry (key : K) : List (K × V) → Option V
  | [] => none
  | (k, v) :: rest =>
      match compare key k with
      | .eq => some v
      | _ => findEntry key rest

theorem mem_insertEntry {key : K} {value : V} {entry : K × V} {entries : List (K × V)}
    (h : entry ∈ insertEntry key value entries) :
    entry = (key, value) ∨ entry ∈ entries := by
  induction entries with
  | nil => simpa [insertEntry] using h
  | cons head rest ih =>
      obtain ⟨k, v⟩ := head
      simp only [insertEntry] at h
      split at h
      · simpa using h
      · rcases List.mem_cons.1 h with h | h
        · exact .inl h
        · exact .inr (List.mem_cons_of_mem _ h)
      · rcases List.mem_cons.1 h with h | h
        · exact .inr (h ▸ List.mem_cons_self)
        · exact (ih h).imp_right (List.mem_cons_of_mem _)

variable [Std.TransOrd K]

theorem sorted_insertEntry {key : K} {value : V} {entries : List (K × V)}
    (h : entries.Pairwise fun a b => compare a.1 b.1 = .lt) :
    (insertEntry key value entries).Pairwise fun a b => compare a.1 b.1 = .lt := by
  induction entries with
  | nil => simp [insertEntry]
  | cons head rest ih =>
      obtain ⟨k, v⟩ := head
      have ⟨below, tail⟩ := List.pairwise_cons.1 h
      simp only [insertEntry]
      split
      · next hlt =>
        refine List.pairwise_cons.2 ⟨fun entry he => ?_, h⟩
        rcases List.mem_cons.1 he with rfl | he
        · exact hlt
        · exact Std.TransCmp.lt_trans hlt (below entry he)
      · next heq =>
        refine List.pairwise_cons.2 ⟨fun entry he => ?_, tail⟩
        exact Std.TransCmp.lt_of_eq_of_lt heq (below entry he)
      · next hgt =>
        refine List.pairwise_cons.2 ⟨fun entry he => ?_, ih tail⟩
        rcases mem_insertEntry he with rfl | he
        · exact Std.OrientedCmp.lt_of_gt hgt
        · exact below entry he

end Entries

variable {K V : Type} [Ord K]

def empty : SortedMap K V :=
  ⟨[], .nil⟩

instance : EmptyCollection (SortedMap K V) := ⟨empty⟩

instance : Inhabited (SortedMap K V) := ⟨empty⟩

instance [DecidableEq K] [DecidableEq V] : DecidableEq (SortedMap K V) := fun a b =>
  decidable_of_iff (a.entries = b.entries) (by cases a; cases b; simp)

def get? (map : SortedMap K V) (key : K) : Option V :=
  findEntry key map.entries

def contains (map : SortedMap K V) (key : K) : Bool :=
  (map.get? key).isSome

def size (map : SortedMap K V) : Nat :=
  map.entries.length

def isEmpty (map : SortedMap K V) : Bool :=
  map.entries.isEmpty

def keys (map : SortedMap K V) : List K :=
  map.entries.map Prod.fst

variable [Std.TransOrd K]

def insert (map : SortedMap K V) (key : K) (value : V) : SortedMap K V :=
  ⟨insertEntry key value map.entries, sorted_insertEntry map.sorted⟩

/-- All bindings of both maps; on a common key `top` wins. -/
def union (base top : SortedMap K V) : SortedMap K V :=
  top.entries.foldl (fun map entry => map.insert entry.1 entry.2) base

def ofList (entries : List (K × V)) : SortedMap K V :=
  entries.foldl (fun map entry => map.insert entry.1 entry.2) empty

omit [Std.TransOrd K] in
theorem get?_empty (key : K) : (empty : SortedMap K V).get? key = none := rfl

variable [Std.LawfulEqOrd K]

omit [Std.TransOrd K] in
theorem findEntry_insertEntry (key other : K) (value : V) (entries : List (K × V)) :
    findEntry other (insertEntry key value entries) =
      if compare other key = .eq then some value else findEntry other entries := by
  induction entries with
  | nil =>
      simp only [insertEntry, findEntry]
      cases compare other key <;> rfl
  | cons head rest ih =>
      obtain ⟨k, v⟩ := head
      simp only [insertEntry]
      split
      · simp only [findEntry]
        cases compare other key <;> rfl
      · next heq =>
        obtain rfl := Std.LawfulEqOrd.eq_of_compare heq
        simp only [findEntry]
        cases compare other key <;> rfl
      · next hgt =>
        simp only [findEntry, ih]
        split
        · next heq =>
          obtain rfl := Std.LawfulEqOrd.eq_of_compare heq
          have : compare other key ≠ .eq := fun h => by
            obtain rfl := Std.LawfulEqOrd.eq_of_compare h
            simp at hgt
          simp [this]
        · rfl

@[simp] theorem get?_insert (map : SortedMap K V) (key other : K) (value : V) :
    (map.insert key value).get? other =
      if compare other key = .eq then some value else map.get? other :=
  findEntry_insertEntry key other value map.entries

omit [Std.TransOrd K] [Std.LawfulEqOrd K] in
theorem findEntry_eq_none {key : K} {entries : List (K × V)}
    (h : ∀ entry ∈ entries, compare key entry.1 = .lt) : findEntry key entries = none := by
  induction entries with
  | nil => rfl
  | cons head rest ih =>
      have first := h head List.mem_cons_self
      simp only [findEntry, first]
      exact ih fun entry he => h entry (List.mem_cons_of_mem _ he)

theorem get?_foldl_insert {entries : List (K × V)}
    (sorted : entries.Pairwise fun a b => compare a.1 b.1 = .lt) (base : SortedMap K V)
    (key : K) :
    (entries.foldl (fun map entry => map.insert entry.1 entry.2) base).get? key =
      (findEntry key entries).or (base.get? key) := by
  induction entries generalizing base with
  | nil => rfl
  | cons head rest ih =>
      obtain ⟨k, v⟩ := head
      have ⟨below, tail⟩ := List.pairwise_cons.1 sorted
      rw [List.foldl_cons, ih tail, get?_insert]
      by_cases same : compare key k = .eq
      · obtain rfl := Std.LawfulEqOrd.eq_of_compare same
        have absent : findEntry key rest = none := findEntry_eq_none below
        simp [findEntry, absent]
      · simp only [findEntry, if_neg same]

@[simp] theorem get?_union (base top : SortedMap K V) (key : K) :
    (base.union top).get? key = (top.get? key).or (base.get? key) :=
  get?_foldl_insert top.sorted base key

private theorem head_not_lt {k l : K} {v w : V} {rest rest' : List (K × V)}
    (h' : ((l, w) :: rest').Pairwise fun a b => compare a.1 b.1 = .lt)
    (same : ∀ key, findEntry key ((k, v) :: rest) = findEntry key ((l, w) :: rest')) :
    compare k l ≠ .lt := by
  intro hlt
  have absent : findEntry k ((l, w) :: rest') = none :=
    findEntry_eq_none fun entry he => by
      rcases List.mem_cons.1 he with rfl | he
      · exact hlt
      · exact Std.TransCmp.lt_trans hlt ((List.pairwise_cons.1 h').1 entry he)
  have found := same k
  rw [absent] at found
  simp [findEntry] at found

theorem entries_eq_of_findEntry {entries entries' : List (K × V)}
    (h : entries.Pairwise fun a b => compare a.1 b.1 = .lt)
    (h' : entries'.Pairwise fun a b => compare a.1 b.1 = .lt)
    (same : ∀ key, findEntry key entries = findEntry key entries') : entries = entries' := by
  induction entries generalizing entries' with
  | nil =>
      cases entries' with
      | nil => rfl
      | cons head rest =>
          have := same head.1
          simp [findEntry] at this
  | cons head rest ih =>
      cases entries' with
      | nil =>
          have := same head.1
          simp [findEntry] at this
      | cons head' rest' =>
          obtain ⟨k, v⟩ := head
          obtain ⟨l, w⟩ := head'
          have hkl : k = l := by
            have notLt := head_not_lt h' same
            have notGt := head_not_lt h fun key => (same key).symm
            cases hc : compare k l with
            | lt => exact absurd hc notLt
            | eq => exact Std.LawfulEqOrd.eq_of_compare hc
            | gt => exact absurd (Std.OrientedCmp.lt_of_gt hc) notGt
          subst hkl
          have hvw : v = w := by
            have := same k
            simpa [findEntry] using this
          subst hvw
          have ⟨below, tail⟩ := List.pairwise_cons.1 h
          have ⟨below', tail'⟩ := List.pairwise_cons.1 h'
          congr 1
          refine ih tail tail' fun key => ?_
          by_cases hc : compare key k = .eq
          · obtain rfl := Std.LawfulEqOrd.eq_of_compare hc
            rw [findEntry_eq_none below, findEntry_eq_none below']
          · have := same key
            simpa only [findEntry] using this

theorem ext_get? {a b : SortedMap K V} (h : ∀ key, a.get? key = b.get? key) : a = b := by
  obtain ⟨entries, sorted⟩ := a
  obtain ⟨entries', sorted'⟩ := b
  congr 1
  exact entries_eq_of_findEntry sorted sorted' h

end SortedMap

end Sequencer
