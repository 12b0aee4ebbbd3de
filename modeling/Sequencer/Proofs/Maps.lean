import Sequencer.SortedMap

/-!
# Maps and their entries

What a sorted map finds is what its entries say, so the keys are distinct and the entries make up
the map again.  `SortedMap.union` is associative and idempotent, with the empty map for its unit.
-/

namespace Sequencer.SortedMap

variable {K V : Type} [Ord K] [Std.LawfulEqOrd K]

theorem keys_nodup (map : SortedMap K V) : map.keys.Nodup := by
  have ascending : map.keys.Pairwise fun a b => compare a b = .lt :=
    List.pairwise_map.mpr map.sorted
  apply ascending.imp
  rintro a _ less rfl
  simp at less

theorem findEntry_eq_some_iff {key : K} {value : V} {entries : List (K × V)}
    (sorted : entries.Pairwise fun a b => compare a.1 b.1 = .lt) :
    findEntry key entries = some value ↔ (key, value) ∈ entries := by
  induction entries with
  | nil => simp [findEntry]
  | cons head rest ih =>
      obtain ⟨k, v⟩ := head
      obtain ⟨below, tail⟩ := List.pairwise_cons.mp sorted
      have found : findEntry key ((k, v) :: rest) =
          if compare key k = .eq then some v else findEntry key rest := by
        rw [findEntry]
        cases compare key k <;> rfl
      rw [found, List.mem_cons, ← ih tail]
      by_cases same : key = k
      · have absent : findEntry key rest = none := by
          rw [same]
          exact findEntry_eq_none below
        subst same
        simp [absent, eq_comm]
      · simp [same]

theorem get?_eq_some_iff {map : SortedMap K V} {key : K} {value : V} :
    map.get? key = some value ↔ (key, value) ∈ map.entries :=
  findEntry_eq_some_iff map.sorted

omit [Std.LawfulEqOrd K] in
theorem isEmpty_iff {map : SortedMap K V} : map.isEmpty = true ↔ map = empty := by
  obtain ⟨entries, sorted⟩ := map
  rw [isEmpty, List.isEmpty_iff, empty, mk.injEq]

theorem mem_keys_iff {map : SortedMap K V} {key : K} :
    key ∈ map.keys ↔ map.contains key = true := by
  rw [contains, Option.isSome_iff_exists]
  simp [keys, get?_eq_some_iff]

variable [Std.TransOrd K]

omit [Std.LawfulEqOrd K] in
theorem mem_entries_foldl_insert {entries : List (K × V)} {base : SortedMap K V} {entry : K × V}
    (member : entry ∈
      (entries.foldl (fun map entry => map.insert entry.1 entry.2) base).entries) :
    entry ∈ entries ∨ entry ∈ base.entries := by
  induction entries generalizing base with
  | nil => exact .inr member
  | cons head rest ih =>
      rcases ih member with later | earlier
      · exact .inl (List.mem_cons_of_mem _ later)
      · rcases mem_insertEntry earlier with rfl | kept
        · exact .inl List.mem_cons_self
        · exact .inr kept

omit [Std.LawfulEqOrd K] in
theorem mem_of_mem_ofList {entries : List (K × V)} {entry : K × V}
    (member : entry ∈ (ofList entries).entries) : entry ∈ entries := by
  rcases mem_entries_foldl_insert member with given | none_given
  · exact given
  · cases none_given

theorem contains_union (base top : SortedMap K V) (key : K) :
    (base.union top).contains key = (base.contains key || top.contains key) := by
  rw [contains, get?_union, Option.isSome_or, Bool.or_comm]
  rfl

theorem union_assoc (first second third : SortedMap K V) :
    (first.union second).union third = first.union (second.union third) := by
  apply ext_get?
  intro key
  simp only [get?_union, Option.or_assoc]

theorem union_self (map : SortedMap K V) : map.union map = map := by
  apply ext_get?
  intro key
  rw [get?_union, Option.or_self]

theorem empty_union (map : SortedMap K V) : empty.union map = map := by
  apply ext_get?
  intro key
  rw [get?_union, get?_empty, Option.or_none]

theorem ofList_entries (map : SortedMap K V) : ofList map.entries = map :=
  empty_union map

end Sequencer.SortedMap
