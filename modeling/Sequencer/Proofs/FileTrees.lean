import Sequencer.Files.Tree
import Sequencer.Proofs.FilePaths

/-!
# Following and making directories

The names of a path lead through places of a tree.  A directory can be entered when each of these
places is a directory, and made when each is one or is vacant; making it puts directories at those
places and nowhere else.  Then a file can be written, and what is written is read back.
-/

namespace Sequencer.FileTree

/-! ## Places -/

def visits : List String → List String → List (String × List String)
  | [], _ => []
  | name :: rest, place => (name, next place name) :: visits rest (next place name)

theorem next_cases (place : List String) (name : String) :
    Files.IsIdle name ∧ next place name = place ∨
      name = ".." ∧ next place name = place.dropLast ∨ next place name = place ++ [name] := by
  unfold next Files.IsIdle
  split
  · next idle => exact .inl ⟨idle, rfl⟩
  · split
    · next up => exact .inr (.inl ⟨up, rfl⟩)
    · exact .inr (.inr rfl)

theorem enter?_eq_some_iff {tree : FileTree} {names place goal : List String} :
    tree.enter? names place = some goal ↔
      (∀ visit ∈ visits names place, tree.isDirectory visit.2 = true) ∧
        names.foldl next place = goal := by
  induction names generalizing place with
  | nil => simp [enter?, visits]
  | cons name names ih =>
      rw [enter?, visits, List.forall_mem_cons, List.foldl_cons]
      split
      · next here => simp [ih, here]
      · next missing => simp [missing]

/-! ## Making directories -/

/-- A place is a directory, or a name short enough leads to it and nothing is there. -/
def CanPass (tree : FileTree) (visit : String × List String) : Prop :=
  tree.isDirectory visit.2 = true ∨
    tree.node? visit.2 = none ∧ visit.1.utf8ByteSize ≤ Files.maxName

instance (tree : FileTree) : DecidablePred tree.CanPass :=
  fun visit => inferInstanceAs (Decidable (tree.isDirectory visit.2 = true ∨
    tree.node? visit.2 = none ∧ visit.1.utf8ByteSize ≤ Files.maxName))

/-- A place and all above it are directories.  So from here two dots lead to a directory, and a
vacant place has the name that leads to it for its last. -/
def Standing (tree : FileTree) (place : List String) : Prop :=
  ∀ above, above <+: place → tree.isDirectory above = true

theorem isDirectory_iff {tree : FileTree} {place : List String} :
    tree.isDirectory place = true ↔ tree.node? place = some .directory := by
  unfold isDirectory
  split <;> simp_all

theorem standing_nil (tree : FileTree) : tree.Standing [] := by
  intro above top
  rw [List.prefix_nil.mp top]
  rfl

theorem Standing.next {tree : FileTree} {place : List String} (standing : tree.Standing place)
    {name : String} (here : tree.isDirectory (next place name) = true) :
    tree.Standing (FileTree.next place name) := by
  intro above front
  rcases next_cases place name with ⟨-, same⟩ | ⟨-, up⟩ | down
  · rw [same] at front
    exact standing above front
  · rw [up] at front
    exact standing above (front.trans (List.dropLast_prefix place))
  · rw [down, List.prefix_concat_iff] at front
    rcases front with rfl | front
    · rwa [down] at here
    · exact standing above front

theorem Standing.next_eq {tree : FileTree} {place : List String} (standing : tree.Standing place)
    {name : String} (missing : tree.isDirectory (FileTree.next place name) = false) :
    FileTree.next place name = place ++ [name] := by
  rcases next_cases place name with ⟨-, same⟩ | ⟨-, up⟩ | down
  · rw [same, standing place (List.prefix_refl place)] at missing
    contradiction
  · rw [up, standing _ (List.dropLast_prefix place)] at missing
    contradiction
  · exact down

theorem mem_visits {names place : List String} {visit : String × List String}
    (member : visit ∈ visits names place) : ∃ before, visit.2 = next before visit.1 := by
  induction names generalizing place with
  | nil => cases member
  | cons name names ih =>
      rcases List.mem_cons.mp member with rfl | later
      · exact ⟨place, rfl⟩
      · exact ih later

theorem node?_set_directory {tree : FileTree} {place : List String}
    (vacant : tree.node? place = none) (other : List String) :
    (tree.set place .directory).node? other =
      if place = other then some .directory else tree.node? other := by
  refine tree.node?_set .directory ?_ other
  rintro rfl
  cases vacant

theorem Standing.set {tree : FileTree} {place other : List String} (standing : tree.Standing place)
    (vacant : tree.node? other = none) : (tree.set other .directory).Standing place := by
  intro above front
  rw [isDirectory_iff, node?_set_directory vacant]
  split
  · rfl
  · exact isDirectory_iff.mp (standing above front)

theorem utf8ByteSize_le_of_next {before place : List String} {name other : String}
    (short : name.utf8ByteSize ≤ Files.maxName) (reached : next before other = place ++ [name]) :
    other.utf8ByteSize ≤ Files.maxName := by
  rcases next_cases before other with ⟨rfl | rfl, -⟩ | ⟨rfl, -⟩ | down
  · decide
  · decide
  · decide
  · rw [down] at reached
    rwa [List.singleton_inj.mp (List.append_inj_right' reached rfl)]

theorem canPass_set_iff {tree : FileTree} {place : List String} {name : String}
    (vacant : tree.node? (place ++ [name]) = none) (short : name.utf8ByteSize ≤ Files.maxName)
    {names start : List String} {visit : String × List String}
    (member : visit ∈ visits names start) :
    (tree.set (place ++ [name]) .directory).CanPass visit ↔ tree.CanPass visit := by
  obtain ⟨before, reached⟩ := mem_visits member
  unfold CanPass
  rw [isDirectory_iff, isDirectory_iff, node?_set_directory vacant]
  by_cases same : place ++ [name] = visit.2
  · have shortVisit := utf8ByteSize_le_of_next short (reached.symm.trans same.symm)
    rw [if_pos same, ← same, vacant]
    simp [shortVisit]
  · rw [if_neg same]

structure Makes (tree : FileTree) (names place : List String) (result : FileTree × Bool) :
    Prop where
  done : result.2 = true ↔ ∀ visit ∈ visits names place, tree.CanPass visit
  nodes : result.2 = true → ∀ other, result.1.node? other =
    if other ∈ (visits names place).map Prod.snd then some .directory else tree.node? other

theorem Makes.enter {tree : FileTree} {names place : List String} {name : String}
    {result : FileTree × Bool} (found : tree.node? (next place name) = some .directory)
    (makes : tree.Makes names (next place name) result) :
    tree.Makes (name :: names) place result := by
  constructor
  · rw [makes.done, visits, List.forall_mem_cons]
    simp [CanPass, isDirectory_iff, found]
  · intro done other
    rw [visits, List.map_cons, makes.nodes done other]
    by_cases first : other = next place name
    · simp [first, found]
    · simp only [List.mem_cons, first, false_or]

theorem Makes.make {tree : FileTree} {names place : List String} {name : String}
    {result : FileTree × Bool} (vacant : tree.node? (next place name) = none)
    (down : next place name = place ++ [name]) (short : name.utf8ByteSize ≤ Files.maxName)
    (makes : (tree.set (next place name) .directory).Makes names (next place name) result) :
    tree.Makes (name :: names) place result := by
  have kept : ∀ visit ∈ visits names (next place name),
      (tree.set (next place name) .directory).CanPass visit ↔ tree.CanPass visit := by
    intro visit member
    rw [down] at vacant ⊢
    exact canPass_set_iff vacant short member
  constructor
  · rw [makes.done, forall₂_congr kept, visits, List.forall_mem_cons]
    simp [CanPass, vacant, short]
  · intro done other
    rw [visits, List.map_cons, makes.nodes done other, node?_set_directory vacant]
    by_cases first : next place name = other
    · simp [first]
    · simp only [List.mem_cons, first, Ne.symm first, false_or, if_false]

theorem makes_makeNames {tree : FileTree} {place : List String} (standing : tree.Standing place)
    (names : List String) : tree.Makes names place (tree.makeNames names place) := by
  induction names generalizing tree place with
  | nil => exact ⟨by simp [makeNames, visits], by simp [makeNames, visits]⟩
  | cons name names ih =>
      rw [makeNames]
      cases found : tree.node? (next place name) with
      | some node =>
          cases node with
          | directory => exact .enter found (ih (standing.next (isDirectory_iff.mpr found)))
          | file bytes => exact ⟨by simp [visits, CanPass, isDirectory_iff, found], by simp⟩
      | none =>
          have missing : tree.isDirectory (next place name) = false := by
            simp [isDirectory, found]
          by_cases short : name.utf8ByteSize ≤ Files.maxName
          · have here : (tree.set (next place name) .directory).isDirectory (next place name) =
                true := by
              rw [isDirectory_iff, node?_set_directory found, if_pos rfl]
            rw [if_neg (Nat.not_lt.mpr short)]
            exact .make found (standing.next_eq missing) short (ih ((standing.set found).next here))
          · rw [if_pos (Nat.lt_of_not_le short)]
            exact ⟨by simp [visits, CanPass, missing, short], by simp⟩

/-! ## Idle names -/

theorem next_of_isIdle {name : String} (idle : Files.IsIdle name) (place : List String) :
    next place name = place :=
  if_pos idle

theorem canPass_of_isIdle {tree : FileTree} {name : String} (idle : Files.IsIdle name)
    {place : List String} (clear : tree.isDirectory place = true ∨ tree.node? place = none) :
    tree.CanPass (name, place) := by
  have short : name.utf8ByteSize ≤ Files.maxName := by
    rcases idle with rfl | rfl
    · decide
    · decide
  exact clear.imp_right fun vacant => ⟨vacant, short⟩

/-- Whether names can be passed does not hang on idle ones, for these stay at a place that was
passed before. -/
theorem canPass_leading_iff {tree : FileTree} {place : List String}
    (clear : tree.isDirectory place = true ∨ tree.node? place = none) (names : List String) :
    (∀ visit ∈ visits (Files.leading names) place, tree.CanPass visit) ↔
      ∀ visit ∈ visits names place, tree.CanPass visit := by
  induction names generalizing place with
  | nil => rfl
  | cons name names ih =>
      by_cases idle : Files.IsIdle name
      · rw [Files.leading_cons_of_isIdle idle, visits, next_of_isIdle idle, List.forall_mem_cons,
          ih clear, and_iff_right (canPass_of_isIdle idle clear)]
      · rw [Files.leading_cons_of_not_isIdle idle, visits, visits, List.forall_mem_cons,
          List.forall_mem_cons]
        exact and_congr_right fun passes => ih (passes.imp_right And.left)

theorem mem_visits_leading_iff {place other : List String} (apart : other ≠ place)
    (names : List String) :
    other ∈ (visits (Files.leading names) place).map Prod.snd ↔
      other ∈ (visits names place).map Prod.snd := by
  induction names generalizing place with
  | nil => rfl
  | cons name names ih =>
      by_cases idle : Files.IsIdle name
      · rw [Files.leading_cons_of_isIdle idle, visits, next_of_isIdle idle, List.map_cons,
          List.mem_cons, ih apart, or_iff_right apart]
      · rw [Files.leading_cons_of_not_isIdle idle, visits, visits, List.map_cons, List.map_cons,
          List.mem_cons, List.mem_cons]
        by_cases here : other = next place name
        · simp [here]
        · rw [ih here]

theorem Makes.of_leading {tree : FileTree} {names names' : List String}
    {result : FileTree × Bool} (same : Files.leading names = Files.leading names')
    (makes : tree.Makes names [] result) : tree.Makes names' [] result := by
  have top : tree.isDirectory [] = true ∨ tree.node? [] = none := .inl rfl
  constructor
  · rw [makes.done, ← canPass_leading_iff top names, same, canPass_leading_iff top names']
  · intro done other
    rw [makes.nodes done]
    by_cases start : other = []
    · subst start
      simp [node?]
    · have places : other ∈ (visits names []).map Prod.snd ↔
          other ∈ (visits names' []).map Prod.snd := by
        rw [← mem_visits_leading_iff start names, same, mem_visits_leading_iff start names']
      simp only [places]

/-! ## Files -/

def target (path : String) : List String :=
  (Files.above path).foldl next [] ++ [Files.lastName path]

def passed (path : String) : List (List String) :=
  (visits (Files.above path) []).map Prod.snd

theorem place?_eq_some_iff {tree : FileTree} {path : String} {place : List String} :
    tree.place? path = some place ↔
      Files.NamesFile path ∧ (∀ other ∈ passed path, tree.isDirectory other = true) ∧
        target path = place := by
  simp only [place?, Files.getLast?_names]
  constructor
  · intro found
    split at found
    · cases found
    · next acceptable =>
        split at found
        · cases found
        · next sound =>
            simp only [not_or, Nat.not_lt] at sound
            obtain ⟨empty, dot, up, short⟩ := sound
            obtain ⟨goal, entered, rfl⟩ := Option.map_eq_some_iff.mp found
            obtain ⟨directories, rfl⟩ := enter?_eq_some_iff.mp entered
            refine ⟨⟨by simpa using acceptable, ?_, up, short⟩, ?_, rfl⟩
            · exact fun idle => idle.elim empty dot
            · exact List.forall_mem_map.mpr directories
  · rintro ⟨file, directories, rfl⟩
    have entered := enter?_eq_some_iff.mpr ⟨List.forall_mem_map.mp directories, rfl⟩
    have sound : ¬ (Files.lastName path = "" ∨ Files.lastName path = "." ∨
        Files.lastName path = ".." ∨ Files.maxName < (Files.lastName path).utf8ByteSize) := by
      rintro (empty | dot | up | long)
      · exact file.real (.inl empty)
      · exact file.real (.inr dot)
      · exact file.notUp up
      · exact absurd file.short (Nat.not_le.mpr long)
    rw [Files.above] at entered
    simp only [file.acceptable, Bool.not_true, Bool.false_eq_true, if_false, if_neg sound, entered]
    rfl

theorem write?_eq_some_iff {tree tree' : FileTree} {path : String} {bytes : ByteArray} :
    tree.write? path bytes = some tree' ↔
      tree.place? path = some (target path) ∧ tree.isDirectory (target path) = false ∧
        tree.set (target path) (.file bytes) = tree' := by
  rw [write?]
  cases found : tree.place? path with
  | none => simp
  | some place =>
      obtain ⟨-, -, rfl⟩ := place?_eq_some_iff.mp found
      cases taken : tree.isDirectory (target path) <;> simp [taken]

theorem namesFile_of_write? {tree tree' : FileTree} {path : String} {bytes : ByteArray}
    (written : tree.write? path bytes = some tree') : Files.NamesFile path :=
  (place?_eq_some_iff.mp (write?_eq_some_iff.mp written).1).1

theorem read?_of_write? {tree tree' : FileTree} {path : String} {bytes : ByteArray}
    (written : tree.write? path bytes = some tree') : tree'.read? path = some bytes := by
  obtain ⟨found, free, rfl⟩ := write?_eq_some_iff.mp written
  obtain ⟨file, directories, -⟩ := place?_eq_some_iff.mp found
  have nodes := tree.node?_set (.file bytes) (by simp [target] : target path ≠ [])
  -- The file takes no place on the way, since those are directories.
  have found' : (tree.set (target path) (.file bytes)).place? path = some (target path) := by
    refine place?_eq_some_iff.mpr ⟨file, fun other member => ?_, rfl⟩
    have here := directories other member
    rw [isDirectory_iff] at here ⊢
    rw [nodes, if_neg, here]
    rintro rfl
    rw [isDirectory_iff.mpr here] at free
    cases free
  simp [read?, found', nodes]

/-- A file can be put at a path once the directories above it are made. -/
@[mk_iff]
structure Writable (tree : FileTree) (path : String) : Prop where
  file : Files.NamesFile path
  passable : ∀ visit ∈ visits (Files.above path) [], tree.CanPass visit
  free : tree.isDirectory (target path) = false
  apart : target path ∉ passed path

instance (tree : FileTree) : DecidablePred tree.Writable :=
  fun path => decidable_of_iff' _ (writable_iff tree path)

theorem exists_makes_parent {path : String} (file : Files.NamesFile path) (tree : FileTree) :
    ∃ parent, Files.parent? path = some parent ∧
      tree.Makes (Files.above path) [] (tree.makeDirs parent) := by
  obtain ⟨parent, cut, begins, leads⟩ := file.exists_parent
  have made : tree.makeDirs parent = tree.makeNames (Files.names parent) [] := by
    by_cases empty : parent = ""
    · subst empty
      rfl
    · have acceptable := Files.isAcceptable_of_prefix file.acceptable empty begins
      simp [makeDirs, empty, acceptable]
  refine ⟨parent, cut, ?_⟩
  rw [made]
  exact (tree.makes_makeNames tree.standing_nil _).of_leading leads

theorem Makes.writes_iff_writable {tree : FileTree} {path : String} {result : FileTree × Bool}
    (makes : tree.Makes (Files.above path) [] result) (file : Files.NamesFile path)
    (bytes : ByteArray) :
    (result.2 = true ∧ ∃ tree', result.1.write? path bytes = some tree') ↔ tree.Writable path := by
  have directory : result.2 = true → ∀ other, result.1.isDirectory other = true ↔
      other ∈ passed path ∨ tree.isDirectory other = true := by
    intro done other
    rw [isDirectory_iff, isDirectory_iff, makes.nodes done, passed]
    split <;> simp_all
  constructor
  · rintro ⟨done, tree', written⟩
    obtain ⟨-, free, -⟩ := write?_eq_some_iff.mp written
    rw [Bool.eq_false_iff, Ne, directory done, not_or] at free
    exact ⟨file, makes.done.mp done, by simpa using free.2, free.1⟩
  · intro writable
    have done := makes.done.mpr writable.passable
    refine ⟨done, _, write?_eq_some_iff.mpr ⟨?_, ?_, rfl⟩⟩
    · have entered := fun other member => (directory done other).mpr (.inl member)
      exact place?_eq_some_iff.mpr ⟨file, entered, rfl⟩
    · rw [Bool.eq_false_iff, Ne, directory done, not_or]
      exact ⟨writable.apart, by simp [writable.free]⟩

end Sequencer.FileTree
