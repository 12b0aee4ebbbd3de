import Sequencer.Files.Path
import Mathlib.Data.List.Basic
import Mathlib.Tactic.MkIffOfInductiveProp

/-!
# Names and parents of paths

A path that a file can have ends with a name.  Its parent is a text of its own, but has the names
before the last one, except for idle ones.
-/

namespace Sequencer.Files

/-! ## Names -/

theorem splitSlashes_ne_nil (chars : List Char) : splitSlashes chars ≠ [] := by
  cases chars with
  | nil => simp [splitSlashes]
  | cons c rest =>
      rw [splitSlashes]
      split
      · simp
      · split <;> simp

theorem splitSlashes_slash (rest : List Char) :
    splitSlashes ('/' :: rest) = [] :: splitSlashes rest := by
  rw [splitSlashes]
  split
  · next empty => exact absurd empty (splitSlashes_ne_nil rest)
  · next name names split => rw [if_pos rfl, split]

theorem splitSlashes_of_ne {c : Char} (other : c ≠ '/') {rest : List Char} {name : List Char}
    {names : List (List Char)} (split : splitSlashes rest = name :: names) :
    splitSlashes (c :: rest) = (c :: name) :: names := by
  rw [splitSlashes, split]
  exact if_neg other

theorem splitSlashes_append (chars more : List Char) :
    splitSlashes (chars ++ '/' :: more) = splitSlashes chars ++ splitSlashes more := by
  induction chars with
  | nil => exact splitSlashes_slash more
  | cons c chars ih =>
      by_cases slash : c = '/'
      · subst slash
        rw [List.cons_append, splitSlashes_slash, splitSlashes_slash, ih, List.cons_append]
      · obtain ⟨name, names, split⟩ := List.exists_cons_of_ne_nil (splitSlashes_ne_nil chars)
        rw [split, List.cons_append] at ih
        rw [List.cons_append, splitSlashes_of_ne slash ih, splitSlashes_of_ne slash split,
          List.cons_append]

theorem splitSlashes_of_not_mem {chars : List Char} (single : '/' ∉ chars) :
    splitSlashes chars = [chars] := by
  induction chars with
  | nil => rfl
  | cons c chars ih =>
      rw [List.mem_cons, not_or] at single
      exact splitSlashes_of_ne (Ne.symm single.1) (ih single.2)

theorem exists_last (chars : List Char) :
    ∃ last, '/' ∉ last ∧ (chars = last ∨ ∃ above, chars = above ++ '/' :: last) := by
  induction chars with
  | nil => exact ⟨[], by simp, .inl rfl⟩
  | cons c chars ih =>
      obtain ⟨last, single, rfl | ⟨above, rfl⟩⟩ := ih
      · by_cases slash : c = '/'
        · exact ⟨chars, single, .inr ⟨[], by rw [slash]; rfl⟩⟩
        · refine ⟨c :: chars, ?_, .inl rfl⟩
          rw [List.mem_cons, not_or]
          exact ⟨Ne.symm slash, single⟩
      · exact ⟨last, single, .inr ⟨c :: above, rfl⟩⟩

/-! ## The text of a parent -/

def IsIdle (name : String) : Prop :=
  name = "" ∨ name = "."

instance : DecidablePred IsIdle :=
  fun name => inferInstanceAs (Decidable (name = "" ∨ name = "."))

/-- The names that lead somewhere. -/
def leading (names : List String) : List String :=
  names.filter fun name => ¬ IsIdle name

theorem leading_append (names more : List String) :
    leading (names ++ more) = leading names ++ leading more :=
  List.filter_append _ _

theorem leading_cons_of_isIdle {name : String} (idle : IsIdle name) (names : List String) :
    leading (name :: names) = leading names :=
  List.filter_cons_of_neg (by simpa using idle)

theorem leading_cons_of_not_isIdle {name : String} (real : ¬ IsIdle name) (names : List String) :
    leading (name :: names) = name :: leading names :=
  List.filter_cons_of_pos (by simpa using real)

theorem names_ofList (chars : List Char) :
    names (String.ofList chars) = (splitSlashes chars).map String.ofList := by
  rw [names, String.toList_ofList]

theorem names_ofList_append (chars : List Char) {last : List Char} (single : '/' ∉ last) :
    names (String.ofList (chars ++ '/' :: last)) =
      names (String.ofList chars) ++ [String.ofList last] := by
  rw [names_ofList, names_ofList, splitSlashes_append, splitSlashes_of_not_mem single,
    List.map_append, List.map_singleton]

/-- A text begins with another, and nothing that leads anywhere comes after that. -/
structure Trims (text trimmed : List Char) : Prop where
  front : trimmed <+: text
  leads : leading (names (String.ofList text)) = leading (names (String.ofList trimmed))

theorem Trims.cut {text trimmed last : List Char} (trims : Trims text trimmed)
    (single : '/' ∉ last) (idle : IsIdle (String.ofList last)) :
    Trims (text ++ '/' :: last) trimmed where
  front := trims.front.trans (List.prefix_append _ _)
  leads := by
    rw [names_ofList_append text single, leading_append, leading_cons_of_isIdle idle, trims.leads]
    exact List.append_nil _

theorem trims_trimEnd (backwards : List Char) :
    Trims backwards.reverse (trimEnd backwards).reverse := by
  fun_induction trimEnd backwards with
  | case1 => exact ⟨List.prefix_refl _, rfl⟩
  | case2 rest long ih =>
      have cut := @Trims.cut _ _ [] ih (by simp) (.inl rfl)
      simpa using cut
  | case3 => exact ⟨by decide, by decide⟩
  | case4 rest long ih =>
      have cut := @Trims.cut _ _ ['.'] ih (by decide) (.inr rfl)
      simpa using cut
  | case5 rest => exact ⟨List.prefix_refl _, rfl⟩

theorem trimEnd_of_not_isIdle {last rest : List Char} (single : '/' ∉ last)
    (real : ¬ IsIdle (String.ofList last.reverse)) : trimEnd (last ++ rest) = last ++ rest := by
  cases last with
  | nil => exact absurd (.inl rfl) real
  | cons c more =>
      rw [List.mem_cons, not_or] at single
      have first : ∀ others, c :: more ++ rest ≠ '/' :: others :=
        fun _ start => single.1 (List.cons.inj start).1.symm
      have second : ∀ others, c :: more ++ rest ≠ '.' :: '/' :: others := by
        intro others start
        obtain ⟨rfl, later⟩ := List.cons.inj start
        cases more with
        | nil => exact real (.inr rfl)
        | cons d more =>
            obtain ⟨rfl, -⟩ := List.cons.inj later
            exact single.2 List.mem_cons_self
      generalize c :: more ++ rest = backwards at first second
      fun_cases trimEnd backwards with
      | case1 => exact absurd rfl (first _)
      | case2 => exact absurd rfl (first _)
      | case3 => exact absurd rfl (second _)
      | case4 => exact absurd rfl (second _)
      | case5 => rfl

theorem parent?_eq {path : String} {upper last : List Char} (split : path.toList = upper ++ last)
    (single : '/' ∉ last) (real : ¬ IsIdle (String.ofList last))
    (edge : ∀ c ∈ upper.getLast?, c = '/') :
    parent? path = some (String.ofList (trimEnd upper.reverse).reverse) := by
  have long : last ≠ [] := by
    rintro rfl
    exact real (.inl rfl)
  have kept := @trimEnd_of_not_isIdle last.reverse upper.reverse (by simpa using single)
    (by rwa [List.reverse_reverse])
  have dropped : (last.reverse ++ upper.reverse).dropWhile (· != '/') = upper.reverse := by
    rw [List.dropWhile_append_of_pos]
    · rw [← List.head?_reverse] at edge
      cases backwards : upper.reverse with
      | nil => rfl
      | cons c rest => rw [edge c (by simp [backwards])]; rfl
    · intro c member
      rw [bne_iff_ne]
      rintro rfl
      exact single (List.mem_reverse.mp member)
  rw [parent?, split, List.reverse_append, kept]
  split
  · next nothing => simp [long] at nothing
  · next root =>
      have slash : ['/'] = upper ++ last := by
        rw [← List.reverse_inj, List.reverse_append, root]
        rfl
      rw [List.singleton_eq_append_iff] at slash
      simp_all
  · rw [dropped]

/-! ## Paths of files -/

def above (path : String) : List String :=
  (names path).dropLast

def lastName (path : String) : String :=
  (names path).getLastD ""

theorem names_ne_nil (path : String) : names path ≠ [] := by
  simpa [names] using splitSlashes_ne_nil path.toList

theorem getLast?_names (path : String) : (names path).getLast? = some (lastName path) := by
  rw [lastName, List.getLastD_eq_getLast?, List.getLast?_eq_some_getLast (names_ne_nil path)]
  rfl

@[mk_iff]
structure NamesFile (path : String) : Prop where
  acceptable : isAcceptable path = true
  real : ¬ IsIdle (lastName path)
  notUp : lastName path ≠ ".."
  short : (lastName path).utf8ByteSize ≤ maxName

instance : DecidablePred NamesFile :=
  fun path => decidable_of_iff' _ (namesFile_iff path)

/-- The parent of a path leads where the names before the last one do. -/
theorem NamesFile.exists_parent {path : String} (file : NamesFile path) :
    ∃ parent, parent? path = some parent ∧ parent.toList <+: path.toList ∧
      leading (names parent) = leading (above path) := by
  have real := file.real
  rw [lastName] at real
  obtain ⟨last, single, whole | ⟨upper, split⟩⟩ := exists_last path.toList
  · have named : names path = [String.ofList last] := by
      rw [names, whole, splitSlashes_of_not_mem single, List.map_singleton]
    rw [named] at real
    have cut := @parent?_eq path [] last whole single real (by simp)
    refine ⟨"", cut, List.nil_prefix, ?_⟩
    rw [above, named]
    rfl
  · have named : names path = names (String.ofList upper) ++ [String.ofList last] := by
      rw [← names_ofList_append upper single, ← split, String.ofList_toList]
    rw [named, List.getLastD_concat] at real
    rw [List.append_cons] at split
    have cut := @parent?_eq path (upper ++ ['/']) last split single real (by simp)
    have trims := trims_trimEnd (upper ++ ['/']).reverse
    rw [List.reverse_reverse] at trims
    refine ⟨_, cut, ?_, ?_⟩
    · rw [String.toList_ofList, split]
      exact trims.front.trans (List.prefix_append _ _)
    · rw [← trims.leads, names_ofList_append upper (by simp), leading_append, above, named,
        List.dropLast_concat]
      exact List.append_nil _

theorem isAcceptable_of_prefix {path front : String} (acceptable : isAcceptable path = true)
    (long : front ≠ "") (begins : front.toList <+: path.toList) : isAcceptable front = true := by
  obtain ⟨rest, split⟩ := begins
  obtain rfl : path = front ++ String.ofList rest := by
    rw [← String.toList_inj, String.toList_append, String.toList_ofList, split]
  simp only [isAcceptable, Bool.and_eq_true, decide_eq_true_eq, String.utf8ByteSize_append,
    String.toList_append, List.all_append] at acceptable ⊢
  refine ⟨⟨?_, by omega⟩, acceptable.2.1⟩
  simpa using long

end Sequencer.Files
