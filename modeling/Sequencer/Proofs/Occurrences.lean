import Sequencer.Source.File
import Mathlib.Order.Bounds.Basic

/-!
# Occurrences of a text in a file

A needle occurs at an offset when the slice of its length there is the needle.  `findAll` reports
the occurrences that a scan meets which goes on, after each of them, where that one ends.  So it
leaves out only occurrences that overlap a reported one.
-/

namespace Sequencer.SourceFile

/-! ## Bytes of characters -/

@[simp] theorem byteLength_nil : byteLength [] = 0 := rfl

@[simp] theorem byteLength_cons (c : Char) (chars : List Char) :
    byteLength (c :: chars) = c.utf8Size + byteLength chars := rfl

@[simp] theorem byteLength_append (chars more : List Char) :
    byteLength (chars ++ more) = byteLength chars + byteLength more := by
  induction chars with
  | nil => simp
  | cons c chars ih => simp [ih, Nat.add_assoc]

theorem utf8ByteSize_ofList (chars : List Char) :
    (String.ofList chars).utf8ByteSize = byteLength chars := by
  induction chars with
  | nil => rfl
  | cons c chars ih => simp [String.ofList_cons, ih]

theorem byteLength_toList (text : String) : byteLength text.toList = text.utf8ByteSize := by
  rw [← utf8ByteSize_ofList, String.ofList_toList]

theorem byteLength_eq_zero_iff {chars : List Char} : byteLength chars = 0 ↔ chars = [] := by
  cases chars with
  | nil => simp
  | cons c chars =>
      have positive := c.utf8Size_pos
      simp
      omega

theorem utf8ByteSize_pos {text : String} (nonempty : text ≠ "") : 0 < text.utf8ByteSize := by
  rw [← byteLength_toList, Nat.pos_iff_ne_zero, Ne, byteLength_eq_zero_iff,
    String.toList_eq_nil_iff]
  exact nonempty

/-! ## Slices -/

theorem cut_cons_iff {c : Char} {chars taken rest : List Char} {count : Nat} :
    (c :: chars = taken ++ rest ∧ byteLength taken = count + 1) ↔
      ∃ shorter, taken = c :: shorter ∧ chars = shorter ++ rest ∧
        c.utf8Size + byteLength shorter = count + 1 := by
  constructor
  · rintro ⟨split, size⟩
    cases taken with
    | nil => simp at size
    | cons d shorter =>
        obtain ⟨rfl, rfl⟩ := List.cons.inj split
        exact ⟨shorter, rfl, rfl, size⟩
  · rintro ⟨shorter, rfl, rfl, size⟩
    exact ⟨rfl, size⟩

theorem dropBytes_eq_some_iff {chars rest : List Char} {count : Nat} :
    dropBytes chars count = some rest ↔
      ∃ dropped, chars = dropped ++ rest ∧ byteLength dropped = count := by
  fun_induction dropBytes chars count generalizing rest with
  | case1 chars => simp [byteLength_eq_zero_iff]
  | case2 count => simp
  | case3 c chars count fits ih =>
      simp only [ih, cut_cons_iff]
      constructor
      · rintro ⟨dropped, rfl, size⟩
        exact ⟨c :: dropped, dropped, rfl, rfl, by omega⟩
      · rintro ⟨_, dropped, -, rfl, size⟩
        exact ⟨dropped, rfl, by omega⟩
  | case4 c chars count cut =>
      simp only [cut_cons_iff, reduceCtorEq, false_iff]
      rintro ⟨_, dropped, -, -, size⟩
      omega

theorem takeBytes_eq_some_iff {chars taken : List Char} {count : Nat} :
    takeBytes chars count = some taken ↔
      ∃ rest, chars = taken ++ rest ∧ byteLength taken = count := by
  fun_induction takeBytes chars count generalizing taken with
  | case1 chars =>
      simp only [byteLength_eq_zero_iff, Option.some.injEq]
      constructor
      · rintro rfl
        exact ⟨chars, rfl, rfl⟩
      · rintro ⟨rest, -, rfl⟩
        rfl
  | case2 count =>
      simp only [reduceCtorEq, false_iff]
      rintro ⟨rest, empty, size⟩
      obtain ⟨rfl, -⟩ := List.append_eq_nil_iff.mp empty.symm
      simp at size
  | case3 c chars count fits ih =>
      simp only [cut_cons_iff, Option.map_eq_some_iff, ih]
      constructor
      · rintro ⟨shorter, ⟨rest, rfl, size⟩, rfl⟩
        exact ⟨rest, shorter, rfl, rfl, by omega⟩
      · rintro ⟨rest, shorter, rfl, rfl, size⟩
        exact ⟨shorter, ⟨rest, rfl, by omega⟩, rfl⟩
  | case4 c chars count cut =>
      simp only [cut_cons_iff, reduceCtorEq, false_iff]
      rintro ⟨_, shorter, -, -, size⟩
      omega

theorem slice?_eq_some_iff {file : SourceFile} {span : Span} {text : String} :
    file.slice? span = some text ↔
      ∃ before after, file.text.toList = before ++ (text.toList ++ after) ∧
        byteLength before = span.start ∧ span.stop = span.start + text.utf8ByteSize := by
  unfold slice?
  split
  · next ordered =>
    simp only [Option.map_eq_some_iff, Option.bind_eq_some_iff, dropBytes_eq_some_iff,
      takeBytes_eq_some_iff, ← byteLength_toList]
    constructor
    · rintro ⟨taken, ⟨rest, ⟨before, split, start⟩, after, rfl, size⟩, rfl⟩
      rw [String.toList_ofList]
      exact ⟨before, after, split, start, by omega⟩
    · rintro ⟨before, after, split, start, stop⟩
      exact ⟨text.toList, ⟨_, ⟨before, split, start⟩, after, rfl, by omega⟩, text.ofList_toList⟩
  · next inverted =>
    simp only [reduceCtorEq, false_iff]
    rintro ⟨before, after, -, -, stop⟩
    omega

/-! ## Occurrences -/

def Occurs (file : SourceFile) (needle : String) (offset : Nat) : Prop :=
  ∃ before after, file.text = before ++ needle ++ after ∧ before.utf8ByteSize = offset

variable {file : SourceFile} {needle : String}

theorem occurs_iff {offset : Nat} :
    file.Occurs needle offset ↔
      ∃ before after, file.text.toList = before ++ (needle.toList ++ after) ∧
        byteLength before = offset := by
  constructor
  · rintro ⟨before, after, split, rfl⟩
    refine ⟨before.toList, after.toList, ?_, byteLength_toList before⟩
    simp [split]
  · rintro ⟨before, after, split, rfl⟩
    refine ⟨String.ofList before, String.ofList after, ?_, utf8ByteSize_ofList before⟩
    apply String.toList_inj.mp
    simp [split]

theorem occurs_iff_slice? {span : Span} (size : span.stop = span.start + needle.utf8ByteSize) :
    file.Occurs needle span.start ↔ file.slice? span = some needle := by
  simp [occurs_iff, slice?_eq_some_iff, size]

/-- The scan for the needle from `start` on, each next occurrence being the least one that starts
at or after the end of the one before. -/
inductive Scan (file : SourceFile) (needle : String) : Nat → List Span → Prop where
  | done {start : Nat} (absent : ∀ offset, start ≤ offset → ¬ file.Occurs needle offset) :
      Scan file needle start []
  | found {start : Nat} {span : Span} {later : List Span}
      (first : IsLeast {offset | start ≤ offset ∧ file.Occurs needle offset} span.start)
      (size : span.stop = span.start + needle.utf8ByteSize)
      (rest : Scan file needle span.stop later) : Scan file needle start (span :: later)

theorem Occurs.on_boundary {before rest : List Char} {c : Char} {offset : Nat}
    (text : file.text.toList = before ++ c :: rest) (occurs : file.Occurs needle offset)
    (within : byteLength before ≤ offset) :
    (offset = byteLength before ∧ needle.toList <+: c :: rest) ∨
      byteLength before + c.utf8Size ≤ offset := by
  obtain ⟨before', after, split, rfl⟩ := occurs_iff.mp occurs
  rw [text, List.append_eq_append_iff] at split
  rcases split with ⟨more, rfl, tail⟩ | ⟨more, rfl, tail⟩
  · cases more with
    | nil => exact .inl ⟨by simp, after, tail.symm⟩
    | cons d more =>
        obtain ⟨rfl, -⟩ := List.cons.inj tail
        right
        simp
  · have empty : more = [] := by
      rw [byteLength_append] at within
      exact byteLength_eq_zero_iff.mp (by omega)
    subst empty
    exact .inl ⟨by simp, after, tail⟩

theorem not_occurs_at_end {offset : Nat} (nonempty : needle ≠ "")
    (past : byteLength file.text.toList ≤ offset) : ¬ file.Occurs needle offset := by
  intro occurs
  obtain ⟨before, after, split, rfl⟩ := occurs_iff.mp occurs
  have size := congrArg byteLength split
  have positive := utf8ByteSize_pos nonempty
  simp only [byteLength_append, byteLength_toList] at size past
  omega

theorem Scan.of_later {start later : Nat} {spans : List Span} (scan : file.Scan needle later spans)
    (ordered : start ≤ later)
    (skipped : ∀ offset, start ≤ offset → file.Occurs needle offset → later ≤ offset) :
    file.Scan needle start spans := by
  have same : {offset | start ≤ offset ∧ file.Occurs needle offset} =
      {offset | later ≤ offset ∧ file.Occurs needle offset} := by
    ext offset
    constructor
    · rintro ⟨after, occurs⟩
      exact ⟨skipped offset after occurs, occurs⟩
    · rintro ⟨after, occurs⟩
      exact ⟨ordered.trans after, occurs⟩
  cases scan with
  | done absent =>
      refine .done fun offset after occurs => ?_
      exact absent offset (skipped offset after occurs) occurs
  | found first size rest => exact .found (same ▸ first) size rest

theorem scan_matchesFrom (nonempty : needle ≠ "") (before : List Char) {chars : List Char}
    {offset : Nat} (skip : Nat) (text : file.text.toList = before ++ chars)
    (here : byteLength before = offset) :
    file.Scan needle (offset + byteLength (chars.take skip))
      (matchesFrom needle.toList chars offset skip) := by
  fun_induction matchesFrom needle.toList chars offset skip generalizing before with
  | case1 offset skip =>
      refine .done fun later after => not_occurs_at_end nonempty ?_
      simp [text] at after ⊢
      omega
  | case2 c rest offset skip ih =>
      have resumed := ih (before ++ [c]) (by simp [text]) (by simp [here])
      simpa [Nat.add_assoc] using resumed
  | case3 c rest offset found ih =>
      obtain ⟨after, split⟩ := List.isPrefixOf_iff_prefix.mp found
      have resumed := ih (before ++ [c]) (by simp [text]) (by simp [here])
      have stop : offset + c.utf8Size + byteLength (rest.take (needle.toList.length - 1)) =
          offset + needle.utf8ByteSize := by
        rw [← byteLength_toList]
        cases chars : needle.toList with
        | nil => exact absurd (String.toList_eq_nil_iff.mp chars) nonempty
        | cons d shorter =>
            rw [chars] at split
            obtain ⟨rfl, rfl⟩ := List.cons.inj split
            simp [Nat.add_assoc]
      rw [stop] at resumed
      rw [byteLength_toList]
      refine .found ⟨⟨?_, ?_⟩, ?_⟩ rfl resumed
      · simp
      · exact occurs_iff.mpr ⟨before, after, by rw [text, split], here⟩
      · rintro later ⟨past, -⟩
        simpa using past
  | case4 c rest offset absent ih =>
      have resumed := ih (before ++ [c]) (by simp [text]) (by simp [here])
      simp only [List.take_zero, byteLength_nil, Nat.add_zero] at resumed ⊢
      apply resumed.of_later (Nat.le_add_right _ _)
      intro later past occurs
      subst here
      rcases occurs.on_boundary text past with ⟨-, occurring⟩ | beyond
      · exact absurd (List.isPrefixOf_iff_prefix.mpr occurring) absent
      · exact beyond

theorem scan_findAll (nonempty : needle ≠ "") : file.Scan needle 0 (file.findAll needle) := by
  have text : file.text.toList = [] ++ file.text.toList := rfl
  have scan := scan_matchesFrom nonempty [] 0 text byteLength_nil
  have searched : needle.isEmpty = false := by simpa using nonempty
  simpa [findAll, searched] using scan

namespace Scan

variable {start : Nat} {spans : List Span}

theorem unique {spans' : List Span} (scan : file.Scan needle start spans)
    (scan' : file.Scan needle start spans') : spans = spans' := by
  induction scan generalizing spans' with
  | done absent =>
      cases scan' with
      | done => rfl
      | found first => exact absurd first.1.2 (absent _ first.1.1)
  | @found start span later first size rest ih =>
      cases scan' with
      | done absent => exact absurd first.1.2 (absent _ first.1.1)
      | @found _ span' later' first' size' rest' =>
          have starts : span.start = span'.start := first.unique first'
          have same : span = span' := by
            cases span
            cases span'
            simp_all
          subst same
          rw [ih rest']

theorem le_start (scan : file.Scan needle start spans) {span : Span} (member : span ∈ spans) :
    start ≤ span.start := by
  induction scan with
  | done => cases member
  | found first size rest ih =>
      rcases List.mem_cons.mp member with rfl | later
      · exact first.1.1
      · have after := ih later
        have begins := first.1.1
        omega

theorem in_order (scan : file.Scan needle start spans) :
    spans.Pairwise fun span other => span.stop ≤ other.start := by
  induction scan with
  | done => exact .nil
  | found first size rest ih => exact .cons (fun _ member => rest.le_start member) ih

theorem occurs (scan : file.Scan needle start spans) {span : Span} (member : span ∈ spans) :
    span.stop = span.start + needle.utf8ByteSize ∧ file.slice? span = some needle := by
  induction scan with
  | done => cases member
  | @found start span later first size rest ih =>
      rcases List.mem_cons.mp member with rfl | later
      · exact ⟨size, (occurs_iff_slice? size).mp first.1.2⟩
      · exact ih later

theorem covers (scan : file.Scan needle start spans) {offset : Nat}
    (past : start ≤ offset) (occurs : file.Occurs needle offset) :
    ∃ span ∈ spans, span.start ≤ offset ∧ offset < span.stop := by
  induction scan with
  | done absent => exact absurd occurs (absent offset past)
  | @found start span later first size rest ih =>
      by_cases within : offset < span.stop
      · exact ⟨span, List.mem_cons_self, first.2 ⟨past, occurs⟩, within⟩
      · obtain ⟨other, member, reached⟩ := ih (Nat.le_of_not_lt within)
        exact ⟨other, List.mem_cons_of_mem _ member, reached⟩

end Scan

/-- The empty needle is found nowhere.  For any other, `findAll` is the one greedy scan from the
start of the file, and every occurrence of the needle overlaps a reported one. -/
theorem findAll_scans_leftmost (file : SourceFile) (needle : String) :
    (needle = "" → file.findAll needle = []) ∧
    (needle ≠ "" →
      (∀ spans, file.Scan needle 0 spans ↔ spans = file.findAll needle) ∧
      ((file.findAll needle).Pairwise fun span other => span.stop ≤ other.start) ∧
      (∀ span ∈ file.findAll needle, span.start < span.stop ∧
        span.length = needle.utf8ByteSize ∧ file.slice? span = some needle) ∧
      ∀ offset, file.Occurs needle offset → ∃ span ∈ file.findAll needle,
        span.overlaps ⟨offset, offset + needle.utf8ByteSize⟩ = true) := by
  constructor
  · rintro rfl
    rfl
  · intro nonempty
    have scan : file.Scan needle 0 (file.findAll needle) := scan_findAll nonempty
    have positive : 0 < needle.utf8ByteSize := utf8ByteSize_pos nonempty
    refine ⟨fun spans => ⟨(·.unique scan), (· ▸ scan)⟩, scan.in_order, ?_, ?_⟩
    · intro span member
      obtain ⟨size, sliced⟩ := scan.occurs member
      exact ⟨by omega, by rw [Span.length]; omega, sliced⟩
    · intro offset occurs
      obtain ⟨span, member, starts, stops⟩ := scan.covers (Nat.zero_le offset) occurs
      refine ⟨span, member, ?_⟩
      simp only [Span.overlaps, Bool.and_eq_true, decide_eq_true_eq]
      omega

theorem findAll_scans_leftmost_twice :
    (⟨"a", "ñañañaxñañ"⟩ : SourceFile).findAll "ñañ" = [⟨0, 5⟩, ⟨10, 15⟩] ∧
    (⟨"a", "ñañañaxñañ"⟩ : SourceFile).Scan "ñañ" 0 [⟨0, 5⟩, ⟨10, 15⟩] ∧
    (⟨"a", "ñañañaxñañ"⟩ : SourceFile).Occurs "ñañ" 3 ∧
    ∃ span ∈ [(⟨0, 5⟩ : Span), ⟨10, 15⟩], span.overlaps ⟨3, 8⟩ = true := by
  have spans : (⟨"a", "ñañañaxñañ"⟩ : SourceFile).findAll "ñañ" = [⟨0, 5⟩, ⟨10, 15⟩] := by decide
  have inside : (⟨"a", "ñañañaxñañ"⟩ : SourceFile).Occurs "ñañ" 3 :=
    ⟨"ña", "axñañ", by decide, by decide⟩
  obtain ⟨unique, -, -, covered⟩ :=
    (findAll_scans_leftmost ⟨"a", "ñañañaxñañ"⟩ "ñañ").2 (by decide)
  exact ⟨spans, (unique _).mpr spans.symm, inside, spans ▸ covered 3 inside⟩

end Sequencer.SourceFile
