import Sequencer.Codec.ConfigFile
import Sequencer.Proofs.Scanning
import Mathlib.Data.List.Basic

/-!
# Reading lines of TOML

A name, written bare or between quotes, is read back as a key of one part, and so are texts, flags
and integers that end with their line as the values they are.  A line that gives a name a value is
then one statement, and lines can be read one after another.
-/

namespace Sequencer.Toml

/-! ## Texts -/

theorem hexDigit?_digitChar : ∀ d < 16, hexDigit? (Nat.digitChar d) = some d := by decide

theorem hexPadded_of_lt : ∀ n < 128, hexPadded 4 n =
    ['0', '0', Nat.digitChar (n / 16), Nat.digitChar (n % 16)] := by decide

theorem basicFrom_control {c : Char} (control : c.toNat < 128) (rest : List Char) :
    basicFrom .plain ('\\' :: 'u' :: hexPadded 4 c.toNat ++ rest) =
      (basicFrom .plain rest).push c := by
  have high := hexDigit?_digitChar (c.toNat / 16) (by omega)
  have low := hexDigit?_digitChar (c.toNat % 16) (by omega)
  have zero : hexDigit? '0' = some 0 := rfl
  have value : c.toNat / 16 * 16 + c.toNat % 16 = c.toNat := Nat.div_add_mod' c.toNat 16
  have scalar : scalarValue? c.toNat = some c := by
    rw [scalarValue?, if_pos (by omega), Char.ofNat_toNat]
  rw [hexPadded_of_lt _ control]
  simp [basicFrom, escapeDigits?, zero, high, low, value, scalar]

theorem basicFrom_escapeChar (c : Char) (rest : List Char) :
    basicFrom .plain (escapeChar c ++ rest) = (basicFrom .plain rest).push c := by
  unfold escapeChar
  split
  case h_8 quote backslash _ _ _ _ tab =>
    split
    · next plain => simp [basicFrom, plain, if_neg quote, if_neg backslash]
    · next control =>
        refine basicFrom_control ?_ rest
        simp only [isPlain, Bool.or_eq_true, beq_iff_eq, Bool.and_eq_true, decide_eq_true_eq,
          bne_iff_ne, not_or, not_and, ne_eq, not_not] at control
        omega
  all_goals rfl

theorem basicFrom_escaped (text rest : List Char) :
    basicFrom .plain (text.flatMap escapeChar ++ '"' :: rest) = some (text, rest) := by
  induction text with
  | nil => rfl
  | cons c text ih =>
      rw [List.flatMap_cons, List.append_assoc, basicFrom_escapeChar, ih]
      rfl

theorem lineString?_quotedChars (text : String) (rest : List Char) :
    lineString? (quotedChars text ++ rest) = some (text, rest) := by
  rw [quotedChars, List.cons_append, List.append_assoc]
  simp only [lineString?, List.singleton_append, basicFrom_escaped, Scanned.toString,
    Option.map_some, String.ofList_toList]

theorem escapeChar_eq_cons (c : Char) : ∃ d more, escapeChar c = d :: more ∧ d ≠ '"' := by
  unfold escapeChar
  split
  case h_8 quote _ _ _ _ _ _ =>
    split
    · exact ⟨c, [], rfl, quote⟩
    · exact ⟨_, _, rfl, by decide⟩
  all_goals exact ⟨_, _, rfl, by decide⟩

theorem string?_quotedChars (text : String) {rest : List Char} (ends : rest.head? ≠ some '"') :
    string? (quotedChars text ++ rest) = some (text, rest) := by
  have single := lineString?_quotedChars text rest
  unfold string?
  split
  · next opened =>
      exfalso
      rw [quotedChars] at opened
      cases written : text.toList with
      | nil => simp_all
      | cons c more =>
          obtain ⟨d, others, spelt, plain⟩ := escapeChar_eq_cons c
          simp_all
  · next opened => simp [quotedChars] at opened
  · exact single

/-! ## Keys -/

theorem keyChars_eq_cons (name : String) :
    ∃ c more, keyChars name = c :: more ∧ (isBareChar c = true ∨ c = '"') := by
  unfold keyChars
  split
  · next bare =>
      simp only [isBare, Bool.and_eq_true, Bool.not_eq_true', String.isEmpty_eq_false_iff,
        List.all_eq_true] at bare
      cases written : name.toList with
      | nil => exact absurd (String.toList_eq_nil_iff.mp written) bare.1
      | cons c more => exact ⟨c, more, rfl, .inl (bare.2 c (written ▸ List.mem_cons_self))⟩
  · exact ⟨'"', _, rfl, .inr rfl⟩

theorem lineString?_of_isBareChar {c : Char} (bare : isBareChar c = true) (rest : List Char) :
    lineString? (c :: rest) = none := by
  unfold lineString?
  split
  · next opened =>
      cases opened
      cases bare
  · next opened =>
      cases opened
      cases bare
  · rfl

theorem simpleKey?_keyChars (name : String) {rest : List Char}
    (ends : ∀ c, rest.head? = some c → isBareChar c = false) :
    simpleKey? (keyChars name ++ rest) = some (name, rest) := by
  by_cases bare : isBare name = true
  · obtain ⟨c, more, written, first⟩ := keyChars_eq_cons name
    have plain : keyChars name = name.toList := if_pos bare
    simp only [isBare, Bool.and_eq_true, List.all_eq_true] at bare
    have taken : (name.toList ++ rest).takeWhile isBareChar = name.toList := by
      rw [List.takeWhile_append_of_pos bare.2]
      cases rest with
      | nil => simp
      | cons c more => simp [ends c rfl]
    have dropped : (name.toList ++ rest).dropWhile isBareChar = rest := by
      rw [List.dropWhile_append_of_pos bare.2]
      cases rest with
      | nil => rfl
      | cons c more => simp [ends c rfl]
    have unquoted : lineString? (name.toList ++ rest) = none := by
      rw [← plain, written, List.cons_append]
      refine lineString?_of_isBareChar (bare.2 c ?_) _
      rw [← plain, written]
      exact List.mem_cons_self
    rw [simpleKey?, plain, unquoted, taken, dropped]
    cases spelt : name.toList with
    | nil => simp [← plain, written] at spelt
    | cons d others => simp [← spelt]
  · rw [simpleKey?, keyChars, if_neg bare, lineString?_quotedChars]
    rfl

theorem key?_keyChars (name : String) {rest : List Char}
    (ends : ∀ c, rest.head? = some c → isBareChar c = false)
    (last : ∀ c, (dropBlanks rest).head? = some c → c ≠ '.') :
    key? (keyChars name ++ rest) = some (⟨[], name⟩, rest) := by
  have alone : moreParts? (depthLimit - 1) rest = some ([], rest) := by
    unfold moreParts?
    split
    · next dotted => exact absurd rfl (last '.' (by rw [dotted]; rfl))
    · rfl
  simp [key?, simpleKey?_keyChars name ends, alone, DottedKey.ofParts]

/-! ## Values -/

/-- Before the end of its line the text is read as this value. -/
structure Writes (chars : List Char) (value : Toml) : Prop where
  starts : ∀ c, chars.head? = some c → isBlank c = false
  reads : ∀ fuel depth rest,
    value? (fuel + 1) depth (chars ++ '\n' :: rest) = some (value, '\n' :: rest)

theorem writes_quotedChars (text : String) : Writes (quotedChars text) (.string text) where
  starts c first := by
    cases first
    rfl
  reads fuel depth rest := by
    have read := @string?_quotedChars text ('\n' :: rest) (by simp)
    rw [quotedChars, List.cons_append] at read ⊢
    simp only [value?, read, Option.map_some]

theorem writes_boolChars (value : Bool) : Writes (HostConfig.boolChars value) (.boolean value) where
  starts c first := by
    cases value <;> cases first <;> rfl
  reads fuel depth rest := by
    cases value <;> rfl

theorem digit?_of_isDigit {c : Char} (digit : c.isDigit = true) :
    digit? 10 c = some (c.toNat - '0'.toNat) := by
  have bounds : '0' ≤ c ∧ c ≤ '9' := by
    simpa [Char.isDigit, Char.le_def] using digit
  have small : c.toNat - 48 < 10 := by
    have upper : c.toNat ≤ 57 := bounds.2
    omega
  simp [digit?, hexDigit?, bounds, small]

theorem isDigit_of_isDigit {c : Char} (digit : c.isDigit = true) : isDigit 10 c = true := by
  simp [isDigit, digit?_of_isDigit digit]

theorem moreDigits?_of_isDigit {digits : List Char} (all : ∀ c ∈ digits, c.isDigit = true) :
    moreDigits? 10 digits = some digits := by
  induction digits with
  | nil => rfl
  | cons c rest ih =>
      obtain ⟨here, later⟩ := List.forall_mem_cons.mp all
      unfold moreDigits?
      split
      · contradiction
      · next same =>
          -- An underscore is no digit.
          cases same
          exact absurd here (by decide)
      · next same =>
          cases same
          simp [isDigit_of_isDigit here, ih later]

theorem valueOf_eq_digitsValue {digits : List Char} (all : ∀ c ∈ digits, c.isDigit = true) :
    valueOf 10 digits = Text.digitsValue digits := by
  refine List.foldl_ext _ _ 0 fun value c member => ?_
  rw [digit?_of_isDigit (all c member)]
  rfl

theorem plainDigits?_toDigits (n : Nat) :
    plainDigits? (Nat.toDigits 10 n) = some (Nat.toDigits 10 n) := by
  have all : ∀ c ∈ Nat.toDigits 10 n, c.isDigit = true := fun c => Json.isDigit_of_mem_toDigits
  have read : digits? 10 (Nat.toDigits 10 n) = some (Nat.toDigits 10 n) := by
    cases written : Nat.toDigits 10 n with
    | nil => exact absurd written Nat.toDigits_ne_nil
    | cons c rest =>
        rw [written] at all
        obtain ⟨here, later⟩ := List.forall_mem_cons.mp all
        simp [digits?, isDigit_of_isDigit here, moreDigits?_of_isDigit later]
  have lone : (Nat.toDigits 10 n).head? = some '0' → (Nat.toDigits 10 n).length = 1 := by
    intro zero
    rw [Json.eq_zero_of_head_toDigits zero]
    rfl
  rw [plainDigits?, read, Option.filter_some, if_pos]
  by_cases zero : (Nat.toDigits 10 n).head? = some '0'
  · simp [lone zero]
  · simp [zero]

theorem integer?_toDigits {n : Nat} (small : (n : Int) < integerLimit) :
    integer? (Nat.toDigits 10 n) = some (n : Int) := by
  have all : ∀ c ∈ Nat.toDigits 10 n, c.isDigit = true := fun c => Json.isDigit_of_mem_toDigits
  have unsigned : splitSign (Nat.toDigits 10 n) = (false, Nat.toDigits 10 n) := by
    unfold splitSign
    split
    · next signed => exact absurd (all '-' (signed ▸ List.mem_cons_self)) (by decide)
    · next signed => exact absurd (all '+' (signed ▸ List.mem_cons_self)) (by decide)
    · rfl
  have value : (valueOf 10 (Nat.toDigits 10 n) : Int) = n := by
    rw [valueOf_eq_digitsValue all, Json.digitsValue_toDigits]
  have range : inIntegerRange (n : Int) = true := by
    have limit : 0 < integerLimit := by decide
    simp only [inIntegerRange, Bool.and_eq_true, decide_eq_true_eq]
    omega
  unfold integer?
  split
  · next based => exact absurd (all 'x' (based ▸ by simp)) (by decide)
  · next based => exact absurd (all 'o' (based ▸ by simp)) (by decide)
  · next based => exact absurd (all 'b' (based ▸ by simp)) (by decide)
  · simp [unsigned, plainDigits?_toDigits, value, range]

theorem scalar?_toDigits {n : Nat} (small : (n : Int) < integerLimit) :
    scalar? (Nat.toDigits 10 n) = some (.integer n) := by
  have all : ∀ c ∈ Nat.toDigits 10 n, c.isDigit = true := fun c => Json.isDigit_of_mem_toDigits
  have literal : boolean? (Nat.toDigits 10 n) = none := by
    unfold boolean?
    split
    · next spelt => exact absurd (all 't' (spelt ▸ by simp)) (by decide)
    · split
      · next spelt => exact absurd (all 'f' (spelt ▸ by simp)) (by decide)
      · rfl
  simp [scalar?, literal, integer?_toDigits small]

theorem writes_toDigits {n : Nat} (small : (n : Int) < integerLimit) :
    Writes (Nat.toDigits 10 n) (.integer n) := by
  have all : ∀ c ∈ Nat.toDigits 10 n, c.isDigit = true := fun c => Json.isDigit_of_mem_toDigits
  have differs : ∀ {c d : Char}, c ∈ Nat.toDigits 10 n → d.isDigit = false → c ≠ d := by
    rintro c d member other rfl
    exact absurd (all c member) (by simp [other])
  refine ⟨fun c first => ?_, fun fuel depth rest => ?_⟩
  · have member : c ∈ Nat.toDigits 10 n := List.mem_of_mem_head? first
    simp [isBlank, differs member (show ' '.isDigit = false from rfl),
      differs member (show '\t'.isDigit = false from rfl)]
  · have scalar : ∀ c ∈ Nat.toDigits 10 n, isScalarChar c = true := fun c member => by
      simp [isScalarChar, Char.isAlphanum, all c member]
    have taken : (Nat.toDigits 10 n ++ '\n' :: rest).takeWhile isScalarChar =
        Nat.toDigits 10 n := by
      rw [List.takeWhile_append_of_pos scalar]
      exact List.append_nil _
    have dropped : (Nat.toDigits 10 n ++ '\n' :: rest).dropWhile isScalarChar = '\n' :: rest := by
      rw [List.dropWhile_append_of_pos scalar]
      rfl
    have read : scalarFront? (Nat.toDigits 10 n ++ '\n' :: rest) =
        some (.integer n, '\n' :: rest) := by
      simp [scalarFront?, taken, dropped, scalar?_toDigits small]
    have first : ∀ {d : Char} {chars : List Char}, Nat.toDigits 10 n ++ '\n' :: rest = d :: chars →
        d.isDigit = true := by
      intro d chars starts
      rcases List.append_eq_cons_iff.mp starts with ⟨empty, _⟩ | ⟨more, written, _⟩
      · exact absurd empty Nat.toDigits_ne_nil
      · exact all d (written ▸ List.mem_cons_self)
    -- No other kind of value starts with a digit.
    rw [value?]
    · exact read
    all_goals
      intro chars starts
      exact absurd (first starts) (by decide)

/-! ## Lines -/

theorem dropBlanks_of_head? {chars : List Char}
    (starts : ∀ c, chars.head? = some c → isBlank c = false) : dropBlanks chars = chars := by
  cases chars with
  | nil => rfl
  | cons c rest => simp [dropBlanks, starts c rfl]

theorem keyChars_starts {name : String} {c : Char} {more : List Char}
    (written : keyChars name = c :: more) :
    isBlank c = false ∧ c ≠ '[' ∧ c ≠ '#' ∧ c ≠ '\n' ∧ c ≠ '\r' := by
  obtain ⟨d, others, written', first⟩ := keyChars_eq_cons name
  obtain ⟨rfl, rfl⟩ := List.cons.inj (written'.symm.trans written)
  rcases first with bare | rfl
  · have differs : ∀ e : Char, isBareChar e = false → d ≠ e := by
      rintro e other rfl
      exact absurd bare (by simp [other])
    simp [isBlank, differs ' ' rfl, differs '\t' rfl, differs '[' rfl, differs '#' rfl,
      differs '\n' rfl, differs '\r' rfl]
  · decide

theorem lineEnd?_keyChars (name : String) (rest : List Char) :
    lineEnd? (keyChars name ++ rest) = none := by
  obtain ⟨c, more, written, _⟩ := keyChars_eq_cons name
  obtain ⟨blank, _, comment, newline, carriage⟩ := keyChars_starts written
  have kept : dropBlanks (c :: (more ++ rest)) = c :: (more ++ rest) :=
    dropBlanks_of_head? (by simpa using blank)
  have within : isNewlineFront (c :: (more ++ rest)) = false := by
    unfold isNewlineFront
    split
    · next front => exact absurd (List.cons.inj front).1 newline
    · next front => exact absurd (List.cons.inj front).1 carriage
    · rfl
  rw [written, List.cons_append, lineEnd?, kept]
  split
  · contradiction
  · next front => exact absurd (List.cons.inj front).1 comment
  · simp [within]

theorem statement?_settingChars (name : String) {chars : List Char} {value : Toml}
    (writes : Writes chars value) (rest : List Char) :
    statement? (HostConfig.settingChars name chars ++ rest) =
      some (some (.assign ⟨[], name⟩ value), rest) := by
  have line : HostConfig.settingChars name chars ++ rest =
      keyChars name ++ ' ' :: '=' :: ' ' :: (chars ++ '\n' :: rest) := by
    simp [HostConfig.settingChars]
  obtain ⟨c, more, written, _⟩ := keyChars_eq_cons name
  obtain ⟨blank, bracket, _⟩ := keyChars_starts written
  have kept : ∀ later, dropBlanks (keyChars name ++ later) = keyChars name ++ later := by
    intro later
    rw [written]
    exact dropBlanks_of_head? (by simpa using blank)
  have key := @key?_keyChars name (' ' :: '=' :: ' ' :: (chars ++ '\n' :: rest))
    (fun c first => by cases first; rfl) (fun c first => by cases first; decide)
  have after : dropBlanks (chars ++ '\n' :: rest) = chars ++ '\n' :: rest := by
    refine dropBlanks_of_head? fun c first => ?_
    cases chars with
    | nil => cases first; rfl
    | cons d others => exact writes.starts c first
  have equals : expect? '=' (dropBlanks (' ' :: '=' :: ' ' :: (chars ++ '\n' :: rest))) =
      some (' ' :: (chars ++ '\n' :: rest)) := rfl
  have gap : dropBlanks (' ' :: (chars ++ '\n' :: rest)) = chars ++ '\n' :: rest := after
  have ended : lineEnd? ('\n' :: rest) = some rest := rfl
  have front : ∀ {later : List Char},
      keyChars name ++ ' ' :: '=' :: ' ' :: (chars ++ '\n' :: rest) = '[' :: later → False := by
    intro later starts
    rw [written] at starts
    exact bracket (List.cons.inj starts).1
  rw [line, statement?, kept]
  split
  · next starts => exact (front starts).elim
  · next starts => exact (front starts).elim
  · rw [lineEnd?_keyChars]
    simp only [key, equals, gap, writes.reads, ended, Option.bind_eq_bind, Option.bind_some]

theorem statement?_header (name : String) (rest : List Char) :
    statement? ('[' :: (keyChars name ++ ']' :: '\n' :: rest)) =
      some (some (.header ⟨[], name⟩), rest) := by
  obtain ⟨c, more, written, _⟩ := keyChars_eq_cons name
  obtain ⟨blank, bracket, _⟩ := keyChars_starts written
  have kept : dropBlanks (keyChars name ++ ']' :: '\n' :: rest) =
      keyChars name ++ ']' :: '\n' :: rest := by
    rw [written]
    exact dropBlanks_of_head? (by simpa using blank)
  have key := @key?_keyChars name (']' :: '\n' :: rest) (fun c first => by cases first; rfl)
    (fun c first => by cases first; decide)
  have closed : expect? ']' (dropBlanks (']' :: '\n' :: rest)) = some ('\n' :: rest) := rfl
  have ended : lineEnd? ('\n' :: rest) = some rest := rfl
  have opened : dropBlanks ('[' :: (keyChars name ++ ']' :: '\n' :: rest)) =
      '[' :: (keyChars name ++ ']' :: '\n' :: rest) := rfl
  rw [statement?, opened]
  split
  · next starts =>
      rw [written] at starts
      exact absurd (List.cons.inj (List.cons.inj starts).2).1 bracket
  · next starts =>
      obtain rfl := (List.cons.inj starts).2
      simp only [kept, key, closed, ended, Option.bind_eq_bind, Option.bind_some]
  · next other => exact absurd rfl (other _)

/-! ## Texts of several lines -/

def Reads (chars : List Char) (statements : List Statement) : Prop :=
  ∀ (rest : List Char) (later : List Statement),
    (∀ fuel, rest.length ≤ fuel → statements? fuel rest = some later) →
    ∀ fuel, (chars ++ rest).length ≤ fuel →
      statements? fuel (chars ++ rest) = some (statements ++ later)

namespace Reads

theorem nil : Reads [] [] :=
  fun _ _ read => read

theorem append {chars more : List Char} {statements others : List Statement}
    (first : Reads chars statements) (second : Reads more others) :
    Reads (chars ++ more) (statements ++ others) := by
  intro rest later read fuel enough
  rw [List.append_assoc] at enough ⊢
  rw [List.append_assoc]
  exact first _ _ (second rest later read) fuel enough

theorem line {chars : List Char} {statement : Option Statement} (long : chars ≠ [])
    (read : ∀ rest, statement? (chars ++ rest) = some (statement, rest)) :
    Reads chars statement.toList := by
  intro rest later readRest fuel enough
  rw [List.length_append] at enough
  have shorter := List.length_pos_of_ne_nil long
  cases fuel with
  | zero => omega
  | succ fuel =>
      cases chars with
      | nil => contradiction
      | cons c others =>
          rw [List.cons_append, statements?, ← List.cons_append, read]
          · simp [readRest fuel (by omega)]
          · simp

theorem blank : Reads ['\n'] [] :=
  @line ['\n'] none (by simp) fun _ => rfl

theorem header (name : String) :
    Reads ('[' :: (keyChars name ++ [']', '\n'])) [.header ⟨[], name⟩] := by
  refine @line _ (some (.header ⟨[], name⟩)) (by simp) fun rest => ?_
  simpa using statement?_header name rest

theorem setting (name : String) {chars : List Char} {value : Toml} (writes : Writes chars value) :
    Reads (HostConfig.settingChars name chars) [.assign ⟨[], name⟩ value] := by
  refine @line _ (some (.assign ⟨[], name⟩ value)) ?_ (statement?_settingChars name writes)
  simp [HostConfig.settingChars]

theorem settings {A : Type} (name : A → String) {write : A → List Char} {value : A → Toml}
    (writes : ∀ item, Writes (write item) (value item)) (items : List A) :
    Reads (items.flatMap fun item => HostConfig.settingChars (name item) (write item))
      (items.map fun item => .assign ⟨[], name item⟩ (value item)) := by
  induction items with
  | nil => exact nil
  | cons item items ih => exact (setting (name item) (writes item)).append ih

theorem statements? {chars : List Char} {statements : List Statement}
    (reads : Reads chars statements) :
    Toml.statements? chars.length chars = some statements := by
  have whole := reads [] [] (fun fuel _ => by cases fuel <;> rfl) chars.length (by simp)
  simpa using whole

end Reads

end Sequencer.Toml
