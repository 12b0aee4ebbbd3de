import Sequencer.Json.Printer
import Sequencer.Json.Token
import Mathlib.Data.List.TakeWhile

/-!
# Scanning written text

What the scanner makes of the parts of a written value.  A text between quotes is one token,
whatever characters it has.  So is a numeral of a word.  A numeral or a literal name has no end of
its own, and must be followed by a character that cannot belong to it.
-/

namespace Sequencer.Json

/-! ## Numerals -/

theorem le_foldl_digits (word : Nat) (digits : List Char) :
    word ≤ digits.foldl (fun value c => value * 10 + (c.toNat - '0'.toNat)) word := by
  induction digits generalizing word with
  | nil => exact Nat.le_refl word
  | cons c rest ih =>
      have longer := ih (word * 10 + (c.toNat - '0'.toNat))
      rw [List.foldl_cons]
      omega

theorem takeDigits_eq {word : Nat} {digits : List Char}
    (small : digits.foldl (fun value c => value * 10 + (c.toNat - '0'.toNat)) word < wordLimit) :
    takeDigits word digits =
      (digits.foldl (fun value c => value * 10 + (c.toNat - '0'.toNat)) word, digits.length) := by
  induction digits generalizing word with
  | nil => rfl
  | cons c rest ih =>
      rw [List.foldl_cons] at small ⊢
      have room := Nat.lt_of_le_of_lt (le_foldl_digits _ rest) small
      rw [takeDigits, if_pos room, ih small]
      rfl

theorem digitsValue_toDigits (n : Nat) : Text.digitsValue (Nat.toDigits 10 n) = n := by
  have value := @Nat.ofDigitChars_toDigits 10 n (by decide) (by decide)
  rw [Nat.ofDigitChars_eq_foldl] at value
  simpa only [Text.digitsValue, Nat.mul_comm] using value

theorem isDigit_of_mem_toDigits {n : Nat} {c : Char} (member : c ∈ Nat.toDigits 10 n) :
    c.isDigit = true :=
  Nat.isDigit_of_mem_toDigits (by decide) (by decide) member

theorem eq_zero_of_head_toDigits {n : Nat} (zero : (Nat.toDigits 10 n).head? = some '0') :
    n = 0 := by
  induction n using Nat.strongRecOn with
  | ind n ih =>
      rw [Nat.toDigits_eq_if (by decide)] at zero
      split at zero
      · next small =>
          have digit : ∀ d < 10, Nat.digitChar d = '0' → d = 0 := by decide
          exact digit n small (Option.some.inj zero)
      · next large =>
          rw [List.head?_append, Option.or_of_isSome (by simp [Nat.toDigits_ne_nil])] at zero
          have quotient := ih (n / 10) (by omega) zero
          omega

theorem digitRun?_toDigits (n : Nat) :
    digitRun? (Nat.toDigits 10 n) = some (Nat.toDigits 10 n, []) := by
  have all : ∀ c ∈ Nat.toDigits 10 n, c.isDigit = true := fun c => isDigit_of_mem_toDigits
  have whole : (Nat.toDigits 10 n).takeWhile Char.isDigit = Nat.toDigits 10 n :=
    List.takeWhile_eq_self_iff.mpr all
  have rest : (Nat.toDigits 10 n).dropWhile Char.isDigit = [] :=
    List.dropWhile_eq_nil_iff.mpr all
  have nonempty := @Nat.toDigits_ne_nil n 10
  rw [digitRun?, whole, rest]
  split
  · contradiction
  · rfl

theorem of?_toDigits (n : Nat) :
    NumberText.of? (Nat.toDigits 10 n) = some {
      negative := false, whole := Nat.toDigits 10 n, fraction := none, exponent := none } := by
  have unsigned : ∀ rest, Nat.toDigits 10 n ≠ '-' :: rest := fun rest signed => by
    have digit := @isDigit_of_mem_toDigits n '-' (signed ▸ List.mem_cons_self)
    cases digit
  have lone : ¬ ((Nat.toDigits 10 n).head? = some '0' ∧ 1 < (Nat.toDigits 10 n).length) := by
    rintro ⟨zero, long⟩
    rw [eq_zero_of_head_toDigits zero] at long
    exact absurd long (by decide)
  unfold NumberText.of?
  simp only [digitRun?_toDigits, bind, Option.bind, if_neg lone]
  rfl

theorem roundTo_le (unit n : Nat) : Double.roundTo unit n ≤ n + unit := by
  have parts := Nat.div_add_mod n unit
  have product := Nat.mul_comm unit (n / unit)
  unfold Double.roundTo
  simp only
  split
  · rw [Nat.add_mul]
    omega
  · omega

theorem round_lt_limit {n : Nat} (small : n < wordLimit) : Double.round n < Double.limit := by
  have bits : n.log2 + 1 - Double.precision ≤ 64 := by
    by_cases zero : n = 0
    · subst zero
      decide
    · have short := (Nat.log2_lt zero).mpr small
      omega
  have unit : Nat.pow 2 (n.log2 + 1 - Double.precision) ≤ Nat.pow 2 64 :=
    Nat.pow_le_pow_right (by decide) bits
  have near := roundTo_le (Nat.pow 2 (n.log2 + 1 - Double.precision)) n
  have far : wordLimit + Nat.pow 2 64 < Double.limit := by decide +kernel
  unfold Double.round
  omega

theorem number?_toDigits {n : Nat} (small : n < wordLimit) :
    number? (Nat.toDigits 10 n) = some (.nat n) := by
  have value := digitsValue_toDigits n
  have taken : takeDigits 0 (Nat.toDigits 10 n) = (n, (Nat.toDigits 10 n).length) := by
    have fits := @takeDigits_eq 0 (Nat.toDigits 10 n)
    rw [← Text.digitsValue, value] at fits
    exact fits small
  have one : Double.round (Nat.pow 10 (0 : Int).toNat) = 1 := Double.round_of_lt (by decide)
  have finite : Magnitude.isFinite ⟨n, 0⟩ = true := by
    rw [Magnitude.isFinite, one, Nat.mul_one, decide_eq_true (round_lt_limit small)]
    exact Bool.or_eq_true_iff.mpr (.inr rfl)
  rw [number?, of?_toDigits, Option.map_some]
  simp [NumberText.magnitude, taken, takeDigits, finite, value, Json.nat]

/-! ## Texts -/

theorem hexValue?_digitChar : ∀ d < 16, hexValue? (Nat.digitChar d) = some d := by decide

theorem feed_unit {tokens : List Token} {read : Spelling} {value count d : Nat} (small : d < 16) :
    Scanner.feed ⟨tokens, .unit read value count⟩ (Nat.digitChar d) =
      some (if count < 3 then ⟨tokens, .unit read (value * 16 + d) (count + 1)⟩
        else ⟨tokens, .string (read.pushUnit (value * 16 + d))⟩) := by
  simp only [Scanner.feed, hexValue?_digitChar d small, Option.map_some]

theorem pushUnit_of_lt {read : Spelling} {unit : Nat} (small : unit < 0xD800) :
    read.pushUnit unit = read.push (Char.ofNat unit) := by
  unfold Spelling.pushUnit
  rw [if_neg (by omega), if_neg (by omega)]

theorem feed_control {tokens : List Token} {read : Spelling} {c : Char} (control : c.toNat < 0x20) :
    ['\\', 'u', '0', '0', Nat.digitChar (c.toNat / 16), Nat.digitChar (c.toNat % 16)].foldlM
      Scanner.feed ⟨tokens, .string read⟩ = some ⟨tokens, .string (read.push c)⟩ := by
  have high : c.toNat / 16 < 16 := by omega
  have low : c.toNat % 16 < 16 := by omega
  have value : c.toNat / 16 * 16 + c.toNat % 16 = c.toNat := Nat.div_add_mod' c.toNat 16
  have unit : read.pushUnit c.toNat = read.push c := by
    rw [pushUnit_of_lt (by omega), Char.ofNat_toNat]
  change [Nat.digitChar (c.toNat / 16), Nat.digitChar (c.toNat % 16)].foldlM Scanner.feed
    ⟨tokens, .unit read 0 2⟩ = _
  simp [feed_unit high, feed_unit low, value, unit]

theorem feed_escapeChar (tokens : List Token) (read : Spelling) (c : Char) :
    (escapeChar c).foldlM Scanner.feed ⟨tokens, .string read⟩ =
      some ⟨tokens, .string (read.push c)⟩ := by
  unfold escapeChar
  split
  case h_8 quote backslash _ _ _ _ _ =>
    split
    · next small =>
        have digits : Text.hexDigits c.toNat = [Nat.digitChar c.toNat] :=
          Nat.toDigits_of_lt_base small
        have control := @feed_control tokens read c (by omega)
        rw [Nat.div_eq_of_lt small, Nat.mod_eq_of_lt small] at control
        rw [digits]
        exact control
    · next large =>
        split
        · next control =>
            have digits : Text.hexDigits c.toNat =
                [Nat.digitChar (c.toNat / 16), Nat.digitChar (c.toNat % 16)] := by
              rw [Text.hexDigits, Nat.toDigits_eq_if (by decide), if_neg large,
                Nat.toDigits_of_lt_base (by omega)]
              rfl
            rw [digits]
            exact feed_control control
        · next plain =>
            simp [Scanner.feed, plain, if_neg quote, if_neg backslash]
  all_goals rfl

theorem feed_escaped (tokens : List Token) (read : Spelling) (chars : List Char) :
    (chars.flatMap escapeChar).foldlM Scanner.feed ⟨tokens, .string read⟩ =
      some ⟨tokens, .string (chars.foldl Spelling.push read)⟩ := by
  induction chars generalizing read with
  | nil => rfl
  | cons c rest ih =>
      rw [List.flatMap_cons, List.foldlM_append, feed_escapeChar]
      exact ih (read.push c)

theorem finish_foldl_push {read : Spelling} (whole : read.broken = false) (half : read.half = none)
    (chars : List Char) :
    (chars.foldl Spelling.push read).finish =
      some (String.ofList (read.chars.reverse ++ chars)) := by
  induction chars generalizing read with
  | nil => simp [Spelling.finish, whole, half]
  | cons c rest ih =>
      rw [List.foldl_cons, ih (by simp [Spelling.push, whole, half]) rfl]
      simp [Spelling.push]

/-! ## Tokens of some characters -/

/-- From between two tokens on, the characters are these tokens.  The last of them may be one that
the next character ends. -/
def Scans (chars : List Char) (tokens : List Token) : Prop :=
  ∀ before, ∃ scanner, chars.foldlM Scanner.feed ⟨before, .between⟩ = some scanner ∧
    scanner.close = some (tokens.reverse ++ before)

def Delimits (c : Char) : Prop :=
  isNumberChar c = false ∧ c.isLower = false

instance (c : Char) : Decidable (Delimits c) :=
  inferInstanceAs (Decidable (_ ∧ _))

theorem delimits_of_isBlank {c : Char} (blank : isBlank c = true) : Delimits c := by
  simp only [isBlank, Bool.or_eq_true, beq_iff_eq] at blank
  rcases blank with ((rfl | rfl) | rfl) | rfl <;> decide

theorem feed_of_close {scanner : Scanner} {tokens : List Token} {c : Char}
    (closes : scanner.close = some tokens) (delimits : Delimits c) :
    scanner.feed c = Scanner.start tokens c := by
  obtain ⟨before, mode⟩ := scanner
  cases mode with
  | between => exact congrArg (Scanner.start · c) (Option.some.inj closes)
  | word letters => simp [Scanner.feed, delimits.2, closes]
  | number chars => simp [Scanner.feed, delimits.1, closes]
  | string read => cases closes
  | escape read => cases closes
  | unit read value count => cases closes

namespace Scans

theorem nil : Scans [] [] := fun before => ⟨⟨before, .between⟩, rfl, rfl⟩

theorem cons {c : Char} {chars : List Char} {first rest : List Token}
    (starts : ∀ before, Scanner.start before c = some ⟨first.reverse ++ before, .between⟩)
    (scans : Scans chars rest) : Scans (c :: chars) (first ++ rest) := by
  intro before
  obtain ⟨scanner, fed, closes⟩ := scans (first.reverse ++ before)
  refine ⟨scanner, ?_, ?_⟩
  · have start : Scanner.feed ⟨before, .between⟩ c = _ := starts before
    rw [List.foldlM_cons, start]
    exact fed
  · rw [closes, List.reverse_append, List.append_assoc]

theorem mark {c : Char} {chars : List Char} {token : Token} {rest : List Token}
    (starts : ∀ before, Scanner.start before c = some ⟨token :: before, .between⟩)
    (scans : Scans chars rest) : Scans (c :: chars) (token :: rest) :=
  @cons c chars [token] rest starts scans

theorem append {chars more : List Char} {tokens rest : List Token} (scans : Scans chars tokens)
    (ends : ∀ c, more.head? = some c → Delimits c) (follows : Scans more rest) :
    Scans (chars ++ more) (tokens ++ rest) := by
  intro before
  obtain ⟨scanner, fed, closes⟩ := scans before
  obtain ⟨scanner', fed', closes'⟩ := follows (tokens.reverse ++ before)
  rw [List.reverse_append, List.append_assoc, List.foldlM_append, fed]
  cases more with
  | nil =>
      cases fed'
      exact ⟨scanner, rfl, closes.trans closes'⟩
  | cons c more =>
      have resumed : scanner.feed c = Scanner.feed ⟨tokens.reverse ++ before, .between⟩ c :=
        feed_of_close closes (ends c rfl)
      refine ⟨scanner', ?_, closes'⟩
      change (c :: more).foldlM Scanner.feed scanner = _
      rw [List.foldlM_cons, resumed, ← List.foldlM_cons, fed']

theorem blanks {blanks chars : List Char} {tokens : List Token}
    (gap : ∀ c ∈ blanks, isBlank c = true) (scans : Scans chars tokens) :
    Scans (blanks ++ chars) tokens := by
  induction blanks with
  | nil => exact scans
  | cons c rest ih =>
      obtain ⟨here, later⟩ := List.forall_mem_cons.mp gap
      exact @cons c (rest ++ chars) [] tokens (fun before => if_pos here) (ih later)

theorem quoted (text : String) : Scans (Json.quoted text) [.text (some text)] := by
  intro before
  have finished : (text.toList.foldl Spelling.push {}).finish = some text := by
    rw [finish_foldl_push rfl rfl]
    simp
  refine ⟨⟨.text (some text) :: before, .between⟩, ?_, rfl⟩
  change (text.toList.flatMap escapeChar ++ ['"']).foldlM Scanner.feed ⟨before, .string {}⟩ = _
  rw [List.foldlM_append, feed_escaped, ← finished]
  rfl

theorem start_digit {c : Char} (digit : c.isDigit = true) (before : List Token) :
    Scanner.start before c = some ⟨before, .number [c]⟩ := by
  have differs : ∀ d : Char, d.isDigit = false → c ≠ d := by
    rintro d other rfl
    cases digit.symm.trans other
  simp [Scanner.start, isBlank, digit, differs]

theorem feed_numberChars {before : List Token} {read chars : List Char}
    (all : ∀ c ∈ chars, isNumberChar c = true) :
    chars.foldlM Scanner.feed ⟨before, .number read⟩ =
      some ⟨before, .number (chars.reverse ++ read)⟩ := by
  induction chars generalizing read with
  | nil => rfl
  | cons c rest ih =>
      obtain ⟨here, later⟩ := List.forall_mem_cons.mp all
      have fed : Scanner.feed ⟨before, .number read⟩ c = some ⟨before, .number (c :: read)⟩ :=
        if_pos here
      rw [List.foldlM_cons, fed]
      simpa using ih later

theorem numeral {n : Nat} (small : n < wordLimit) :
    Scans (Nat.toDigits 10 n) [.literal (.nat n)] := by
  intro before
  have digits : ∀ c ∈ Nat.toDigits 10 n, c.isDigit = true := fun c => isDigit_of_mem_toDigits
  have read := number?_toDigits small
  cases written : Nat.toDigits 10 n with
  | nil => exact absurd written Nat.toDigits_ne_nil
  | cons c rest =>
      rw [written] at digits read
      obtain ⟨first, others⟩ := List.forall_mem_cons.mp digits
      refine ⟨⟨before, .number (rest.reverse ++ [c])⟩, ?_, ?_⟩
      · have start : Scanner.feed ⟨before, .between⟩ c = _ := start_digit first before
        rw [List.foldlM_cons, start]
        exact feed_numberChars fun d member => by simp [isNumberChar, others d member]
      · simp [Scanner.close, read]

end Scans

end Sequencer.Json
