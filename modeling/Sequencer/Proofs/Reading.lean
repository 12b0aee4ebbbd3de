import Sequencer.Json.Reader
import Sequencer.Proofs.Scanning

/-!
# Reading written values

A value that is written, with or without blanks, is read as what it was.  It may be nested to any
depth, and its texts and names may have any characters; its numbers must be words.
-/

namespace Sequencer.Json

/-- Made of what every reader can read: no number is beyond a word, and nothing is unreadable. -/
inductive Plain : Json → Prop where
  | null : Plain .null
  | bool (value : Bool) : Plain (.bool value)
  | word {n : Nat} (small : n < wordLimit) : Plain (.nat n)
  | str (text : String) : Plain (.str text)
  | arr {items : List Json} (all : ∀ item ∈ items, Plain item) : Plain (.arr items)
  | obj {fields : List (String × Json)} (all : ∀ field ∈ fields, Plain field.2) :
      Plain (.obj fields)

attribute [simp] Plain.null Plain.bool Plain.str

/-- The characters are tokens that a reader in want of a value takes for this one. -/
def Spells (chars : List Char) (value : Json) : Prop :=
  ∃ tokens, Scans chars tokens ∧
    ∀ stack, tokens.foldlM Reader.feed (.wantValue stack) = some (.put value stack)

def SpellsField (chars : List Char) (field : String × Json) : Prop :=
  ∃ tokens, Scans chars tokens ∧ ∀ taken stack,
    tokens.foldlM Reader.feed (.wantName taken stack) =
      some (.afterField ((some field.1, field.2) :: taken) stack)

/-! ## Parts with commas between them -/

theorem scans_separated {A B : Type} {parts : List A} {render : A → List Char} (mark : A → B)
    (want placed : List B → List Pending → Reader)
    (comma : ∀ taken stack, (placed taken stack).feed .comma = some (want taken stack))
    (each : ∀ part ∈ parts, ∃ tokens, Scans (render part) tokens ∧ ∀ taken stack,
      tokens.foldlM Reader.feed (want taken stack) = some (placed (mark part :: taken) stack))
    (nonempty : parts ≠ []) :
    ∃ tokens, Scans ([','].intercalate (parts.map render)) tokens ∧ ∀ taken stack,
      tokens.foldlM Reader.feed (want taken stack) =
        some (placed ((parts.map mark).reverse ++ taken) stack) := by
  induction parts with
  | nil => exact absurd rfl nonempty
  | cons part rest ih =>
      obtain ⟨here, later⟩ := List.forall_mem_cons.mp each
      obtain ⟨tokens, scans, taking⟩ := here
      cases rest with
      | nil => exact ⟨tokens, by simpa using scans, by simpa using taking⟩
      | cons next rest =>
          obtain ⟨tokens', scans', taking'⟩ := ih later (List.cons_ne_nil _ _)
          refine ⟨tokens ++ .comma :: tokens', ?_, fun taken stack => ?_⟩
          · have split : [','].intercalate ((part :: next :: rest).map render) =
                render part ++ ',' :: [','].intercalate ((next :: rest).map render) := by
              simp [List.intercalate_cons_cons]
            rw [split]
            exact scans.append (fun c head => Option.some.inj head ▸ by decide)
              (.mark (fun _ => rfl) scans')
          · rw [List.foldlM_append, taking]
            change (.comma :: tokens').foldlM Reader.feed (placed (mark part :: taken) stack) = _
            rw [List.foldlM_cons, comma]
            simpa using taking' (mark part :: taken) stack

theorem feed_firstItem {tokens : List Token} {stack : List Pending} {items : List Json}
    (taking : tokens.foldlM Reader.feed (.wantValue (.item [] :: stack)) =
      some (.afterItem items stack)) :
    tokens.foldlM Reader.feed (.firstItem stack) = some (.afterItem items stack) := by
  cases tokens with
  | nil => cases taking
  | cons token rest =>
      rw [List.foldlM_cons] at taking ⊢
      cases token with
      | closeArray => cases taking
      | _ => exact taking

theorem feed_firstName {tokens : List Token} {stack : List Pending}
    {fields : List (Option String × Json)}
    (taking : tokens.foldlM Reader.feed (.wantName [] stack) = some (.afterField fields stack)) :
    tokens.foldlM Reader.feed (.firstName stack) = some (.afterField fields stack) := by
  cases tokens with
  | nil => cases taking
  | cons token rest =>
      rw [List.foldlM_cons] at taking ⊢
      cases token with
      | text name => exact taking
      | _ => cases taking

theorem closeFields_named (fields : List (String × Json)) :
    closeFields (fields.map fun field => (some field.1, field.2)).reverse = .obj fields := by
  have named : fields.mapM (fun field => some field) = some (fields.map fun field => field) :=
    List.mapM_pure
  simp [closeFields, Function.comp_def, named]

theorem delimits_closing {blanks : List Char} {close : Char}
    (gap : ∀ c ∈ blanks, isBlank c = true) (delimits : Delimits close) (c : Char)
    (head : (blanks ++ [close]).head? = some c) : Delimits c := by
  cases blanks with
  | nil => exact Option.some.inj head ▸ delimits
  | cons blank rest =>
      exact Option.some.inj head ▸ delimits_of_isBlank (gap blank List.mem_cons_self)

namespace Spells

variable {blanks : List Char}

theorem blank {chars : List Char} {value : Json} (gap : ∀ c ∈ blanks, isBlank c = true)
    (spells : Spells chars value) : Spells (blanks ++ chars) value := by
  obtain ⟨tokens, scans, taking⟩ := spells
  exact ⟨tokens, scans.blanks gap, taking⟩

theorem arr {items : List Json} {render : Json → List Char}
    (each : ∀ item ∈ items, Spells (render item) item) (gap : ∀ c ∈ blanks, isBlank c = true) :
    Spells ('[' :: ([','].intercalate (items.map render) ++ (blanks ++ [']']))) (.arr items) := by
  have closes : Scans (blanks ++ [']']) [.closeArray] := .blanks gap (.mark (fun _ => rfl) .nil)
  by_cases nonempty : items = []
  · subst nonempty
    exact ⟨[.openArray, .closeArray], .mark (fun _ => rfl) closes, fun _ => rfl⟩
  · obtain ⟨tokens, scans, taking⟩ := scans_separated id
      (fun taken stack => .wantValue (.item taken :: stack)) .afterItem (fun _ _ => rfl)
      (fun item member => by
        obtain ⟨tokens, scans, taking⟩ := each item member
        exact ⟨tokens, scans, fun taken stack => taking (.item taken :: stack)⟩) nonempty
    refine ⟨.openArray :: (tokens ++ [.closeArray]), .mark (fun _ => rfl)
      (scans.append (delimits_closing gap (by decide)) closes), fun stack => ?_⟩
    have taken := feed_firstItem (taking [] stack)
    rw [List.map_id, List.append_nil] at taken
    change (tokens ++ [Token.closeArray]).foldlM Reader.feed (.firstItem stack) = _
    rw [List.foldlM_append, taken]
    simp [Reader.feed]

theorem obj {fields : List (String × Json)} {render : String × Json → List Char}
    (each : ∀ field ∈ fields, SpellsField (render field) field)
    (gap : ∀ c ∈ blanks, isBlank c = true) :
    Spells ('\x7b' :: ([','].intercalate (fields.map render) ++ (blanks ++ ['\x7d'])))
      (.obj fields) := by
  have closes : Scans (blanks ++ ['\x7d']) [.closeObject] := .blanks gap (.mark (fun _ => rfl) .nil)
  by_cases nonempty : fields = []
  · subst nonempty
    exact ⟨[.openObject, .closeObject], .mark (fun _ => rfl) closes, fun _ => rfl⟩
  · obtain ⟨tokens, scans, taking⟩ :=
      scans_separated _ .wantName .afterField (fun _ _ => rfl) each nonempty
    refine ⟨.openObject :: (tokens ++ [.closeObject]), .mark (fun _ => rfl)
      (scans.append (delimits_closing gap (by decide)) closes), fun stack => ?_⟩
    have taken := feed_firstName (taking [] stack)
    rw [List.append_nil] at taken
    change (tokens ++ [Token.closeObject]).foldlM Reader.feed (.firstName stack) = _
    rw [List.foldlM_append, taken]
    simp [Reader.feed, closeFields_named]

theorem field {name : String} {value : Json} {chars : List Char}
    (gap : ∀ c ∈ blanks, isBlank c = true) (spells : Spells chars value) :
    SpellsField (blanks ++ (quoted name ++ ':' :: chars)) (name, value) := by
  obtain ⟨tokens, scans, taking⟩ := spells
  refine ⟨[Token.text (some name)] ++ .colon :: tokens, .blanks gap ?_,
    fun taken stack => taking (.field taken (some name) :: stack)⟩
  exact (Scans.quoted name).append (fun c head => Option.some.inj head ▸ by decide)
    (.mark (fun _ => rfl) scans)

theorem literal {value : Json} (plain : Plain value) (flat : value.depth = 0) :
    Spells (literalChars value) value := by
  cases plain with
  | null => exact ⟨[.literal .null], fun before => ⟨_, rfl, rfl⟩, fun _ => rfl⟩
  | bool value =>
      refine ⟨[.literal (.bool value)], fun before => ?_, fun _ => rfl⟩
      cases value with
      | false => exact ⟨_, rfl, rfl⟩
      | true => exact ⟨_, rfl, rfl⟩
  | @word n small =>
      have digits : literalChars (.nat n) = Nat.toDigits 10 n := by
        change (String.ofList (Nat.toDigits 10 n)).toList = _
        exact String.toList_ofList
      rw [digits]
      exact ⟨[.literal (.nat n)], .numeral small, fun _ => rfl⟩
  | str text => exact ⟨[.text (some text)], .quoted text, fun _ => rfl⟩
  | arr | obj => exact absurd flat (Nat.succ_ne_zero _)

theorem ofChars?_eq {chars : List Char} {value : Json} (spells : Spells chars value) :
    ofChars? chars = some value := by
  obtain ⟨tokens, scans, taking⟩ := spells
  obtain ⟨scanner, fed, closes⟩ := scans []
  have start : chars.foldlM Scanner.feed {} = some scanner := fed
  rw [ofChars?, Token.scan, start, Option.bind_some, closes]
  simp [ofTokens?, taking [], Reader.put, Reader.finish]

end Spells

/-! ## Written values -/

theorem eq_intercalate {A : Type} {write : List A → List Char} {render : A → List Char}
    (none_left : write [] = []) (one : ∀ part, write [part] = render part)
    (more : ∀ part next rest,
      write (part :: next :: rest) = render part ++ ',' :: write (next :: rest))
    (parts : List A) : write parts = [','].intercalate (parts.map render) := by
  induction parts with
  | nil => exact none_left
  | cons part rest ih =>
      cases rest with
      | nil => simp [one]
      | cons next rest => simp [more, ih, List.intercalate_cons_cons]

theorem compactItems_eq (items : List Json) :
    compactItems items = [','].intercalate (items.map compactChars) :=
  eq_intercalate rfl (fun _ => rfl) (fun _ _ _ => rfl) items

theorem compactFields_eq (fields : List (String × Json)) :
    compactFields fields = [','].intercalate
      (fields.map fun field => [] ++ (quoted field.1 ++ ':' :: compactChars field.2)) :=
  eq_intercalate rfl (fun _ => rfl) (fun _ _ _ => by simp [compactFields]) fields

theorem prettyItems_eq (level : Nat) (items : List Json) :
    prettyItems level items =
      [','].intercalate (items.map fun item => newline level ++ prettyChars level item) :=
  eq_intercalate rfl (fun _ => rfl) (fun _ _ _ => rfl) items

theorem prettyFields_eq (level : Nat) (fields : List (String × Json)) :
    prettyFields level fields = [','].intercalate (fields.map fun field =>
      newline level ++ (quoted field.1 ++ ':' :: ' ' :: prettyChars level field.2)) :=
  eq_intercalate rfl (fun _ => by simp [prettyFields]) (fun _ _ _ => by simp [prettyFields]) fields

theorem isBlank_of_mem_newline (level : Nat) : ∀ c ∈ newline level, isBlank c = true := by
  intro c member
  rcases List.mem_cons.mp member with rfl | blank
  · rfl
  · rw [List.eq_of_mem_replicate blank]
    rfl

theorem spells_compact {value : Json} (plain : Plain value) :
    Spells (compactChars value) value := by
  induction plain with
  | null => exact .literal .null rfl
  | bool value => exact .literal (.bool value) rfl
  | word small => exact .literal (.word small) rfl
  | str text => exact .literal (.str text) rfl
  | @arr items all ih =>
      rw [compactChars, compactItems_eq]
      exact @Spells.arr [] items compactChars ih (by simp)
  | @obj fields all ih =>
      rw [compactChars, compactFields_eq]
      exact @Spells.obj [] fields _
        (fun field member => Spells.field (by simp) (ih field member)) (by simp)

theorem spells_pretty {value : Json} (plain : Plain value) (level : Nat) :
    Spells (prettyChars level value) value := by
  induction plain generalizing level with
  | null => exact .literal .null rfl
  | bool value => exact .literal (.bool value) rfl
  | word small => exact .literal (.word small) rfl
  | str text => exact .literal (.str text) rfl
  | @arr items all ih =>
      cases items with
      | nil => exact @Spells.arr [] [] compactChars (by simp) (by simp)
      | cons item rest =>
          rw [prettyChars, prettyItems_eq, List.append_assoc]
          · exact .arr (fun item member =>
              (ih item member (level + 1)).blank (isBlank_of_mem_newline _))
              (isBlank_of_mem_newline level)
          · simp
  | @obj fields all ih =>
      cases fields with
      | nil => exact @Spells.obj [] [] (fun _ => []) (by simp) (by simp)
      | cons field rest =>
          rw [prettyChars, prettyFields_eq, List.append_assoc]
          · exact .obj (fun field member => Spells.field (isBlank_of_mem_newline _)
              (@Spells.blank [' '] _ _ (by simp [isBlank]) (ih field member (level + 1))))
              (isBlank_of_mem_newline level)
          · simp

theorem read_compact {value : Json} (plain : Plain value) : read value.compact = some value := by
  rw [read, compact, String.toList_ofList]
  exact (spells_compact plain).ofChars?_eq

theorem read_pretty {value : Json} (plain : Plain value) : read value.pretty = some value := by
  rw [read, pretty, String.toList_ofList]
  exact (spells_pretty plain 0).ofChars?_eq

end Sequencer.Json
