import Sequencer.Json.Record
import Sequencer.Proofs.Maps
import Sequencer.Proofs.Reading

/-!
# Codecs

A codec writes the values of a type as JSON and reads them back.  Its law says of which values this
is true: of those whose numbers are sizes, and of no others, since nothing else can be read.  Codecs
of lists, maps and records are made of the codecs of their parts.
-/

namespace Sequencer.Json

variable {A B : Type}

theorem mapM_eq_some {items : List A} {f : A → Option B} {g : A → B}
    (each : ∀ item ∈ items, f item = some (g item)) : items.mapM f = some (items.map g) := by
  induction items with
  | nil => rfl
  | cons item rest ih =>
      obtain ⟨here, later⟩ := List.forall_mem_cons.mp each
      rw [List.mapM_cons, here, ih later]
      rfl

theorem exists_of_mem_mapM {items : List A} {f : A → Option B} {values : List B} {value : B}
    (given : items.mapM f = some values) (member : value ∈ values) :
    ∃ item ∈ items, f item = some value := by
  induction items generalizing values with
  | nil =>
      cases given
      cases member
  | cons item rest ih =>
      rw [List.mapM_cons] at given
      obtain ⟨first, here, given⟩ := Option.bind_eq_some_iff.mp given
      obtain ⟨others, later, given⟩ := Option.bind_eq_some_iff.mp given
      cases given
      rcases List.mem_cons.mp member with rfl | member
      · exact ⟨item, List.mem_cons_self, here⟩
      · obtain ⟨source, inside, found⟩ := ih later member
        exact ⟨source, List.mem_cons_of_mem _ inside, found⟩

/-! ## The law -/

/-- The values that fit, and only these, are what the decoder makes of their encodings. -/
structure Codes (encode : A → Json) (decode : Json → Option A) (Fits : A → Prop) : Prop where
  plain : ∀ {value}, Fits value → Plain (encode value)
  decoded : ∀ {value}, Fits value → decode (encode value) = some value
  fits : ∀ {json value}, decode json = some value → Fits value

/-- Encoding and decoding a value, as it is or through its text in either layout, gives the value
back exactly when it fits. -/
structure RoundTrips (encode : A → Json) (decode : Json → Option A) (Fits : A → Prop) : Prop where
  value : ∀ value, decode (encode value) = some value ↔ Fits value
  compact : ∀ value, (read (encode value).compact).bind decode = some value ↔ Fits value
  pretty : ∀ value, (read (encode value).pretty).bind decode = some value ↔ Fits value

namespace Codes

variable {encode : A → Json} {decode : Json → Option A} {Fits : A → Prop}

theorem fits_of_bind (codes : Codes encode decode Fits) {slot : Option Json} {value : A}
    (given : slot.bind decode = some value) : Fits value := by
  obtain ⟨json, -, decoded⟩ := Option.bind_eq_some_iff.mp given
  exact codes.fits decoded

theorem fits_of_orDefault (codes : Codes encode decode Fits) {slot : Option Json}
    {value default : A} (usual : Fits default)
    (given : orDefault default decode slot = some value) : Fits value := by
  cases slot with
  | none => exact Option.some.inj given ▸ usual
  | some json => exact codes.fits given

theorem roundTrips (codes : Codes encode decode Fits) : RoundTrips encode decode Fits where
  value _ := ⟨codes.fits, codes.decoded⟩
  compact value := by
    refine ⟨codes.fits_of_bind, fun fits => ?_⟩
    rw [read_compact (codes.plain fits)]
    exact codes.decoded fits
  pretty value := by
    refine ⟨codes.fits_of_bind, fun fits => ?_⟩
    rw [read_pretty (codes.plain fits)]
    exact codes.decoded fits

/-! ## Scalars, lists and maps -/

theorem text : Codes .str toText? fun _ => True where
  plain _ := .str _
  decoded _ := rfl
  fits _ := trivial

theorem size : Codes .nat toSize? (· < sizeLimit) where
  plain small := .word small
  decoded {n} small := by
    have bounds : 0 ≤ (n : Int) ∧ (n : Int) < sizeLimit := ⟨by omega, by exact_mod_cast small⟩
    simp [toSize?, Json.nat, bounds]
  fits {json n} given := by
    cases json with
    | int value =>
        simp only [toSize?] at given
        split at given
        · cases given
          omega
        · cases given
    | _ => cases given

theorem list (codes : Codes encode decode Fits) :
    Codes (ofList encode) (toList? decode) fun items => ∀ item ∈ items, Fits item where
  plain {items} fits := .arr fun json member => by
    obtain ⟨item, here, rfl⟩ := List.mem_map.mp member
    exact codes.plain (fits item here)
  decoded {items} fits := by
    rw [ofList, toList?, List.mapM_map, Function.comp_def,
      mapM_eq_some fun item here => codes.decoded (fits item here), List.map_id']
  fits {json items} given item member := by
    cases json with
    | arr given_items =>
        obtain ⟨source, -, decoded⟩ := exists_of_mem_mapM given member
        exact codes.fits decoded
    | _ => cases given

theorem map (codes : Codes encode decode Fits) :
    Codes (ofMap encode) (toMap? decode) fun map => ∀ entry ∈ map.entries, Fits entry.2 where
  plain {map} fits := .obj fun field member => by
    obtain ⟨entry, here, rfl⟩ := List.mem_map.mp member
    exact codes.plain (fits entry here)
  decoded {map} fits := by
    have each : ∀ entry ∈ map.entries,
        (decode (encode entry.2)).map (entry.1, ·) = some (entry.1, entry.2) :=
      fun entry here => congrArg (Option.map (entry.1, ·)) (codes.decoded (fits entry here))
    rw [ofMap, toMap?, List.mapM_map, Function.comp_def, mapM_eq_some each, List.map_id',
      Option.map_some, SortedMap.ofList_entries]
  fits {json map} given entry member := by
    cases json with
    | obj fields =>
        obtain ⟨entries, all, rfl⟩ := Option.map_eq_some_iff.mp given
        obtain ⟨field, -, found⟩ := exists_of_mem_mapM all (SortedMap.mem_of_mem_ofList member)
        obtain ⟨value, decoded, rfl⟩ := Option.map_eq_some_iff.mp found
        exact codes.fits decoded
    | _ => cases given

end Codes

/-! ## Records -/

theorem ofObject?_of_mem {given : List (String × Json)} {entry : String × Json} {field : Field}
    (distinct : (given.map Prod.fst).Nodup) (member : entry ∈ given) (name : entry.1 = field.name) :
    field.ofObject? given = some (some entry.2) := by
  have alone : given.filter (fun other => other.1 == field.name) = [entry] := by
    induction given with
    | nil => cases member
    | cons head rest ih =>
        obtain ⟨fresh, distinct⟩ := List.nodup_cons.mp distinct
        rcases List.mem_cons.mp member with rfl | later
        · have others : rest.filter (fun other => other.1 == field.name) = [] := by
            rw [List.filter_eq_nil_iff]
            intro other here same
            rw [← name, beq_iff_eq] at same
            exact fresh (List.mem_map.mpr ⟨other, here, same⟩)
          simp [name, others]
        · have differs : head.1 ≠ field.name := fun same =>
            fresh (List.mem_map.mpr ⟨entry, later, name.trans same.symm⟩)
          simp [differs, ih distinct later]
  rw [Field.ofObject?, alone]

theorem ofObject?_of_not_mem {given : List (String × Json)} {field : Field}
    (missing : field.name ∉ given.map Prod.fst) (optional : field.absence ≠ .never) :
    field.ofObject? given = some none := by
  have nothing : given.filter (fun other => other.1 == field.name) = [] := by
    rw [List.filter_eq_nil_iff]
    intro other here same
    exact missing (List.mem_map.mpr ⟨other, here, beq_iff_eq.mp same⟩)
  rw [Field.ofObject?, nothing]
  exact if_neg optional

theorem mapM_ofObject? {given entries : List (String × Json)} {fields : List Field}
    (distinct : (given.map Prod.fst).Nodup) (inside : ∀ entry ∈ entries, entry ∈ given)
    (names : entries.map Prod.fst = fields.map Field.name) :
    fields.mapM (Field.ofObject? given) = some (entries.map fun entry => some entry.2) := by
  induction entries generalizing fields with
  | nil =>
      rw [List.map_eq_nil_iff.mp names.symm]
      rfl
  | cons entry rest ih =>
      obtain ⟨field, fields, rfl, name, names⟩ := List.map_eq_cons_iff.mp names.symm
      obtain ⟨here, later⟩ := List.forall_mem_cons.mp inside
      rw [List.mapM_cons, ofObject?_of_mem distinct here name.symm, ih later names.symm]
      rfl

theorem slots?_obj_append {given : List (String × Json)} {named left : List Field}
    (names : given.map Prod.fst = named.map Field.name)
    (distinct : ((named ++ left).map Field.name).Nodup)
    (optional : ∀ field ∈ left, field.absence ≠ .never) :
    slots? (named ++ left) (.obj given) =
      some (given.map (fun entry => some entry.2) ++ left.map fun _ => none) := by
  rw [List.map_append, ← names, List.nodup_append] at distinct
  obtain ⟨once, -, apart⟩ := distinct
  have missing : ∀ field ∈ left, field.ofObject? given = some none := fun field here =>
    ofObject?_of_not_mem (fun given => apart _ given _ (List.mem_map_of_mem here) rfl)
      (optional field here)
  rw [slots?, List.mapM_append, mapM_ofObject? once (fun _ => id) names, mapM_eq_some missing]
  rfl

theorem slots?_obj {given : List (String × Json)} {fields : List Field}
    (names : given.map Prod.fst = fields.map Field.name)
    (distinct : (fields.map Field.name).Nodup) :
    slots? fields (.obj given) = some (given.map fun entry => some entry.2) :=
  mapM_ofObject? (names ▸ distinct) (fun _ => id) names

-- A proof by `rfl` would make `simp` unfold decoders, down to the comparison with the largest size.
theorem needed_some (decode : Json → Option A) (json : Json) :
    needed decode (some json) = decode json := by
  rw [needed, Option.bind_some]

theorem orDefault_some (default : A) (decode : Json → Option A) (json : Json) :
    orDefault default decode (some json) = decode json := by
  rw [orDefault]

theorem nullable_ofOption (text : Option String) :
    nullable toText? (some (ofOption .str text)) = some text := by
  cases text <;> rfl

end Sequencer.Json
