import CircuitNetlist.Proofs.Codecs

/-!
# Records with their decoders

A record is written as an object of those of its fields that have a value, and read field by field,
whether it is spelled as an object or as an array. The codec of a record is put together from the
codecs of its fields: how a field is written, and what stands for it when it is missing.
-/
namespace CircuitNetlist

/-! ### Fields -/

/-- The laws of a codec for a field of a record, which may be left out. -/
structure FieldCodec {α : Type} (write : α → Option Json) (read : Nat → Option Json → Option α)
    (good : α → Prop) (least : Nat) : Prop where
  read_write : ∀ {a depth}, good a → (∀ j ∈ write a, j.height ≤ depth) →
    read depth (write a) = some a
  good_of_read : ∀ {depth found a}, read depth found = some a → good a
  height_le : ∀ {depth found a}, read depth found = some a → least ≤ depth →
    ∀ j ∈ write a, j.height ≤ depth
  canonical : ∀ {a}, good a → ∀ j ∈ write a, j.IsCanonical

namespace FieldCodec

variable {α : Type} {encode : α → Json} {decode : Decoder α} {good : α → Prop} {least : Nat}

theorem required (codec : Codec encode decode good least) :
    FieldCodec (fun a => some (encode a)) (Decoder.required decode) good least where
  read_write fine fits := codec.decode_encode fine (fits _ rfl)
  good_of_read := by
    intro depth found a read
    obtain ⟨j, -, decoded⟩ := Option.bind_eq_some_iff.mp read
    exact codec.good_of_decode decoded
  height_le := by
    intro depth found a read enough
    obtain ⟨j, -, decoded⟩ := Option.bind_eq_some_iff.mp read
    simpa using codec.height_le decoded enough
  canonical fine := by
    simpa using codec.canonical fine

/-- A field with a default, which must be fit to be written where the field was missing. -/
theorem orElse (default : α) (fine : good default) (fits : (encode default).height ≤ least)
    (codec : Codec encode decode good least) :
    FieldCodec (fun a => some (encode a)) (Decoder.orElse default decode) good least where
  read_write fine fits := codec.decode_encode fine (fits _ rfl)
  good_of_read := by
    intro depth found a read
    cases found with
    | none =>
      obtain rfl := Option.some.inj read
      exact fine
    | some j => exact codec.good_of_decode read
  height_le := by
    intro depth found a read enough
    cases found with
    | none =>
      obtain rfl := Option.some.inj read
      simpa using fits.trans enough
    | some j => simpa using codec.height_le read enough
  canonical fine := by
    simpa using codec.canonical fine

/-- A list that is empty when it is missing; even so its encoding is one level high. -/
theorem items (codec : Codec encode decode good least) :
    FieldCodec (fun as => some (Json.ofList encode as)) (Decoder.orElse [] (.list decode))
      (fun as => ∀ a ∈ as, good a) (least + 1) :=
  .orElse [] (by simp) (Json.height_array_le.mpr (by simp)) (.list codec)

/-- A field that is left out when it has no value. -/
theorem omitted (codec : Codec encode decode good least) (apart : ∀ a, encode a ≠ .null) :
    FieldCodec (fun o : Option α => o.map encode) (Decoder.orElse none (.optional decode))
      (fun o => ∀ a ∈ o, good a) least where
  read_write := by
    intro o depth fine fits
    cases o with
    | none => rfl
    | some a =>
      exact (codec.optional apart).decode_encode fine (fits (encode a) rfl)
  good_of_read := by
    intro depth found o read
    cases found with
    | none =>
      obtain rfl := Option.some.inj read
      simp
    | some j => exact (codec.optional apart).good_of_decode read
  height_le := by
    intro depth found o read enough
    cases found with
    | none =>
      obtain rfl := Option.some.inj read
      simp
    | some j =>
      have fits := (codec.optional apart).height_le read enough
      cases o with
      | none => simp
      | some a => simpa using fits
  canonical {o} fine := by
    cases o with
    | none => simp
    | some a => simpa using codec.canonical (fine a rfl)

end FieldCodec

/-- One field of a record: its name, its value, and their codec. -/
structure RecordField (α : Type) (least : Nat) where
  name : String
  {β : Type}
  get : α → β
  {write : β → Option Json}
  {read : Nat → Option Json → Option β}
  {good : β → Prop}
  codec : FieldCodec write read good least

/-! ### Objects of entries -/

namespace Json

/-- An object with those of the fields that have a value. -/
def ofEntries (entries : List (String × Option Json)) : Json :=
  .ofFields (entries.filterMap fun entry => entry.2.map (entry.1, ·))

theorem height_ofEntries_le {entries : List (String × Option Json)} {depth : Nat} :
    (ofEntries entries).height ≤ depth + 1
      ↔ ∀ entry ∈ entries, ∀ j ∈ entry.2, j.height ≤ depth := by
  rw [ofEntries, height_ofFields_le]
  simp only [List.mem_filterMap, Option.map_eq_some_iff]
  constructor
  · intro all entry member j value
    exact all (entry.1, j) ⟨entry, member, j, value, rfl⟩
  · rintro all field ⟨entry, member, j, value, rfl⟩
    exact all entry member j value

theorem canonical_ofEntries {entries : List (String × Option Json)}
    (all : ∀ entry ∈ entries, ∀ j ∈ entry.2, j.IsCanonical) : (ofEntries entries).IsCanonical := by
  apply IsCanonical.object
  simp only [List.forall_mem_map, List.mem_filterMap, Option.map_eq_some_iff]
  rintro field ⟨entry, member, j, value, rfl⟩
  exact all entry member j value

end Json

/-- The fields of an object under the name of one of its entries: the value of that entry. -/
theorem filter_entries {entries : List (String × Option Json)}
    (distinct : (entries.map (·.1)).Nodup) {entry : String × Option Json}
    (member : entry ∈ entries) :
    ((entries.filterMap fun entry => entry.2.map (entry.1, ·)).map
        fun field => (some field.1, field.2)).filter (·.1 == some entry.1)
      = (entry.2.map (some entry.1, ·)).toList := by
  induction entries with
  | nil => simp at member
  | cons first entries ih =>
    rw [List.map_cons, List.nodup_cons] at distinct
    rcases List.mem_cons.mp member with rfl | later
    · have others : ((entries.filterMap fun entry => entry.2.map (entry.1, ·)).map
          fun field => (some field.1, field.2)).filter (·.1 == some entry.1) = [] := by
        rw [List.filter_eq_nil_iff, List.forall_mem_map]
        simp only [List.mem_filterMap, Option.map_eq_some_iff]
        rintro field ⟨other, member, j, value, rfl⟩ same
        exact distinct.1 (Option.some.inj (eq_of_beq same) ▸ List.mem_map_of_mem member)
      obtain ⟨name, value⟩ := entry
      cases value with
      | none => exact others
      | some j =>
        simp only [List.filterMap_cons, Option.map_some, List.map_cons]
        rw [List.filter_cons_of_pos (by simp), others]
        rfl
    · have apart : first.1 ≠ entry.1 := by
        intro same
        exact distinct.1 (same ▸ List.mem_map_of_mem later)
      rw [← ih distinct.2 later]
      obtain ⟨name, value⟩ := first
      cases value with
      | none => rfl
      | some j =>
        simp only [List.filterMap_cons, Option.map_some, List.map_cons]
        rw [List.filter_cons_of_neg (by simpa using apart)]

theorem field_ofEntries {entries : List (String × Option Json)}
    (distinct : (entries.map (·.1)).Nodup) {entry : String × Option Json}
    (member : entry ∈ entries) :
    Decoder.field ((entries.filterMap fun entry => entry.2.map (entry.1, ·)).map
      fun field => (some field.1, field.2)) entry.1 = some entry.2 := by
  unfold Decoder.field
  rw [filter_entries distinct member]
  cases entry.2 <;> rfl

theorem fieldValues_ofEntries {entries : List (String × Option Json)}
    (distinct : (entries.map (·.1)).Nodup) :
    Decoder.fieldValues (entries.map (·.1)) (.ofEntries entries) = some (entries.map (·.2)) := by
  unfold Json.ofEntries Json.ofFields Decoder.fieldValues
  dsimp only
  rw [if_pos (List.all_eq_true.mpr (List.forall_mem_map.mpr fun _ _ => rfl)), mapM_eq_some,
    List.forall₂_map_left_iff, List.forall₂_map_right_iff, List.forall₂_same]
  exact fun entry member => field_ofEntries distinct member

theorem length_fieldValues {names : List String} {j : Json} {found : List (Option Json)}
    (read : Decoder.fieldValues names j = some found) : found.length = names.length := by
  unfold Decoder.fieldValues at read
  split at read
  case h_1 items =>
    split at read
    case isTrue few =>
      obtain rfl := Option.some.inj read
      simp only [List.length_append, List.length_map, List.length_replicate]
      omega
    case isFalse => simp at read
  case h_2 fields =>
    split at read
    case isTrue => exact (mapM_eq_some.mp read).length_eq.symm
    case isFalse => simp at read
  case h_3 => simp at read

/-! ### Records -/

/-- Distinct names can be given any values, one for each. -/
theorem exists_values_of_length {names : List String} (distinct : names.Nodup)
    {found : List (Option Json)} (length : found.length = names.length) :
    ∃ values : String → Option Json, names.map values = found := by
  induction names generalizing found with
  | nil => exact ⟨fun _ => none, (List.eq_nil_of_length_eq_zero length).symm⟩
  | cons name names ih =>
    obtain ⟨first, rest, rfl⟩ := List.exists_cons_of_length_eq_add_one length
    rw [List.nodup_cons] at distinct
    obtain ⟨values, others⟩ := ih distinct.2 (by simpa using length)
    refine ⟨Function.update values name first, ?_⟩
    rw [List.map_cons, Function.update_self, ← others]
    congr 1
    apply List.map_congr_left
    intro other member
    exact Function.update_of_ne (by rintro rfl; exact distinct.1 member) ..

/-- A record, field by field. What is built from the values of the fields has to have the values
that the fields are read as. -/
theorem Codec.record {α : Type} {encode : α → Json} {good : α → Prop} {least : Nat}
    (fields : List (RecordField α (least - 1))) {names : List String}
    {build : Nat → List (Option Json) → Option α} (names_eq : fields.map (·.name) = names)
    (distinct : names.Nodup)
    (written : ∀ a, encode a
      = .ofEntries (fields.map fun field => (field.name, field.write (field.get a))))
    (built : ∀ depth (values : String → Option Json) a, build depth (names.map values) = some a
      ↔ ∀ field ∈ fields, field.read depth (values field.name) = some (field.get a))
    (sound : ∀ a, good a ↔ ∀ field ∈ fields, field.good (field.get a)) :
    Codec encode (.record names build) good least := by
  subst names_eq
  have inverse : ∀ {depth j a}, Decoder.record (fields.map (·.name)) build depth j = some a →
      ∃ (below : Nat) (values : String → Option Json), depth = below + 1
        ∧ ∀ field ∈ fields, field.read below (values field.name) = some (field.get a) := by
    intro depth j a read
    cases depth with
    | zero => simp [Decoder.record] at read
    | succ below =>
      obtain ⟨found, values_found, made⟩ := Option.bind_eq_some_iff.mp read
      obtain ⟨values, rfl⟩ := exists_values_of_length distinct (length_fieldValues values_found)
      exact ⟨below, values, rfl, (built below values a).mp made⟩
  constructor
  case decode_encode =>
    intro a depth fine fits
    rw [written] at fits ⊢
    cases depth with
    | zero => simp [Json.ofEntries, Json.ofFields, Json.height] at fits
    | succ depth =>
      rw [Json.height_ofEntries_le, List.forall_mem_map] at fits
      obtain ⟨values, all⟩ := @exists_values_of_length _ distinct
        (fields.map fun field => field.write (field.get a)) (by simp)
      have each : ∀ field ∈ fields, values field.name = field.write (field.get a) := by
        rw [List.map_map] at all
        exact List.map_inj_left.mp all
      have found : Decoder.fieldValues (fields.map (·.name)) (.ofEntries (fields.map fun field =>
          (field.name, field.write (field.get a)))) = some ((fields.map (·.name)).map values) := by
        rw [all]
        simpa only [List.map_map, Function.comp_def] using @fieldValues_ofEntries
          (fields.map fun field => (field.name, field.write (field.get a)))
          (by simpa only [List.map_map, Function.comp_def] using distinct)
      rw [Decoder.record, found, Option.bind_some]
      apply (built depth values a).mpr
      intro field member
      rw [each field member]
      exact field.codec.read_write ((sound a).mp fine field member) (fits field member)
  case good_of_decode =>
    intro depth j a read
    obtain ⟨below, values, -, all⟩ := inverse read
    exact (sound a).mpr fun field member => field.codec.good_of_read (all field member)
  case height_le =>
    intro depth j a read enough
    obtain ⟨below, values, rfl, all⟩ := inverse read
    rw [written, Json.height_ofEntries_le, List.forall_mem_map]
    exact fun field member => field.codec.height_le (all field member) (by omega)
  case canonical =>
    intro a fine
    rw [written]
    apply Json.canonical_ofEntries
    rw [List.forall_mem_map]
    exact fun field member => field.codec.canonical ((sound a).mp fine field member)

end CircuitNetlist
