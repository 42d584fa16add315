import CircuitNetlist.Json.Circuit
import CircuitNetlist.Proofs.JsonTexts
import CircuitNetlist.Proofs.NearestDoubles

/-!
# Encoders with their decoders

A codec is an encoder with a decoder of the same type and what makes them fit: the decoder takes
back what the encoder writes, within the levels that it is allowed to enter, and whatever text a
value was decoded from, its encoding needs no more levels than were allowed. Codecs are put together
as the types are: a list from its items, a variant from its kinds, a record from its fields.
-/
namespace CircuitNetlist

namespace Json

/-! ### Nesting -/

mutual

/-- How many arrays and objects are nested in one another. -/
def height : Json → Nat
  | .array items => heightOfItems items + 1
  | .object fields => heightOfFields fields + 1
  | _ => 0

def heightOfItems : List Json → Nat
  | [] => 0
  | item :: items => max (height item) (heightOfItems items)

def heightOfFields : List (Option String × Json) → Nat
  | [] => 0
  | field :: fields => max (height field.2) (heightOfFields fields)

end

theorem heightOfItems_le {items : List Json} {depth : Nat} :
    heightOfItems items ≤ depth ↔ ∀ item ∈ items, item.height ≤ depth := by
  induction items with
  | nil => simp [heightOfItems]
  | cons item items ih => simp [heightOfItems, ih]

theorem heightOfFields_le {fields : List (Option String × Json)} {depth : Nat} :
    heightOfFields fields ≤ depth ↔ ∀ field ∈ fields, field.2.height ≤ depth := by
  induction fields with
  | nil => simp [heightOfFields]
  | cons field fields ih => simp [heightOfFields, ih]

theorem height_array_le {items : List Json} {depth : Nat} :
    (Json.array items).height ≤ depth + 1 ↔ ∀ item ∈ items, item.height ≤ depth := by
  rw [height, Nat.add_le_add_iff_right, heightOfItems_le]

theorem height_ofFields_le {fields : List (String × Json)} {depth : Nat} :
    (Json.ofFields fields).height ≤ depth + 1 ↔ ∀ field ∈ fields, field.2.height ≤ depth := by
  rw [ofFields, height, Nat.add_le_add_iff_right, heightOfFields_le]
  simp only [List.forall_mem_map]

end Json

/-! ### Lists of results and tables of names -/

/-- The results of a traversal stand at the places of what they were made from. -/
theorem mapM_eq_some {α β : Type*} {f : α → Option β} {xs : List α} {ys : List β} :
    xs.mapM f = some ys ↔ List.Forall₂ (fun x y => f x = some y) xs ys := by
  induction xs generalizing ys with
  | nil =>
    rw [List.mapM_nil, List.forall₂_nil_left_iff]
    simp [eq_comm]
  | cons x xs ih =>
    rw [List.mapM_cons, List.forall₂_cons_left_iff]
    simp only [Option.bind_eq_bind, Option.bind_eq_some_iff, Option.pure_def, Option.some.injEq, ih]
    constructor
    · rintro ⟨y, first, rest, others, rfl⟩
      exact ⟨y, rest, first, others, rfl⟩
    · rintro ⟨y, rest, first, others, rfl⟩
      exact ⟨y, first, rest, others, rfl⟩

/-- What holds of every possible result holds of all the results. -/
theorem forall_mem_of_mapM {α β : Type*} {f : α → Option β} {P : β → Prop} {xs : List α}
    {ys : List β} (read : xs.mapM f = some ys) (each : ∀ x y, f x = some y → P y) :
    ∀ y ∈ ys, P y := by
  induction mapM_eq_some.mp read with
  | nil => simp
  | cons made _ ih => exact List.forall_mem_cons.mpr ⟨each _ _ made, ih (mapM_eq_some.mpr ‹_›)⟩

section

variable {κ : Type*} {β : Type*} {name : κ → String} {f : κ → β} {ks : List κ}

theorem lookup_map_of_mem (distinct : (ks.map name).Nodup) {k : κ} (member : k ∈ ks) :
    (ks.map fun k => (name k, f k)).lookup (name k) = some (f k) := by
  induction ks with
  | nil => simp at member
  | cons first ks ih =>
    rw [List.map_cons, List.nodup_cons] at distinct
    rw [List.map_cons]
    rcases List.mem_cons.mp member with rfl | later
    · exact List.lookup_cons_self
    · have apart : name k ≠ name first := by
        intro same
        exact distinct.1 (same ▸ List.mem_map_of_mem later)
      rw [List.lookup_cons, beq_false_of_ne apart]
      exact ih distinct.2 later

theorem exists_of_lookup_map {key : String} {b : β}
    (found : (ks.map fun k => (name k, f k)).lookup key = some b) :
    ∃ k ∈ ks, name k = key ∧ f k = b := by
  induction ks with
  | nil => simp at found
  | cons first ks ih =>
    rw [List.map_cons, List.lookup_cons] at found
    split at found
    case h_1 same => exact ⟨first, List.mem_cons_self, (eq_of_beq same).symm, by simpa using found⟩
    case h_2 =>
      obtain ⟨k, member, values⟩ := ih found
      exact ⟨k, List.mem_cons_of_mem first member, values⟩

end

/-! ### The laws -/

/-- What an encoder and a decoder have in common. The values `good` are those that can be written; a
value may have parts that no text mentions, which need the levels `least`. -/
structure Codec {α : Type} (encode : α → Json) (decode : Decoder α) (good : α → Prop)
    (least : Nat) : Prop where
  decode_encode : ∀ {a depth}, good a → (encode a).height ≤ depth → decode depth (encode a) = some a
  good_of_decode : ∀ {depth j a}, decode depth j = some a → good a
  height_le : ∀ {depth j a}, decode depth j = some a → least ≤ depth → (encode a).height ≤ depth
  canonical : ∀ {a}, good a → (encode a).IsCanonical

namespace Codec

variable {α : Type} {encode : α → Json} {decode : Decoder α} {good : α → Prop} {least : Nat}

/-! ### Scalars -/

theorem text : Codec Json.ofString Decoder.text (fun _ => True) least where
  decode_encode _ _ := rfl
  good_of_decode _ := trivial
  height_le _ _ := Nat.zero_le _
  canonical {s} _ := .string (some s)

theorem canonical_ofInt (value : Int) : (Json.ofInt value).IsCanonical := by
  apply Json.IsCanonical.number
  rw [JsonNumber.IsCanonical, if_pos rfl]
  refine ⟨rfl, ?_⟩
  simp only [decide_eq_true_eq]
  omega

theorem integer?_ofInt (value : Int) :
    Decoder.integer? ⟨⟨value < 0, ⟨value.natAbs, 0⟩⟩, true⟩ = some value := by
  simp only [Decoder.integer?, if_true, decide_eq_true_eq]
  split
  · rw [Int.ofNat_natAbs_of_nonpos (by omega), neg_neg]
  · rw [Int.natAbs_of_nonneg (by omega)]

theorem int64 :
    Codec (fun i : Int64 => Json.ofInt i.toInt) Decoder.int64 (fun _ => True) least where
  decode_encode := by
    intro i depth _ _
    have range : Int64.minValue.toInt ≤ i.toInt ∧ i.toInt ≤ Int64.maxValue.toInt :=
      ⟨Int64.minValue_le_toInt i, Int64.toInt_le i⟩
    simp only [Json.ofInt, Decoder.int64, integer?_ofInt, Option.bind_eq_bind, Option.bind_some]
    rw [if_pos range, Int64.ofInt_toInt]
  good_of_decode _ := trivial
  height_le _ _ := Nat.zero_le _
  canonical _ := canonical_ofInt _

theorem uint64 :
    Codec (fun n : UInt64 => Json.ofInt n.toNat) Decoder.uint64 (fun _ => True) least where
  decode_encode := by
    intro n depth _ _
    have range : 0 ≤ (n.toNat : Int) ∧ (n.toNat : Int) < UInt64.size := by
      exact ⟨Int.natCast_nonneg _, Int.ofNat_lt.mpr n.toNat_lt_size⟩
    rw [Json.ofInt, Decoder.uint64, integer?_ofInt, Option.bind_eq_bind, Option.bind_some,
      if_pos range, Int.toNat_natCast, UInt64.ofNat_toNat]
  good_of_decode _ := trivial
  height_le _ _ := Nat.zero_le _
  canonical _ := canonical_ofInt _

theorem double : Codec Json.ofDouble Decoder.double (fun x => x.isFinite) least where
  decode_encode := by
    intro x depth finite _
    have read : Double.ofDecimal x.isNegative
        (if x.isZero then ⟨0, 0⟩ else x.shortest .toEven) = x := by
      split
      case isTrue zero => exact Double.ofDecimal_zero zero
      case isFalse nonzero =>
        have rounds := Double.isRoundingOf_shortest (Bool.eq_false_iff.mpr nonzero) .toEven
        exact Double.ofDecimal_eq finite (Bool.eq_false_iff.mpr nonzero) rounds
    simp only [Json.ofDouble, finite, if_true, Decoder.double, read]
  good_of_decode := by
    intro depth j x read
    cases j with
    | number n =>
      rw [Decoder.double] at read
      split at read
      case isTrue finite =>
        obtain rfl := Option.some.inj read
        exact finite
      case isFalse => simp at read
    | _ => simp [Decoder.double] at read
  height_le _ _ := by
    unfold Json.ofDouble
    split <;> exact Nat.zero_le _
  canonical {x} finite := by
    rw [Json.ofDouble, if_pos finite]
    apply Json.IsCanonical.number
    rw [JsonNumber.IsCanonical, if_neg (by simp)]
    dsimp only
    split
    · rfl
    · exact Decimal.normalize_normalize _

/-! ### Lists and optional values -/

theorem list (codec : Codec encode decode good (least - 1)) :
    Codec (Json.ofList encode) (.list decode) (fun as => ∀ a ∈ as, good a) least where
  decode_encode := by
    intro as depth all fits
    cases depth with
    | zero => simp [Json.ofList, Json.height] at fits
    | succ depth =>
      rw [Json.ofList, Json.height_array_le, List.forall_mem_map] at fits
      rw [Json.ofList, Decoder.list, mapM_eq_some, List.forall₂_map_left_iff, List.forall₂_same]
      exact fun a member => codec.decode_encode (all a member) (fits a member)
  good_of_decode := by
    intro depth j as read
    cases depth with
    | zero => simp [Decoder.list] at read
    | succ depth =>
      cases j with
      | array items => exact forall_mem_of_mapM read fun j a => codec.good_of_decode
      | _ => simp [Decoder.list] at read
  height_le := by
    intro depth j as read enough
    cases depth with
    | zero => simp [Decoder.list] at read
    | succ depth =>
      cases j with
      | array items =>
        rw [Json.ofList, Json.height_array_le, List.forall_mem_map]
        exact forall_mem_of_mapM read fun j a found => codec.height_le found (by omega)
      | _ => simp [Decoder.list] at read
  canonical {as} all := by
    apply Json.IsCanonical.array
    simp only [List.forall_mem_map]
    exact fun a member => codec.canonical (all a member)

/-- A value or null, if no value is itself written as null. -/
theorem optional (codec : Codec encode decode good least) (apart : ∀ a, encode a ≠ .null) :
    Codec (fun o : Option α => match o with | some a => encode a | none => .null)
      (.optional decode) (fun o => ∀ a ∈ o, good a) least where
  decode_encode := by
    intro o depth all fits
    cases o with
    | none => rfl
    | some a =>
      have read := codec.decode_encode (all a rfl) fits
      dsimp only
      unfold Decoder.optional
      split
      case h_1 null => exact absurd null (apart a)
      case h_2 => rw [read, Option.map_some]
  good_of_decode := by
    intro depth j o read
    unfold Decoder.optional at read
    split at read
    case h_1 =>
      obtain rfl := Option.some.inj read
      simp
    case h_2 =>
      obtain ⟨a, found, rfl⟩ := Option.map_eq_some_iff.mp read
      simpa using codec.good_of_decode found
  height_le := by
    intro depth j o read enough
    unfold Decoder.optional at read
    split at read
    case h_1 =>
      obtain rfl := Option.some.inj read
      exact Nat.zero_le _
    case h_2 =>
      obtain ⟨a, found, rfl⟩ := Option.map_eq_some_iff.mp read
      exact codec.height_le found enough
  canonical {o} fine := by
    cases o with
    | none => exact .null
    | some a => exact codec.canonical (fine a rfl)

/-! ### Choices and variants -/

/-- A plain choice, each of its values under its own name. -/
theorem choice {name : α → String} {values : List α}
    (named : ∀ a, (namedBy name values).lookup (name a) = some a) :
    Codec (fun a => .ofString (name a)) (.choice (namedBy name values)) (fun _ => True) least where
  decode_encode := by
    intro a depth _ _
    exact named a
  good_of_decode _ := trivial
  height_le _ _ := Nat.zero_le _
  canonical {a} _ := .string (some (name a))

end Codec

/-- One kind of a variant: its name, the values of this kind, and their codec. -/
structure VariantKind (α : Type) (least : Nat) where
  name : String
  {β : Type}
  make : β → α
  {inner : β → Json}
  {decode : Decoder β}
  {good : β → Prop}
  codec : Codec inner decode good least

namespace Codec

variable {α : Type} {encode : α → Json} {good : α → Prop} {least : Nat}

/-- A value of one of several kinds, under the name of its kind. -/
theorem variant (kinds : List (VariantKind α (least - 1))) {decoders : List (String × Decoder α)}
    (decoders_eq : decoders = kinds.map fun kind =>
      (kind.name, fun depth j => (kind.decode depth j).map kind.make))
    (distinct : (decoders.map (·.1)).Nodup)
    (written : ∀ kind ∈ kinds, ∀ b, encode (kind.make b) = .tagged kind.name (kind.inner b))
    (sound : ∀ kind ∈ kinds, ∀ b, good (kind.make b) ↔ kind.good b)
    (covered : ∀ a, ∃ (i : Nat) (kind : VariantKind α (least - 1)),
      kinds[i]? = some kind ∧ ∃ b, kind.make b = a) :
    Codec encode (.variant decoders) good least := by
  have names : (kinds.map (·.name)).Nodup := by
    simpa only [decoders_eq, List.map_map, Function.comp_def] using distinct
  have inverse : ∀ {depth j a}, Decoder.variant decoders depth j = some a →
      ∃ kind ∈ kinds, ∃ b inner below, kind.decode below inner = some b ∧ kind.make b = a
        ∧ depth = below + 1 := by
    intro depth j a read
    unfold Decoder.variant at read
    split at read
    case h_1 below tag inner =>
      simp only [Option.bind_eq_bind, Option.bind_eq_some_iff, decoders_eq] at read
      obtain ⟨decode, found, value⟩ := read
      obtain ⟨kind, member, -, rfl⟩ := exists_of_lookup_map found
      obtain ⟨b, decoded, made⟩ := Option.map_eq_some_iff.mp value
      exact ⟨kind, member, b, inner, below, decoded, made, rfl⟩
    case h_2 => simp at read
  constructor
  case decode_encode =>
    intro a depth fine fits
    obtain ⟨i, kind, place, b, rfl⟩ := covered a
    have member := List.mem_of_getElem? place
    rw [written kind member] at fits ⊢
    cases depth with
    | zero => simp [Json.tagged, Json.ofFields, Json.height] at fits
    | succ depth =>
      have inner : (kind.inner b).height ≤ depth := by
        simpa [Json.tagged, Json.height_ofFields_le] using fits
      have found := lookup_map_of_mem (f := fun kind : VariantKind α (least - 1) =>
        fun depth j => (kind.decode depth j).map kind.make) names member
      have read := kind.codec.decode_encode ((sound kind member b).mp fine) inner
      simp [Json.tagged, Json.ofFields, Decoder.variant, decoders_eq, found, read]
  case good_of_decode =>
    intro depth j a read
    obtain ⟨kind, member, b, inner, below, decoded, rfl, -⟩ := inverse read
    exact (sound kind member b).mpr (kind.codec.good_of_decode decoded)
  case height_le =>
    intro depth j a read enough
    obtain ⟨kind, member, b, inner, below, decoded, rfl, rfl⟩ := inverse read
    have fits := kind.codec.height_le decoded (by omega)
    rw [written kind member]
    simpa [Json.tagged, Json.height_ofFields_le] using fits
  case canonical =>
    intro a fine
    obtain ⟨i, kind, place, b, rfl⟩ := covered a
    have member := List.mem_of_getElem? place
    rw [written kind member]
    apply Json.IsCanonical.object
    simpa using kind.codec.canonical ((sound kind member b).mp fine)

end Codec

end CircuitNetlist
