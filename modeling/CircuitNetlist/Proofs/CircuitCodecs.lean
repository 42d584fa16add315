import CircuitNetlist.Proofs.RecordCodecs

/-!
# The codecs of circuits

Each type of circuits has a codec, read off its declaration.
-/
namespace CircuitNetlist

variable {least : Nat}

namespace ElementKind

theorem codec : Codec toJson decode (fun _ => True) least :=
  .choice fun kind => by cases kind <;> rfl

end ElementKind

namespace SiScale

theorem codec : Codec toJson decode (fun _ => True) least :=
  .choice fun scale => by cases scale <;> rfl

end SiScale

namespace Mantissa

def AllFinite : Mantissa → Prop
  | double x => x.isFinite
  | _ => True

theorem codec : Codec toJson decode AllFinite least :=
  .variant [.mk "int" int .int64, .mk "double" double .double, .mk "string" text .text]
    rfl (by decide)
    (by simp [toJson])
    (by simp [AllFinite])
    fun
      | int i => ⟨0, _, rfl, i, rfl⟩
      | double x => ⟨1, _, rfl, x, rfl⟩
      | text s => ⟨2, _, rfl, s, rfl⟩

end Mantissa

namespace Scaled

def AllFinite (s : Scaled) : Prop :=
  s.mantissa.AllFinite

theorem codec : Codec toJson decode AllFinite least :=
  .record [⟨"prefix", scale, .required SiScale.codec⟩,
      ⟨"number", mantissa, .required Mantissa.codec⟩]
    rfl (by decide)
    (by intro s; simp [toJson, Json.ofEntries])
    (by
      rintro depth values ⟨scale, mantissa⟩
      simp [Option.bind_eq_some_iff])
    (by simp [AllFinite])

end Scaled

namespace Value

def AllFinite : Value → Prop
  | double x => x.isFinite
  | scaled s => s.AllFinite
  | _ => True

theorem codec : Codec toJson decode AllFinite least :=
  .variant [.mk "int" int .int64, .mk "double" double .double, .mk "string" text .text,
      .mk "literal" literal .text, .mk "prefixed" scaled Scaled.codec]
    rfl (by decide)
    (by simp [toJson])
    (by simp [AllFinite])
    fun
      | int i => ⟨0, _, rfl, i, rfl⟩
      | double x => ⟨1, _, rfl, x, rfl⟩
      | text s => ⟨2, _, rfl, s, rfl⟩
      | literal s => ⟨3, _, rfl, s, rfl⟩
      | scaled s => ⟨4, _, rfl, s, rfl⟩

theorem toJson_ne_null (v : Value) : v.toJson ≠ .null := by
  cases v <;> simp [toJson, Json.tagged, Json.ofFields]

end Value

namespace Param

def AllFinite (p : Param) : Prop :=
  ∀ v ∈ p.value, v.AllFinite

theorem codec : Codec toJson decode AllFinite least :=
  .record [⟨"name", name, .required .text⟩,
      ⟨"value", value, .orElse none (by simp) (Nat.zero_le _)
        (Value.codec.optional Value.toJson_ne_null)⟩,
      ⟨"desc", description, .omitted .text (by simp [Json.ofString])⟩]
    rfl (by decide)
    (by
      rintro ⟨name, value, description⟩
      cases value <;> cases description <;> rfl)
    (by
      rintro depth values ⟨name, value, description⟩
      simp [Option.bind_eq_some_iff])
    (by simp [AllFinite])

end Param

namespace QualifiedName

theorem codec : Codec toJson decode (fun _ => True) least :=
  .record [⟨"domain", domain, .required .text⟩, ⟨"name", name, .required .text⟩]
    rfl (by decide)
    (by simp [toJson, Json.ofEntries])
    (by
      rintro depth values ⟨domain, name⟩
      simp [Option.bind_eq_some_iff])
    (by simp)

end QualifiedName

namespace Direction

theorem codec : Codec toJson decode (fun _ => True) least :=
  .choice fun direction => by cases direction <;> rfl

end Direction

namespace Port

theorem codec : Codec toJson decode (fun _ => True) least :=
  .record [⟨"signal", signal, .required .text⟩,
      ⟨"direction", direction, .orElse .undirected trivial (Nat.zero_le _) Direction.codec⟩]
    rfl (by decide)
    (by simp [toJson, Json.ofEntries])
    (by
      rintro depth values ⟨signal, direction⟩
      simp [Option.bind_eq_some_iff])
    (by simp)

end Port

namespace Signal

theorem codec : Codec toJson decode (fun _ => True) least :=
  .record [⟨"name", name, .required .text⟩, ⟨"width", width, .required .uint64⟩]
    rfl (by decide)
    (by simp [toJson, Json.ofEntries])
    (by
      rintro depth values ⟨name, width⟩
      simp [Option.bind_eq_some_iff])
    (by simp)

end Signal

namespace Slice

theorem codec : Codec toJson decode (fun _ => True) least :=
  .record [⟨"signal", signal, .required .text⟩, ⟨"top", top, .required .uint64⟩,
      ⟨"bot", bottom, .required .uint64⟩]
    rfl (by decide)
    (by simp [toJson, Json.ofEntries])
    (by
      rintro depth values ⟨signal, top, bottom⟩
      simp [Option.bind_eq_some_iff])
    (by simp)

end Slice

namespace Target

/-- Fewer concatenations than this are nested in one another. -/
def NestsBelow : Nat → Target → Prop
  | 0, _ => False
  | nesting + 1, concat parts => ∀ part ∈ parts, NestsBelow nesting part
  | _ + 1, _ => True

theorem listToJson_eq (parts : List Target) : listToJson parts = parts.map toJson := by
  induction parts with
  | nil => rfl
  | cons part parts ih => rw [listToJson, ih, List.map_cons]

theorem codec_parts {part : Decoder Target} {good : Target → Prop}
    (codec : Codec toJson part good 0) :
    Codec partsToJson (decodePartsWith part) (fun parts => ∀ t ∈ parts, good t) 0 :=
  .record [⟨"parts", id, .required (.list codec)⟩]
    rfl (by decide)
    (by simp [partsToJson, Json.ofEntries, Json.ofList, listToJson_eq])
    (by simp)
    (by simp)

/-- The targets that are nested less deep than the decoder can follow. -/
theorem codec_nested (nesting : Nat) :
    Codec toJson (decodeNested nesting) (NestsBelow nesting) 0 := by
  induction nesting with
  | zero =>
    constructor
    case decode_encode => exact fun never => never.elim
    case good_of_decode => simp [decodeNested]
    case height_le => simp [decodeNested]
    case canonical => exact fun never => never.elim
  | succ nesting ih =>
    exact .variant [.mk "sig" signal .text, .mk "slice" slice Slice.codec,
        .mk "concat" concat (codec_parts ih)]
      rfl (by simp)
      (by simp [toJson, partsToJson])
      (by simp [NestsBelow])
      fun
        | signal name => ⟨0, _, rfl, name, rfl⟩
        | slice range => ⟨1, _, rfl, range, rfl⟩
        | concat parts => ⟨2, _, rfl, parts, rfl⟩

/-- A concatenation adds three levels, so the levels of the encoding bound the nesting. -/
theorem nestsBelow_height (nesting : Nat) (t : Target) (fits : t.toJson.height ≤ nesting) :
    NestsBelow nesting t := by
  induction nesting generalizing t with
  | zero => cases t <;> simp [toJson, Json.tagged, Json.ofFields, Json.height] at fits
  | succ nesting ih =>
    cases t with
    | signal name => trivial
    | slice range => trivial
    | concat parts =>
      have inner : Json.heightOfItems (parts.map toJson) ≤ nesting := by
        simp only [toJson, Json.tagged, Json.ofFields, List.map_cons, List.map_nil, Json.height,
          Json.heightOfFields, listToJson_eq] at fits
        omega
      rw [Json.heightOfItems_le, List.forall_mem_map] at inner
      exact fun part member => ih part (inner part member)

theorem codec : Codec toJson decode (fun _ => True) least where
  decode_encode {t depth} _ fits :=
    (codec_nested depth).decode_encode (nestsBelow_height depth t fits) fits
  good_of_decode _ := trivial
  height_le read _ := (codec_nested _).height_le read (Nat.zero_le _)
  canonical {t} _ := (codec_nested t.toJson.height).canonical (nestsBelow_height _ t le_rfl)

end Target

namespace Connection

theorem codec : Codec toJson decode (fun _ => True) least :=
  .record [⟨"portname", port, .required .text⟩, ⟨"target", target, .required Target.codec⟩]
    rfl (by decide)
    (by simp [toJson, Json.ofEntries])
    (by
      rintro depth values ⟨port, target⟩
      simp [Option.bind_eq_some_iff])
    (by simp)

end Connection

namespace Reference

theorem codec : Codec toJson decode (fun _ => True) least :=
  .variant [.mk "local" internal .text, .mk "external" external QualifiedName.codec]
    rfl (by decide)
    (by simp [toJson])
    (by simp)
    fun
      | internal name => ⟨0, _, rfl, name, rfl⟩
      | external name => ⟨1, _, rfl, name, rfl⟩

end Reference

namespace Instance

def AllFinite (i : Instance) : Prop :=
  ∀ p ∈ i.parameters, p.AllFinite

theorem codec : Codec toJson decode AllFinite (least + 2) :=
  .record [⟨"name", name, .required .text⟩,
      ⟨"module", reference, .required Reference.codec⟩,
      ⟨"parameters", parameters, .items Param.codec⟩,
      ⟨"connections", connections, .items Connection.codec⟩]
    rfl (by decide)
    (by simp [toJson, Json.ofEntries])
    (by
      rintro depth values ⟨name, reference, parameters, connections⟩
      simp [Option.bind_eq_some_iff])
    (by simp [AllFinite])

end Instance

namespace Module

def AllFinite (m : Module) : Prop :=
  (∀ i ∈ m.instances, i.AllFinite) ∧ ∀ p ∈ m.parameters, p.AllFinite

theorem codec : Codec toJson decode AllFinite (least + 4) :=
  .record [⟨"name", name, .required .text⟩, ⟨"ports", ports, .items Port.codec⟩,
      ⟨"signals", signals, .items Signal.codec⟩, ⟨"instances", instances, .items Instance.codec⟩,
      ⟨"parameters", parameters, .items Param.codec⟩, ⟨"literals", literals, .items .text⟩]
    rfl (by decide)
    (by simp [toJson, Json.ofEntries])
    (by
      rintro depth values ⟨name, ports, signals, instances, parameters, literals⟩
      simp [Option.bind_eq_some_iff])
    (by simp [AllFinite])

end Module

namespace ExternalModule

def AllFinite (m : ExternalModule) : Prop :=
  ∀ p ∈ m.parameters, p.AllFinite

theorem codec : Codec toJson decode AllFinite (least + 2) :=
  .record [⟨"name", name, .required QualifiedName.codec⟩,
      ⟨"desc", description, .omitted .text (by simp [Json.ofString])⟩,
      ⟨"ports", ports, .items Port.codec⟩, ⟨"signals", signals, .items Signal.codec⟩,
      ⟨"parameters", parameters, .items Param.codec⟩,
      ⟨"spicetype", kind, .orElse .subcircuit trivial (Nat.zero_le _) ElementKind.codec⟩]
    rfl (by decide)
    (by
      rintro ⟨name, description, ports, signals, parameters, kind⟩
      cases description <;> rfl)
    (by
      rintro depth values ⟨name, description, ports, signals, parameters, kind⟩
      simp [Option.bind_eq_some_iff])
    (by simp [AllFinite])

end ExternalModule

namespace Package

/-- Every double in the package is finite. -/
def AllFinite (p : Package) : Prop :=
  (∀ m ∈ p.modules, m.AllFinite) ∧ ∀ m ∈ p.externals, m.AllFinite

theorem codec : Codec toJson decode AllFinite 6 :=
  .record [⟨"domain", domain, .orElse "" trivial (Nat.zero_le _) .text⟩,
      ⟨"desc", description, .omitted .text (by simp [Json.ofString])⟩,
      ⟨"modules", modules, .items Module.codec⟩,
      ⟨"ext_modules", externals, .items ExternalModule.codec⟩]
    rfl (by decide)
    (by
      rintro ⟨domain, description, modules, externals⟩
      cases description <;> rfl)
    (by
      rintro depth values ⟨domain, description, modules, externals⟩
      simp [Option.bind_eq_some_iff])
    (by simp [AllFinite])

end Package

end CircuitNetlist
