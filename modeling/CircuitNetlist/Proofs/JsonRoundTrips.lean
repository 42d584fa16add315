import CircuitNetlist.Proofs.SimulationCodecs

/-!
# Circuits and simulation inputs through JSON

A package or a simulation input is decoded from its own text exactly if its numbers can be written
and the text is nested no deeper than the reader follows. Every text that is accepted, in whatever
spelling, decodes to such a value, so writing the value once brings the text to a normal form.
-/
namespace CircuitNetlist

namespace Codec

variable {α : Type} {encode : α → Json} {decode : Decoder α} {good : α → Prop} {least : Nat}

/-- What is written is parsed and decoded again, in either style. -/
theorem decode_text (codec : Codec encode decode good least) {a : α} {depth : Nat} (fine : good a)
    (fits : (encode a).height ≤ depth) (style : Json.Style) :
    (Json.parse? (String.ofList ((encode a).write style 0))).bind (decode depth) = some a := by
  rw [Json.parse?_write (codec.canonical fine) style, Option.bind_some,
    codec.decode_encode fine fits]

/-- What is decoded from any text is fit to be written, and nested no deeper than is allowed. -/
theorem fits_of_text (codec : Codec encode decode good least) {text : String} {a : α} {depth : Nat}
    (read : (Json.parse? text).bind (decode depth) = some a) (room : least ≤ depth) :
    good a ∧ (encode a).height ≤ depth := by
  obtain ⟨j, -, decoded⟩ := Option.bind_eq_some_iff.mp read
  exact ⟨codec.good_of_decode decoded, codec.height_le decoded room⟩

end Codec

theorem Package.ofJsonText?_toJsonText (p : Package) :
    ofJsonText? p.toJsonText = some p ↔ p.AllFinite ∧ p.toJson.height ≤ jsonDepthLimit :=
  ⟨fun read => codec.fits_of_text read (by decide),
    fun fits => codec.decode_text fits.1 fits.2 .pretty⟩

theorem SimulationInput.ofJsonText?_toJsonText (s : SimulationInput) :
    ofJsonText? s.toJsonText = some s
      ↔ (s.AllFinite ∧ s.DistinctInitial) ∧ s.toJson.height ≤ jsonDepthLimit :=
  ⟨fun read => codec.fits_of_text read (by decide),
    fun fits => codec.decode_text fits.1 fits.2 .compact⟩

/-- Packages are read back from their pretty text, and simulation inputs from their compact text, if
all their doubles are finite and no more arrays and objects are nested than the reader enters; and
only then. The initial conditions of an analysis are an object, whose nodes are distinct. -/
theorem json_round_trip :
    (∀ p : Package, Package.ofJsonText? p.toJsonText = some p
        ↔ p.AllFinite ∧ p.toJson.height ≤ jsonDepthLimit)
      ∧ ∀ s : SimulationInput, SimulationInput.ofJsonText? s.toJsonText = some s
        ↔ (s.AllFinite ∧ s.DistinctInitial) ∧ s.toJson.height ≤ jsonDepthLimit :=
  ⟨Package.ofJsonText?_toJsonText, SimulationInput.ofJsonText?_toJsonText⟩

/-- Every accepted text is brought to a normal form by decoding and encoding it once: the encoding
stays within the nesting limit, decodes to the same value, and is written again as it is. -/
theorem accepted_json_normalizes :
    (∀ text p, Package.ofJsonText? text = some p →
        p.AllFinite ∧ p.toJson.height ≤ jsonDepthLimit
          ∧ Package.ofJsonText? p.toJsonText = some p
          ∧ (Package.ofJsonText? p.toJsonText).map Package.toJsonText = some p.toJsonText)
      ∧ ∀ text s, SimulationInput.ofJsonText? text = some s →
        s.AllFinite ∧ s.toJson.height ≤ jsonDepthLimit
          ∧ SimulationInput.ofJsonText? s.toJsonText = some s
          ∧ (SimulationInput.ofJsonText? s.toJsonText).map SimulationInput.toJsonText
            = some s.toJsonText := by
  constructor
  · intro text p read
    have fits := Package.codec.fits_of_text read (by decide)
    have again := p.ofJsonText?_toJsonText.mpr fits
    exact ⟨fits.1, fits.2, again, by rw [again, Option.map_some]⟩
  · intro text s read
    have fits := SimulationInput.codec.fits_of_text read (by decide)
    have again := s.ofJsonText?_toJsonText.mpr fits
    exact ⟨fits.1.1, fits.2, again, by rw [again, Option.map_some]⟩

/-- A package spelled in ways in which none is written: records as arrays, a field that modules do
not have, a kind of element as an object, and fields left out. -/
def loosePackageText : String :=
  "[\"lib\",null,[\x7b\"later\":[],\"signals\":[[\"a\",1]],\"name\":\"m\"\x7d],"
    ++ "[[[\"d\",\"e\"],null,[],[],[[\"r\",\x7b\"double\":1e3\x7d]],\x7b\"resistor\":null\x7d]]]"

def loosePackage : Package :=
  { domain := "lib"
    modules := [{ name := "m", signals := [.scalar "a"] }]
    externals := [{ name := { domain := "d", name := "e" }
                    parameters := [.withValue "r" (.double ⟨0x408f400000000000⟩)]
                    kind := .resistor }] }

/-- A simulation input in which a node has two initial conditions: it keeps its first place and its
last value. -/
def looseInputText : String :=
  "[\x7b\x7d,\"t\",[],[\x7b\"tran\":[\"x\",1,2,\x7b\"a\":1,\"b\":2,\"a\":4\x7d]\x7d]]"

def looseInput : SimulationInput :=
  { package := {}
    top := "t"
    analyses := [.transient
      { name := "x"
        stop := ⟨0x3ff0000000000000⟩
        step := ⟨0x4000000000000000⟩
        initial := [("a", ⟨0x4010000000000000⟩), ("b", ⟨0x4000000000000000⟩)] }] }

theorem accepted_json_normalizes_loose_spellings :
    (Package.ofJsonText? loosePackageText = some loosePackage
        ∧ Package.ofJsonText? loosePackage.toJsonText = some loosePackage)
      ∧ SimulationInput.ofJsonText? looseInputText = some looseInput
        ∧ SimulationInput.ofJsonText? looseInput.toJsonText = some looseInput := by
  have package : Package.ofJsonText? loosePackageText = some loosePackage := by decide +kernel
  have input : SimulationInput.ofJsonText? looseInputText = some looseInput := by decide +kernel
  exact ⟨⟨package, (accepted_json_normalizes.1 loosePackageText loosePackage package).2.2.1⟩,
    input, (accepted_json_normalizes.2 looseInputText looseInput input).2.2.1⟩

end CircuitNetlist
