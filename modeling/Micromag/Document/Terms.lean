import Micromag.Document.Geometry
import Micromag.Dynamics

/-!
# Documents of terms

Energy terms and dynamics terms are records that say their kind. A term without a name takes that of
its kind. An anisotropy constant is read under two names.
-/

namespace Micromag

namespace Wave

/-- The name of a wave. -/
def name : Wave → String
  | constant => "constant"
  | sin => "sin"
  | sinc => "sinc"

/-- The wave of a name. -/
def ofName? : String → Option Wave
  | "constant" => some constant
  | "sin" => some sin
  | "sinc" => some sinc
  | _ => none

end Wave

/-- The crystal class of a name, which may also be in lower case. -/
def CrystalClass.ofName? : String → Option CrystalClass
  | "Cnv" | "cnv" => some .cnv
  | "T" | "t" => some .t
  | "O" | "o" => some .o
  | "D2d" | "d2d" => some .d2d
  | _ => none

/-- Two names. -/
def Json.names? (json : Json) : Option (String × String) := do
  match ← json.list? Json.string? with
  | [first, second] => some (first, second)
  | _ => none

namespace Interaction

/-- The fields of an interaction besides its name. -/
def toEntries : Interaction → List (String × Json)
  | exchange a => [("A", a.toDocument)]
  | zeeman field wave frequency delay =>
    ("H", field.toDocument) :: Json.optionalEntry "wave" (fun w => .string (Wave.name w)) wave ++
      Json.optionalEntry "f" .number frequency ++ Json.optionalEntry "t0" .number delay
  | demag radius => Json.optionalEntry "asymptotic_radius" .number radius
  | dmi d crystal => [("D", d.toDocument), ("crystalclass", .string crystal.name)]
  | uniaxial k1 k2 axis =>
    ("K", k1.toDocument) :: Json.optionalEntry "K2" Parameter.toDocument k2 ++
      [("u", axis.toDocument)]
  | cubic k1 axis1 axis2 =>
    [("K", k1.toDocument), ("u1", axis1.toDocument), ("u2", axis2.toDocument)]
  | magnetoElastic b1 b2 diagonal offDiagonal =>
    [("B1", b1.toDocument), ("B2", b2.toDocument), ("e_diag", diagonal.toDocument),
      ("e_offdiag", offDiagonal.toDocument)]
  | rkky sigma sigma2 first second =>
    [("sigma", .number sigma), ("sigma2", .number sigma2),
      ("subregions", .array [.string first, .string second])]

end Interaction

/-- The field of a term's name. -/
def termName : FieldName := .defaulted "name"

/-- The anisotropy constant, written under its first name. -/
def anisotropyConstant : FieldName := { names := ["K", "K1"] }

namespace Term

/-- A term as a document. -/
def toDocument (term : Term) : Json :=
  .object (("kind", .string term.interaction.kindName) :: ("name", .string term.name) ::
    term.interaction.toEntries)

/-- The term of a record and an interaction read from it. -/
def named? (record : Record) (interaction : Interaction) : Option Term := do
  return ⟨← record.defaulted "name" Json.string? interaction.defaultName, interaction⟩

/-- The term of a kind and the record without it. -/
def ofKind? (kind : String) (json : Json) : Option Term :=
  match kind with
  | "exchange" => do
    let record ← json.record? [termName, .needed "A"]
    named? record (.exchange (← record.needed "A" Parameter.ofDocument?))
  | "zeeman" => do
    let record ← json.record?
      [termName, .needed "H", .defaulted "wave", .defaulted "f", .defaulted "t0"]
    named? record (.zeeman (← record.needed "H" Parameter.ofDocument?)
      (← record.optional "wave" (Json.word? Wave.ofName?)) (← record.optional "f" Json.float?)
      (← record.optional "t0" Json.float?))
  | "demag" => do
    let record ← json.record? [termName, .defaulted "asymptotic_radius"]
    named? record (.demag (← record.optional "asymptotic_radius" Json.float?))
  | "dmi" => do
    let record ← json.record? [termName, .needed "D", .needed "crystalclass"]
    named? record (.dmi (← record.needed "D" Parameter.ofDocument?)
      (← record.needed "crystalclass" (Json.word? CrystalClass.ofName?)))
  | "uniaxial_anisotropy" => do
    let record ← json.record? [termName, anisotropyConstant, .defaulted "K2", .needed "u"]
    named? record (.uniaxial (← record.needed "K" Parameter.ofDocument?)
      (← record.optional "K2" Parameter.ofDocument?) (← record.needed "u" Parameter.ofDocument?))
  | "cubic_anisotropy" => do
    let record ← json.record? [termName, anisotropyConstant, .needed "u1", .needed "u2"]
    named? record (.cubic (← record.needed "K" Parameter.ofDocument?)
      (← record.needed "u1" Parameter.ofDocument?) (← record.needed "u2" Parameter.ofDocument?))
  | "magneto_elastic" => do
    let record ← json.record?
      [termName, .needed "B1", .needed "B2", .needed "e_diag", .needed "e_offdiag"]
    named? record (.magnetoElastic (← record.needed "B1" Parameter.ofDocument?)
      (← record.needed "B2" Parameter.ofDocument?)
      (← record.needed "e_diag" Parameter.ofDocument?)
      (← record.needed "e_offdiag" Parameter.ofDocument?))
  | "rkky" => do
    let record ← json.record?
      [termName, .needed "sigma", .defaulted "sigma2", .needed "subregions"]
    let (first, second) ← record.needed "subregions" Json.names?
    named? record (.rkky (← record.needed "sigma" Json.float?)
      (← record.defaulted "sigma2" Json.float? 0) first second)
  | _ => none

/-- The term of a document. -/
def ofDocument? (json : Json) : Option Term := do
  let (kind, rest) ← json.kind? "kind"
  ofKind? kind rest

end Term

namespace Energy

/-- The energy as a document. -/
def toDocument (energy : Energy) : Json := .ofList Term.toDocument energy

/-- The energy of a document. -/
def ofDocument? (json : Json) : Option Energy := json.list? Term.ofDocument?

end Energy

namespace DynamicsTerm

/-- A dynamics term as a document. -/
def toDocument (term : DynamicsTerm) : Json :=
  .object (("kind", .string term.torque.kindName) :: ("name", .string term.name) ::
    match term.torque with
    | .precession gamma => [("gamma0", gamma.toDocument)]
    | .damping alpha => [("alpha", alpha.toDocument)]
    | .zhangLi velocity beta => [("u", velocity.toDocument), ("beta", beta.toDocument)]
    | .slonczewski current polariser polarisation asymmetry secondary =>
      [("J", current.toDocument), ("mp", polariser.toDocument), ("P", polarisation.toDocument),
        ("Lambda", asymmetry.toDocument), ("eps_prime", secondary.toDocument)])

/-- The term of a record and a torque read from it. -/
def named? (record : Record) (torque : Torque) : Option DynamicsTerm := do
  return ⟨← record.defaulted "name" Json.string? torque.defaultName, torque⟩

/-- The dynamics term of a kind and the record without it. -/
def ofKind? (kind : String) (json : Json) : Option DynamicsTerm :=
  match kind with
  | "precession" => do
    let record ← json.record? [termName, .needed "gamma0"]
    named? record (.precession (← record.needed "gamma0" Parameter.ofDocument?))
  | "damping" => do
    let record ← json.record? [termName, .needed "alpha"]
    named? record (.damping (← record.needed "alpha" Parameter.ofDocument?))
  | "zhang_li" => do
    let record ← json.record? [termName, .needed "u", .needed "beta"]
    named? record (.zhangLi (← record.needed "u" Parameter.ofDocument?)
      (← record.needed "beta" Parameter.ofDocument?))
  | "slonczewski" => do
    let record ← json.record?
      [termName, .needed "J", .needed "mp", .needed "P", .needed "Lambda",
        .defaulted "eps_prime"]
    named? record (.slonczewski (← record.needed "J" Parameter.ofDocument?)
      (← record.needed "mp" Parameter.ofDocument?) (← record.needed "P" Parameter.ofDocument?)
      (← record.needed "Lambda" Parameter.ofDocument?)
      (← record.defaulted "eps_prime" Parameter.ofDocument? (.constant 0)))
  | _ => none

/-- The dynamics term of a document. -/
def ofDocument? (json : Json) : Option DynamicsTerm := do
  let (kind, rest) ← json.kind? "kind"
  ofKind? kind rest

end DynamicsTerm

namespace Dynamics

/-- The dynamics as a document. -/
def toDocument (dynamics : Dynamics) : Json := .ofList DynamicsTerm.toDocument dynamics

/-- The dynamics of a document. -/
def ofDocument? (json : Json) : Option Dynamics := json.list? DynamicsTerm.ofDocument?

end Dynamics

end Micromag
