import Micromag.Parameter

/-!
# Energy terms

The energy of a problem is a list of named terms. A name is an identifier, occurs once, and is not
one that scripts use for their own objects. A coupling across a surface names two different
subregions of the mesh.
-/

namespace Micromag

/-- How an applied field varies in time. -/
inductive Wave where
  | constant
  | sin
  | sinc
deriving DecidableEq, Repr

/-- The crystal classes that allow an antisymmetric exchange. -/
inductive CrystalClass where
  | cnv
  | t
  | o
  | d2d
deriving DecidableEq, Repr

/-- The name of a crystal class. -/
def CrystalClass.name : CrystalClass → String
  | cnv => "Cnv"
  | t => "T"
  | o => "O"
  | d2d => "D2d"

/-- The physical interactions. -/
inductive Interaction where
  /-- Exchange with its constant. -/
  | exchange (constant : Parameter)
  /-- An applied field, with a wave in time, its frequency and its delay. -/
  | zeeman (field : Parameter) (wave : Option Wave) (frequency delay : Option Float)
  /-- The field of the magnetisation itself. -/
  | demag (asymptoticRadius : Option Float)
  /-- Antisymmetric exchange. -/
  | dmi (constant : Parameter) (crystal : CrystalClass)
  /-- Anisotropy about one axis. -/
  | uniaxial (k1 : Parameter) (k2 : Option Parameter) (axis : Parameter)
  /-- Cubic anisotropy with two of its axes. -/
  | cubic (k1 axis1 axis2 : Parameter)
  /-- Coupling to strain. -/
  | magnetoElastic (b1 b2 diagonal offDiagonal : Parameter)
  /-- Coupling of two subregions across the face that they share. -/
  | rkky (sigma sigma2 : Float) (first second : String)

namespace Interaction

/-- The kind of an interaction in documents. -/
def kindName : Interaction → String
  | exchange .. => "exchange"
  | zeeman .. => "zeeman"
  | demag .. => "demag"
  | dmi .. => "dmi"
  | uniaxial .. => "uniaxial_anisotropy"
  | cubic .. => "cubic_anisotropy"
  | magnetoElastic .. => "magneto_elastic"
  | rkky .. => "rkky"

/-- The name of a term that is not named. -/
def defaultName : Interaction → String
  | exchange .. => "exchange"
  | zeeman .. => "zeeman"
  | demag .. => "demag"
  | dmi .. => "dmi"
  | uniaxial .. => "uniaxialanisotropy"
  | cubic .. => "cubicanisotropy"
  | magnetoElastic .. => "mel"
  | rkky .. => "rkky"

end Interaction

/-- A named interaction. -/
structure Term where
  /-- The name of its block in a script. -/
  name : String
  /-- What it contributes. -/
  interaction : Interaction

/-- The term of an interaction under its default name. -/
def Term.ofInteraction (interaction : Interaction) : Term := ⟨interaction.defaultName, interaction⟩

/-- The sum of energy terms, in order. -/
abbrev Energy := List Term

/-- Why a list of terms is refused. -/
inductive TermFault where
  /-- A name is no identifier. -/
  | malformedName (sum name : String)
  /-- A name is taken by scripts. -/
  | reservedName (sum name : String)
  /-- A name occurs twice. -/
  | repeatedName (sum name : String)
  /-- A coupled subregion is not in the mesh. -/
  | unknownSubregion (term subregion : String)
  /-- A subregion is coupled to itself. -/
  | selfCoupling (term subregion : String)

/-- Names of objects that every script may declare. -/
def reservedNames : List String :=
  ["mesh", "evolver", "m0", "m0_norm", "main_atlas", "entire_atlas", "hysteresis"]

/-- Accept names after those seen before: identifiers, not reserved, each once. -/
def validateNamesAfter (sum : String) (seen : List String) : List String → Except TermFault Unit
  | [] => .ok ()
  | name :: rest =>
    if !Text.isIdentifier name then .error (.malformedName sum name)
    else if reservedNames.contains name then .error (.reservedName sum name)
    else if seen.contains name then .error (.repeatedName sum name)
    else validateNamesAfter sum (name :: seen) rest

/-- Accept the names of a sum of terms. -/
def validateNames (sum : String) (names : List String) : Except TermFault Unit :=
  validateNamesAfter sum [] names

namespace Term

/-- Accept a term whose subregions are in the mesh and differ. -/
def validate {α : Type} (mesh : Mesh α) (term : Term) : Except TermFault Unit :=
  match term.interaction with
  | .rkky _ _ first second => do
    [first, second].forM fun subregion =>
      if mesh.subregions.contains subregion then .ok ()
      else .error (.unknownSubregion term.name subregion)
    if first = second then .error (.selfCoupling term.name first)
  | _ => .ok ()

end Term

namespace Energy

/-- The first term of a name. -/
def get? (energy : Energy) (name : String) : Option Term :=
  energy.find? fun term => term.name = name

/-- Accept terms with usable names that fit the mesh. -/
def validate {α : Type} (mesh : Mesh α) (energy : Energy) : Except TermFault Unit := do
  validateNames "energy" (energy.map (·.name))
  energy.forM (Term.validate mesh)

end Energy

/-- The sentence of a refused list of terms. -/
def TermFault.fault : TermFault → Fault
  | .malformedName sum name =>
    .invalid "INPUT.TERM_NAME"
      s!"{sum} term name '{name}' must contain only letters, digits, and '_'"
  | .reservedName sum name =>
    .invalid "INPUT.TERM_NAME" s!"{sum} term name '{name}' is reserved"
  | .repeatedName sum name =>
    .invalid "INPUT.TERM_NAME" s!"{sum} term name '{name}' is used more than once"
  | .unknownSubregion term subregion =>
    .badTerm "INPUT.RKKY_SUBREGION"
      s!"term '{term}' references unknown subregion '{subregion}'"
  | .selfCoupling term subregion =>
    .badTerm "INPUT.RKKY_SUBREGION" s!"term '{term}' couples subregion '{subregion}' to itself"

end Micromag
