import Micromag.Document.Terms
import Micromag.Proofs.Document.Geometry

/-!
# Documents of terms stand for them

A term says its kind and its name. Of each kind exactly the declared fields are written, those of a
parameter under its first name, so that a term of finite parameters is read from its document however
that is stored.
-/

namespace Micromag

open Json Record

/-- A parameter that may be missing stands for itself. -/
theorem Parameter.optional_standsFor {value : Option Parameter}
    (storable : ∀ x ∈ value, x.Storable) :
    ∀ x ∈ value, x.toDocument.StandsFor Parameter.ofDocument? x :=
  fun x member => (storable x member).standsFor

/-- A finite number that may be missing stands for itself. -/
theorem optionalNumber_standsFor {value : Option Float} (finite : ∀ x ∈ value, x.isFinite = true) :
    ∀ x ∈ value, (Json.number x).StandsFor float? x :=
  fun x member => number_standsFor (finite x member)

namespace Wave

/-- The name of a wave stands for it. -/
theorem standsFor (wave : Wave) :
    (Json.string wave.name).StandsFor (word? Wave.ofName?) wave := by
  refine word_standsFor ?_
  cases wave <;> rfl

end Wave

/-- The name of a crystal class stands for it. -/
theorem CrystalClass.standsFor (crystal : CrystalClass) :
    (Json.string crystal.name).StandsFor (word? CrystalClass.ofName?) crystal := by
  refine word_standsFor ?_
  cases crystal <;> rfl

/-- An interaction that is stored without loss. -/
def Interaction.Storable : Interaction → Prop
  | .exchange a => a.Storable
  | .zeeman field _ frequency delay =>
    field.Storable ∧ (∀ x ∈ frequency, x.isFinite = true) ∧ ∀ x ∈ delay, x.isFinite = true
  | .demag radius => ∀ x ∈ radius, x.isFinite = true
  | .dmi d _ => d.Storable
  | .uniaxial k1 k2 axis => k1.Storable ∧ (∀ k ∈ k2, k.Storable) ∧ axis.Storable
  | .cubic k1 axis1 axis2 => k1.Storable ∧ axis1.Storable ∧ axis2.Storable
  | .magnetoElastic b1 b2 diagonal offDiagonal =>
    b1.Storable ∧ b2.Storable ∧ diagonal.Storable ∧ offDiagonal.Storable
  | .rkky sigma sigma2 _ _ => sigma.isFinite = true ∧ sigma2.isFinite = true

/-- Two names stand for themselves. -/
theorem names_standsFor (first second : String) :
    (Json.array [.string first, .string second]).StandsFor names? (first, second) := by
  have list : (Json.ofList .string [first, second]).StandsFor (list? string?) [first, second] :=
    list_standsFor fun text _ => string_standsFor text
  refine ⟨list.sound, fun stored stores => ?_⟩
  unfold names?
  rw [list.read stored stores]
  rfl

namespace Term

variable {record : Record} {name : String}

/-- The name of a term is read. -/
theorem named?_of_rel (found : Option.Rel Stores (record.find? "name") (some (.string name)))
    (interaction : Interaction) : named? record interaction = some ⟨name, interaction⟩ := by
  unfold named?
  rw [defaulted_of_some found (string_standsFor name)]
  rfl

/-- A record of a name and an interaction stands for the term. -/
def Written (name : String) (interaction : Interaction) : Prop :=
  (Json.object (("name", .string name) :: interaction.toEntries)).StandsFor
    (ofKind? interaction.kindName) ⟨name, interaction⟩

variable (name)

/-- An exchange is read. -/
theorem exchange_written {a : Parameter} (storable : a.Storable) : Written name (.exchange a) := by
  have label := string_standsFor name
  have constant := storable.standsFor
  show (Json.object (present [("name", some (.string name)), ("A", some a.toDocument)])).StandsFor
    (ofKind? "exchange") _
  refine record_standsFor [termName, .needed "A"] ⟨rfl, by decide, by decide⟩
    ⟨label.sound_some, constant.sound_some⟩ ?_
  rintro stored record found ⟨one, two⟩
  unfold ofKind?
  simp [found, named?_of_rel one, needed_of_rel two constant]

/-- An applied field is read. -/
theorem zeeman_written {field : Parameter} {wave : Option Wave} {frequency delay : Option Float}
    (storable : field.Storable) (finite : ∀ x ∈ frequency, x.isFinite = true)
    (finiteDelay : ∀ x ∈ delay, x.isFinite = true) :
    Written name (.zeeman field wave frequency delay) := by
  have label := string_standsFor name
  have applied := storable.standsFor
  have shape : ∀ w ∈ wave, (Json.string w.name).StandsFor (word? Wave.ofName?) w :=
    fun w _ => w.standsFor
  have often := optionalNumber_standsFor finite
  have late := optionalNumber_standsFor finiteDelay
  have whole : ("name", Json.string name) ::
      (Interaction.zeeman field wave frequency delay).toEntries =
        present [("name", some (.string name)), ("H", some field.toDocument),
          ("wave", wave.map fun w => .string w.name), ("f", frequency.map .number),
          ("t0", delay.map .number)] := by
    cases wave <;> cases frequency <;> cases delay <;> rfl
  unfold Written
  rw [whole]
  refine record_standsFor
    [termName, .needed "H", .defaulted "wave", .defaulted "f", .defaulted "t0"]
    ⟨rfl, by decide, by decide⟩ ⟨label.sound_some, applied.sound_some, sound_map shape,
      sound_map often, sound_map late⟩ ?_
  rintro stored record found ⟨one, two, three, four, five⟩
  unfold ofKind?
  simp [Interaction.kindName, found, named?_of_rel one, needed_of_rel two applied,
    optional_of_rel three shape rfl, optional_of_rel four often rfl, optional_of_rel five late rfl]

/-- The field of the magnetisation itself is read. -/
theorem demag_written {radius : Option Float} (finite : ∀ x ∈ radius, x.isFinite = true) :
    Written name (.demag radius) := by
  have label := string_standsFor name
  have far := optionalNumber_standsFor finite
  have whole : ("name", Json.string name) :: (Interaction.demag radius).toEntries =
      present [("name", some (.string name)), ("asymptotic_radius", radius.map .number)] := by
    cases radius <;> rfl
  unfold Written
  rw [whole]
  refine record_standsFor [termName, .defaulted "asymptotic_radius"]
    ⟨rfl, by decide, by decide⟩ ⟨label.sound_some, sound_map far⟩ ?_
  rintro stored record found ⟨one, two⟩
  unfold ofKind?
  simp [Interaction.kindName, found, named?_of_rel one, optional_of_rel two far rfl]

/-- An antisymmetric exchange is read. -/
theorem dmi_written {d : Parameter} (crystal : CrystalClass) (storable : d.Storable) :
    Written name (.dmi d crystal) := by
  have label := string_standsFor name
  have constant := storable.standsFor
  have symmetry := crystal.standsFor
  show (Json.object (present [("name", some (.string name)), ("D", some d.toDocument),
    ("crystalclass", some (.string crystal.name))])).StandsFor (ofKind? "dmi") _
  refine record_standsFor [termName, .needed "D", .needed "crystalclass"]
    ⟨rfl, by decide, by decide⟩
    ⟨label.sound_some, constant.sound_some, symmetry.sound_some⟩ ?_
  rintro stored record found ⟨one, two, three⟩
  unfold ofKind?
  simp [found, named?_of_rel one, needed_of_rel two constant,
    needed_of_rel three symmetry]

/-- An anisotropy about one axis is read. -/
theorem uniaxial_written {k1 axis : Parameter} {k2 : Option Parameter} (storable : k1.Storable)
    (storable2 : ∀ k ∈ k2, k.Storable) (storableAxis : axis.Storable) :
    Written name (.uniaxial k1 k2 axis) := by
  have label := string_standsFor name
  have first := storable.standsFor
  have second := Parameter.optional_standsFor storable2
  have direction := storableAxis.standsFor
  have whole : ("name", Json.string name) :: (Interaction.uniaxial k1 k2 axis).toEntries =
      present [("name", some (.string name)), ("K", some k1.toDocument),
        ("K2", k2.map Parameter.toDocument), ("u", some axis.toDocument)] := by
    cases k2 <;> rfl
  unfold Written
  rw [whole]
  refine record_standsFor [termName, anisotropyConstant, .defaulted "K2", .needed "u"]
    ⟨rfl, by decide, by decide⟩
    ⟨label.sound_some, first.sound_some, sound_map second, direction.sound_some⟩ ?_
  rintro stored record found ⟨one, two, three, four⟩
  unfold ofKind?
  simp [Interaction.kindName, found, named?_of_rel one, needed_of_rel two first,
    optional_of_rel three second rfl, needed_of_rel four direction]

/-- A cubic anisotropy is read. -/
theorem cubic_written {k1 axis1 axis2 : Parameter} (storable : k1.Storable)
    (storable1 : axis1.Storable) (storable2 : axis2.Storable) :
    Written name (.cubic k1 axis1 axis2) := by
  have label := string_standsFor name
  have constant := storable.standsFor
  have first := storable1.standsFor
  have second := storable2.standsFor
  show (Json.object (present [("name", some (.string name)), ("K", some k1.toDocument),
    ("u1", some axis1.toDocument), ("u2", some axis2.toDocument)])).StandsFor
      (ofKind? "cubic_anisotropy") _
  refine record_standsFor [termName, anisotropyConstant, .needed "u1", .needed "u2"]
    ⟨rfl, by decide, by decide⟩
    ⟨label.sound_some, constant.sound_some, first.sound_some, second.sound_some⟩ ?_
  rintro stored record found ⟨one, two, three, four⟩
  unfold ofKind?
  simp [found, named?_of_rel one, needed_of_rel two constant, needed_of_rel three first,
    needed_of_rel four second]

/-- A coupling to strain is read. -/
theorem magnetoElastic_written {b1 b2 diagonal offDiagonal : Parameter} (storable1 : b1.Storable)
    (storable2 : b2.Storable) (storableOn : diagonal.Storable)
    (storableOff : offDiagonal.Storable) :
    Written name (.magnetoElastic b1 b2 diagonal offDiagonal) := by
  have label := string_standsFor name
  have first := storable1.standsFor
  have second := storable2.standsFor
  have on := storableOn.standsFor
  have off := storableOff.standsFor
  show (Json.object (present [("name", some (.string name)), ("B1", some b1.toDocument),
    ("B2", some b2.toDocument), ("e_diag", some diagonal.toDocument),
    ("e_offdiag", some offDiagonal.toDocument)])).StandsFor (ofKind? "magneto_elastic") _
  refine record_standsFor
    [termName, .needed "B1", .needed "B2", .needed "e_diag", .needed "e_offdiag"]
    ⟨rfl, by decide, by decide⟩ ⟨label.sound_some, first.sound_some, second.sound_some,
      on.sound_some, off.sound_some⟩ ?_
  rintro stored record found ⟨one, two, three, four, five⟩
  unfold ofKind?
  simp [found, named?_of_rel one, needed_of_rel two first, needed_of_rel three second,
    needed_of_rel four on, needed_of_rel five off]

/-- A coupling across a surface is read. -/
theorem rkky_written {sigma sigma2 : Float} (one two : String) (finite : sigma.isFinite = true)
    (finite2 : sigma2.isFinite = true) : Written name (.rkky sigma sigma2 one two) := by
  have label := string_standsFor name
  have first := number_standsFor finite
  have second := number_standsFor finite2
  have coupled := names_standsFor one two
  show (Json.object (present [("name", some (.string name)), ("sigma", some (.number sigma)),
    ("sigma2", some (.number sigma2)),
    ("subregions", some (.array [.string one, .string two]))])).StandsFor (ofKind? "rkky") _
  refine record_standsFor [termName, .needed "sigma", .defaulted "sigma2", .needed "subregions"]
    ⟨rfl, by decide, by decide⟩
    ⟨label.sound_some, first.sound_some, second.sound_some, coupled.sound_some⟩ ?_
  rintro stored record found ⟨one, two, three, four⟩
  unfold ofKind?
  simp [found, named?_of_rel one, needed_of_rel two first,
    defaulted_of_some three second, needed_of_rel four coupled]

/-- No field of an interaction is named like the kind. -/
theorem kind_notMem (interaction : Interaction) :
    "kind" ∉ (("name", Json.string name) :: interaction.toEntries).map (·.1) := by
  cases interaction with
  | zeeman _ wave frequency delay =>
    cases wave <;> cases frequency <;> cases delay <;>
      simp [Interaction.toEntries, optionalEntry]
  | demag radius => cases radius <;> simp [Interaction.toEntries, optionalEntry]
  | uniaxial _ k2 _ => cases k2 <;> simp [Interaction.toEntries, optionalEntry]
  | _ => simp [Interaction.toEntries]

/-- The document of a term stands for it. -/
theorem standsFor {term : Term} (storable : term.interaction.Storable) :
    term.toDocument.StandsFor Term.ofDocument? term := by
  obtain ⟨name, interaction⟩ := term
  have written : Written name interaction := by
    cases interaction with
    | exchange a => exact exchange_written name storable
    | zeeman => exact zeeman_written name storable.1 storable.2.1 storable.2.2
    | demag => exact demag_written name storable
    | dmi _ crystal => exact dmi_written name crystal storable
    | uniaxial => exact uniaxial_written name storable.1 storable.2.1 storable.2.2
    | cubic => exact cubic_written name storable.1 storable.2.1 storable.2.2
    | magnetoElastic =>
      exact magnetoElastic_written name storable.1 storable.2.1 storable.2.2.1 storable.2.2.2
    | rkky _ _ one two => exact rkky_written name one two storable.1 storable.2
  exact kind_standsFor (kind_notMem name interaction) written

end Term

/-- Terms that are stored without loss. -/
def Energy.Storable (energy : Energy) : Prop := ∀ term ∈ energy, term.interaction.Storable

/-- The document of an energy stands for it. -/
theorem Energy.Storable.standsFor {energy : Energy} (storable : energy.Storable) :
    energy.toDocument.StandsFor Energy.ofDocument? energy :=
  list_standsFor fun term member => Term.standsFor (storable term member)

/-- A torque that is stored without loss. -/
def Torque.Storable : Torque → Prop
  | .precession gamma => gamma.Storable
  | .damping alpha => alpha.Storable
  | .zhangLi velocity beta => velocity.Storable ∧ beta.Storable
  | .slonczewski current polariser polarisation asymmetry secondary =>
    current.Storable ∧ polariser.Storable ∧ polarisation.Storable ∧ asymmetry.Storable ∧
      secondary.Storable

namespace DynamicsTerm

variable {record : Record} {name : String}

/-- The name of a dynamics term is read. -/
theorem named?_of_rel (found : Option.Rel Stores (record.find? "name") (some (.string name)))
    (torque : Torque) : named? record torque = some ⟨name, torque⟩ := by
  unfold named?
  rw [defaulted_of_some found (string_standsFor name)]
  rfl

variable (name)

/-- A precession is read. -/
theorem precession_standsFor {gamma : Parameter} (storable : gamma.Storable) :
    (Json.object (present [("name", some (.string name)),
      ("gamma0", some gamma.toDocument)])).StandsFor (ofKind? "precession")
        ⟨name, .precession gamma⟩ := by
  have label := string_standsFor name
  have constant := storable.standsFor
  refine record_standsFor [termName, .needed "gamma0"] ⟨rfl, by decide, by decide⟩
    ⟨label.sound_some, constant.sound_some⟩ ?_
  rintro stored record found ⟨one, two⟩
  unfold ofKind?
  simp [found, named?_of_rel one, needed_of_rel two constant]

/-- A damping is read. -/
theorem damping_standsFor {alpha : Parameter} (storable : alpha.Storable) :
    (Json.object (present [("name", some (.string name)),
      ("alpha", some alpha.toDocument)])).StandsFor (ofKind? "damping")
        ⟨name, .damping alpha⟩ := by
  have label := string_standsFor name
  have constant := storable.standsFor
  refine record_standsFor [termName, .needed "alpha"] ⟨rfl, by decide, by decide⟩
    ⟨label.sound_some, constant.sound_some⟩ ?_
  rintro stored record found ⟨one, two⟩
  unfold ofKind?
  simp [found, named?_of_rel one, needed_of_rel two constant]

/-- A torque of a current in the plane is read. -/
theorem zhangLi_standsFor {velocity beta : Parameter} (storable : velocity.Storable)
    (storableBeta : beta.Storable) :
    (Json.object (present [("name", some (.string name)), ("u", some velocity.toDocument),
      ("beta", some beta.toDocument)])).StandsFor (ofKind? "zhang_li")
        ⟨name, .zhangLi velocity beta⟩ := by
  have label := string_standsFor name
  have speed := storable.standsFor
  have degree := storableBeta.standsFor
  refine record_standsFor [termName, .needed "u", .needed "beta"] ⟨rfl, by decide, by decide⟩
    ⟨label.sound_some, speed.sound_some, degree.sound_some⟩ ?_
  rintro stored record found ⟨one, two, three⟩
  unfold ofKind?
  simp [found, named?_of_rel one, needed_of_rel two speed, needed_of_rel three degree]

/-- A torque of a current through a polarising layer is read. -/
theorem slonczewski_standsFor {current polariser polarisation asymmetry secondary : Parameter}
    (storable : (Torque.slonczewski current polariser polarisation asymmetry secondary).Storable) :
    (Json.object (present [("name", some (.string name)), ("J", some current.toDocument),
      ("mp", some polariser.toDocument), ("P", some polarisation.toDocument),
      ("Lambda", some asymmetry.toDocument),
      ("eps_prime", some secondary.toDocument)])).StandsFor (ofKind? "slonczewski")
        ⟨name, .slonczewski current polariser polarisation asymmetry secondary⟩ := by
  have label := string_standsFor name
  have density := storable.1.standsFor
  have direction := storable.2.1.standsFor
  have degree := storable.2.2.1.standsFor
  have lambda := storable.2.2.2.1.standsFor
  have prime := storable.2.2.2.2.standsFor
  refine record_standsFor
    [termName, .needed "J", .needed "mp", .needed "P", .needed "Lambda", .defaulted "eps_prime"]
    ⟨rfl, by decide, by decide⟩ ⟨label.sound_some, density.sound_some, direction.sound_some,
      degree.sound_some, lambda.sound_some, prime.sound_some⟩ ?_
  rintro stored record found ⟨one, two, three, four, five, six⟩
  unfold ofKind?
  simp [found, named?_of_rel one, needed_of_rel two density, needed_of_rel three direction,
    needed_of_rel four degree, needed_of_rel five lambda, defaulted_of_some six prime]

/-- The document of a dynamics term stands for it. -/
theorem standsFor {term : DynamicsTerm} (storable : term.torque.Storable) :
    term.toDocument.StandsFor DynamicsTerm.ofDocument? term := by
  obtain ⟨name, torque⟩ := term
  cases torque with
  | precession => exact kind_standsFor (by simp [present]) (precession_standsFor name storable)
  | damping => exact kind_standsFor (by simp [present]) (damping_standsFor name storable)
  | zhangLi =>
    exact kind_standsFor (by simp [present]) (zhangLi_standsFor name storable.1 storable.2)
  | slonczewski => exact kind_standsFor (by simp [present]) (slonczewski_standsFor name storable)

end DynamicsTerm

/-- Dynamics that are stored without loss. -/
def Dynamics.Storable (dynamics : Dynamics) : Prop := ∀ term ∈ dynamics, term.torque.Storable

/-- The document of dynamics stands for them. -/
theorem Dynamics.Storable.standsFor {dynamics : Dynamics} (storable : dynamics.Storable) :
    dynamics.toDocument.StandsFor Dynamics.ofDocument? dynamics :=
  list_standsFor fun term member => DynamicsTerm.standsFor (storable term member)

end Micromag
