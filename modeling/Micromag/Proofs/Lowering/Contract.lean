import Micromag.Proofs.Lowering.Pairs
import Micromag.Proofs.Lowering.Sidecars

/-!
# What a lowered parameter keeps to

A parameter fits a place when its values are finite and numbers or vectors as the place asks for, and
when its regions or its cells are those of the mesh. Exactly then it is lowered; otherwise no field
file is asked for. What is lowered declares the objects of the parameter and refers to the main atlas
and to what it declares before. Names of regions are written as they stand: a name that no usable
mesh has may hold a colon of its own.
-/

namespace Micromag

open Script

/-! ## Fitting a place -/

namespace RegionValue

/-- The numbers of a value. -/
def numbers : RegionValue → List Float
  | scalar x => [x]
  | vector v => v.toList

/-- Whether a value can stand at a place. -/
structure Suits (arity : Arity) (value : RegionValue) : Prop where
  /-- It is a number or a vector as the place asks for. -/
  accepted : arity.accepts value = true
  /-- Its numbers are finite. -/
  finite : ∀ x ∈ value.numbers, x.isFinite = true

/-- A value can be written when its numbers are finite. -/
theorem word_ok {value : RegionValue} :
    (∃ word, value.word = .ok word) ↔ ∀ x ∈ value.numbers, x.isFinite = true := by
  have written {x : Float} : (∃ atom, number x = .ok atom) ↔ x.isFinite = true := by
    rw [← PairValue.numberText_ok]
    constructor
    · rintro ⟨atom, lowered⟩
      obtain ⟨text, inner, -⟩ := Result.map_ok.mp lowered
      exact ⟨text, inner⟩
    · rintro ⟨text, inner⟩
      exact ⟨_, Result.map_ok.mpr ⟨text, inner, rfl⟩⟩
  have wrapped {α β : Type} {first : Except Fault α} {f : α → β} :
      (∃ result, first.map f = .ok result) ↔ ∃ value, first = .ok value := by
    constructor
    · rintro ⟨result, lowered⟩
      obtain ⟨value, inner, -⟩ := Result.map_ok.mp lowered
      exact ⟨value, inner⟩
    · rintro ⟨value, inner⟩
      exact ⟨_, Result.map_ok.mpr ⟨value, inner, rfl⟩⟩
  cases value with
  | scalar x => exact wrapped.trans (written.trans (by simp [numbers]))
  | vector v =>
    refine wrapped.trans (Result.mapM_succeeds.trans ?_)
    exact forall₂_congr fun x _ => written

/-- Zero can stand at every place. -/
theorem suits_zero (arity : Arity) : arity.zero.Suits arity := by
  cases arity with
  | scalar => exact ⟨rfl, by decide⟩
  | vector => exact ⟨rfl, by decide⟩

end RegionValue

namespace Parameter

variable {site : Site} {arity : Arity} {name kind : String} {value : Parameter}

/-- Whether a parameter can be lowered: its values can stand at the place, it names regions of the
mesh only, and a field is usable on the cells of the mesh. -/
def Fits (arity : Arity) (site : Site) : Parameter → Prop
  | constant x => (RegionValue.scalar x).Suits arity
  | vector v => (RegionValue.vector v).Suits arity
  | perRegion map =>
    (∀ entry ∈ map.values.entries, entry.1 ∈ site.mesh.regionNames ∧ entry.2.Suits arity) ∧
      ∀ elsewhere ∈ map.fallback, elsewhere.Suits arity
  | field f =>
    f.dim = arity.dim ∧ f.validate = .ok () ∧ f.mesh.counts = site.mesh.counts

/-- A value has a word at a place when it can stand there. -/
theorem arityWord_ok {value : RegionValue} :
    (∃ word, arityWord arity name kind value = .ok word) ↔ value.Suits arity := by
  unfold arityWord
  by_cases accepted : arity.accepts value = true
  · rw [if_pos accepted, RegionValue.word_ok]
    exact ⟨fun finite => ⟨accepted, finite⟩, fun suits => suits.finite⟩
  · rw [if_neg accepted]
    exact ⟨fun ⟨_, refused⟩ => (nomatch refused), fun suits => absurd suits.accepted accepted⟩

/-- A parameter that is the same everywhere is lowered when its value can stand at the place. -/
theorem constantWord_ok {value : RegionValue} :
    (∃ lowered, constantWord arity name kind value = .ok lowered) ↔ value.Suits arity := by
  refine Iff.trans ?_ (arityWord_ok : (∃ word, arityWord arity name kind value = .ok word) ↔ _)
  constructor
  · rintro ⟨lowered, done⟩
    obtain ⟨word, written, -⟩ := Result.bind_ok.mp done
    exact ⟨word, written⟩
  · rintro ⟨word, written⟩
    exact ⟨_, Result.bind_ok.mpr ⟨word, written, rfl⟩⟩

/-- An entry of a region map has a row when its region is one of the mesh and its value can stand at
the place. -/
theorem regionRow_ok {entry : String × RegionValue} :
    (∃ row, regionRow arity site name kind entry = .ok row) ↔
      entry.1 ∈ site.mesh.regionNames ∧ entry.2.Suits arity := by
  have written : (∃ word, arityWord arity name kind entry.2 = .ok word) ↔ entry.2.Suits arity :=
    arityWord_ok
  rw [← written]
  constructor
  · rintro ⟨row, lowered⟩
    obtain ⟨_, accepted, lowered⟩ := Result.bind_ok.mp lowered
    obtain ⟨word, written, -⟩ := Result.bind_ok.mp lowered
    exact ⟨mem_of_checkRegion accepted, word, written⟩
  · rintro ⟨member, word, written⟩
    exact ⟨_, Result.bind_ok.mpr
      ⟨(), checkRegion_of_mem member, Result.bind_ok.mpr ⟨word, written, rfl⟩⟩⟩

/-- The value elsewhere can stand at a place when it is zero or can stand there. -/
theorem suits_getD {fallback : Option RegionValue} :
    (fallback.getD arity.zero).Suits arity ↔ ∀ elsewhere ∈ fallback, elsewhere.Suits arity := by
  cases fallback with
  | none => exact ⟨fun _ _ absent => (nomatch absent), fun _ => RegionValue.suits_zero arity⟩
  | some x => exact ⟨fun suits _ same => Option.some.inj same ▸ suits, fun each => each x rfl⟩

/-- A region map has its object when it fits. -/
theorem regionItem_ok {map : RegionMap} :
    (∃ item, regionItem arity site name map = .ok item) ↔ (perRegion map).Fits arity site := by
  let kind := (perRegion map).kindName
  have rows : (∃ rows, map.values.entries.mapM (regionRow arity site name kind) = .ok rows) ↔
      ∀ entry ∈ map.values.entries, entry.1 ∈ site.mesh.regionNames ∧ entry.2.Suits arity :=
    Result.mapM_succeeds.trans (forall₂_congr fun _ _ => regionRow_ok)
  have elsewhere : (∃ word, arityWord arity name kind (map.fallback.getD arity.zero) = .ok word) ↔
      ∀ elsewhere ∈ map.fallback, elsewhere.Suits arity :=
    arityWord_ok.trans suits_getD
  refine Iff.trans ?_ (and_congr rows elsewhere)
  constructor
  · rintro ⟨item, lowered⟩
    obtain ⟨rows, inner, lowered⟩ := Result.bind_ok.mp lowered
    obtain ⟨word, written, -⟩ := Result.bind_ok.mp lowered
    exact ⟨⟨rows, inner⟩, word, written⟩
  · rintro ⟨⟨rows, inner⟩, word, written⟩
    exact ⟨_, Result.bind_ok.mpr ⟨rows, inner, Result.bind_ok.mpr ⟨word, written, rfl⟩⟩⟩

/-- A parameter is lowered exactly when it fits. -/
theorem lower_ok_iff :
    (∃ lowered, (value.lower arity site name).result = .ok lowered) ↔ value.Fits arity site := by
  cases value with
  | constant x => exact constantWord_ok
  | vector v => exact constantWord_ok
  | perRegion map =>
    refine Iff.trans ?_ (regionItem_ok : (∃ item, regionItem arity site name map = .ok item) ↔ _)
    constructor
    · rintro ⟨lowered, done⟩
      obtain ⟨item, inner, -⟩ := Lowering.bind_ok.mp done
      exact ⟨item, inner⟩
    · rintro ⟨item, inner⟩
      exact ⟨_, Lowering.bind_ok.mpr ⟨item, inner, rfl⟩⟩
  | field f =>
    show _ ↔ f.dim = arity.dim ∧ f.validate = .ok () ∧ f.mesh.counts = site.mesh.counts
    refine Iff.trans ?_ (checkField_ok : checkField arity site name f = .ok () ↔ _)
    constructor
    · rintro ⟨lowered, done⟩
      obtain ⟨_, checked, -⟩ := Lowering.bind_ok.mp done
      exact checked
    · intro checked
      cases arity with
      | scalar => exact ⟨_, Lowering.bind_ok.mpr ⟨(), checked, rfl⟩⟩
      | vector => exact ⟨_, Lowering.bind_ok.mpr ⟨(), checked, rfl⟩⟩

/-! ## Field files -/

/-- A parameter that is not lowered asks for no field file. -/
theorem sidecars_of_error {fault : Fault}
    (refused : (value.lower arity site name).result = .error fault) :
    (value.lower arity site name).sidecars = [] := by
  cases value with
  | constant x => rfl
  | vector v => rfl
  | perRegion map =>
    unfold lower
    dsimp only
    cases regionItem arity site name map with
    | error fault => rfl
    | ok item => rfl
  | field f =>
    unfold lower at refused ⊢
    dsimp only at refused ⊢
    generalize checkField arity site name f = checked at refused ⊢
    cases checked with
    | error fault => rfl
    | ok _ =>
      -- an accepted field is lowered
      cases arity with
      | scalar => cases refused
      | vector => cases refused

/-- A parameter that is lowered asks for its field files. -/
theorem sidecars_of_ok (identifier : Text.isIdentifier name = true) {lowered : LoweredParameter}
    (done : (value.lower arity site name).result = .ok lowered) :
    (value.lower arity site name).sidecars = value.sidecars arity name :=
  (lower_supplies identifier ⟨done, rfl⟩).asked

/-! ## References -/

/-- The names that the regions of a map refer to when they are written as they stand. -/
def regionReferences : Parameter → List String
  | perRegion map => map.values.entries.flatMap fun entry => references entry.1.toList
  | _ => []

/-- The text of the object of a region map refers to the main atlas, and else to what names of regions
refer to. -/
theorem refersTo_regionItem (identifier : Text.isIdentifier name = true) {map : RegionMap}
    {item : Item} (lowered : regionItem arity site name map = .ok item) :
    RefersTo ("main_atlas" :: (perRegion map).regionReferences) item.render.toList := by
  obtain ⟨rows, inner, lowered⟩ := Result.bind_ok.mp lowered
  obtain ⟨fallback, written, same⟩ := Result.bind_ok.mp lowered
  rw [← Except.ok.inj same]
  have ofClass : Text.isIdentifier arity.regionClass = true := by
    cases arity <;> decide
  refine refersTo_blockText ofClass (fun _ same => Option.some.inj same ▸ identifier) ?_
  refine List.forall_mem_map.mpr (List.forall_mem_cons.mpr ⟨?_, List.forall_mem_cons.mpr
    ⟨?_, List.forall_mem_singleton.mpr ?_⟩⟩)
  · exact Entry.refersTo_render (Mesh.mainAtlas_resolves List.mem_cons_self)
  · exact Entry.refersTo_render (setting_resolves (by decide) (arityWord_resolves written))
  · refine refersTo_tableText (by decide) fun row member => ?_
    obtain ⟨entry, inside, lowered⟩ := Result.exists_of_mem_mapM inner member
    obtain ⟨_, _, lowered⟩ := Result.bind_ok.mp lowered
    obtain ⟨word, valued, same⟩ := Result.bind_ok.mp lowered
    rw [← Except.ok.inj same]
    refine List.forall_mem_cons.mpr ⟨?_, List.forall_mem_singleton.mpr
      (Word.refersTo_render (arityWord_resolves valued))⟩
    refine refersTo_iff.mpr fun object member => List.mem_cons_of_mem _ ?_
    exact List.mem_flatMap.mpr ⟨entry, inside, member⟩

/-- Names of regions refer to nothing where a usable mesh has these regions. -/
theorem regionReferences_eq_nil (usable : site.mesh.validate = .ok ())
    (fits : value.Fits arity site) : value.regionReferences = [] := by
  cases value with
  | perRegion map =>
    refine List.flatMap_eq_nil_iff.mpr fun entry member => ?_
    have identifier := Mesh.isIdentifier_of_mem_regionNames usable (fits.1 entry member).1
    have refers : RefersTo [] entry.1.toList := .of_noColon (Text.noColon_of_isIdentifier identifier)
    exact List.eq_nil_of_subset_nil (refersTo_iff.mp refers)
  | constant | vector | field => rfl

/-- What lowering a parameter has to show for it. -/
structure Declares (arity : Arity) (site : Site) (value : Parameter) (name : String)
    (lowered : LoweredParameter) : Prop where
  /-- The text declares the objects of the parameter. -/
  objects : declaredNames (render lowered.items).toList = value.objectNames arity name
  /-- Without objects there is no text, and the word is no reference. -/
  plain : value.objectNames arity name = [] →
    render lowered.items = "" ∧ lowered.token.render.toList.head? ≠ some ':'
  /-- With objects the word refers to the last of them. -/
  token : ∀ last ∈ (value.objectNames arity name).getLast?, lowered.token.render = ":" ++ last
  /-- A token of the text that refers to an object refers to the main atlas or stands behind the whole
  declaration of the object, unless the mesh is unusable and the token is a part of the name of a
  region. -/
  references : ∀ before object after : List Char,
    (render lowered.items).toList = before ++ (':' :: object) ++ after →
    (∀ c ∈ before.getLast?, isDelimiter c = true) → (∀ c ∈ object, isDelimiter c = false) →
    (∀ c ∈ after.head?, isDelimiter c = true) →
    String.ofList object = "main_atlas" ∨
      (∃ block, .block block ∈ lowered.items ∧ block.instanceName = some (String.ofList object) ∧
        block.render.toList <:+: before) ∨
      site.mesh.validate ≠ .ok () ∧ String.ofList object ∈ value.regionReferences

/-- A parameter that is the same everywhere needs no text. -/
theorem declares_constantWord {value : Parameter} {x : RegionValue}
    (same : value.objectNames arity name = []) {lowered : LoweredParameter}
    (done : constantWord arity name kind x = .ok lowered) :
    Declares arity site value name lowered := by
  obtain ⟨word, written, rfl⟩ := Result.map_ok.mp done
  have noColon : ':' ∉ word.render.toList := Word.noColon_render (arityWord_resolves written)
  have empty : (render []).toList = [] := by decide
  have nothing : declaredNames (render []).toList = [] := by decide
  refine ⟨by rw [same]; exact nothing, fun _ => ⟨String.toList_inj.mp empty, fun start => ?_⟩, ?_, ?_⟩
  · exact noColon (List.mem_of_head? start)
  · rw [same]
    exact fun _ absent => nomatch absent
  · intro before object after text
    rw [empty] at text
    simp at text

/-- A region map declares its object. -/
theorem declares_regionItem (identifier : Text.isIdentifier name = true) {map : RegionMap}
    {item : Item} (lowered : regionItem arity site name map = .ok item) :
    Declares arity site (perRegion map) name ⟨[item], .reference name⟩ := by
  have refers := refersTo_regionItem identifier lowered
  have fits : (perRegion map).Fits arity site := regionItem_ok.mp ⟨item, lowered⟩
  obtain ⟨rows, _, lowered⟩ := Result.bind_ok.mp lowered
  obtain ⟨fallback, _, same⟩ := Result.bind_ok.mp lowered
  have ofClass : Text.isIdentifier arity.regionClass = true := by
    cases arity <;> decide
  have text : (render [item]).toList = item.render.toList := by
    rw [toList_render_cons]
    exact List.append_nil _
  refine ⟨?_, fun none => absurd none (List.cons_ne_nil _ _), ?_, ?_⟩
  · rw [text, ← Except.ok.inj same]
    exact declaredNames_blockText ofClass fun _ same => Option.some.inj same ▸ identifier
  · exact fun _ same => Option.some.inj same ▸ rfl
  · intro before object after split start solid stop
    have whole : ∀ c ∈ ':' :: object, isDelimiter c = false :=
      List.forall_mem_cons.mpr ⟨by decide, solid⟩
    rw [text] at split
    rw [split] at refers
    have known := refers _ (mem_tokens whole (List.cons_ne_nil _ _) start stop) _ rfl
    refine (List.mem_cons.mp known).imp_right fun inRegion => .inr ⟨fun usable => ?_, inRegion⟩
    rw [regionReferences_eq_nil usable fits] at inRegion
    exact List.not_mem_nil inRegion

/-- A parameter that is given cell by cell declares its objects. -/
theorem declares_field (identifier : Text.isIdentifier name = true) {f : Field Float}
    {lowered : LoweredParameter} (done : ((field f).lower arity site name).result = .ok lowered) :
    Declares arity site (field f) name lowered := by
  obtain ⟨emits, _⟩ : Stands ["main_atlas"] lowered ((field f).objectNames arity name) :=
    field_stands List.mem_cons_self identifier done
  obtain ⟨_, _, done⟩ := Lowering.bind_ok.mp done
  obtain ⟨_, _, done⟩ := Lowering.bind_ok.mp done
  refine ⟨?_, fun none => ?_, fun last same => ?_, ?_⟩
  · rw [emits.resolves.declaredNames_render, emits.instances]
  · cases arity <;> cases none
  · cases arity with
    | scalar =>
      rw [← Lowering.pure_ok.mp done, ← Option.some.inj same]
      rfl
    | vector =>
      rw [← Lowering.pure_ok.mp done, ← Option.some.inj same]
      rfl
  · intro before object after text start solid stop
    have place := emits.resolves.known_or_declared_before text start solid stop
    exact place.imp List.mem_singleton.mp .inl

/-- What is lowered declares the objects of the parameter. -/
theorem declares_lower (identifier : Text.isIdentifier name = true) {lowered : LoweredParameter}
    (done : (value.lower arity site name).result = .ok lowered) :
    Declares arity site value name lowered := by
  cases value with
  | constant x => exact declares_constantWord rfl done
  | vector v => exact declares_constantWord rfl done
  | perRegion map =>
    obtain ⟨item, inner, same⟩ := Lowering.bind_ok.mp done
    rw [← Lowering.pure_ok.mp same]
    exact declares_regionItem identifier inner
  | field f => exact declares_field identifier done

/-- A parameter is lowered exactly when it fits, whatever files are held. Then its field files are held
too, and what is lowered declares its objects; otherwise the files stay as they are. -/
theorem lower_contract (arity : Arity) (site : Site) (value : Parameter) (name : String)
    (identifier : Text.isIdentifier name = true) (held : List Sidecar) :
    ((∃ lowered, ((value.lower arity site name).run held).1 = .ok lowered) ↔
      value.Fits arity site) ∧
    (∀ lowered, ((value.lower arity site name).run held).1 = .ok lowered →
      ((value.lower arity site name).run held).2 = held ++ value.sidecars arity name ∧
        Declares arity site value name lowered) ∧
    ∀ fault, ((value.lower arity site name).run held).1 = .error fault →
      ((value.lower arity site name).run held).2 = held := by
  rw [Lowering.run_fst, Lowering.run_snd]
  refine ⟨lower_ok_iff, fun lowered done => ?_, fun fault refused => ?_⟩
  · rw [sidecars_of_ok identifier done]
    exact ⟨rfl, declares_lower identifier done⟩
  · rw [sidecars_of_error refused, List.append_nil]

/-- A cube of one cell, with a subregion under a name of its own. -/
def cube (region : String) : Site where
  mesh :=
    { region := ⟨.fill 0, .fill 1⟩, cell := .fill 1
      subregions := Keyed.empty.insert region ⟨.fill 0, .fill 1⟩ }
  platform := .unix

/-- A number for the one cell of a cube. -/
def density : Field Float where
  mesh := (cube "core").mesh
  dim := 1
  values := [1]

/-- A number for a cell is read from a file under its name, and its magnitude is referred to. -/
theorem lower_contract_density : Text.isIdentifier "Ms" = true ∧
    ∃ lowered, ((field density).lower .scalar (cube "core") "Ms").run [] =
        (.ok lowered, [⟨"Ms.ovf", density, true⟩]) ∧
      declaredNames (render lowered.items).toList = ["Ms", "Ms_norm"] ∧
      lowered.token.render = ":Ms_norm" := by
  have fits : (field density).Fits .scalar (cube "core") :=
    ⟨by decide, Result.ok_of_toOption (by decide +kernel), by decide +kernel⟩
  obtain ⟨succeeds, done, _⟩ :=
    lower_contract .scalar (cube "core") (field density) "Ms" (by decide) []
  obtain ⟨lowered, same⟩ := succeeds.mpr fits
  obtain ⟨files, declares⟩ := done lowered same
  have norm : normName "Ms" = "Ms_norm" := by decide
  have file : fileName "Ms" = "Ms.ovf" := by decide
  have names : (field density).objectNames .scalar "Ms" = ["Ms", "Ms_norm"] :=
    congrArg (fun magnitudes => ["Ms", magnitudes]) norm
  have asked : (field density).sidecars .scalar "Ms" = [⟨"Ms.ovf", density, true⟩] :=
    congrArg (fun named => [Sidecar.mk named density true]) file
  have word : ":" ++ "Ms_norm" = ":Ms_norm" := by decide
  rw [asked, List.nil_append] at files
  refine ⟨by decide, lowered, Prod.ext same files, declares.objects.trans names, ?_⟩
  refine (declares.token "Ms_norm" ?_).trans word
  rw [names]
  exact rfl

/-- A region whose name holds a colon is written as it stands, so that the text refers to an object that
it does not declare. -/
theorem lowerScalar_refers_to_region :
    ∃ lowered, (lowerScalar (cube ":ghost")
        (perRegion (({} : RegionMap).insert ":ghost" (.scalar 1))) "Ms").result = .ok lowered ∧
      "ghost" ∈ references (render lowered.items).toList ∧ "ghost" ≠ "main_atlas" ∧
      "ghost" ∉ declaredNames (render lowered.items).toList := by
  have checked : (lowerScalar (cube ":ghost")
      (perRegion (({} : RegionMap).insert ":ghost" (.scalar 1))) "Ms").result.toOption.map
        (fun lowered => (references (render lowered.items).toList,
          declaredNames (render lowered.items).toList)) =
      some (["main_atlas", "ghost"], ["Ms"]) := by
    decide +kernel
  obtain ⟨lowered, kept, names⟩ := Option.map_eq_some_iff.mp checked
  obtain ⟨refers, declares⟩ := Prod.mk.inj names
  refine ⟨lowered, Result.ok_of_toOption kept, ?_, by decide, ?_⟩
  · rw [refers]
    decide
  · rw [declares]
    decide

end Parameter

end Micromag
