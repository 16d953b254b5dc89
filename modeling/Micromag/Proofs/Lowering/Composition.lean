import Micromag.Lowering.Energy
import Micromag.Proofs.Lowering.Basic

/-!
# Energies term by term

One context is handed from term to term, in which the field files are collected that the script
needs. No term depends on what it finds there, be it accepted or refused halfway. So the script of a
sum is put together from the scripts of its terms, each of which can be lowered alone.
-/

namespace Micromag

open Script

/-! ## Contexts -/

namespace Lowering

variable {α β : Type} {held left : List Sidecar}

/-- What a context holds before has no influence and stays in front. -/
theorem run_iff {lowering : Lowering α} {result : Except Fault α} :
    lowering.run held = (result, left) ↔
      ∃ own, lowering.run [] = (result, own) ∧ left = held ++ own := by
  rw [lowering.appends held, Prod.mk.injEq]
  constructor
  · rintro ⟨same, rfl⟩
    exact ⟨(lowering.run []).2, Prod.ext same rfl, rfl⟩
  · rintro ⟨own, fresh, rfl⟩
    rw [fresh]
    exact ⟨rfl, rfl⟩

/-- Two lowerings one after the other succeed when the first does in the context and the second in
what the first leaves of it. -/
theorem bind_run_ok {first : Lowering α} {next : α → Lowering β} {result : β} :
    (first >>= next).run held = (.ok result, left) ↔
      ∃ value middle, first.run held = (.ok value, middle) ∧
        (next value).run middle = (.ok result, left) := by
  show (andThen first next).run held = _ ↔ _
  unfold andThen
  dsimp only
  obtain ⟨outcome, middle⟩ := first.run held
  cases outcome with
  | error fault => simp
  | ok value => simp

/-- Two lowerings one after the other fail when the first does in the context, or the second in what
the first leaves of it. What is left then is what the one that fails leaves. -/
theorem bind_run_error {first : Lowering α} {next : α → Lowering β} {fault : Fault} :
    (first >>= next).run held = (.error fault, left) ↔
      first.run held = (.error fault, left) ∨
        ∃ value middle, first.run held = (.ok value, middle) ∧
          (next value).run middle = (.error fault, left) := by
  show (andThen first next).run held = _ ↔ _
  unfold andThen
  dsimp only
  obtain ⟨outcome, middle⟩ := first.run held
  cases outcome with
  | error other => simp
  | ok value => simp

/-- A plain value leaves a context as it is. -/
theorem pure_run {value : α} {result : Except Fault α} :
    (pure value : Lowering α).run held = (result, left) ↔ result = .ok value ∧ left = held := by
  show (Except.ok value, held) = (result, left) ↔ _
  rw [Prod.mk.injEq, eq_comm, eq_comm (a := held)]

instance : LawfulMonad Lowering := LawfulMonad.mk' Lowering
  (fun lowering => ext fun held => by
    show (andThen lowering fun value => ofExcept (.ok value)).run held = _
    unfold andThen
    dsimp only
    obtain ⟨_ | _, _⟩ := lowering.run held <;> rfl)
  (fun _ _ => rfl)
  (fun lowering next last => ext fun held => by
    show (andThen (andThen lowering next) last).run held =
      (andThen lowering fun value => andThen (next value) last).run held
    unfold andThen
    dsimp only
    obtain ⟨_ | _, _⟩ := lowering.run held <;> rfl)

/-- The text of lowered items. -/
def text (lowering : Lowering (List Item)) : Lowering String := do return render (← lowering)

end Lowering

/-! ## Sums -/

namespace Energy

variable {site : Site} {energy : Energy} {held left : List Sidecar}

/-- The text of a sum begins with the text of its first term. -/
theorem text_cons (term : Term) (rest : Energy) :
    (items site (term :: rest)).text = do
      let first ← (term.items site).text
      return first ++ (← (items site rest).text) := by
  have joined (first others : List Item) :
      render (first ++ others) = render first ++ render others := by
    unfold render
    rw [List.map_append, String.join_append]
  have sum : items site (term :: rest) = do
      let first ← term.items site
      let others ← items site rest
      return first ++ others := rfl
  rw [sum]
  unfold Lowering.text
  simp only [bind_assoc, pure_bind, joined]

/-- What a term adds when it is lowered alone: its text and its field files. -/
def Adds (site : Site) (term : Term) (part : String × List Sidecar) : Prop :=
  (term.items site).text.run [] = (.ok part.1, part.2)

/-- There are parts for all terms when there is one for each. -/
theorem exists_adds :
    (∃ parts, List.Forall₂ (Adds site) energy parts) ↔
      ∀ term ∈ energy, ∃ part, Adds site term part := by
  induction energy with
  | nil => simp
  | cons term rest ih =>
    rw [List.forall_mem_cons, ← ih]
    simp only [List.forall₂_cons_left_iff]
    constructor
    · rintro ⟨_, part, parts, alone, adds, rfl⟩
      exact ⟨⟨part, alone⟩, parts, adds⟩
    · rintro ⟨⟨part, alone⟩, parts, adds⟩
      exact ⟨_, part, parts, alone, adds, rfl⟩

/-- A sum is accepted when its terms are, one after the other. -/
theorem run_ok {script : String} :
    (energy.items site).text.run held = (.ok script, left) ↔
      ∃ parts, List.Forall₂ (Adds site) energy parts ∧
        script = String.join (parts.map (·.1)) ∧ left = held ++ parts.flatMap (·.2) := by
  induction energy generalizing held script left with
  | nil =>
    show (pure "" : Lowering String).run held = _ ↔ _
    rw [Lowering.pure_run]
    constructor
    · rintro ⟨same, rfl⟩
      exact ⟨[], .nil, Except.ok.inj same, (List.append_nil _).symm⟩
    · rintro ⟨_, ⟨⟩, rfl, rfl⟩
      exact ⟨rfl, List.append_nil _⟩
  | cons term rest ih =>
    rw [text_cons, Lowering.bind_run_ok]
    constructor
    · rintro ⟨first, middle, head, tail⟩
      obtain ⟨own, alone, rfl⟩ := Lowering.run_iff.mp head
      obtain ⟨others, _, tail, last⟩ := Lowering.bind_run_ok.mp tail
      obtain ⟨same, rfl⟩ := Lowering.pure_run.mp last
      obtain ⟨parts, adds, rfl, rfl⟩ := ih.mp tail
      refine ⟨(first, own) :: parts, .cons alone adds, ?_, ?_⟩
      · rw [Except.ok.inj same, List.map_cons, String.join_cons]
      · rw [List.flatMap_cons, List.append_assoc]
    · rintro ⟨_, all, rfl, rfl⟩
      obtain ⟨⟨first, own⟩, parts, alone, adds, rfl⟩ := List.forall₂_cons_left_iff.mp all
      refine ⟨first, held ++ own, Lowering.run_iff.mpr ⟨own, alone, rfl⟩,
        Lowering.bind_run_ok.mpr ⟨_, _, ih.mpr ⟨parts, adds, rfl, rfl⟩,
          Lowering.pure_run.mpr ⟨?_, ?_⟩⟩⟩
      · rw [List.map_cons, String.join_cons]
      · rw [List.flatMap_cons, List.append_assoc]

/-- A sum is refused for the first term that is refused. -/
theorem run_error {fault : Fault} :
    (energy.items site).text.run held = (.error fault, left) ↔
      ∃ before term after parts own, energy = before ++ term :: after ∧
        List.Forall₂ (Adds site) before parts ∧
        (Term.items site term).text.run [] = (.error fault, own) ∧
        left = held ++ parts.flatMap (·.2) ++ own := by
  induction energy generalizing held left with
  | nil =>
    show (pure "" : Lowering String).run held = _ ↔ _
    rw [Lowering.pure_run]
    constructor
    · rintro ⟨⟨⟩, _⟩
    · rintro ⟨before, term, after, _, _, split, _⟩
      exact absurd split (by simp)
  | cons term rest ih =>
    rw [text_cons, Lowering.bind_run_error]
    constructor
    · rintro (head | ⟨first, middle, head, tail⟩)
      · obtain ⟨own, alone, rfl⟩ := Lowering.run_iff.mp head
        exact ⟨[], term, rest, [], own, rfl, .nil, alone, by simp⟩
      · obtain ⟨early, alone, rfl⟩ := Lowering.run_iff.mp head
        rcases Lowering.bind_run_error.mp tail with tail | ⟨_, _, _, last⟩
        · obtain ⟨before, failing, after, parts, own, rfl, adds, refused, rfl⟩ := ih.mp tail
          exact ⟨term :: before, failing, after, (first, early) :: parts, own, rfl,
            .cons alone adds, refused, by simp⟩
        · exact absurd (Lowering.pure_run.mp last).1 (nomatch ·)
    · rintro ⟨before, failing, after, parts, own, split, adds, refused, rfl⟩
      cases adds with
      | nil =>
        obtain ⟨rfl, rfl⟩ := List.cons.inj split
        exact .inl (Lowering.run_iff.mpr ⟨own, refused, by simp⟩)
      | @cons first part others later alone adds =>
        obtain ⟨rfl, rfl⟩ := List.cons.inj split
        refine .inr ⟨part.1, held ++ part.2, Lowering.run_iff.mpr ⟨part.2, alone, rfl⟩,
          Lowering.bind_run_error.mpr (.inl (ih.mpr
            ⟨others, failing, after, later, own, rfl, adds, refused, by simp⟩))⟩

/-- A sum is accepted in any context exactly when each of its terms is accepted alone. The script is
then the scripts of the terms one after the other, and the field files come in this order behind
those that the context holds. Otherwise the fault is that of the first term that is refused alone,
and the files are those of the terms before it and those that it asked for itself. -/
theorem script_composed (site : Site) (energy : Energy) (held : List Sidecar) :
    ((∃ script left, (energy.items site).text.run held = (.ok script, left)) ↔
      ∀ term ∈ energy, ∃ part, Adds site term part) ∧
    (∀ script left, (energy.items site).text.run held = (.ok script, left) ↔
      ∃ parts, List.Forall₂ (Adds site) energy parts ∧
        script = String.join (parts.map (·.1)) ∧ left = held ++ parts.flatMap (·.2)) ∧
    ∀ fault left, (energy.items site).text.run held = (.error fault, left) ↔
      ∃ before term after parts own, energy = before ++ term :: after ∧
        List.Forall₂ (Adds site) before parts ∧
        (Term.items site term).text.run [] = (.error fault, own) ∧
        left = held ++ parts.flatMap (·.2) ++ own := by
  refine ⟨?_, fun _ _ => run_ok, fun _ _ => run_error⟩
  rw [← exists_adds]
  constructor
  · rintro ⟨script, left, accepted⟩
    obtain ⟨parts, adds, _⟩ := run_ok.mp accepted
    exact ⟨parts, adds⟩
  · rintro ⟨parts, adds⟩
    exact ⟨_, _, run_ok.mpr ⟨parts, adds, rfl, rfl⟩⟩

end Energy

end Micromag
