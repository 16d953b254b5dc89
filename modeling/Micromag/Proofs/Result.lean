import Mathlib.Data.List.Perm.Basic

/-!
# Laws of results

What can be said of the parts of a computation with faults when the whole of it succeeds.
-/

namespace Micromag.Result

variable {ε δ α β : Type}

/-- Two results one after the other succeed when both do. -/
theorem bind_ok {first : Except ε α} {next : α → Except ε β} {result : β} :
    (first >>= next) = .ok result ↔ ∃ value, first = .ok value ∧ next value = .ok result := by
  cases first with
  | error fault => exact ⟨(nomatch ·), fun ⟨_, failed, _⟩ => (nomatch failed)⟩
  | ok value =>
    constructor
    · exact fun tail => ⟨value, rfl, tail⟩
    · rintro ⟨_, same, tail⟩
      cases same
      exact tail

/-- Two results one after the other fail when the first does or the second behind it. -/
theorem bind_error {first : Except ε α} {next : α → Except ε β} {fault : ε} :
    (first >>= next) = .error fault ↔
      first = .error fault ∨ ∃ value, first = .ok value ∧ next value = .error fault := by
  cases first with
  | error other =>
    constructor
    · exact fun failed => .inl (congrArg Except.error (Except.error.inj failed))
    · rintro (failed | ⟨_, done, _⟩)
      · exact congrArg Except.error (Except.error.inj failed)
      · cases done
  | ok value =>
    constructor
    · exact fun failed => .inr ⟨value, rfl, failed⟩
    · rintro (failed | ⟨_, same, failed⟩)
      · cases failed
      · cases same
        exact failed

/-- A function of a result succeeds when the result does. -/
theorem map_ok {first : Except ε α} {f : α → β} {result : β} :
    first.map f = .ok result ↔ ∃ value, first = .ok value ∧ f value = result := by
  cases first with
  | error fault => exact ⟨(nomatch ·), fun ⟨_, failed, _⟩ => (nomatch failed)⟩
  | ok value => simp [Except.map]

/-- Telling a fault in other terms does not change what succeeds. -/
theorem mapError_ok {first : Except ε α} {f : ε → δ} {result : α} :
    first.mapError f = .ok result ↔ first = .ok result := by
  cases first with
  | error fault => exact ⟨(nomatch ·), (nomatch ·)⟩
  | ok value => simp [Except.mapError]

/-- A function succeeds on every element of a list when it succeeds on each, and the results are in
the order of the elements. -/
theorem mapM_ok {f : α → Except ε β} {elements : List α} {results : List β} :
    elements.mapM f = .ok results ↔ List.Forall₂ (fun x y => f x = .ok y) elements results := by
  induction elements generalizing results with
  | nil =>
    rw [List.mapM_nil, List.forall₂_nil_left_iff]
    exact ⟨fun same => (Except.ok.inj same).symm, fun same => by rw [same]; rfl⟩
  | cons x rest ih =>
    rw [List.mapM_cons, bind_ok, List.forall₂_cons_left_iff]
    constructor
    · rintro ⟨y, head, tail⟩
      obtain ⟨ys, rest, same⟩ := bind_ok.mp tail
      exact ⟨y, ys, head, ih.mp rest, (Except.ok.inj same).symm⟩
    · rintro ⟨y, ys, head, tail, rfl⟩
      exact ⟨y, head, bind_ok.mpr ⟨ys, ih.mpr tail, rfl⟩⟩

/-- A function succeeds on a list and one more element when it succeeds on both. -/
theorem mapM_concat_ok {f : α → Except ε β} {elements : List α} {x : α} {results : List β} :
    (elements ++ [x]).mapM f = .ok results ↔
      ∃ others y, elements.mapM f = .ok others ∧ f x = .ok y ∧ results = others ++ [y] := by
  rw [List.mapM_append, bind_ok]
  constructor
  · rintro ⟨others, front, tail⟩
    obtain ⟨last, one, same⟩ := bind_ok.mp tail
    rw [List.mapM_cons] at one
    obtain ⟨y, head, rest⟩ := bind_ok.mp one
    obtain rfl := Except.ok.inj rest
    exact ⟨others, y, front, head, (Except.ok.inj same).symm⟩
  · rintro ⟨others, y, front, head, rfl⟩
    refine ⟨others, front, bind_ok.mpr ⟨[y], ?_, rfl⟩⟩
    rw [List.mapM_cons, head]
    rfl

/-- Every result of a function on a list is the result of one element. -/
theorem exists_of_mem_mapM {f : α → Except ε β} {elements : List α} {results : List β} {y : β}
    (succeeds : elements.mapM f = .ok results) (member : y ∈ results) :
    ∃ x ∈ elements, f x = .ok y := by
  induction mapM_ok.mp succeeds with
  | nil => exact absurd member List.not_mem_nil
  | cons head tail ih =>
    rcases List.mem_cons.mp member with rfl | member
    · exact ⟨_, List.mem_cons_self, head⟩
    · obtain ⟨x, inside, result⟩ := ih (mapM_ok.mpr tail) member
      exact ⟨x, List.mem_cons_of_mem _ inside, result⟩

/-- Every element of a list has a result when a function succeeds on the list. -/
theorem exists_mapM_of_mem {f : α → Except ε β} {elements : List α} {results : List β} {x : α}
    (succeeds : elements.mapM f = .ok results) (member : x ∈ elements) :
    ∃ y ∈ results, f x = .ok y := by
  induction mapM_ok.mp succeeds with
  | nil => exact absurd member List.not_mem_nil
  | cons head tail ih =>
    rcases List.mem_cons.mp member with rfl | member
    · exact ⟨_, List.mem_cons_self, head⟩
    · obtain ⟨y, inside, result⟩ := ih (mapM_ok.mpr tail) member
      exact ⟨y, List.mem_cons_of_mem _ inside, result⟩

/-- A function succeeds on a list when it does on every element. -/
theorem mapM_succeeds {f : α → Except ε β} {elements : List α} :
    (∃ results, elements.mapM f = .ok results) ↔ ∀ x ∈ elements, ∃ y, f x = .ok y := by
  induction elements with
  | nil => exact ⟨fun _ _ member => (nomatch member), fun _ => ⟨[], rfl⟩⟩
  | cons x rest ih =>
    rw [List.forall_mem_cons, ← ih]
    constructor
    · rintro ⟨results, all⟩
      obtain ⟨y, others, head, tail, -⟩ :=
        List.forall₂_cons_left_iff.mp (mapM_ok.mp all)
      exact ⟨⟨y, head⟩, others, mapM_ok.mpr tail⟩
    · rintro ⟨⟨y, head⟩, others, tail⟩
      exact ⟨y :: others, mapM_ok.mpr (.cons head (mapM_ok.mp tail))⟩

/-- A function that fails on a list fails on an element of it in the same way. -/
theorem exists_of_mapM_error {f : α → Except ε β} {elements : List α} {fault : ε}
    (fails : elements.mapM f = .error fault) : ∃ x ∈ elements, f x = .error fault := by
  induction elements with
  | nil => cases fails
  | cons x rest ih =>
    rw [List.mapM_cons] at fails
    rcases bind_error.mp fails with head | ⟨y, _, fails⟩
    · exact ⟨x, List.mem_cons_self, head⟩
    · rcases bind_error.mp fails with tail | ⟨others, _, fails⟩
      · obtain ⟨other, member, failed⟩ := ih tail
        exact ⟨other, List.mem_cons_of_mem x member, failed⟩
      · cases fails

/-- The results are related to each other as the elements are. -/
theorem pairwise_mapM {f : α → Except ε β} {elements : List α} {results : List β}
    {R : α → α → Prop} {S : β → β → Prop} (succeeds : elements.mapM f = .ok results)
    (carried : ∀ {x x' y y'}, f x = .ok y → f x' = .ok y' → (R x x' ↔ S y y')) :
    elements.Pairwise R ↔ results.Pairwise S := by
  induction mapM_ok.mp succeeds with
  | nil => exact ⟨fun _ => .nil, fun _ => .nil⟩
  | @cons x y xs ys head tail ih =>
    have rest := mapM_ok.mpr tail
    rw [List.pairwise_cons, List.pairwise_cons, ih rest]
    have related : (∀ x' ∈ xs, R x x') ↔ ∀ y' ∈ ys, S y y' := by
      constructor
      · intro first y' member
        obtain ⟨x', inside, found⟩ := exists_of_mem_mapM rest member
        exact (carried head found).mp (first x' inside)
      · intro first x' member
        obtain ⟨y', inside, found⟩ := exists_mapM_of_mem rest member
        exact (carried head found).mpr (first y' inside)
    rw [related]

/-- The same elements in another order have the same results in another order. -/
theorem mapM_perm {f : α → Except ε β} {elements others : List α} {results : List β}
    (same : others.Perm elements) (succeeds : elements.mapM f = .ok results) :
    ∃ moved, others.mapM f = .ok moved ∧ moved.Perm results := by
  have along := List.perm_comp_forall₂ same (mapM_ok.mp succeeds)
  obtain ⟨moved, all, same⟩ := along
  exact ⟨moved, mapM_ok.mpr all, same⟩

/-- A function has the results of another one when it has them item by item. -/
theorem mapM_along {f g : α → Except ε β} {elements others : List α} {results : List β}
    (along : List.Forall₂ (fun x x' => ∀ y, f x = .ok y → g x' = .ok y) elements others)
    (succeeds : elements.mapM f = .ok results) : others.mapM g = .ok results := by
  induction along generalizing results with
  | nil => exact succeeds
  | cons carried _ ih =>
    obtain ⟨y, ys, head, tail, rfl⟩ := List.forall₂_cons_left_iff.mp (mapM_ok.mp succeeds)
    exact mapM_ok.mpr (.cons (carried y head)
      (mapM_ok.mp (ih (mapM_ok.mpr tail))))

/-- A check succeeds on a list when it succeeds on every element. -/
theorem forM_ok {f : α → Except ε Unit} {elements : List α} :
    elements.forM f = .ok () ↔ ∀ x ∈ elements, f x = .ok () := by
  induction elements with
  | nil => exact ⟨fun _ _ member => (nomatch member), fun _ => rfl⟩
  | cons x rest ih =>
    change (f x >>= fun _ => rest.forM f) = .ok () ↔ _
    rw [bind_ok, List.forall_mem_cons, ← ih]
    exact ⟨fun ⟨_, head, tail⟩ => ⟨head, tail⟩, fun ⟨head, tail⟩ => ⟨(), head, tail⟩⟩

/-- A check that can be tried out succeeds when trying it out does. -/
theorem ok_of_toBool {check : Except ε Unit} (tried : check.toBool = true) : check = .ok () := by
  cases check with
  | error fault => exact absurd tried Bool.false_ne_true
  | ok value => rfl

/-- What a result is when it is kept without its faults. -/
theorem ok_of_toOption {first : Except ε α} {result : α} (kept : first.toOption = some result) :
    first = .ok result := by
  cases first with
  | error fault => cases kept
  | ok value => rw [Option.some.inj kept]

end Micromag.Result
