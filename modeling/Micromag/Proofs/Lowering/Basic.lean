import Micromag.Lowering.Basic
import Micromag.Proofs.Result

/-!
# Laws of lowerings

A lowering succeeds when each of its steps does. The field files that it then asks for are those of
its steps in order.
-/

namespace Micromag.Lowering

variable {α β : Type}

/-- The result is the same whatever is held. -/
theorem run_fst (lowering : Lowering α) (held : List Sidecar) :
    (lowering.run held).1 = lowering.result := by
  rw [lowering.appends]
  rfl

/-- The files asked for come behind those that are held. -/
theorem run_snd (lowering : Lowering α) (held : List Sidecar) :
    (lowering.run held).2 = held ++ lowering.sidecars := by
  rw [lowering.appends]
  rfl

/-- Lowerings that do the same whatever is held are the same. -/
@[ext] theorem ext {one other : Lowering α} (same : ∀ held, one.run held = other.run held) :
    one = other := by
  obtain ⟨run, _⟩ := one
  obtain ⟨others, _⟩ := other
  obtain rfl : run = others := funext same
  rfl

/-- The lowering with a result and field files. -/
def of (result : Except Fault α) (sidecars : List Sidecar) : Lowering α where
  run held := (result, held ++ sidecars)
  appends _ := rfl

/-- There is no more to a lowering than its result and its field files. -/
theorem eq_of (lowering : Lowering α) : lowering = of lowering.result lowering.sidecars :=
  ext lowering.appends

/-- What follows a value that is lowered as it is follows from the value. -/
theorem ok_bind (value : α) (next : α → Lowering β) :
    (liftM (.ok value : Except Fault α) >>= next) = next value := rfl

/-- The result of two lowerings one after the other is that of their results. -/
theorem result_bind (first : Lowering α) (next : α → Lowering β) :
    (first >>= next).result = first.result >>= fun value => (next value).result := by
  show ((andThen first next).run []).1 = _
  unfold andThen Lowering.result
  dsimp only
  obtain ⟨outcome, own⟩ := first.run []
  cases outcome with
  | error fault => rfl
  | ok value => exact run_fst (next value) own

/-- Two lowerings one after the other succeed when both do. -/
theorem bind_ok {first : Lowering α} {next : α → Lowering β} {result : β} :
    (first >>= next).result = .ok result ↔
      ∃ value, first.result = .ok value ∧ (next value).result = .ok result := by
  rw [result_bind]
  exact Result.bind_ok

/-- A plain value is its own result. -/
theorem pure_ok {value result : α} :
    (pure value : Lowering α).result = .ok result ↔ value = result :=
  ⟨Except.ok.inj, fun same => congrArg _ same⟩

/-- A lowering succeeds with a result and asks for certain field files. -/
structure Gives (lowering : Lowering α) (result : α) (sidecars : List Sidecar) : Prop where
  /-- It succeeds with the result. -/
  result : lowering.result = .ok result
  /-- It asks for the files. -/
  sidecars : lowering.sidecars = sidecars

variable {result : β} {sidecars : List Sidecar}

/-- Two lowerings one after the other give the result of the second and the files of both. -/
theorem bind_gives {first : Lowering α} {next : α → Lowering β} :
    (first >>= next).Gives result sidecars ↔
      ∃ value early late, first.Gives value early ∧ (next value).Gives result late ∧
        sidecars = early ++ late := by
  have files (value : α) (succeeds : first.result = .ok value) :
      (first >>= next).sidecars = first.sidecars ++ (next value).sidecars := by
    show ((andThen first next).run []).2 = _
    unfold andThen Lowering.sidecars
    unfold Lowering.result at succeeds
    dsimp only
    generalize first.run [] = ran at succeeds
    obtain ⟨outcome, own⟩ := ran
    obtain rfl : outcome = .ok value := succeeds
    exact run_snd (next value) own
  constructor
  · rintro ⟨succeeds, asked⟩
    obtain ⟨value, head, tail⟩ := bind_ok.mp succeeds
    exact ⟨value, _, _, ⟨head, rfl⟩, ⟨tail, rfl⟩, by rw [← asked, files value head]⟩
  · rintro ⟨value, early, late, head, tail, rfl⟩
    refine ⟨bind_ok.mpr ⟨value, head.result, tail.result⟩, ?_⟩
    rw [files value head.result, head.sidecars, tail.sidecars]

/-- A plain value needs no file. -/
theorem pure_gives {value : β} :
    (pure value : Lowering β).Gives result sidecars ↔ value = result ∧ sidecars = [] :=
  ⟨fun gives => ⟨pure_ok.mp gives.result, gives.sidecars.symm⟩,
    fun ⟨same, empty⟩ => ⟨pure_ok.mpr same, empty.symm⟩⟩

/-- What follows a result that is lowered as it is needs the files by itself. -/
theorem lift_bind_gives {value : Except Fault α} {next : α → Lowering β} :
    (liftM value >>= next).Gives result sidecars ↔
      ∃ found, value = .ok found ∧ (next found).Gives result sidecars := by
  constructor
  · intro gives
    obtain ⟨found, early, late, lifted, rest, both⟩ := bind_gives.mp gives
    have nothing : early = [] := lifted.sidecars.symm
    rw [nothing, List.nil_append] at both
    exact ⟨found, lifted.result, both ▸ rest⟩
  · rintro ⟨found, same, rest⟩
    exact bind_gives.mpr ⟨found, [], sidecars, ⟨same, rfl⟩, rest, rfl⟩

end Micromag.Lowering
