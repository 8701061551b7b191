import Mathlib.Logic.Function.Basic

/-!
# Mutually inverse partial maps

Two partial maps, each the inverse of the other, as one keeps them to look up a
pair from either side.  Each way to change both says exactly when they are
inverse afterwards.
-/

namespace Scuttled.Foundation

universe u v

variable {K : Type u} {V : Type v}

/-- Each map is the inverse of the other. -/
def MutuallyInverse (forth : K → Option V) (back : V → Option K) : Prop :=
  ∀ key value, forth key = some value ↔ back value = some key

namespace MutuallyInverse

variable {forth : K → Option V} {back : V → Option K}

theorem empty : MutuallyInverse (fun _ : K => (none : Option V)) (fun _ => none) := by
  intro key value
  constructor <;> exact fun hsome => nomatch hsome

theorem injective (hinverse : MutuallyInverse forth back) {key key' : K} {value : V}
    (hkey : forth key = some value) (hkey' : forth key' = some value) : key = key' :=
  Option.some.inj (((hinverse key value).mp hkey).symm.trans ((hinverse key' value).mp hkey'))

variable [DecidableEq K] [DecidableEq V]

theorem erase (hinverse : MutuallyInverse forth back) {key : K} {value : V}
    (hpair : forth key = some value) :
    MutuallyInverse (Function.update forth key none) (Function.update back value none) := by
  intro other found
  rw [Function.update_apply, Function.update_apply]
  by_cases hother : other = key
  · rw [if_pos hother, hother]
    refine ⟨fun hnone => (nomatch hnone), fun hback => ?_⟩
    split at hback
    · cases hback
    · rename_i hfound
      exact absurd (Option.some.inj (((hinverse _ _).mpr hback).symm.trans hpair)) hfound
  · rw [if_neg hother]
    by_cases hfound : found = value
    · rw [if_pos hfound, hfound]
      exact ⟨fun hforth => absurd (hinverse.injective hforth hpair) hother,
        fun hnone => nomatch hnone⟩
    · rw [if_neg hfound]
      exact hinverse other found

/-- A pair is written on both sides: they stay inverse exactly when it was there
already, or neither of its parts was in use. -/
theorem insert_iff (hinverse : MutuallyInverse forth back) (key : K) (value : V) :
    MutuallyInverse (Function.update forth key (some value))
        (Function.update back value (some key)) ↔
      forth key = some value ∨ forth key = none ∧ back value = none := by
  constructor
  · intro hafter
    have hforth : ∀ found, forth key = some found → found = value := by
      intro found hfound
      by_contra hne
      have hstale : Function.update back value (some key) found = some key := by
        rw [Function.update_of_ne hne]
        exact (hinverse key found).mp hfound
      have hwritten := (hafter key found).mpr hstale
      rw [Function.update_self] at hwritten
      exact hne (Option.some.inj hwritten).symm
    have hback : ∀ owner, back value = some owner → owner = key := by
      intro owner howner
      by_contra hne
      have hstale : Function.update forth key (some value) owner = some value := by
        rw [Function.update_of_ne hne]
        exact (hinverse owner value).mpr howner
      have hwritten := (hafter owner value).mp hstale
      rw [Function.update_self] at hwritten
      exact hne (Option.some.inj hwritten).symm
    cases hkey : forth key with
    | some found => exact .inl (congrArg some (hforth found hkey))
    | none =>
        refine .inr ⟨rfl, ?_⟩
        cases hvalue : back value with
        | none => rfl
        | some owner =>
            have howner := (hinverse owner value).mpr hvalue
            rw [hback owner hvalue, hkey] at howner
            cases howner
  · rintro (hpair | ⟨hkey, hvalue⟩)
    · have hsame : Function.update forth key (some value) = forth := by
        rw [← hpair, Function.update_eq_self]
      have hsame' : Function.update back value (some key) = back := by
        rw [← (hinverse key value).mp hpair, Function.update_eq_self]
      rwa [hsame, hsame']
    · intro other found
      rw [Function.update_apply, Function.update_apply]
      by_cases hother : other = key <;> by_cases hfound : found = value
      · rw [if_pos hother, if_pos hfound, hother, hfound]
        exact ⟨fun _ => rfl, fun _ => rfl⟩
      · rw [if_pos hother, if_neg hfound, hother]
        refine ⟨fun hsome => absurd (Option.some.inj hsome).symm hfound, fun hback => ?_⟩
        rw [← hinverse, hkey] at hback
        cases hback
      · rw [if_neg hother, if_pos hfound, hfound]
        refine ⟨fun hforth => ?_, fun hsome => absurd (Option.some.inj hsome).symm hother⟩
        rw [hinverse, hvalue] at hforth
        cases hforth
      · rw [if_neg hother, if_neg hfound]
        exact hinverse other found

/-- A key is given another value: both sides stay inverse exactly when the new
value was not in use, or was the value of this key. -/
theorem rename_iff (hinverse : MutuallyInverse forth back) {key : K} {value : V}
    (hpair : forth key = some value) (renamed : V) :
    MutuallyInverse (Function.update forth key (some renamed))
        (Function.update (Function.update back value none) renamed (some key)) ↔
      back renamed = none ∨ back renamed = some key := by
  have hinsert := (hinverse.erase hpair).insert_iff key renamed
  rw [Function.update_idem, Function.update_self] at hinsert
  rw [hinsert, Function.update_apply]
  by_cases hrenamed : renamed = value
  · rw [if_pos hrenamed, hrenamed]
    exact ⟨fun _ => .inr ((hinverse key value).mp hpair), fun _ => .inr ⟨rfl, rfl⟩⟩
  · rw [if_neg hrenamed]
    constructor
    · rintro (hsome | ⟨-, hnone⟩)
      · cases hsome
      · exact .inl hnone
    · rintro (hnone | howner)
      · exact .inr ⟨rfl, hnone⟩
      · have hvalue := (hinverse key renamed).mpr howner
        exact absurd (Option.some.inj (hvalue.symm.trans hpair)) hrenamed

end MutuallyInverse

end Scuttled.Foundation
