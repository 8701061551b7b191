import Mathlib.Logic.Function.Basic

/-!
# Things that are found by a key

Things lie in places, and the place of a thing shows a key.  A ledger says for each key
whether there is no such thing, or where it lies and what it is, or nothing at all.  It
stays true while things are laid down, changed, moved to places of the same key and
taken away, if no two things have one key.
-/

namespace Scuttled.Foundation

universe u v w

variable {Place : Type u} {Key : Type v} {Thing : Type w}

/-- What is known of the thing with some key. -/
inductive Standing (Place : Type u) (Thing : Type w) where
  | absent
  | unsettled
  | kept (place : Place) (thing : Thing)
  deriving DecidableEq

/-- What is known of all things. -/
abbrev Ledger (Place : Type u) (Key : Type v) (Thing : Type w) := Key → Standing Place Thing

/-- No other thing has the key of this place. -/
def AloneAt (key : Place → Key) (things : Place → Option Thing) (place : Place) : Prop :=
  ∀ other, key other = key place → (things other).isSome → other = place

namespace Ledger

/-- What lies in a place, as far as it is known. -/
def finds [DecidableEq Place] (key : Place → Key) (ledger : Ledger Place Key Thing)
    (place : Place) : Option (Option Thing) :=
  match ledger (key place) with
  | .absent => some none
  | .unsettled => none
  | .kept kept thing => some (if place = kept then some thing else none)

/-- What is known is true, and no two things have one key. -/
structure Describes (key : Place → Key) (ledger : Ledger Place Key Thing)
    (things : Place → Option Thing) : Prop where
  alone : ∀ place, (things place).isSome → AloneAt key things place
  absent : ∀ place, ledger (key place) = .absent → things place = none
  kept : ∀ lookup place thing, ledger lookup = .kept place thing →
    key place = lookup ∧ things place = some thing

section Describes

variable {key : Place → Key} {ledger : Ledger Place Key Thing} {things : Place → Option Thing}

theorem describes_nothing : Describes key (fun _ => .absent) (fun _ => (none : Option Thing)) where
  alone _ hthing := by cases hthing
  absent _ _ := rfl
  kept _ _ _ hkept := by cases hkept

theorem Describes.eq_of_finds [DecidableEq Place] (hdescribes : ledger.Describes key things)
    {place : Place} {found : Option Thing} (hfinds : ledger.finds key place = some found) :
    things place = found := by
  unfold finds at hfinds
  split at hfinds
  · rename_i habsent
    rw [hdescribes.absent place habsent]
    exact Option.some.inj hfinds
  · cases hfinds
  · rename_i kept thing hkept
    obtain ⟨hkey, hthing⟩ := hdescribes.kept _ kept thing hkept
    rw [← Option.some.inj hfinds]
    split
    · rename_i hsame
      rw [hsame, hthing]
    · rename_i hother
      -- another thing would have the key of the one that is kept
      refine Option.not_isSome_iff_eq_none.mp fun hsome => hother ?_
      exact hdescribes.alone kept (by rw [hthing]; rfl) place hkey.symm hsome

theorem Describes.aloneAt_of_absent (hdescribes : ledger.Describes key things) {place : Place}
    (habsent : ledger (key place) = .absent) : AloneAt key things place := by
  intro other hkey hsome
  rw [hdescribes.absent other (hkey ▸ habsent)] at hsome
  cases hsome

theorem Describes.put [DecidableEq Place] (hdescribes : ledger.Describes key things) {place : Place}
    (hunsettled : ledger (key place) = .unsettled) (halone : AloneAt key things place)
    (thing : Thing) : ledger.Describes key (Function.update things place (some thing)) where
  alone first hfirst second hkey hsecond := by
    rw [Function.update_apply] at hfirst hsecond
    split at hfirst
    · rename_i hplace
      subst hplace
      split at hsecond
      · assumption
      · exact halone second hkey hsecond
    · split at hsecond
      · rename_i hplace
        subst hplace
        exact (halone first hkey.symm hfirst).symm
      · exact hdescribes.alone first hfirst second hkey hsecond
  absent other habsent := by
    rw [Function.update_of_ne]
    · exact hdescribes.absent other habsent
    · rintro rfl
      cases hunsettled.symm.trans habsent
  kept lookup other thing' hkept := by
    obtain ⟨hkey, hthing⟩ := hdescribes.kept lookup other thing' hkept
    refine ⟨hkey, ?_⟩
    rw [Function.update_of_ne, hthing]
    rintro rfl
    rw [hkey] at hunsettled
    cases hunsettled.symm.trans hkept

section Updates

variable [DecidableEq Key]

theorem Describes.unsettle (hdescribes : ledger.Describes key things) (lookup : Key) :
    Describes key (Function.update ledger lookup .unsettled) things where
  alone := hdescribes.alone
  absent place habsent := by
    rw [Function.update_apply] at habsent
    split at habsent
    · cases habsent
    · exact hdescribes.absent place habsent
  kept other place thing hkept := by
    rw [Function.update_apply] at hkept
    split at hkept
    · cases hkept
    · exact hdescribes.kept other place thing hkept

theorem Describes.settle (hdescribes : ledger.Describes key things) {place : Place} {thing : Thing}
    (hthing : things place = some thing) :
    Describes key (Function.update ledger (key place) (.kept place thing)) things where
  alone := hdescribes.alone
  absent other habsent := by
    rw [Function.update_apply] at habsent
    split at habsent
    · cases habsent
    · exact hdescribes.absent other habsent
  kept other place' thing' hkept := by
    rw [Function.update_apply] at hkept
    split at hkept
    · rename_i hsame
      cases hkept
      exact ⟨hsame.symm, hthing⟩
    · exact hdescribes.kept other place' thing' hkept

variable [DecidableEq Place]

/-- The thing in a place is taken away. -/
theorem Describes.erase (hdescribes : ledger.Describes key things) {place : Place}
    (hthing : (things place).isSome) :
    Describes key (Function.update ledger (key place) .absent)
      (Function.update things place none) where
  alone first hfirst second hkey hsecond := by
    rw [Function.update_apply] at hfirst hsecond
    split at hfirst
    · cases hfirst
    · split at hsecond
      · cases hsecond
      · exact hdescribes.alone first hfirst second hkey hsecond
  absent other habsent := by
    rw [Function.update_apply]
    split
    · rfl
    · rename_i hplace
      by_cases hkey : key other = key place
      · refine Option.not_isSome_iff_eq_none.mp fun hsome => hplace ?_
        exact hdescribes.alone place hthing other hkey hsome
      · rw [Function.update_of_ne hkey] at habsent
        exact hdescribes.absent other habsent
  kept lookup other thing hkept := by
    rw [Function.update_apply] at hkept
    split at hkept
    · cases hkept
    · rename_i hlookup
      obtain ⟨hkey, hother⟩ := hdescribes.kept lookup other thing hkept
      refine ⟨hkey, ?_⟩
      rw [Function.update_of_ne, hother]
      rintro rfl
      exact hlookup hkey.symm

/-- What is noted when the thing in a place is moved to another: its new place, if it was
known where it lay. -/
def moved (key : Place → Key) (source target : Place) (ledger : Ledger Place Key Thing) :
    Ledger Place Key Thing :=
  match ledger (key source) with
  | .kept _ thing => Function.update ledger (key source) (.kept target thing)
  | _ => ledger

/-- A thing is moved to a place of its key. -/
theorem Describes.move (hdescribes : ledger.Describes key things) {source target : Place}
    {thing : Thing} (hthing : things source = some thing) (hkey : key target = key source) :
    Describes key (moved key source target ledger)
      (Function.update (Function.update things source none) target (some thing)) := by
  have hsome : (things source).isSome := by
    rw [hthing]
    rfl
  have halone : ∀ other, key other = key source → (things other).isSome → other = source :=
    hdescribes.alone source hsome
  -- take it away, put it down again while nothing is said of it, and note what was known
  have herased := (hdescribes.erase hsome).unsettle (key source)
  rw [Function.update_idem, ← hkey] at herased
  have hfree : AloneAt key (Function.update things source none) target := by
    intro other hother hthere
    rw [Function.update_apply] at hthere
    split at hthere
    · cases hthere
    · rename_i hne
      exact absurd (halone other (hother.trans hkey) hthere) hne
  have hput := herased.put (Function.update_self ..) hfree thing
  cases hstanding : ledger (key source) with
  | absent =>
      rw [hdescribes.absent source hstanding] at hthing
      cases hthing
  | unsettled =>
      unfold moved
      rw [hstanding]
      rw [hkey, ← hstanding, Function.update_eq_self] at hput
      exact hput
  | kept place thing' =>
      obtain ⟨hplace, hthere⟩ := hdescribes.kept _ place thing' hstanding
      have hsame : place = source := halone place hplace (by rw [hthere]; rfl)
      rw [hsame, hthing] at hthere
      obtain rfl := Option.some.inj hthere
      have hlies : Function.update (Function.update things source none) target (some thing)
          target = some thing :=
        Function.update_self ..
      have hnoted := hput.settle hlies
      rw [Function.update_idem, hkey] at hnoted
      unfold moved
      rw [hstanding]
      exact hnoted

end Updates

end Describes

end Ledger

end Scuttled.Foundation
