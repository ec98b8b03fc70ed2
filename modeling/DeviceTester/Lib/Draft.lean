import Mathlib.Logic.Basic

/-!
# Values in use, and the values of a form that edits them

A form shows a copy of the values in use. Edits change the copy, Apply puts the copy into
use and Reset takes it back. `adopt live shown` is what is in use after Apply, which may
keep a part of `live` that the form does not show.
-/
namespace DeviceTester.Lib

structure Draft (ω : Type*) where
  live : ω
  shown : ω
  deriving DecidableEq, Repr

namespace Draft

variable {ω : Type*} {adopt : ω → ω → ω} {f : ω → ω} {d : Draft ω}

def edit (f : ω → ω) (d : Draft ω) : Draft ω := { d with shown := f d.shown }

def reset (d : Draft ω) : Draft ω := { d with shown := d.live }

def apply (adopt : ω → ω → ω) (d : Draft ω) : Draft ω :=
  { d with live := adopt d.live d.shown }

/-- The two buttons, Reset first. -/
def press (adopt : ω → ω → ω) (reset apply : Bool) (d : Draft ω) : Draft ω :=
  let d := if reset then d.reset else d
  if apply then d.apply adopt else d

/-- The edits and then the buttons. -/
def round (adopt : ω → ω → ω) (f : ω → ω) (reset apply : Bool) (d : Draft ω) : Draft ω :=
  (d.edit f).press adopt reset apply

/-! ## Editing in place -/

/-- An edit of the values in use. -/
def editLive (f : ω → ω) (d : Draft ω) : Draft ω := { d with live := f d.live }

/-- A form that edits in place shows the values in use. -/
def inPlace (d : Draft ω) : Draft ω := ⟨d.live, d.live⟩

def Synced (d : Draft ω) : Prop := d.shown = d.live

theorem press_synced (hself : ∀ a, adopt a a = a) (hd : d.Synced) (reset apply : Bool) :
    d.press adopt reset apply = d := by
  obtain ⟨live, shown⟩ := d
  obtain rfl : shown = live := hd
  cases reset <;> cases apply <;> simp [press, Draft.reset, Draft.apply, hself]

theorem editLive_of_fixed (hf : f d.live = d.live) : d.editLive f = d := by
  rw [editLive, hf]

theorem edit_of_fixed (hf : f d.shown = d.shown) : d.edit f = d := by
  rw [edit, hf]

/-- A form that edits in place, with a copy of the values in use that it does not show, does
what a form with a draft does exactly when the edits change nothing. -/
theorem inPlace_round_iff (hself : ∀ a, adopt a a = a) (hd : d.Synced)
    (hkeep : adopt (f d.live) d.live = d.live) (reset apply : Bool) :
    ((d.editLive f).press adopt reset apply).inPlace = d.inPlace.round adopt f reset apply ↔
      f d.live = d.live := by
  constructor
  · intro h
    have hshown := congrArg shown h
    obtain ⟨live, shown⟩ := d
    obtain rfl : shown = live := hd
    cases reset with
    | false =>
      cases apply with
      | false => exact congrArg Draft.live h
      | true => exact hshown.symm.trans hkeep
    | true =>
      cases apply with
      | false => exact hshown
      | true => exact (hself _).symm.trans hshown
  · intro hf
    have hplace : d.inPlace.Synced := rfl
    have hedit : d.inPlace.edit f = d.inPlace := edit_of_fixed hf
    rw [editLive_of_fixed hf, press_synced hself hd, round, hedit, press_synced hself hplace]

end Draft

end DeviceTester.Lib
