import Mathlib.Data.List.Basic
import Mathlib.Logic.Function.Basic

/-!
# Resources with one flag for many holders

Holders of different kinds take resources from a common pool and give them back. The pool has a flag
for each resource, and every holder sets and clears the flags of its own moves. `Exclusive` says that
a resource has at most one holder and that the flags say which resources are held. A move keeps this,
and takes nothing from another holder, exactly if every resource of the move whose flag is set is the
holder's own (`exclusive_apply_iff`).
-/

namespace WLink.Lib

/-- The flags of the resources, and what the holders hold. -/
structure Holding (H R : Type) where
  flag : R → Bool
  held : H → List R

/-- A move of a holder. -/
inductive HoldMove (H R : Type)
  | none
  /-- set the flags of the resources, and hold them and no others -/
  | take (h : H) (rs : List R)
  /-- clear the flags of the resources, and hold nothing -/
  | release (h : H) (rs : List R)

namespace Holding

variable {H R : Type} [DecidableEq H] [DecidableEq R]

/-- What a move makes of the flags and the holders. -/
def apply (s : Holding H R) : HoldMove H R → Holding H R
  | .none => s
  | .take h rs =>
    ⟨fun r => if r ∈ rs then true else s.flag r, Function.update s.held h rs⟩
  | .release h rs =>
    ⟨fun r => if r ∈ rs then false else s.flag r, Function.update s.held h []⟩

omit [DecidableEq H] [DecidableEq R] in
/-- Every resource has at most one holder, and its flag says whether it has one. -/
structure Exclusive (s : Holding H R) : Prop where
  one : ∀ r h h', r ∈ s.held h → r ∈ s.held h' → h = h'
  flag : ∀ r, s.flag r = true ↔ ∃ h, r ∈ s.held h

omit [DecidableEq H] [DecidableEq R] in
/-- What loses its flag was held by no holder but the one that has moved. -/
def LosesOwn (s s' : Holding H R) (mover : Option H) : Prop :=
  ∀ r, s.flag r = true → s'.flag r = false → ∀ h, r ∈ s.held h → mover = some h

end Holding

namespace HoldMove

variable {H R : Type}

/-- The holder that moves. -/
def mover : HoldMove H R → Option H
  | none => Option.none
  | take h _ => some h
  | release h _ => some h

/-- The move is about all that its holder has. -/
def Whole (s : Holding H R) : HoldMove H R → Prop
  | none => True
  | take h rs => ∀ r ∈ s.held h, r ∈ rs
  | release h rs => ∀ r ∈ s.held h, r ∈ rs

/-- What the move is about and is held, the holder of the move holds. -/
def Fits (s : Holding H R) : HoldMove H R → Prop
  | none => True
  | take h rs => ∀ r ∈ rs, s.flag r = true → r ∈ s.held h
  | release h rs => ∀ r ∈ rs, s.flag r = true → r ∈ s.held h

end HoldMove

namespace Holding

variable {H R : Type} [DecidableEq H] [DecidableEq R] {s : Holding H R} {h : H} {rs : List R}

@[simp] theorem apply_none : s.apply .none = s := rfl

theorem held_take_self : (s.apply (.take h rs)).held h = rs := Function.update_self ..

theorem held_take_of_ne {h' : H} (hne : h' ≠ h) : (s.apply (.take h rs)).held h' = s.held h' :=
  Function.update_of_ne hne ..

theorem held_release_self : (s.apply (.release h rs)).held h = [] := Function.update_self ..

theorem held_release_of_ne {h' : H} (hne : h' ≠ h) :
    (s.apply (.release h rs)).held h' = s.held h' :=
  Function.update_of_ne hne ..

/-- What is held after resources have been taken. -/
theorem mem_held_take {h' : H} {r : R} :
    r ∈ (s.apply (.take h rs)).held h' ↔ (h' = h ∧ r ∈ rs) ∨ (h' ≠ h ∧ r ∈ s.held h') := by
  by_cases hne : h' = h
  · rw [hne, held_take_self]
    simp
  · rw [held_take_of_ne hne]
    simp [hne]

/-- What is held after resources have been given back. -/
theorem mem_held_release {h' : H} {r : R} :
    r ∈ (s.apply (.release h rs)).held h' ↔ h' ≠ h ∧ r ∈ s.held h' := by
  by_cases hne : h' = h
  · rw [hne, held_release_self]
    simp
  · rw [held_release_of_ne hne]
    simp [hne]

theorem take_exclusive (hs : s.Exclusive) (hwhole : (HoldMove.take h rs).Whole s)
    (hfits : (HoldMove.take h rs).Fits s) : (s.apply (.take h rs)).Exclusive := by
  have hother : ∀ r ∈ rs, ∀ h', r ∈ s.held h' → h' = h := by
    intro r hr h' hh'
    exact hs.one r h' h hh' (hfits r hr ((hs.flag r).mpr ⟨h', hh'⟩))
  constructor
  · intro r h₁ h₂ h₁r h₂r
    rcases mem_held_take.mp h₁r with ⟨rfl, hr₁⟩ | ⟨hne₁, hr₁⟩ <;>
      rcases mem_held_take.mp h₂r with ⟨rfl, hr₂⟩ | ⟨hne₂, hr₂⟩
    · rfl
    · exact absurd (hother r hr₁ h₂ hr₂) hne₂
    · exact absurd (hother r hr₂ h₁ hr₁) hne₁
    · exact hs.one r h₁ h₂ hr₁ hr₂
  · intro r
    show (if r ∈ rs then true else s.flag r) = true ↔ _
    by_cases hr : r ∈ rs
    · rw [if_pos hr]
      exact iff_of_true rfl ⟨h, mem_held_take.mpr (.inl ⟨rfl, hr⟩)⟩
    · rw [if_neg hr, hs.flag]
      constructor
      · rintro ⟨h', hh'⟩
        -- what the holder had before, it has taken again
        have hne : h' ≠ h := by
          rintro rfl
          exact hr (hwhole r hh')
        exact ⟨h', mem_held_take.mpr (.inr ⟨hne, hh'⟩)⟩
      · rintro ⟨h', hh'⟩
        rcases mem_held_take.mp hh' with ⟨-, hmem⟩ | ⟨-, hmem⟩
        · exact absurd hmem hr
        · exact ⟨h', hmem⟩

theorem release_exclusive (hs : s.Exclusive) (hwhole : (HoldMove.release h rs).Whole s)
    (hfits : (HoldMove.release h rs).Fits s) : (s.apply (.release h rs)).Exclusive := by
  constructor
  · intro r h₁ h₂ h₁r h₂r
    exact hs.one r h₁ h₂ (mem_held_release.mp h₁r).2 (mem_held_release.mp h₂r).2
  · intro r
    show (if r ∈ rs then false else s.flag r) = true ↔ _
    by_cases hr : r ∈ rs
    · rw [if_pos hr]
      refine iff_of_false Bool.false_ne_true ?_
      rintro ⟨h', hh'⟩
      obtain ⟨hne, hmem⟩ := mem_held_release.mp hh'
      exact hne (hs.one r h' h hmem (hfits r hr ((hs.flag r).mpr ⟨h', hmem⟩)))
    · rw [if_neg hr, hs.flag]
      constructor
      · rintro ⟨h', hh'⟩
        have hne : h' ≠ h := by
          rintro rfl
          exact hr (hwhole r hh')
        exact ⟨h', mem_held_release.mpr ⟨hne, hh'⟩⟩
      · rintro ⟨h', hh'⟩
        exact ⟨h', (mem_held_release.mp hh').2⟩

theorem take_losesOwn : LosesOwn s (s.apply (.take h rs)) (some h) := by
  intro r hflag hcleared
  have hflag' : (if r ∈ rs then true else s.flag r) = false := hcleared
  rw [hflag] at hflag'
  split_ifs at hflag'

theorem release_losesOwn (hs : s.Exclusive) (hfits : (HoldMove.release h rs).Fits s) :
    LosesOwn s (s.apply (.release h rs)) (some h) := by
  intro r hflag hcleared h' hh'
  have hflag' : (if r ∈ rs then false else s.flag r) = false := hcleared
  by_cases hr : r ∈ rs
  · rw [hs.one r h' h hh' (hfits r hr hflag)]
  · rw [if_neg hr, hflag] at hflag'
    exact Bool.noConfusion hflag'

/-- The moves that keep the resources exclusive and take nothing from others. -/
theorem exclusive_apply_iff {m : HoldMove H R} (hs : s.Exclusive) (hwhole : m.Whole s) :
    (s.apply m).Exclusive ∧ LosesOwn s (s.apply m) m.mover ↔ m.Fits s := by
  cases m with
  | none =>
    refine iff_of_true ⟨hs, fun r hflag hcleared => ?_⟩ trivial
    exact absurd (hflag.symm.trans hcleared) Bool.noConfusion
  | take h rs =>
    constructor
    · rintro ⟨hs', -⟩ r hr hflag
      obtain ⟨h', hh'⟩ := (hs.flag r).mp hflag
      by_cases hne : h' = h
      · exact hne ▸ hh'
      · -- the resource would have two holders
        have htaken : r ∈ (s.apply (.take h rs)).held h := mem_held_take.mpr (.inl ⟨rfl, hr⟩)
        have hkept : r ∈ (s.apply (.take h rs)).held h' := mem_held_take.mpr (.inr ⟨hne, hh'⟩)
        exact absurd (hs'.one r h' h hkept htaken) hne
    · intro hfits
      exact ⟨take_exclusive hs hwhole hfits, take_losesOwn⟩
  | release h rs =>
    constructor
    · rintro ⟨-, hown⟩ r hr hflag
      obtain ⟨h', hh'⟩ := (hs.flag r).mp hflag
      have hcleared : (s.apply (.release h rs)).flag r = false := if_pos hr
      have hmover : some h = some h' := hown r hflag hcleared h' hh'
      cases hmover
      exact hh'
    · intro hfits
      exact ⟨release_exclusive hs hwhole hfits, release_losesOwn hs hfits⟩

end Holding

end WLink.Lib
