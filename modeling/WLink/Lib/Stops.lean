import WLink.Lib.CString

/-!
# Steps that end

A step of a program that faults has left its memory, or it is a loop that has run out of the
bound of the model: `Stops` says that it is not the latter. The rules follow the constructs, and
the functions of `Lib.CString` all stop.
-/

namespace WLink.Lib

open CString

/-- The computation ends, if only at an access outside of its memory. -/
def notHang : Fault → Prop := (· ≠ .hang)

section

variable {α β : Type}

/-- A step that does not loop. -/
def Stops (x : Except Fault α) : Prop := ∀ e, x = .error e → notHang e

namespace Stops

theorem ok (a : α) : Stops (.ok a) := fun _ h => nomatch h

theorem read : Stops (.error .read : Except Fault α) := by
  intro e h
  cases h
  exact Fault.noConfusion

theorem write : Stops (.error .write : Except Fault α) := by
  intro e h
  cases h
  exact Fault.noConfusion

theorem bind_of {x : Except Fault α} {f : α → Except Fault β} (hx : Stops x)
    (hf : ∀ a, x = .ok a → Stops (f a)) : Stops (x >>= f) := by
  cases x with
  | error e =>
    intro e' h
    cases h
    exact hx e rfl
  | ok a => exact hf a rfl

theorem bind {x : Except Fault α} {f : α → Except Fault β} (hx : Stops x) (hf : ∀ a, Stops (f a)) :
    Stops (x >>= f) :=
  hx.bind_of fun a _ => hf a

theorem map {x : Except Fault α} (hx : Stops x) (f : α → β) : Stops (x.map f) := by
  cases x with
  | error e =>
    intro e' h
    cases h
    exact hx e rfl
  | ok a => exact ok (f a)

theorem ite {c : Prop} [Decidable c] {x y : Except Fault α} (hx : Stops x) (hy : Stops y) :
    Stops (if c then x else y) := by
  split
  · exact hx
  · exact hy

end Stops

end

/-! ## Strings -/

theorem stops_readAt (m : List UInt8) (p : ℕ) : Stops (readAt m p) := by
  unfold readAt
  split
  · exact Stops.ok _
  · exact Stops.read

theorem stops_startsFrom (lit value : List UInt8) : Stops (startsFrom lit value) := by
  fun_induction startsFrom lit value with
  | case1 => exact Stops.ok _
  | case2 => exact Stops.read
  | case3 _ _ _ ih => exact ih
  | case4 => exact Stops.ok _

theorem stops_strlenFrom (bs : List UInt8) : Stops (strlenFrom bs) := by
  fun_induction strlenFrom bs with
  | case1 => exact Stops.read
  | case2 => exact Stops.ok _
  | case3 _ _ _ ih => exact ih.map _

theorem stops_cstring (m : List UInt8) (p : ℕ) : Stops (cstring m p) :=
  (stops_strlenFrom _).map _

theorem stops_strstrFrom (pat bs : List UInt8) : Stops (strstrFrom pat bs) := by
  fun_induction strstrFrom pat bs with
  | case1 => exact Stops.read
  | case2 => exact Stops.ok _
  | case3 => exact Stops.ok _
  | case4 _ _ _ _ ih => exact ih.map _

end WLink.Lib
