import Mathlib.Data.List.Basic
import Mathlib.Data.Nat.Notation
import Mathlib.Data.Option.Basic
import Mathlib.Tactic.TypeStar

/-!
# Histories of a bounded deque

A list of at most `cap` entries to which entries are added at both ends and from which they are taken
at the front. `DequeOp` is an operation together with what has come of it, so that a sequence of them
is a history: `dequeRun` is the list after it, if a deque can have had that history. What has been
added at the back is then what has been taken, in the same order, and what is still there
(`dequeRun_fifo`).
-/

namespace WLink.Lib

variable {α : Type*}

/-- An operation with its result. -/
inductive DequeOp (α : Type*)
  | back (x : α)
  | front (x : α)
  /-- The entry is the only one then. -/
  | replace (x : α)
  | take (x : α)
  | look (x : α)
  /-- There was no room. -/
  | full
  /-- There was no entry. -/
  | empty
  /-- Nothing has been done, whatever there was. -/
  | none
deriving Repr

variable [DecidableEq α]

/-- The list after an operation, if it may have had that result. -/
def DequeOp.apply (cap : ℕ) (items : List α) : DequeOp α → Option (List α)
  | .back x => if items.length < cap then some (items ++ [x]) else Option.none
  | .front x => if items.length < cap then some (x :: items) else Option.none
  | .replace x => if cap = 1 then some [x] else Option.none
  | .take x => if items.head? = some x then some items.tail else Option.none
  | .look x => if items.head? = some x then some items else Option.none
  | .full => if items.length = cap then some items else Option.none
  | .empty => if items = [] then some items else Option.none
  | .none => some items

/-- The list after a history. -/
def dequeRun (cap : ℕ) (items : List α) (ops : List (DequeOp α)) : Option (List α) :=
  ops.foldlM (DequeOp.apply cap) items

variable {cap : ℕ} {items items' items'' : List α} {ops ops' : List (DequeOp α)} {x : α}

@[simp] theorem dequeRun_nil : dequeRun cap items [] = some items := rfl

theorem dequeRun_cons {op : DequeOp α} :
    dequeRun cap items (op :: ops) = (op.apply cap items).bind fun items => dequeRun cap items ops :=
  List.foldlM_cons

theorem dequeRun_append : dequeRun cap items (ops ++ ops') =
    (dequeRun cap items ops).bind fun items => dequeRun cap items ops' :=
  List.foldlM_append

theorem dequeRun_trans (h : dequeRun cap items ops = some items')
    (h' : dequeRun cap items' ops' = some items'') :
    dequeRun cap items (ops ++ ops') = some items'' := by
  rw [dequeRun_append, h]
  exact h'

theorem dequeRun_singleton {op : DequeOp α} (h : op.apply cap items = some items') :
    dequeRun cap items [op] = some items' := by
  rw [dequeRun_cons, h]
  rfl

/-! ## First in, first out -/

omit [DecidableEq α] in
/-- What the history adds at the back. -/
def addedAtBack : List (DequeOp α) → List α
  | [] => []
  | .back x :: ops => x :: addedAtBack ops
  | _ :: ops => addedAtBack ops

omit [DecidableEq α] in
/-- What the history takes. -/
def takenAtFront : List (DequeOp α) → List α
  | [] => []
  | .take x :: ops => x :: takenAtFront ops
  | _ :: ops => takenAtFront ops

/-- The operation adds nothing at the front. -/
def DequeOp.Fifo : DequeOp α → Prop
  | .front _ => False
  | .replace _ => False
  | _ => True

theorem dequeRun_fifo (hops : ∀ op ∈ ops, op.Fifo) (h : dequeRun cap items ops = some items') :
    items ++ addedAtBack ops = takenAtFront ops ++ items' := by
  induction ops generalizing items with
  | nil =>
    cases h
    simp [addedAtBack, takenAtFront]
  | cons op ops ih =>
    obtain ⟨hop, hops⟩ := List.forall_mem_cons.mp hops
    rw [dequeRun_cons, Option.bind_eq_some_iff] at h
    obtain ⟨mid, happly, hrest⟩ := h
    have hmid := ih hops hrest
    cases op with
    | back x =>
      have hmid' : items ++ [x] = mid := by
        simp only [DequeOp.apply] at happly
        split_ifs at happly
        exact Option.some.inj happly
      rw [← hmid', List.append_assoc] at hmid
      exact hmid
    | front x => exact hop.elim
    | replace x => exact hop.elim
    | take x =>
      simp only [DequeOp.apply] at happly
      split_ifs at happly with hhead
      have htail := Option.some.inj happly
      have hcons : items = x :: items.tail := (List.cons_head?_tail hhead).symm
      rw [hcons, htail]
      exact congrArg (x :: ·) hmid
    | look x =>
      simp only [DequeOp.apply] at happly
      split_ifs at happly
      rw [Option.some.inj happly]
      exact hmid
    | full =>
      simp only [DequeOp.apply] at happly
      split_ifs at happly
      rw [Option.some.inj happly]
      exact hmid
    | empty =>
      simp only [DequeOp.apply] at happly
      split_ifs at happly
      rw [Option.some.inj happly]
      exact hmid
    | none =>
      rw [Option.some.inj happly]
      exact hmid

end WLink.Lib
