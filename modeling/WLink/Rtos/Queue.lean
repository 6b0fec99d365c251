import WLink.Lib.Exec
import WLink.Lib.Memory
import WLink.Lib.Ring

/-!
# The storage of a queue

The part of `queue.c` that moves data. The items of a queue lie in a ring of slots:
`prvCopyDataToQueue` and `prvCopyDataFromQueue` move the two pointers of the ring. `Holds` is the list of
items that a queue has, and each function does to it what its comment says. A semaphore is a queue of
items without bytes; mutexes are left out.
-/

namespace WLink.Rtos

open Lib

/-! ## The functions -/

inductive CopyPosition
  | sendToBack
  | sendToFront
  | overwrite
deriving DecidableEq, Repr

/-- The fields of `Queue_t` that have to do with the items, and the memory of the items. -/
structure Storage where
  mem : ℕ → UInt8
  pcHead : ℕ
  pcWriteTo : ℕ
  pcTail : ℕ
  pcReadFrom : ℕ
  uxMessagesWaiting : ℕ
  uxLength : ℕ
  uxItemSize : ℕ

namespace Storage

/-- An item at `p` is inside of what has been allocated for the items. -/
def Inside (q : Storage) (p : ℕ) : Prop :=
  q.pcHead ≤ p ∧ p + q.uxItemSize ≤ q.pcHead + q.uxLength * q.uxItemSize

instance (q : Storage) (p : ℕ) : Decidable (q.Inside p) := inferInstanceAs (Decidable (_ ∧ _))

/-- `memcpy` of an item to `p` -/
def copyTo (q : Storage) (p : ℕ) (item : List UInt8) : Except Fault Storage :=
  if item.length < q.uxItemSize then .error .read
  else if q.Inside p then
    .ok { q with mem := storeBytes q.mem p (item.take q.uxItemSize) }
  else .error .write

/-- `memcpy` of an item from `p` -/
def copyFrom (q : Storage) (p : ℕ) : Except Fault (List UInt8) :=
  if q.Inside p then .ok (loadBytes q.mem p q.uxItemSize) else .error .read

end Storage

/-- `xQueueGenericReset` of a new queue -/
def xQueueGenericReset (q : Storage) : Storage :=
  { q with
    pcTail := q.pcHead + q.uxLength * q.uxItemSize
    uxMessagesWaiting := 0
    pcWriteTo := q.pcHead
    pcReadFrom := q.pcHead + (q.uxLength - 1) * q.uxItemSize }

/-- `prvCopyDataToQueue` of a queue that is no mutex -/
def prvCopyDataToQueue (q : Storage) (item : List UInt8) (position : CopyPosition) :
    Except Fault Storage :=
  if q.uxItemSize = 0 then
    .ok { q with uxMessagesWaiting := q.uxMessagesWaiting + 1 }
  else if position = .sendToBack then do
    let q ← q.copyTo q.pcWriteTo item
    let pcWriteTo := q.pcWriteTo + q.uxItemSize
    pure { q with
      pcWriteTo := if pcWriteTo ≥ q.pcTail then q.pcHead else pcWriteTo
      uxMessagesWaiting := q.uxMessagesWaiting + 1 }
  else do
    let q ← q.copyTo q.pcReadFrom item
    let uxMessagesWaiting :=
      if position = .overwrite ∧ 0 < q.uxMessagesWaiting then q.uxMessagesWaiting - 1
      else q.uxMessagesWaiting
    pure { q with
      -- the pointer may have come to lie in front of the first slot
      pcReadFrom := if q.pcReadFrom < q.pcHead + q.uxItemSize then q.pcTail - q.uxItemSize
        else q.pcReadFrom - q.uxItemSize
      uxMessagesWaiting := uxMessagesWaiting + 1 }

/-- `prvCopyDataFromQueue` -/
def prvCopyDataFromQueue (q : Storage) : Except Fault (Storage × List UInt8) :=
  if q.uxItemSize ≠ 0 then do
    let pcReadFrom := q.pcReadFrom + q.uxItemSize
    let pcReadFrom := if pcReadFrom ≥ q.pcTail then q.pcHead else pcReadFrom
    let item ← q.copyFrom pcReadFrom
    pure ({ q with pcReadFrom }, item)
  else pure (q, [])

/-! ## The items of a queue -/

namespace Storage

/-- The item in a slot. -/
def slot (q : Storage) (k : ℕ) : List UInt8 :=
  loadBytes q.mem (q.pcHead + k * q.uxItemSize) q.uxItemSize

/-- The queue has these items. -/
structure Holds (q : Storage) (items : List (List UInt8)) : Prop where
  waiting : q.uxMessagesWaiting = items.length
  room : items.length ≤ q.uxLength
  tail : q.pcTail = q.pcHead + q.uxLength * q.uxItemSize
  place : ∃ r < q.uxLength, q.pcReadFrom = q.pcHead + r * q.uxItemSize ∧
    q.pcWriteTo = q.pcHead + (r + 1 + items.length) % q.uxLength * q.uxItemSize ∧
    items = ringContents q.slot q.uxLength (r + 1) items.length

end Storage

section

variable {q q' : Storage} {items : List (List UInt8)} {item : List UInt8} {k : ℕ}

/-- The queue with another item in a slot. -/
def Storage.put (q : Storage) (k : ℕ) (item : List UInt8) : Storage :=
  { q with mem := storeBytes q.mem (q.pcHead + k * q.uxItemSize) item }

theorem mul_next_le {j n : ℕ} (size : ℕ) (h : j < n) : j * size + size ≤ n * size := by
  have hle : (j + 1) * size ≤ n * size := Nat.mul_le_mul_right size h
  rwa [Nat.add_mul, Nat.one_mul] at hle

theorem slot_put (hitem : item.length = q.uxItemSize) : (q.put k item).slot k = item := by
  show loadBytes (storeBytes q.mem (q.pcHead + k * q.uxItemSize) item)
    (q.pcHead + k * q.uxItemSize) q.uxItemSize = item
  generalize q.pcHead + k * q.uxItemSize = a
  rw [← hitem]
  exact loadBytes_storeBytes item

/-- The other slots do not change. -/
theorem slot_put_of_ne (hitem : item.length = q.uxItemSize) {j : ℕ} (hj : j ≠ k) :
    (q.put k item).slot j = q.slot j := by
  apply loadBytes_congr
  intro i (hi : i < q.uxItemSize)
  apply storeBytes_of_outside
  show q.pcHead + j * q.uxItemSize + i < q.pcHead + k * q.uxItemSize ∨
    q.pcHead + k * q.uxItemSize + item.length ≤ q.pcHead + j * q.uxItemSize + i
  rw [hitem]
  rcases Nat.lt_or_gt_of_ne hj with h | h
  · have hle := mul_next_le q.uxItemSize h
    omega
  · have hle := mul_next_le q.uxItemSize h
    omega

theorem inside_slot (hk : k < q.uxLength) : q.Inside (q.pcHead + k * q.uxItemSize) := by
  have hle := mul_next_le q.uxItemSize hk
  constructor <;> omega

theorem copyTo_slot (hk : k < q.uxLength) (hitem : item.length = q.uxItemSize) :
    q.copyTo (q.pcHead + k * q.uxItemSize) item = .ok (q.put k item) := by
  unfold Storage.copyTo
  rw [if_neg (by omega), if_pos (inside_slot hk), ← hitem, List.take_length, hitem]
  rfl

theorem copyFrom_slot (hk : k < q.uxLength) :
    q.copyFrom (q.pcHead + k * q.uxItemSize) = .ok (q.slot k) := if_pos (inside_slot hk)

/-- A pointer that goes on by one slot, and behind the last slot to the first. -/
theorem next_slot {size n : ℕ} (head : ℕ) (hsize : size ≠ 0) (hk : k < n) :
    (if head + k * size + size ≥ head + n * size then head else head + k * size + size) =
      head + (k + 1) % n * size := by
  have hmul : (k + 1) * size = k * size + size := by rw [Nat.add_mul, Nat.one_mul]
  by_cases hlast : k + 1 < n
  · have hlt : (k + 1) * size < n * size :=
      Nat.mul_lt_mul_of_pos_right hlast (Nat.pos_of_ne_zero hsize)
    rw [if_neg (by omega), Nat.mod_eq_of_lt hlast]
    omega
  · have heq : k + 1 = n := by omega
    rw [if_pos (by rw [← heq]; omega), heq, Nat.mod_self, Nat.zero_mul, Nat.add_zero]

/-! ### Items without bytes -/

theorem slot_of_zero (hsize : q.uxItemSize = 0) (k : ℕ) : q.slot k = [] := by
  unfold Storage.slot
  rw [hsize]
  rfl

/-- Of a semaphore only the count matters. -/
theorem Storage.Holds.of_zero (h : q.Holds items) (hsize : q.uxItemSize = 0)
    (hroom : k ≤ q.uxLength) :
    ({ q with uxMessagesWaiting := k } : Storage).Holds (List.replicate k []) := by
  obtain ⟨-, -, htail, r, hr, hread, hwrite, -⟩ := h
  have hslot : ({ q with uxMessagesWaiting := k } : Storage).slot = fun _ => [] :=
    funext (slot_of_zero hsize)
  refine ⟨List.length_replicate.symm, ?_, htail, r, hr, hread, ?_, ?_⟩
  · rwa [List.length_replicate]
  · show q.pcWriteTo = q.pcHead + _ * q.uxItemSize
    rw [hwrite, hsize, Nat.mul_zero, Nat.mul_zero]
  · rw [hslot, List.length_replicate]
    unfold ringContents
    rw [List.map_const', List.length_range]

theorem Storage.Holds.eq_replicate (h : q.Holds items) (hsize : q.uxItemSize = 0) :
    items = List.replicate items.length [] := by
  obtain ⟨-, -, -, r, -, -, -, hitems⟩ := h
  have hslot : q.slot = fun _ => [] := funext (slot_of_zero hsize)
  rw [hslot] at hitems
  unfold ringContents at hitems
  rwa [List.map_const', List.length_range] at hitems

/-! ### What the functions do -/

/-- The queue has the same size. -/
def Storage.Like (q' q : Storage) : Prop :=
  q'.uxLength = q.uxLength ∧ q'.uxItemSize = q.uxItemSize

theorem prvCopyDataToQueue_of_zero (h : q.Holds items) (hsize : q.uxItemSize = 0)
    (hroom : items.length < q.uxLength) (position : CopyPosition) :
    ∃ q', prvCopyDataToQueue q item position = .ok q' ∧
      q'.Holds (List.replicate (items.length + 1) []) ∧ q'.Like q := by
  refine ⟨{ q with uxMessagesWaiting := q.uxMessagesWaiting + 1 }, if_pos hsize, ?_, rfl, rfl⟩
  rw [h.waiting]
  exact h.of_zero hsize hroom

/-- An item is stored behind the others. -/
theorem prvCopyDataToQueue_back (h : q.Holds items) (hroom : items.length < q.uxLength)
    (hitem : item.length = q.uxItemSize) :
    ∃ q', prvCopyDataToQueue q item .sendToBack = .ok q' ∧ q'.Holds (items ++ [item]) ∧
      q'.Like q := by
  by_cases hsize : q.uxItemSize = 0
  · rw [hsize] at hitem
    rw [List.length_eq_zero_iff.mp hitem, h.eq_replicate hsize, ← List.replicate_succ']
    exact prvCopyDataToQueue_of_zero h hsize hroom .sendToBack
  obtain ⟨hwaiting, -, htail, r, hr, hread, hwrite, hitems⟩ := h
  obtain ⟨w, hw⟩ : ∃ w, w = (r + 1 + items.length) % q.uxLength := ⟨_, rfl⟩
  have hwlt : w < q.uxLength := by
    rw [hw]
    exact Nat.mod_lt _ (by omega)
  rw [← hw] at hwrite
  refine ⟨{ q.put w item with
    pcWriteTo := q.pcHead + (w + 1) % q.uxLength * q.uxItemSize
    uxMessagesWaiting := q.uxMessagesWaiting + 1 }, ?_, ?_, rfl, rfl⟩
  · unfold prvCopyDataToQueue
    rw [if_neg hsize, if_pos rfl, hwrite, copyTo_slot hwlt hitem, ← next_slot _ hsize hwlt, ← htail,
      ← hwrite]
    rfl
  · refine ⟨?_, ?_, htail, r, hr, hread, ?_, ?_⟩
    · rw [List.length_append, List.length_singleton, ← hwaiting]
    · rw [List.length_append, List.length_singleton]
      exact hroom
    · show q.pcHead + _ * q.uxItemSize = q.pcHead + _ % q.uxLength * q.uxItemSize
      rw [List.length_append, List.length_singleton, ← Nat.add_assoc,
        ← Nat.mod_add_mod (r + 1 + items.length), ← hw]
    · rw [List.length_append, List.length_singleton]
      conv_lhs => rw [hitems]
      symm
      apply ringContents_back hroom
      · rw [← hw]
        exact slot_put hitem
      · intro k hk
        rw [← hw] at hk
        exact slot_put_of_ne hitem hk

/-- A pointer that goes back by one slot, and in front of the first slot to the last. -/
theorem previous_slot {size n r : ℕ} (head : ℕ) (hsize : size ≠ 0) (hr : r < n) :
    ∃ r' < n, (if head + r * size < head + size then head + n * size - size
      else head + r * size - size) = head + r' * size ∧ (r' + 1) % n = r := by
  by_cases hzero : r = 0
  · refine ⟨n - 1, by omega, ?_, ?_⟩
    · rw [hzero, if_pos (by omega), Nat.sub_mul, Nat.one_mul, Nat.add_sub_assoc]
      exact Nat.le_mul_of_pos_left size (by omega)
    · rw [hzero, Nat.sub_add_cancel (by omega), Nat.mod_self]
  · have hle : size ≤ r * size := Nat.le_mul_of_pos_left size (by omega)
    refine ⟨r - 1, by omega, ?_, ?_⟩
    · rw [if_neg (by omega), Nat.sub_mul, Nat.one_mul, Nat.add_sub_assoc hle]
    · rw [Nat.sub_add_cancel (by omega), Nat.mod_eq_of_lt hr]

/-- An item is stored in front of the others. -/
theorem prvCopyDataToQueue_front (h : q.Holds items) (hroom : items.length < q.uxLength)
    (hitem : item.length = q.uxItemSize) :
    ∃ q', prvCopyDataToQueue q item .sendToFront = .ok q' ∧ q'.Holds (item :: items) ∧
      q'.Like q := by
  by_cases hsize : q.uxItemSize = 0
  · rw [hsize] at hitem
    rw [List.length_eq_zero_iff.mp hitem, h.eq_replicate hsize, ← List.replicate_succ]
    exact prvCopyDataToQueue_of_zero h hsize hroom .sendToFront
  obtain ⟨hwaiting, -, htail, r, hr, hread, hwrite, hitems⟩ := h
  obtain ⟨r', hr', hprevious, hnext⟩ := previous_slot q.pcHead hsize hr
  refine ⟨{ q.put r item with
    pcReadFrom := q.pcHead + r' * q.uxItemSize
    uxMessagesWaiting := q.uxMessagesWaiting + 1 }, ?_, ?_, rfl, rfl⟩
  · have hback : ¬ CopyPosition.sendToFront = .sendToBack := by decide
    unfold prvCopyDataToQueue
    rw [if_neg hsize, if_neg hback, hread, copyTo_slot hr hitem, ← hprevious, ← htail, ← hread]
    rfl
  · refine ⟨?_, hroom, htail, r', hr', rfl, ?_, ?_⟩
    · rw [List.length_cons, ← hwaiting]
    · show q.pcWriteTo = q.pcHead + _ % q.uxLength * q.uxItemSize
      rw [hwrite, List.length_cons, ← Nat.mod_add_mod (r' + 1), hnext, Nat.add_right_comm r 1,
        Nat.add_assoc]
    · conv_lhs => rw [hitems]
      have hstart : (r' + 1) % q.uxLength = r % q.uxLength := by rw [hnext, Nat.mod_eq_of_lt hr]
      rw [List.length_cons]
      refine ((ringContents_start hstart).trans ?_).symm
      apply ringContents_front hroom
      · rw [Nat.mod_eq_of_lt hr]
        exact slot_put hitem
      · intro k hk
        rw [Nat.mod_eq_of_lt hr] at hk
        exact slot_put_of_ne hitem hk

/-- The only item is replaced, if there is one. -/
theorem prvCopyDataToQueue_overwrite (h : q.Holds items) (hlength : q.uxLength = 1)
    (hsize : q.uxItemSize ≠ 0) (hitem : item.length = q.uxItemSize) :
    ∃ q', prvCopyDataToQueue q item .overwrite = .ok q' ∧ q'.Holds [item] ∧ q'.Like q := by
  obtain ⟨hwaiting, hroom, htail, r, hr, hread, hwrite, -⟩ := h
  rw [hlength, Nat.mod_one] at hwrite
  have hempty : ({ q with uxMessagesWaiting := 0 } : Storage).Holds [] := by
    refine ⟨rfl, Nat.zero_le _, htail, r, hr, hread, ?_, rfl⟩
    show q.pcWriteTo = q.pcHead + _ % q.uxLength * q.uxItemSize
    rw [hwrite, hlength, Nat.mod_one]
  have hcount : (if CopyPosition.overwrite = .overwrite ∧ 0 < q.uxMessagesWaiting
      then q.uxMessagesWaiting - 1 else q.uxMessagesWaiting) = 0 := by
    split_ifs with hpos
    · omega
    · have hnone : ¬ 0 < q.uxMessagesWaiting := fun h => hpos ⟨rfl, h⟩
      omega
  -- the item is stored as if the queue were empty
  have hsame : prvCopyDataToQueue q item .overwrite =
      prvCopyDataToQueue { q with uxMessagesWaiting := 0 } item .sendToFront := by
    have hback : ¬ CopyPosition.overwrite = .sendToBack := by decide
    have hback' : ¬ CopyPosition.sendToFront = .sendToBack := by decide
    have hlt : r < ({ q with uxMessagesWaiting := 0 } : Storage).uxLength := hr
    have hcopy : q.copyTo q.pcReadFrom item = .ok (q.put r item) :=
      (congrArg (q.copyTo · item) hread).trans (copyTo_slot hr hitem)
    have hcopy' : ({ q with uxMessagesWaiting := 0 } : Storage).copyTo q.pcReadFrom item =
        .ok { q.put r item with uxMessagesWaiting := 0 } :=
      (congrArg (Storage.copyTo { q with uxMessagesWaiting := 0 } · item) hread).trans
        (copyTo_slot hlt hitem)
    unfold prvCopyDataToQueue
    rw [if_neg hsize, if_neg hback, hcopy, if_neg hsize, if_neg hback', hcopy']
    show Except.ok ({ q.put r item with
      pcReadFrom := if q.pcReadFrom < q.pcHead + q.uxItemSize then q.pcTail - q.uxItemSize
        else q.pcReadFrom - q.uxItemSize
      uxMessagesWaiting := (if CopyPosition.overwrite = .overwrite ∧ 0 < q.uxMessagesWaiting
        then q.uxMessagesWaiting - 1 else q.uxMessagesWaiting) + 1 } : Storage) = _
    rw [hcount]
    rfl
  rw [hsame]
  exact prvCopyDataToQueue_front hempty (by show 0 < q.uxLength; omega) hitem

/-- The first item is read, and the pointer moved to it. -/
theorem prvCopyDataFromQueue_cons (h : q.Holds (item :: items)) :
    ∃ p, prvCopyDataFromQueue q = .ok ({ q with pcReadFrom := p }, item) ∧
      ({ q with pcReadFrom := p, uxMessagesWaiting := items.length } : Storage).Holds items := by
  have hroom : items.length ≤ q.uxLength := by
    have hle := h.room
    rw [List.length_cons] at hle
    omega
  by_cases hsize : q.uxItemSize = 0
  · have hnil := h.eq_replicate hsize
    rw [List.length_cons, List.replicate_succ, List.cons.injEq] at hnil
    obtain ⟨hitem, hitems⟩ := hnil
    refine ⟨q.pcReadFrom, ?_, ?_⟩
    · unfold prvCopyDataFromQueue
      rw [if_neg (not_not.mpr hsize), hitem]
      rfl
    · have hrest := h.of_zero hsize hroom
      rw [← hitems] at hrest
      exact hrest
  obtain ⟨-, -, htail, r, hr, hread, hwrite, hitems⟩ := h
  have hr' : (r + 1) % q.uxLength < q.uxLength := Nat.mod_lt _ (by omega)
  rw [List.length_cons, ringContents_cons, List.cons.injEq] at hitems
  obtain ⟨hitem, hitems⟩ := hitems
  have hnext := next_slot q.pcHead hsize hr
  refine ⟨q.pcHead + (r + 1) % q.uxLength * q.uxItemSize, ?_, rfl, hroom, htail,
    (r + 1) % q.uxLength, hr', rfl, ?_, ?_⟩
  · unfold prvCopyDataFromQueue
    rw [if_pos hsize]
    dsimp only
    rw [hread, htail, hnext, copyFrom_slot hr', ← hitem]
    rfl
  · show q.pcWriteTo = q.pcHead + _ % q.uxLength * q.uxItemSize
    have hplace : (r + 1 + (items.length + 1)) % q.uxLength =
        ((r + 1) % q.uxLength + 1 + items.length) % q.uxLength := by
      rw [Nat.add_assoc ((r + 1) % q.uxLength), Nat.mod_add_mod, Nat.add_comm 1]
    rw [hwrite, List.length_cons, hplace]
  · have hstart : (r + 1 + 1) % q.uxLength = ((r + 1) % q.uxLength + 1) % q.uxLength :=
      (Nat.mod_add_mod _ _ _).symm
    conv_lhs => rw [hitems]
    exact ringContents_start hstart

end

end WLink.Rtos
