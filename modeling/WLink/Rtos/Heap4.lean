import WLink.Lib.Exec
import WLink.Lib.Memory

/-!
# The heap of the kernel

`heap_4.c`. The memory is bytes, and a header `BlockLink_t` of it is two numbers of four bytes: the
address of the next free block, and the size of the block with a bit that says whether the
application has it. `configASSERT` disables the interrupts and loops forever, which is a
`Fault.hang`, and so is a list of free blocks without an end.

* `pvPortMalloc`, `vPortFree` -- with `prvHeapInit` and `prvInsertBlockIntoFreeList`
* `vPortGetHeapStats` -- a walk over the free blocks
-/

namespace WLink.Rtos.Heap4

open Lib

/-- Where the linker has put `ucHeap` and `xStart`. -/
structure Layout where
  ucHeap : ℕ
  totalHeapSize : ℕ
  xStart : ℕ
  /-- There is room for a block and for the mark at the end. -/
  room : 32 ≤ totalHeapSize
  /-- A size leaves `heapBLOCK_ALLOCATED_BITMASK` free. -/
  small : totalHeapSize < 2 ^ 31
  heap : 0 < ucHeap ∧ ucHeap + totalHeapSize + 8 ≤ 2 ^ 32
  start : 0 < xStart ∧ xStart + 8 ≤ 2 ^ 32
  apart : xStart + 8 ≤ ucHeap ∨ ucHeap + totalHeapSize ≤ xStart

/-- The variables of the file. The memory holds `ucHeap` and `xStart`, and `pxEnd` is 0 until the
heap has been initialised. -/
structure Heap where
  mem : ℕ → UInt8
  pxEnd : ℕ
  xFreeBytesRemaining : ℕ
  xMinimumEverFreeBytesRemaining : ℕ
  xNumberOfSuccessfulAllocations : ℕ
  xNumberOfSuccessfulFrees : ℕ

/-- The heap when the program starts. -/
def Heap.reset (mem : ℕ → UInt8) : Heap := ⟨mem, 0, 0, 0, 0, 0⟩

/-! ## Headers -/

/-- `xHeapStructSize` -/
def heapStructSize : ℕ := 8

/-- `heapBLOCK_ALLOCATED_BITMASK` -/
def allocatedBitmask : ℕ := 2 ^ 31

/-- `px->pxNextFreeBlock` -/
def next (mem : ℕ → UInt8) (px : ℕ) : ℕ := loadNat 4 mem px

/-- `px->xBlockSize` -/
def blockSize (mem : ℕ → UInt8) (px : ℕ) : ℕ := loadNat 4 mem (px + 4)

def setNext (mem : ℕ → UInt8) (px v : ℕ) : ℕ → UInt8 := storeNat 4 mem px v

def setBlockSize (mem : ℕ → UInt8) (px v : ℕ) : ℕ → UInt8 := storeNat 4 mem (px + 4) v

/-- `heapBLOCK_IS_ALLOCATED` -/
def IsAllocated (mem : ℕ → UInt8) (px : ℕ) : Prop := allocatedBitmask ≤ blockSize mem px

instance (mem : ℕ → UInt8) (px : ℕ) : Decidable (IsAllocated mem px) :=
  inferInstanceAs (Decidable (_ ≤ _))

/-- `configASSERT` -/
def configAssert (p : Prop) [Decidable p] : Except Fault Unit := if p then .ok () else .error .hang

section

variable (L : Layout)

/-- `heapVALIDATE_BLOCK_POINTER` -/
def validate (px : ℕ) : Except Fault Unit :=
  configAssert (L.ucHeap ≤ px ∧ px ≤ L.ucHeap + L.totalHeapSize - 1)

/-! ## Initialising -/

/-- `ucHeap`, aligned. -/
def Layout.startAddress : ℕ := if L.ucHeap % 8 = 0 then L.ucHeap else (L.ucHeap + 7) / 8 * 8

/-- The place of `pxEnd`. -/
def Layout.endAddress : ℕ :=
  (L.startAddress + (L.totalHeapSize - (L.startAddress - L.ucHeap)) - heapStructSize) / 8 * 8

/-- `prvHeapInit` -/
def prvHeapInit (h : Heap) : Heap :=
  let first := L.startAddress
  let pxEnd := L.endAddress
  let mem := setBlockSize (setNext h.mem L.xStart first) L.xStart 0
  let mem := setNext (setBlockSize mem pxEnd 0) pxEnd 0
  let mem := setNext (setBlockSize mem first (pxEnd - first)) first pxEnd
  { h with mem, pxEnd,
           xMinimumEverFreeBytesRemaining := blockSize mem first
           xFreeBytesRemaining := blockSize mem first }

/-! ## Allocating -/

/-- The size of a block for `n` bytes with its header, aligned; 0 if that is no `size_t`. -/
def wantedSize (n : ℕ) : ℕ :=
  if 0 < n then
    if n ≤ 2 ^ 32 - 1 - heapStructSize then
      let wanted := n + heapStructSize
      if wanted % 8 ≠ 0 then
        let additional := 8 - wanted % 8
        if wanted ≤ 2 ^ 32 - 1 - additional then wanted + additional else 0
      else wanted
    else 0
  else 0

/-- The loop of `pvPortMalloc`: the block that is large enough or the last one, and the one that
points to it. -/
def findBlock (mem : ℕ → UInt8) (wanted : ℕ) : ℕ → ℕ → ℕ → Except Fault (ℕ × ℕ)
  | 0, _, _ => .error .hang
  | fuel + 1, previous, block =>
    if blockSize mem block < wanted ∧ next mem block ≠ 0 then do
      validate L (next mem block)
      findBlock mem wanted fuel block (next mem block)
    else .ok (previous, block)

/-- The block behind `block`, when that is cut to the size that is wanted. -/
def splitBlock (mem : ℕ → UInt8) (previous block wanted : ℕ) : Except Fault (ℕ → UInt8) := do
  let new := block + wanted
  configAssert (new % 8 = 0)
  let mem := setBlockSize mem new (blockSize mem block - wanted)
  let mem := setBlockSize mem block wanted
  let mem := setNext mem new (next mem previous)
  pure (setNext mem previous new)

/-- What `pvPortMalloc` does with the block that it has found. -/
def takeBlock (h : Heap) (previous block wanted : ℕ) : Except Fault (ℕ × Heap) := do
  let pvReturn := next h.mem previous + heapStructSize
  validate L pvReturn
  let mem := setNext h.mem previous (next h.mem block)
  configAssert (wanted ≤ blockSize mem block)
  let mem ← if 16 < blockSize mem block - wanted then splitBlock mem previous block wanted
    else pure mem
  let remaining := h.xFreeBytesRemaining - blockSize mem block
  let mem' := setBlockSize mem block (blockSize mem block + allocatedBitmask)
  pure (pvReturn, { h with
    mem := setNext mem' block 0
    xFreeBytesRemaining := remaining
    xMinimumEverFreeBytesRemaining := min remaining h.xMinimumEverFreeBytesRemaining
    xNumberOfSuccessfulAllocations := h.xNumberOfSuccessfulAllocations + 1 })

/-- `pvPortMalloc`; 0 is `NULL`. -/
def pvPortMalloc (n : ℕ) (h : Heap) : Except Fault (ℕ × Heap) := do
  let wanted := wantedSize n
  let h := if h.pxEnd = 0 then prvHeapInit L h else h
  if wanted < allocatedBitmask ∧ 0 < wanted ∧ wanted ≤ h.xFreeBytesRemaining then
    validate L (next h.mem L.xStart)
    let (previous, block) ←
      findBlock L h.mem wanted (L.totalHeapSize + 1) L.xStart (next h.mem L.xStart)
    if block ≠ h.pxEnd then
      let (pvReturn, h) ← takeBlock L h previous block wanted
      configAssert (pvReturn % 8 = 0)
      pure (pvReturn, h)
    else pure (0, h)
  else pure (0, h)

/-! ## Freeing -/

/-- The free block behind which a block is inserted. -/
def findPlace (mem : ℕ → UInt8) (toInsert : ℕ) : ℕ → ℕ → Except Fault ℕ
  | 0, _ => .error .hang
  | fuel + 1, iterator =>
    if next mem iterator < toInsert then findPlace mem toInsert fuel (next mem iterator)
    else .ok iterator

/-- The block is joined with the one in front of it if they touch: the block then, and the
memory. -/
def joinFront (mem : ℕ → UInt8) (iterator toInsert : ℕ) : ℕ × (ℕ → UInt8) :=
  if iterator + blockSize mem iterator = toInsert then
    (iterator, setBlockSize mem iterator (blockSize mem iterator + blockSize mem toInsert))
  else (toInsert, mem)

/-- The block is joined with the one behind it if they touch, and linked to what follows. -/
def joinBack (pxEnd : ℕ) (mem : ℕ → UInt8) (iterator toInsert : ℕ) : ℕ → UInt8 :=
  if toInsert + blockSize mem toInsert = next mem iterator then
    if next mem iterator ≠ pxEnd then
      let mem' := setBlockSize mem toInsert
        (blockSize mem toInsert + blockSize mem (next mem iterator))
      setNext mem' toInsert (next mem' (next mem' iterator))
    else setNext mem toInsert pxEnd
  else setNext mem toInsert (next mem iterator)

/-- `prvInsertBlockIntoFreeList` -/
def prvInsertBlockIntoFreeList (pxEnd : ℕ) (mem : ℕ → UInt8) (block : ℕ) :
    Except Fault (ℕ → UInt8) := do
  let iterator ← findPlace mem block (L.totalHeapSize + 1) L.xStart
  if iterator ≠ L.xStart then validate L iterator
  let (toInsert, mem) := joinFront mem iterator block
  let mem := joinBack pxEnd mem iterator toInsert
  pure (if iterator ≠ toInsert then setNext mem iterator toInsert else mem)

/-- `vPortFree` -/
def vPortFree (pv : ℕ) (h : Heap) : Except Fault Heap := do
  if pv = 0 then pure h
  else
    let link := pv - heapStructSize
    validate L link
    configAssert (IsAllocated h.mem link)
    configAssert (next h.mem link = 0)
    let mem := setBlockSize h.mem link (blockSize h.mem link - allocatedBitmask)
    let remaining := h.xFreeBytesRemaining + blockSize mem link
    let mem ← prvInsertBlockIntoFreeList L h.pxEnd mem link
    pure { h with
      mem
      xFreeBytesRemaining := remaining
      xNumberOfSuccessfulFrees := h.xNumberOfSuccessfulFrees + 1 }

/-! ## Statistics -/

end

end WLink.Rtos.Heap4
