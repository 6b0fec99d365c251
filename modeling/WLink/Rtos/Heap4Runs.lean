import WLink.Rtos.Heap4Calls

/-!
# An application and the heap

An application allocates, frees what it has got, and stores bytes in its blocks. Whatever it does,
no `configASSERT` fails and no loop goes on forever, its blocks are apart, and what it has stored is
there until it stores something else (`App.Good`, `run_reached`).
-/

namespace WLink.Rtos.Heap4

open Lib

/-! ## Runs -/

/-- A block that the application has: the pointer, the bytes it has asked for, and those that it has
stored. -/
structure Block where
  addr : ℕ
  size : ℕ
  bytes : ℕ → Option UInt8

/-- The heap and the blocks, and the least number of free bytes that there has been. -/
structure App where
  heap : Heap
  blocks : List Block
  least : ℕ

inductive Call
  | malloc (n : UInt32)
  | free (i : ℕ)
  | store (i offset : ℕ) (v : UInt8)

section

variable (L : Layout)

/-- Nothing has been allocated. -/
def App.start (mem : ℕ → UInt8) : App := ⟨.reset mem, [], L.whole.size⟩

/-- The heap after a call, which is remembered if there are fewer bytes than ever. -/
def App.withHeap (s : App) (heap : Heap) (blocks : List Block) : App :=
  ⟨heap, blocks, min s.least heap.xFreeBytesRemaining⟩

/-- A call, with the index of a block among those that the application has. -/
def App.step (s : App) : Call → Except Fault App
  | .malloc n => do
    let (pv, heap) ← pvPortMalloc L n.toNat s.heap
    pure (s.withHeap heap
      (if pv = 0 then s.blocks else ⟨pv, n.toNat, fun _ => none⟩ :: s.blocks))
  | .free i =>
    match s.blocks[i]? with
    | none => pure s
    | some b => do
      let heap ← vPortFree L b.addr s.heap
      pure (s.withHeap heap (s.blocks.eraseIdx i))
  | .store i offset v =>
    match s.blocks[i]? with
    | none => pure s
    | some b =>
      if offset < b.size then
        pure { s with
          heap := { s.heap with mem := storeBytes s.heap.mem (b.addr + offset) [v] }
          blocks := s.blocks.set i { b with bytes := Function.update b.bytes offset (some v) } }
      else pure s

/-- The calls, one after the other. -/
def run (mem : ℕ → UInt8) (calls : List Call) : Except Fault App :=
  calls.foldlM (App.step L) (App.start L mem)

end

/-! ## The invariant -/

variable {L : Layout} {s : App} {cs pre post : List Chunk} {c : Chunk}

/-- The chunk is the one in front of whose end the block lies. -/
def Block.In (b : Block) (c : Chunk) : Prop :=
  c.used = true ∧ b.addr = c.addr + heapStructSize ∧ b.size + heapStructSize ≤ c.size

/-- The heap is initialised, the used chunks are those of the blocks, and the stored bytes are
there. -/
structure App.Good (L : Layout) (s : App) (cs : List Chunk) : Prop where
  books : Books L s.heap cs
  block : ∀ b ∈ s.blocks, ∃ c ∈ cs, b.In c
  owner : ∀ c ∈ cs, c.used = true → ∃ b ∈ s.blocks, b.In c
  nodup : (s.blocks.map Block.addr).Nodup
  stored : ∀ b ∈ s.blocks, ∀ i v, b.bytes i = some v →
    i < b.size ∧ s.heap.mem (b.addr + i) = v
  least : s.heap.xMinimumEverFreeBytesRemaining = s.least
  low : s.least ≤ s.heap.xFreeBytesRemaining
  count : s.heap.xNumberOfSuccessfulAllocations =
    s.heap.xNumberOfSuccessfulFrees + s.blocks.length

/-- The heap has not been initialised, or all is in order. -/
def App.Reached (L : Layout) (s : App) : Prop :=
  (∃ mem, s = App.start L mem) ∨ ∃ cs, s.Good L cs

theorem remaining_init (L : Layout) (mem : ℕ → UInt8) :
    (prvHeapInit L (.reset mem)).xFreeBytesRemaining = L.whole.size := by
  rw [(books_prvHeapInit L (.reset mem)).remaining, frees_cons_of_free rfl, frees_nil, sizes_cons,
    sizes_nil, Nat.add_zero]

/-- The heap that the first allocation finds. -/
theorem good_init (L : Layout) (mem : ℕ → UInt8) :
    (⟨prvHeapInit L (.reset mem), [], L.whole.size⟩ : App).Good L [L.whole] where
  books := books_prvHeapInit L _
  block := nofun
  owner c hc hused := by
    rw [List.mem_singleton.mp hc] at hused
    exact Bool.noConfusion hused
  nodup := List.nodup_nil
  stored := nofun
  least := by
    have hsame : (prvHeapInit L (.reset mem)).xMinimumEverFreeBytesRemaining =
        (prvHeapInit L (.reset mem)).xFreeBytesRemaining := rfl
    rw [hsame, remaining_init]
  low := Nat.le_of_eq (remaining_init L mem).symm
  count := rfl

theorem pvPortMalloc_init (n : ℕ) (mem : ℕ → UInt8) :
    pvPortMalloc L n (.reset mem) = pvPortMalloc L n (prvHeapInit L (.reset mem)) := by
  have hinit : ¬ (prvHeapInit L (.reset mem)).pxEnd = 0 := endAddress_ne_zero
  have hreset : (Heap.reset mem).pxEnd = 0 := rfl
  unfold pvPortMalloc
  dsimp only
  rw [if_pos hreset, if_neg hinit]

/-! ## Steps -/

theorem mem_middle (pre : List Chunk) (c : Chunk) (post : List Chunk) : c ∈ pre ++ c :: post :=
  List.mem_append_right pre List.mem_cons_self

/-- A chunk that is not the middle one is beside it. -/
theorem beside_of_ne {d : Chunk} (hd : d ∈ pre ++ c :: post) (hne : d ≠ c) :
    d ∈ pre ∨ d ∈ post := by
  rcases List.mem_append.mp hd with hd | hd
  · exact .inl hd
  · exact .inr ((List.mem_cons.mp hd).resolve_left hne)

/-- A stored byte stays where the chunk of its block is not touched. -/
theorem stored_kept {heap : Heap} {b : Block} {d : Chunk} (hb : b.In d)
    (hstored : ∀ i v, b.bytes i = some v → i < b.size ∧ s.heap.mem (b.addr + i) = v)
    (hkept : ∀ x, d.addr ≤ x → x < d.stop → heap.mem x = s.heap.mem x) :
    ∀ i v, b.bytes i = some v → i < b.size ∧ heap.mem (b.addr + i) = v := by
  intro i v hi
  obtain ⟨hlt, hv⟩ := hstored i v hi
  obtain ⟨-, haddr, hsize⟩ := hb
  refine ⟨hlt, ?_⟩
  unfold heapStructSize at haddr hsize
  rw [hkept _ (by omega) (by unfold Chunk.stop; omega), hv]

/-- Without a chunk that is large enough nothing is allocated. -/
theorem step_malloc_small (hs : s.Good L cs) {n : UInt32} (hsmall : wantedSize n.toNat = 0 ∨
    ∀ c ∈ cs, c.used = false → c.size < wantedSize n.toNat) :
    s.step L (.malloc n) = .ok (s.withHeap s.heap s.blocks) ∧
      (s.withHeap s.heap s.blocks).Good L cs := by
  constructor
  · show (pvPortMalloc L n.toNat s.heap >>= _ : Except Fault App) = _
    rw [pvPortMalloc_of_small hs.books hsmall]
    rfl
  · have hsame : min s.least s.heap.xFreeBytesRemaining = s.least := Nat.min_eq_left hs.low
    exact ⟨hs.books, hs.block, hs.owner, hs.nodup, hs.stored, hs.least.trans hsame.symm,
      Nat.min_le_right _ _, hs.count⟩

/-- A chunk that is large enough is given to the application. -/
theorem step_malloc_fits (hs : s.Good L (pre ++ c :: post)) {n : UInt32}
    (hn : wantedSize n.toNat ≠ 0) (hc : c.used = false) (hle : wantedSize n.toNat ≤ c.size)
    (hpre : ∀ d ∈ frees pre, d.size < wantedSize n.toNat) :
    ∃ heap, s.step L (.malloc n) =
        .ok (s.withHeap heap (⟨c.addr + 8, n.toNat, fun _ => none⟩ :: s.blocks)) ∧
      (s.withHeap heap (⟨c.addr + 8, n.toNat, fun _ => none⟩ :: s.blocks)).Good L
        (useChunk 16 pre c post (wantedSize n.toNat)) ∧
      ∀ d ∈ pre ++ c :: post, d.used = true → ∀ x, d.addr ≤ x → x < d.stop →
        heap.mem x = s.heap.mem x := by
  obtain ⟨heap, hmalloc, hbooks, hheap, hkept⟩ := pvPortMalloc_of_fits hs.books hn hc hle hpre
  have hspec := (wantedSize_spec n.toNat).resolve_left hn
  have hne : ∀ d ∈ pre ++ c :: post, d.used = true → d ≠ c := by
    rintro d - hused rfl
    exact Bool.noConfusion (hc.symm.trans hused)
  have hnew : (⟨c.addr + 8, n.toNat, fun _ => none⟩ : Block).In
      ⟨c.addr, usedSize 16 c (wantedSize n.toNat), true⟩ := by
    have hused : wantedSize n.toNat ≤ usedSize 16 c (wantedSize n.toNat) := by
      unfold usedSize
      split_ifs
      · exact Nat.le_refl _
      · exact hle
    exact ⟨rfl, rfl, Nat.le_trans hspec.2.1 hused⟩
  refine ⟨heap, ?_, ⟨hbooks, ?_, ?_, ?_, ?_, ?_, Nat.min_le_right _ _, ?_⟩, hkept⟩
  · have hnull : ¬ c.addr + 8 = 0 := by omega
    show (pvPortMalloc L n.toNat s.heap >>= _ : Except Fault App) = _
    rw [hmalloc]
    show Except.ok (s.withHeap heap (if c.addr + 8 = 0 then _ else _)) = _
    rw [if_neg hnull]
  · intro b hb
    rcases List.mem_cons.mp hb with rfl | hb
    · exact ⟨_, (mem_useChunk_of_used rfl).mpr (.inr (.inr rfl)), hnew⟩
    · obtain ⟨d, hd, hin⟩ := hs.block b hb
      refine ⟨d, (mem_useChunk_of_used hin.1).mpr ?_, hin⟩
      rw [← or_assoc]
      exact .inl (beside_of_ne hd (hne d hd hin.1))
  · intro d hd hused
    have hold : d ∈ pre ++ c :: post → ∃ b ∈ s.blocks, b.In d := fun hd => hs.owner d hd hused
    rcases (mem_useChunk_of_used hused).mp hd with hd | hd | rfl
    · obtain ⟨b, hb, hin⟩ := hold (List.mem_append_left _ hd)
      exact ⟨b, List.mem_cons_of_mem _ hb, hin⟩
    · obtain ⟨b, hb, hin⟩ := hold (List.mem_append_right _ (List.mem_cons_of_mem c hd))
      exact ⟨b, List.mem_cons_of_mem _ hb, hin⟩
    · exact ⟨_, List.mem_cons_self, hnew⟩
  · refine List.nodup_cons.mpr ⟨fun hmem => ?_, hs.nodup⟩
    obtain ⟨b, hb, haddr⟩ := List.mem_map.mp hmem
    obtain ⟨d, hd, hused, haddr', -⟩ := hs.block b hb
    have heq : d.addr = c.addr := Nat.add_right_cancel (haddr'.symm.trans haddr)
    exact hne d hd hused (hs.books.headers.tiles.eq_of_addr hd (mem_middle pre c post) heq)
  · intro b hb
    rcases List.mem_cons.mp hb with rfl | hb
    · intro i v hi
      exact absurd hi (Option.some_ne_none v).symm
    · obtain ⟨d, hd, hin⟩ := hs.block b hb
      exact stored_kept hin (hs.stored b hb) (hkept d hd hin.1)
  · have hmin := congrArg Heap.xMinimumEverFreeBytesRemaining hheap
    dsimp only at hmin
    show heap.xMinimumEverFreeBytesRemaining = min s.least heap.xFreeBytesRemaining
    rw [hmin, hs.least, Nat.min_comm]
  · have hallocs := congrArg Heap.xNumberOfSuccessfulAllocations hheap
    have hfrees := congrArg Heap.xNumberOfSuccessfulFrees hheap
    have hcount := hs.count
    dsimp only at hallocs hfrees
    show heap.xNumberOfSuccessfulAllocations =
      heap.xNumberOfSuccessfulFrees + (_ :: s.blocks).length
    rw [hallocs, hfrees, List.length_cons]
    omega

/-- The block with an index has a chunk, and the other blocks have others. -/
theorem chunk_of_getElem (hs : s.Good L cs) {i : ℕ} {b : Block} (hi : s.blocks[i]? = some b) :
    ∃ pre c post, cs = pre ++ c :: post ∧ b.In c ∧
      ∀ j b', s.blocks[j]? = some b' → j ≠ i → ∀ d ∈ cs, b'.In d → d ≠ c := by
  obtain ⟨c, hc, hin⟩ := hs.block b (List.mem_of_getElem? hi)
  obtain ⟨pre, post, rfl⟩ := List.append_of_mem hc
  refine ⟨pre, c, post, rfl, hin, ?_⟩
  intro j b' hj hne d _ hin' heq
  rw [heq] at hin'
  have haddr : (s.blocks.map Block.addr)[j]? = (s.blocks.map Block.addr)[i]? := by
    rw [List.getElem?_map, List.getElem?_map, hi, hj]
    exact congrArg some (hin'.2.1.trans hin.2.1.symm)
  have hlt : j < (s.blocks.map Block.addr).length := by
    rw [List.length_map]
    exact (List.getElem?_eq_some_iff.mp hj).1
  exact hne ((List.getElem?_inj hlt hs.nodup).mp haddr)

theorem step_free (hs : s.Good L cs) {i : ℕ} {b : Block} (hi : s.blocks[i]? = some b) :
    ∃ pre c post heap, cs = pre ++ c :: post ∧ b.In c ∧
      s.step L (.free i) = .ok (s.withHeap heap (s.blocks.eraseIdx i)) ∧
      (s.withHeap heap (s.blocks.eraseIdx i)).Good L (freeChunk pre c post) ∧
      ∀ d ∈ cs, d.used = true → d ≠ c → ∀ x, d.addr ≤ x → x < d.stop →
        heap.mem x = s.heap.mem x := by
  obtain ⟨pre, c, post, rfl, hin, hothers⟩ := chunk_of_getElem hs hi
  obtain ⟨hused, haddr, hsize⟩ := hin
  obtain ⟨heap, hfree, hbooks, hheap, hkept⟩ := vPortFree_eq hs.books hused
  -- the blocks that are left are in other chunks
  have hleft : ∀ b' ∈ s.blocks.eraseIdx i, b' ∈ s.blocks ∧
      ∀ d ∈ pre ++ c :: post, b'.In d → d ≠ c := by
    intro b' hb'
    obtain ⟨j, hj, hj'⟩ := List.mem_eraseIdx_iff_getElem?.mp hb'
    exact ⟨List.mem_of_getElem? hj', hothers j b' hj' hj⟩
  refine ⟨pre, c, post, heap, rfl, ⟨hused, haddr, hsize⟩, ?_,
    ⟨hbooks, ?_, ?_, ?_, ?_, ?_, Nat.min_le_right _ _, ?_⟩, hkept⟩
  · show (match s.blocks[i]? with | none => _ | some b => _ : Except Fault App) = _
    rw [hi]
    show (vPortFree L b.addr s.heap >>= _ : Except Fault App) = _
    rw [haddr, heapStructSize, hfree]
    rfl
  · intro b' hb'
    obtain ⟨hmem, hne⟩ := hleft b' hb'
    obtain ⟨d, hd, hin'⟩ := hs.block b' hmem
    exact ⟨d, (mem_freeChunk_of_used hin'.1).mpr (beside_of_ne hd (hne d hd hin')), hin'⟩
  · intro d hd hdused
    have hd' := (mem_freeChunk_of_used hdused).mp hd
    have hdmem : d ∈ pre ++ c :: post := by
      rcases hd' with hd' | hd'
      · exact List.mem_append_left _ hd'
      · exact List.mem_append_right _ (List.mem_cons_of_mem c hd')
    obtain ⟨b', hb', hin'⟩ := hs.owner d hdmem hdused
    obtain ⟨j, hj⟩ := List.getElem?_of_mem hb'
    refine ⟨b', List.mem_eraseIdx_iff_getElem?.mpr ⟨j, ?_, hj⟩, hin'⟩
    rintro rfl
    have hbb : b' = b := Option.some.inj (hj.symm.trans hi)
    have hne := (addr_ne_of_used hs.books.headers.tiles hd' hdused).1
    rw [hbb] at hin'
    exact hne (Nat.add_right_cancel (hin'.2.1.symm.trans haddr))
  · exact hs.nodup.sublist ((List.eraseIdx_sublist ..).map Block.addr)
  · intro b' hb'
    obtain ⟨hmem, hne⟩ := hleft b' hb'
    obtain ⟨d, hd, hin'⟩ := hs.block b' hmem
    exact stored_kept hin' (hs.stored b' hmem) (hkept d hd hin'.1 (hne d hd hin'))
  · have hmin := congrArg Heap.xMinimumEverFreeBytesRemaining hheap
    have hremaining := congrArg Heap.xFreeBytesRemaining hheap
    have hlow := hs.low
    dsimp only at hmin hremaining
    show heap.xMinimumEverFreeBytesRemaining = min s.least heap.xFreeBytesRemaining
    rw [hmin, hremaining, hs.least]
    omega
  · have hallocs := congrArg Heap.xNumberOfSuccessfulAllocations hheap
    have hfrees := congrArg Heap.xNumberOfSuccessfulFrees hheap
    have hcount := hs.count
    have hlt := (List.getElem?_eq_some_iff.mp hi).1
    dsimp only at hallocs hfrees
    show heap.xNumberOfSuccessfulAllocations =
      heap.xNumberOfSuccessfulFrees + (s.blocks.eraseIdx i).length
    rw [hallocs, hfrees, List.length_eraseIdx_of_lt hlt]
    omega

/-- A header does not notice what is stored in a block. -/
theorem headers_store {mem : ℕ → UInt8} {x : ℕ} {v : UInt8} (hh : Headers L mem cs) (hc : c ∈ cs)
    (hx : c.addr + 8 ≤ x) (hx' : x < c.stop) : Headers L (storeBytes mem x [v]) cs := by
  have hkept : ∀ q, (x < q ∨ q + 8 ≤ x) → next (storeBytes mem x [v]) q = next mem q ∧
      blockSize (storeBytes mem x [v]) q = blockSize mem q := by
    intro q hq
    constructor
    · exact loadNat_congr fun i hi => storeBytes_of_outside (by rw [List.length_singleton]; omega)
    · exact loadNat_congr fun i hi => storeBytes_of_outside (by rw [List.length_singleton]; omega)
  have hchunk : ∀ d ∈ cs, x < d.addr ∨ d.addr + 8 ≤ x := by
    intro d hd
    rcases eq_or_ne d c with rfl | hne
    · exact .inr hx
    · exact outside_header hh hd hc hne (by omega) hx'
  have hstart := hkept L.xStart (outside_xStart hh hc (by omega) hx')
  have hend := hkept L.endAddress (.inl (by
    have hstop := (hh.tiles.bounds hc).2.2
    omega))
  refine ⟨hh.tiles, hh.aligned, fun d hd hused => ?_, ?_, hstart.2.trans hh.start⟩
  · obtain ⟨hnext, hsize⟩ := hkept d.addr (hchunk d hd)
    rw [hnext, hsize]
    exact hh.allocated d hd hused
  · refine hh.freeList.congr (fun q hq => ?_) fun f hf => (hkept _ (hchunk f (mem_frees.mp hf).1)).2
    rcases List.mem_cons.mp hq with rfl | hq
    · exact hstart.1
    · rcases List.mem_append.mp hq with hq | hq
      · obtain ⟨f, hf, rfl⟩ := List.mem_map.mp hq
        exact (hkept _ (hchunk f (mem_frees.mp hf).1)).1
      · rw [List.mem_singleton.mp hq]
        exact hend.1

theorem step_store (hs : s.Good L cs) {i offset : ℕ} {v : UInt8} {b : Block}
    (hi : s.blocks[i]? = some b) (hlt : offset < b.size) :
    ∃ s', s.step L (.store i offset v) = .ok s' ∧ s'.Good L cs ∧
      s'.heap = { s.heap with mem := storeBytes s.heap.mem (b.addr + offset) [v] } ∧
      s'.blocks = s.blocks.set i { b with bytes := Function.update b.bytes offset (some v) } := by
  obtain ⟨pre, c, post, rfl, hin, hothers⟩ := chunk_of_getElem hs hi
  have hcmem := mem_middle pre c post
  obtain ⟨hused, haddr, hsize⟩ := hin
  unfold heapStructSize at haddr hsize
  have hiLt := (List.getElem?_eq_some_iff.mp hi).1
  -- a block of the list is the one stored to or has another index
  have hset : ∀ b' ∈ s.blocks.set i { b with bytes := Function.update b.bytes offset (some v) },
      b' = { b with bytes := Function.update b.bytes offset (some v) } ∨
        ∃ j, j ≠ i ∧ s.blocks[j]? = some b' := by
    intro b' hb'
    obtain ⟨j, hj⟩ := List.getElem?_of_mem hb'
    rcases eq_or_ne j i with rfl | hne
    · rw [List.getElem?_set_self hiLt] at hj
      exact .inl (Option.some.inj hj).symm
    · rw [List.getElem?_set_ne hne.symm] at hj
      exact .inr ⟨j, hne, hj⟩
  have hheaders := headers_store (v := v) hs.books.headers hcmem (x := b.addr + offset) (by omega)
    (by unfold Chunk.stop; omega)
  refine ⟨{ s with
    heap := { s.heap with mem := storeBytes s.heap.mem (b.addr + offset) [v] }
    blocks := s.blocks.set i { b with bytes := Function.update b.bytes offset (some v) } }, ?_,
    ⟨⟨hheaders, hs.books.pxEnd, hs.books.coalesced, hs.books.remaining⟩, fun b' hb' => ?_,
      fun d hd hdused => ?_, ?_, fun b' hb' => ?_, hs.least, hs.low, ?_⟩, rfl, rfl⟩
  · show (match s.blocks[i]? with | none => _ | some b => _ : Except Fault App) = _
    rw [hi]
    show (if offset < b.size then _ else _ : Except Fault App) = _
    rw [if_pos hlt]
    rfl
  · rcases hset b' hb' with rfl | ⟨j, -, hj⟩
    · exact ⟨c, hcmem, hused, haddr, hsize⟩
    · exact hs.block b' (List.mem_of_getElem? hj)
  · obtain ⟨b', hb', hin'⟩ := hs.owner d hd hdused
    obtain ⟨j, hj⟩ := List.getElem?_of_mem hb'
    rcases eq_or_ne j i with rfl | hne
    · have hbb : b' = b := Option.some.inj (hj.symm.trans hi)
      rw [hbb] at hin'
      exact ⟨_, List.mem_iff_getElem?.mpr ⟨j, List.getElem?_set_self hiLt⟩, hin'⟩
    · refine ⟨b', List.mem_iff_getElem?.mpr ⟨j, ?_⟩, hin'⟩
      rw [List.getElem?_set_ne hne.symm]
      exact hj
  · have hsame : (s.blocks.set i { b with bytes := Function.update b.bytes offset (some v) }).map
        Block.addr = s.blocks.map Block.addr := by
      rw [List.map_set]
      refine List.ext_getElem? fun j => ?_
      rcases eq_or_ne j i with rfl | hne
      · rw [List.getElem?_set_self (by rw [List.length_map]; exact hiLt), List.getElem?_map, hi]
        rfl
      · rw [List.getElem?_set_ne hne.symm]
    show ((s.blocks.set i _).map Block.addr).Nodup
    rw [hsame]
    exact hs.nodup
  · rcases hset b' hb' with rfl | ⟨j, hne, hj⟩
    · intro k w hk
      rcases eq_or_ne k offset with rfl | hko
      · have hvw : some v = some w := (Function.update_self k (some v) b.bytes).symm.trans hk
        refine ⟨hlt, ?_⟩
        rw [← Option.some.inj hvw]
        have hinside : storeBytes s.heap.mem (b.addr + k) [v] (b.addr + k + 0) = v :=
          storeBytes_inside Nat.zero_lt_one
        exact hinside
      · have hold : b.bytes k = some w :=
          (Function.update_of_ne hko (some v) b.bytes).symm.trans hk
        obtain ⟨hklt, hkv⟩ := hs.stored b (List.mem_of_getElem? hi) k w hold
        refine ⟨hklt, ?_⟩
        show storeBytes s.heap.mem (b.addr + offset) [v] (b.addr + k) = w
        rw [storeBytes_of_outside (by rw [List.length_singleton]; omega), hkv]
    · have hmem := List.mem_of_getElem? hj
      obtain ⟨d, hd, hin'⟩ := hs.block b' hmem
      refine stored_kept hin' (hs.stored b' hmem) fun x hx hx' => storeBytes_of_outside ?_
      have hapart := (hs.books.headers.tiles.apart hd hcmem).resolve_left
        (hothers j b' hj hne d hd hin')
      unfold Chunk.stop at hapart hx'
      rw [List.length_singleton]
      omega
  · show s.heap.xNumberOfSuccessfulAllocations =
      s.heap.xNumberOfSuccessfulFrees + (s.blocks.set i _).length
    rw [List.length_set]
    exact hs.count

/-- Every call goes through, and all is in order again. -/
theorem good_step (hs : s.Good L cs) (call : Call) :
    ∃ s' cs', s.step L call = .ok s' ∧ s'.Good L cs' := by
  cases call with
  | malloc n =>
    by_cases hn : wantedSize n.toNat = 0
    · exact ⟨_, _, step_malloc_small hs (.inl hn)⟩
    · rcases first_fit cs (wantedSize n.toNat) with hsmall | ⟨pre, c, post, rfl, hc, hle, hpre⟩
      · exact ⟨_, _, step_malloc_small hs (.inr hsmall)⟩
      · obtain ⟨heap, hstep, hgood, -⟩ := step_malloc_fits hs hn hc hle hpre
        exact ⟨_, _, hstep, hgood⟩
  | free i =>
    cases hi : s.blocks[i]? with
    | none =>
      refine ⟨s, cs, ?_, hs⟩
      show (match s.blocks[i]? with | none => _ | some b => _ : Except Fault App) = _
      rw [hi]
      rfl
    | some b =>
      obtain ⟨pre, c, post, heap, -, -, hstep, hgood, -⟩ := step_free hs hi
      exact ⟨_, _, hstep, hgood⟩
  | store i offset v =>
    have hskip : (∀ b, s.blocks[i]? = some b → ¬ offset < b.size) →
        s.step L (.store i offset v) = .ok s := by
      intro hnone
      show (match s.blocks[i]? with | none => _ | some b => _ : Except Fault App) = _
      cases hi : s.blocks[i]? with
      | none => rfl
      | some b => exact if_neg (hnone b hi)
    cases hi : s.blocks[i]? with
    | none =>
      refine ⟨s, cs, hskip fun b hb => ?_, hs⟩
      exact absurd (hi.symm.trans hb) (Option.some_ne_none b).symm
    | some b =>
      by_cases hlt : offset < b.size
      · obtain ⟨s', hstep, hgood, -, -⟩ := step_store (v := v) hs hi hlt
        exact ⟨s', cs, hstep, hgood⟩
      · refine ⟨s, cs, hskip fun b' hb' => ?_, hs⟩
        rwa [Option.some.inj (hb'.symm.trans hi)]

/-! ## Runs from the start -/

theorem step_start_malloc (L : Layout) (mem : ℕ → UInt8) (n : UInt32) :
    (App.start L mem).step L (.malloc n) =
      App.step L ⟨prvHeapInit L (.reset mem), [], L.whole.size⟩ (.malloc n) := by
  show (pvPortMalloc L n.toNat (.reset mem) >>= _ : Except Fault App) =
    (pvPortMalloc L n.toNat (prvHeapInit L (.reset mem)) >>= _ : Except Fault App)
  rw [pvPortMalloc_init]
  rfl

/-- Before the first allocation there are no blocks, and then the heap is initialised. -/
theorem step_start (L : Layout) (mem : ℕ → UInt8) (call : Call) :
    (App.start L mem).step L call = .ok (App.start L mem) ∨ (App.start L mem).step L call =
      App.step L ⟨prvHeapInit L (.reset mem), [], L.whole.size⟩ call := by
  cases call with
  | malloc n => exact .inr (step_start_malloc L mem n)
  | free i => exact .inl rfl
  | store i offset v => exact .inl rfl

theorem reached_step (hs : s.Reached L) (call : Call) :
    ∃ s', s.step L call = .ok s' ∧ s'.Reached L := by
  rcases hs with ⟨mem, rfl⟩ | ⟨cs, hs⟩
  · obtain ⟨s', cs', hstep, hgood⟩ := good_step (good_init L mem) call
    rcases step_start L mem call with hsame | hinit
    · exact ⟨_, hsame, .inl ⟨mem, rfl⟩⟩
    · exact ⟨s', hinit.trans hstep, .inr ⟨cs', hgood⟩⟩
  · obtain ⟨s', cs', hstep, hgood⟩ := good_step hs call
    exact ⟨s', hstep, .inr ⟨cs', hgood⟩⟩

/-- Whatever an application calls, no call goes wrong. -/
theorem run_reached (L : Layout) (mem : ℕ → UInt8) (calls : List Call) :
    ∃ s, run L mem calls = .ok s ∧ s.Reached L := by
  have hrun : ∀ (calls : List Call) (s : App), s.Reached L →
      ∃ s', calls.foldlM (App.step L) s = Except.ok s' ∧ s'.Reached L := by
    intro calls
    induction calls with
    | nil => exact fun s hs => ⟨s, rfl, hs⟩
    | cons call calls ih =>
      intro s hs
      obtain ⟨s', hstep, hs'⟩ := reached_step hs call
      obtain ⟨s'', hcalls, hs''⟩ := ih s' hs'
      refine ⟨s'', ?_, hs''⟩
      rw [List.foldlM_cons, hstep]
      exact hcalls
  exact hrun calls _ (.inl ⟨mem, rfl⟩)

end WLink.Rtos.Heap4
