import WLink.Rtos.Heap4Results
import WLink.Rtos.Memory

/-!
# The heap of the kernel as the heap of its clients

`Rtos.MemCall` leaves open which free block an allocation takes and what is in it. The heap of
`heap_4.c` is one of those: every run of an application over it is a run over that model with the
same pointers, blocks and contents (`run_simulated`). What a new block holds is stored there by the
simulating run.
-/

namespace WLink.Rtos.Heap4

open Lib

variable {L : Layout} {s : App} {cs pre post : List Chunk} {c : Chunk} {m : Client}

/-- The client has the same pointers, its heap the same blocks, and they hold the same. -/
structure Simulates (m : Client) (s : App) (cs : List Chunk) : Prop where
  books : HeapBooks m.heap
  owned : m.owned = s.blocks.map fun b => (b.addr, b.size)
  live : ∀ x, x ∈ m.heap.live ↔
    ∃ b ∈ s.blocks, ∃ c ∈ cs, b.In c ∧ x = ⟨b.addr, b.size, c.size⟩
  holds : ∀ c ∈ cs, c.used = true → ∀ x, c.addr + 8 ≤ x → x < c.stop →
    m.heap.mem x = s.heap.mem x

/-- A block of the client's heap is that of a used chunk. -/
theorem Simulates.chunk (hm : Simulates m s cs) {x : HeapBlock} (hx : x ∈ m.heap.live) :
    ∃ c ∈ cs, c.used = true ∧ x.addr = c.addr + 8 ∧ x.total = c.size := by
  obtain ⟨b, -, c, hc, hin, rfl⟩ := (hm.live x).mp hx
  exact ⟨c, hc, hin.1, hin.2.1, rfl⟩

/-! ## Stores -/

/-- What is stored at the addresses, one after the other. -/
def storeAll (mem : ℕ → UInt8) (as : List ℕ) : List MemCall := as.map fun a => .store a (mem a)

/-- Stores beside the headers change nothing but the bytes there. -/
theorem foldl_storeAll (mem : ℕ → UInt8) (as : List ℕ) (m : Client) (hbooks : HeapBooks m.heap)
    (has : ∀ a ∈ as, m.heap.InNoHeader a) :
    ∃ mem', (storeAll mem as).foldl MemCall.step m = ⟨⟨mem', m.heap.live⟩, m.owned⟩ ∧
      HeapBooks ⟨mem', m.heap.live⟩ ∧ (∀ x ∈ as, mem' x = mem x) ∧
      ∀ x, x ∉ as → mem' x = m.heap.mem x := by
  induction as generalizing m with
  | nil => exact ⟨m.heap.mem, rfl, hbooks, nofun, fun _ _ => rfl⟩
  | cons a as ih =>
    have ha := has a List.mem_cons_self
    have hstep : MemCall.step m (.store a (mem a)) =
        { m with heap := { m.heap with mem := storeBytes m.heap.mem a [mem a] } } := if_pos ha
    obtain ⟨mem', hrun, hbooks', hin, hout⟩ := ih (MemCall.step m (.store a (mem a)))
      (by rw [hstep]; exact books_store hbooks ha) fun b hb => by
        rw [hstep]
        exact has b (List.mem_cons_of_mem a hb)
    rw [hstep] at hrun hout hbooks'
    refine ⟨mem', ?_, hbooks', fun x hx => ?_, fun x hx => ?_⟩
    · rw [← hrun, ← hstep]
      rfl
    · by_cases hxas : x ∈ as
      · exact hin x hxas
      · have hxa : x = a := (List.mem_cons.mp hx).resolve_right hxas
        rw [hout x hxas, hxa]
        have hinside : storeBytes m.heap.mem a [mem a] (a + 0) = mem a :=
          storeBytes_inside Nat.zero_lt_one
        exact hinside
    · obtain ⟨hxa, hxas⟩ := not_or.mp fun h => hx (List.mem_cons.mpr h)
      rw [hout x hxas]
      exact storeBytes_of_outside (by rw [List.length_singleton]; omega)

/-- The payload of a chunk is beside the headers of the used ones. -/
theorem inNoHeader_of_chunk {h : Rtos.Heap} (hh : Headers L s.heap.mem cs)
    (hlive : ∀ x ∈ h.live, ∃ d ∈ cs, x.addr = d.addr + 8) (hc : c ∈ cs) {a : ℕ}
    (ha : c.addr + 8 ≤ a) (ha' : a < c.stop) : h.InNoHeader a := by
  intro x hx
  obtain ⟨d, hd, haddr⟩ := hlive x hx
  have hpos := (hh.tiles.bounds hd).2.1
  have haligned := (hh.aligned d hd).2
  rcases hh.tiles.apart hc hd with rfl | h | h
  · exact .inr (by omega)
  · exact .inl (by omega)
  · unfold Chunk.stop at h
    exact .inr (by omega)

/-! ## Steps -/

/-- The allocation is made at the place of the chunk, and then the client stores what the chunk
holds. -/
theorem simulates_malloc {heap : Heap} {n : UInt32} (hs : s.Good L (pre ++ c :: post))
    (hm : Simulates m s (pre ++ c :: post)) (hn : wantedSize n.toNat ≠ 0) (hc : c.used = false)
    (hle : wantedSize n.toNat ≤ c.size)
    (hgood : (s.withHeap heap (⟨c.addr + 8, n.toNat, fun _ => none⟩ :: s.blocks)).Good L
      (useChunk 16 pre c post (wantedSize n.toNat)))
    (hkept : ∀ d ∈ pre ++ c :: post, d.used = true → ∀ x, d.addr ≤ x → x < d.stop →
      heap.mem x = s.heap.mem x) :
    ∃ place as, Simulates ((.malloc n place :: storeAll heap.mem as).foldl MemCall.step m)
      (s.withHeap heap (⟨c.addr + 8, n.toNat, fun _ => none⟩ :: s.blocks))
      (useChunk 16 pre c post (wantedSize n.toNat)) := by
  have hcmem := mem_middle pre c post
  have hspec := (wantedSize_spec n.toNat).resolve_left hn
  have hcaligned := (hs.books.headers.aligned c hcmem).1
  have hsize := size_lt hs.books.headers hcmem
  obtain ⟨-, -, hlow, -, hhigh⟩ := L.addresses
  have hheap := L.heap
  have hcbounds := hs.books.headers.tiles.bounds hcmem
  unfold Chunk.stop at hcbounds
  generalize hu : usedSize 16 c (wantedSize n.toNat) = used
  have hused : wantedSize n.toNat ≤ used ∧ used ≤ c.size := by
    rw [← hu]
    unfold usedSize
    split_ifs
    · exact ⟨Nat.le_refl _, hle⟩
    · exact ⟨hle, Nat.le_refl _⟩
  have hne : ∀ d ∈ pre ++ c :: post, d.used = true → d ≠ c := by
    rintro d - hdused rfl
    exact Bool.noConfusion (hc.symm.trans hdused)
  have hfits : m.heap.Fits n.toNat ⟨c.addr + 8, used⟩ := by
    unfold allocatedBitmask at hsize
    refine ⟨hspec.1, by dsimp only; omega, by dsimp only; omega, by dsimp only; omega,
      by dsimp only; omega, by dsimp only; omega, fun x hx => ?_⟩
    obtain ⟨d, hd, hdused, haddr, htotal⟩ := hm.chunk hx
    have hapart := (hs.books.headers.tiles.apart hcmem hd).resolve_left (hne d hd hdused).symm
    unfold Chunk.stop at hapart
    rw [haddr, htotal]
    dsimp only
    omega
  have hstep : MemCall.step m (.malloc n (some ⟨c.addr + 8, used⟩)) =
      ⟨(Rtos.pvPortMalloc (some ⟨c.addr + 8, used⟩) n.toNat m.heap).2,
        (c.addr + 8, n.toNat) :: m.owned⟩ := by
    show m.push (memMalloc _ n m.heap) n = _
    unfold memMalloc Client.push
    rw [Rtos.pvPortMalloc_of_fits hfits, if_neg (Nat.succ_ne_zero _)]
  have hbooks := books_malloc hm.books hfits
  rw [Rtos.pvPortMalloc_of_fits hfits] at hstep hbooks
  dsimp only at hstep hbooks
  have hnew : (⟨c.addr, used, true⟩ : Chunk) ∈ useChunk 16 pre c post (wantedSize n.toNat) :=
    (mem_useChunk_of_used rfl).mpr (.inr (.inr (by rw [hu])))
  have hlive : ∀ x ∈ (⟨c.addr + 8, n.toNat, used⟩ : HeapBlock) :: m.heap.live,
      ∃ d ∈ useChunk 16 pre c post (wantedSize n.toNat), x.addr = d.addr + 8 := by
    intro x hx
    rcases List.mem_cons.mp hx with rfl | hx
    · exact ⟨_, hnew, rfl⟩
    · obtain ⟨d, hd, hdused, haddr, -⟩ := hm.chunk hx
      refine ⟨d, (mem_useChunk_of_used hdused).mpr ?_, haddr⟩
      rw [← or_assoc]
      exact .inl (beside_of_ne hd (hne d hd hdused))
  -- what the chunk holds is stored there
  obtain ⟨mem', hrun, hbooks', hin, hout⟩ := foldl_storeAll heap.mem
    ((List.range (used - 8)).map (c.addr + 8 + ·))
    ⟨⟨storeNat 4 (storeNat 4 m.heap.mem (c.addr + 8 - 8) 0) (c.addr + 8 - 4) (2 ^ 31 + used),
      ⟨c.addr + 8, n.toNat, used⟩ :: m.heap.live⟩, (c.addr + 8, n.toNat) :: m.owned⟩
    hbooks fun a ha => by
      obtain ⟨i, hi, rfl⟩ := List.mem_map.mp ha
      have hlt := List.mem_range.mp hi
      exact inNoHeader_of_chunk hgood.books.headers hlive hnew (Nat.le_add_right _ _)
        (by unfold Chunk.stop; dsimp only; omega)
  dsimp only at hrun hbooks' hout
  refine ⟨some ⟨c.addr + 8, used⟩, (List.range (used - 8)).map (c.addr + 8 + ·), ?_⟩
  rw [List.foldl_cons, hstep, hrun]
  -- a used chunk is the new one or one from before, which is apart from it
  have hcases : ∀ d ∈ useChunk 16 pre c post (wantedSize n.toNat), d.used = true →
      d = ⟨c.addr, used, true⟩ ∨ d ∈ pre ++ c :: post := by
    intro d hd hdused
    rcases (mem_useChunk_of_used hdused).mp hd with hd | hd | rfl
    · exact .inr (List.mem_append_left _ hd)
    · exact .inr (List.mem_append_right _ (List.mem_cons_of_mem c hd))
    · exact .inl (by rw [hu])
  refine ⟨hbooks', ?_, fun x => ⟨fun hx => ?_, ?_⟩, fun d hd hdused x hx hx' => ?_⟩
  · exact congrArg _ hm.owned
  · rcases List.mem_cons.mp hx with rfl | hx
    · exact ⟨_, List.mem_cons_self, _, hnew, ⟨rfl, rfl, Nat.le_trans hspec.2.1 hused.1⟩, rfl⟩
    · obtain ⟨b, hb, d, hd, hbd, rfl⟩ := (hm.live x).mp hx
      refine ⟨b, List.mem_cons_of_mem _ hb, d, (mem_useChunk_of_used hbd.1).mpr ?_, hbd, rfl⟩
      rw [← or_assoc]
      exact .inl (beside_of_ne hd (hne d hd hbd.1))
  · rintro ⟨b, hb, d, hd, hbd, rfl⟩
    rcases List.mem_cons.mp hb with rfl | hb
    · have haddr : d.addr = c.addr := (Nat.add_right_cancel hbd.2.1).symm
      have hdnew := hgood.books.headers.tiles.eq_of_addr hd hnew haddr
      rw [hdnew]
      exact List.mem_cons_self
    · refine List.mem_cons_of_mem _ ((hm.live _).mpr ⟨b, hb, d, ?_, hbd, rfl⟩)
      refine (hcases d hd hbd.1).resolve_left fun hdnew => ?_
      obtain ⟨d', hd', hbd'⟩ := hs.block b hb
      have haddr : d'.addr = c.addr := by
        refine Nat.add_right_cancel (hbd'.2.1.symm.trans (hbd.2.1.trans ?_))
        rw [hdnew]
      exact hne d' hd' hbd'.1 (hs.books.headers.tiles.eq_of_addr hd' hcmem haddr)
  · rcases hcases d hd hdused with rfl | hd'
    · refine hin x (List.mem_map.mpr ⟨x - (c.addr + 8), List.mem_range.mpr ?_, ?_⟩)
      · unfold Chunk.stop at hx'
        dsimp only at hx hx'
        omega
      · dsimp only at hx
        omega
    · have hapart := (hs.books.headers.tiles.apart hd' hcmem).resolve_left (hne d hd' hdused)
      unfold Chunk.stop at hapart
      have hx'' := hx'
      unfold Chunk.stop at hx''
      show mem' x = heap.mem x
      rw [hout x, hkept d hd' hdused x (by omega) hx', ← hm.holds d hd' hdused x hx hx',
        storeNat_of_outside (by omega), storeNat_of_outside (by omega)]
      rintro hmem
      obtain ⟨i, hi, rfl⟩ := List.mem_map.mp hmem
      have hlt := List.mem_range.mp hi
      omega

/-- The block is freed. -/
theorem simulates_free {heap : Heap} {i : ℕ} {b : Block} (hs : s.Good L (pre ++ c :: post))
    (hm : Simulates m s (pre ++ c :: post)) (hi : s.blocks[i]? = some b) (hin : b.In c)
    (hkept : ∀ d ∈ pre ++ c :: post, d.used = true → d ≠ c → ∀ x, d.addr ≤ x → x < d.stop →
      heap.mem x = s.heap.mem x) :
    Simulates (MemCall.step m (.free i)) (s.withHeap heap (s.blocks.eraseIdx i))
      (freeChunk pre c post) := by
  have hcmem := mem_middle pre c post
  obtain ⟨hused, haddr, hsize⟩ := hin
  have hblock : (⟨b.addr, b.size, c.size⟩ : HeapBlock) ∈ m.heap.live :=
    (hm.live _).mpr ⟨b, List.mem_of_getElem? hi, c, hcmem, ⟨hused, haddr, hsize⟩, rfl⟩
  have howned : m.owned[i]? = some (b.addr, b.size) := by
    rw [hm.owned, List.getElem?_map, hi]
    rfl
  have hstep : MemCall.step m (.free i) = ⟨memFree b.addr m.heap, m.owned.eraseIdx i⟩ := by
    simp only [MemCall.step, howned]
  have hfree := memFree_of_mem hm.books hblock
  rw [hstep]
  -- the blocks that are left are those at other addresses
  have hleft : ∀ b', b' ∈ s.blocks.eraseIdx i ↔ b' ∈ s.blocks ∧ b'.addr ≠ b.addr := by
    intro b'
    constructor
    · intro hb'
      obtain ⟨j, hj, hj'⟩ := List.mem_eraseIdx_iff_getElem?.mp hb'
      refine ⟨List.mem_of_getElem? hj', fun heq => hj ?_⟩
      have hlt : j < (s.blocks.map Block.addr).length := by
        rw [List.length_map]
        exact (List.getElem?_eq_some_iff.mp hj').1
      refine (List.getElem?_inj hlt hs.nodup).mp ?_
      rw [List.getElem?_map, List.getElem?_map, hi, hj']
      exact congrArg some heq
    · rintro ⟨hb', hne⟩
      obtain ⟨j, hj⟩ := List.getElem?_of_mem hb'
      refine List.mem_eraseIdx_iff_getElem?.mpr ⟨j, ?_, hj⟩
      rintro rfl
      rw [Option.some.inj (hj.symm.trans hi)] at hne
      exact hne rfl
  have hbeside : ∀ b' : Block, ∀ d : Chunk, b'.In d → b'.addr ≠ b.addr → d ≠ c := by
    rintro b' d hbd hne rfl
    exact hne (hbd.2.1.trans haddr.symm)
  refine ⟨?_, ?_, fun x => ?_, fun d hd hdused x hx hx' => ?_⟩
  · exact books_free hm.books hblock
  · show m.owned.eraseIdx i = (s.blocks.eraseIdx i).map _
    rw [hm.owned, List.eraseIdx_map]
  · rw [hfree]
    show x ∈ m.heap.live.filter _ ↔ _
    rw [List.mem_filter, decide_eq_true_iff, hm.live]
    constructor
    · rintro ⟨⟨b', hb', d, hd, hbd, rfl⟩, hne⟩
      exact ⟨b', (hleft b').mpr ⟨hb', hne⟩, d,
        (mem_freeChunk_of_used hbd.1).mpr (beside_of_ne hd (hbeside b' d hbd hne)), hbd, rfl⟩
    · rintro ⟨b', hb', d, hd, hbd, rfl⟩
      obtain ⟨hb', hne⟩ := (hleft b').mp hb'
      refine ⟨⟨b', hb', d, ?_, hbd, rfl⟩, hne⟩
      rcases (mem_freeChunk_of_used hbd.1).mp hd with hd | hd
      · exact List.mem_append_left _ hd
      · exact List.mem_append_right _ (List.mem_cons_of_mem c hd)
  · have hd' := (mem_freeChunk_of_used hdused).mp hd
    have hdmem : d ∈ pre ++ c :: post := by
      rcases hd' with hd' | hd'
      · exact List.mem_append_left _ hd'
      · exact List.mem_append_right _ (List.mem_cons_of_mem c hd')
    have hdc : d ≠ c := fun heq =>
      (addr_ne_of_used hs.books.headers.tiles hd' hdused).1 (congrArg Chunk.addr heq)
    have hapart := (hs.books.headers.tiles.apart hdmem hcmem).resolve_left hdc
    have hcpos := (hs.books.headers.tiles.bounds hcmem).2.1
    have hcaligned := (hs.books.headers.aligned c hcmem).2
    unfold heapStructSize at haddr
    have hx'' := hx'
    unfold Chunk.stop at hapart hx''
    rw [hfree]
    show storeNat 4 m.heap.mem (b.addr - 4) _ x = heap.mem x
    rw [storeNat_of_outside (by omega), hm.holds d hdmem hdused x hx hx',
      hkept d hdmem hdused hdc x (by omega) hx']

/-- The client stores the same byte. -/
theorem simulates_store {s' : App} {i offset : ℕ} {v : UInt8} {b : Block} (hs : s.Good L cs)
    (hm : Simulates m s cs) (hi : s.blocks[i]? = some b) (hlt : offset < b.size)
    (hheap : s'.heap = { s.heap with mem := storeBytes s.heap.mem (b.addr + offset) [v] })
    (hblocks : s'.blocks =
      s.blocks.set i { b with bytes := Function.update b.bytes offset (some v) }) :
    Simulates (MemCall.step m (.store (b.addr + offset) v)) s' cs := by
  obtain ⟨c, hc, hused, haddr, hsize⟩ := hs.block b (List.mem_of_getElem? hi)
  unfold heapStructSize at haddr hsize
  have hroom : m.heap.InNoHeader (b.addr + offset) := by
    refine inNoHeader_of_chunk hs.books.headers (fun x hx => ?_) hc (by omega)
      (by unfold Chunk.stop; omega)
    obtain ⟨d, hd, -, hxd, -⟩ := hm.chunk hx
    exact ⟨d, hd, hxd⟩
  have hstep : MemCall.step m (.store (b.addr + offset) v) =
      { m with heap := { m.heap with mem := storeBytes m.heap.mem (b.addr + offset) [v] } } :=
    if_pos hroom
  -- the blocks are at the same places with the same sizes
  have hmap : ∀ {α : Type} (f : ℕ → ℕ → α),
      s'.blocks.map (fun b => f b.addr b.size) = s.blocks.map fun b => f b.addr b.size := by
    intro α f
    rw [hblocks, List.map_set]
    refine List.ext_getElem? fun j => ?_
    rcases eq_or_ne j i with rfl | hne
    · rw [List.getElem?_set_self (by
        rw [List.length_map]
        exact (List.getElem?_eq_some_iff.mp hi).1), List.getElem?_map, hi]
      rfl
    · rw [List.getElem?_set_ne hne.symm]
  rw [hstep]
  refine ⟨books_store hm.books hroom, ?_, fun x => ?_, fun d hd hdused x hx hx' => ?_⟩
  · show m.owned = _
    rw [hm.owned, hmap Prod.mk]
  · show x ∈ m.heap.live ↔ _
    have hsame : ∀ {P : ℕ → ℕ → Prop}, (∃ b ∈ s'.blocks, P b.addr b.size) ↔
        ∃ b ∈ s.blocks, P b.addr b.size := by
      intro P
      have hlist := hmap Prod.mk
      constructor
      · rintro ⟨b', hb', hP⟩
        have hin := List.mem_map_of_mem (f := fun b : Block => (b.addr, b.size)) hb'
        rw [hlist] at hin
        obtain ⟨b'', hb'', heq⟩ := List.mem_map.mp hin
        obtain ⟨h1, h2⟩ := Prod.mk.inj heq
        exact ⟨b'', hb'', by rwa [h1, h2]⟩
      · rintro ⟨b', hb', hP⟩
        have hin := List.mem_map_of_mem (f := fun b : Block => (b.addr, b.size)) hb'
        rw [← hlist] at hin
        obtain ⟨b'', hb'', heq⟩ := List.mem_map.mp hin
        obtain ⟨h1, h2⟩ := Prod.mk.inj heq
        exact ⟨b'', hb'', by rwa [h1, h2]⟩
    rw [hm.live]
    exact (hsame (P := fun addr size => ∃ c ∈ cs, (c.used = true ∧ addr = c.addr + heapStructSize ∧
      size + heapStructSize ≤ c.size) ∧ x = ⟨addr, size, c.size⟩)).symm
  · rw [hheap]
    show storeBytes m.heap.mem _ _ x = storeBytes s.heap.mem _ _ x
    have hold := hm.holds d hd hdused x hx hx'
    unfold storeBytes
    rw [hold]

/-! ## Runs -/

/-- What the client calls for a call of the application: the same, and stores in a new block. -/
def Call.As : Call → List MemCall → Prop
  | .malloc n, calls => ∃ place stores, calls = .malloc n place :: stores ∧
      ∀ call ∈ stores, ∃ a v, call = .store a v
  | .free i, calls => calls = [.free i]
  | .store _ _ v, calls => calls = [] ∨ ∃ a, calls = [.store a v]

/-- Nothing has been allocated in either, or the one has what the other has. -/
def Follows (L : Layout) (m : Client) (s : App) : Prop :=
  (∃ mem, s = App.start L mem ∧ m = Client.reset mem) ∨ ∃ cs, s.Good L cs ∧ Simulates m s cs

theorem simulates_step (hs : s.Good L cs) (hm : Simulates m s cs) (call : Call) :
    ∃ s' cs' calls, s.step L call = .ok s' ∧ s'.Good L cs' ∧ call.As calls ∧
      Simulates (calls.foldl MemCall.step m) s' cs' := by
  cases call with
  | malloc n =>
    by_cases hroom : wantedSize n.toNat ≠ 0 ∧ ∃ c ∈ cs, c.used = false ∧ wantedSize n.toNat ≤ c.size
    · obtain ⟨hn, d, hd, hdfree, hdle⟩ := hroom
      obtain ⟨pre, c, post, rfl, hc, hle, hpre⟩ := (first_fit cs (wantedSize n.toNat)).resolve_left
        fun hnone => Nat.not_lt_of_le hdle (hnone d hd hdfree)
      obtain ⟨heap, hstep, hgood, hkept⟩ := step_malloc_fits hs hn hc hle hpre
      obtain ⟨place, as, hsim⟩ := simulates_malloc hs hm hn hc hle hgood hkept
      refine ⟨_, _, _, hstep, hgood, ⟨place, _, rfl, fun call hcall => ?_⟩, hsim⟩
      obtain ⟨a, -, rfl⟩ := List.mem_map.mp hcall
      exact ⟨a, heap.mem a, rfl⟩
    · obtain ⟨hstep, hgood⟩ := step_malloc_small hs (n := n) <|
        or_iff_not_imp_left.mpr fun hn c hc hfree => Nat.not_le.mp fun hle =>
          hroom ⟨hn, c, hc, hfree, hle⟩
      exact ⟨_, cs, [.malloc n none], hstep, hgood, ⟨none, [], rfl, fun _ hcall =>
        absurd hcall List.not_mem_nil⟩,
        hm.books, hm.owned, hm.live, hm.holds⟩
  | free i =>
    cases hi : s.blocks[i]? with
    | none =>
      refine ⟨s, cs, [.free i], ?_, hs, rfl, ?_⟩
      · simp only [App.step, hi]
        rfl
      · have howned : m.owned[i]? = none := by
          rw [hm.owned, List.getElem?_map, hi]
          rfl
        have hskip : MemCall.step m (.free i) = m := by
          simp only [MemCall.step, howned]
        rw [List.foldl_cons, List.foldl_nil, hskip]
        exact hm
    | some b =>
      obtain ⟨pre, c, post, heap, rfl, hin, hstep, hgood, hkept⟩ := step_free hs hi
      exact ⟨_, _, [.free i], hstep, hgood, rfl, simulates_free hs hm hi hin hkept⟩
  | store i offset v =>
    by_cases hroom : ∃ b, s.blocks[i]? = some b ∧ offset < b.size
    · obtain ⟨b, hi, hlt⟩ := hroom
      obtain ⟨s', hstep, hgood, hheap, hblocks⟩ := step_store (v := v) hs hi hlt
      exact ⟨s', cs, [.store (b.addr + offset) v], hstep, hgood, .inr ⟨_, rfl⟩,
        simulates_store hs hm hi hlt hheap hblocks⟩
    · refine ⟨s, cs, [], ?_, hs, .inl rfl, hm⟩
      cases hi : s.blocks[i]? with
      | none =>
        simp only [App.step, hi]
        rfl
      | some b =>
        have hlt : ¬ offset < b.size := fun hlt => hroom ⟨b, hi, hlt⟩
        simp only [App.step, hi, if_neg hlt]
        rfl

theorem follows_step (hm : Follows L m s) (call : Call) :
    ∃ s' calls, s.step L call = .ok s' ∧ call.As calls ∧
      Follows L (calls.foldl MemCall.step m) s' := by
  rcases hm with ⟨mem, rfl, rfl⟩ | ⟨cs, hs, hm⟩
  · cases call with
    | malloc n =>
      -- this allocation initialises the heap
      have hm : Simulates (Client.reset mem) ⟨prvHeapInit L (.reset mem), [], L.whole.size⟩
          [L.whole] := by
        refine ⟨⟨nofun, nofun, nofun⟩, rfl, fun x => iff_of_false nofun nofun, fun c hc hused => ?_⟩
        rw [List.mem_singleton.mp hc] at hused
        exact Bool.noConfusion hused
      obtain ⟨s', cs', calls, hstep, hgood, has, hm'⟩ :=
        simulates_step (good_init L mem) hm (.malloc n)
      exact ⟨s', calls, (step_start_malloc L mem n).trans hstep, has, .inr ⟨cs', hgood, hm'⟩⟩
    | free i => exact ⟨_, [.free i], rfl, rfl, .inl ⟨mem, rfl, rfl⟩⟩
    | store i offset v => exact ⟨_, [], rfl, .inl rfl, .inl ⟨mem, rfl, rfl⟩⟩
  · obtain ⟨s', cs', calls, hstep, hgood, has, hm'⟩ := simulates_step hs hm call
    exact ⟨s', calls, hstep, has, .inr ⟨cs', hgood, hm'⟩⟩

/-- Every run over `heap_4.c` is one over the heap that leaves the places open: the client makes the
same calls at some places, and then it has the same pointers, the heap the same blocks, and they hold
the same. -/
theorem run_simulated (L : Layout) (mem : ℕ → UInt8) (calls : List Call) :
    ∃ s groups, run L mem calls = .ok s ∧ List.Forall₂ Call.As calls groups ∧
      let m := groups.flatten.foldl MemCall.step (Client.reset mem)
      m.owned = s.blocks.map (fun b => (b.addr, b.size)) ∧
      (∀ x, x ∈ m.heap.live ↔ ∃ b ∈ s.blocks, x = ⟨b.addr, b.size, s.heap.total b⟩) ∧
      ∀ b ∈ s.blocks, ∀ i < b.size, m.heap.mem (b.addr + i) = s.heap.mem (b.addr + i) := by
  have hrun : ∀ (calls : List Call) (m : Client) (s : App), Follows L m s →
      ∃ s' groups, calls.foldlM (App.step L) s = Except.ok s' ∧ List.Forall₂ Call.As calls groups ∧
        Follows L (groups.flatten.foldl MemCall.step m) s' := by
    intro calls
    induction calls with
    | nil => exact fun m s hm => ⟨s, [], rfl, .nil, hm⟩
    | cons call calls ih =>
      intro m s hm
      obtain ⟨s', group, hstep, has, hm'⟩ := follows_step hm call
      obtain ⟨s'', groups, hcalls, hall, hm''⟩ := ih _ s' hm'
      refine ⟨s'', group :: groups, ?_, .cons has hall, ?_⟩
      · rw [List.foldlM_cons, hstep]
        exact hcalls
      · rw [List.flatten_cons, List.foldl_append]
        exact hm''
  obtain ⟨s, groups, hcalls, hall, hm⟩ := hrun calls _ _ (.inl ⟨mem, rfl, rfl⟩)
  refine ⟨s, groups, hcalls, hall, ?_⟩
  dsimp only
  rcases hm with ⟨mem', rfl, hreset⟩ | ⟨cs, hs, hm⟩
  · rw [hreset]
    exact ⟨rfl, fun x => iff_of_false nofun nofun, nofun⟩
  · refine ⟨hm.owned, fun x => ?_, fun b hb i hi => ?_⟩
    · rw [hm.live]
      refine exists_congr fun b => and_congr_right fun hb => ⟨?_, ?_⟩
      · rintro ⟨c, hc, hin, rfl⟩
        rw [(total_of_in hs hc hin).2]
      · rintro rfl
        obtain ⟨c, hc, hin⟩ := hs.block b hb
        exact ⟨c, hc, hin, by rw [(total_of_in hs hc hin).2]⟩
    · obtain ⟨c, hc, hused, haddr, hsize⟩ := hs.block b hb
      unfold heapStructSize at haddr hsize
      exact hm.holds c hc hused _ (by omega) (by unfold Chunk.stop; omega)

end WLink.Rtos.Heap4
