import WLink.Lib.Memory
import WLink.Lib.Run

/-!
# `mem_Malloc`, `mem_Realloc` and `mem_Free`

The three functions over the heap of the kernel, which keeps in front of every block a header with
its size and a bit that says whether the application has it. Which free block `pvPortMalloc` takes
is up to the event; what it and `vPortFree` do to the header is as in `heap_4.c`. A client calls
the functions with the pointers that it has got from them, and stores bytes.

`ReallocSpec` is what a reallocation is for. `mem_Realloc` meets it only by failing
(`reallocs_right_iff`): it takes the pointer for one behind a header of its own, which
`mem_Malloc` does not write, and frees another address than the one it has been given.
-/

namespace WLink.Rtos

open Lib

/-! ## The heap -/

/-- A block in the hands of the application: its address, the size asked for, and the size with the
header. -/
structure HeapBlock where
  addr : ℕ
  size : ℕ
  total : ℕ
deriving DecidableEq, Repr

/-- The memory, and the blocks that the application has. -/
structure Heap where
  mem : ℕ → UInt8
  live : List HeapBlock

/-- A free block that `pvPortMalloc` may take: the address behind the header, and `xBlockSize`. -/
structure Place where
  addr : ℕ
  total : ℕ
deriving DecidableEq, Repr

/-- The place is behind a header (`xHeapStructSize` is 8), aligned, large enough and free. -/
def Heap.Fits (h : Heap) (n : ℕ) (p : Place) : Prop :=
  0 < n ∧ 8 ≤ p.addr ∧ p.addr % 8 = 0 ∧ n + 8 ≤ p.total ∧ p.total < 2 ^ 31 ∧
    p.addr + p.total ≤ 2 ^ 32 ∧
    ∀ b ∈ h.live, p.addr + p.total ≤ b.addr ∨ b.addr + b.total ≤ p.addr

instance (h : Heap) (n : ℕ) (p : Place) : Decidable (h.Fits n p) :=
  inferInstanceAs (Decidable (_ ∧ _))

/-- `pvPortMalloc`: the header gets no next block, and its size with `heapBLOCK_ALLOCATED_BITMASK`.
0 is `NULL`. -/
def pvPortMalloc (place : Option Place) (n : ℕ) (h : Heap) : ℕ × Heap :=
  match place with
  | none => (0, h)
  | some p =>
    if h.Fits n p then
      (p.addr, {
        mem := storeNat 4 (storeNat 4 h.mem (p.addr - 8) 0) (p.addr - 4) (2 ^ 31 + p.total)
        live := ⟨p.addr, n, p.total⟩ :: h.live })
    else (0, h)

/-- The header before the address says that the application has the block. -/
def Heap.Marked (h : Heap) (pv : ℕ) : Prop :=
  2 ^ 31 ≤ loadNat 4 h.mem (pv - 4) ∧ loadNat 4 h.mem (pv - 8) = 0

instance (h : Heap) (pv : ℕ) : Decidable (h.Marked pv) := inferInstanceAs (Decidable (_ ∧ _))

/-- `vPortFree`: an address without such a header is an assertion failure, or else ignored. -/
def vPortFree (pv : ℕ) (h : Heap) : Heap :=
  if pv = 0 then h
  else if h.Marked pv then
    { mem := storeNat 4 h.mem (pv - 4) (loadNat 4 h.mem (pv - 4) - 2 ^ 31)
      live := h.live.filter fun b => b.addr ≠ pv }
  else h

/-! ## The functions -/

def memMalloc (place : Option Place) (n : UInt32) (h : Heap) : ℕ × Heap :=
  pvPortMalloc place n.toNat h

def memFree (pMem : ℕ) (h : Heap) : Heap := vPortFree pMem h

/-- `mem_Realloc`; `sizeof(size_t)` is 4. -/
def memRealloc (place : Option Place) (pMem : ℕ) (newSize : UInt32) (h : Heap) : ℕ × Heap :=
  if pMem = 0 then memMalloc place newSize h
  else if newSize = 0 then (0, memFree pMem h)
  else
    let oldRaw := pMem - 4
    let oldSize := loadNat 4 h.mem oldRaw
    let (newRaw, h) := pvPortMalloc place (newSize + 4).toNat h
    if newRaw = 0 then (0, h)
    else
      let mem := copyBytes h.mem (newRaw + 4) pMem (min newSize.toNat oldSize)
      let mem := storeNat 4 mem newRaw newSize.toNat
      (newRaw + 4, vPortFree oldRaw { h with mem })

/-! ## Clients -/

/-- The heap, and the pointers that the client has with the sizes it has asked for. -/
structure Client where
  heap : Heap
  owned : List (ℕ × ℕ)

/-- Nothing is allocated; the memory holds anything. -/
def Client.reset (mem : ℕ → UInt8) : Client := ⟨⟨mem, []⟩, []⟩

/-- A call, with the index of the pointer among those that the client has, or a store. -/
inductive MemCall
  | malloc (n : UInt32) (place : Option Place)
  | realloc (i : ℕ) (n : UInt32) (place : Option Place)
  | free (i : ℕ)
  | store (a : ℕ) (v : UInt8)

/-- A new pointer is added if there is one. -/
def Client.push (s : Client) (r : ℕ × Heap) (n : UInt32) : Client :=
  ⟨r.2, if r.1 = 0 then s.owned else (r.1, n.toNat) :: s.owned⟩

/-- The address is none of a header. -/
def Heap.InNoHeader (h : Heap) (a : ℕ) : Prop := ∀ b ∈ h.live, a + 8 < b.addr ∨ b.addr ≤ a

instance (h : Heap) (a : ℕ) : Decidable (h.InNoHeader a) :=
  inferInstanceAs (Decidable (∀ b ∈ h.live, _))

/-- The client keeps a pointer whose reallocation fails, and gives up one that it frees. A store to
the header of a block is left out. -/
def MemCall.step (s : Client) : MemCall → Client
  | .malloc n place => s.push (memMalloc place n s.heap) n
  | .realloc i n place =>
    match s.owned[i]? with
    | none => s
    | some (p, _) =>
      let r := memRealloc place p n s.heap
      if n = 0 ∨ r.1 ≠ 0 then { s with owned := s.owned.eraseIdx i }.push r n
      else { s with heap := r.2 }
  | .free i =>
    match s.owned[i]? with
    | none => s
    | some (p, _) => ⟨memFree p s.heap, s.owned.eraseIdx i⟩
  | .store a v =>
    if s.heap.InNoHeader a then
      { s with heap := { s.heap with mem := storeBytes s.heap.mem a [v] } }
    else s

/-! ## What a reallocation is for -/

/-- The pointer is to a block of `n` bytes that `mem_Free` gives back to the heap. -/
structure Heap.Accepts (h : Heap) (p n : ℕ) : Prop where
  block : ∃ b ∈ h.live, b.addr = p ∧ n ≤ b.size
  freed : ∀ b ∈ (memFree p h).live, b.addr ≠ p

/-- What `mem_Realloc` makes of the block `p` of `m` bytes when `n` bytes are asked for: `q` is what
it returns and `h'` the heap then. -/
structure ReallocSpec (h : Heap) (p m n q : ℕ) (h' : Heap) : Prop where
  /-- It fails, and the block is as it was. -/
  failed : q = 0 → h'.Accepts p m ∧ ∀ i < m, h'.mem (p + i) = h.mem (p + i)
  /-- It returns a block of `n` bytes. -/
  moved : q ≠ 0 → h'.Accepts q n
  /-- The contents have moved there. -/
  copied : q ≠ 0 → ∀ i < min m n, h'.mem (q + i) = h.mem (p + i)
  /-- The old block has gone back to the heap, and no other. -/
  released : q ≠ 0 → (∀ b ∈ h'.live, b.addr ≠ p) ∧ ∀ b ∈ h.live, b.addr ≠ p → b ∈ h'.live

/-- The call, if it reallocates a block that the client has, is right. -/
def ReallocRight (s : Client) : MemCall → Prop
  | .realloc i n place => ∀ p m, s.owned[i]? = some (p, m) → n ≠ 0 →
      ReallocSpec s.heap p m n.toNat (memRealloc place p n s.heap).1
        (memRealloc place p n s.heap).2
  | _ => True

/-- A reallocation of a block that the client has finds no free block for the new size and a
`size_t`. -/
def FindsNoRoom (s : Client) : MemCall → Prop
  | .realloc i n place => s.owned[i]? ≠ none → n ≠ 0 →
      ∀ p, place = some p → ¬ s.heap.Fits (n + 4).toNat p
  | _ => True

/-! ## The two functions of the kernel -/

section Steps

variable {h : Heap} {s : Client} {n : ℕ} {pv : ℕ}

theorem pvPortMalloc_of_fits {p : Place} (hfits : h.Fits n p) :
    pvPortMalloc (some p) n h = (p.addr, {
      mem := storeNat 4 (storeNat 4 h.mem (p.addr - 8) 0) (p.addr - 4) (2 ^ 31 + p.total)
      live := ⟨p.addr, n, p.total⟩ :: h.live }) := by
  exact if_pos hfits

theorem pvPortMalloc_of_not_fits {place : Option Place}
    (hfits : ∀ p, place = some p → ¬ h.Fits n p) : pvPortMalloc place n h = (0, h) := by
  unfold pvPortMalloc
  cases place with
  | none => rfl
  | some p => exact if_neg (hfits p rfl)

/-- `vPortFree` takes no block but the one whose address it is given. -/
theorem mem_vPortFree {b : HeapBlock} (hb : b ∈ h.live) (hne : b.addr ≠ pv) :
    b ∈ (vPortFree pv h).live := by
  unfold vPortFree
  split_ifs
  · exact hb
  · exact List.mem_filter.mpr ⟨hb, decide_eq_true hne⟩
  · exact hb

/-- The headers of the blocks are in order, and the blocks apart. -/
structure HeapBooks (h : Heap) : Prop where
  shape : ∀ b ∈ h.live, 8 ≤ b.addr ∧ 8 ≤ b.total
  marked : ∀ b ∈ h.live, h.Marked b.addr
  apart : ∀ b ∈ h.live, ∀ c ∈ h.live,
    b = c ∨ b.addr + b.total ≤ c.addr ∨ c.addr + c.total ≤ b.addr

/-- A header is not changed by what is written elsewhere. -/
theorem marked_congr {mem : ℕ → UInt8} {live : List HeapBlock} (hpv : 8 ≤ pv)
    (hmem : ∀ x, pv ≤ x + 8 → x < pv → mem x = h.mem x) (hmarked : h.Marked pv) :
    Heap.Marked ⟨mem, live⟩ pv := by
  have hsize : loadNat 4 mem (pv - 4) = loadNat 4 h.mem (pv - 4) :=
    loadNat_congr fun i hi => hmem _ (by omega) (by omega)
  have hnext : loadNat 4 mem (pv - 8) = loadNat 4 h.mem (pv - 8) :=
    loadNat_congr fun i hi => hmem _ (by omega) (by omega)
  unfold Heap.Marked
  rw [hsize, hnext]
  exact hmarked

/-- Allocating a block. -/
theorem books_malloc (hbooks : HeapBooks h) {p : Place} (hfits : h.Fits n p) :
    HeapBooks (pvPortMalloc (some p) n h).2 := by
  rw [pvPortMalloc_of_fits hfits]
  obtain ⟨-, haddr, -, htotal, hmax, -, hfree⟩ := hfits
  constructor
  · intro b hb
    rcases List.mem_cons.mp hb with rfl | hb
    · exact ⟨haddr, Nat.le_trans (Nat.le_add_left 8 n) htotal⟩
    · exact hbooks.shape b hb
  · intro b hb
    rcases List.mem_cons.mp hb with rfl | hb
    · -- the header that has just been written
      have hsize : loadNat 4 (storeNat 4 (storeNat 4 h.mem (p.addr - 8) 0) (p.addr - 4)
          (2 ^ 31 + p.total)) (p.addr - 4) = (2 ^ 31 + p.total) % 256 ^ 4 := loadNat_storeNat _
      have hnext : loadNat 4 (storeNat 4 (storeNat 4 h.mem (p.addr - 8) 0) (p.addr - 4)
          (2 ^ 31 + p.total)) (p.addr - 8) = 0 := by
        rw [loadNat_storeNat_of_apart (.inl (by omega)), loadNat_storeNat]
        rfl
      have hmod : (2 ^ 31 + p.total) % 256 ^ 4 = 2 ^ 31 + p.total := Nat.mod_eq_of_lt (by omega)
      unfold Heap.Marked
      rw [hsize, hmod]
      exact ⟨Nat.le_add_right _ _, hnext⟩
    · have hshape := hbooks.shape b hb
      have hb' := hfree b hb
      refine marked_congr hshape.1 (fun x hx hx' => ?_) (hbooks.marked b hb)
      rw [storeNat_of_outside (by omega), storeNat_of_outside (by omega)]
  · intro b hb c hc
    rcases List.mem_cons.mp hb with rfl | hb <;> rcases List.mem_cons.mp hc with rfl | hc
    · exact .inl rfl
    · exact .inr (hfree c hc)
    · exact .inr (hfree b hb).symm
    · exact hbooks.apart b hb c hc

theorem memFree_of_mem (hbooks : HeapBooks h) {b : HeapBlock} (hb : b ∈ h.live) :
    memFree b.addr h = {
      mem := storeNat 4 h.mem (b.addr - 4) (loadNat 4 h.mem (b.addr - 4) - 2 ^ 31)
      live := h.live.filter fun c => c.addr ≠ b.addr } := by
  have hshape := hbooks.shape b hb
  unfold memFree vPortFree
  rw [if_neg (by omega), if_pos (hbooks.marked b hb)]

/-- Giving a block back. -/
theorem books_free (hbooks : HeapBooks h) {b : HeapBlock} (hb : b ∈ h.live) :
    HeapBooks (memFree b.addr h) := by
  have hshape := hbooks.shape b hb
  rw [memFree_of_mem hbooks hb]
  constructor
  · intro c hc
    exact hbooks.shape c (List.mem_of_mem_filter hc)
  · intro c hc
    obtain ⟨hc, hne⟩ := List.mem_filter.mp hc
    have hne' : c.addr ≠ b.addr := of_decide_eq_true hne
    have hshape' := hbooks.shape c hc
    have hapart := (hbooks.apart b hb c hc).resolve_left fun heq => hne' (by rw [heq])
    refine marked_congr (h := h) hshape'.1 (fun x hx hx' => ?_) (hbooks.marked c hc)
    exact storeNat_of_outside (by omega)
  · intro c hc d hd
    exact hbooks.apart c (List.mem_of_mem_filter hc) d (List.mem_of_mem_filter hd)

theorem books_store (hbooks : HeapBooks h) {a : ℕ} {v : UInt8} (ha : h.InNoHeader a) :
    HeapBooks { h with mem := storeBytes h.mem a [v] } := by
  refine ⟨hbooks.shape, fun b hb => ?_, hbooks.apart⟩
  have hout := ha b hb
  refine marked_congr (h := h) (hbooks.shape b hb).1 (fun x hx hx' => ?_) (hbooks.marked b hb)
  exact storeBytes_of_outside (by rw [List.length_singleton]; omega)

/-- `mem_Free` gives back what `pvPortMalloc` has handed out. -/
theorem accepts_of_mem (hbooks : HeapBooks h) {b : HeapBlock} (hb : b ∈ h.live) :
    h.Accepts b.addr b.size := by
  refine ⟨⟨b, hb, rfl, Nat.le_refl _⟩, fun c hc => ?_⟩
  rw [memFree_of_mem hbooks hb] at hc
  exact of_decide_eq_true (List.mem_filter.mp hc).2

/-! ## Clients -/

/-- The client has pointers to different blocks, of the sizes it has asked for. -/
structure ClientBooks (s : Client) : Prop where
  heap : HeapBooks s.heap
  owned : ∀ e ∈ s.owned, ∃ b ∈ s.heap.live, b.addr = e.1 ∧ b.size = e.2
  distinct : (s.owned.map Prod.fst).Nodup

/-- The pointers that are left when one has gone are others. -/
theorem ne_of_mem_eraseIdx (hbooks : ClientBooks s) {i : ℕ} {e e' : ℕ × ℕ}
    (he : s.owned[i]? = some e) (he' : e' ∈ s.owned.eraseIdx i) : e'.1 ≠ e.1 := by
  obtain ⟨j, hj, hj'⟩ := List.mem_eraseIdx_iff_getElem?.mp he'
  intro heq
  have hfst : (s.owned.map Prod.fst)[j]? = (s.owned.map Prod.fst)[i]? := by
    rw [List.getElem?_map, List.getElem?_map, he, hj']
    exact congrArg some heq
  have hlt : j < (s.owned.map Prod.fst).length := by
    rw [List.length_map]
    exact (List.getElem?_eq_some_iff.mp hj').1
  exact hj ((List.getElem?_inj hlt hbooks.distinct).mp hfst)

theorem clientBooks_malloc (hbooks : ClientBooks s) (n : UInt32) (place : Option Place) :
    ClientBooks (s.push (memMalloc place n s.heap) n) := by
  unfold memMalloc Client.push
  by_cases hfits : ∃ p, place = some p ∧ s.heap.Fits n.toNat p
  · obtain ⟨p, rfl, hfits⟩ := hfits
    have hheap := books_malloc hbooks.heap hfits
    rw [pvPortMalloc_of_fits hfits] at hheap ⊢
    have haddr : p.addr ≠ 0 := by
      have := hfits.2.1
      omega
    rw [if_neg haddr]
    refine ⟨hheap, ?_, List.nodup_cons.mpr ⟨?_, hbooks.distinct⟩⟩
    · intro e he
      rcases List.mem_cons.mp he with rfl | he
      · exact ⟨_, List.mem_cons_self, rfl, rfl⟩
      · obtain ⟨b, hb, hbe⟩ := hbooks.owned e he
        exact ⟨b, List.mem_cons_of_mem _ hb, hbe⟩
    · -- the place is apart from all blocks, so its address is a new one
      intro hmem
      obtain ⟨e, he, heq⟩ := List.mem_map.mp hmem
      obtain ⟨b, hb, hbaddr, -⟩ := hbooks.owned e he
      obtain ⟨-, -, -, htotal, -, -, hfree⟩ := hfits
      have hapart := hfree b hb
      have hshape := hbooks.heap.shape b hb
      omega
  · rw [pvPortMalloc_of_not_fits fun p hp hfits' => hfits ⟨p, hp, hfits'⟩, if_pos rfl]
    exact hbooks

theorem clientBooks_free (hbooks : ClientBooks s) {i p m : ℕ} (hi : s.owned[i]? = some (p, m)) :
    ClientBooks ⟨memFree p s.heap, s.owned.eraseIdx i⟩ := by
  obtain ⟨b, hb, rfl, -⟩ := hbooks.owned _ (List.mem_of_getElem? hi)
  refine ⟨books_free hbooks.heap hb, fun e he => ?_, ?_⟩
  · obtain ⟨c, hc, hce⟩ := hbooks.owned e (List.mem_of_mem_eraseIdx he)
    refine ⟨c, ?_, hce⟩
    rw [memFree_of_mem hbooks.heap hb]
    have hne : c.addr ≠ b.addr := hce.1.trans_ne (ne_of_mem_eraseIdx hbooks hi he)
    exact List.mem_filter.mpr ⟨hc, decide_eq_true hne⟩
  · exact hbooks.distinct.sublist ((List.eraseIdx_sublist ..).map Prod.fst)

/-- A reallocation is right exactly if it finds no room: one that moves a block leaves the old one
allocated, since it frees the address four bytes below. -/
theorem reallocRight_iff (hbooks : ClientBooks s) (call : MemCall) :
    ReallocRight s call ↔ FindsNoRoom s call := by
  cases call with
  | malloc n place => exact Iff.rfl
  | free i => exact Iff.rfl
  | store a v => exact Iff.rfl
  | realloc i n place =>
    constructor
    · rintro h hi hn p rfl hfits
      obtain ⟨⟨q, m⟩, hqm⟩ := Option.ne_none_iff_exists'.mp hi
      have hspec := h q m hqm hn
      obtain ⟨b, hb, hbq, -⟩ := hbooks.owned _ (List.mem_of_getElem? hqm)
      have hshape := hbooks.heap.shape b hb
      have hq : q ≠ 0 := by
        intro hq
        rw [hq] at hbq
        omega
      have haddr : p.addr ≠ 0 := by
        have := hfits.2.1
        omega
      unfold memRealloc at hspec
      rw [if_neg hq, if_neg hn, pvPortMalloc_of_fits hfits] at hspec
      dsimp only at hspec
      rw [if_neg haddr] at hspec
      have hkept := (hspec.released (Nat.succ_ne_zero _)).1 b
        (mem_vPortFree (List.mem_cons_of_mem _ hb) (by omega))
      exact hkept hbq
    · intro h q m hqm hn
      have hroom := h (by rw [hqm]; exact Option.some_ne_none _) hn
      obtain ⟨b, hb, hbq, hbm⟩ := hbooks.owned _ (List.mem_of_getElem? hqm)
      have hshape := hbooks.heap.shape b hb
      have hq : q ≠ 0 := by
        intro hq
        rw [hq] at hbq
        omega
      have hfail : memRealloc place q n s.heap = (0, s.heap) := by
        unfold memRealloc
        rw [if_neg hq, if_neg hn, pvPortMalloc_of_not_fits hroom]
        exact if_pos rfl
      rw [hfail]
      have haccepts := accepts_of_mem hbooks.heap hb
      rw [hbq, hbm] at haccepts
      exact ⟨fun _ => ⟨haccepts, fun _ _ => rfl⟩, fun h0 => absurd rfl h0, fun h0 => absurd rfl h0,
        fun h0 => absurd rfl h0⟩

theorem clientBooks_step (hbooks : ClientBooks s) {call : MemCall} (hroom : FindsNoRoom s call) :
    ClientBooks (call.step s) := by
  cases call with
  | malloc n place => exact clientBooks_malloc hbooks n place
  | free i =>
    unfold MemCall.step
    dsimp only
    split
    · exact hbooks
    · rename_i p m hi
      exact clientBooks_free hbooks hi
  | store a v =>
    unfold MemCall.step
    dsimp only
    split_ifs with ha
    · exact ⟨books_store hbooks.heap ha, hbooks.owned, hbooks.distinct⟩
    · exact hbooks
  | realloc i n place =>
    unfold MemCall.step
    dsimp only
    split
    · exact hbooks
    · rename_i p m hi
      obtain ⟨b, hb, hbp, -⟩ := hbooks.owned _ (List.mem_of_getElem? hi)
      have hshape := hbooks.heap.shape b hb
      have hp : p ≠ 0 := by
        intro hp
        rw [hp] at hbp
        omega
      by_cases hn : n = 0
      · -- the block is freed
        have hfree : memRealloc place p n s.heap = (0, memFree p s.heap) := by
          unfold memRealloc
          rw [if_neg hp, if_pos hn]
        rw [hfree, if_pos (.inl hn)]
        exact clientBooks_free hbooks hi
      · have hfail : memRealloc place p n s.heap = (0, s.heap) := by
          unfold memRealloc
          rw [if_neg hp, if_neg hn,
            pvPortMalloc_of_not_fits (hroom (by rw [hi]; exact Option.some_ne_none _) hn)]
          exact if_pos rfl
        rw [hfail, if_neg (not_or.mpr ⟨hn, not_not.mpr rfl⟩)]
        exact hbooks

end Steps

theorem clientBooks_reset (mem : ℕ → UInt8) : ClientBooks (.reset mem) :=
  ⟨⟨nofun, nofun, nofun⟩, nofun, List.nodup_nil⟩

/-- All reallocations of a run are right exactly if none of them finds room. -/
theorem reallocs_right_iff (mem : ℕ → UInt8) (calls : List MemCall) :
    AllSteps MemCall.step ReallocRight (.reset mem) calls ↔
      AllSteps MemCall.step FindsNoRoom (.reset mem) calls := by
  refine allSteps_congr (J := ClientBooks) ?_ ?_ (clientBooks_reset mem) calls
  · intro s call hbooks
    exact reallocRight_iff hbooks call
  · intro s call hbooks hright
    exact clientBooks_step hbooks ((reallocRight_iff hbooks call).mp hright)

/-- A block of 8 bytes at 1024 is reallocated to 16 bytes at 2048; it stays allocated. -/
theorem not_reallocs_right_grow :
    ¬ AllSteps MemCall.step ReallocRight (.reset fun _ => 0)
      [.malloc 8 (some ⟨1024, 16⟩), .realloc 0 16 (some ⟨2048, 32⟩)] := by
  intro h
  have hspec := h.2.1 1024 8 (by decide) (by decide)
  have hreleased := (hspec.released (by decide)).1 ⟨1024, 8, 16⟩ (by decide)
  exact hreleased rfl

end WLink.Rtos
