import WLink.Misc.CJsonHeap

/-!
# The blocks of a tree

What the functions of `Misc.CJsonHeap` do with blocks, as `Transfers`: `cJsonDelete` frees a tree
(`transfers_cJsonDelete`), a text that is no JSON leaves nothing behind (`transfers_cJsonParse`),
and `cJsonPrint` frees whatever it puts its text together from (`transfers_cJsonPrint`).
-/

namespace WLink.Misc

open WLink.Lib CString Exec

section

variable {σ : Type} (env : CJsonEnv)

/-! ## Building and freeing -/

def stringBlocks (s : Option HeapString) : List ℕ := s.toList.map HeapString.block

theorem CJsonItem.blocks_eq (item : CJsonItem) :
    item.blocks = item.block :: (stringBlocks item.valuestring ++ stringBlocks item.string) := by
  unfold blocks stringBlocks
  rw [List.map_append]

theorem CJsonNode.blocksAll_append (cs ds : List CJsonNode) :
    blocksAll (cs ++ ds) = blocksAll cs ++ blocksAll ds := by
  induction cs with
  | nil => rfl
  | cons c cs ih =>
    show c.blocks ++ blocksAll (cs ++ ds) = c.blocks ++ blocksAll cs ++ blocksAll ds
    rw [ih, List.append_assoc]

/-- A tree owns the blocks of what is appended to it. -/
theorem CJsonNode.blocks_append (object c : CJsonNode) :
    (object.append c).blocks = object.blocks ++ c.blocks := by
  cases object with
  | node item child =>
    show item.blocks ++ blocksAll (child ++ [c]) = item.blocks ++ blocksAll child ++ c.blocks
    rw [blocksAll_append, List.append_assoc]
    show _ ++ (_ ++ (c.blocks ++ [])) = _
    rw [List.append_nil]

theorem transfers_cJsonMalloc :
    Transfers noFault [] (cJsonMalloc env : HeapM σ (Option ℕ)) Option.toList :=
  transfers_alloc _

section

variable {α : Type} {f : Option ℕ → HeapM σ α} {post : α → List ℕ} {E : Fault → Prop} {r : List ℕ}

/-- An allocation, and what follows if it fails and if it succeeds. -/
theorem transfers_malloc_bind (hnone : Transfers E r (f none) post)
    (hsome : ∀ b, Transfers E (b :: r) (f (some b)) post) :
    Transfers E r (cJsonMalloc env >>= f) post := by
  refine (transfers_cJsonMalloc env).weaken.bind_frame (r := r) fun b => ?_
  cases b with
  | none => exact hnone
  | some b => exact hsome b

/-- A new item, with nothing else to own. -/
def freshItem (b : ℕ) : CJsonItem := ⟨b, none, .cFalse, 0, none⟩

theorem transfers_newItem_bind {f : Option CJsonItem → HeapM σ α}
    (hnone : Transfers E r (f none) post)
    (hsome : ∀ b, Transfers E (b :: r) (f (some (freshItem b))) post) :
    Transfers E r (cJsonNewItem env >>= f) post := by
  unfold cJsonNewItem
  simp only [bind_assoc, pure_bind]
  exact transfers_malloc_bind env hnone hsome

end

theorem transfers_cJsonStrdup (str : List UInt8) :
    Transfers noFault [] (cJsonStrdup env str : HeapM σ _) stringBlocks :=
  transfers_malloc_bind env (.pure none stringBlocks) fun b => .pure (some ⟨b, str⟩) stringBlocks

theorem transfers_freeString (s : Option HeapString) :
    Transfers noFault (stringBlocks s) (freeString s : HeapM σ Unit) (fun _ => []) := by
  cases s with
  | none => exact Transfers.pure () fun _ => []
  | some s => exact transfers_release s.block

/-- The blocks of a tree that may be `NULL`. -/
def treeBlocks (tree : Option CJsonNode) : List ℕ := tree.elim [] CJsonNode.blocks

mutual

theorem transfers_cJsonDelete : ∀ c : CJsonNode,
    Transfers noFault c.blocks (cJsonDelete c : HeapM σ Unit) (fun _ => [])
  | .node item child => by
    have hperm : (CJsonNode.node item child).blocks.Perm
        (CJsonNode.blocksAll child ++ (stringBlocks item.valuestring ++
          (stringBlocks item.string ++ [item.block]))) := by
      show (item.blocks ++ CJsonNode.blocksAll child).Perm _
      rw [CJsonItem.blocks_eq, List.perm_iff_count]
      intro b
      simp only [List.count_append, List.count_cons, List.count_nil]
      omega
    refine Transfers.perm ?_ hperm fun _ => .refl _
    exact (transfers_cJsonDeleteAll child).andThen ((transfers_freeString _).andThen
      ((transfers_freeString _).andThen (transfers_release _)))

theorem transfers_cJsonDeleteAll : ∀ cs : List CJsonNode,
    Transfers noFault (CJsonNode.blocksAll cs) (cJsonDeleteAll cs : HeapM σ Unit) (fun _ => [])
  | [] => Transfers.pure () fun _ => []
  | c :: cs => (transfers_cJsonDelete c).andThen (transfers_cJsonDeleteAll cs)

end

/-- A new item of any type owns one block. -/
theorem transfers_cJsonCreate {g : CJsonItem → CJsonItem}
    (hg : ∀ b, (g (freshItem b)).blocks = [b]) :
    Transfers noFault [] (cJsonCreate env g : HeapM σ _) treeBlocks := by
  refine transfers_newItem_bind env (.pure none treeBlocks) fun b => Transfers.pure_perm ?_
  show [b].Perm ((g (freshItem b)).blocks ++ [])
  rw [hg]
  exact .refl _

theorem transfers_cJsonCreateObject :
    Transfers noFault [] (cJsonCreateObject env : HeapM σ _) treeBlocks :=
  transfers_cJsonCreate env fun _ => rfl

theorem transfers_cJsonCreateArray :
    Transfers noFault [] (cJsonCreateArray env : HeapM σ _) treeBlocks :=
  transfers_cJsonCreate env fun _ => rfl

theorem transfers_cJsonCreateBool (b : Bool) :
    Transfers noFault [] (cJsonCreateBool env b : HeapM σ _) treeBlocks :=
  transfers_cJsonCreate env fun _ => rfl

theorem transfers_cJsonCreateNumber (num : ℤ) :
    Transfers noFault [] (cJsonCreateNumber env num : HeapM σ _) treeBlocks :=
  transfers_cJsonCreate env fun _ => rfl

theorem transfers_cJsonCreateString (string : List UInt8) :
    Transfers noFault [] (cJsonCreateString env string : HeapM σ _) treeBlocks := by
  refine transfers_newItem_bind env (.pure none treeBlocks) fun b => ?_
  refine (transfers_cJsonStrdup env string).bind_frame (r := [b]) fun valuestring => ?_
  refine Transfers.pure_perm ?_
  show (stringBlocks valuestring ++ [b]).Perm (CJsonItem.blocks _ ++ [])
  rw [CJsonItem.blocks_eq, List.perm_iff_count]
  intro c
  simp only [List.count_append, List.count_cons, List.count_nil, stringBlocks, freshItem,
    Option.toList_none, List.map_nil]
  omega

/-- An item keeps its blocks when it gets a new name, but for those of the names. -/
theorem blocks_setString (c : CJsonNode) (name : Option HeapString) :
    ∃ r, c.blocks.Perm (stringBlocks c.item.string ++ r) ∧
      (stringBlocks name ++ r).Perm (c.setItem ({ · with string := name })).blocks := by
  cases c with
  | node item child =>
    refine ⟨item.block :: (stringBlocks item.valuestring ++ CJsonNode.blocksAll child), ?_, ?_⟩
    · show (item.blocks ++ CJsonNode.blocksAll child).Perm _
      rw [CJsonItem.blocks_eq, List.perm_iff_count]
      intro b
      simp only [List.count_append, List.count_cons, CJsonNode.item]
      omega
    · show List.Perm _ (CJsonItem.blocks _ ++ CJsonNode.blocksAll child)
      rw [CJsonItem.blocks_eq, List.perm_iff_count]
      intro b
      simp only [List.count_append, List.count_cons]
      omega

theorem transfers_nameItem (string : List UInt8) (c : CJsonNode) :
    Transfers noFault c.blocks (nameItem env string c : HeapM σ _) CJsonNode.blocks := by
  obtain ⟨r, hpre, -⟩ := blocks_setString c none
  refine Transfers.perm ?_ hpre fun _ => .refl _
  refine (transfers_freeString c.item.string).andThen ?_
  refine (transfers_cJsonStrdup env string).bind_frame (r := r) fun name => ?_
  refine Transfers.pure_perm ?_
  obtain ⟨r', hpre', hpost⟩ := blocks_setString c name
  refine List.Perm.trans ?_ hpost
  exact ((List.perm_append_left_iff _).mp (hpre.symm.trans hpre')).append_left _

/-- An object takes over what is added to it. -/
theorem transfers_cJsonAddItemToObject (object : CJsonNode) (string : List UInt8)
    (item : Option CJsonNode) :
    Transfers noFault (treeBlocks item ++ object.blocks)
      (cJsonAddItemToObject env object string item : HeapM σ _) CJsonNode.blocks := by
  cases item with
  | none => exact Transfers.pure object CJsonNode.blocks
  | some item =>
    refine (transfers_nameItem env string item).bind_frame fun item => Transfers.pure_perm ?_
    rw [CJsonNode.blocks_append]
    exact List.perm_append_comm

/-! ## Printing -/

theorem transfers_releaseAll (bs : List ℕ) :
    Transfers noFault bs (releaseAll bs : HeapM σ Unit) (fun _ => []) := by
  induction bs with
  | nil => exact Transfers.pure () fun _ => []
  | cons b bs ih => exact (transfers_release b).andThen ih

theorem transfers_printOutput (ok : Bool) :
    Transfers noFault [] (printOutput env ok : HeapM σ _) Option.toList :=
  Transfers.ite (fun _ => transfers_cJsonMalloc env) fun _ => Transfers.pure none Option.toList

/-- The blocks that `names` and `entries` refer to. -/
def pairBlocks (pairs : List (Option ℕ × Option ℕ)) : List ℕ :=
  pairs.flatMap fun p => p.1.toList ++ p.2.toList

mutual

theorem transfers_printValue : ∀ c : CJsonNode,
    Transfers noFault [] (printValue env c : HeapM σ _) Option.toList
  | .node item child => by
    have hmalloc : Transfers noFault [] (cJsonMalloc env : HeapM σ _) Option.toList :=
      transfers_cJsonMalloc env
    unfold printValue
    split
    · -- `print_array`
      refine Transfers.ite (fun _ => hmalloc) fun _ => ?_
      refine transfers_malloc_bind env (.pure none Option.toList) fun entries => ?_
      refine (transfers_printEntries child).bind_frame (r := [entries]) fun r => ?_
      refine (transfers_printOutput env r.2).bind_frame (r := r.1 ++ [entries]) fun out => ?_
      refine Transfers.perm ?_ List.perm_append_comm fun _ => .refl _
      rw [List.append_assoc]
      exact (transfers_releaseAll r.1).andThen
        ((transfers_release entries).andThen (.pure out Option.toList))
    · -- `print_object`
      refine Transfers.ite (fun _ => hmalloc) fun _ => ?_
      refine transfers_malloc_bind env (.pure none Option.toList) fun entries => ?_
      refine transfers_malloc_bind env ?_ fun names => ?_
      · exact (transfers_release entries).andThen (.pure none Option.toList)
      refine (transfers_printMembers child).bind_frame (r := [names, entries]) fun pairs => ?_
      refine (transfers_printOutput env _).bind_frame (r := pairBlocks pairs ++ [names, entries])
        fun out => ?_
      refine Transfers.perm ?_ List.perm_append_comm fun _ => .refl _
      rw [List.append_assoc]
      exact (transfers_releaseAll _).andThen ((transfers_release names).andThen
        ((transfers_release entries).andThen (.pure out Option.toList)))
    · exact hmalloc

theorem transfers_printEntries : ∀ cs : List CJsonNode,
    Transfers noFault [] (printEntries env cs : HeapM σ _) Prod.fst
  | [] => Transfers.pure ([], true) Prod.fst
  | c :: cs => by
    unfold printEntries
    refine (transfers_printValue c).bind fun ret => ?_
    cases ret with
    | none => exact Transfers.pure ([], false) Prod.fst
    | some ret =>
      refine (transfers_printEntries cs).bind_frame (r := [ret]) fun r => Transfers.pure_perm ?_
      exact List.perm_append_comm

theorem transfers_printMembers : ∀ cs : List CJsonNode,
    Transfers noFault [] (printMembers env cs : HeapM σ _) pairBlocks
  | [] => Transfers.pure [] pairBlocks
  | c :: cs => by
    unfold printMembers
    refine (transfers_cJsonMalloc env).bind fun str => ?_
    refine (transfers_printValue c).bind_frame (r := str.toList) fun ret => ?_
    refine (transfers_printMembers cs).bind_frame (r := ret.toList ++ str.toList) fun pairs => ?_
    refine Transfers.pure_perm ?_
    show List.Perm _ ((str.toList ++ ret.toList) ++ pairBlocks pairs)
    rw [List.perm_iff_count]
    intro b
    simp only [List.count_append]
    omega

end

/-! ## The text behind a token

No step over the text loops, and none goes back. -/

/-- A part of the text is passed over. -/
def StepsOn (value : List UInt8) (x : Except Fault (List UInt8)) : Prop :=
  Stops x ∧ ∀ rest, x = .ok rest → rest.length ≤ value.length

/-- A part of the text is passed over, and what is left is its end. -/
def PassesOver (value : List UInt8) (x : Except Fault (List UInt8)) : Prop :=
  Stops x ∧ ∀ rest, x = .ok rest → rest <:+ value

theorem PassesOver.stepsOn {value : List UInt8} {x : Except Fault (List UInt8)}
    (h : PassesOver value x) : StepsOn value x :=
  ⟨h.1, fun rest hrest => (h.2 rest hrest).length_le⟩

theorem PassesOver.bind {value : List UInt8} {x : Except Fault (List UInt8)}
    {f : List UInt8 → Except Fault (List UInt8)} (hx : PassesOver value x)
    (hf : ∀ rest, PassesOver rest (f rest)) : PassesOver value (x >>= f) := by
  refine ⟨hx.1.bind fun rest => (hf rest).1, fun rest h => ?_⟩
  obtain ⟨mid, hmid, hrest⟩ := bind_eq_ok.mp h
  exact ((hf mid).2 rest hrest).trans (hx.2 mid hmid)

theorem PassesOver.ok (value : List UInt8) : PassesOver value (.ok value) := by
  refine ⟨Stops.ok value, fun rest h => ?_⟩
  cases h
  exact List.suffix_refl value

theorem PassesOver.read (value : List UInt8) : PassesOver value (.error .read) :=
  ⟨Stops.read, fun _ h => nomatch h⟩

theorem PassesOver.cons {c : UInt8} {cs : List UInt8} {x : Except Fault (List UInt8)}
    (h : PassesOver cs x) : PassesOver (c :: cs) x :=
  ⟨h.1, fun rest hrest => (h.2 rest hrest).trans (List.suffix_cons c cs)⟩

theorem passesOver_skip (value : List UInt8) : PassesOver value (skip value) := by
  induction value with
  | nil => exact PassesOver.read []
  | cons c cs ih =>
    unfold skip
    split
    · exact ih.cons
    · exact PassesOver.ok _

theorem passesOver_skipWhile (p : UInt8 → Bool) (value : List UInt8) :
    PassesOver value (skipWhile p value) := by
  induction value with
  | nil => exact PassesOver.read []
  | cons c cs ih =>
    unfold skipWhile
    split
    · exact ih.cons
    · exact PassesOver.ok _

theorem passesOver_skipIf (p : UInt8 → Bool) (value : List UInt8) :
    PassesOver value (skipIf p value) := by
  unfold skipIf
  split
  · exact PassesOver.read []
  · split
    · exact (PassesOver.ok _).cons
    · exact PassesOver.ok _

theorem passesOver_skipInteger (value : List UInt8) : PassesOver value (skipInteger value) := by
  unfold skipInteger
  split
  · exact PassesOver.read []
  · split
    · exact (passesOver_skipWhile _ _).cons
    · exact PassesOver.ok _

theorem passesOver_skipFraction (value : List UInt8) : PassesOver value (skipFraction value) := by
  unfold skipFraction
  split
  · exact PassesOver.read []
  · split
    · split
      · exact PassesOver.read _
      · split
        · exact (passesOver_skipWhile _ _).cons.cons
        · exact PassesOver.ok _
    · exact PassesOver.ok _

theorem passesOver_skipExponent (value : List UInt8) : PassesOver value (skipExponent value) := by
  unfold skipExponent
  split
  · exact PassesOver.read []
  · split
    · exact ((passesOver_skipIf _ _).bind fun _ => passesOver_skipWhile _ _).cons
    · exact PassesOver.ok _

theorem passesOver_skipNumber (num : List UInt8) : PassesOver num (skipNumber num) :=
  (passesOver_skipIf _ _).bind fun _ => (passesOver_skipIf _ _).bind fun _ =>
    (passesOver_skipInteger _).bind fun _ => (passesOver_skipFraction _).bind fun _ =>
      passesOver_skipExponent _

theorem stepsOn_skip (value : List UInt8) : StepsOn value (skip value) :=
  (passesOver_skip value).stepsOn

theorem stepsOn_skipNumber (num : List UInt8) : StepsOn num (skipNumber num) :=
  (passesOver_skipNumber num).stepsOn

theorem stops_parseHex (n h : ℕ) (bs : List UInt8) : Stops (parseHex n h bs) := by
  induction n generalizing h bs with
  | zero =>
    cases bs with
    | nil => exact Stops.ok h
    | cons b bs => exact Stops.ok h
  | succ n ih =>
    cases bs with
    | nil => exact Stops.read
    | cons b bs =>
      unfold parseHex
      split
      · exact Stops.ok 0
      · exact ih _ _

theorem stops_unescapeSurrogate (uc : ℕ) (cs : List UInt8) : Stops (unescapeSurrogate uc cs) := by
  unfold unescapeSurrogate
  split
  · exact Stops.read
  · exact Stops.ite (Stops.ok _) Stops.read
  · exact Stops.ite (Stops.ok _) ((stops_parseHex _ _ _).map _)

theorem stops_unescapeByte (c : UInt8) (cs : List UInt8) : Stops (unescapeByte c cs) := by
  have hunicode : Stops (unescapeUnicode cs) :=
    (stops_parseHex _ _ _).bind fun uc => Stops.ite (Stops.ok _)
      (Stops.ite (stops_unescapeSurrogate _ _) (Stops.ok _))
  exact Stops.ite (Stops.ok _) (Stops.ite (Stops.ok _) (Stops.ite (Stops.ok _)
    (Stops.ite (Stops.ok _) (Stops.ite (Stops.ok _) (Stops.ite hunicode (Stops.ok _))))))

theorem stops_stringLen (str : List UInt8) : Stops (stringLen str) := by
  fun_induction stringLen str with
  | case1 => exact Stops.read
  | case2 => exact Stops.ok 0
  | case3 => exact Stops.read
  | case4 _ _ _ ih => exact ih.map _
  | case5 _ _ _ _ ih => exact ih.map _

/-- The loop of `parse_string` that stores. -/
theorem storeString_stepsOn (k : ℕ) (str : List UInt8) :
    Stops (storeString k str) ∧
      ∀ out ptr, storeString k str = .ok (out, ptr) → ptr.length ≤ str.length := by
  fun_induction storeString k str with
  | case1 => exact ⟨Stops.read, fun _ _ h => nomatch h⟩
  | case2 k c cs ih =>
    exact ⟨ih.1, fun out ptr h => (ih.2 out ptr h).trans (Nat.le_succ _)⟩
  | case3 c cs hend =>
    refine ⟨Stops.ok _, fun out ptr h => ?_⟩
    cases h
    exact le_refl _
  | case4 => exact ⟨Stops.read, fun _ _ h => nomatch h⟩
  | case5 d cs _ ih =>
    constructor
    · exact (stops_unescapeByte d cs).bind fun r => (ih r.2).1.bind fun _ => Stops.ok _
    · intro out ptr h
      obtain ⟨⟨stored, k⟩, -, h⟩ := bind_eq_ok.mp h
      obtain ⟨⟨out', ptr'⟩, hrest, h⟩ := bind_eq_ok.mp h
      cases h
      have hle := (ih k).2 out' ptr hrest
      exact hle.trans (Nat.le_add_right _ 2)
  | case6 c cs _ _ ih =>
    constructor
    · exact ih.1.map _
    · intro out ptr h
      rcases hrest : storeString 0 cs with e | ⟨out', ptr'⟩
      · rw [hrest] at h
        exact nomatch h
      · rw [hrest] at h
        cases h
        exact (ih.2 out' ptr' hrest).trans (Nat.le_succ _)

theorem stringContent_stepsOn (len : ℕ) (str : List UInt8) :
    Stops (stringContent len str) ∧
      ∀ bytes ptr, stringContent len str = .ok (bytes, ptr) → ptr.length ≤ str.length := by
  obtain ⟨hstops, hle⟩ := storeString_stepsOn 0 str
  constructor
  · exact hstops.bind fun _ => Stops.ite Stops.write (Stops.ok _)
  · intro bytes ptr h
    obtain ⟨⟨out, ptr'⟩, hrest, h⟩ := bind_eq_ok.mp h
    have hle' := hle out ptr' hrest
    dsimp only at h
    split at h
    · exact nomatch h
    · cases h
      split
      · rw [List.length_tail]
        omega
      · exact hle'

theorem stops_valueKind (value : List UInt8) : Stops (valueKind value) :=
  (stops_startsFrom _ _).bind fun _ => Stops.ite (Stops.ok _) <|
    (stops_startsFrom _ _).bind fun _ => Stops.ite (Stops.ok _) <|
      (stops_startsFrom _ _).bind fun _ => Stops.ite (Stops.ok _) <|
        (stops_readAt _ _).bind fun _ => Stops.ok _

/-! ## Parsing -/

/-- `parse_string` sets the value of an item and no name, and goes on in the text. -/
theorem yields_parseString (item : CJsonItem) (str : List UInt8) :
    Yields (parseString env item str : HeapM σ _) fun r =>
      r.1.string = item.string ∧ ∀ ptr, r.2 = some ptr → ptr.length ≤ str.length := by
  refine Yields.ite (fun _ => Yields.pure ⟨rfl, fun _ h => nomatch h⟩) fun _ => ?_
  refine Yields.seq fun len => Yields.seq fun out => ?_
  cases out with
  | none => exact Yields.pure ⟨rfl, fun _ h => nomatch h⟩
  | some out =>
    refine Yields.bind (Yields.lift (P := fun r => r.2.length ≤ str.tail.length)
      fun r h => (stringContent_stepsOn len str.tail).2 r.1 r.2 h) fun r hle => ?_
    refine Yields.pure ⟨rfl, fun ptr h => ?_⟩
    cases h
    rw [List.length_tail] at hle
    omega

theorem transfers_parseString {item : CJsonItem} (hitem : item.valuestring = none)
    (str : List UInt8) :
    Transfers notHang item.blocks (parseString env item str : HeapM σ _) (fun r => r.1.blocks) := by
  have hsame : ∀ E, Transfers E item.blocks
      (pure (item, none) : HeapM σ (CJsonItem × Option (List UInt8))) (fun r => r.1.blocks) :=
    fun _ => Transfers.pure (item, none) fun r => r.1.blocks
  refine Transfers.ite (fun _ => hsame _) fun _ => ?_
  refine (Transfers.lift (stops_stringLen _) item.blocks).bind fun len => ?_
  refine transfers_malloc_bind env (hsame _) fun out => ?_
  refine (Transfers.lift (stringContent_stepsOn len _).1 _).bind fun r => Transfers.pure_perm ?_
  rw [CJsonItem.blocks_eq, CJsonItem.blocks_eq, hitem]
  exact List.Perm.swap _ _ _

theorem yields_skip (value : List UInt8) :
    Yields (Exec.lift (skip value) : HeapM σ _) fun rest => rest.length ≤ value.length :=
  Yields.lift fun rest h => (stepsOn_skip value).2 rest h

theorem transfers_skip (value : List UInt8) (pre : List ℕ) :
    Transfers notHang pre (Exec.lift (skip value) : HeapM σ _) (fun _ => pre) :=
  Transfers.lift (stepsOn_skip value).1 pre

/-- The name of a member, if it is one, becomes the name of the item. -/
theorem yields_parseName (item : CJsonItem) (value : List UInt8) :
    Yields (parseName env item value : HeapM σ _) fun r =>
      ∀ rest, r.2 = some rest → r.1.valuestring = none ∧ rest.length ≤ value.length := by
  refine (yields_skip value).bind fun value' hskip => ?_
  refine (yields_parseString env item value').bind fun r hr => ?_
  obtain ⟨item', ptr⟩ := r
  cases ptr with
  | none => exact Yields.pure fun _ h => nomatch h
  | some ptr =>
    have hptr := hr.2 ptr rfl
    refine (yields_skip ptr).bind fun rest hrest => Yields.pure fun rest' h => ⟨rfl, ?_⟩
    dsimp only at h
    split at h
    · cases h
      rw [List.length_tail]
      omega
    · exact nomatch h

theorem transfers_parseName (b : ℕ) (value : List UInt8) :
    Transfers notHang (freshItem b).blocks (parseName env (freshItem b) value : HeapM σ _)
      (fun r => r.1.blocks) := by
  refine (transfers_skip value _).bind fun value' => ?_
  refine (transfers_parseString env rfl value').bind_of (yields_parseString env _ value')
    fun r hr => ?_
  obtain ⟨item', ptr⟩ := r
  cases ptr with
  | none => exact Transfers.pure (item', none) fun r => r.1.blocks
  | some ptr =>
    refine (transfers_skip ptr _).bind fun rest => Transfers.pure_perm ?_
    have hname : item'.string = none := hr.1
    show item'.blocks.Perm (CJsonItem.blocks _)
    rw [CJsonItem.blocks_eq, CJsonItem.blocks_eq, hname]
    show (item'.block :: (_ ++ [])).Perm (item'.block :: ([] ++ _))
    rw [List.append_nil]
    exact .refl _

theorem yields_parseStart (inObject : Bool) (b : ℕ) (value : List UInt8) :
    Yields (parseStart env inObject (freshItem b) value : HeapM σ _) fun r =>
      ∀ rest, r.2 = some rest → r.1.valuestring = none ∧ rest.length ≤ value.length := by
  refine Yields.ite (fun _ => yields_parseName env _ value) fun _ => Yields.pure fun rest h => ?_
  cases h
  exact ⟨rfl, le_refl _⟩

theorem transfers_parseStart (inObject : Bool) (b : ℕ) (value : List UInt8) :
    Transfers notHang (freshItem b).blocks
      (parseStart env inObject (freshItem b) value : HeapM σ _) (fun r => r.1.blocks) :=
  Transfers.ite (fun _ => transfers_parseName env b value) fun _ =>
    Transfers.pure (freshItem b, some value) fun r => r.1.blocks

/-- What is left of a text. -/
def RestOf (value : List UInt8) (rest : Option (List UInt8)) : Prop :=
  ∀ ptr, rest = some ptr → ptr.length ≤ value.length

theorem RestOf.none (value : List UInt8) : RestOf value none := fun _ h => nomatch h

theorem RestOf.some {value ptr : List UInt8} (h : ptr.length ≤ value.length) :
    RestOf value (some ptr) := by
  intro ptr' h'
  cases h'
  exact h

theorem RestOf.of_le {value value' : List UInt8} {rest : Option (List UInt8)}
    (h : RestOf value' rest) (hle : value'.length ≤ value.length) : RestOf value rest :=
  fun ptr hptr => (h ptr hptr).trans hle

/-- An array or an object, up to and with the bracket behind it. -/
theorem yields_parseBracket {value : List UInt8} (close : UInt8)
    {x : HeapM σ (List CJsonNode × Option (List UInt8))} (item : CJsonItem)
    (hx : Yields x fun r => RestOf value r.2) :
    Yields (if value.head? = Option.some close then pure (.node item [], Option.some value.tail)
      else x >>= fun r => pure (.node item r.1, r.2) :
        HeapM σ (CJsonNode × Option (List UInt8))) fun r => RestOf value r.2 := by
  refine Yields.ite (fun _ => Yields.pure (RestOf.some ?_)) fun _ => hx.bind fun r hr =>
    Yields.pure hr
  rw [List.length_tail]
  omega

/-- A value, if the children of an array or an object do not go back in the text. -/
theorem yields_parseValue_succ {fuel : ℕ} (hchildren : ∀ inObject value,
      Yields (parseChildren env fuel inObject value : HeapM σ _) fun r => RestOf value r.2)
    (item : CJsonItem) (value : List UInt8) :
    Yields (parseValue env (fuel + 1) item value : HeapM σ _) fun r => RestOf value r.2 := by
  have htail : value.tail.length ≤ value.length := by
    rw [List.length_tail]
    omega
  have hdrop : ∀ n, (value.drop n).length ≤ value.length := fun n => by
    rw [List.length_drop]
    omega
  refine Yields.seq fun kind => ?_
  cases kind with
  | null => exact Yields.pure (RestOf.some (hdrop 4))
  | cFalse => exact Yields.pure (RestOf.some (hdrop 5))
  | cTrue => exact Yields.pure (RestOf.some (hdrop 4))
  | malformed => exact Yields.pure (RestOf.none value)
  | string => exact (yields_parseString env item value).bind fun r hr => Yields.pure hr.2
  | number =>
    refine Yields.bind (Yields.lift (P := fun r => r.2.length ≤ value.length) ?_)
      fun r hr => Yields.pure (RestOf.some hr)
    intro r h
    obtain ⟨rest, hrest, h⟩ := bind_eq_ok.mp h
    cases h
    exact (stepsOn_skipNumber value).2 rest hrest
  | array =>
    refine (yields_skip value.tail).bind fun value' hle => ?_
    exact (yields_parseBracket 93 _ (hchildren false value')).imp
      fun r hr => hr.of_le (hle.trans htail)
  | object =>
    refine (yields_skip value.tail).bind fun value' hle => ?_
    exact (yields_parseBracket 125 _ (hchildren true value')).imp
      fun r hr => hr.of_le (hle.trans htail)

/-- A new item is a fresh one. -/
theorem yields_cJsonNewItem : Yields (cJsonNewItem env : HeapM σ _) fun r =>
    ∀ item, r = some item → ∃ b, item = freshItem b := by
  refine Yields.seq fun node => Yields.pure fun item h => ?_
  cases node with
  | none => exact nomatch h
  | some b => exact ⟨b, (Option.some.inj h).symm⟩

/-- The children, if neither a value nor the children behind it go back in the text. -/
theorem yields_parseChildren_succ {fuel : ℕ} (hvalue : ∀ item value,
      Yields (parseValue env fuel item value : HeapM σ _) fun r => RestOf value r.2)
    (hchildren : ∀ inObject value,
      Yields (parseChildren env fuel inObject value : HeapM σ _) fun r => RestOf value r.2)
    (inObject : Bool) (value : List UInt8) :
    Yields (parseChildren env (fuel + 1) inObject value : HeapM σ _) fun r =>
      RestOf value r.2 := by
  refine (yields_cJsonNewItem env).bind fun item hitem => ?_
  cases item with
  | none => exact Yields.pure (RestOf.none value)
  | some item =>
    obtain ⟨b, rfl⟩ := hitem item rfl
    refine (yields_parseStart env inObject b value).bind fun r hr => ?_
    obtain ⟨item, start⟩ := r
    cases start with
    | none => exact Yields.pure (RestOf.none value)
    | some start =>
      have hstart := (hr start rfl).2
      refine (yields_skip start).bind fun start' hskip => ?_
      refine (hvalue item start').bind fun r hr => ?_
      obtain ⟨child, rest⟩ := r
      cases rest with
      | none => exact Yields.pure (RestOf.none value)
      | some rest =>
        have hrest := hr rest rfl
        refine (yields_skip rest).bind fun rest' hskip' => ?_
        have htail : rest'.tail.length ≤ value.length := by
          rw [List.length_tail]
          omega
        refine Yields.ite (fun _ => ?_) fun _ => Yields.ite (fun _ => ?_) fun _ => ?_
        · exact (hchildren inObject rest'.tail).bind fun r hr => Yields.pure (hr.of_le htail)
        · exact Yields.pure (RestOf.some htail)
        · exact Yields.pure (RestOf.none value)

/-- The parser goes on in the text. The induction is on the bound of the depth. -/
theorem yields_parse (fuel : ℕ) :
    (∀ item value, Yields (parseValue env fuel item value : HeapM σ _) fun r =>
        RestOf value r.2) ∧
      ∀ inObject value, Yields (parseChildren env fuel inObject value : HeapM σ _) fun r =>
        RestOf value r.2 := by
  induction fuel with
  | zero =>
    constructor
    · intro item value s r s' h
      exact nomatch h
    · intro inObject value s r s' h
      exact nomatch h
  | succ fuel ih =>
    exact ⟨yields_parseValue_succ env ih.2, yields_parseChildren_succ env ih.1 ih.2⟩

theorem yields_valueKind (value : List UInt8) :
    Yields (Exec.lift (valueKind value) : HeapM σ _) fun _ => 0 < value.length := by
  refine Yields.lift fun kind h => ?_
  cases value with
  | nil => exact nomatch h
  | cons c cs => exact Nat.zero_lt_succ _

theorem transfers_parseBracket {value : List UInt8} (close : UInt8)
    {x : HeapM σ (List CJsonNode × Option (List UInt8))} (item : CJsonItem)
    (hx : Transfers notHang [] x fun r => CJsonNode.blocksAll r.1) :
    Transfers notHang item.blocks
      (if value.head? = some close then pure (.node item [], some value.tail)
      else x >>= fun r => pure (.node item r.1, r.2) :
        HeapM σ (CJsonNode × Option (List UInt8))) fun r => r.1.blocks := by
  refine Transfers.ite (fun _ => Transfers.pure_perm ?_) fun _ => ?_
  · show item.blocks.Perm (item.blocks ++ [])
    rw [List.append_nil]
  · exact hx.bind_frame (r := item.blocks) fun r => Transfers.pure_perm List.perm_append_comm

/-- A value, if the children of a shorter text hand over what they have allocated. -/
theorem transfers_parseValue_succ {fuel : ℕ} (hchildren : ∀ inObject value,
      2 * value.length + 1 < fuel → Transfers notHang []
        (parseChildren env fuel inObject value : HeapM σ _) fun r => CJsonNode.blocksAll r.1)
    {item : CJsonItem} {value : List UInt8} (hitem : item.valuestring = none)
    (hfuel : 2 * value.length < fuel + 1) :
    Transfers notHang item.blocks (parseValue env (fuel + 1) item value : HeapM σ _)
      fun r => r.1.blocks := by
  have hleaf : ∀ (item' : CJsonItem) (rest : Option (List UInt8)),
      item'.blocks = item.blocks → Transfers notHang item.blocks
        (pure (.node item' [], rest) : HeapM σ (CJsonNode × Option (List UInt8)))
        fun r => r.1.blocks := by
    intro item' rest h
    refine Transfers.pure_perm ?_
    show item.blocks.Perm (item'.blocks ++ [])
    rw [h, List.append_nil]
  refine (Transfers.lift (stops_valueKind value) item.blocks).bind_of (yields_valueKind value)
    fun kind hpos => ?_
  have htail : value.tail.length + 1 ≤ value.length := by
    rw [List.length_tail]
    omega
  cases kind with
  | null => exact hleaf _ _ rfl
  | cFalse => exact hleaf _ _ rfl
  | cTrue => exact hleaf _ _ rfl
  | malformed => exact hleaf _ _ rfl
  | string =>
    refine (transfers_parseString env hitem value).bind fun r => Transfers.pure_perm ?_
    show r.1.blocks.Perm (r.1.blocks ++ [])
    rw [List.append_nil]
  | number =>
    refine (Transfers.lift ((stepsOn_skipNumber value).1.bind fun _ => Stops.ok _)
      item.blocks).bind_of (P := fun r => r.1.blocks = item.blocks) (Yields.lift ?_)
      fun r hr => hleaf r.1 (some r.2) hr
    intro r h
    obtain ⟨rest, -, h⟩ := bind_eq_ok.mp h
    cases h
    rfl
  | array =>
    refine (transfers_skip value.tail _).bind_of (yields_skip value.tail) fun value' hle => ?_
    exact transfers_parseBracket 93 { item with type := .array }
      (hchildren false value' (by omega))
  | object =>
    refine (transfers_skip value.tail _).bind_of (yields_skip value.tail) fun value' hle => ?_
    exact transfers_parseBracket 125 { item with type := .object }
      (hchildren true value' (by omega))

/-- The children, if a value hands over what it has allocated, and so do the children behind it. -/
theorem transfers_parseChildren_succ {fuel : ℕ} (hvalue : ∀ item value,
      item.valuestring = none → 2 * value.length < fuel → Transfers notHang item.blocks
        (parseValue env fuel item value : HeapM σ _) fun r => r.1.blocks)
    (hchildren : ∀ inObject value, 2 * value.length + 1 < fuel → Transfers notHang []
      (parseChildren env fuel inObject value : HeapM σ _) fun r => CJsonNode.blocksAll r.1)
    {inObject : Bool} {value : List UInt8} (hfuel : 2 * value.length + 1 < fuel + 1) :
    Transfers notHang [] (parseChildren env (fuel + 1) inObject value : HeapM σ _)
      fun r => CJsonNode.blocksAll r.1 := by
  refine transfers_newItem_bind env (.pure ([], none) fun r => CJsonNode.blocksAll r.1)
    fun b => ?_
  have hone : ∀ (c : CJsonNode) (rest : Option (List UInt8)),
      Transfers notHang c.blocks
        (pure ([c], rest) : HeapM σ (List CJsonNode × Option (List UInt8)))
        fun r => CJsonNode.blocksAll r.1 := by
    intro c rest
    refine Transfers.pure_perm ?_
    show c.blocks.Perm (c.blocks ++ [])
    rw [List.append_nil]
  refine (transfers_parseStart env inObject b value).bind_of
    (yields_parseStart env inObject b value) fun r hr => ?_
  obtain ⟨item, start⟩ := r
  cases start with
  | none =>
    refine Transfers.perm (hone (.node item []) none) ?_ fun _ => .refl _
    show item.blocks.Perm (item.blocks ++ [])
    rw [List.append_nil]
  | some start =>
    obtain ⟨hstring, hstart⟩ := hr start rfl
    refine (transfers_skip start _).bind_of (yields_skip start) fun start' hskip => ?_
    refine (hvalue item start' hstring (by omega)).bind_of ((yields_parse env fuel).1 _ _)
      fun r hr => ?_
    obtain ⟨child, rest⟩ := r
    cases rest with
    | none => exact hone child none
    | some rest =>
      have hrest := hr rest rfl
      refine (transfers_skip rest _).bind_of (P := fun rest' => rest'.length ≤ rest.length)
        (yields_skip rest) fun rest' hskip' => ?_
      refine Transfers.ite (fun hcomma => ?_) fun _ => Transfers.ite (fun _ => hone child _)
        fun _ => hone child none
      have htail : rest'.tail.length + 1 = rest'.length := by
        cases rest' with
        | nil => exact nomatch hcomma
        | cons c cs => rfl
      refine (hchildren inObject rest'.tail (by omega)).bind_frame (r := child.blocks)
        fun r => Transfers.pure_perm ?_
      exact List.perm_append_comm

/-- The trees that the parser hands over, the unfinished ones among them, own all that it has
allocated, and its depth is bounded by the length of the text. The induction is on the bound. -/
theorem transfers_parse (fuel : ℕ) :
    (∀ item value, item.valuestring = none → 2 * value.length < fuel →
        Transfers notHang item.blocks (parseValue env fuel item value : HeapM σ _)
          fun r => r.1.blocks) ∧
      ∀ inObject value, 2 * value.length + 1 < fuel →
        Transfers notHang [] (parseChildren env fuel inObject value : HeapM σ _)
          fun r => CJsonNode.blocksAll r.1 := by
  induction fuel with
  | zero => exact ⟨fun _ _ _ h => absurd h (Nat.not_lt_zero _),
      fun _ _ h => absurd h (Nat.not_lt_zero _)⟩
  | succ fuel ih =>
    obtain ⟨ihValue, ihChildren⟩ := ih
    exact ⟨fun _ _ => transfers_parseValue_succ env ihChildren,
      fun _ _ => transfers_parseChildren_succ env ihValue ihChildren⟩

/-- A text that is no JSON, or for which there is no memory, leaves nothing behind. -/
theorem transfers_cJsonParse (value : List UInt8) :
    Transfers notHang [] (cJsonParse env value : HeapM σ _) treeBlocks := by
  refine transfers_newItem_bind env (.pure none treeBlocks) fun b => ?_
  refine (transfers_skip value _).bind_of (yields_skip value) fun value' hle => ?_
  refine ((transfers_parse env _).1 (freshItem b) value' rfl (by omega)).bind fun r => ?_
  obtain ⟨c, rest⟩ := r
  cases rest with
  | some rest => exact Transfers.pure (some c) treeBlocks
  | none =>
    exact (transfers_cJsonDelete c).weaken.bind fun _ => Transfers.pure none treeBlocks

theorem transfers_cJsonPrint (c : CJsonNode) :
    Transfers noFault [] (cJsonPrint env c : HeapM σ _) Option.toList :=
  transfers_printValue env c

end

end WLink.Misc
