import WLink.Lib.LinkedList
import WLink.Lib.Run
import WLink.Httpd.Dispatch

/-!
# The registry of callbacks

`Registered_URL_List` and the two functions that change it. As long as nobody removes the URL at
its head, the list in memory represents an ordered map from URLs to callbacks with their
arguments: `stepRight_iff`.

* `httpdRegisterCgiUrlCallback`, `httpdUnRegisterCgiUrlCallback` -- the functions
* `UrlMap` -- the ordered map and its operations
* `Represents` -- what the list in memory has to do with the map
-/

namespace WLink.Httpd

open WLink.Lib Exec

/-- `HttpdBuiltInUrl`, and `HttpdDynamicUrlItem` without its link: an entry of a table with its
argument, a pointer. -/
structure UrlEntry extends UrlItem where
  cgiArg : Option ℕ
deriving DecidableEq, Repr

/-- `Registered_URL_List` in memory. -/
abbrev Registry := ListStore UrlEntry

/-- `strlen(url)==strlen(item->url)` and `strncmp(url, item->url, strlen(url))==0` -/
def sameUrl (url : List UInt8) (item : UrlEntry) : Bool :=
  url.length = item.url.length && url.take url.length = item.url.take url.length

/-- `HTTPd_Register_CGI_URL_Callback`, with the block that the allocator would offer. -/
def httpdRegisterCgiUrlCallback (url : List UInt8) (cgiCb : ℕ) (cgiArg : Option ℕ)
    (offered : Option ℕ) : Exec Registry ℤ := do
  let s ← Exec.view id
  let (last, current) ← Exec.lift (seek s.cell (sameUrl url) s.blocks none s.head)
  match current with
  | some c =>
    let node ← readCell c
    writeCell c { node with val := { node.val with cgiCb, cgiArg } }
    pure 0
  | none =>
    match ← allocCell offered ⟨⟨url, cgiCb⟩, cgiArg⟩ with
    | none => pure (-1)
    | some new =>
      match last with
      | none => setHead (some new)
      | some _ => setNext last (some new)
      pure 0

/-- `HTTPd_UnRegister_CGI_URL_Callback`. For the first entry there is no entry before it. -/
def httpdUnRegisterCgiUrlCallback (url : List UInt8) : Exec Registry ℤ := do
  let s ← Exec.view id
  let (last, current) ← Exec.lift (seek s.cell (sameUrl url) s.blocks none s.head)
  match current with
  | some c =>
    let node ← readCell c
    setNext last node.next
    freeCell c
    pure 0
  | none => pure (-1)

/-- A call of one of the two functions. -/
inductive RegistryCall
  | register (url : List UInt8) (cgiCb : ℕ) (cgiArg offered : Option ℕ)
  | unRegister (url : List UInt8)
deriving DecidableEq, Repr

def RegistryCall.run : RegistryCall → Exec Registry ℤ
  | .register url cgiCb cgiArg offered => httpdRegisterCgiUrlCallback url cgiCb cgiArg offered
  | .unRegister url => httpdUnRegisterCgiUrlCallback url

/-! ## The ordered map -/

/-- A map from URLs to callbacks and arguments, in the order in which the URLs came. -/
abbrev UrlMap := List UrlEntry

/-- Give a URL that is in the map another callback and argument, or put it at the end. -/
def UrlMap.insert (map : UrlMap) (entry : UrlEntry) : UrlMap :=
  if entry.url ∈ map.map (·.url) then map.map fun e => if e.url = entry.url then entry else e
  else map ++ [entry]

/-- What the map has to become and what has to be returned. Only a URL that is new needs memory. -/
def RegistryCall.spec (memOk : Bool) (map : UrlMap) : RegistryCall → ℤ × UrlMap
  | .register url cgiCb cgiArg _ =>
    if url ∈ map.map (·.url) ∨ memOk then (0, map.insert ⟨⟨url, cgiCb⟩, cgiArg⟩) else (-1, map)
  | .unRegister url =>
    if url ∈ map.map (·.url) then (0, map.filter fun e => e.url ≠ url) else (-1, map)

/-- The list in memory holds the entries of the map: it ends, every block is in it, and no URL is
there twice. -/
structure Represents (s : Registry) (map : UrlMap) : Prop where
  linked : ∃ l, Linked s.cell s.head l none ∧ l.map Prod.snd = map ∧ l.length = s.blocks
  distinct : (map.map (·.url)).Nodup

theorem represents_empty : Represents ListStore.empty [] :=
  ⟨⟨[], rfl, rfl, rfl⟩, List.nodup_nil⟩

/-- The allocator has a block for the call. -/
def RegistryCall.memOk (s : Registry) : RegistryCall → Bool
  | .register _ _ _ offered => s.canAlloc offered
  | .unRegister _ => true

/-- The registry in memory and the map that it is to hold. -/
structure RegistryRun where
  reg : Registry
  map : UrlMap

def RegistryRun.start : RegistryRun := ⟨ListStore.empty, []⟩

/-- What the call has to return, and the map after it. -/
def RegistryRun.spec (s : RegistryRun) (call : RegistryCall) : ℤ × UrlMap :=
  call.spec (call.memOk s.reg) s.map

def registryStep (s : RegistryRun) (call : RegistryCall) : RegistryRun :=
  ⟨(exec call.run s.reg).2, (s.spec call).2⟩

/-- The call returns what the map asks for, the memory represents the new map, and a call that
fails changes nothing. -/
def StepRight (s : RegistryRun) (call : RegistryCall) : Prop :=
  (exec call.run s.reg).1 = .ok (s.spec call).1 ∧
    Represents (registryStep s call).reg (registryStep s call).map ∧
    ((s.spec call).1 = -1 → (registryStep s call).reg = s.reg)

/-- The call removes the URL at the head of the list. -/
def RemovesFirst (s : RegistryRun) : RegistryCall → Prop
  | .register _ _ _ _ => False
  | .unRegister url => ∃ e, s.map.head? = some e ∧ e.url = url

/-! ## The walk over the registry -/

theorem sameUrl_iff (url : List UInt8) (item : UrlEntry) :
    sameUrl url item = true ↔ item.url = url := by
  unfold sameUrl
  constructor
  · intro h
    obtain ⟨hlen, htake⟩ := Bool.and_eq_true_iff.mp h
    have hlen : url.length = item.url.length := of_decide_eq_true hlen
    have htake : url.take url.length = item.url.take url.length := of_decide_eq_true htake
    rw [List.take_length, hlen, List.take_length] at htake
    exact htake.symm
  · rintro rfl
    rw [decide_eq_true rfl, decide_eq_true rfl]
    rfl

/-- The entries in memory up to the one with a URL, and from there on. -/
structure Found (l : List (ℕ × UrlEntry)) (url : List UInt8) (l₁ l₂ : List (ℕ × UrlEntry)) :
    Prop where
  split : l = l₁ ++ l₂
  before : ∀ x ∈ l₁, x.2.url ≠ url
  first : ∀ x ∈ l₂.head?, x.2.url = url

theorem exists_found (l : List (ℕ × UrlEntry)) (url : List UInt8) : ∃ l₁ l₂, Found l url l₁ l₂ := by
  induction l with
  | nil => exact ⟨[], [], rfl, nofun, nofun⟩
  | cons x l ih =>
    by_cases hx : x.2.url = url
    · exact ⟨[], x :: l, rfl, nofun, fun y hy => Option.some.inj hy ▸ hx⟩
    · obtain ⟨l₁, l₂, hsplit, hbefore, hfirst⟩ := ih
      exact ⟨x :: l₁, l₂, congrArg (x :: ·) hsplit, List.forall_mem_cons.mpr ⟨hx, hbefore⟩, hfirst⟩

section

variable {s : Registry} {l l₁ l₂ : List (ℕ × UrlEntry)} {url : List UInt8}

/-- Both functions start with this walk. -/
theorem seek_sameUrl (h : Linked s.cell s.head l none) (hlen : l.length = s.blocks)
    (hfound : Found l url l₁ l₂) :
    seek s.cell (sameUrl url) s.blocks none s.head =
      .ok (l₁.getLast?.map Prod.fst, l₂.head?.map Prod.fst) := by
  obtain ⟨rfl, hbefore, hfirst⟩ := hfound
  rw [seek_eq h (fun x hx => ?_) (fun x hx => (sameUrl_iff url x.2).mpr (hfirst x hx))
    (Nat.le_of_eq hlen), Option.or_none]
  exact Bool.eq_false_iff.mpr fun hsame => hbefore x hx ((sameUrl_iff url x.2).mp hsame)

end

/-! ## The map around one entry -/

section

variable {m₁ m₂ : UrlMap} {e entry : UrlEntry}

/-- The other entries have other URLs. -/
theorem others_ne (h : ((m₁ ++ e :: m₂).map (·.url)).Nodup) :
    (∀ x ∈ m₁, x.url ≠ e.url) ∧ ∀ x ∈ m₂, x.url ≠ e.url := by
  rw [List.map_append, List.map_cons, List.nodup_middle, List.nodup_cons] at h
  constructor
  · intro x hx heq
    exact h.1 (List.mem_append_left _ (List.mem_map.mpr ⟨x, hx, heq⟩))
  · intro x hx heq
    exact h.1 (List.mem_append_right _ (List.mem_map.mpr ⟨x, hx, heq⟩))

theorem insert_present (h : ((m₁ ++ e :: m₂).map (·.url)).Nodup) (he : entry.url = e.url) :
    UrlMap.insert (m₁ ++ e :: m₂) entry = m₁ ++ entry :: m₂ := by
  obtain ⟨h₁, h₂⟩ := others_ne h
  have hmem : entry.url ∈ (m₁ ++ e :: m₂).map (·.url) :=
    List.mem_map.mpr ⟨e, List.mem_append_right _ List.mem_cons_self, he.symm⟩
  have hkeep : ∀ {m : UrlMap}, (∀ x ∈ m, x.url ≠ e.url) →
      m.map (fun x => if x.url = entry.url then entry else x) = m := by
    intro m hm
    refine (List.map_congr_left fun x hx => if_neg ?_).trans (List.map_id m)
    exact fun hx' => hm x hx (hx'.trans he)
  unfold UrlMap.insert
  rw [if_pos hmem, List.map_append, List.map_cons, hkeep h₁, hkeep h₂, if_pos he.symm]

theorem filter_present (h : ((m₁ ++ e :: m₂).map (·.url)).Nodup) :
    (m₁ ++ e :: m₂).filter (fun x => x.url ≠ e.url) = m₁ ++ m₂ := by
  obtain ⟨h₁, h₂⟩ := others_ne h
  have hkeep : ∀ {m : UrlMap}, (∀ x ∈ m, x.url ≠ e.url) →
      m.filter (fun x => x.url ≠ e.url) = m :=
    fun hm => List.filter_eq_self.mpr fun x hx => decide_eq_true (hm x hx)
  rw [List.filter_append, List.filter_cons, hkeep h₁, hkeep h₂, if_neg]
  rw [decide_eq_true_iff]
  exact not_not_intro rfl

end

/-! ## One call -/

section

variable {s : Registry} {l l₁ l₂ : List (ℕ × UrlEntry)} {url : List UInt8}

/-- A URL that is in the list gets another callback and argument. -/
theorem exec_register_present {c : ℕ} {e : UrlEntry} (h : Linked s.cell s.head l none)
    (hlen : l.length = s.blocks) (hfound : Found l url l₁ ((c, e) :: l₂)) (cgiCb : ℕ)
    (cgiArg offered : Option ℕ) :
    ∃ cell, exec (httpdRegisterCgiUrlCallback url cgiCb cgiArg offered) s =
        (.ok 0, { s with cell }) ∧
      Linked cell s.head (l₁ ++ (c, ⟨⟨url, cgiCb⟩, cgiArg⟩) :: l₂) none := by
  have hseek := seek_sameUrl h hlen hfound
  have hurl : e.url = url := hfound.first (c, e) rfl
  rw [hfound.split] at h
  obtain ⟨next, hcell, hlinked⟩ := h.update_val ⟨⟨url, cgiCb⟩, cgiArg⟩
  refine ⟨_, ?_, hlinked⟩
  unfold httpdRegisterCgiUrlCallback
  rw [exec_bind_ok (exec_view id s)]
  dsimp only [id]
  rw [hseek, exec_bind_ok (exec_lift _ s)]
  dsimp only [List.head?_cons, Option.map_some]
  rw [exec_bind_ok (exec_readCell hcell), exec_bind_ok (exec_writeCell hcell _)]
  rw [← hurl]
  rfl

/-- A new URL goes to the end of the list, if there is memory for it. -/
theorem exec_register_absent {offered : Option ℕ} (h : Linked s.cell s.head l none)
    (hlen : l.length = s.blocks) (hfound : Found l url l []) (hmem : s.canAlloc offered = true)
    (cgiCb : ℕ) (cgiArg : Option ℕ) :
    ∃ n cell head, exec (httpdRegisterCgiUrlCallback url cgiCb cgiArg offered) s =
        (.ok 0, ⟨cell, head, s.blocks + 1⟩) ∧
      Linked cell head (l ++ [(n, ⟨⟨url, cgiCb⟩, cgiArg⟩)]) none := by
  have hseek := seek_sameUrl h hlen hfound
  obtain ⟨n, hn, halloc⟩ := exec_allocCell hmem (⟨⟨url, cgiCb⟩, cgiArg⟩ : UrlEntry)
  unfold httpdRegisterCgiUrlCallback
  rw [exec_bind_ok (exec_view id s)]
  dsimp only [id]
  rw [hseek, exec_bind_ok (exec_lift _ s)]
  dsimp only [List.head?_nil, Option.map_none]
  rw [exec_bind_ok halloc]
  dsimp only
  rcases List.eq_nil_or_concat l with rfl | ⟨l', x, rfl⟩
  · refine ⟨n, _, _, rfl, rfl, none, Function.update_self .., rfl⟩
  · have hx : (l'.concat x) = l' ++ [(x.1, x.2)] := List.concat_eq_append
    rw [hx] at h ⊢
    obtain ⟨next, hcell⟩ := h.mem_cell (List.mem_append_right l' (List.mem_singleton_self _))
    have hne : x.1 ≠ n := fun hxn =>
      Option.some_ne_none _ (hcell.symm.trans ((congrArg s.cell hxn).trans hn))
    refine ⟨n, _, _, ?_, h.append_cell (h.not_mem_of_free hn) _⟩
    have hlast : (l' ++ [(x.1, x.2)]).getLast?.map Prod.fst = some x.1 := by
      rw [List.getLast?_concat]
      rfl
    have hcell' : Function.update s.cell n (some ⟨⟨⟨url, cgiCb⟩, cgiArg⟩, none⟩) x.1 =
        some ⟨x.2, next⟩ := (Function.update_of_ne hne _ _).trans hcell
    rw [hlast]
    dsimp only
    rw [exec_bind_ok (exec_setNext hcell' (some n))]
    rfl

/-- Without memory for a new URL nothing changes. -/
theorem exec_register_noMem {offered : Option ℕ} (h : Linked s.cell s.head l none)
    (hlen : l.length = s.blocks) (hfound : Found l url l []) (hmem : s.canAlloc offered = false)
    (cgiCb : ℕ) (cgiArg : Option ℕ) :
    exec (httpdRegisterCgiUrlCallback url cgiCb cgiArg offered) s = (.ok (-1), s) := by
  unfold httpdRegisterCgiUrlCallback
  rw [exec_bind_ok (exec_view id s)]
  dsimp only [id]
  rw [seek_sameUrl h hlen hfound, exec_bind_ok (exec_lift _ s)]
  dsimp only [List.head?_nil, Option.map_none]
  rw [exec_bind_ok (exec_allocCell_none hmem _)]
  rfl

/-- A URL that is not in the list cannot be removed. -/
theorem exec_unRegister_absent (h : Linked s.cell s.head l none) (hlen : l.length = s.blocks)
    (hfound : Found l url l []) :
    exec (httpdUnRegisterCgiUrlCallback url) s = (.ok (-1), s) := by
  unfold httpdUnRegisterCgiUrlCallback
  rw [exec_bind_ok (exec_view id s)]
  dsimp only [id]
  rw [seek_sameUrl h hlen hfound, exec_bind_ok (exec_lift _ s)]
  rfl

/-- The first URL cannot be removed: the code writes through `NULL`. -/
theorem exec_unRegister_first {x : ℕ × UrlEntry} (h : Linked s.cell s.head l none)
    (hlen : l.length = s.blocks) (hfound : Found l url [] (x :: l₂)) :
    (exec (httpdUnRegisterCgiUrlCallback url) s).1 = .error .write := by
  have hseek := seek_sameUrl h hlen hfound
  rw [hfound.split] at h
  obtain ⟨next, hcell⟩ := h.mem_cell (List.mem_append_right [] List.mem_cons_self)
  unfold httpdUnRegisterCgiUrlCallback
  rw [exec_bind_ok (exec_view id s)]
  dsimp only [id]
  rw [hseek, exec_bind_ok (exec_lift _ s)]
  dsimp only [List.head?_cons, Option.map_some]
  rw [exec_bind_ok (exec_readCell hcell)]
  rfl

/-- Any other URL is taken out of the list. -/
theorem exec_unRegister_later {x : ℕ × UrlEntry} {c : ℕ} {a : UrlEntry}
    (h : Linked s.cell s.head l none) (hlen : l.length = s.blocks)
    (hfound : Found l url (l₁ ++ [(c, a)]) (x :: l₂)) :
    ∃ cell, exec (httpdUnRegisterCgiUrlCallback url) s =
        (.ok 0, ⟨cell, s.head, s.blocks - 1⟩) ∧
      Linked cell s.head (l₁ ++ [(c, a)] ++ l₂) none := by
  have hseek := seek_sameUrl h hlen hfound
  rw [hfound.split] at h
  obtain ⟨next, hcell, hlinked⟩ := h.remove_cell
  obtain ⟨next', hcell'⟩ := h.mem_cell (x := (c, a))
    (List.mem_append_left _ (List.mem_append_right _ (List.mem_singleton_self _)))
  refine ⟨_, ?_, hlinked⟩
  have hlast : (l₁ ++ [(c, a)]).getLast?.map Prod.fst = some c := by
    rw [List.getLast?_concat]
    rfl
  unfold httpdUnRegisterCgiUrlCallback
  rw [exec_bind_ok (exec_view id s)]
  dsimp only [id]
  rw [hseek, exec_bind_ok (exec_lift _ s), hlast]
  dsimp only [List.head?_cons, Option.map_some]
  rw [exec_bind_ok (exec_readCell hcell), exec_bind_ok (exec_setNext hcell' next)]
  rfl

end

theorem found_absent {l : List (ℕ × UrlEntry)} {url : List UInt8} (h : Found l url l []) :
    url ∉ (l.map Prod.snd).map (·.url) := by
  intro hmem
  obtain ⟨e, he, hurl⟩ := List.mem_map.mp hmem
  obtain ⟨x, hx, rfl⟩ := List.mem_map.mp he
  exact h.before x hx hurl

theorem found_present {l l₁ l₂ : List (ℕ × UrlEntry)} {x : ℕ × UrlEntry} {url : List UInt8}
    (h : Found l url l₁ (x :: l₂)) : url ∈ (l.map Prod.snd).map (·.url) := by
  rw [h.split, List.map_append, List.map_cons, List.map_append, List.map_cons]
  exact List.mem_append_right _ (List.mem_cons.mpr (Or.inl (h.first x rfl).symm))

section

variable {reg : Registry} {l : List (ℕ × UrlEntry)}

theorem stepRight_register (hlinked : Linked reg.cell reg.head l none)
    (hlen : l.length = reg.blocks) (hdistinct : ((l.map Prod.snd).map (·.url)).Nodup)
    (url : List UInt8) (cgiCb : ℕ) (cgiArg offered : Option ℕ) :
    StepRight ⟨reg, l.map Prod.snd⟩ (.register url cgiCb cgiArg offered) := by
  obtain ⟨l₁, l₂, hfound⟩ := exists_found l url
  cases l₂ with
  | nil =>
    obtain rfl : l = l₁ := hfound.split.trans (List.append_nil l₁)
    have habsent := found_absent hfound
    by_cases hmem : reg.canAlloc offered = true
    · obtain ⟨n, cell, head, hexec, hlinked'⟩ :=
        exec_register_absent hlinked hlen hfound hmem cgiCb cgiArg
      have hspec : RegistryRun.spec ⟨reg, l.map Prod.snd⟩ (.register url cgiCb cgiArg offered) =
          (0, (l ++ [(n, (⟨⟨url, cgiCb⟩, cgiArg⟩ : UrlEntry))]).map Prod.snd) := by
        rw [List.map_append]
        exact (if_pos (Or.inr hmem)).trans (Prod.ext rfl (if_neg habsent))
      have hnew : (((l ++ [(n, (⟨⟨url, cgiCb⟩, cgiArg⟩ : UrlEntry))]).map Prod.snd).map
          (·.url)).Nodup := by
        rw [List.map_append, List.map_append]
        refine List.nodup_append.mpr ⟨hdistinct, List.nodup_singleton _, ?_⟩
        rintro u hu v hv rfl
        have hnew : u = url := List.mem_singleton.mp hv
        exact habsent (hnew ▸ hu)
      unfold StepRight registryStep RegistryCall.run
      rw [hspec, hexec]
      refine ⟨rfl, ⟨⟨_, hlinked', rfl, ?_⟩, hnew⟩, nofun⟩
      rw [List.length_append, hlen]
      rfl
    · have hmem : reg.canAlloc offered = false := Bool.eq_false_iff.mpr hmem
      have hspec : RegistryRun.spec ⟨reg, l.map Prod.snd⟩ (.register url cgiCb cgiArg offered) =
          (-1, l.map Prod.snd) := by
        refine if_neg (not_or_intro habsent ?_)
        exact fun h => Bool.false_ne_true (hmem.symm.trans h)
      unfold StepRight registryStep RegistryCall.run
      rw [hspec, exec_register_noMem hlinked hlen hfound hmem]
      exact ⟨rfl, ⟨⟨l, hlinked, rfl, hlen⟩, hdistinct⟩, fun _ => rfl⟩
  | cons x l₂ =>
    obtain ⟨c, e⟩ := x
    obtain ⟨cell, hexec, hlinked'⟩ :=
      exec_register_present hlinked hlen hfound cgiCb cgiArg offered
    have hurl : e.url = url := hfound.first (c, e) rfl
    have hpresent := found_present hfound
    obtain ⟨rfl, -, -⟩ := hfound
    have hmap : (l₁ ++ (c, e) :: l₂).map Prod.snd = l₁.map Prod.snd ++ e :: l₂.map Prod.snd :=
      List.map_append
    have hspec : RegistryRun.spec ⟨reg, (l₁ ++ (c, e) :: l₂).map Prod.snd⟩
        (.register url cgiCb cgiArg offered) =
        (0, (l₁ ++ (c, ⟨⟨url, cgiCb⟩, cgiArg⟩) :: l₂).map Prod.snd) := by
      refine (if_pos (Or.inl hpresent)).trans (Prod.ext rfl ?_)
      rw [hmap] at hdistinct ⊢
      rw [insert_present hdistinct hurl.symm, List.map_append]
      rfl
    unfold StepRight registryStep RegistryCall.run
    rw [hspec, hexec]
    refine ⟨rfl, ⟨⟨_, hlinked', rfl, ?_⟩, ?_⟩, nofun⟩
    · rw [← hlen, List.length_append, List.length_append]
      rfl
    · rw [hmap, List.map_append, List.map_cons, hurl] at hdistinct
      rw [List.map_append, List.map_append]
      exact hdistinct

theorem stepRight_unRegister_iff (hlinked : Linked reg.cell reg.head l none)
    (hlen : l.length = reg.blocks) (hdistinct : ((l.map Prod.snd).map (·.url)).Nodup)
    (url : List UInt8) :
    StepRight ⟨reg, l.map Prod.snd⟩ (.unRegister url) ↔
      ¬ RemovesFirst ⟨reg, l.map Prod.snd⟩ (.unRegister url) := by
  obtain ⟨l₁, l₂, hfound⟩ := exists_found l url
  cases l₂ with
  | nil =>
    obtain rfl : l = l₁ := hfound.split.trans (List.append_nil l₁)
    have habsent := found_absent hfound
    refine iff_of_true ?_ ?_
    · have hspec : RegistryRun.spec ⟨reg, l.map Prod.snd⟩ (.unRegister url) =
          (-1, l.map Prod.snd) := if_neg habsent
      unfold StepRight registryStep RegistryCall.run
      rw [hspec, exec_unRegister_absent hlinked hlen hfound]
      exact ⟨rfl, ⟨⟨l, hlinked, rfl, hlen⟩, hdistinct⟩, fun _ => rfl⟩
    · rintro ⟨e, he, hurl⟩
      exact habsent (List.mem_map.mpr ⟨e, List.mem_of_mem_head? he, hurl⟩)
  | cons x l₂ =>
    rcases List.eq_nil_or_concat l₁ with rfl | ⟨l', y, rfl⟩
    · -- the first entry: there is no cell before it
      refine iff_of_false ?_ (not_not_intro ?_)
      · rintro ⟨hret, -⟩
        rw [show (RegistryCall.unRegister url).run = httpdUnRegisterCgiUrlCallback url from rfl,
          exec_unRegister_first hlinked hlen hfound] at hret
        exact nomatch hret
      · refine ⟨x.2, ?_, hfound.first x rfl⟩
        rw [hfound.split]
        rfl
    · rw [List.concat_eq_append] at hfound
      obtain ⟨cell, hexec, hlinked'⟩ := exec_unRegister_later hlinked hlen hfound
      have hpresent := found_present hfound
      have hurl : x.2.url = url := hfound.first x rfl
      have hbefore := hfound.before
      obtain ⟨rfl, -, -⟩ := hfound
      have hmap : (l' ++ [y] ++ x :: l₂).map Prod.snd =
          (l' ++ [y]).map Prod.snd ++ x.2 :: l₂.map Prod.snd := List.map_append
      have hspec : RegistryRun.spec ⟨reg, (l' ++ [y] ++ x :: l₂).map Prod.snd⟩
          (.unRegister url) = (0, (l' ++ [y] ++ l₂).map Prod.snd) := by
        refine (if_pos hpresent).trans (Prod.ext rfl ?_)
        rw [hmap] at hdistinct ⊢
        rw [← hurl]
        exact (filter_present hdistinct).trans List.map_append.symm
      refine iff_of_true ?_ ?_
      · unfold StepRight registryStep RegistryCall.run
        rw [hspec, hexec]
        refine ⟨rfl, ⟨⟨_, hlinked', rfl, ?_⟩, ?_⟩, nofun⟩
        · rw [← hlen]
          simp only [List.length_append, List.length_cons]
          omega
        · refine hdistinct.sublist (List.Sublist.map _ (List.Sublist.map _ ?_))
          exact List.Sublist.append_left (List.sublist_cons_self x l₂) _
      · rintro ⟨e, he, heurl⟩
        have hmem : e ∈ (l' ++ [y]).map Prod.snd := by
          rw [hmap, List.head?_append] at he
          cases hhead : ((l' ++ [y]).map Prod.snd).head? with
          | none =>
            rw [List.head?_eq_none_iff, List.map_append] at hhead
            exact absurd hhead (List.append_ne_nil_of_right_ne_nil _ nofun)
          | some e' =>
            rw [hhead] at he
            exact Option.some.inj he ▸ List.mem_of_mem_head? hhead
        obtain ⟨z, hz, rfl⟩ := List.mem_map.mp hmem
        exact hbefore z hz heurl

end

/-- A call of a registry that represents a map does what the map asks for, unless it is to remove
the URL at its head. -/
theorem stepRight_iff {s : RegistryRun} (hs : Represents s.reg s.map) (call : RegistryCall) :
    StepRight s call ↔ ¬ RemovesFirst s call := by
  obtain ⟨reg, map⟩ := s
  obtain ⟨⟨l, hlinked, rfl, hlen⟩, hdistinct⟩ := hs
  cases call with
  | register url cgiCb cgiArg offered =>
    exact iff_of_true (stepRight_register hlinked hlen hdistinct url cgiCb cgiArg offered) not_false
  | unRegister url => exact stepRight_unRegister_iff hlinked hlen hdistinct url

/-- From the empty registry on, every call of a run does what the ordered map asks for exactly as
long as none removes the URL at the head of the list. -/
theorem registry_refines_iff (calls : List RegistryCall) :
    AllSteps registryStep StepRight .start calls ↔
      AllSteps registryStep (fun s call => ¬ RemovesFirst s call) .start calls :=
  allSteps_congr (fun _ call hs => stepRight_iff hs call) (fun _ _ _ hright => hright.2.1)
    represents_empty calls

/-- The application registers a URL and takes it back. -/
theorem not_stepRight_removeFirst :
    ¬ AllSteps registryStep StepRight .start
      [.register (ascii "/LED_PWM") 0 none (some 0), .unRegister (ascii "/LED_PWM")] := by
  rintro ⟨-, hremove, -⟩
  have hfault : (exec (httpdUnRegisterCgiUrlCallback (ascii "/LED_PWM"))
      (registryStep .start (.register (ascii "/LED_PWM") 0 none (some 0))).reg).1 =
      .error .write := by decide +kernel
  exact nomatch hfault.symm.trans hremove.1

end WLink.Httpd
