import WLink.Net.Dhcp

/-!
# What runs of the interface keep

`DHCP_state` is to say what lwIP's client does: with `DHCP_OFF` it is stopped, with
`DHCP_WAIT_ADDRESS` it has its data. `always_sound_iff` names the ticks that break this, and
`static_persists` the ticks that throw away addresses set by hand.
-/

namespace WLink.Net

open WLink.Lib

/-! ## The client -/

/-- lwIP's client is stopped: it was never started, or it is off. -/
def Netif.ClientStopped (n : Netif) : Prop := ∀ d ∈ n.dhcp, d.state = .off

instance (n : Netif) : Decidable n.ClientStopped :=
  inferInstanceAs (Decidable (∀ d ∈ n.dhcp, d.state = .off))

theorem clientStopped_none {n : Netif} (h : n.dhcp = none) : n.ClientStopped := by
  intro d hd
  rw [h] at hd
  exact absurd hd (Option.not_mem_none d)

theorem clientStopped_some {n : Netif} {d : Dhcp} (h : n.dhcp = some d) :
    n.ClientStopped ↔ d.state = .off := by
  unfold Netif.ClientStopped
  rw [h]
  exact ⟨fun hall => hall d rfl, fun hoff d' hd' => Option.some.inj hd' ▸ hoff⟩

theorem dhcpSetState_state (d : Dhcp) (state : DhcpClientState) :
    (dhcpSetState d state).state = state := by
  unfold dhcpSetState
  split
  · next h => exact h.symm
  · rfl

theorem dhcpReleaseAndStop_clientStopped (n : Netif) : (dhcpReleaseAndStop n).ClientStopped := by
  unfold dhcpReleaseAndStop
  cases hd : n.dhcp with
  | none => exact clientStopped_none hd
  | some d =>
    by_cases hoff : d.state = .off
    · simp only [if_pos hoff]
      exact (clientStopped_some hd).mpr hoff
    · simp only [if_neg hoff]
      split
      · exact (clientStopped_some rfl).mpr (dhcpSetState_state d .off)
      · exact (clientStopped_some rfl).mpr (dhcpSetState_state d .off)

/-- A stopped client stays as it is, and so do the addresses. -/
theorem dhcpReleaseAndStop_of_clientStopped {n : Netif} (h : n.ClientStopped) :
    dhcpReleaseAndStop n = n := by
  unfold dhcpReleaseAndStop
  cases hd : n.dhcp with
  | none => rfl
  | some d => exact if_pos ((clientStopped_some hd).mp h)

theorem dhcpProgress_of_clientStopped {n : Netif} (h : n.ClientStopped) (d : Dhcp)
    (addr : Addresses) : dhcpProgress d addr n = n := by
  unfold dhcpProgress
  cases hd : n.dhcp with
  | none => rfl
  | some old => exact if_pos ((clientStopped_some hd).mp h)

theorem dhcpNetworkChangedLinkUp_of_clientStopped {n : Netif} (h : n.ClientStopped) :
    dhcpNetworkChangedLinkUp n = n := by
  unfold dhcpNetworkChangedLinkUp
  cases hd : n.dhcp with
  | none => rfl
  | some d =>
    simp only
    rw [(clientStopped_some hd).mp h]

theorem dhcpProgress_isSome (d : Dhcp) (addr : Addresses) (n : Netif) :
    (dhcpProgress d addr n).dhcp.isSome = n.dhcp.isSome := by
  unfold dhcpProgress
  cases hd : n.dhcp with
  | none => simp only [hd]
  | some old =>
    by_cases hoff : old.state = .off
    · simp only [if_pos hoff, hd]
    · simp only [if_neg hoff, Option.isSome_some]

theorem dhcpNetworkChangedLinkUp_isSome (n : Netif) :
    (dhcpNetworkChangedLinkUp n).dhcp.isSome = n.dhcp.isSome := by
  unfold dhcpNetworkChangedLinkUp
  cases hd : n.dhcp with
  | none => simp only [hd]
  | some d =>
    simp only
    split
    all_goals first | rfl | simp only [hd]

/-- `dhcp_start` can attach a client: the interface is up, its MTU will do and the heap has
memory for the client data. -/
def CanAttach (m : StartMemory) (n : Netif) : Prop :=
  n.up = true ∧ dhcpMaxMsgLenMinRequired ≤ n.mtu ∧ m.client = true

instance (m : StartMemory) (n : Netif) : Decidable (CanAttach m n) :=
  inferInstanceAs (Decidable (_ ∧ _ ∧ _))

/-- After `dhcp_start` there is a client exactly when there was one or one could be attached. -/
theorem dhcpStart_isSome_iff (m : StartMemory) (n : Netif) :
    (dhcpStart m n).2.dhcp.isSome ↔ n.dhcp.isSome ∨ CanAttach m n := by
  unfold dhcpStart CanAttach
  by_cases hup : n.up = true
  · by_cases hmtu : n.mtu < dhcpMaxMsgLenMinRequired
    · simp [hup, hmtu, Nat.not_le.mpr hmtu]
    · by_cases hmem : n.dhcp = none ∧ m.client = false
      · simp [hup, hmtu, hmem.1, hmem.2]
      · have hclient : n.dhcp.isSome ∨ m.client = true := by
          cases hd : n.dhcp with
          | none => exact Or.inr (by simpa [hd] using hmem)
          | some d => exact Or.inl rfl
        have hmtu' : dhcpMaxMsgLenMinRequired ≤ n.mtu := Nat.not_lt.mp hmtu
        simp only [hup, Bool.not_true, Bool.false_eq_true, if_false, hmtu, hmtu', true_and]
        rw [if_neg (by simpa using hmem), iff_true_right hclient]
        cases m.pcb <;> cases n.linkUp <;> rfl
  · simp [hup]

/-- `dhcp_start` writes no address. -/
theorem dhcpStart_addr (m : StartMemory) (n : Netif) : (dhcpStart m n).2.addr = n.addr := by
  unfold dhcpStart dhcpDiscover
  simp only [if_true]
  repeat' split
  all_goals rfl

/-! ## The invariant -/

/-- `DHCP_OFF` means a stopped client, `DHCP_WAIT_ADDRESS` that there is client data. -/
def NeonState.Sound (s : NeonState) : Prop :=
  (s.dhcpState = .off → s.netif.ClientStopped) ∧
    (s.dhcpState = .waitAddress → s.netif.dhcp.isSome)

instance (s : NeonState) : Decidable s.Sound := inferInstanceAs (Decidable (_ ∧ _))

theorem sound_neonTcpipInit (linkUp : Bool) (mtu : ℕ) (addr : Addresses) :
    (neonTcpipInit linkUp mtu addr).Sound := by
  cases linkUp
  · exact ⟨nofun, nofun⟩
  · exact ⟨nofun, nofun⟩

/-- A tick that finds the link down must find the client stopped, and one that finds the link up
and `DHCP_START` must find client data or what it takes to attach some. -/
def TickOk (m : StartMemory) (s : NeonState) : Prop :=
  if s.netif.linkUp then s.dhcpState = .start → s.netif.dhcp.isSome ∨ CanAttach m s.netif
  else s.netif.ClientStopped

/-- The condition on a step: only ticks can go wrong. -/
def StepOk (s : NeonState) : NetEvent → Prop
  | .background (.tick m) => TickOk m s
  | _ => True

/-- What a tick does to a sound state. -/
theorem sound_dhcpProcess_iff (m : StartMemory) {s : NeonState} (hs : s.Sound) :
    (dhcpProcess m s).Sound ↔ TickOk m s := by
  unfold dhcpProcess TickOk
  by_cases hlink : s.netif.linkUp = true
  · rw [if_pos hlink, if_pos hlink]
    cases hst : s.dhcpState with
    | start =>
      have hstart := dhcpStart_isSome_iff m (netifSetAddr .zero s.netif)
      have hsame : (netifSetAddr .zero s.netif).dhcp.isSome ∨
          CanAttach m (netifSetAddr .zero s.netif) ↔
          s.netif.dhcp.isSome ∨ CanAttach m s.netif := Iff.rfl
      constructor
      · exact fun h _ => hsame.mp (hstart.mp (h.2 rfl))
      · exact fun h => ⟨nofun, fun _ => hstart.mpr (hsame.mpr (h rfl))⟩
    | waitAddress =>
      obtain ⟨d, hd⟩ := Option.isSome_iff_exists.mp (hs.2 hst)
      refine iff_of_true ?_ nofun
      simp only [hd]
      split
      · exact ⟨nofun, nofun⟩
      · split
        · exact ⟨nofun, nofun⟩
        · exact hs
    | askRelease =>
      exact iff_of_true ⟨fun _ => dhcpReleaseAndStop_clientStopped _, nofun⟩ nofun
    | linkDown =>
      exact iff_of_true ⟨fun _ => dhcpReleaseAndStop_clientStopped _, nofun⟩ nofun
    | off => exact iff_of_true hs nofun
    | addressAssigned => exact iff_of_true hs nofun
    | timeout => exact iff_of_true hs nofun
  · rw [if_neg hlink, if_neg hlink]
    -- `DHCP_OFF` is written whatever the client does
    exact ⟨fun h => h.1 rfl, fun h => ⟨fun _ => h, nofun⟩⟩

/-- A sound state has the client data that a tick looks at. -/
theorem dhcpProcess_faulted (m : StartMemory) {s : NeonState} (hs : s.Sound) :
    (dhcpProcess m s).faulted = s.faulted := by
  unfold dhcpProcess
  split
  · cases hst : s.dhcpState with
    | waitAddress =>
      obtain ⟨d, hd⟩ := Option.isSome_iff_exists.mp (hs.2 hst)
      simp only [hd]
      repeat' split
      all_goals rfl
    | _ => rfl
  · rfl

theorem sound_updateConfig (notified : Bool) {s : NeonState} (hs : s.Sound) :
    (updateConfig notified s).Sound := by
  unfold updateConfig notifyConnChanged
  split
  · split
    · exact ⟨nofun, nofun⟩
    · exact ⟨nofun, nofun⟩
  · exact hs

/-- A change of the interface that leaves a stopped client stopped and its data in place. -/
theorem sound_of_netif {s : NeonState} {n : Netif} (hs : s.Sound)
    (hstopped : s.netif.ClientStopped → n.ClientStopped)
    (hdata : n.dhcp.isSome = s.netif.dhcp.isSome) : ({ s with netif := n } : NeonState).Sound :=
  ⟨fun h => hstopped (hs.1 h), fun h => hdata.trans (hs.2 h)⟩

theorem sound_netifSetLinkUp (notified : Bool) {s : NeonState} (hs : s.Sound) :
    (netifSetLinkUp notified s).Sound := by
  unfold netifSetLinkUp
  split
  · exact hs
  · apply sound_updateConfig
    apply sound_of_netif hs
    · intro hstopped
      have hup : ({ s.netif with linkUp := true } : Netif).ClientStopped := hstopped
      rw [dhcpNetworkChangedLinkUp_of_clientStopped hup]
      exact hup
    · exact dhcpNetworkChangedLinkUp_isSome _

theorem sound_netifSetLinkDown (notified : Bool) {s : NeonState} (hs : s.Sound) :
    (netifSetLinkDown notified s).Sound := by
  unfold netifSetLinkDown
  split
  · exact sound_updateConfig notified (sound_of_netif hs id rfl)
  · exact hs

theorem sound_setStatic (addr : Addresses) (s : NeonState) : (setStatic addr s).Sound :=
  ⟨fun _ => dhcpReleaseAndStop_clientStopped s.netif, nofun⟩

theorem setAddress_run_eq (call : SetAddress) (s : NeonState) :
    ∃ addr, call.run s = setStatic addr s := by
  cases call with
  | updateAddresses ip netmask gw => exact ⟨_, rfl⟩
  | ipAddress ip => exact ⟨_, rfl⟩
  | gateway gw => exact ⟨_, rfl⟩
  | netMask netmask => exact ⟨_, rfl⟩

/-- A step from a sound state ends in one exactly when it meets the condition. -/
theorem sound_run_iff {s : NeonState} (hs : s.Sound) (e : NetEvent) :
    (e.run s).Sound ↔ StepOk s e := by
  cases e with
  | background e =>
    cases e with
    | tick m => exact sound_dhcpProcess_iff m hs
    | linkUp notified => exact iff_of_true (sound_netifSetLinkUp notified hs) trivial
    | linkDown notified => exact iff_of_true (sound_netifSetLinkDown notified hs) trivial
    | progress d addr =>
      refine iff_of_true (sound_of_netif hs ?_ (dhcpProgress_isSome d addr s.netif)) trivial
      intro hstopped
      rw [dhcpProgress_of_clientStopped hstopped]
      exact hstopped
  | set call =>
    obtain ⟨addr, hrun⟩ := setAddress_run_eq call s
    refine iff_of_true ?_ trivial
    show (call.run s).Sound
    rw [hrun]
    exact sound_setStatic addr s

theorem updateConfig_faulted (notified : Bool) (s : NeonState) :
    (updateConfig notified s).faulted = s.faulted := by
  unfold updateConfig notifyConnChanged
  repeat' split
  all_goals rfl

theorem run_faulted {s : NeonState} (hs : s.Sound) (e : NetEvent) :
    (e.run s).faulted = s.faulted := by
  cases e with
  | background e =>
    cases e with
    | tick m => exact dhcpProcess_faulted m hs
    | linkUp notified =>
      show (netifSetLinkUp notified s).faulted = s.faulted
      unfold netifSetLinkUp
      split
      · rfl
      · exact updateConfig_faulted notified _
    | linkDown notified =>
      show (netifSetLinkDown notified s).faulted = s.faulted
      unfold netifSetLinkDown
      split
      · exact updateConfig_faulted notified _
      · rfl
    | progress d addr => rfl
  | set call =>
    obtain ⟨addr, hrun⟩ := setAddress_run_eq call s
    show (call.run s).faulted = s.faulted
    rw [hrun]
    rfl

theorem netStep_of_live {s : NeonState} (h : s.faulted = false) (e : NetEvent) :
    netStep s e = e.run s := by
  unfold netStep
  rw [h, if_neg Bool.false_ne_true]

/-- From its initialisation on, `DHCP_state` says what the client does exactly as long as every
tick that finds the link down finds the client stopped, and every tick that is to start a client
has one or can attach one. -/
theorem always_sound_iff (linkUp : Bool) (mtu : ℕ) (addr : Addresses) (es : List NetEvent) :
    Always netStep NeonState.Sound (neonTcpipInit linkUp mtu addr) es ↔
      AllSteps netStep StepOk (neonTcpipInit linkUp mtu addr) es := by
  refine always_iff_allSteps (J := fun s => s.faulted = false) ?_ ?_ rfl
    (sound_neonTcpipInit linkUp mtu addr) es
  · intro s e hlive hs _
    rw [netStep_of_live hlive, run_faulted hs]
    exact hlive
  · intro s e hlive hs
    rw [netStep_of_live hlive]
    exact sound_run_iff hs e

/-- The heap has what `dhcp_start` asks for. -/
def StartMemory.enough : StartMemory := ⟨true, true⟩

/-- The cable is pulled and the next tick comes before the one that would handle
`DHCP_LINK_DOWN`: the client goes on. -/
theorem not_sound_linkDown :
    ¬ Always netStep NeonState.Sound (neonTcpipInit true 1500 .zero)
      [.background (.tick .enough), .background (.linkDown true), .background (.tick .enough)] := by
  intro h
  exact absurd h.last (by decide)

/-! ## Addresses set by hand -/

/-- The event is a tick that finds the link up and `DHCP_START`. -/
def FindsStart (s : NeonState) : Background → Prop
  | .tick _ => s.faulted = false ∧ s.netif.linkUp = true ∧ s.dhcpState = .start
  | _ => False

/-- The client is stopped and no state is pending that would speak to it again, except the
start that a link going up asks for. -/
structure NeonState.Static (s : NeonState) : Prop where
  stopped : s.netif.ClientStopped
  state : s.dhcpState = .off ∨ s.dhcpState = .linkDown ∨ s.dhcpState = .start

theorem static_setStatic (addr : Addresses) (s : NeonState) : (setStatic addr s).Static :=
  ⟨dhcpReleaseAndStop_clientStopped s.netif, Or.inl rfl⟩

theorem static_updateConfig (notified : Bool) {s : NeonState} (hs : s.Static) :
    (updateConfig notified s).Static ∧ (updateConfig notified s).netif.addr = s.netif.addr := by
  unfold updateConfig notifyConnChanged
  split
  · split
    · exact ⟨⟨hs.stopped, Or.inr (Or.inr rfl)⟩, rfl⟩
    · exact ⟨⟨hs.stopped, Or.inr (Or.inl rfl)⟩, rfl⟩
  · exact ⟨hs, rfl⟩

/-- A tick that does not find `DHCP_START` leaves the addresses alone. -/
theorem static_dhcpProcess {m : StartMemory} {s : NeonState} (hs : s.Static)
    (h : ¬ (s.netif.linkUp = true ∧ s.dhcpState = .start)) :
    (dhcpProcess m s).Static ∧ (dhcpProcess m s).netif.addr = s.netif.addr := by
  unfold dhcpProcess
  by_cases hlink : s.netif.linkUp = true
  · rw [if_pos hlink]
    rcases hs.state with hst | hst | hst
    · simp only [hst]
      exact ⟨hs, trivial⟩
    · simp only [hst, dhcpStop, dhcpReleaseAndStop_of_clientStopped hs.stopped]
      exact ⟨⟨hs.stopped, Or.inl rfl⟩, trivial⟩
    · exact absurd ⟨hlink, hst⟩ h
  · rw [if_neg hlink]
    exact ⟨⟨hs.stopped, Or.inl rfl⟩, rfl⟩

/-- A tick that finds `DHCP_START` zeroes the addresses. -/
theorem dhcpProcess_addr_of_start {m : StartMemory} {s : NeonState} (hlink : s.netif.linkUp = true)
    (hst : s.dhcpState = .start) : (dhcpProcess m s).netif.addr = .zero := by
  unfold dhcpProcess
  rw [if_pos hlink, hst]
  exact dhcpStart_addr m (netifSetAddr .zero s.netif)

theorem static_backgroundStep {s : NeonState} (hs : s.Static) {e : Background}
    (h : ¬ FindsStart s e) :
    (backgroundStep s e).Static ∧ (backgroundStep s e).netif.addr = s.netif.addr := by
  unfold backgroundStep
  by_cases hlive : s.faulted = true
  · rw [if_pos hlive]
    exact ⟨hs, rfl⟩
  · rw [if_neg hlive]
    cases e with
    | tick m => exact static_dhcpProcess hs fun hst => h ⟨Bool.eq_false_iff.mpr hlive, hst⟩
    | linkUp notified =>
      show (netifSetLinkUp notified s).Static ∧ (netifSetLinkUp notified s).netif.addr = _
      unfold netifSetLinkUp
      split
      · exact ⟨hs, rfl⟩
      · have hup : ({ s.netif with linkUp := true } : Netif).ClientStopped := hs.stopped
        rw [dhcpNetworkChangedLinkUp_of_clientStopped hup]
        exact static_updateConfig notified ⟨hup, hs.state⟩
    | linkDown notified =>
      show (netifSetLinkDown notified s).Static ∧ (netifSetLinkDown notified s).netif.addr = _
      unfold netifSetLinkDown
      split
      · exact static_updateConfig notified ⟨hs.stopped, hs.state⟩
      · exact ⟨hs, rfl⟩
    | progress d addr =>
      show ({ s with netif := _ } : NeonState).Static ∧ (dhcpProgress d addr s.netif).addr = _
      rw [dhcpProgress_of_clientStopped hs.stopped]
      exact ⟨hs, rfl⟩

theorem backgroundStep_addr_iff {s : NeonState} (hs : s.Static) (hzero : s.netif.addr ≠ .zero)
    (e : Background) : (backgroundStep s e).netif.addr = s.netif.addr ↔ ¬ FindsStart s e := by
  refine ⟨fun h hfinds => ?_, fun h => (static_backgroundStep hs h).2⟩
  cases e with
  | tick m =>
    obtain ⟨hlive, hlink, hst⟩ := hfinds
    have hstep : backgroundStep s (.tick m) = dhcpProcess m s := by
      unfold backgroundStep
      rw [hlive, if_neg Bool.false_ne_true]
      rfl
    rw [hstep, dhcpProcess_addr_of_start hlink hst] at h
    exact hzero h.symm
  | linkUp notified => exact hfinds
  | linkDown notified => exact hfinds
  | progress d addr => exact hfinds

/-- Addresses set by hand stay as long as no tick finds the link up and `DHCP_START`, and they
are gone after the first tick that does, unless they were zero anyway. -/
theorem static_persists (s : NeonState) (call : SetAddress) (es : List Background) :
    (AllSteps backgroundStep (fun t e => ¬ FindsStart t e) (call.run s) es →
        Always backgroundStep (fun t => t.netif.addr = (call.run s).netif.addr) (call.run s) es) ∧
      ((call.run s).netif.addr ≠ .zero →
        Always backgroundStep (fun t => t.netif.addr = (call.run s).netif.addr) (call.run s) es →
          AllSteps backgroundStep (fun t e => ¬ FindsStart t e) (call.run s) es) := by
  obtain ⟨addr, hrun⟩ := setAddress_run_eq call s
  rw [hrun]
  have hstatic := static_setStatic addr s
  constructor
  · intro h
    have hboth : Always backgroundStep
        (fun t => t.Static ∧ t.netif.addr = (setStatic addr s).netif.addr) (setStatic addr s) es := by
      refine always_of_allSteps ?_ ⟨hstatic, rfl⟩ h
      intro t e ht hfinds
      obtain ⟨hkeep, haddr⟩ := static_backgroundStep ht.1 hfinds
      exact ⟨hkeep, haddr.trans ht.2⟩
    exact hboth.imp fun t ht => ht.2
  · intro hzero
    refine (always_iff_allSteps (I := fun t => t.netif.addr = (setStatic addr s).netif.addr)
      (J := NeonState.Static) ?_ ?_ hstatic rfl es).mp
    · exact fun t e ht _ hfinds => (static_backgroundStep ht hfinds).1
    · intro t e ht haddr
      rw [← haddr]
      exact backgroundStep_addr_iff ht (haddr ▸ hzero) e

/-- `192.168.1.50`, `255.255.255.0` and `192.168.1.1` -/
def homeAddresses : Addresses := ⟨0x3201a8c0, 0x00ffffff, 0x0101a8c0⟩

/-- Addresses set by hand, and then the cable is pulled and plugged in again. -/
theorem not_static_replug :
    ¬ Always backgroundStep (fun t => t.netif.addr = homeAddresses)
      (ifUpdateAddresses homeAddresses.ipAddr homeAddresses.netmask homeAddresses.gw
        (neonTcpipInit true 1500 .zero))
      [.linkDown true, .linkUp true, .tick .enough] := by
  intro h
  exact absurd h.last (by decide)

end WLink.Net
