import WLink.Lib.Run

/-!
# The DHCP state machine of the network interface

`NeonTCPIP.c` drives the DHCP client of lwIP by a state of its own, `DHCP_state`. Three parties
write it: the link callback, the functions that set an address and the periodic tick. What lwIP
does behind it -- the client data hanging from the interface, the addresses that a client writes
-- is the part of `dhcp.c` and `netif.c` that these parties reach.

* `dhcpStart`, `dhcpReleaseAndStop`, `dhcpNetworkChangedLinkUp` -- lwIP's client
* `dhcpProcess`, `notifyConnChanged`, `ifUpdateAddresses`, … -- the functions of `NeonTCPIP.c`
* `Background`, `SetAddress`, `NetEvent` -- the events of a run
-/

namespace WLink.Net

/-- `ip4_addr_t`: four bytes in network order, as a number of the host. -/
abbrev Ip4Addr := UInt32

/-- The three addresses of an interface. -/
structure Addresses where
  ipAddr : Ip4Addr
  netmask : Ip4Addr
  gw : Ip4Addr
deriving DecidableEq, Repr

def Addresses.zero : Addresses := ⟨0, 0, 0⟩

/-! ## lwIP -/

/-- `dhcp_state_enum_t` -/
inductive DhcpClientState
  | off | requesting | init | rebooting | rebinding | renewing | selecting | informing
  | checking | permanent | bound | releasing | backingOff
deriving DecidableEq, Repr

/-- `struct dhcp`: the state of the client and how often it has tried in this state. -/
structure Dhcp where
  state : DhcpClientState
  tries : ℕ
deriving DecidableEq, Repr

/-- A client that `memset` has cleared. -/
def Dhcp.cleared : Dhcp := ⟨.off, 0⟩

/-- `struct netif`: its flags, its addresses and its DHCP client data, `none` for `NULL`. -/
structure Netif where
  linkUp : Bool
  up : Bool
  mtu : ℕ
  addr : Addresses
  dhcp : Option Dhcp
deriving DecidableEq, Repr

inductive LwipErr
  | ok | mem | arg
deriving DecidableEq, Repr

/-- `DHCP_MAX_MSG_LEN_MIN_REQUIRED` -/
def dhcpMaxMsgLenMinRequired : ℕ := 576

/-- `dhcp_set_state`: a new state starts with no tries. -/
def dhcpSetState (d : Dhcp) (state : DhcpClientState) : Dhcp :=
  if state = d.state then d else ⟨state, 0⟩

/-- `if (dhcp->tries < 255) dhcp->tries++` -/
def dhcpCountTry (d : Dhcp) : Dhcp := if d.tries < 255 then { d with tries := d.tries + 1 } else d

/-- `dhcp_discover`. It returns `ERR_OK` even when there was no memory for the message. -/
def dhcpDiscover (d : Dhcp) : LwipErr × Dhcp := (.ok, dhcpCountTry (dhcpSetState d .selecting))

/-- `dhcp_reboot`, the outcome of the request aside. -/
def dhcpReboot (d : Dhcp) : Dhcp := dhcpCountTry (dhcpSetState d .rebooting)

/-- `dhcp_supplied_address` -/
def dhcpSuppliedAddress (n : Netif) : Bool :=
  match n.dhcp with
  | none => false
  | some d => d.state = .bound || d.state = .renewing || d.state = .rebinding

/-- `dhcp_release_and_stop` -/
def dhcpReleaseAndStop (n : Netif) : Netif :=
  match n.dhcp with
  | none => n
  | some d =>
    if d.state = .off then n
    else if dhcpSuppliedAddress n then
      { n with dhcp := some (dhcpSetState d .off), addr := .zero }
    else { n with dhcp := some (dhcpSetState d .off) }

/-- `dhcp_release` -/
def dhcpRelease (n : Netif) : LwipErr × Netif := (.ok, dhcpReleaseAndStop n)

/-- `dhcp_stop` -/
def dhcpStop (n : Netif) : Netif := dhcpReleaseAndStop n

/-- What the heap has for `dhcp_start`: the client data and the control block for its port. -/
structure StartMemory where
  client : Bool
  pcb : Bool
deriving DecidableEq, Repr

/-- `dhcp_start` -/
def dhcpStart (m : StartMemory) (n : Netif) : LwipErr × Netif :=
  if !n.up then (.arg, n)
  else if n.mtu < dhcpMaxMsgLenMinRequired then (.mem, n)
  else if n.dhcp = none && !m.client then (.mem, n)
  else if !m.pcb then (.mem, { n with dhcp := some .cleared })
  else if !n.linkUp then (.ok, { n with dhcp := some (dhcpSetState .cleared .init) })
  else
    let (result, d) := dhcpDiscover .cleared
    if result = .ok then (.ok, { n with dhcp := some d })
    else (.mem, dhcpReleaseAndStop { n with dhcp := some d })

/-- `dhcp_network_changed_link_up` -/
def dhcpNetworkChangedLinkUp (n : Netif) : Netif :=
  match n.dhcp with
  | none => n
  | some d =>
    match d.state with
    | .rebinding | .renewing | .bound | .rebooting =>
      { n with dhcp := some (dhcpReboot { d with tries := 0 }) }
    | .off => n
    | _ => { n with dhcp := some (dhcpDiscover { d with tries := 0 }).2 }

/-- `netif_set_addr` -/
def netifSetAddr (addr : Addresses) (n : Netif) : Netif := { n with addr }

/-- What the timers of lwIP and the answers of a server make of an interface. They leave a client
alone that is off, since its port is closed and its timeouts are zero. -/
def dhcpProgress (d : Dhcp) (addr : Addresses) (n : Netif) : Netif :=
  match n.dhcp with
  | none => n
  | some old => if old.state = .off then n else { n with dhcp := some d, addr }

/-! ## `NeonTCPIP.c` -/

/-- `DHCP_state` -/
inductive DhcpState
  | off | start | waitAddress | addressAssigned | timeout | linkDown | askRelease
deriving DecidableEq, Repr

/-- `MAX_DHCP_TRIES` -/
def maxDhcpTries : ℕ := 10

/-- The interface and `DHCP_state`. A state that has `faulted` has dereferenced `NULL` and does
not move any more. -/
structure NeonState where
  netif : Netif
  dhcpState : DhcpState
  faulted : Bool
deriving DecidableEq, Repr

/-- `NeonTCPIP_init`, for the link state that `ethernetif_init` has found. -/
def neonTcpipInit (linkUp : Bool) (mtu : ℕ) (addr : Addresses) : NeonState :=
  { netif := { linkUp, up := linkUp, mtu, addr, dhcp := none }
    dhcpState := if linkUp then .start else .linkDown
    faulted := false }

/-- `NeonTCPIP_DHCP_Process`, what it prints aside. -/
def dhcpProcess (m : StartMemory) (s : NeonState) : NeonState :=
  if s.netif.linkUp then
    match s.dhcpState with
    | .start =>
      { s with
        netif := (dhcpStart m (netifSetAddr .zero s.netif)).2
        dhcpState := .waitAddress }
    | .waitAddress =>
      if dhcpSuppliedAddress s.netif then { s with dhcpState := .addressAssigned }
      else
        match s.netif.dhcp with
        -- `dhcp->tries` without a look at `dhcp`
        | none => { s with faulted := true }
        | some d =>
          if maxDhcpTries < d.tries then
            { s with dhcpState := .timeout, netif := dhcpStop s.netif }
          else s
    | .askRelease =>
      { s with netif := dhcpStop (dhcpRelease s.netif).2, dhcpState := .off }
    | .linkDown => { s with netif := dhcpStop s.netif, dhcpState := .off }
    | .off | .addressAssigned | .timeout => s
  else { s with dhcpState := .off }

/-- `ethernetif_notify_conn_changed` -/
def notifyConnChanged (s : NeonState) : NeonState :=
  if s.netif.linkUp then { s with dhcpState := .start, netif := { s.netif with up := true } }
  else { s with dhcpState := .linkDown, netif := { s.netif with up := false } }

/-- `ethernetif_update_config`, the callback on a change of the link. On one port it returns early
when the PHY does not confirm the link, and then nobody is told. -/
def updateConfig (notified : Bool) (s : NeonState) : NeonState :=
  if notified then notifyConnChanged s else s

/-- `netif_set_link_up` -/
def netifSetLinkUp (notified : Bool) (s : NeonState) : NeonState :=
  if s.netif.linkUp then s
  else
    updateConfig notified { s with netif := dhcpNetworkChangedLinkUp { s.netif with linkUp := true } }

/-- `netif_set_link_down` -/
def netifSetLinkDown (notified : Bool) (s : NeonState) : NeonState :=
  if s.netif.linkUp then updateConfig notified { s with netif := { s.netif with linkUp := false } }
  else s

/-- `NeonTCPIP_Set_DHCP_State` -/
def setDhcpState (state : DhcpState) (s : NeonState) : NeonState := { s with dhcpState := state }

/-- The end of the four functions that set an address: the client is stopped, then the addresses
are written. -/
def setStatic (addr : Addresses) (s : NeonState) : NeonState :=
  let s := setDhcpState .off s
  { s with netif := netifSetAddr addr (dhcpStop s.netif) }

/-- `NeonTCPIP_IF_Update_Addresses` -/
def ifUpdateAddresses (ip netmask gw : Ip4Addr) (s : NeonState) : NeonState :=
  setStatic ⟨ip, netmask, gw⟩ s

/-- `NeonTCPIP_IF_Set_IP_Address` -/
def ifSetIpAddress (ip : Ip4Addr) (s : NeonState) : NeonState :=
  setStatic { s.netif.addr with ipAddr := ip } s

/-- `NeonTCPIP_IF_Set_Gateway_Address` -/
def ifSetGatewayAddress (gateway : Ip4Addr) (s : NeonState) : NeonState :=
  setStatic { s.netif.addr with gw := gateway } s

/-- `NeonTCPIP_IF_Set_NetMask_Address` -/
def ifSetNetMaskAddress (netmask : Ip4Addr) (s : NeonState) : NeonState :=
  setStatic { s.netif.addr with netmask } s

/-! ## Runs -/

/-- What happens without a call from outside: a tick, with what the heap has left for it, a report
of the PHY on the link and the client's own progress. -/
inductive Background
  | tick (m : StartMemory)
  | linkUp (notified : Bool)
  | linkDown (notified : Bool)
  | progress (d : Dhcp) (addr : Addresses)
deriving DecidableEq, Repr

/-- A call that sets an address. -/
inductive SetAddress
  | updateAddresses (ip netmask gw : Ip4Addr)
  | ipAddress (ip : Ip4Addr)
  | gateway (gateway : Ip4Addr)
  | netMask (netmask : Ip4Addr)
deriving DecidableEq, Repr

inductive NetEvent
  | background (e : Background)
  | set (call : SetAddress)
deriving DecidableEq, Repr

def Background.run : Background → NeonState → NeonState
  | .tick m, s => dhcpProcess m s
  | .linkUp notified, s => netifSetLinkUp notified s
  | .linkDown notified, s => netifSetLinkDown notified s
  | .progress d addr, s => { s with netif := dhcpProgress d addr s.netif }

def SetAddress.run : SetAddress → NeonState → NeonState
  | .updateAddresses ip netmask gw, s => ifUpdateAddresses ip netmask gw s
  | .ipAddress ip, s => ifSetIpAddress ip s
  | .gateway gw, s => ifSetGatewayAddress gw s
  | .netMask netmask, s => ifSetNetMaskAddress netmask s

def NetEvent.run : NetEvent → NeonState → NeonState
  | .background e, s => e.run s
  | .set call, s => call.run s

/-- A step of the background. -/
def backgroundStep (s : NeonState) (e : Background) : NeonState :=
  if s.faulted then s else e.run s

/-- A step of the interface. -/
def netStep (s : NeonState) (e : NetEvent) : NeonState :=
  if s.faulted then s else e.run s

end WLink.Net
