import Easymesh.Agent.Lan
import Easymesh.CfgMgr.Controller
import Easymesh.System.MeshSystem

open Lib Lib.Result easymesh.cmdu easymesh.ieee1905_network easymesh.cfg_mgr easymesh.mesh_agent

namespace easymesh.system

section Find

variable {φ : Type}

def find_controller_interface (interface : cmdu_interface φ) : Option nbr_1905dev :=
  interface.nbr_1905.find? fun dev => dev.sup_service = SUP_SERVICE_CONTROLLER

/-- The bytes that `strncpy` copies of a name of an interface. -/
def copied_name (src : List UInt8) : List UInt8 := (src.take (IF_NAMESIZE - 1)).takeWhile (· ≠ 0)

theorem copied_name_length (src : List UInt8) : (copied_name src).length ≤ 15 := by
  have hle := (List.takeWhile_prefix (p := fun b : UInt8 => decide (b ≠ 0))
    (l := src.take (IF_NAMESIZE - 1))).length_le
  rw [List.length_take] at hle
  exact hle.trans (Nat.min_le_left _ _)

/-- `strncpy(local_ifname, src, IF_NAMESIZE - 1)` into zeros. -/
def strncpy_ifname (src : List UInt8) : Vector UInt8 16 :=
  ⟨(copied_name src ++ List.replicate (16 - (copied_name src).length) 0).toArray, by
    have hle := copied_name_length src
    rw [List.size_toArray, List.length_append, List.length_replicate]
    omega⟩

/-- The first interface with a controller, and what `find_controller` copies of it and of
the controller to the controller info. -/
def find_controller (interfaces : List (cmdu_interface φ)) : Option controller_info_s :=
  interfaces.findSome? fun interface =>
    (find_controller_interface interface).map fun dev =>
      { controller_al_mac := dev.al_addr
        my_al_mac := interface.al_addr
        local_ifaddr := interface.addr
        local_ifname := strncpy_ifname interface.ifname }

/-- Where all neighbours are taken for controllers, the first is found. -/
theorem find_controller_interface_head {interface : cmdu_interface φ}
    (h : ∀ dev ∈ interface.nbr_1905, dev.sup_service = SUP_SERVICE_CONTROLLER) :
    find_controller_interface interface = interface.nbr_1905.head? := by
  rw [find_controller_interface]
  cases hnbrs : interface.nbr_1905 with
  | nil => rfl
  | cons dev rest =>
    have hfirst : dev.sup_service = SUP_SERVICE_CONTROLLER := h dev (hnbrs ▸ List.mem_cons_self)
    exact List.find?_cons_of_pos (decide_eq_true hfirst)

end Find

section Told

theorem copied_name_of_cstring {src name : List UInt8} (hname : cstring src = some name) :
    copied_name src = name.take (IF_NAMESIZE - 1) := by
  obtain ⟨hfree, rest, rfl⟩ := cstring_eq_some_iff.mp hname
  rw [copied_name, List.append_assoc, List.take_append]
  have hall : ∀ b ∈ name.take (IF_NAMESIZE - 1), decide (b ≠ (0 : UInt8)) = true := by
    intro b hb
    rw [decide_eq_true_eq]
    rintro rfl
    exact hfree (List.mem_of_mem_take hb)
  rw [List.takeWhile_append_of_pos hall]
  have hstop (n : Nat) :
      ((0 :: rest : List UInt8).take n).takeWhile (fun b => decide (b ≠ 0)) = [] := by
    cases n with
    | zero => rfl
    | succ n => rfl
  exact (congrArg (_ ++ ·) (hstop _)).trans (List.append_nil _)

/-- The name that the controller info holds. -/
theorem strncpy_ifname_cstring {src name : List UInt8} (hname : cstring src = some name)
    (rest : List UInt8) :
    cstring ((strncpy_ifname src).toList ++ rest) = some (name.take (IF_NAMESIZE - 1)) := by
  have hfree := (cstring_eq_some_iff.mp hname).1
  have hbytes : (strncpy_ifname src).toList =
      copied_name src ++ List.replicate (16 - (copied_name src).length) 0 := rfl
  have hle := copied_name_length src
  obtain ⟨n, hn⟩ : ∃ n, 16 - (copied_name src).length = n + 1 :=
    ⟨15 - (copied_name src).length, by omega⟩
  rw [hbytes, hn, List.replicate_succ, List.append_assoc, List.cons_append,
    copied_name_of_cstring hname]
  exact cstring_append (fun hmem => hfree (List.mem_of_mem_take hmem)) _

/-- A process that is told of a controller holds what it is told. -/
theorem controller_info_held {info : controller_info_s} {name : List UInt8} {w : process}
    (hw : w.cfgmgr.bh_local_ifname.length = IF_NAMESIZE)
    (hname : ∀ rest, cstring (info.local_ifname.toList ++ rest) = some name)
    (hshort : name.length ≤ IF_NAMESIZE - 1) (rest : List UInt8) :
    ∃ w', cfgmgr_handle_priv_msg_from_mesh w
        (bytesU16 MESH_MSGCMD_CONTROLLER_INFO_RSP ++ info.bytes ++ rest) = ok w' ∧
      w'.cfgmgr.bh_almac = info.controller_al_mac.toList ∧
      w'.cfgmgr.bh_local_almac = info.my_al_mac.toList ∧
      w'.cfgmgr.bh_local_ifaddr = info.local_ifaddr.toList ∧
      cstring w'.cfgmgr.bh_local_ifname = some name := by
  have halmac := info.controller_al_mac.length_toList
  have hlocal := info.my_al_mac.length_toList
  have hifaddr := info.local_ifaddr.length_toList
  have hdata : bytesU16 MESH_MSGCMD_CONTROLLER_INFO_RSP ++ info.bytes ++ rest =
      [1, 0] ++ (info.controller_al_mac.toList ++ (info.my_al_mac.toList ++
        (info.local_ifaddr.toList ++ (info.local_ifname.toList ++ rest)))) := by
    rw [controller_info_s.bytes]
    simp only [List.append_assoc]
    rfl
  rw [hdata]
  have hid : readU16 ([1, 0] ++ (info.controller_al_mac.toList ++ (info.my_al_mac.toList ++
      (info.local_ifaddr.toList ++ (info.local_ifname.toList ++ rest))))) 0 =
        ok MESH_MSGCMD_CONTROLLER_INFO_RSP := by
    rw [readU16, show readBytes _ 0 2 = ok [1, 0] from readBytes_front rfl]
    rfl
  have hread_almac := readBytes_middle [1, 0] info.controller_al_mac.toList
    (info.my_al_mac.toList ++ (info.local_ifaddr.toList ++ (info.local_ifname.toList ++ rest)))
  have hread_local := readBytes_middle ([1, 0] ++ info.controller_al_mac.toList)
    info.my_al_mac.toList (info.local_ifaddr.toList ++ (info.local_ifname.toList ++ rest))
  have hread_ifaddr := readBytes_middle
    ([1, 0] ++ (info.controller_al_mac.toList ++ info.my_al_mac.toList))
    info.local_ifaddr.toList (info.local_ifname.toList ++ rest)
  have hifname : ([1, 0] ++ (info.controller_al_mac.toList ++ (info.my_al_mac.toList ++
      (info.local_ifaddr.toList ++ (info.local_ifname.toList ++ rest))))).drop 20 =
        info.local_ifname.toList ++ rest := by
    have hbefore : ([1, 0] ++ (info.controller_al_mac.toList ++ (info.my_al_mac.toList ++
        info.local_ifaddr.toList))).length = 20 := by
      simp only [List.length_append, halmac, hlocal, hifaddr, List.length_cons, List.length_nil]
    have hsplit := @List.drop_left' _ _ (info.local_ifname.toList ++ rest) _ hbefore
    simp only [List.append_assoc] at hsplit
    exact hsplit
  simp only [List.append_assoc, List.length_append, halmac, hlocal, hifaddr]
    at hread_almac hread_local hread_ifaddr
  have hne : w.cfgmgr.bh_local_ifname ≠ [] := by
    rw [← List.length_pos_iff, hw]
    decide
  obtain ⟨ifname, hcopied⟩ := snprintf_s_returns hne (hname rest)
  have hkept := snprintf_s_cstring hne hcopied
  rw [hname rest, hw, Option.map_some, List.take_of_length_le hshort] at hkept
  rw [cfgmgr_handle_priv_msg_from_mesh, hid, ok_bind, if_pos rfl,
    show readBytes _ 2 ETH_ALEN = ok info.controller_al_mac.toList from hread_almac, ok_bind,
    show readBytes _ 8 ETH_ALEN = ok info.my_al_mac.toList from hread_local, ok_bind,
    show readBytes _ 14 ETH_ALEN = ok info.local_ifaddr.toList from hread_ifaddr, ok_bind, hifname,
    hcopied, ok_bind]
  have hback := backhaulReady_backhaul (w.setBackhaul info.controller_al_mac.toList
    info.my_al_mac.toList info.local_ifaddr.toList ifname)
  injection hback with h1 h2 h3 h4
  refine ⟨_, rfl, h1, h2, h3, ?_⟩
  exact (congrArg cstring h4).trans hkept

end Told

section Lan

variable {ι : Type} {ifs : ι → NetworkInterface cmdu_filter_cb} {l l' : lan ι}

/-- The controller info of an interface for a neighbour. -/
def info_of (interface : NetworkInterface cmdu_filter_cb) (mac : MacAddr) : controller_info_s where
  controller_al_mac := mac
  my_al_mac := interface.al_addr
  local_ifaddr := interface.addr
  local_ifname := strncpy_ifname interface.ifname

/-- The source of the first discovery of another device that a device has heard. -/
def first_heard (al_addr : MacAddr) (bufs : List (List UInt8)) : Option MacAddr :=
  (foreign_discoveries al_addr bufs).head?.map Prod.fst

theorem first_heard_grows {al_addr mac : MacAddr} {bufs bufs' : List (List UInt8)}
    (hgrows : bufs <+: bufs') (h : first_heard al_addr bufs = some mac) :
    first_heard al_addr bufs' = some mac := by
  obtain ⟨more, rfl⟩ := hgrows
  obtain ⟨x, hx, rfl⟩ := Option.map_eq_some_iff.mp h
  rw [first_heard, foreign_discoveries, List.filterMap_append]
  rw [foreign_discoveries] at hx
  rw [List.head?_append, hx, Option.some_or, Option.map_some]

/-- The controller that a device finds is the one whose discovery it heard first. -/
theorem found_controller (h : l.Learns ifs) (i : ι) :
    find_controller [(l.devices i).interface] =
      (first_heard (ifs i).al_addr (l.heard i)).map (info_of (ifs i)) := by
  have hfirst : (l.devices i).interface.nbr_1905.head?.map nbr_1905dev.al_addr =
      first_heard (ifs i).al_addr (l.heard i) := by
    rw [← List.head?_map, (h.learned i).nbrs, List.head?_map, first_heard]
    cases foreign_discoveries (ifs i).al_addr (l.heard i) with
    | nil => rfl
    | cons x rest => rfl
  have hinterface (mac : MacAddr) : info_of (l.devices i).interface.toNetworkInterface mac =
      info_of (ifs i) mac := by rw [h.interface i]
  rw [← hfirst, find_controller, List.findSome?_cons,
    find_controller_interface_head (h.controllers i)]
  cases (l.devices i).interface.nbr_1905.head? with
  | none => rfl
  | some dev => exact congrArg some (hinterface dev.al_addr)

/-- What the agent answers to one who asks it for the controller. -/
def controller_answer (d : device) (requester : List UInt8) : Result (List mbus_call) :=
  mesh_handle_private_msg (find_controller [d.interface]) requester mesh_agent.g_mesh_user_name
    (bytesU16 MESH_MSGCMD_CONTROLLER_INFO_REQ)

theorem controller_answer_eq {d : device} {requester : List UInt8}
    {found : Option controller_info_s} (hfound : find_controller [d.interface] = found) :
    controller_answer d requester = ok (found.elim [] fun info =>
      [.sendmsg_private mesh_agent.g_mesh_user_name requester
        (bytesU16 MESH_MSGCMD_CONTROLLER_INFO_RSP ++ info.bytes)]) := by
  have hto : strcmp_eq mesh_agent.g_mesh_user_name mesh_agent.g_mesh_user_name = ok true := by
    decide
  have hid : readU16 (bytesU16 MESH_MSGCMD_CONTROLLER_INFO_REQ) 0 =
    ok MESH_MSGCMD_CONTROLLER_INFO_REQ := by decide
  unfold controller_answer mesh_handle_private_msg
  rw [hfound, hto, ok_bind, if_pos rfl, hid, ok_bind, if_pos rfl]
  cases found with
  | none => rfl
  | some info => rfl

/-- Whoever a device hears first is its controller for good: before, it does not answer who asks
for the controller, and from then on, whatever else it hears, a process that asks it is told of
that device, and holds its address and those of the interface. -/
theorem first_heard_is_controller [DecidableEq ι] {net : lan_setup ι} (hfresh : l.Fresh ifs)
    {tr tr' : List (lan_event ι × lan ι)} (hrun : Run (Returning (lan.exec net)) l tr)
    (hmore : Run (Returning (lan.exec net)) (endState l tr) tr') (i : ι) {name : List UInt8}
    (hname : cstring (ifs i).ifname = some name) (requester : List UInt8) {w : process}
    (hw : w.cfgmgr.bh_local_ifname.length = IF_NAMESIZE) :
    (first_heard (ifs i).al_addr ((endState l tr).heard i) = none →
      controller_answer ((endState l tr).devices i) requester = ok []) ∧
    ∀ mac, first_heard (ifs i).al_addr ((endState l tr).heard i) = some mac →
      ∃ data, controller_answer ((endState (endState l tr) tr').devices i) requester =
          ok [.sendmsg_private mesh_agent.g_mesh_user_name requester data] ∧
        ∀ rest, ∃ w', cfgmgr_handle_priv_msg_from_mesh w (data ++ rest) = ok w' ∧
          w'.cfgmgr.bh_almac = mac.toList ∧
          w'.cfgmgr.bh_local_almac = (ifs i).al_addr.toList ∧
          w'.cfgmgr.bh_local_ifaddr = (ifs i).addr.toList ∧
          cstring w'.cfgmgr.bh_local_ifname = some (name.take (IF_NAMESIZE - 1)) := by
  obtain ⟨hlearns, -⟩ := hfresh.run hrun
  refine ⟨fun hnone => ?_, fun mac hfirst => ?_⟩
  · have hfound := found_controller hlearns i
    rw [hnone] at hfound
    exact controller_answer_eq hfound
  · obtain ⟨hend, hheard⟩ := Run.endState_invariant
      (J := fun l : lan ι => l.Learns ifs ∧ first_heard (ifs i).al_addr (l.heard i) = some mac)
      (fun hs hstep => ⟨hs.1.step hstep, first_heard_grows (hs.1.heard_grows hstep i) hs.2⟩)
      ⟨hlearns, hfirst⟩ hmore
    have hfound := found_controller hend i
    rw [hheard] at hfound
    refine ⟨_, controller_answer_eq hfound, ?_⟩
    exact controller_info_held hw (strncpy_ifname_cstring hname) (List.length_take_le _ _)

/-- A third device announces itself after the other two have met. -/
def third_announced : List (lan_event Bool × lan Bool) :=
  trace (fun l e => (lan.exec two_setup l e).getD l) (endState two_devices two_run)
    [.injects (discovery_frame { two_ifs true with al_addr := #v[2, 0, 0, 0, 0, 1] }),
      .hears false 2]

/-- It is heard, and another one is named. -/
theorem first_heard_is_controller_two :
    ((endState (endState two_devices two_run) third_announced).devices false).nbrs =
        [(two_ifs true).al_addr, #v[2, 0, 0, 0, 0, 1]] ∧
      ∃ data, controller_answer
          ((endState (endState two_devices two_run) third_announced).devices false)
            g_cfgmgr_user_name =
          ok [.sendmsg_private mesh_agent.g_mesh_user_name g_cfgmgr_user_name data] ∧
        ∃ w', cfgmgr_handle_priv_msg_from_mesh (cfgmgr_main (fun _ => 0) fun _ => 0) data = ok w' ∧
          w'.cfgmgr.bh_almac = (two_ifs true).al_addr.toList := by
  have hrun : Run (Returning (lan.exec two_setup)) (endState two_devices two_run)
    third_announced := run_trace_returning (by decide +kernel)
  have hheard : ((endState (endState two_devices two_run) third_announced).devices false).nbrs =
        [(two_ifs true).al_addr, #v[2, 0, 0, 0, 0, 1]] ∧
      first_heard (two_ifs false).al_addr ((endState two_devices two_run).heard false) =
        some (two_ifs true).al_addr := by decide +kernel
  have hname : cstring (two_ifs false).ifname = some [101, 110, 115, 51, 50] := by decide
  have htold := first_heard_is_controller two_devices_fresh two_run_is_run hrun false hname
    g_cfgmgr_user_name (cfgmgr_main_knows (fun _ => 0) fun _ => 0).ifname_len
  obtain ⟨data, hanswer, hheld⟩ := htold.2 _ hheard.2
  obtain ⟨w', hw', halmac, -⟩ := hheld []
  rw [List.append_nil] at hw'
  exact ⟨hheard.1, data, hanswer, w', hw', halmac⟩

end Lan

end easymesh.system
