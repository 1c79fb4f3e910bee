import Easymesh.System.MeshSystem

open Lib Lib.Result easymesh.cmdu easymesh.ieee1905_network easymesh.bus_msg easymesh.mbusd
open easymesh.cfg_mgr easymesh.mesh_agent

namespace easymesh.system

/-- A call that the client makes on the bus. What the `cfg_mgr` says to the group are its
packets. -/
def client.Posts (c : client) : mbus_call → Prop
  | .register_object username => cstring username = some c.user
  | .create_group groupname | .join_group groupname => cstring groupname = some gmesh
  | .sendmsg_in_group my_name groupname data =>
    cstring my_name = some c.user ∧ cstring groupname = some gmesh ∧ data ≠ [] ∧
      data.length ≤ 4096 ∧ (c = .cfg_mgr → Published data)
  | .sendmsg_private my_name peer_name data =>
    cstring my_name = some c.user ∧ cstring peer_name = some c.other.user ∧ data ≠ [] ∧
      data.length ≤ 4096

/-- The call as it is on the wire. -/
def client.wire (c : client) : mbus_call → List UInt8
  | .register_object _ => named_msg TYPE_USERLOGIN_USERNAME CID_LOGIN_REQ_USERLOGIN c.user
  | .create_group _ => named_msg TYPE_GROUPCREATE_GROUPNAME CID_GROUP_CREATE_GROUP gmesh
  | .join_group _ => named_msg TYPE_GROUPJOIN_GROUPNAME CID_GROUP_JOIN_GROUP gmesh
  | .sendmsg_in_group _ _ data => wire_msg group_kind c.user gmesh data
  | .sendmsg_private _ _ data => wire_msg private_kind c.user c.other.user data

/-- What the reader is called back with. -/
def client.called (c : client) : mbus_call → Option msg_cb_call
  | .register_object _ | .create_group _ | .join_group _ => none
  | .sendmsg_in_group _ _ data => some (sent_call group_kind c.user gmesh data)
  | .sendmsg_private _ _ data => some (sent_call private_kind c.user c.other.user data)

section Names

variable (c : client)

theorem client.user_ne_nil : c.user ≠ [] := by
  cases c <;> decide

theorem client.user_length : c.user.length ≤ 128 := by
  cases c <;> decide

theorem client.user_free : (0 : UInt8) ∉ c.user := by
  cases c <;> decide

theorem client.user_cstring : cstring (c.user ++ [0]) = some c.user := cstring_append c.user_free []

theorem client.user_inj {c c' : client} (h : c.user = c'.user) : c = c' := by
  cases c <;> cases c' <;> first | rfl | exact absurd h (by decide)

theorem client.other_other (c : client) : c.other.other = c := by
  cases c <;> rfl

theorem client.eq_other {c c' : client} (h : c' ≠ c) : c' = c.other := by
  cases c <;> cases c' <;> first | rfl | exact absurd rfl h

theorem gmesh_cstring : cstring (gmesh ++ [0]) = some gmesh := by decide

theorem setup.client_of_fd {net : setup} (hapart : net.fd .cfg_mgr ≠ net.fd .mesh_agent) (c : client) :
    [client.cfg_mgr, .mesh_agent].find? (fun c' => net.fd c' = net.fd c) = some c := by
  cases c with
  | cfg_mgr => simp
  | mesh_agent => simp [hapart]

end Names

section Wire

variable {c : client} {call : mbus_call} {data : List UInt8}

theorem fitsWire_group (c : client) (hne : data ≠ []) (hshort : data.length ≤ 4096) :
    FitsWire group_kind c.user gmesh data := by
  refine ⟨List.mem_cons_self, hne, ?_⟩
  have huser := c.user_length
  have hgroup : gmesh.length = 5 := rfl
  simp only [total_length, msg_items, List.map_cons, List.map_nil, List.sum_cons, List.sum_nil,
    List.length_append, List.length_singleton]
  omega

theorem fitsWire_private (c : client) (hne : data ≠ []) (hshort : data.length ≤ 4096) :
    FitsWire private_kind c.user c.other.user data := by
  refine ⟨List.mem_cons_of_mem _ List.mem_cons_self, hne, ?_⟩
  have huser := c.user_length
  have hpeer := c.other.user_length
  simp only [total_length, msg_items, List.map_cons, List.map_nil, List.sum_cons, List.sum_nil,
    List.length_append, List.length_singleton]
  omega

/-- Each call is handed on as it stands on the wire. -/
theorem client.Posts.handed (h : c.Posts call) (net : setup) :
    handed net call = ok (0, some (c.wire call, ((c.wire call).length : Int))) := by
  have hlen := c.user_length
  cases call with
  | register_object username =>
    exact mbus_named_request_spec net.uninit h c.user_ne_nil (by omega)
  | create_group groupname =>
    exact mbus_named_request_spec net.uninit h (by decide) (by decide)
  | join_group groupname =>
    exact mbus_named_request_spec net.uninit h (by decide) (by decide)
  | sendmsg_in_group my_name groupname data =>
    obtain ⟨hmy, hname, hne, hshort, -⟩ := h
    have hpos := List.length_pos_iff.mpr hne
    rw [system.handed, mbus_sendmsg_in_group, if_neg (by omega), group_msg_new]
    exact (fitsWire_group c hne hshort).sent net.uninit hmy hname
      (readBytes_front (List.append_nil data).symm)
  | sendmsg_private my_name peer_name data =>
    obtain ⟨hmy, hname, hne, hshort⟩ := h
    have hpos := List.length_pos_iff.mpr hne
    rw [system.handed, mbus_sendmsg_private, if_neg (by omega), private_msg_new]
    exact (fitsWire_private c hne hshort).sent net.uninit hmy hname
      (readBytes_front (List.append_nil data).symm)

theorem mbus_handle_msg_request {type command_id : UInt16} {name : List UInt8}
    (hheartbeat : command_id ≠ CID_OTHER_HEARTBEAT) (hgroup : command_id ≠ CID_GROUP_MSG)
    (hprivate : command_id ≠ CID_PRIVATE_MSG) (rest : List UInt8) :
    mbus_handle_msg (named_msg type command_id name ++ rest) = ok none := by
  rw [mbus_handle_msg, named_msg_command_id, ok_bind, if_neg hheartbeat, if_neg hgroup,
    if_neg hprivate]

theorem client.Posts.called_back (h : c.Posts call) (rest : List UInt8) :
    mbus_handle_msg (c.wire call ++ rest) = ok (c.called call) := by
  cases call with
  | register_object username => exact mbus_handle_msg_request (by decide) (by decide) (by decide) rest
  | create_group groupname => exact mbus_handle_msg_request (by decide) (by decide) (by decide) rest
  | join_group groupname => exact mbus_handle_msg_request (by decide) (by decide) (by decide) rest
  | sendmsg_in_group my_name groupname data =>
    exact (fitsWire_group c h.2.2.1 h.2.2.2.1).called_back rest
  | sendmsg_private my_name peer_name data =>
    exact (fitsWire_private c h.2.2.1 h.2.2.2).called_back rest

end Wire

section Daemon

variable {fd : client → Nat} {b b' : daemon} {c : client} {call : mbus_call} {addr : Ptr}
  {rest : List UInt8} {cli peer : client_t}

theorem LoggedIn.user_known (h : LoggedIn fd b) (c : client) : some c.user ∈ b.user_names := by
  obtain ⟨cli, hcli, hname⟩ := (h.logged_in c).2
  exact List.mem_map.mpr ⟨cli, (daemon.client_ok hcli).1, hname⟩

/-- A client with the name of one of the two has its connection. -/
theorem LoggedIn.io_of_name (h : LoggedIn fd b) (hpeer : peer ∈ b.g_clients)
    (hname : cstring peer.name = some c.user) : peer.io = some (fd c) := by
  obtain ⟨c', hname', hio⟩ := h.clients peer hpeer
  obtain rfl := client.user_inj (Option.some.inj (hname'.symm.trans hname))
  exact hio

/-- A member of the group who is not the client is the other one. -/
theorem LoggedIn.other_member {i : Nat} {group : group_t} {user : List UInt8} (h : LoggedIn fd b)
    (hgroup : search_group b.g_groups (gmesh ++ [0]) = ok (some (i, group)))
    (huser : user ∈ group.users) (hcli : cstring cli.name = some c.user)
    (hother : strcmp_eq user cli.name = ok false) : cstring user = some c.other.user := by
  obtain ⟨i', group', hsearch, hperm⟩ := h.group
  cases hgroup.symm.trans hsearch
  have hmember := hperm.subset (List.mem_map_of_mem huser)
  have hne := cstring_ne_of_strcmp hother hcli
  have hone : ∃ c', cstring user = some (client.user c') := by
    rcases List.mem_pair.mp hmember with hmember | hmember
    · exact ⟨_, hmember⟩
    · exact ⟨_, hmember⟩
  obtain ⟨c', hc'⟩ := hone
  obtain rfl : c' = c.other := by
    apply client.eq_other
    rintro rfl
    exact hne hc'
  exact hc'

/-- The daemon forwards to nobody but the other client. -/
theorem LoggedIn.forwards_to_other {kind : msg_kind} {name : List UInt8} (h : LoggedIn fd b)
    (hcli : cstring cli.name = some c.user)
    (hname : kind = group_kind ∧ name = gmesh ++ [0] ∨
      kind = private_kind ∧ name = c.other.user ++ [0]) :
    (∀ peer, ForwardsTo b cli kind name peer → peer.io = some (fd c.other)) ∧
      ∀ peer peer', ForwardsTo b cli kind name peer → ForwardsTo b cli kind name peer' →
        peer = peer' := by
  rcases hname with ⟨rfl, rfl⟩ | ⟨rfl, rfl⟩
  · have hmember {peer : client_t} (hto : ForwardsTo b cli group_kind (gmesh ++ [0]) peer) :
        ∃ user, cstring user = some c.other.user ∧
          user_get_by_name b.g_clients user = ok (some peer) ∧
          ∃ i group, search_group b.g_groups (gmesh ++ [0]) = ok (some (i, group)) ∧
            user ∈ group.users := by
      obtain ⟨-, i, group, hsearch, user, huser, hother, hfound⟩ | ⟨hid, -⟩ := hto
      · exact ⟨user, h.other_member hsearch huser hcli hother, hfound, i, group, hsearch, huser⟩
      · exact absurd hid (by decide)
    constructor
    · intro peer hto
      obtain ⟨user, hname, hfound, -⟩ := hmember hto
      obtain ⟨hin, body, hpeer, hbody⟩ := user_get_by_name_some hfound
      exact h.io_of_name hin (hpeer.trans (hbody.symm.trans hname))
    · intro peer peer' hto hto'
      obtain ⟨user, hname, hfound, i, group, hsearch, huser⟩ := hmember hto
      obtain ⟨user', hname', hfound', i', group', hsearch', huser'⟩ := hmember hto'
      obtain ⟨_, _, hgroup, hperm⟩ := h.group
      cases hsearch.symm.trans hsearch'
      cases hsearch.symm.trans hgroup
      have hnodup : (group.users.map cstring).Nodup := hperm.nodup_iff.mpr (by decide)
      obtain rfl := List.inj_on_of_nodup_map hnodup huser huser' (hname.trans hname'.symm)
      exact Option.some.inj (Result.ok.inj (hfound.symm.trans hfound'))
  · have hfound {peer : client_t} (hto : ForwardsTo b cli private_kind (c.other.user ++ [0]) peer) :
        user_get_by_name b.g_clients (c.other.user ++ [0]) = ok (some peer) := by
      obtain ⟨hid, -⟩ | ⟨-, hfound⟩ := hto
      · exact absurd hid (by decide)
      · exact hfound
    constructor
    · intro peer hto
      obtain ⟨hin, body, hpeer, hbody⟩ := user_get_by_name_some (hfound hto)
      exact h.io_of_name hin (hpeer.trans (hbody.symm.trans c.other.user_cstring))
    · intro peer peer' hto hto'
      exact Option.some.inj (Result.ok.inj ((hfound hto).symm.trans (hfound hto')))

/-- What the daemon does with a message of one of its two clients: nothing, or it writes
the message to the other one. -/
def Relayed (fd : client → Nat) (b : daemon) (c : client) (frame : List UInt8) (b' : daemon) :
    Prop :=
  b' = b ∨ ∃ call : io_write_call, b' = { b with writes := b.writes ++ [call] } ∧
    call.io = fd c.other ∧ readBytes call.data 0 call.len.toNat = ok frame

theorem LoggedIn.relayed {kind : msg_kind} {name frame msg : List UInt8} {cb : msg_cb_call}
    (h : LoggedIn fd b) (hcli : cstring cli.name = some c.user)
    (hname : kind = group_kind ∧ name = gmesh ++ [0] ∨
      kind = private_kind ∧ name = c.other.user ++ [0])
    (honce : ForwardsOnce b (fd c) cli kind name frame cb msg)
    (hhandle : handle_msg b msg (fd c) addr = ok b') : Relayed fd b c frame b' := by
  obtain ⟨peers, calls, hcalls, hnodup, hpeers, hcalled, -⟩ := honce addr
  cases hcalls.symm.trans hhandle
  obtain ⟨hio, hsame⟩ := h.forwards_to_other hcli hname
  cases hcalled with
  | nil => exact .inl (by rw [List.append_nil])
  | @cons peer call peers calls hfirst hrest =>
    have hpeer := (hpeers peer).mp List.mem_cons_self
    have hnone : peers = [] := by
      rw [List.eq_nil_iff_forall_not_mem]
      intro other hother
      obtain rfl := hsame _ _ hpeer ((hpeers other).mp (List.mem_cons_of_mem _ hother))
      exact (List.nodup_cons.mp hnodup).1 hother
    subst hnone
    cases hrest
    exact .inr ⟨call, rfl, Option.some.inj (hfirst.1.symm.trans (hio peer hpeer)), hfirst.2.1⟩

theorem LoggedIn.handle_msg_relays (h : LoggedIn fd b) (hserving : Serving b)
    (hposts : c.Posts call)
    (hhandle : handle_msg b (c.wire call ++ rest) (fd c) addr = ok b') :
    Relayed fd b c (c.wire call) b' := by
  obtain ⟨harg, cli, hcli, hname⟩ := h.logged_in c
  obtain ⟨i, group, hsearch, hperm⟩ := h.group
  have hlen := c.user_length
  cases call with
  | register_object username =>
    obtain ⟨peer, hpeer⟩ := hserving.user_known c.user_cstring (h.user_known c)
    exact .inl (Result.ok.inj
      (hhandle.symm.trans (handle_msg_registered (by omega) hpeer addr rest)))
  | create_group groupname =>
    exact .inl (Result.ok.inj
      (hhandle.symm.trans (handle_msg_created (by decide) hsearch addr rest)))
  | join_group groupname =>
    have husers : ∀ user ∈ group.users, (cstring user).isSome := by
      intro user huser
      have hmember := hperm.subset (List.mem_map_of_mem huser)
      rcases List.mem_pair.mp hmember with hmember | hmember
      · rw [hmember]
        rfl
      · rw [hmember]
        rfl
    have hmember : some c.user ∈ group.users.map cstring := by
      apply hperm.mem_iff.mpr
      cases c
      · exact List.mem_cons_self
      · exact List.mem_cons_of_mem _ List.mem_cons_self
    obtain ⟨j, hmember⟩ := search_item_in_group_known husers hname hmember
    exact .inl (Result.ok.inj
      (hhandle.symm.trans (handle_msg_joined (by decide) hsearch harg hcli hmember addr rest)))
  | sendmsg_in_group my_name groupname data =>
    have hfits := fitsWire_group c hposts.2.2.1 hposts.2.2.2.1
    obtain ⟨hget, body, hbody, hown⟩ := search_group_some hsearch
    rw [gmesh_cstring] at hbody
    cases hbody
    have hknown : some gmesh ∈ b.group_names :=
      List.mem_map.mpr ⟨group, List.mem_of_getElem? hget, hown⟩
    exact h.relayed hname (.inl ⟨rfl, rfl⟩)
      (hfits.group_forwards hserving harg hcli (by decide) (by decide) hknown rest) hhandle
  | sendmsg_private my_name peer_name data =>
    have hfits := fitsWire_private c hposts.2.2.1 hposts.2.2.2
    exact h.relayed hname (.inr ⟨rfl, rfl⟩)
      (hfits.private_forwards hserving harg c.other.user_free (h.user_known c.other) rest) hhandle

end Daemon

section Agent

variable {interface : mesh_interface} {data : List UInt8} {sent : Int → List UInt8 → Int}
  {interfaces : List mesh_interface} {env env' : outbox} {pkt_from pkt_to : Int}

theorem filter_packet_sizes (interface : NetworkInterface cmdu_filter_cb) (pkt_from pkt_to : Int)
    (data : List UInt8) :
    (filter_packet interface pkt_from pkt_to data).ifname.length = IF_NAMESIZE ∧
      (filter_packet interface pkt_from pkt_to data).ifaddr.length = ETH_ALEN ∧
      (filter_packet interface pkt_from pkt_to data).aladdr.length = ETH_ALEN := by
  refine ⟨?_, interface.addr.length_toList, interface.al_addr.length_toList⟩
  change ((snprintf_s (List.replicate IF_NAMESIZE 0) interface.ifname).getD
    (List.replicate IF_NAMESIZE 0)).length = IF_NAMESIZE
  cases hname : snprintf_s (List.replicate IF_NAMESIZE 0) interface.ifname with
  | ok ifname =>
    obtain ⟨_, _, hlength, _⟩ := snprintf_s_spec (by decide) hname
    rw [getD_ok, hlength, List.length_replicate]
  | fail => exact List.length_replicate
  | div => exact List.length_replicate

/-- What the filter publishes of a frame. -/
theorem filter_packet_bytes (interface : NetworkInterface cmdu_filter_cb) (pkt_from pkt_to : Int)
    (data : List UInt8) :
    (filter_packet interface pkt_from pkt_to data).bytes.length =
        sizeof_mesh_packet + data.length ∧
      packet (filter_packet interface pkt_from pkt_to data).bytes = data := by
  obtain ⟨hname, hif, hal⟩ := filter_packet_sizes interface pkt_from pkt_to data
  exact ⟨bytes_length hname hif hal, (bytes_packet hname hif hal).2.2.2⟩

theorem packet_length_of_framed {type id : UInt16} (h : Framed type id data) :
    (packet data).length ≤ 512 := by
  have hshort := h.short
  rw [packet, List.length_drop]
  omega

/-- The agent reads the CMDU of a packet as the `cfg_mgr` published it. -/
theorem published_read (h : Published data) {len : Int} {buf : List UInt8}
    (hlen : packet_len data = ok len) (hread : readBytes (packet data) 0 (toSize len) = ok buf) :
    buf = packet data := by
  obtain ⟨type, -, id, hframed⟩ := h
  cases hlen.symm.trans hframed.packet_len
  have hsize : toSize ((packet data).length : Int) = (packet data).length := by
    have hlength := (packet_length_of_framed hframed)
    have hsame := toSize_of_nonneg (x := ((packet data).length : Int)) (by omega) (by omega)
    exact_mod_cast hsame
  rw [hsize, readBytes_front (List.append_nil _).symm] at hread
  exact (Result.ok.inj hread).symm

theorem published_posts (h : Published data) : data ≠ [] ∧ data.length ≤ 4096 := by
  obtain ⟨type, -, id, hframed⟩ := h
  have hshort := hframed.short
  rw [sizeof_mesh_packet] at hshort
  refine ⟨?_, by omega⟩
  rintro rfl
  have hfrom := hframed.pkt_from
  exact absurd hfrom (by decide)

/-- All that the `cfg_mgr` hands to the bus can be sent. -/
theorem posts_of_emits {call : mbus_call} (h : Emits call) : client.cfg_mgr.Posts call := by
  cases call with
  | register_object username =>
    obtain rfl := h
    change cstring g_cfgmgr_user_name = some client.cfg_mgr.user
    decide
  | create_group groupname | join_group groupname =>
    obtain rfl := h
    change cstring cfg_mgr.g_mesh_group_name = some gmesh
    decide
  | sendmsg_in_group my_name groupname data =>
    obtain ⟨rfl, rfl, hpublished⟩ := h
    obtain ⟨hne, hshort⟩ := published_posts hpublished
    exact ⟨by decide, by decide, hne, hshort, fun _ => hpublished⟩
  | sendmsg_private my_name peer_name data =>
    obtain ⟨rfl, rfl, rfl⟩ := h
    exact ⟨by decide, by decide, by decide, by decide⟩

/-- A packet is sent on the interface that it names, if there is one, as it is. -/
theorem mesh_handle_group_published (h : Published data)
    (hhandle : mesh_handle_group_msg sent interfaces (gmesh ++ [0]) data env = ok env') :
    env' = env ∨ ∃ interface ∈ interfaces,
      env' = (if_send (agent_net sent) interface.toNetworkInterface (packet data) env).2 := by
  obtain ⟨isGroup, -, hhandle⟩ := bind_eq_ok_iff.mp hhandle
  split at hhandle
  · obtain ⟨pkt_to, -, hhandle⟩ := bind_eq_ok_iff.mp hhandle
    split at hhandle
    · obtain ⟨found, hfound, hhandle⟩ := bind_eq_ok_iff.mp hhandle
      cases found with
      | none =>
        cases hhandle
        exact .inl rfl
      | some interface =>
        obtain ⟨len, hlen, hhandle⟩ := bind_eq_ok_iff.mp hhandle
        obtain ⟨buf, hbuf, hok⟩ := bind_eq_ok_iff.mp hhandle
        cases hok
        rw [published_read h hlen hbuf]
        exact .inr ⟨interface, get_if_by_name_mem hfound, rfl⟩
    · cases hhandle
      exact .inl rfl
  · cases hhandle
    exact .inl rfl

/-- The reply to a private message of the `cfg_mgr`. -/
theorem mesh_handle_private_replies {controller : Option controller_info_s}
    {replies : List mbus_call}
    (h : mesh_handle_private_msg controller (client.cfg_mgr.user ++ [0])
      (client.mesh_agent.user ++ [0]) data = ok replies) :
    ∀ call ∈ replies, client.mesh_agent.Posts call := by
  obtain ⟨isMe, -, h⟩ := bind_eq_ok_iff.mp h
  split at h
  · obtain ⟨id, -, h⟩ := bind_eq_ok_iff.mp h
    split at h
    · cases controller with
      | none =>
        cases h
        exact nofun
      | some info =>
        cases h
        refine List.forall_mem_singleton.mpr ?_
        refine ⟨client.user_cstring _, client.user_cstring _, List.cons_ne_nil _ _, ?_⟩
        simp [controller_info_s.bytes, bytesU16]
    · cases h
      exact nofun
  · cases h
    exact nofun

/-- The `cfg_mgr` drops the copy that the agent publishes of one of its packets: an M1
because it is local, and a search because it does not handle them. -/
theorem cfgmgr_drops_copy {w w' : process} {fromName : List UInt8} (h : Published data)
    (hexec : w.exec (.message .MBUS_CMD_GROUP_MSG fromName (gmesh ++ [0])
      (filter_packet interface.toNetworkInterface PKT_LOCAL PKT_NETWORK (packet data)).bytes) =
        ok w') : w' = w := by
  obtain ⟨type, htype, id, hframed⟩ := h
  obtain ⟨hname, hif, hal⟩ := filter_packet_sizes interface.toNetworkInterface PKT_LOCAL
    PKT_NETWORK (packet data)
  have hshort : (packet data).length ≤ INT_MAX :=
    (packet_length_of_framed hframed).trans (by decide)
  obtain ⟨hfrom, -, -⟩ := bytes_fields hname hif hal rfl rfl rfl hshort
  obtain ⟨isGroup, -, hexec⟩ := bind_eq_ok_iff.mp hexec
  split at hexec
  · obtain ⟨pktFrom, hfrom', hexec⟩ := bind_eq_ok_iff.mp hexec
    cases hfrom.symm.trans hfrom'
    obtain ⟨type', htype', hexec⟩ := bind_eq_ok_iff.mp hexec
    rw [(filter_packet_bytes _ _ _ _).2, hframed.msg_type, map_ok, ntohs_htons] at htype'
    cases htype'
    rcases List.mem_pair.mp htype with rfl | rfl
    · rw [if_neg (by decide), if_neg (by decide), if_neg (by decide), if_neg (by decide)] at hexec
      exact (Result.ok.inj hexec).symm
    · rw [if_pos (by decide)] at hexec
      exact (Result.ok.inj hexec).symm
  · exact (Result.ok.inj hexec).symm

/-- The filter's message about a frame. -/
def filter_call (interface : NetworkInterface cmdu_filter_cb) (pkt_from pkt_to : Int)
    (frame : List UInt8) : mbus_call :=
  .sendmsg_in_group mesh_agent.g_mesh_user_name mesh_agent.g_mesh_group_name
    (filter_packet interface pkt_from pkt_to frame).bytes

theorem filter_call_posts (interface : NetworkInterface cmdu_filter_cb) (pkt_from pkt_to : Int)
    {frame : List UInt8} (hshort : frame.length ≤ 2048) :
    client.mesh_agent.Posts (filter_call interface pkt_from pkt_to frame) := by
  have hlength := (filter_packet_bytes interface pkt_from pkt_to frame).1
  rw [sizeof_mesh_packet] at hlength
  refine ⟨by decide, by decide, ?_, by omega, fun hclient => absurd hclient (by decide)⟩
  apply List.ne_nil_of_length_pos
  omega

/-- What the socket of an interface is given of a frame. -/
def socket_frames (interface : mesh_interface) (frame : List UInt8) :
    List (Int × List UInt8) :=
  if interface.fd = 0 then [] else [(interface.fd, frame)]

theorem socket_frames_length (interface : mesh_interface) (frame : List UInt8) :
    (socket_frames interface frame).length ≤ 1 := by
  unfold socket_frames
  split
  · exact Nat.zero_le 1
  · exact le_rfl

end Agent

end easymesh.system
