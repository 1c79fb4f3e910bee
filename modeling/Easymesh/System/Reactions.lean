import Easymesh.System.Circulation

open Lib Lib.Result easymesh.cmdu easymesh.ieee1905_network easymesh.bus_msg easymesh.mbusd
open easymesh.cfg_mgr easymesh.mesh_agent

namespace easymesh.system

/-- The packet carries a renew. -/
def Renews (data : List UInt8) : Prop :=
  ntohs <$> msg_type (packet data) = ok MSG_AP_AUTOCONFIGURATION_RENEW

instance (data : List UInt8) : Decidable (Renews data) := inferInstanceAs (Decidable (_ = _))

/-- How many messages one after the other come of a call at most: of a renew from the
network an M1, of a packet of the `cfg_mgr` its copy, of a private request the reply. -/
def client.rank : client → mbus_call → Nat
  | .cfg_mgr, .sendmsg_in_group .. | .cfg_mgr, .sendmsg_private .. => 1
  | .mesh_agent, .sendmsg_in_group _ _ data => if Renews data then 2 else 0
  | _, _ => 0

def posted_msg.rank (m : posted_msg) : Nat := m.sender.rank m.call

/-- The frames for the sockets that come of a call of the client: the CMDU of a packet of
the `cfg_mgr`, when an interface has the name in the packet. -/
def setup.forwards (net : setup) : client → mbus_call → List (Int × List UInt8)
  | .cfg_mgr, .sendmsg_in_group _ _ data =>
    match get_if_by_name net.interfaces (pkt_ifname data) with
    | ok (some interface) => socket_frames interface (packet data)
    | _ => []
  | _, _ => []

/-- Of a request to the daemon comes no frame. -/
theorem setup.forwards_request (net : setup) {c : client} {call : mbus_call}
    (h : c.called call = none) : net.forwards c call = [] := by
  cases call with
  | register_object _ | create_group _ | join_group _ => cases c <;> rfl
  | sendmsg_in_group _ _ _ | sendmsg_private _ _ _ => cases h

/-- What the reader of a call does about it: it makes at most one call itself, of a lower
rank, and gives to the sockets the frames that come of what it has read. -/
structure Reacts (net : setup) (reader : client) (read : mbus_call) (calls : List mbus_call)
    (frames : List (Int × List UInt8)) : Prop where
  posts : ∀ call ∈ calls, reader.Posts call
  few : calls.length ≤ 1
  lower : ∀ call ∈ calls, reader.rank call < reader.other.rank read
  forwards : frames = net.forwards reader.other read
  sends : frames.length ≤ calls.length

theorem Reacts.nothing {net : setup} {reader : client} {read : mbus_call}
    (h : net.forwards reader.other read = []) : Reacts net reader read [] [] :=
  ⟨List.forall_mem_nil _, Nat.zero_le 1, List.forall_mem_nil _, h.symm, le_rfl⟩

section CfgMgr

variable {w w' : process} {data fromName toName : List UInt8}

/-- Of all packets a renew alone makes the `cfg_mgr` send something. -/
theorem cfgmgr_handle_packet_calls (h : cfgmgr_handle_packet w data = ok w') :
    w'.calls = w.calls ∨ Renews data ∧ ∃ m1, w'.calls = w.calls ++
      [.sendmsg_in_group g_cfgmgr_user_name cfg_mgr.g_mesh_group_name m1] := by
  obtain ⟨pktFrom, -, h'⟩ := bind_eq_ok_iff.mp h
  obtain ⟨type, htype, h'⟩ := bind_eq_ok_iff.mp h'
  by_cases hrenew : type = MSG_AP_AUTOCONFIGURATION_RENEW
  · subst hrenew
    rw [if_neg fun hlocal => absurd hlocal.2 (by decide), if_pos rfl] at h'
    obtain ⟨len, -, h'⟩ := bind_eq_ok_iff.mp h'
    obtain ⟨band, -, h'⟩ := bind_eq_ok_iff.mp h'
    split at h'
    · cases h'
      exact .inl rfl
    · obtain ⟨dest, -, h'⟩ := bind_eq_ok_iff.mp h'
      obtain ⟨id, -, h'⟩ := bind_eq_ok_iff.mp h'
      obtain ⟨m1, rfl, -⟩ := cfgmgr_send_wsc_m1_spec h'
      exact .inr ⟨htype, m1, rfl⟩
  · left
    rw [if_neg hrenew] at h'
    split at h'
    · cases h'
      rfl
    · split at h'
      · rcases cfgmgr_handle_autoconfiguration_wsc_cases h' with
          ⟨m2buf, -, rfl⟩ | ⟨m2buf, radios, -, -, rfl⟩
        · rfl
        · exact foldl_configure_calls radios (w.setM2buf m2buf)
      · split at h'
        · obtain ⟨len, -, h'⟩ := bind_eq_ok_iff.mp h'
          obtain ⟨band, -, h'⟩ := bind_eq_ok_iff.mp h'
          split at h' <;> cases h' <;> rfl
        · cases h'
          rfl

/-- The `cfg_mgr` about a message of the agent. -/
theorem cfgmgr_reacts (net : setup) {call : mbus_call} {cb : msg_cb_call}
    (hcall : client.mesh_agent.called call = some cb)
    (h : w.exec (.message cb.cmd (cb.fromName.getD []) (cb.toName.getD []) cb.data) =
      ok w') :
    ∃ calls, w'.calls = w.calls ++ calls ∧ (∀ c ∈ calls, Emits c) ∧
      Reacts net .cfg_mgr call calls [] := by
  have hsame (hcalls : w'.calls = w.calls) : ∃ calls, w'.calls = w.calls ++ calls ∧
      (∀ c ∈ calls, Emits c) ∧ Reacts net .cfg_mgr call calls [] :=
    ⟨[], hcalls.trans (List.append_nil _).symm, List.forall_mem_nil _, .nothing rfl⟩
  cases call with
  | register_object username | create_group groupname | join_group groupname => cases hcall
  | sendmsg_private my_name peer_name data =>
    cases hcall
    exact hsame (cfgmgr_handle_private_msg_calls h)
  | sendmsg_in_group my_name groupname data =>
    cases hcall
    have hemitted := step_emits h
    obtain ⟨isGroup, -, h⟩ := bind_eq_ok_iff.mp h
    split at h
    · rcases cfgmgr_handle_packet_calls h with hcalls | ⟨hrenews, m1, hcalls⟩
      · exact hsame hcalls
      · obtain ⟨new, hnew, hemits⟩ := hemitted
        obtain rfl := List.append_cancel_left (hcalls.symm.trans hnew)
        refine ⟨_, hcalls, hemits, ?_⟩
        constructor
        · exact fun c hc => posts_of_emits (hemits c hc)
        · exact le_rfl
        · rw [List.forall_mem_singleton]
          have htwo : client.mesh_agent.rank (.sendmsg_in_group my_name groupname data) = 2 :=
            if_pos hrenews
          change 1 < client.mesh_agent.rank (.sendmsg_in_group my_name groupname data)
          rw [htwo]
          exact Nat.one_lt_two
        · rfl
        · exact Nat.zero_le 1
    · cases h
      exact hsame rfl

end CfgMgr

section Agent

variable {net : setup} {controller : Option controller_info_s} {env env' : outbox}
  {replies : List mbus_call} {data : List UInt8}

/-- The reply to a private request, if there is one. -/
theorem mesh_handle_private_reacts {my_name peer_name : List UInt8}
    (h : mesh_handle_private_msg controller (client.cfg_mgr.user ++ [0])
      (client.mesh_agent.user ++ [0]) data = ok replies) :
    Reacts net .mesh_agent (.sendmsg_private my_name peer_name data) replies [] := by
  have hposts := mesh_handle_private_replies h
  obtain ⟨isMe, -, h⟩ := bind_eq_ok_iff.mp h
  split at h
  · obtain ⟨id, -, h⟩ := bind_eq_ok_iff.mp h
    split at h
    · cases controller with
      | none =>
        cases h
        exact .nothing rfl
      | some info =>
        cases h
        refine ⟨hposts, le_rfl, ?_, rfl, Nat.zero_le 1⟩
        rw [List.forall_mem_singleton]
        exact Nat.zero_lt_one
    · cases h
      exact .nothing rfl
  · cases h
    exact .nothing rfl

theorem copy_not_renews (interface : NetworkInterface cmdu_filter_cb) (h : Published data) :
    ¬ Renews (filter_packet interface PKT_LOCAL PKT_NETWORK (packet data)).bytes := by
  obtain ⟨type, htype, id, hframed⟩ := h
  rw [Renews, (filter_packet_bytes _ _ _ _).2, hframed.msg_type, map_ok, ntohs_htons]
  rcases List.mem_pair.mp htype with rfl | rfl
  · exact fun h => absurd (Result.ok.inj h) (by decide)
  · exact fun h => absurd (Result.ok.inj h) (by decide)

/-- A packet is sent, as it is, on the interface that has the name in it. -/
theorem mesh_handle_group_forwards {sent : Int → List UInt8 → Int}
    {interfaces : List mesh_interface} (h : Published data)
    (hhandle : mesh_handle_group_msg sent interfaces (gmesh ++ [0]) data env = ok env') :
    get_if_by_name interfaces (pkt_ifname data) = ok none ∧ env' = env ∨
      ∃ interface, get_if_by_name interfaces (pkt_ifname data) = ok (some interface) ∧
        env' = (if_send (agent_net sent) interface.toNetworkInterface (packet data) env).2 := by
  have hgroup : strcmp_eq (gmesh ++ [0]) mesh_agent.g_mesh_group_name = ok true := by decide
  obtain ⟨type, -, id, hframed⟩ := id h
  rw [mesh_handle_group_msg, hgroup, ok_bind, if_pos rfl, mesh_handle_packet, forward_cmdu,
    hframed.pkt_to, ok_bind, if_pos rfl] at hhandle
  obtain ⟨found, hfound, hhandle⟩ := bind_eq_ok_iff.mp hhandle
  cases found with
  | none =>
    cases hhandle
    exact .inl ⟨hfound, rfl⟩
  | some interface =>
    obtain ⟨len, hlen, hhandle⟩ := bind_eq_ok_iff.mp hhandle
    obtain ⟨buf, hbuf, hok⟩ := bind_eq_ok_iff.mp hhandle
    cases hok
    rw [published_read h hlen hbuf]
    exact .inr ⟨interface, hfound, rfl⟩

/-- The copy of a packet and its transmission. -/
theorem copy_reacts {my_name groupname : List UInt8} {interface : mesh_interface}
    (h : Published data)
    (hfound : get_if_by_name net.interfaces (pkt_ifname data) = ok (some interface)) :
    Reacts net .mesh_agent (.sendmsg_in_group my_name groupname data)
      [filter_call interface.toNetworkInterface PKT_LOCAL PKT_NETWORK (packet data)]
      (socket_frames interface (packet data)) := by
  constructor
  · obtain ⟨type, -, id, hframed⟩ := h
    have hshort := packet_length_of_framed hframed
    exact List.forall_mem_singleton.mpr (filter_call_posts _ _ _ (by omega))
  · exact le_rfl
  · rw [List.forall_mem_singleton]
    change (if Renews _ then 2 else 0) < 1
    rw [if_neg (copy_not_renews _ h)]
    exact Nat.zero_lt_one
  · change _ = net.forwards .cfg_mgr _
    rw [setup.forwards, hfound]
  · exact socket_frames_length interface _

/-- The agent about a message of the `cfg_mgr`: what it has published, replied and given
to the sockets. -/
theorem agent_reacts {call : mbus_call} {cb : msg_cb_call} (hposts : client.cfg_mgr.Posts call)
    (hcall : client.cfg_mgr.called call = some cb)
    (h : mesh_handle_msg net controller cb env = ok (env', replies)) :
    ∃ published frames, env'.published = env.published ++ published ∧
      env'.transmitted = env.transmitted ++ frames ∧
      Reacts net .mesh_agent call ((published.map fun data => mbus_call.sendmsg_in_group
        mesh_agent.g_mesh_user_name mesh_agent.g_mesh_group_name data) ++ replies) frames := by
  have hsame {call : mbus_call} (h : Reacts net .mesh_agent call replies []) :
      ∃ published frames, env.published = env.published ++ published ∧
        env.transmitted = env.transmitted ++ frames ∧
        Reacts net .mesh_agent call ((published.map fun data => mbus_call.sendmsg_in_group
          mesh_agent.g_mesh_user_name mesh_agent.g_mesh_group_name data) ++ replies) frames :=
    ⟨[], [], (List.append_nil _).symm, (List.append_nil _).symm, h⟩
  cases call with
  | register_object username | create_group groupname | join_group groupname => cases hcall
  | sendmsg_private my_name peer_name data =>
    cases hcall
    obtain ⟨replies', hhandle, hok⟩ := bind_eq_ok_iff.mp h
    cases hok
    exact hsame (mesh_handle_private_reacts hhandle)
  | sendmsg_in_group my_name groupname data =>
    cases hcall
    have hpublished : Published data := hposts.2.2.2.2 rfl
    obtain ⟨env'', hhandle, hok⟩ := bind_eq_ok_iff.mp h
    cases hok
    rcases mesh_handle_group_forwards hpublished hhandle with
      ⟨hnone, rfl⟩ | ⟨interface, hfound, rfl⟩
    · refine hsame (.nothing ?_)
      change net.forwards .cfg_mgr _ = []
      rw [setup.forwards, hnone]
    · rw [if_send_outbox]
      exact ⟨_, _, rfl, rfl, copy_reacts hpublished hfound⟩

end Agent

theorem client.other_ne (c : client) : c.other ≠ c := by
  cases c <;> decide

section Daemon

variable {fd : client → Nat} {b b' : daemon} {c : client} {call : mbus_call} {addr : Ptr}
  {rest : List UInt8} {cli : client_t}

/-- The other client is there to read what a client sends. -/
theorem LoggedIn.forwards_to_somebody {kind : msg_kind} {name : List UInt8} (h : LoggedIn fd b)
    (hserving : Serving b) (hcli : cstring cli.name = some c.user)
    (hname : kind = group_kind ∧ name = gmesh ++ [0] ∨
      kind = private_kind ∧ name = c.other.user ++ [0]) :
    ∃ peer, ForwardsTo b cli kind name peer := by
  rcases hname with ⟨rfl, rfl⟩ | ⟨rfl, rfl⟩
  · obtain ⟨i, group, hsearch, hperm⟩ := h.group
    have hmember : some c.other.user ∈ group.users.map cstring := by
      apply hperm.mem_iff.mpr
      cases c
      · exact List.mem_cons_of_mem _ List.mem_cons_self
      · exact List.mem_cons_self
    obtain ⟨user, huser, hown⟩ := List.mem_map.mp hmember
    obtain ⟨peer, hpeer⟩ := hserving.user_known hown (h.user_known c.other)
    have hdiffers : strcmp_eq user cli.name = ok false := by
      rw [strcmp_eq_of_cstring hown hcli]
      exact congrArg ok (decide_eq_false fun heq => c.other_ne (client.user_inj heq))
    exact ⟨peer, .inl ⟨rfl, i, group, hsearch, user, huser, hdiffers, hpeer⟩⟩
  · obtain ⟨peer, hpeer⟩ := hserving.user_known c.other.user_cstring (h.user_known c.other)
    exact ⟨peer, .inr ⟨rfl, hpeer⟩⟩

/-- The daemon writes the message to the other client. -/
def RelayedOn (fd : client → Nat) (b : daemon) (c : client) (frame : List UInt8) (b' : daemon) :
    Prop :=
  ∃ call : io_write_call, b' = { b with writes := b.writes ++ [call] } ∧
    call.io = fd c.other ∧ readBytes call.data 0 call.len.toNat = ok frame

theorem LoggedIn.relayed_on {kind : msg_kind} {name frame msg : List UInt8} {cb : msg_cb_call}
    (h : LoggedIn fd b) (hserving : Serving b) (hcli : cstring cli.name = some c.user)
    (hname : kind = group_kind ∧ name = gmesh ++ [0] ∨
      kind = private_kind ∧ name = c.other.user ++ [0])
    (honce : ForwardsOnce b (fd c) cli kind name frame cb msg)
    (hhandle : handle_msg b msg (fd c) addr = ok b') : RelayedOn fd b c frame b' := by
  rcases h.relayed hcli hname honce hhandle with rfl | hrelayed
  · obtain ⟨peers, calls, hcalls, -, hpeers, hcalled, -⟩ := honce addr
    obtain ⟨peer, hto⟩ := h.forwards_to_somebody hserving hcli hname
    have hsame := congrArg daemon.writes (Result.ok.inj (hhandle.symm.trans hcalls))
    obtain rfl := List.self_eq_append_right.mp hsame
    cases hcalled
    exact absurd ((hpeers peer).mpr hto) List.not_mem_nil
  · exact hrelayed

/-- A message for the group or the other client is not dropped. -/
theorem LoggedIn.handle_msg_relays_on (h : LoggedIn fd b) (hserving : Serving b)
    (hposts : c.Posts call) (hsome : (c.called call).isSome)
    (hhandle : handle_msg b (c.wire call ++ rest) (fd c) addr = ok b') :
    RelayedOn fd b c (c.wire call) b' := by
  obtain ⟨harg, cli, hcli, hname⟩ := h.logged_in c
  obtain ⟨i, group, hsearch, hperm⟩ := h.group
  cases call with
  | register_object username | create_group groupname | join_group groupname => cases hsome
  | sendmsg_in_group my_name groupname data =>
    have hfits := fitsWire_group c hposts.2.2.1 hposts.2.2.2.1
    obtain ⟨hget, body, hbody, hown⟩ := search_group_some hsearch
    rw [gmesh_cstring] at hbody
    cases hbody
    have hknown : some gmesh ∈ b.group_names :=
      List.mem_map.mpr ⟨group, List.mem_of_getElem? hget, hown⟩
    exact h.relayed_on hserving hname (.inl ⟨rfl, rfl⟩)
      (hfits.group_forwards hserving harg hcli (by decide) (by decide) hknown rest) hhandle
  | sendmsg_private my_name peer_name data =>
    have hfits := fitsWire_private c hposts.2.2.1 hposts.2.2.2
    exact h.relayed_on hserving hname (.inr ⟨rfl, rfl⟩)
      (hfits.private_forwards hserving harg c.other.user_free (h.user_known c.other) rest) hhandle

end Daemon

/-- Somebody reads a message. -/
def mesh_event.Delivers (s : mesh_system) : mesh_event → Prop
  | daemon_reads sender _ _ => s.to_daemon sender ≠ []
  | client_reads reader _ _ => s.to_client reader ≠ []
  | cfgmgr_timer _ | agent_receives .. | agent_sends .. => False

instance decidableDelivers (s : mesh_system) : (e : mesh_event) → Decidable (e.Delivers s)
  | .daemon_reads sender _ _ => inferInstanceAs (Decidable (s.to_daemon sender ≠ []))
  | .client_reads reader _ _ => inferInstanceAs (Decidable (s.to_client reader ≠ []))
  | .cfgmgr_timer _ => inferInstanceAs (Decidable False)
  | .agent_receives .. => inferInstanceAs (Decidable False)
  | .agent_sends .. => inferInstanceAs (Decidable False)

/-- What an event does: nothing; a client makes calls of its own accord; the daemon takes
message `k` and writes it to the other client, if it is for the group or that client; or a
client reads message `k` and reacts to it. -/
inductive Happens (net : setup) (s : mesh_system) : mesh_event → mesh_system → Prop
  | nothing {e : mesh_event} (hidle : ¬ e.Delivers s) : Happens net s e s
  | begins {e : mesh_event} {c : client} {calls : List mbus_call}
      {frames : List (Int × List UInt8)} {w : process} {env : outbox} (hown : ¬ e.Delivers s)
      (hposts : ∀ call ∈ calls, c.Posts call) :
      Happens net s e { s.goes net c none calls frames with cfgmgr := w, outbox := env }
  | passes {sender : client} {addr : mbusd.Ptr} {rest frame : List UInt8} {k : Nat}
      {more kept : List (Nat × List UInt8)} {m : posted_msg} {b : daemon}
      (hqueue : s.to_daemon sender = (k, frame) :: more)
      (hposted : s.posted[k]? = some m) (hsender : m.sender = sender)
      (hkept : kept.Sublist (net.taken .to_client [(k, frame)]))
      (hpassed : (sender.called m.call).isSome → kept = net.taken .to_client [(k, frame)]) :
      Happens net s (.daemon_reads sender addr rest) { s with
        daemon := b
        to_daemon := Function.update s.to_daemon sender more
        to_client := Function.update s.to_client sender.other (s.to_client sender.other ++ kept) }
  | answers {reader : client} {controller : Option controller_info_s} {rest frame : List UInt8}
      {k : Nat} {more : List (Nat × List UInt8)} {m : posted_msg} {calls : List mbus_call}
      {frames : List (Int × List UInt8)} {w : process} {env : outbox}
      (hqueue : s.to_client reader = (k, frame) :: more)
      (hposted : s.posted[k]? = some m) (hsender : m.sender = reader.other)
      (hreacts : Reacts net reader m.call calls frames) :
      Happens net s (.client_reads reader controller rest)
        { ({ s with to_client := Function.update s.to_client reader more }).goes net reader (some k)
            calls frames with cfgmgr := w, outbox := env }

section Events

variable {net : setup} {s s' : mesh_system} {e : mesh_event} {controller : Option controller_info_s}
  {rest : List UInt8}

theorem Flowing.daemon_passes (h : Flowing net s) {sender : client} {addr : mbusd.Ptr}
    (hexec : s.exec net (.daemon_reads sender addr rest) = ok s') :
    Happens net s (.daemon_reads sender addr rest) s' := by
  rw [mesh_system.exec] at hexec
  cases hqueue : s.to_daemon sender with
  | nil =>
    rw [hqueue] at hexec
    cases hexec
    exact .nothing fun hdelivers => hdelivers hqueue
  | cons first more =>
    obtain ⟨k, frame⟩ := first
    rw [hqueue] at hexec
    obtain ⟨b, hb, hdeliver⟩ := bind_eq_ok_iff.mp hexec
    have hmem : (k, frame) ∈ s.path sender := by
      rw [mesh_system.path, hqueue]
      exact List.mem_append_right _ List.mem_cons_self
    obtain ⟨m, hm, rfl, rfl⟩ := (h.under_way sender k frame hmem).posted
    have hposts := h.posts m (List.mem_of_getElem? hm)
    have hrelays (hsome : (m.sender.called m.call).isSome) :=
      h.logged_in.handle_msg_relays_on h.serving hposts hsome hb
    rcases h.logged_in.handle_msg_relays h.serving hposts hb with rfl | ⟨call, rfl, hio, hread⟩
    · rw [List.drop_length, List.foldlM_nil] at hdeliver
      cases hdeliver
      have hnobody (hsome : (m.sender.called m.call).isSome) : False := by
        obtain ⟨call, hsame, -⟩ := hrelays hsome
        exact absurd (List.self_eq_append_right.mp (congrArg daemon.writes hsame))
          (List.cons_ne_nil _ _)
      have hdropped : Happens net s (.daemon_reads m.sender addr rest) { s with
          daemon := s.daemon
          to_daemon := Function.update s.to_daemon m.sender more
          to_client := Function.update s.to_client m.sender.other
            (s.to_client m.sender.other ++ []) } :=
        .passes hqueue hm rfl (List.nil_sublist _) fun hsome => (hnobody hsome).elim
      rw [List.append_nil, Function.update_eq_self] at hdropped
      exact hdropped
    · rw [List.drop_left, List.foldlM_cons, mesh_system.deliver, hread, ok_bind, hio,
        setup.client_of_fd h.logged_in.apart, ok_bind, List.foldlM_nil] at hdeliver
      cases hdeliver
      exact .passes hqueue hm rfl (.refl _) fun _ => rfl

theorem Flowing.client_answers (h : Flowing net s) {reader : client}
    (hexec : s.exec net (.client_reads reader controller rest) = ok s') :
    Happens net s (.client_reads reader controller rest) s' := by
  rw [mesh_system.exec] at hexec
  cases hqueue : s.to_client reader with
  | nil =>
    rw [hqueue] at hexec
    cases hexec
    exact .nothing fun hdelivers => hdelivers hqueue
  | cons first more =>
    obtain ⟨k, frame⟩ := first
    rw [hqueue] at hexec
    obtain ⟨-, -, m, hm, hsender, rfl⟩ := h.read_by hqueue
    have hposts := h.posts m (List.mem_of_getElem? hm)
    rw [hsender] at hposts
    dsimp only at hexec
    rw [hposts.called_back rest, ok_bind] at hexec
    cases hcall : reader.other.called m.call with
    | none =>
      rw [hcall] at hexec
      cases hexec
      have hnone := net.forwards_request hcall
      have hignored : Happens net s (.client_reads reader controller rest)
          { ({ s with to_client := Function.update s.to_client reader more }).goes net reader (some k)
              [] [] with cfgmgr := s.cfgmgr, outbox := s.outbox } :=
        .answers hqueue hm hsender (.nothing hnone)
      simpa [mesh_system.goes, numbered, setup.taken, posted_by, sent_by] using hignored
    | some call =>
      rw [hcall] at hexec
      cases reader with
      | cfg_mgr =>
        obtain ⟨w, hw, hgoes⟩ := bind_eq_ok_iff.mp hexec
        obtain ⟨calls, hcalls, hemits, hreacts⟩ := cfgmgr_reacts net hcall hw
        rw [cfgmgr_goes_eq hemits hcalls] at hgoes
        cases hgoes
        exact .answers hqueue hm hsender hreacts
      | mesh_agent =>
        obtain ⟨⟨env, replies⟩, henv, hgoes⟩ := bind_eq_ok_iff.mp hexec
        obtain ⟨published, frames, hpublished, htransmitted, hreacts⟩ :=
          agent_reacts hposts hcall henv
        dsimp only at hgoes
        rw [agent_goes_eq hpublished htransmitted rfl hreacts.posts] at hgoes
        cases hgoes
        exact .answers hqueue hm hsender hreacts

theorem Flowing.happens (h : Flowing net s) (hstep : MeshStep net s e s') :
    Happens net s e s' := by
  obtain ⟨hallowed, hexec⟩ := hstep
  cases e with
  | cfgmgr_timer cur =>
    obtain ⟨w, hw, hgoes⟩ := bind_eq_ok_iff.mp hexec
    obtain ⟨calls, hcalls, hemits⟩ := step_emits hw
    rw [cfgmgr_goes_eq hemits hcalls] at hgoes
    cases hgoes
    exact .begins id fun call hcall => posts_of_emits (hemits call hcall)
  | agent_receives interface data =>
    have hposts : ∀ call ∈ [filter_call interface.toNetworkInterface PKT_NETWORK PKT_LOCAL data],
        client.mesh_agent.Posts call :=
      List.forall_mem_singleton.mpr (filter_call_posts _ _ _ hallowed)
    have htransmitted :
        (cmdu_filter_func interface.toNetworkInterface .IF_RECV data s.outbox).2.transmitted =
          s.outbox.transmitted ++ [] := (List.append_nil _).symm
    have hpublished :
        (cmdu_filter_func interface.toNetworkInterface .IF_RECV data s.outbox).2.published =
          s.outbox.published ++
            [(filter_packet interface.toNetworkInterface PKT_NETWORK PKT_LOCAL data).bytes] := rfl
    rw [mesh_system.exec, agent_goes_eq hpublished htransmitted (List.append_nil _).symm hposts]
      at hexec
    cases hexec
    exact .begins id hposts
  | agent_sends interface buf =>
    have hposts : ∀ call ∈ [filter_call interface.toNetworkInterface PKT_LOCAL PKT_NETWORK buf],
        client.mesh_agent.Posts call :=
      List.forall_mem_singleton.mpr (filter_call_posts _ _ _ hallowed)
    rw [mesh_system.exec, if_send_outbox, agent_goes_eq rfl rfl rfl hposts] at hexec
    cases hexec
    exact .begins id hposts
  | daemon_reads sender addr rest => exact h.daemon_passes hexec
  | client_reads reader controller rest => exact h.client_answers hexec

end Events

end easymesh.system
