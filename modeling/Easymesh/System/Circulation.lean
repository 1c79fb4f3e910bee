import Easymesh.System.Flow
import Easymesh.System.Payload

open Lib Lib.Result easymesh.cmdu easymesh.ieee1905_network easymesh.bus_msg easymesh.mbusd
open easymesh.cfg_mgr easymesh.mesh_agent

namespace easymesh.system

section Clients

variable {net : setup} {s s' : mesh_system} {c : client} {cause : Option Nat}
  {calls : List mbus_call} {frames : List (Int × List UInt8)} {k : Nat} {data frame : List UInt8}
  {call : mbus_call} {w : process} {env : outbox} {interface : mesh_interface}

theorem Flowing.with_clients (h : Flowing net s) (w : process) (env : outbox) :
    Flowing net { s with cfgmgr := w, outbox := env } :=
  h.shortened h.serving h.logged_in rfl rfl fun _ => .refl _

theorem cfgmgr_goes_eq (hemits : ∀ call ∈ calls, Emits call)
    (hcalls : w.calls = s.cfgmgr.calls ++ calls) :
    s.cfgmgr_goes net w cause =
      ok { s.goes net .cfg_mgr cause calls [] with cfgmgr := w, outbox := s.outbox } := by
  rw [mesh_system.cfgmgr_goes, hcalls, List.drop_left,
    foldlM_post fun call hcall => posts_of_emits (hemits call hcall)]
  rfl

theorem agent_goes_eq {published : List (List UInt8)} {replies : List mbus_call}
    (hpublished : env.published = s.outbox.published ++ published)
    (htransmitted : env.transmitted = s.outbox.transmitted ++ frames)
    (hcalls : calls = (published.map fun data => mbus_call.sendmsg_in_group
      mesh_agent.g_mesh_user_name mesh_agent.g_mesh_group_name data) ++ replies)
    (hposts : ∀ call ∈ calls, client.mesh_agent.Posts call) :
    s.agent_goes net env replies cause =
      ok { s.goes net .mesh_agent cause calls frames with cfgmgr := s.cfgmgr, outbox := env } := by
  subst hcalls
  rw [mesh_system.agent_goes, hpublished, htransmitted, List.drop_left, List.drop_left]
  dsimp only
  rw [foldlM_post hposts]
  simp only [mesh_system.goes, sent_by, List.map_nil, List.append_nil]

theorem Answers.of_none (hposts : ∀ call ∈ calls, c.Posts call) :
    Answers net s c none calls frames :=
  ⟨hposts, fun _ h => absurd h.symm (Option.some_ne_none _),
    fun _ _ h => absurd h.symm (Option.some_ne_none _),
    fun _ h => absurd h.symm (Option.some_ne_none _)⟩

theorem Flowing.cfgmgr_goes (h : Flowing net s) {s' : mesh_system}
    (hanswers : ∀ calls, w.calls = s.cfgmgr.calls ++ calls → (∀ call ∈ calls, Emits call) →
      Answers net s .cfg_mgr cause calls [])
    (hemitted : Emitted s.cfgmgr.calls w.calls) (hgoes : s.cfgmgr_goes net w cause = ok s') :
    Flowing net s' ∧ s'.cfgmgr = w := by
  obtain ⟨calls, hcalls, hemits⟩ := hemitted
  rw [cfgmgr_goes_eq hemits hcalls] at hgoes
  cases hgoes
  exact ⟨(h.goes (hanswers calls hcalls hemits)).with_clients _ _, rfl⟩

theorem Flowing.agent_goes (h : Flowing net s) {s' : mesh_system}
    {published : List (List UInt8)} {replies : List mbus_call}
    (hpublished : env.published = s.outbox.published ++ published)
    (htransmitted : env.transmitted = s.outbox.transmitted ++ frames)
    (hcalls : calls = (published.map fun data => mbus_call.sendmsg_in_group
      mesh_agent.g_mesh_user_name mesh_agent.g_mesh_group_name data) ++ replies)
    (hanswers : Answers net s .mesh_agent cause calls frames)
    (hgoes : s.agent_goes net env replies cause = ok s') :
    Flowing net s' ∧ s'.cfgmgr = s.cfgmgr := by
  rw [agent_goes_eq hpublished htransmitted hcalls hanswers.posts] at hgoes
  cases hgoes
  exact ⟨(h.goes hanswers).with_clients _ _, rfl⟩

theorem Flowing.agent_replies (h : Flowing net s)
    (hanswers : Answers net s .mesh_agent cause calls [])
    (hgoes : s.agent_goes net s.outbox calls cause = ok s') :
    Flowing net s' ∧ s'.cfgmgr = s.cfgmgr :=
  h.agent_goes (List.append_nil _).symm (List.append_nil _).symm rfl hanswers hgoes

theorem Flowing.agent_receives (h : Flowing net s)
    (hanswers : Answers net s .mesh_agent cause
      [filter_call interface.toNetworkInterface PKT_NETWORK PKT_LOCAL frame] [])
    (hgoes : s.agent_goes net
      (cmdu_filter_func interface.toNetworkInterface .IF_RECV frame s.outbox).2 [] cause = ok s') :
    Flowing net s' ∧ s'.cfgmgr = s.cfgmgr := by
  have htransmitted :
      (cmdu_filter_func interface.toNetworkInterface .IF_RECV frame s.outbox).2.transmitted =
        s.outbox.transmitted ++ [] := (List.append_nil _).symm
  exact h.agent_goes rfl htransmitted rfl hanswers hgoes

theorem Flowing.agent_sends (h : Flowing net s)
    (hanswers : Answers net s .mesh_agent cause
      [filter_call interface.toNetworkInterface PKT_LOCAL PKT_NETWORK frame]
      (socket_frames interface frame))
    (hgoes : s.agent_goes net
      (if_send (agent_net net.sent) interface.toNetworkInterface frame s.outbox).2 [] cause =
        ok s') :
    Flowing net s' ∧ s'.cfgmgr = s.cfgmgr := by
  rw [if_send_outbox] at hgoes
  exact h.agent_goes rfl rfl rfl hanswers hgoes

end Clients

section Events

variable {net : setup} {s s' : mesh_system} {reader : client} {k : Nat}
  {data frame rest : List UInt8} {more : List (Nat × List UInt8)} {b : daemon}
  {controller : Option controller_info_s} {interface : mesh_interface}

/-- The daemon's record of what it wrote is not part of its registry. -/
theorem Flowing.daemon_writes (h : Flowing net s) (writes : List io_write_call) :
    Serving { s.daemon with writes } ∧ LoggedIn net.fd { s.daemon with writes } := by
  obtain ⟨⟨hnames, hgroups, husers⟩, honce, hio, haddrs⟩ := h.serving
  obtain ⟨hapart, hclients, hlogged, hgroup⟩ := h.logged_in
  exact ⟨⟨⟨hnames, hgroups, husers⟩, honce, hio, haddrs⟩, ⟨hapart, hclients, hlogged, hgroup⟩⟩

theorem Flowing.daemon_reads (h : Flowing net s) {sender : client} {addr : Ptr}
    (hexec : s.exec net (.daemon_reads sender addr rest) = ok s') :
    Flowing net s' ∧ s'.cfgmgr = s.cfgmgr := by
  rw [mesh_system.exec] at hexec
  cases hqueue : s.to_daemon sender with
  | nil =>
    rw [hqueue] at hexec
    cases hexec
    exact ⟨h, rfl⟩
  | cons first more =>
    obtain ⟨k, frame⟩ := first
    rw [hqueue] at hexec
    obtain ⟨b, hb, hdeliver⟩ := bind_eq_ok_iff.mp hexec
    have hpath : s.path sender = s.to_client sender.other ++ (k, frame) :: more := by
      rw [mesh_system.path, hqueue]
    have hmem : (k, frame) ∈ s.path sender := by
      rw [hpath]
      exact List.mem_append_right _ List.mem_cons_self
    obtain ⟨m, hm, rfl, rfl⟩ := (h.under_way sender k frame hmem).posted
    have hposts := h.posts m (List.mem_of_getElem? hm)
    rcases h.logged_in.handle_msg_relays h.serving hposts hb with rfl | ⟨call, rfl, hio, hread⟩
    · rw [List.drop_length, List.foldlM_nil] at hdeliver
      cases hdeliver
      refine ⟨h.shortened h.serving h.logged_in rfl rfl fun c => ?_, rfl⟩
      by_cases hsame : c = m.sender
      · subst hsame
        rw [hpath]
        simp only [mesh_system.path, Function.update_self]
        exact (List.sublist_cons_self _ _).append_left _
      · simp only [mesh_system.path, Function.update_of_ne hsame]
        exact .refl _
    · rw [List.drop_left, List.foldlM_cons, mesh_system.deliver, hread, ok_bind, hio,
        setup.client_of_fd h.logged_in.apart, ok_bind, List.foldlM_nil] at hdeliver
      cases hdeliver
      obtain ⟨hserving, hlogged⟩ := h.daemon_writes (s.daemon.writes ++ [call])
      refine ⟨h.shortened hserving hlogged rfl rfl fun c => ?_, rfl⟩
      by_cases hsame : c = m.sender
      · subst hsame
        rw [hpath]
        simp only [mesh_system.path, Function.update_self, List.append_assoc]
        exact ((taken_sublist net .to_client _).append_right more).append_left _
      · have hother : c.other ≠ m.sender.other := by
          intro heq
          rw [← c.other_other, heq, client.other_other] at hsame
          exact hsame rfl
        simp only [mesh_system.path, Function.update_of_ne hsame, Function.update_of_ne hother]
        exact .refl _

/-- A client takes the next message, of the other one, from its connection. -/
theorem Flowing.read_by (h : Flowing net s) (hqueue : s.to_client reader = (k, frame) :: more) :
    let taken := { s with to_client := Function.update s.to_client reader more }
    Flowing net taken ∧ taken.Taken k ∧
      ∃ m, s.posted[k]? = some m ∧ m.sender = reader.other ∧ frame = reader.other.wire m.call := by
  intro taken
  have hpath : s.path reader.other = (k, frame) :: taken.path reader.other := by
    simp only [taken, mesh_system.path, client.other_other, Function.update_self, hqueue,
      List.cons_append]
  have hother {c : client} (hne : c ≠ reader.other) : taken.path c = s.path c := by
    have hreader : c.other ≠ reader := by
      rintro rfl
      exact hne c.other_other.symm
    simp only [taken, mesh_system.path, Function.update_of_ne hreader]
  have hmem : (k, frame) ∈ s.path reader.other := by
    rw [hpath]
    exact List.mem_cons_self
  obtain ⟨⟨m, hm, hsender, hframe⟩, heffect⟩ := h.under_way _ k frame hmem
  have hflowing : Flowing net taken := by
    refine h.shortened h.serving h.logged_in rfl rfl fun c => ?_
    by_cases hsame : c = reader.other
    · subst hsame
      rw [hpath]
      exact List.sublist_cons_self _ _
    · rw [hother hsame]
  refine ⟨hflowing, ⟨h.lt_of_mem hmem, fun c hin => ?_, ⟨heffect.caused, heffect.transmitted⟩⟩,
    m, hm, hsender, hframe⟩
  by_cases hsame : c = reader.other
  · subst hsame
    have honce := h.once reader.other
    rw [hpath, List.map_cons, List.nodup_cons] at honce
    exact honce.1 hin
  · rw [hother hsame] at hin
    obtain ⟨⟨k', frame'⟩, hmem', rfl⟩ := List.mem_map.mp hin
    obtain ⟨m', hm', hsender', -⟩ := (h.under_way c k' frame' hmem').posted
    obtain rfl := Option.some.inj (hm.symm.trans hm')
    exact hsame (hsender'.symm.trans hsender)

theorem Flowing.published (h : Flowing net s) (hpacket : s.Packet k data) : Published data := by
  obtain ⟨m, my_name, groupname, hm, hsender, hcall, -⟩ := hpacket
  have hposts := h.posts m (List.mem_of_getElem? hm)
  rw [hsender, hcall] at hposts
  exact hposts.2.2.2.2 rfl

/-- The message is what the agent says of the packet. -/
theorem Flowing.copies (h : Flowing net s) {m : posted_msg} (hm : s.posted[k]? = some m)
    (hfrom : s.FromPacket k) : ∃ data, Published data ∧ m.Copies net data := by
  obtain ⟨m', k', data, hm', hcause, hpacket⟩ := hfrom
  obtain rfl := Option.some.inj (hm.symm.trans hm')
  exact ⟨data, h.published hpacket, ((h.stopped k' data hpacket).copies k m hm hcause).1⟩

/-- The `cfg_mgr` is called back for a message of the agent. -/
theorem Flowing.cfgmgr_called_back (h : Flowing net s) (htaken : s.Taken k) {m : posted_msg}
    {call : msg_cb_call} (hm : s.posted[k]? = some m) (hsender : m.sender = .mesh_agent)
    (hcall : client.mesh_agent.called m.call = some call)
    (hback : s.call_back net .cfg_mgr controller k call = ok s') :
    Flowing net s' ∧ (s.FromPacket k → s'.cfgmgr = s.cfgmgr) := by
  obtain ⟨w, hw, hgoes⟩ := bind_eq_ok_iff.mp hback
  have hsame (hfrom : s.FromPacket k) : w = s.cfgmgr := by
    obtain ⟨data, hpublished, -, interface, -, hcopy⟩ := h.copies hm hfrom
    rw [hcopy] at hcall
    cases hcall
    exact cfgmgr_drops_copy hpublished hw
  have hanswers (calls : List mbus_call) (hcalls : w.calls = s.cfgmgr.calls ++ calls)
      (hemits : ∀ call ∈ calls, Emits call) : Answers net s .cfg_mgr (some k) calls [] := by
    constructor
    · exact fun call hin => posts_of_emits (hemits call hin)
    · exact fun j hj => Option.some.inj hj ▸ htaken
    · intro j data hj hpacket
      obtain rfl := Option.some.inj hj
      obtain ⟨m', -, -, hm', hsender', -⟩ := hpacket
      obtain rfl := Option.some.inj (hm.symm.trans hm')
      exact absurd (hsender.symm.trans hsender') (by decide)
    · intro j hj hfrom
      obtain rfl := Option.some.inj hj
      rw [hsame hfrom] at hcalls
      exact ⟨List.self_eq_append_right.mp hcalls, rfl⟩
  obtain ⟨hflowing, hcfgmgr⟩ := h.cfgmgr_goes hanswers (step_emits hw) hgoes
  exact ⟨hflowing, fun hfrom => hcfgmgr.trans (hsame hfrom)⟩

/-- A message of the `cfg_mgr` is never a copy, so that the agent may do what is right for
a packet. -/
theorem Flowing.agent_answers (h : Flowing net s) (htaken : s.Taken k) {m : posted_msg}
    {calls : List mbus_call} {frames : List (Int × List UInt8)}
    (hm : s.posted[k]? = some m) (hsender : m.sender = .cfg_mgr)
    (hposts : ∀ call ∈ calls, client.mesh_agent.Posts call)
    (hpacket : ∀ data, s.Packet k data → calls.length ≤ 1 ∧ frames.length ≤ 1 ∧
      ∀ call ∈ calls, ({ sender := .mesh_agent, call, cause := some k } : posted_msg).Copies net
        data) :
    Answers net s .mesh_agent (some k) calls frames := by
  refine ⟨hposts, fun j hj => Option.some.inj hj ▸ htaken, fun j data hj => ?_,
    fun j hj hfrom => ?_⟩
  · obtain rfl := Option.some.inj hj
    exact hpacket data
  · obtain rfl := Option.some.inj hj
    obtain ⟨data, -, hcopier, -⟩ := h.copies hm hfrom
    exact absurd (hsender.symm.trans hcopier) (by decide)

theorem Flowing.agent_called_back (h : Flowing net s) (htaken : s.Taken k) {m : posted_msg}
    {call : msg_cb_call} (hm : s.posted[k]? = some m) (hsender : m.sender = .cfg_mgr)
    (hcall : client.cfg_mgr.called m.call = some call)
    (hback : s.call_back net .mesh_agent controller k call = ok s') :
    Flowing net s' ∧ s'.cfgmgr = s.cfgmgr := by
  have hposts := h.posts m (List.mem_of_getElem? hm)
  rw [hsender] at hposts
  obtain ⟨⟨env, replies⟩, henv, hgoes⟩ := bind_eq_ok_iff.mp hback
  -- Two packets with one number are the same.
  have hdata {data : List UInt8} (hpacket : s.Packet k data) :
      ∃ my_name groupname, m.call = .sendmsg_in_group my_name groupname data := by
    obtain ⟨m', my_name, groupname, hm', -, hcall', -⟩ := hpacket
    obtain rfl := Option.some.inj (hm.symm.trans hm')
    exact ⟨my_name, groupname, hcall'⟩
  cases hkind : m.call with
  | register_object username | create_group groupname | join_group groupname =>
    rw [hkind] at hcall
    cases hcall
  | sendmsg_in_group my_name groupname data =>
    rw [hkind] at hcall hposts
    cases hcall
    have hpublished : Published data := hposts.2.2.2.2 rfl
    obtain ⟨env', hhandle, hok⟩ := bind_eq_ok_iff.mp henv
    cases hok
    rcases mesh_handle_group_published hpublished hhandle with rfl | ⟨interface, hin, rfl⟩
    · refine h.agent_replies (h.agent_answers htaken hm hsender (List.forall_mem_nil _) fun _ _ => ?_) hgoes
      exact ⟨Nat.zero_le 1, Nat.zero_le 1, List.forall_mem_nil _⟩
    · refine h.agent_sends (h.agent_answers htaken hm hsender ?_ fun data' hpacket => ?_) hgoes
      · obtain ⟨type, -, id, hframed⟩ := hpublished
        have hshort := packet_length_of_framed hframed
        exact List.forall_mem_singleton.mpr (filter_call_posts _ _ _ (by omega))
      · obtain ⟨_, _, hsame⟩ := hdata hpacket
        cases hkind.symm.trans hsame
        refine ⟨le_rfl, socket_frames_length interface _, List.forall_mem_singleton.mpr ?_⟩
        exact ⟨rfl, interface, hin, rfl⟩
  | sendmsg_private my_name peer_name data =>
    rw [hkind] at hcall
    cases hcall
    obtain ⟨replies', hhandle, hok⟩ := bind_eq_ok_iff.mp henv
    cases hok
    refine h.agent_replies (h.agent_answers htaken hm hsender ?_ ?_) hgoes
    · exact mesh_handle_private_replies hhandle
    · intro data' hpacket
      obtain ⟨_, _, hgroup⟩ := hdata hpacket
      exact absurd (hkind.symm.trans hgroup) nofun

/-- When the `cfg_mgr` reads a message that was posted because of a packet, it stays
as it is. -/
def CopyIgnored (s : mesh_system) (e : mesh_event) (s' : mesh_system) : Prop :=
  ∀ controller rest k frame more, e = .client_reads .cfg_mgr controller rest →
    s.to_client .cfg_mgr = (k, frame) :: more → s.FromPacket k → s'.cfgmgr = s.cfgmgr

theorem CopyIgnored.of_same {e : mesh_event} (h : s'.cfgmgr = s.cfgmgr) : CopyIgnored s e s' :=
  fun _ _ _ _ _ _ _ _ => h

theorem Flowing.client_reads (h : Flowing net s)
    (hexec : s.exec net (.client_reads reader controller rest) = ok s') :
    Flowing net s' ∧ CopyIgnored s (.client_reads reader controller rest) s' := by
  rw [mesh_system.exec] at hexec
  cases hqueue : s.to_client reader with
  | nil =>
    rw [hqueue] at hexec
    cases hexec
    exact ⟨h, .of_same rfl⟩
  | cons first more =>
    obtain ⟨k, frame⟩ := first
    rw [hqueue] at hexec
    obtain ⟨hflowing, htaken, m, hm, hsender, rfl⟩ := h.read_by hqueue
    have hposts := h.posts m (List.mem_of_getElem? hm)
    rw [hsender] at hposts
    dsimp only at hexec
    rw [hposts.called_back rest, ok_bind] at hexec
    cases hcall : reader.other.called m.call with
    | none =>
      rw [hcall] at hexec
      cases hexec
      exact ⟨hflowing, .of_same rfl⟩
    | some call =>
      rw [hcall] at hexec
      cases reader with
      | cfg_mgr =>
        obtain ⟨hnext, hignored⟩ := hflowing.cfgmgr_called_back htaken hm hsender hcall hexec
        refine ⟨hnext, ?_⟩
        rintro controller' rest' k' frame' more' - hqueue' hfrom
        cases hqueue.symm.trans hqueue'
        exact hignored hfrom
      | mesh_agent =>
        obtain ⟨hnext, hsame⟩ := hflowing.agent_called_back htaken hm hsender hcall hexec
        exact ⟨hnext, .of_same hsame⟩

theorem Flowing.step {e : mesh_event} (h : Flowing net s) (hstep : MeshStep net s e s') :
    Flowing net s' ∧ CopyIgnored s e s' := by
  obtain ⟨hallowed, hexec⟩ := hstep
  cases e with
  | cfgmgr_timer cur =>
    obtain ⟨w, hw, hgoes⟩ := bind_eq_ok_iff.mp hexec
    obtain ⟨hnext, -⟩ := h.cfgmgr_goes (fun calls _ hemits =>
      .of_none fun call hin => posts_of_emits (hemits call hin)) (step_emits hw) hgoes
    exact ⟨hnext, nofun⟩
  | agent_receives interface data =>
    have hposts : ∀ call ∈ [filter_call interface.toNetworkInterface PKT_NETWORK PKT_LOCAL data],
        client.mesh_agent.Posts call :=
      List.forall_mem_singleton.mpr (filter_call_posts _ _ _ hallowed)
    obtain ⟨hnext, hsame⟩ := h.agent_receives (.of_none hposts) hexec
    exact ⟨hnext, .of_same hsame⟩
  | agent_sends interface buf =>
    have hposts : ∀ call ∈ [filter_call interface.toNetworkInterface PKT_LOCAL PKT_NETWORK buf],
        client.mesh_agent.Posts call :=
      List.forall_mem_singleton.mpr (filter_call_posts _ _ _ hallowed)
    obtain ⟨hnext, hsame⟩ := h.agent_sends (.of_none hposts) hexec
    exact ⟨hnext, .of_same hsame⟩
  | daemon_reads sender addr rest =>
    obtain ⟨hnext, hsame⟩ := h.daemon_reads hexec
    exact ⟨hnext, .of_same hsame⟩
  | client_reads reader controller rest => exact h.client_reads hexec

end Events

/-- The two clients are logged in to a daemon that has come so far, and nothing is on the
connections. -/
structure Start (net : setup) (s : mesh_system) : Prop where
  daemon : ∃ tr, Run mbusd.Step mbusd_main tr ∧ s.daemon = endState mbusd_main tr
  logged_in : LoggedIn net.fd s.daemon
  idle : ∀ c, s.path c = []
  posted : s.posted = []
  sent : s.sent = []

instance (s : mesh_system) (e : mesh_event) : Decidable (e.Allowed s) := by
  cases e <;> unfold mesh_event.Allowed <;> infer_instance

section Runs

variable {net : setup} {s : mesh_system} {tr : List (mesh_event × mesh_system)}

theorem Start.flowing (h : Start net s) : Flowing net s := by
  obtain ⟨⟨tr, hrun, hdaemon⟩, hlogged, hidle, hposted, hsent⟩ := h
  have heffect (k : Nat) : s.Effectless k := by
    constructor
    · rw [mesh_system.caused, hposted, List.filter_nil]
    · rw [mesh_system.transmitted, hsent, List.filter_nil]
  constructor
  · rw [hdaemon]
    exact Run.endState_invariant (fun h hstep => h.step hstep) mbusd_main_serving hrun
  · exact hlogged
  · rw [hposted]
    exact List.forall_mem_nil _
  · exact fun k _ => heffect k
  · intro c
    rw [hidle c]
    exact List.nodup_nil
  · intro c k frame hmem
    rw [hidle c] at hmem
    exact absurd hmem List.not_mem_nil
  · rintro k data ⟨m, _, _, hm, -⟩
    rw [hposted] at hm
    cases hm

/-- In every state of a run, of a packet that the `cfg_mgr` published for the network came
at most one transmission and one message of the agent, its copy; nothing came of the
copy, and the `cfg_mgr` ignores it. -/
theorem no_packet_circulates (hstart : Start net s) (hrun : Run (MeshStep net) s tr) :
    (∀ x ∈ tr, ∀ k data, x.2.Packet k data → x.2.Stopped net k data) ∧
      AllSteps CopyIgnored s tr := by
  have hflowing : ∀ x ∈ tr, Flowing net x.2 :=
    Run.invariant (fun h hstep => (h.step hstep).1) hstart.flowing hrun
  constructor
  · exact fun x hx k data hpacket => (hflowing x hx).stopped k data hpacket
  · exact Run.allSteps_of_states (fun h hstep => (h.step hstep).2) hstart.flowing hrun hflowing

end Runs

/-- The `cfg_mgr` and the agent log in and join the group. -/
def both_in_group : List bus_event :=
  [.accept 5, .message 5 (login_message g_cfgmgr_user_name) 1, .accept 6,
    .message 6 (login_message mesh_agent.g_mesh_user_name) 2,
    .message 5 (create_message mesh_agent.g_mesh_group_name) 3,
    .message 5 (join_message mesh_agent.g_mesh_group_name) 3,
    .message 6 (join_message mesh_agent.g_mesh_group_name) 3]

def eth0 : mesh_interface :=
  { ens32 with
    ifname := cstr ['e', 't', 'h', '0']
    named := rfl }

def one_interface : setup where
  fd
    | .cfg_mgr => 5
    | .mesh_agent => 6
  interfaces := [eth0]
  sent _ frame := frame.length
  uninit _ := 0
  refused _ _ := false

/-- The `cfg_mgr` has registered and knows the controller. -/
def controller_known : mesh_system where
  daemon := endState mbusd_main (bus_trace both_in_group)
  cfgmgr := endState started (runOf [.expire 10000000, controller_info_message])
  outbox := { published := [], transmitted := [] }
  to_daemon _ := []
  to_client _ := []
  posted := []
  sent := []

/-- The search of the `cfg_mgr` goes to the agent, and the copy comes back. -/
def search_and_copy : List mesh_event :=
  [.cfgmgr_timer 10000000, .daemon_reads .cfg_mgr 4 [], .client_reads .mesh_agent none [],
    .daemon_reads .mesh_agent 4 [], .client_reads .cfg_mgr none []]

def search_run : List (mesh_event × mesh_system) :=
  trace (fun s e => (s.exec one_interface e).getD s) controller_known search_and_copy

/-- The daemon's record of a client. -/
def record_of (addr : mbusd.Ptr) (c : client) : client_t where
  addr := addr
  io := some (one_interface.fd c)
  name := c.user ++ 0 :: List.replicate (127 - c.user.length) 0

theorem record_of_name (addr : mbusd.Ptr) (c : client) :
    cstring (record_of addr c).name = some c.user :=
  cstring_append c.user_free _

theorem controller_known_start : Start one_interface controller_known := by
  have hrun : Run mbusd.Step mbusd_main (bus_trace both_in_group) :=
    bus_trace_run (by decide +kernel)
  constructor
  · exact ⟨bus_trace both_in_group, hrun, by rw [controller_known]⟩
  · constructor
    · decide
    · have hclients : controller_known.daemon.g_clients =
          [record_of 1 .cfg_mgr, record_of 2 .mesh_agent] := by decide +kernel
      rw [hclients]
      intro cli hcli
      rcases List.mem_pair.mp hcli with rfl | rfl
      · exact ⟨.cfg_mgr, record_of_name 1 .cfg_mgr, rfl⟩
      · exact ⟨.mesh_agent, record_of_name 2 .mesh_agent, rfl⟩
    · rintro (_ | _)
      · exact ⟨by decide +kernel, record_of 1 .cfg_mgr, by decide +kernel, record_of_name _ _⟩
      · exact ⟨by decide +kernel, record_of 2 .mesh_agent, by decide +kernel, record_of_name _ _⟩
    · refine ⟨0, {
        group_name := gmesh ++ List.replicate 123 0
        users := [client.cfg_mgr.user ++ [0], client.mesh_agent.user ++ [0]] }, ?_, by decide⟩
      decide +kernel
  · exact fun _ => rfl
  · rfl
  · rfl

theorem search_does_not_circulate :
    Run (MeshStep one_interface) controller_known search_run ∧
      ((endState controller_known search_run).transmitted 0).length = 1 ∧
      ((endState controller_known search_run).caused 0).length = 1 ∧
      (∀ x ∈ search_run, ∀ k data, x.2.Packet k data → x.2.Stopped one_interface k data) ∧
      AllSteps CopyIgnored controller_known search_run := by
  have hrun : Run (MeshStep one_interface) controller_known search_run :=
    run_trace_guarded (by decide +kernel)
  exact ⟨hrun, by decide +kernel, by decide +kernel,
    no_packet_circulates controller_known_start hrun⟩

end easymesh.system
