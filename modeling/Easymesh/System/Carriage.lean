import Easymesh.Reactor.Connection
import Easymesh.System.Reliable

open Lib Lib.Result Lib.Framing easymesh.eloop_event easymesh.bus_msg easymesh.cfg_mgr

namespace easymesh.system

section Wires

variable {c : client} {call : mbus_call} {calls : List mbus_call} {log : List io_buf_s}

theorem items_msg_isFrame {command_id : UInt16} {items : List (easymesh.tlv_parser.tlv_type × List UInt8)}
    (hmax : 16 + total_length items ≤ 8192) : IsFrame msg_pack (items_msg command_id items) := by
  have hlength := items_msg_length command_id items
  have hread := @msg_bytes_length (total_length items) command_id (items.flatMap tlv_bytes)
    (by omega) []
  rw [List.append_nil] at hread
  have hpack : msg_pack.nheader = 16 := rfl
  refine ⟨total_length items, ?_, Int.natCast_nonneg _, ?_, ?_⟩
  · exact map_eq_ok_iff.mpr ⟨_, hread, wrap32_eq (by omega) (by omega)⟩
  · omega
  · have hsize : IO_BUF_SIZE = 8192 := rfl
    omega

theorem named_msg_isFrame {type command_id : UInt16} {name : List UInt8}
    (hname : name.length ≤ 128) : IsFrame msg_pack (named_msg type command_id name) := by
  have htotal := named_total type name
  rw [named_msg]
  exact items_msg_isFrame (by omega)

theorem wire_msg_isFrame {kind : msg_kind} {sender receiver data : List UInt8}
    (hsender : sender.length ≤ 128) (hreceiver : receiver.length ≤ 128)
    (hdata : data.length ≤ 4096) : IsFrame msg_pack (wire_msg kind sender receiver data) := by
  have htotal : 16 + total_length (msg_items kind sender receiver data) ≤ 8192 := by
    simp only [total_length, msg_items, List.map_cons, List.map_nil, List.sum_cons, List.sum_nil,
      List.length_append, List.length_singleton]
    omega
  exact items_msg_isFrame htotal

/-- All that a client hands to `io_write` is a frame of the bus. -/
theorem client.Posts.isFrame (h : c.Posts call) : IsFrame msg_pack (c.wire call) := by
  cases call with
  | register_object username => exact named_msg_isFrame c.user_length
  | create_group groupname | join_group groupname => exact named_msg_isFrame (by decide)
  | sendmsg_in_group my_name groupname data =>
    exact wire_msg_isFrame c.user_length (by decide) h.2.2.2.1
  | sendmsg_private my_name peer_name data =>
    exact wire_msg_isFrame c.user_length c.other.user_length h.2.2.2

/-- What `mbus_handle_msg` makes of the frame that `on_read` is called for. -/
def on_read_msg (snap : io_buf_s) : Result (Option msg_cb_call) :=
  mbus_handle_msg (snap.buf.drop (io_data snap).toNat)

theorem client.Posts.on_read (h : c.Posts call) {snap : io_buf_s}
    (hpoints : PointsAt snap (c.wire call)) : on_read_msg snap = ok (c.called call) := by
  have hpos := (h.isFrame.frameSize msg_pack_valid).2
  obtain ⟨-, -, hframe⟩ := readBytes_eq_ok hpos hpoints
  have hsplit := List.take_append_drop (c.wire call).length (snap.buf.drop (io_data snap).toNat)
  rw [← hframe] at hsplit
  rw [on_read_msg, ← hsplit]
  exact h.called_back _

theorem on_read_calls (hposts : ∀ call ∈ calls, c.Posts call)
    (hpoints : List.Forall₂ PointsAt log (calls.map c.wire)) :
    log.map on_read_msg = calls.map fun call => ok (c.called call) := by
  induction calls generalizing log with
  | nil =>
    cases hpoints
    rfl
  | cons call calls ih =>
    obtain ⟨hfirst, hrest⟩ := List.forall_mem_cons.mp hposts
    cases hpoints with
    | cons hsnap hsnaps => rw [List.map_cons, List.map_cons, hfirst.on_read hsnap, ih hrest hsnaps]

end Wires

/-- Along every run of a connection of the bus whose sockets do not block while nothing is
queued, when the frames that `io_write` took at one end are those of a sequence of calls,
`mbus_handle_msg` makes at the other end of the frames, one after the other, these calls, in
their order; and all of them once nothing is queued or on the way. -/
theorem calls_arrive {s : connection} {tr : List (io_event × connection)}
    (hopened : Opened msg_pack s) (hrun : Run (ConnectionStep msg_pack) s tr) :
    ∀ x ∈ tr, ∀ a c (calls : List mbus_call), x.2.frames a = calls.map (client.wire c) →
      (∀ call ∈ calls, c.Posts call) →
      (x.2.log a.other).map on_read_msg <+: calls.map (fun call => ok (c.called call)) ∧
        (x.2.flight a = [] → (x.2.io a).write_queue = [] →
          (x.2.log a.other).map on_read_msg = calls.map fun call => ok (c.called call)) := by
  intro x hx a c calls hframes hposts
  have hcarried := hopened.run_connected msg_pack_valid hrun x hx a
  constructor
  · have htaken := List.prefix_iff_eq_take.mp (arrived_start (x.2.frames a) (x.2.nread a))
    have hdelivered := hcarried.reassembled.delivered
    rw [htaken, hframes, ← List.map_take] at hdelivered
    rw [on_read_calls (fun call hcall => hposts call (List.mem_of_mem_take hcall)) hdelivered,
      List.map_take]
    exact List.take_prefix _ _
  · intro hflight hqueue
    have hdelivered := hcarried.all_delivered hflight hqueue
    rw [hframes] at hdelivered
    exact on_read_calls hposts hdelivered

/-- The `cfg_mgr` asks the agent for the controller. -/
def asks_controller : mbus_call :=
  .sendmsg_private cfg_mgr.g_cfgmgr_user_name cfg_mgr.g_mesh_user_name
    (bytesU16 MESH_MSGCMD_CONTROLLER_INFO_REQ)

/-- The daemon writes the private message to the agent, who reads it. -/
theorem request_arrives :
    ∃ tr, Run (ConnectionStep msg_pack) opened_pair tr ∧
      tr.map Prod.fst = [.write .server (client.cfg_mgr.wire asks_controller)
          (.accepted (client.cfg_mgr.wire asks_controller).length),
        .readable .client (.data (client.cfg_mgr.wire asks_controller))] ∧
      ∃ x ∈ tr, (x.2.log .client).map on_read_msg =
        [ok (some (sent_call private_kind client.cfg_mgr.user client.mesh_agent.user [0, 0]))] := by
  have hposts : ∀ call ∈ [asks_controller], client.cfg_mgr.Posts call :=
    List.forall_mem_singleton.mpr (posts_of_emits ⟨rfl, rfl, rfl⟩)
  obtain ⟨tr, hrun, hevents, x, hx, hframes, hflight, hqueue⟩ :=
    frame_received (hposts _ List.mem_cons_self).isFrame .server
  exact ⟨tr, hrun, hevents, x, hx,
    (calls_arrive opened_pair_opened hrun x hx .server .cfg_mgr [asks_controller] hframes hposts).2
      hflight hqueue⟩

end easymesh.system
