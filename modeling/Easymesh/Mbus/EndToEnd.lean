import Easymesh.Mbus.Sender
import Easymesh.Reactor.Reassembly

open Lib Lib.Result Lib.Framing easymesh.tlv_parser easymesh.eloop_event easymesh.mbusd

namespace easymesh.bus_msg

/-- The frames have arrived on a connection of the bus, in chunks of any sizes,
and `on_read` has been called with `log`. -/
def Carried (fs : List (List UInt8)) (log : List io_buf_s) : Prop :=
  ∃ buf tr, (buf.length : Int) = IO_BUF_SIZE ∧ Run ReadStep (registered buf msg_pack) tr ∧
    (∀ x ∈ tr, x.1 ≠ .closed) ∧ tr.flatMap (fun x => received x.1) = fs.flatten ∧
    (endState (registered buf msg_pack) tr).2 = log

/-- Among any other frames on a connection, `on_read` is called once for this one,
and what it finds at `io_data` has the property. -/
def ReadOnce (frame : List UInt8) (P : List UInt8 → Prop) : Prop :=
  ∀ before after log, (∀ f ∈ before ++ frame :: after, IsFrame msg_pack f) →
    Carried (before ++ frame :: after) log →
    ∃ first snap last, log = first ++ snap :: last ∧ first.length = before.length ∧
      last.length = after.length ∧ P (snap.buf.drop (io_data snap).toNat)

section Hop

variable {fs : List (List UInt8)} {log : List io_buf_s} {frame : List UInt8}

/-- On a connection that has received whole frames, `on_read` was called for each
of them. -/
theorem Carried.points (h : Carried fs log) (hframes : ∀ f ∈ fs, IsFrame msg_pack f)
    (hne : fs ≠ []) : List.Forall₂ PointsAt log fs := by
  obtain ⟨buf, tr, hbuf, hrun, hopen, hstream, rfl⟩ := h
  have hroom : (registered buf msg_pack).1.tail < IO_BUF_SIZE :=
    (by decide : (0 : Int) < IO_BUF_SIZE)
  have hstart : Reassembled msg_pack fs 0 (registered buf msg_pack) := by
    refine ⟨registered_live hbuf msg_pack, hroom, ?_, ?_⟩
    · cases fs with
      | nil => exact absurd rfl hne
      | cons f fs =>
        have hpos := ((hframes f (by simp)).frameSize msg_pack_valid).2
        rw [arrived, if_neg (by omega)]
        exact .nil
    · rw [List.take_zero]
      exact registered_reads msg_pack_valid buf
  have hend := run_reassembled msg_pack_valid hframes hstart hrun hopen
    (by rw [hstream, List.take_zero]; exact List.prefix_rfl) (Nat.zero_le _)
  rw [Nat.zero_add, hstream] at hend
  have hdelivered := hend.delivered
  rwa [arrived_all] at hdelivered

theorem readOnce_of {P : List UInt8 → Prop} (h : ∀ rest, P (frame ++ rest)) : ReadOnce frame P := by
  intro before after log hframes hcarried
  have hpoints := hcarried.points hframes (by simp)
  have hfirst := List.forall₂_take_append log before (frame :: after) hpoints
  have hrest := List.forall₂_drop_append log before (frame :: after) hpoints
  obtain ⟨snap, last, hsnap, hlast, hlog⟩ := List.forall₂_cons_right_iff.mp hrest
  refine ⟨log.take before.length, snap, last, ?_, hfirst.length_eq, hlast.length_eq, ?_⟩
  · rw [← hlog, List.take_append_drop]
  · have hpos : 0 < frame.length := ((hframes frame (by simp)).frameSize msg_pack_valid).2
    obtain ⟨_, hle, hframe⟩ := readBytes_eq_ok hpos hsnap
    have hsplit := List.take_append_drop frame.length (snap.buf.drop (io_data snap).toNat)
    rw [← hframe] at hsplit
    rw [← hsplit]
    exact h _

end Hop

section Parse

variable {kind : msg_kind} {sender receiver payload : List UInt8} {command_id : UInt16}
  {items : List (tlv_type × List UInt8)}

theorem parsed_msg_node (type : tlv_type) (value : List UInt8) :
    parsed 2 (msg_node type value) = msg_node type value := by
  have htype := read_type_two type
  change { msg_node type value with type := read_type (type_bytes type 2) } = _
  rw [htype]
  rfl

theorem msg_node_consistent (type : tlv_type) (value : List UInt8) :
    Consistent 2 (msg_node type value) := by
  refine ⟨rfl, ?_, rfl⟩
  rw [cut_length, ofNat_toNat_mod]

/-- A message of some TLVs as it is on the wire. -/
def items_msg (command_id : UInt16) (items : List (tlv_type × List UInt8)) : List UInt8 :=
  msg_bytes command_id (total_length items) (items.flatMap tlv_bytes)

theorem items_msg_length (command_id : UInt16) (items : List (tlv_type × List UInt8)) :
    (items_msg command_id items).length = 16 + total_length items := by
  simp only [items_msg, msg_bytes, List.length_append, List.length_replicate, bytesI32, bytesU16,
    List.length_cons, List.length_nil, flatMap_tlv_bytes_length]

/-- The message is parsed to its TLVs, whatever follows it in memory. -/
theorem items_msg_root (hne : items ≠ []) (htotal : total_length items ≤ 65535)
    (hlast : ∀ item ∈ items.getLast?, item.2 ≠ []) (rest : List UInt8) :
    ∃ pstRoot, msg_root (items_msg command_id items ++ rest) = ok (some pstRoot) ∧
      pstRoot.child = items.map fun item => msg_node item.1 item.2 := by
  have hfits : ∀ item ∈ items, item.2.length < 65536 := by
    intro item hitem
    have hle := item_length_le hitem
    omega
  have hbytes : encodeAll (items.map fun item => msg_node item.1 item.2) =
      items.flatMap tlv_bytes := by
    rw [encodeAll_eq, List.map_map, ← List.flatMap_def]
    apply List.flatMap_congr
    intro item hitem
    rw [Function.comp_apply, encode_msg_node, cut_eq (hfits item hitem)]
  have hlength := flatMap_tlv_bytes_length items
  have hcons : ConsistentAll 2 (items.map fun item => msg_node item.1 item.2) := by
    apply consistentAll_iff.mpr
    intro pstItem hitem
    obtain ⟨item, _, rfl⟩ := List.mem_map.mp hitem
    exact msg_node_consistent item.1 item.2
  have hmin : 4 ≤ total_length items := by
    obtain ⟨item, hitem⟩ := List.exists_mem_of_ne_nil items hne
    have hle := item_length_le hitem
    omega
  obtain ⟨pstRoot, hparse, hchild⟩ := Kami_Tlv_ParseObject_level (.inr rfl) hcons
    (by rw [hbytes, hlength]; omega) (by rw [hbytes, hlength]; omega) rest
  have hflat : level (items.map fun item => msg_node item.1 item.2) =
      items.map fun item => msg_node item.1 item.2 := by
    clear hne htotal hlast hfits hbytes hlength hcons hmin hparse hchild
    induction items with
    | nil => rfl
    | cons item items ih => exact congrArg (msg_node item.1 item.2 :: ·) ih
  have hkept : kept (items.map fun item => msg_node item.1 item.2) =
      items.map fun item => msg_node item.1 item.2 := by
    apply kept_eq_self
    intro last hmem hzero
    rw [List.getLast?_map] at hmem
    obtain ⟨item, hitem, rfl⟩ := Option.map_eq_some_iff.mp hmem
    have hnat := congrArg UInt16.toNat hzero
    rw [msg_node_length, ofNat_toNat_mod,
      Nat.mod_eq_of_lt (hfits item (List.mem_of_getLast? hitem))] at hnat
    exact hlast item hitem (List.eq_nil_of_length_eq_zero hnat)
  refine ⟨pstRoot, ?_, ?_⟩
  · rw [msg_root, items_msg, msg_bytes_length (by omega), ok_bind, msg_bytes_data,
      wrap32_eq (by omega) (by omega), ← hlength, ← hbytes]
    exact hparse
  · rw [hchild, hflat, hkept, List.map_map]
    apply List.map_congr_left
    intro item _
    exact parsed_msg_node item.1 item.2

/-- A message as it is on the wire. -/
def wire_msg (kind : msg_kind) (sender receiver payload : List UInt8) : List UInt8 :=
  let items := msg_items kind sender receiver payload
  msg_bytes kind.command_id (total_length items) (items.flatMap tlv_bytes)

/-- The nodes of the three TLVs of a message. -/
def msg_nodes (kind : msg_kind) (sender receiver payload : List UInt8) : List KamiTlv_S :=
  (msg_items kind sender receiver payload).map fun item => msg_node item.1 item.2

/-- The message is parsed to its three TLVs. -/
theorem wire_msg_root (hpos : payload ≠ [])
    (htotal : total_length (msg_items kind sender receiver payload) ≤ 65535)
    (rest : List UInt8) :
    ∃ pstRoot, msg_root (wire_msg kind sender receiver payload ++ rest) = ok (some pstRoot) ∧
      pstRoot.child = msg_nodes kind sender receiver payload :=
  items_msg_root (List.cons_ne_nil _ _) htotal
    (by
      intro last hlast
      cases hlast
      exact hpos) rest

/-- Each of the three items is found under its type. -/
theorem get_msg_nodes {pstRoot : KamiTlv_S} (hkind : kind ∈ [group_kind, private_kind])
    (hchild : pstRoot.child = msg_nodes kind sender receiver payload) :
    Kami_Tlv_GetObjectItem pstRoot kind.type_sender 0 =
        some (msg_node kind.type_sender (sender ++ [0])) ∧
      Kami_Tlv_GetObjectItem pstRoot kind.type_name 0 =
        some (msg_node kind.type_name (receiver ++ [0])) ∧
      Kami_Tlv_GetObjectItem pstRoot kind.type_msg 0 = some (msg_node kind.type_msg payload) := by
  unfold Kami_Tlv_GetObjectItem
  rw [hchild]
  rcases List.mem_pair.mp hkind with rfl | rfl
  · exact ⟨rfl, rfl, rfl⟩
  · exact ⟨rfl, rfl, rfl⟩

/-- The bytes and lengths of a message that fits. -/
structure FitsWire (kind : msg_kind) (sender receiver payload : List UInt8) : Prop where
  known : kind ∈ [group_kind, private_kind]
  nonempty : payload ≠ []
  total : total_length (msg_items kind sender receiver payload) ≤ 65535

theorem FitsWire.uncut (h : FitsWire kind sender receiver payload) :
    cut (sender ++ [0]) = sender ++ [0] ∧ cut (receiver ++ [0]) = receiver ++ [0] ∧
      cut payload = payload := by
  have htotal := h.total
  simp only [total_length, msg_items, List.map_cons, List.map_nil, List.sum_cons,
    List.sum_nil] at htotal
  exact ⟨cut_eq (by omega), cut_eq (by omega), cut_eq (by omega)⟩

theorem FitsWire.item_values (h : FitsWire kind sender receiver payload) (rest : List UInt8) :
    msg_item (wire_msg kind sender receiver payload ++ rest) kind.type_sender =
        ok (some (sender ++ [0])) ∧
      msg_item (wire_msg kind sender receiver payload ++ rest) kind.type_name =
        ok (some (receiver ++ [0])) ∧
      msg_item (wire_msg kind sender receiver payload ++ rest) kind.type_msg = ok (some payload) := by
  obtain ⟨pstRoot, hroot, hchild⟩ := wire_msg_root h.nonempty h.total rest
  obtain ⟨hsender, hname, hmsg⟩ := get_msg_nodes h.known hchild
  obtain ⟨hcut₁, hcut₂, hcut₃⟩ := h.uncut
  have hfound := And.intro (msg_item_found hroot hsender)
    (And.intro (msg_item_found hroot hname) (msg_item_found hroot hmsg))
  rwa [msg_node_value, msg_node_value, msg_node_value, hcut₁, hcut₂, hcut₃] at hfound

theorem wire_msg_command_id (rest : List UInt8) :
    msg_get_command_id (wire_msg kind sender receiver payload ++ rest) = ok kind.command_id :=
  msg_bytes_command_id rest

theorem wire_msg_length (kind : msg_kind) (sender receiver payload : List UInt8) :
    (wire_msg kind sender receiver payload).length =
      16 + total_length (msg_items kind sender receiver payload) :=
  items_msg_length kind.command_id (msg_items kind sender receiver payload)

theorem FitsWire.msg_size_eq (h : FitsWire kind sender receiver payload) (rest : List UInt8) :
    msg_size (wire_msg kind sender receiver payload ++ rest) =
      ok ((wire_msg kind sender receiver payload).length : Int) := by
  rw [wire_msg_length, wire_msg, msg_bytes_size h.total, Nat.cast_add, Nat.cast_ofNat]

/-- The callback of a client that receives the message. -/
theorem FitsWire.called_back (h : FitsWire kind sender receiver payload) (rest : List UInt8) :
    mbus_handle_msg (wire_msg kind sender receiver payload ++ rest) =
      ok (some
        { cmd := kind.cmd
          fromName := some (sender ++ [0])
          toName := some (receiver ++ [0])
          data := payload
          len := payload.length }) := by
  obtain ⟨pstRoot, hroot, hchild⟩ := wire_msg_root h.nonempty h.total rest
  obtain ⟨hsender, hname, hmsg⟩ := get_msg_nodes h.known hchild
  obtain ⟨hcut₁, hcut₂, hcut₃⟩ := h.uncut
  have hlength : ((UInt16.ofNat payload.length).toNat : Int) = payload.length := by
    rw [← hcut₃, cut_length, ofNat_toNat_mod, Nat.mod_mod]
  rw [mbus_handle_msg_named h.known (wire_msg_command_id rest),
    mbus_handle_named_msg_found hroot hsender hname hmsg, msg_node_value, msg_node_value,
    msg_node_value, msg_node_length, hcut₁, hcut₂, hcut₃, hlength]

theorem FitsWire.isFrame (h : FitsWire kind sender receiver payload)
    (hmax : 16 + (total_length (msg_items kind sender receiver payload) : Int) ≤ IO_BUF_SIZE) :
    IsFrame msg_pack (wire_msg kind sender receiver payload) := by
  have htotal := h.total
  have hread := @msg_bytes_length (total_length (msg_items kind sender receiver payload))
    kind.command_id ((msg_items kind sender receiver payload).flatMap tlv_bytes) (by omega) []
  rw [List.append_nil] at hread
  have hlength := wire_msg_length kind sender receiver payload
  have hpack : msg_pack.nheader = 16 := rfl
  refine ⟨total_length (msg_items kind sender receiver payload), ?_, Int.natCast_nonneg _, ?_, ?_⟩
  · exact map_eq_ok_iff.mpr ⟨_, hread, wrap32_eq (by omega) (by omega)⟩
  · rw [hlength, hpack, Nat.cast_add, Nat.cast_ofNat]
  · rw [hlength, Nat.cast_add, Nat.cast_ofNat]
    exact hmax

end Parse

/-- What holds of the daemon throughout: names are strings that fit, a group lists
nobody twice, and each client has a connection and an address of its own. -/
structure Serving (b : daemon) : Prop where
  stored : Stored b
  once : ∀ group ∈ b.g_groups, (group.users.map cstring).Nodup
  io : ∀ cli ∈ b.g_clients, cli.io ≠ none
  addrs : (b.g_clients.map fun cli => cli.addr).Nodup

/-- The peer is one that the daemon forwards a message from `cli` to `name` to. -/
def ForwardsTo (b : daemon) (cli : client_t) (kind : msg_kind) (name : List UInt8)
    (peer : client_t) : Prop :=
  (kind.command_id = CID_GROUP_MSG ∧ ∃ i group, search_group b.g_groups name = ok (some (i, group)) ∧
    ∃ user ∈ group.users, strcmp_eq user cli.name = ok false ∧
      user_get_by_name b.g_clients user = ok (some peer)) ∨
  (kind.command_id = CID_PRIVATE_MSG ∧ user_get_by_name b.g_clients name = ok (some peer))

/-- The call writes these bytes to the peer's connection. -/
def WritesTo (data : List UInt8) (len : Int) (peer : client_t) (call : io_write_call) : Prop :=
  peer.io = some call.io ∧ call.data = data ∧ call.len = len

section Serving

variable {b b' : daemon} {e : bus_event}

theorem Serving.once_effect (h : Serving b) (heffect : Effect b e b') :
    ∀ group ∈ b'.g_groups, (group.users.map cstring).Nodup := by
  have hkept {username : List UInt8} {group group' : group_t} (hleft : Left username group group')
      (hgroup : group ∈ b.g_groups) : (group'.users.map cstring).Nodup :=
    (hleft.users.map cstring).nodup (h.once group hgroup)
  cases heffect with
  | accepted _ | answered _ _ _ | logged_in _ _ _ _ _ _ | disconnected _ | reset _ => exact h.once
  | created _ _ _ _ =>
    exact List.forall_mem_append.mpr ⟨h.once, List.forall_mem_singleton.mpr List.nodup_nil⟩
  | joined _ _ _ hget _ hdata hnew =>
    apply forall_mem_set h.once
    rw [List.map_append, List.map_singleton, hdata, ← List.concat_eq_append, List.nodup_concat]
    exact ⟨hnew, h.once _ (List.mem_of_getElem? hget)⟩
  | left _ _ _ hget hleft =>
    exact forall_mem_set h.once (hkept hleft (List.mem_of_getElem? hget))
  | closed _ _ _ hleft _ =>
    intro group hgroup
    obtain ⟨old, hold, hone⟩ := left_mem hleft hgroup
    exact hkept hone hold

theorem Serving.step (h : Serving b) (hstep : Step b e b') : Serving b' := by
  have heffect := hstep.effect
  refine ⟨h.stored.effect heffect, h.once_effect heffect, heffect.io_kept h.io, ?_⟩
  cases heffect with
  | accepted _ | answered _ _ _ | created _ _ _ _ | joined _ _ _ _ _ _ _ | left _ _ _ _ _
  | disconnected _ | reset _ => exact h.addrs
  | logged_in _ _ _ hfresh _ _ =>
    change (List.map (fun cli : client_t => cli.addr) (b.g_clients ++ [_])).Nodup
    rw [List.map_append, List.map_singleton, ← List.concat_eq_append, List.nodup_concat]
    refine ⟨fun hmem => ?_, h.addrs⟩
    obtain ⟨other, hother, haddr⟩ := List.mem_map.mp hmem
    exact hfresh other hother haddr
  | closed _ _ _ _ _ => exact (List.filter_sublist.map _).nodup h.addrs

theorem mbusd_main_serving : Serving mbusd_main :=
  ⟨mbusd_main_stored, nofun, nofun, List.nodup_nil⟩

variable {cli : client_t} {fromName data name body : List UInt8} {len : Int}
  {users : List (List UInt8)} {calls : List io_write_call} {peers : List client_t}

/-- The peers that a delivery serves are those found under the members' names, each once. -/
theorem Serving.delivered_peers (h : Serving b) (honce : (users.map cstring).Nodup)
    (hdelivered : Delivered b fromName data len users calls) :
    ∃ peers, peers.Nodup ∧
      (∀ peer, peer ∈ peers ↔ ∃ user ∈ users, strcmp_eq user fromName = ok false ∧
        user_get_by_name b.g_clients user = ok (some peer)) ∧
      List.Forall₂ (WritesTo data len) peers calls := by
  induction hdelivered with
  | nil => exact ⟨[], List.nodup_nil, by simp, .nil⟩
  | @sender user users calls hsame _ ih =>
    obtain ⟨peers, hnodup, hpeers, hwrites⟩ := ih (List.nodup_cons.mp honce).2
    refine ⟨peers, hnodup, fun peer => ?_, hwrites⟩
    rw [hpeers, List.exists_mem_cons_iff]
    refine ⟨.inr, fun h => h.resolve_left ?_⟩
    rintro ⟨hother, -⟩
    rw [hsame] at hother
    cases hother
  | @unknown user users calls hsame hfound _ ih =>
    obtain ⟨peers, hnodup, hpeers, hwrites⟩ := ih (List.nodup_cons.mp honce).2
    refine ⟨peers, hnodup, fun peer => ?_, hwrites⟩
    rw [hpeers, List.exists_mem_cons_iff]
    refine ⟨.inr, fun h => h.resolve_left ?_⟩
    rintro ⟨-, hpeer⟩
    rw [hfound] at hpeer
    cases hpeer
  | no_io _ hfound hio _ _ => exact absurd hio (h.io _ (user_get_by_name_some hfound).1)
  | @sent user users calls cli io hsame hfound hio _ ih =>
    obtain ⟨hnew, hrest⟩ := List.nodup_cons.mp honce
    obtain ⟨peers, hnodup, hpeers, hwrites⟩ := ih hrest
    refine ⟨cli :: peers, ?_, fun peer => ?_, .cons ⟨hio, rfl, rfl⟩ hwrites⟩
    · refine List.nodup_cons.mpr ⟨fun hmem => ?_, hnodup⟩
      obtain ⟨other, hother, -, hagain⟩ := (hpeers cli).mp hmem
      obtain ⟨-, name, hname, huser⟩ := user_get_by_name_some hfound
      obtain ⟨-, name', hname', huser'⟩ := user_get_by_name_some hagain
      rw [hname] at hname'
      cases hname'
      exact hnew (List.mem_map.mpr ⟨other, hother, huser'.trans huser.symm⟩)
    · rw [List.mem_cons, hpeers, List.exists_mem_cons_iff, hfound]
      refine or_congr_left ⟨?_, ?_⟩
      · rintro rfl
        exact ⟨hsame, rfl⟩
      · rintro ⟨-, hpeer⟩
        cases hpeer
        rfl

/-- Linked peers have connections of their own. -/
theorem Serving.connections_nodup (h : Serving b) (hlinked : Linked b) (hnodup : peers.Nodup)
    (hclients : ∀ peer ∈ peers, peer ∈ b.g_clients)
    (hwrites : List.Forall₂ (WritesTo data len) peers calls) :
    (calls.map fun call => call.io).Nodup := by
  induction hwrites with
  | nil => exact List.nodup_nil
  | @cons peer call peers calls hfirst hrest ih =>
    obtain ⟨hnew, hnodup⟩ := List.nodup_cons.mp hnodup
    obtain ⟨hpeer, hclients⟩ := List.forall_mem_cons.mp hclients
    rw [List.map_cons, List.nodup_cons]
    refine ⟨fun hmem => ?_, ih hnodup hclients⟩
    obtain ⟨call', hcall', hio⟩ := List.mem_map.mp hmem
    obtain ⟨peer', hpeer', hsame⟩ : ∃ peer' ∈ peers, WritesTo data len peer' call' := by
      obtain ⟨i, hi, hget⟩ := List.mem_iff_getElem.mp hcall'
      have hi' : i < peers.length := hrest.length_eq ▸ hi
      have hpair := hrest.get hi' hi
      rw [List.get_eq_getElem, List.get_eq_getElem, hget] at hpair
      exact ⟨peers[i], List.getElem_mem hi', hpair⟩
    obtain ⟨fd, hfd, -, harg⟩ := hlinked.io peer hpeer
    obtain ⟨fd', hfd', -, harg'⟩ := hlinked.io peer' (hclients peer' hpeer')
    rw [hfirst.1] at hfd
    rw [hsame.1, hio] at hfd'
    obtain rfl := Option.some.inj (hfd.symm.trans hfd')
    have heq := List.inj_on_of_nodup_map h.addrs hpeer (hclients peer' hpeer')
      (harg.symm.trans harg')
    exact hnew (heq ▸ hpeer')

theorem Serving.search_group_known (h : Serving b) (hname : cstring name = some body)
    (hknown : some body ∈ b.group_names) :
    ∃ i group, search_group b.g_groups name = ok (some (i, group)) := by
  have hall : ∀ group ∈ b.g_groups, (strcmp_eq name group.group_name).Returns := by
    intro group hgroup
    obtain ⟨own, hown, -⟩ := h.stored.groups group hgroup
    exact ⟨_, strcmp_eq_of_cstring hname hown⟩
  obtain ⟨found, hfound⟩ := lookup_returns hall
  cases found with
  | none =>
    obtain ⟨group, hgroup, heq⟩ := List.mem_map.mp hknown
    exact absurd heq (search_group_none hfound hname group hgroup)
  | some found => exact ⟨found.1, found.2, hfound⟩

theorem Serving.user_known (h : Serving b) (hname : cstring name = some body)
    (hknown : some body ∈ b.user_names) :
    ∃ peer, user_get_by_name b.g_clients name = ok (some peer) := by
  obtain ⟨found, hfound⟩ :=
    user_get_by_name_returns h.stored.client_isSome (Option.isSome_iff_exists.mpr ⟨body, hname⟩)
  cases found with
  | none =>
    obtain ⟨cli, hcli, heq⟩ := List.mem_map.mp hknown
    exact absurd heq (user_get_by_name_none hfound hname cli hcli)
  | some peer => exact ⟨peer, hfound⟩

end Serving

/-- The call writes the frame to the peer's connection, where it is read once and
`msg_cb` is called with these arguments. -/
def CalledBack (frame : List UInt8) (cb : msg_cb_call) (peer : client_t) (call : io_write_call) :
    Prop :=
  peer.io = some call.io ∧ readBytes call.data 0 call.len.toNat = ok frame ∧
    ReadOnce frame fun msg => mbus_handle_msg msg = ok (some cb)

/-- The daemon forwards the message to these peers and to nobody else, to each
once, and each is called back. Unless a connection has two clients or a client a
connection that is gone, no two of the peers share one. -/
def ForwardsOnce (b : daemon) (fd : Nat) (cli : client_t) (kind : msg_kind)
    (name frame : List UInt8) (cb : msg_cb_call) (msg : List UInt8) : Prop :=
  ∀ addr, ∃ peers calls, handle_msg b msg fd addr = ok { b with writes := b.writes ++ calls } ∧
    peers.Nodup ∧ (∀ peer, peer ∈ peers ↔ ForwardsTo b cli kind name peer) ∧
    List.Forall₂ (CalledBack frame cb) peers calls ∧
    (Linked b → (calls.map fun call => call.io).Nodup)

/-- The call hands a frame to the client's connection, the daemon reads it once
and forwards it. -/
def ArrivesOnce (b : daemon) (fd : Nat) (cli : client_t) (kind : msg_kind) (name : List UInt8)
    (cb : msg_cb_call) (call : Result (Int × Option (List UInt8 × Int))) : Prop :=
  ∃ msg size frame, call = ok (0, some (msg, size)) ∧ readBytes msg 0 size.toNat = ok frame ∧
    IsFrame msg_pack frame ∧ ReadOnce frame (ForwardsOnce b fd cli kind name frame cb)

/-- The arguments of `msg_cb` for a message. -/
def sent_call (kind : msg_kind) (sender receiver payload : List UInt8) : msg_cb_call :=
  { cmd := kind.cmd
    fromName := some (sender ++ [0])
    toName := some (receiver ++ [0])
    data := payload
    len := payload.length }

section Daemon

variable {b : daemon} {fd : Nat} {cli : client_t} {kind : msg_kind}
  {sender receiver payload : List UInt8} {rest : List UInt8} {peers : List client_t}
  {calls : List io_write_call}

theorem handle_group_msg_found {msg sender name text : List UInt8} {first : UInt8} {i : Nat}
    {group : group_t} {len : Int} (harg : (b.ios fd).arg ≠ 0)
    (hcli : b.client (b.ios fd).arg = ok cli)
    (hsender : msg_item msg TYPE_GROUPMSG_SENDER_NAME = ok (some sender))
    (hname : msg_item msg TYPE_GROUPMSG_GROUP_NAME = ok (some name))
    (hmsg : msg_item msg TYPE_GROUPMSG_GROUP_MSG = ok (some text))
    (hfirst : readU8 name 0 = ok first) (hzero : first ≠ 0)
    (hsearch : search_group b.g_groups name = ok (some (i, group)))
    (hsize : msg_size msg = ok len) :
    handle_group_msg b msg fd =
      group.users.foldlM (fun b user => group_cb cli.name msg len user b) b := by
  rw [handle_group_msg, if_neg harg]
  simp only [hsender, hname, hmsg, ok_bind, hfirst, if_neg hzero, hsearch, hcli, hsize,
    forward_msg_in_group, foreach_group_member, search_group_again hsearch]

theorem handle_private_msg_found {msg sender name text : List UInt8} {peer : client_t} {io : Nat}
    {len : Int} (harg : (b.ios fd).arg ≠ 0)
    (hsender : msg_item msg TYPE_PRIVATEMSG_SENDER_NAME = ok (some sender))
    (hname : msg_item msg TYPE_PRIVATEMSG_RECEIVER_NAME = ok (some name))
    (hmsg : msg_item msg TYPE_PRIVATEMSG_PRIVATE_MSG = ok (some text))
    (hfound : user_get_by_name b.g_clients name = ok (some peer)) (hio : peer.io = some io)
    (hsize : msg_size msg = ok len) :
    handle_private_msg b msg fd =
      ok { b with writes := b.writes ++ [{ io, data := msg, len }] } := by
  rw [handle_private_msg, if_neg harg]
  simp only [hsender, hname, hmsg, ok_bind, hfound, hsize, send_data_to_user, hio, daemon.io_write]

theorem handle_msg_private {msg : List UInt8} {addr : Ptr}
    (hid : msg_get_command_id msg = ok CID_PRIVATE_MSG) :
    handle_msg b msg fd addr = handle_private_msg b msg fd := by
  rw [handle_msg, hid]
  rfl

/-- What is written of a message that fits is called back. -/
theorem FitsWire.each_called_back (h : FitsWire kind sender receiver payload)
    (hwrites : List.Forall₂ (WritesTo (wire_msg kind sender receiver payload ++ rest)
      (wire_msg kind sender receiver payload).length) peers calls) :
    List.Forall₂ (CalledBack (wire_msg kind sender receiver payload)
      (sent_call kind sender receiver payload)) peers calls := by
  apply hwrites.imp
  rintro peer call ⟨hio, hdata, hlen⟩
  refine ⟨hio, ?_, readOnce_of h.called_back⟩
  rw [hdata, hlen, Int.toNat_natCast]
  exact readBytes_front rfl

theorem FitsWire.group_forwards (h : FitsWire group_kind sender receiver payload) (hb : Serving b)
    (harg : (b.ios fd).arg ≠ 0) (hcli : b.client (b.ios fd).arg = ok cli) (hne : receiver ≠ [])
    (hfree : (0 : UInt8) ∉ receiver) (hknown : some receiver ∈ b.group_names)
    (rest : List UInt8) :
    ForwardsOnce b fd cli group_kind (receiver ++ [0]) (wire_msg group_kind sender receiver payload)
      (sent_call group_kind sender receiver payload)
      (wire_msg group_kind sender receiver payload ++ rest) := by
  intro addr
  obtain ⟨hsender, hname, hmsg⟩ := h.item_values rest
  have hsize := h.msg_size_eq rest
  obtain ⟨i, group, hsearch⟩ := hb.search_group_known (cstring_append hfree []) hknown
  have hgroup := List.mem_of_getElem? (search_group_some hsearch).1
  have hclient := (daemon.client_ok hcli).1
  obtain ⟨first, hfirst, hzero⟩ : ∃ first, readU8 (receiver ++ [0]) 0 = ok first ∧ first ≠ 0 := by
    cases receiver with
    | nil => exact absurd rfl hne
    | cons first others =>
      refine ⟨first, by simp [readU8, readBytes], ?_⟩
      rintro rfl
      exact hfree List.mem_cons_self
  have hto : ToGroup b (wire_msg group_kind sender receiver payload ++ rest) fd cli group :=
    ⟨harg, hcli, ⟨_, hsender⟩, ⟨_, hmsg⟩, _, first, i, hname, hfirst, hzero, hsearch⟩
  have hreturns : (handle_group_msg b (wire_msg group_kind sender receiver payload ++ rest)
      fd).Returns := by
    have husers : ∀ user ∈ group.users, (cstring user).isSome := by
      intro user huser
      obtain ⟨name, hname, -⟩ := hb.stored.users group hgroup user huser
      exact Option.isSome_iff_exists.mpr ⟨name, hname⟩
    rw [handle_group_msg_found harg hcli hsender hname hmsg hfirst hzero hsearch hsize]
    exact foldlM_group_cb_returns hb.stored.client_isSome
      (hb.stored.client_isSome cli hclient) husers
  obtain ⟨b', hb'⟩ := hreturns
  rw [handle_msg_group (wire_msg_command_id rest), hb']
  obtain ⟨cli', group', len, calls, hto', hlen, hdelivered, rfl⟩ | ⟨-, hnone⟩ :=
    handle_group_msg_cases hb'
  · obtain ⟨rfl, rfl⟩ := hto.unique hto'
    cases hsize.symm.trans hlen
    obtain ⟨peers, hnodup, hpeers, hwrites⟩ := hb.delivered_peers (hb.once _ hgroup) hdelivered
    refine ⟨peers, calls, rfl, hnodup, fun peer => ?_, h.each_called_back hwrites, fun hlinked => ?_⟩
    · rw [hpeers]
      constructor
      · exact fun huser => .inl ⟨rfl, i, group', hsearch, huser⟩
      · rintro (⟨-, i', group'', hsearch', huser⟩ | ⟨hid, -⟩)
        · cases hsearch.symm.trans hsearch'
          exact huser
        · cases hid
    · refine hb.connections_nodup hlinked hnodup (fun peer hpeer => ?_) hwrites
      obtain ⟨user, -, -, hfound⟩ := (hpeers peer).mp hpeer
      exact (user_get_by_name_some hfound).1
  · exact absurd hto (hnone cli group)

theorem FitsWire.private_forwards (h : FitsWire private_kind sender receiver payload)
    (hb : Serving b) (harg : (b.ios fd).arg ≠ 0) (hfree : (0 : UInt8) ∉ receiver)
    (hknown : some receiver ∈ b.user_names) (rest : List UInt8) :
    ForwardsOnce b fd cli private_kind (receiver ++ [0])
      (wire_msg private_kind sender receiver payload)
      (sent_call private_kind sender receiver payload)
      (wire_msg private_kind sender receiver payload ++ rest) := by
  intro addr
  obtain ⟨hsender, hname, hmsg⟩ := h.item_values rest
  have hsize := h.msg_size_eq rest
  obtain ⟨peer, hfound⟩ := hb.user_known (cstring_append hfree []) hknown
  obtain ⟨io, hio⟩ := Option.ne_none_iff_exists'.mp (hb.io peer (user_get_by_name_some hfound).1)
  refine ⟨[peer],
    [{ io
       data := wire_msg private_kind sender receiver payload ++ rest
       len := (wire_msg private_kind sender receiver payload).length }], ?_, List.nodup_singleton peer, fun other => ?_,
    h.each_called_back (.cons ⟨hio, rfl, rfl⟩ .nil), fun _ => List.nodup_singleton _⟩
  · rw [handle_msg_private (wire_msg_command_id rest)]
    exact handle_private_msg_found harg hsender hname hmsg hfound hio hsize
  · rw [List.mem_singleton]
    constructor
    · rintro rfl
      exact .inr ⟨rfl, hfound⟩
    · rintro (⟨hid, -⟩ | ⟨-, hfound'⟩)
      · cases hid
      · cases hfound.symm.trans hfound'
        rfl

end Daemon

section System

variable {tr : List (bus_event × daemon)} {my_name name data sender receiver payload : List UInt8}
  {len : Int} {fd : Nat} {cli : client_t}

/-- A message that is short enough is sent as it is. -/
theorem FitsWire.sent {kind : msg_kind} (h : FitsWire kind sender receiver payload)
    (uninit : Nat → UInt8) (hmy : cstring my_name = some sender)
    (hname : cstring name = some receiver)
    (hdata : readBytes data 0 payload.length = ok payload) :
    send_msg kind (msg_new uninit my_name name (some data) payload.length kind) =
      ok (0, some (wire_msg kind sender receiver payload,
        ((wire_msg kind sender receiver payload).length : Int))) := by
  obtain ⟨hmod, hsent⟩ := sent_msg_eq h.total
  rw [send_msg_spec uninit kind hmy hname hdata h.nonempty, hsent, hmod, wire_msg_length,
    Nat.cast_add, Nat.cast_ofNat]
  rfl

/-- A group or private message from a client that is logged in, in a frame that
the receive buffer holds, is handed on as it was sent: over both hops, however
they split the bytes, `msg_cb` is called once for each client that the daemon
forwards to, with the sender, the receiver and the data of the call. -/
theorem msg_end_to_end (hrun : Run Step mbusd_main tr) (uninit : Nat → UInt8)
    (hmy : cstring my_name = some sender) (hname : cstring name = some receiver) (hlen : 1 ≤ len)
    (hdata : readBytes data 0 len.toNat = ok payload)
    (hfits : 16 + (4 + (sender.length + 1)) + (4 + (receiver.length + 1)) + (4 + len) ≤ IO_BUF_SIZE)
    (harg : ((endState mbusd_main tr).ios fd).arg ≠ 0)
    (hcli : (endState mbusd_main tr).client ((endState mbusd_main tr).ios fd).arg = ok cli) :
    (receiver ≠ [] → some receiver ∈ (endState mbusd_main tr).group_names →
      ArrivesOnce (endState mbusd_main tr) fd cli group_kind (receiver ++ [0])
        (sent_call group_kind sender receiver payload)
        (mbus_sendmsg_in_group uninit my_name name (some data) len)) ∧
    (some receiver ∈ (endState mbusd_main tr).user_names →
      ArrivesOnce (endState mbusd_main tr) fd cli private_kind (receiver ++ [0])
        (sent_call private_kind sender receiver payload)
        (mbus_sendmsg_private uninit my_name name (some data) len)) := by
  have hb : Serving (endState mbusd_main tr) :=
    Run.endState_invariant (fun h hstep => h.step hstep) mbusd_main_serving hrun
  have hlength := readBytes_length hdata
  obtain rfl : len = payload.length := by omega
  have hpos : payload ≠ [] := by
    rintro rfl
    exact absurd hlen (by decide)
  rw [Int.toNat_natCast] at hdata
  have hfree := (cstring_eq_some_iff.mp hname).1
  have htotal (kind : msg_kind) :
      16 + (total_length (msg_items kind sender receiver payload) : Int) ≤ IO_BUF_SIZE := by
    simp only [total_length, msg_items, List.map_cons, List.map_nil, List.sum_cons, List.sum_nil,
      List.length_append, List.length_singleton]
    omega
  have hwire {kind : msg_kind} (hkind : kind ∈ [group_kind, private_kind]) :
      FitsWire kind sender receiver payload := by
    have hmax := htotal kind
    unfold IO_BUF_SIZE at hmax
    exact ⟨hkind, hpos, by omega⟩
  have hcopy (kind : msg_kind) : readBytes (wire_msg kind sender receiver payload) 0
      ((wire_msg kind sender receiver payload).length : Int).toNat =
        ok (wire_msg kind sender receiver payload) := by
    rw [Int.toNat_natCast]
    exact readBytes_front (List.append_nil _).symm
  constructor
  · intro hne hknown
    have hgroup : FitsWire group_kind sender receiver payload := hwire List.mem_cons_self
    refine ⟨_, _, _, ?_, hcopy group_kind, hgroup.isFrame (htotal group_kind), ?_⟩
    · rw [mbus_sendmsg_in_group, if_neg (by omega)]
      exact hgroup.sent uninit hmy hname hdata
    · exact readOnce_of (hgroup.group_forwards hb harg hcli hne hfree hknown)
  · intro hknown
    have hprivate : FitsWire private_kind sender receiver payload :=
      hwire (List.mem_cons_of_mem _ List.mem_cons_self)
    refine ⟨_, _, _, ?_, hcopy private_kind, hprivate.isFrame (htotal private_kind), ?_⟩
    · rw [mbus_sendmsg_private, if_neg (by omega)]
      exact hprivate.sent uninit hmy hname hdata
    · exact readOnce_of (hprivate.private_forwards hb harg hfree hknown)

/-- The user `a` writes to the group `g` and to its other member `b`. -/
theorem message_arrives :
    let b := endState mbusd_main (bus_trace (two_in_group (cstr ['g'])))
    let cli : client_t := { addr := 1, io := some 5, name := 97 :: List.replicate 127 0 }
    ArrivesOnce b 5 cli group_kind (cstr ['g']) (sent_call group_kind [97] [103] [104, 105])
        (mbus_sendmsg_in_group (fun _ => 0) (cstr ['a']) (cstr ['g']) (some [104, 105]) 2) ∧
      ArrivesOnce b 5 cli private_kind (cstr ['b']) (sent_call private_kind [97] [98] [104, 105])
        (mbus_sendmsg_private (fun _ => 0) (cstr ['a']) (cstr ['b']) (some [104, 105]) 2) := by
  have hrun : Run Step mbusd_main (bus_trace (two_in_group (cstr ['g']))) :=
    bus_trace_run (by decide +kernel)
  have hgroup := @msg_end_to_end _ (cstr ['a']) (cstr ['g']) [104, 105] [97] [103] [104, 105] 2 5
    { addr := 1, io := some 5, name := 97 :: List.replicate 127 0 } hrun (fun _ => 0) rfl rfl
    (by decide) rfl (by decide) (by decide +kernel) (by decide +kernel)
  have hprivate := @msg_end_to_end _ (cstr ['a']) (cstr ['b']) [104, 105] [97] [98] [104, 105] 2 5
    { addr := 1, io := some 5, name := 97 :: List.replicate 127 0 } hrun (fun _ => 0) rfl rfl
    (by decide) rfl (by decide) (by decide +kernel) (by decide +kernel)
  exact ⟨hgroup.1 (List.cons_ne_nil _ _) (by decide +kernel), hprivate.2 (by decide +kernel)⟩

end System

end easymesh.bus_msg
