import Easymesh.Mbus.BusMsg
import Easymesh.Mbus.Delivery
import Easymesh.Tlv.Inside

open Lib Lib.Result easymesh.tlv_parser easymesh.mbusd

namespace easymesh.bus_msg

/-- The peer that a message on the connection `fd` is for, when it is one that
`_handle_private_msg` forwards. -/
structure ToUser (b : daemon) (msg : List UInt8) (fd : Nat) (peer_cli : client_t) : Prop where
  logged_in : (b.ios fd).arg ≠ 0
  sender : ∃ value, msg_item msg TYPE_PRIVATEMSG_SENDER_NAME = ok (some value)
  message : ∃ value, msg_item msg TYPE_PRIVATEMSG_PRIVATE_MSG = ok (some value)
  receiver : ∃ name, msg_item msg TYPE_PRIVATEMSG_RECEIVER_NAME = ok (some name) ∧
    user_get_by_name b.g_clients name = ok (some peer_cli)

/-- A message of the kind reaches somebody: a group has a member with a connection
beside the client that the message is from, or the peer has a connection. -/
def Reaches (b : daemon) (msg : List UInt8) (fd : Nat) (kind : msg_kind) : Prop :=
  (kind.command_id = CID_GROUP_MSG ∧ ∃ cli group, ToGroup b msg fd cli group ∧
    ∃ user ∈ group.users, strcmp_eq user cli.name = ok false ∧
      ∃ peer, user_get_by_name b.g_clients user = ok (some peer) ∧ peer.io ≠ none) ∨
  (kind.command_id = CID_PRIVATE_MSG ∧ ∃ peer, ToUser b msg fd peer ∧ peer.io ≠ none)

/-- The sender's name in the message is the login name of the connection `fd`. -/
def NamesSender (b : daemon) (msg : List UInt8) (fd : Nat) (kind : msg_kind)
    (name : List UInt8) : Prop :=
  ∃ cli value, b.client (b.ios fd).arg = ok cli ∧ cstring cli.name = some name ∧
    msg_item msg kind.type_sender = ok (some value) ∧ cstring value = some name

/-- Whoever receives the whole message that the call writes is called back with
this name as the sender's. -/
def SeenFrom (call : io_write_call) (name : List UInt8) : Prop :=
  16 ≤ call.len → ∀ rest cb, mbus_handle_msg (call.data.take call.len.toNat ++ rest) = ok (some cb) →
    ∃ value, cb.fromName = some value ∧ cstring value = some name

/-- A group or private message that the daemon forwards names its true sender, and
so does the callback of everybody who receives it. -/
def SenderTrue (b : daemon) (e : bus_event) (b' : daemon) : Prop :=
  match e with
  | .message fd msg _ => ∀ kind ∈ [group_kind, private_kind],
      msg_get_command_id msg = ok kind.command_id → b'.writes ≠ b.writes →
        ∃ name, NamesSender b msg fd kind name ∧
          ∀ call ∈ b'.writes.drop b.writes.length, SeenFrom call name
  | _ => True

/-- A group or private message that reaches somebody comes with the login name of
its connection in it. -/
def SaysOwnName (b : daemon) (e : bus_event) (_ : daemon) : Prop :=
  match e with
  | .message fd msg _ => ∀ kind ∈ [group_kind, private_kind],
      msg_get_command_id msg = ok kind.command_id → Reaches b msg fd kind →
        ∃ name, NamesSender b msg fd kind name
  | _ => True

variable {b b' : daemon} {msg : List UInt8} {fd : Nat} {addr : Ptr} {kind : msg_kind}

section Received

variable {type : UInt16} {value : List UInt8} {len : Int} {n : Nat}

theorem msg_item_root (h : msg_item msg type = ok (some value)) :
    ∃ pstRoot pstItem, msg_root msg = ok (some pstRoot) ∧
      Kami_Tlv_GetObjectItem pstRoot type 0 = some pstItem ∧ pstItem.value = value := by
  obtain ⟨root, hroot, hitem⟩ := map_eq_ok_iff.mp h
  cases root with
  | none => cases hitem
  | some pstRoot =>
    dsimp only [Option.bind_eq_bind, Option.bind_some] at hitem
    obtain ⟨pstItem, hget, hvalue⟩ := Option.bind_eq_some_iff.mp hitem
    exact ⟨pstRoot, pstItem, hroot, hget, Option.some.inj hvalue⟩

/-- A message is parsed alike wherever its bytes have been carried. -/
theorem msg_root_carried (rest : List UInt8) {pstRoot : KamiTlv_S}
    (hroot : msg_root msg = ok (some pstRoot)) (hitems : pstRoot.child ≠ [])
    (hsize : msg_size msg = ok len) (hlen : 16 ≤ len) :
    msg_root (msg.take len.toNat ++ rest) = ok (some pstRoot) := by
  obtain ⟨length, hlength, hparse⟩ := bind_eq_ok_iff.mp hroot
  obtain ⟨length', hlength', hwrap⟩ := map_eq_ok_iff.mp hsize
  cases hlength.symm.trans hlength'
  obtain ⟨bs, hbs, hnat⟩ := map_eq_ok_iff.mp hlength
  have hbound : length < 4294967296 := hnat ▸ leNat_lt (readBytes_length hbs)
  have hlength_eq : len = 16 + length ∧ (length : Int) ≤ 2147483631 := by
    unfold wrap32 at hwrap
    omega
  obtain ⟨rfl, hmax⟩ := hlength_eq
  rw [wrap32_eq (by omega) (by omega)] at hparse
  have hlong : 16 ≤ msg.length := by
    by_contra hshort
    have hnil : msg_get_data msg = [] := List.drop_of_length_le (by omega)
    rw [hnil] at hparse
    exact hitems (Kami_Tlv_ParseObject_nil hparse)
  have hcarried : readBytes (msg.take (16 + (length : Int)).toNat ++ rest) 0 4 = ok bs := by
    apply readBytes_append
    exact readBytes_take hbs (.inr (by omega))
  have hdata : msg_get_data (msg.take (16 + (length : Int)).toNat ++ rest) =
      (msg_get_data msg).take length ++ rest := by
    have htake : 16 ≤ (msg.take (16 + (length : Int)).toNat).length := by
      rw [List.length_take]
      omega
    have hleft : (16 + (length : Int)).toNat - 16 = length := by omega
    rw [msg_get_data, List.drop_append_of_le_length htake, List.drop_take, hleft, msg_get_data]
  have hinside := Kami_Tlv_ParseObject_take (.inr rfl) (by omega) hparse
  rw [msg_root, msg_length, readU32, hcarried, map_ok, ok_bind, hnat, hdata,
    wrap32_eq (by omega) (by omega)]
  rw [Int.toNat_natCast] at hinside
  exact Kami_Tlv_ParseObject_append rest hinside

theorem mbus_handle_msg_named (hkind : kind ∈ [group_kind, private_kind])
    (hid : msg_get_command_id msg = ok kind.command_id) :
    mbus_handle_msg msg = mbus_handle_named_msg kind msg := by
  rw [mbus_handle_msg, hid, ok_bind]
  rcases List.mem_pair.mp hkind with rfl | rfl
  · rfl
  · rfl

/-- The `from` of a callback is the value that the message holds. -/
theorem mbus_handle_msg_from (rest : List UInt8) {cb : msg_cb_call} {name : List UInt8}
    (hkind : kind ∈ [group_kind, private_kind])
    (hid : msg_get_command_id msg = ok kind.command_id)
    (hitem : msg_item msg kind.type_sender = ok (some value)) (hname : cstring value = some name)
    (hsize : msg_size msg = ok len) (hlen : 16 ≤ len)
    (hcall : mbus_handle_msg (msg.take len.toNat ++ rest) = ok (some cb)) :
    ∃ value, cb.fromName = some value ∧ cstring value = some name := by
  obtain ⟨pstRoot, pstItem, hroot, hget, rfl⟩ := msg_item_root hitem
  have hitems : pstRoot.child ≠ [] := by
    intro hnil
    rw [Kami_Tlv_GetObjectItem, hnil] at hget
    cases hget
  have hcarried := msg_root_carried rest hroot hitems hsize hlen
  have hcommand : msg_get_command_id (msg.take len.toNat ++ rest) = ok kind.command_id := by
    apply readU16_append
    exact readU16_take hid (by omega)
  rw [mbus_handle_msg_named hkind hcommand, mbus_handle_named_msg, hcarried, ok_bind] at hcall
  simp only [hget] at hcall
  split at hcall
  · next hsender _ _ =>
    cases hsender
    cases hcall
    exact ⟨_, rfl, hname⟩
  · cases hcall

end Received

section Group

/-- Something is delivered exactly when some member beside the sender has a connection. -/
theorem delivered_ne_nil_iff {fromName data : List UInt8} {len : Int} {users : List (List UInt8)}
    {calls : List io_write_call} (h : Delivered b fromName data len users calls) :
    calls ≠ [] ↔ ∃ user ∈ users, strcmp_eq user fromName = ok false ∧
      ∃ peer, user_get_by_name b.g_clients user = ok (some peer) ∧ peer.io ≠ none := by
  induction h with
  | nil => simp
  | @sender user users calls hsame _ ih =>
    rw [ih, List.exists_mem_cons_iff]
    refine ⟨.inr, fun h => h.resolve_left ?_⟩
    rintro ⟨hother, -⟩
    rw [hsame] at hother
    cases hother
  | @unknown user users calls hsame hfound _ ih =>
    rw [ih, List.exists_mem_cons_iff]
    refine ⟨.inr, fun h => h.resolve_left ?_⟩
    rintro ⟨-, peer, hpeer, -⟩
    rw [hfound] at hpeer
    cases hpeer
  | @no_io user users calls cli hsame hfound hio _ ih =>
    rw [ih, List.exists_mem_cons_iff]
    refine ⟨.inr, fun h => h.resolve_left ?_⟩
    rintro ⟨-, peer, hpeer, hne⟩
    rw [hfound] at hpeer
    cases hpeer
    exact hne hio
  | @sent user users calls cli io hsame hfound hio _ _ =>
    refine iff_of_true (List.cons_ne_nil _ _) ⟨user, List.mem_cons_self, hsame, cli, hfound, ?_⟩
    rw [hio]
    exact Option.some_ne_none io

/-- What a message has the daemon write is the message, and something is written
exactly when the message reaches somebody. -/
structure Written (b : daemon) (msg : List UInt8) (fd : Nat) (kind : msg_kind) (b' : daemon)
    (calls : List io_write_call) : Prop where
  writes : b'.writes = b.writes ++ calls
  carries : ∀ call ∈ calls, call.data = msg ∧ msg_size msg = ok call.len
  reaches : calls ≠ [] ↔ Reaches b msg fd kind

theorem Written.nothing (h : ¬ Reaches b msg fd kind) : Written b msg fd kind b [] :=
  ⟨(List.append_nil _).symm, nofun, iff_of_false (fun hne => hne rfl) h⟩

theorem handle_group_msg_written (h : handle_group_msg b msg fd = ok b') :
    ∃ calls, Written b msg fd group_kind b' calls := by
  obtain ⟨cli, group, len, calls, hto, hlen, hdelivered, rfl⟩ | ⟨rfl, hnone⟩ :=
    handle_group_msg_cases h
  · refine ⟨calls, rfl, fun call hcall => ?_, ?_⟩
    · obtain ⟨hdata, hsize, -⟩ := hdelivered.mem call hcall
      exact ⟨hdata, hsize ▸ hlen⟩
    · rw [delivered_ne_nil_iff hdelivered]
      constructor
      · rintro ⟨user, huser, hother⟩
        exact .inl ⟨rfl, cli, group, hto, user, huser, hother⟩
      · rintro (⟨-, cli', group', hto', user, huser, hother⟩ | ⟨hid, -⟩)
        · obtain ⟨rfl, rfl⟩ := hto.unique hto'
          exact ⟨user, huser, hother⟩
        · cases hid
  · refine ⟨[], .nothing ?_⟩
    rintro (⟨-, cli, group, hto, -⟩ | ⟨hid, -⟩)
    · exact hnone cli group hto
    · cases hid

end Group

section Private

/-- A message is for one peer. -/
theorem ToUser.unique {peer peer' : client_t} (h : ToUser b msg fd peer)
    (h' : ToUser b msg fd peer') : peer' = peer := by
  obtain ⟨name, hname, hfound⟩ := h.receiver
  obtain ⟨name', hname', hfound'⟩ := h'.receiver
  cases hname.symm.trans hname'
  cases hfound.symm.trans hfound'
  rfl

/-- A private message that is not dropped is for a peer. -/
theorem handle_private_msg_cases (h : handle_private_msg b msg fd = ok b') :
    (∃ peer_cli len, ToUser b msg fd peer_cli ∧ msg_size msg = ok len ∧
      b' = send_data_to_user b peer_cli msg len) ∨
    (b' = b ∧ ∀ peer_cli, ¬ ToUser b msg fd peer_cli) := by
  unfold handle_private_msg at h
  split at h
  · next harg =>
    cases h
    exact .inr ⟨rfl, fun _ hto => hto.logged_in harg⟩
  · next harg =>
    obtain ⟨sender, hsender, h⟩ := bind_eq_ok_iff.mp h
    obtain ⟨receiver, hreceiver, h⟩ := bind_eq_ok_iff.mp h
    obtain ⟨private_msg, hmessage, h⟩ := bind_eq_ok_iff.mp h
    cases sender with
    | none =>
      cases h
      exact .inr ⟨rfl, fun _ hto => absurd hto.sender (by simp [hsender])⟩
    | some sender =>
      cases private_msg with
      | none =>
        cases h
        exact .inr ⟨rfl, fun _ hto => absurd hto.message (by simp [hmessage])⟩
      | some message =>
        cases receiver with
        | none => cases h
        | some name =>
          obtain ⟨found, hfound, h⟩ := bind_eq_ok_iff.mp h
          cases found with
          | none =>
            cases h
            refine .inr ⟨rfl, fun _ hto => ?_⟩
            obtain ⟨name', hname', hfound'⟩ := hto.receiver
            cases hreceiver.symm.trans hname'
            cases hfound.symm.trans hfound'
          | some peer_cli =>
            obtain ⟨len, hlen, h⟩ := bind_eq_ok_iff.mp h
            cases h
            have hto : ToUser b msg fd peer_cli :=
              ⟨harg, ⟨sender, hsender⟩, ⟨message, hmessage⟩, name, hreceiver, hfound⟩
            exact .inl ⟨peer_cli, len, hto, hlen, rfl⟩

theorem handle_private_msg_written (h : handle_private_msg b msg fd = ok b') :
    ∃ calls, Written b msg fd private_kind b' calls := by
  have hreaches {peer : client_t} (hto : ToUser b msg fd peer) :
      Reaches b msg fd private_kind ↔ peer.io ≠ none := by
    refine ⟨?_, fun hio => .inr ⟨rfl, peer, hto, hio⟩⟩
    rintro (⟨hid, -⟩ | ⟨-, peer', hto', hio⟩)
    · cases hid
    · obtain rfl := hto.unique hto'
      exact hio
  obtain ⟨peer, len, hto, hlen, rfl⟩ | ⟨rfl, hnone⟩ := handle_private_msg_cases h
  · cases hio : peer.io with
    | none =>
      rw [send_data_to_user, hio]
      exact ⟨[], .nothing fun h => (hreaches hto).mp h hio⟩
    | some io =>
      simp only [send_data_to_user, hio, daemon.io_write]
      refine ⟨_, rfl, fun call hcall => ?_, ?_⟩
      · cases List.mem_singleton.mp hcall
        exact ⟨rfl, hlen⟩
      · exact iff_of_true (List.cons_ne_nil _ _)
          ((hreaches hto).mpr (hio ▸ Option.some_ne_none io))
  · refine ⟨[], .nothing ?_⟩
    rintro (⟨hid, -⟩ | ⟨-, peer, hto, -⟩)
    · cases hid
    · exact hnone peer hto

end Private

section Step

theorem handle_msg_written (hkind : kind ∈ [group_kind, private_kind])
    (hid : msg_get_command_id msg = ok kind.command_id)
    (h : handle_msg b msg fd addr = ok b') : ∃ calls, Written b msg fd kind b' calls := by
  rw [handle_msg, hid] at h
  rcases List.mem_pair.mp hkind with rfl | rfl
  · exact handle_group_msg_written h
  · exact handle_private_msg_written h

/-- The daemon does not look at the sender's name, so what it forwards is true
exactly when the message was. -/
theorem senderTrue_iff {e : bus_event} (h : Step b e b') :
    SenderTrue b e b' ↔ SaysOwnName b e b' := by
  cases e with
  | accept _ | close _ | full _ => exact Iff.rfl
  | message fd msg addr =>
    refine forall₃_congr fun kind hkind hid => ?_
    obtain ⟨calls, hwritten⟩ := handle_msg_written hkind hid h.2
    have hnew : b'.writes ≠ b.writes ↔ Reaches b msg fd kind := by
      rw [← hwritten.reaches, hwritten.writes]
      exact not_congr List.append_right_eq_self
    rw [hnew]
    refine imp_congr_right fun _ => exists_congr fun name => and_iff_left_of_imp ?_
    rintro ⟨cli, value, -, -, hitem, hvalue⟩ call hcall hlen rest cb hcb
    rw [hwritten.writes, List.drop_left] at hcall
    obtain ⟨hdata, hsize⟩ := hwritten.carries call hcall
    rw [hdata] at hcb
    exact mbus_handle_msg_from rest hkind hid hitem hvalue hsize hlen hcb

/-- In every run of the daemon, every group and private message that it forwards
names its true sender, in the message and to its receivers, exactly when every
message of the run that reaches somebody came with its connection's login name. -/
theorem sender_true_iff {tr : List (bus_event × daemon)} (hrun : Run Step mbusd_main tr) :
    AllSteps SenderTrue mbusd_main tr ↔ AllSteps SaysOwnName mbusd_main tr :=
  hrun.allSteps_iff fun hstep => senderTrue_iff hstep

end Step

section Runs

/-- The names of the connection and of the message, as they are computed. -/
theorem namesSender_iff {name : List UInt8} :
    NamesSender b msg fd kind name ↔
      (fun cli => cstring cli.name) <$> b.client (b.ios fd).arg = ok (some name) ∧
        (fun item : Option (List UInt8) => item.bind cstring) <$> msg_item msg kind.type_sender =
          ok (some name) := by
  constructor
  · rintro ⟨cli, value, hcli, hname, hitem, hvalue⟩
    rw [hcli, hitem, map_ok, map_ok, hname, Option.bind_some, hvalue]
    exact ⟨rfl, rfl⟩
  · rintro ⟨hcli, hitem⟩
    obtain ⟨cli, hcli, hname⟩ := map_eq_ok_iff.mp hcli
    obtain ⟨item, hitem, hvalue⟩ := map_eq_ok_iff.mp hitem
    obtain ⟨value, rfl, hvalue⟩ := Option.bind_eq_some_iff.mp hvalue
    exact ⟨cli, value, hcli, hname, hitem, hvalue⟩

def private_message (sender receiver text : List UInt8) : List UInt8 :=
  bus_message CID_PRIVATE_MSG [(TYPE_PRIVATEMSG_SENDER_NAME, sender),
    (TYPE_PRIVATEMSG_RECEIVER_NAME, receiver), (TYPE_PRIVATEMSG_PRIVATE_MSG, text)]

/-- The user `a` logs in and sends itself a message with some sender's name. -/
def message_to_self (sender : List UInt8) : List bus_event :=
  [.accept 5, .message 5 (login_message (cstr ['a'])) 1,
    .message 5 (private_message sender (cstr ['a']) [1, 2]) 2]

theorem message_to_self_true :
    AllSteps SenderTrue mbusd_main (bus_trace (message_to_self (cstr ['a']))) := by
  have hrun : Run Step mbusd_main (bus_trace (message_to_self (cstr ['a']))) :=
    bus_trace_run (by decide +kernel)
  refine (sender_true_iff hrun).mpr ⟨trivial, fun kind hkind hid => ?_, fun kind hkind hid => ?_,
    trivial⟩
  · rcases List.mem_pair.mp hkind with rfl | rfl
    · exact absurd hid (by decide +kernel)
    · exact absurd hid (by decide +kernel)
  · rcases List.mem_pair.mp hkind with rfl | rfl
    · exact absurd hid (by decide +kernel)
    · exact fun _ => ⟨[97], namesSender_iff.mpr (by decide +kernel)⟩

/-- The user `a` passes for `umesh`, and the message is forwarded. -/
theorem message_from_other_name :
    let tr := bus_trace (message_to_self (cstr ['u', 'm', 'e', 's', 'h']))
    Run Step mbusd_main tr ∧ ¬ AllSteps SenderTrue mbusd_main tr := by
  intro tr
  have hrun : Run Step mbusd_main tr := bus_trace_run (by decide +kernel)
  refine ⟨hrun, fun hall => ?_⟩
  obtain ⟨name, hnames, -⟩ := hall.2.2.1 private_kind (by simp) (by decide +kernel)
    (by decide +kernel)
  obtain ⟨hlogin, hsender⟩ := namesSender_iff.mp hnames
  exact absurd (hlogin.trans hsender.symm) (by decide +kernel)

end Runs

end easymesh.bus_msg
