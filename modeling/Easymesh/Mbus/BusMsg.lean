import Easymesh.Mbus.Names
import Easymesh.Tlv.RoundTrip

open Lib Lib.Result easymesh.tlv_parser easymesh.mbusd

namespace easymesh.bus_msg

inductive MbusMsgCcmd where
  | MBUS_CMD_NONE
  | MBUS_CMD_HEARTBEAT
  | MBUS_CMD_PRIVATE_MSG
  | MBUS_CMD_GROUP_MSG
  deriving DecidableEq, Repr

/-- The arguments of a call of `msg_cb`; a name is `none` when it is `NULL`. -/
structure msg_cb_call where
  cmd : MbusMsgCcmd
  fromName : Option (List UInt8)
  toName : Option (List UInt8)
  data : List UInt8
  len : Int
  deriving DecidableEq, Repr

/-- What group and private messages differ in. -/
structure msg_kind where
  type_sender : UInt16
  type_name : UInt16
  type_msg : UInt16
  command_id : UInt16
  cmd : MbusMsgCcmd

def group_kind : msg_kind :=
  { type_sender := TYPE_GROUPMSG_SENDER_NAME
    type_name := TYPE_GROUPMSG_GROUP_NAME
    type_msg := TYPE_GROUPMSG_GROUP_MSG
    command_id := CID_GROUP_MSG
    cmd := .MBUS_CMD_GROUP_MSG }

def private_kind : msg_kind :=
  { type_sender := TYPE_PRIVATEMSG_SENDER_NAME
    type_name := TYPE_PRIVATEMSG_RECEIVER_NAME
    type_msg := TYPE_PRIVATEMSG_PRIVATE_MSG
    command_id := CID_PRIVATE_MSG
    cmd := .MBUS_CMD_PRIVATE_MSG }

section Receive

/-- `mbus_handle_group_msg` and `mbus_handle_private_msg`. -/
def mbus_handle_named_msg (kind : msg_kind) (msg : List UInt8) : Result (Option msg_cb_call) := do
  match ← msg_root msg with
  | none => ok none
  | some pstRoot =>
    let pstSenderName := Kami_Tlv_GetObjectItem pstRoot kind.type_sender 0
    let pstName := Kami_Tlv_GetObjectItem pstRoot kind.type_name 0
    let pstMsg := Kami_Tlv_GetObjectItem pstRoot kind.type_msg 0
    match pstSenderName, pstName, pstMsg with
    | some pstSenderName, some pstName, some pstMsg =>
      ok (some
        { cmd := kind.cmd
          fromName := some pstSenderName.value
          toName := some pstName.value
          data := pstMsg.value
          len := pstMsg.length.toNat })
    | _, _, _ => ok none

def mbus_handle_heartbeat (msg : List UInt8) : Result (Option msg_cb_call) := do
  let length ← msg_length msg
  ok (some
    { cmd := .MBUS_CMD_HEARTBEAT
      fromName := none
      toName := none
      data := msg_get_data msg
      len := wrap32 length })

def mbus_handle_group_msg (msg : List UInt8) : Result (Option msg_cb_call) :=
  mbus_handle_named_msg group_kind msg

def mbus_handle_private_msg (msg : List UInt8) : Result (Option msg_cb_call) :=
  mbus_handle_named_msg private_kind msg

/-- `mbus_handle_msg` on a connection with a `msg_cb`: the call it makes, if any. -/
def mbus_handle_msg (msg : List UInt8) : Result (Option msg_cb_call) := do
  let command_id ← msg_get_command_id msg
  if command_id = CID_OTHER_HEARTBEAT then mbus_handle_heartbeat msg
  else if command_id = CID_GROUP_MSG then mbus_handle_group_msg msg
  else if command_id = CID_PRIVATE_MSG then mbus_handle_private_msg msg
  else ok none

end Receive

section Send

variable (uninit : Nat → UInt8) (my_name name : List UInt8) (data : Option (List UInt8)) (len : Int)

/-- `group_msg_new` and `private_msg_new`; `data` is `none` when it is `NULL`. -/
def msg_new (kind : msg_kind) : Result (Option (List UInt8)) := do
  let pstRoot := Kami_Tlv_CreateObject MBUS_TYPE_LEN
  let n ← strlen my_name
  let pstRoot ← Kami_Tlv_AddTlvToObject pstRoot kind.type_sender (UInt16.ofNat (n + 1)) my_name 0
    MBUS_TYPE_LEN
  let n ← strlen name
  let pstRoot ← Kami_Tlv_AddTlvToObject pstRoot kind.type_name (UInt16.ofNat (n + 1)) name 0
    MBUS_TYPE_LEN
  let pstRoot ← match data with
    | none => ok pstRoot
    | some data =>
      if 0 < len then
        Kami_Tlv_AddTlvToObject pstRoot kind.type_msg (UInt16.ofNat len.toNat) data 0 MBUS_TYPE_LEN
      else ok pstRoot
  match ← Kami_Tlv_Print uninit pstRoot with
  | none => ok none
  | some pr => do
    let tlv_len := Kami_Tlv_ObjectLength pstRoot
    let body ← readBytes pr 0 tlv_len
    ok (some (bytesI32 tlv_len ++ List.replicate 12 0 ++ body))

def group_msg_new : Result (Option (List UInt8)) := msg_new uninit my_name name data len group_kind

def private_msg_new : Result (Option (List UInt8)) :=
  msg_new uninit my_name name data len private_kind

/-- What both ways of sending do with the message: the value returned and the
memory and length that `io_write` is called with. The command is stored before
the message is compared with `NULL`. -/
def send_msg (kind : msg_kind) (msg : Result (Option (List UInt8))) :
    Result (Int × Option (List UInt8 × Int)) := do
  match ← msg with
  | none => fail
  | some msg => do
    let msg ← writeBytes msg 10 (bytesU16 kind.command_id)
    let size ← msg_size msg
    ok (0, some (msg, size))

def mbus_sendmsg_in_group : Result (Int × Option (List UInt8 × Int)) :=
  if len ≤ 0 then ok (-1, none)
  else send_msg group_kind (group_msg_new uninit my_name name data len)

def mbus_sendmsg_private : Result (Int × Option (List UInt8 × Int)) :=
  if len ≤ 0 then ok (-1, none)
  else send_msg private_kind (private_msg_new uninit my_name name data len)

end Send

/-- What is left of a value when its length is cut to 16 bits. -/
def cut (value : List UInt8) : List UInt8 := value.take (value.length % 65536)

/-- The node of a TLV of a message. -/
def msg_node (type : tlv_type) (value : List UInt8) : KamiTlv_S :=
  { Kami_Tlv_CreateObject MBUS_TYPE_LEN with
    type
    length := UInt16.ofNat value.length
    value := cut value
    obj_type := .KamiTlv_Tlv }

@[simp] theorem msg_node_value (type : tlv_type) (value : List UInt8) :
    (msg_node type value).value = cut value := rfl

@[simp] theorem msg_node_length (type : tlv_type) (value : List UInt8) :
    (msg_node type value).length = UInt16.ofNat value.length := rfl

/-- The bytes of a TLV on the wire. -/
def tlv_bytes (item : tlv_type × List UInt8) : List UInt8 :=
  be16 item.1 ++ be16 (UInt16.ofNat item.2.length) ++ item.2

section Build

variable {type : tlv_type} {mem value : List UInt8} {pstRoot : KamiTlv_S}

theorem ofNat_toNat_mod (n : Nat) : (UInt16.ofNat n).toNat = n % 65536 := UInt16.toNat_ofNat'

theorem cut_length (value : List UInt8) : (cut value).length = value.length % 65536 := by
  rw [cut, List.length_take]
  omega

theorem cut_eq (h : value.length < 65536) : cut value = value := by
  rw [cut, Nat.mod_eq_of_lt h, List.take_length]

/-- An object whose items are all TLVs. -/
structure FlatObject (pstRoot : KamiTlv_S) : Prop where
  built : Built 2 pstRoot
  object : pstRoot.obj_type = .KamiTlv_Object

theorem flatObject_new : FlatObject (Kami_Tlv_CreateObject MBUS_TYPE_LEN) := ⟨.object, rfl⟩

/-- Adding a TLV appends its node, with the value cut to what the length says. -/
theorem FlatObject.add (h : FlatObject pstRoot) (type : tlv_type)
    (hvalue : readBytes mem 0 value.length = ok value) :
    ∃ pstRoot', Kami_Tlv_AddTlvToObject pstRoot type (UInt16.ofNat value.length) mem 0
        MBUS_TYPE_LEN = ok pstRoot' ∧ FlatObject pstRoot' ∧
      pstRoot'.child = pstRoot.child ++ [msg_node type value] := by
  have hread : readBytes mem 0 (UInt16.ofNat value.length).toNat = ok (cut value) := by
    rw [ofNat_toNat_mod, cut]
    exact readBytes_less hvalue (Nat.mod_le _ _)
  have hnode : Kami_Tlv_CreateTlv type (UInt16.ofNat value.length) mem 0 MBUS_TYPE_LEN =
      ok (msg_node type value) := by
    rw [Kami_Tlv_CreateTlv, hread, ok_bind]
    rfl
  refine ⟨Kami_Tlv_AddItemToObject pstRoot (msg_node type value), ?_, ⟨?_, h.object⟩, rfl⟩
  · rw [Kami_Tlv_AddTlvToObject, hnode, ok_bind]
  · exact .add [] h.built (.tlv hnode) rfl (fun hno => by rw [h.object] at hno; cases hno) rfl

theorem encode_msg_node (type : tlv_type) (value : List UInt8) :
    encode (msg_node type value) = tlv_bytes (type, cut value) := by
  have hlength : UInt16.ofNat value.length = UInt16.ofNat (cut value).length := by
    rw [cut_length, ← ofNat_toNat_mod, UInt16.ofNat_toNat]
  change header_bytes type 2 (UInt16.ofNat value.length) ++ cut value = _
  rw [hlength]
  rfl

/-- Printing an object gives its TLVs one after another, and its length counts
them as far as 16 bits do. -/
theorem FlatObject.print (uninit : Nat → UInt8) (h : FlatObject pstRoot)
    (hsize : (encodeAll pstRoot.child).length + 1 ≤ INT_MAX) :
    Kami_Tlv_ObjectLength pstRoot = (encodeAll pstRoot.child).length % 65536 ∧
      ∃ more, Kami_Tlv_Print uninit pstRoot = ok (some (encodeAll pstRoot.child ++ more)) := by
  have hcons := h.built.consistent (.inr rfl)
  have hholder := hcons.holder (by rw [h.object]; exact nofun)
  have hencode := encode_object h.object
  obtain ⟨more, hprint⟩ := Kami_Tlv_Print_spec uninit (.inr rfl) hcons (by rw [hencode]; exact hsize)
  rw [hencode] at hprint
  refine ⟨?_, more, hprint⟩
  rw [Kami_Tlv_ObjectLength, hholder.length, ofNat_toNat_mod]

end Build

/-- A message on the wire. -/
def msg_bytes (command_id : UInt16) (length : Nat) (body : List UInt8) : List UInt8 :=
  bytesI32 length ++ List.replicate 6 0 ++ bytesU16 command_id ++ List.replicate 4 0 ++ body

/-- The three TLVs of a message. -/
def msg_items (kind : msg_kind) (sender receiver payload : List UInt8) :
    List (tlv_type × List UInt8) :=
  [(kind.type_sender, sender ++ [0]), (kind.type_name, receiver ++ [0]), (kind.type_msg, payload)]

/-- The body that is printed, with each value cut to 16 bits of length. -/
def cut_body (items : List (tlv_type × List UInt8)) : List UInt8 :=
  items.flatMap fun item => tlv_bytes (item.1, cut item.2)

section Message

variable {length : Nat} {command_id : UInt16} {body : List UInt8}

theorem msg_bytes_length (h : length < 4294967296) (rest : List UInt8) :
    msg_length (msg_bytes command_id length body ++ rest) = ok length := by
  have hread : readBytes (msg_bytes command_id length body ++ rest) 0 4 = ok (bytesI32 length) := by
    have hsplit : msg_bytes command_id length body ++ rest = bytesI32 length ++
        (List.replicate 6 0 ++ (bytesU16 command_id ++ (List.replicate 4 0 ++ (body ++ rest)))) := by
      simp only [msg_bytes, List.append_assoc]
    exact readBytes_front hsplit
  rw [msg_length, readU32, hread, map_ok, leNat_bytesI32 h]

theorem msg_bytes_command_id (rest : List UInt8) :
    msg_get_command_id (msg_bytes command_id length body ++ rest) = ok command_id := by
  have hread : readBytes (msg_bytes command_id length body ++ rest) 10 2 =
      ok (bytesU16 command_id) := by
    have hsplit : msg_bytes command_id length body ++ rest =
        (bytesI32 length ++ List.replicate 6 0) ++
          (bytesU16 command_id ++ (List.replicate 4 0 ++ body ++ rest)) := by
      simp only [msg_bytes, List.append_assoc]
    rw [hsplit]
    exact readBytes_middle _ (bytesU16 command_id) _
  rw [msg_get_command_id, readU16, hread, map_ok, leNat_bytesU16, UInt16.ofNat_toNat]

theorem msg_bytes_data (rest : List UInt8) :
    msg_get_data (msg_bytes command_id length body ++ rest) = body ++ rest := by
  have hsplit : msg_bytes command_id length body ++ rest =
      (bytesI32 length ++ List.replicate 6 0 ++ bytesU16 command_id ++ List.replicate 4 0) ++
        (body ++ rest) := by
    simp only [msg_bytes, List.append_assoc]
  rw [msg_get_data, hsplit]
  exact List.drop_left' (by simp [bytesI32, bytesU16])

theorem msg_bytes_size (h : length ≤ 65535) (rest : List UInt8) :
    msg_size (msg_bytes command_id length body ++ rest) = ok (16 + (length : Int)) := by
  rw [msg_size, msg_bytes_length (by omega), map_ok, wrap32_eq (by omega) (by omega)]

/-- Storing the command completes the header. -/
theorem write_command_id (length : Nat) (command_id : UInt16) (body : List UInt8) :
    writeBytes (bytesI32 length ++ List.replicate 12 0 ++ body) 10 (bytesU16 command_id) =
      ok (msg_bytes command_id length body) := by
  have hin : (10 : Int).toNat + (bytesU16 command_id).length ≤
      (bytesI32 length ++ List.replicate 12 0 ++ body).length := by
    simp [bytesI32, bytesU16]
  rw [writeBytes_of_le (by decide) hin]
  rfl

end Message

section Send

variable (uninit : Nat → UInt8) {my_name name data sender receiver payload : List UInt8}

theorem readBytes_cstring {mem string : List UInt8} (h : cstring mem = some string) :
    readBytes mem 0 (string ++ [0]).length = ok (string ++ [0]) := by
  obtain ⟨_, rest, hmem⟩ := cstring_eq_some_iff.mp h
  exact readBytes_front hmem.symm

theorem strlen_cstring {mem string : List UInt8} (h : cstring mem = some string) :
    strlen mem = ok string.length :=
  strlen_eq_ok_iff.mpr ⟨string, h, rfl⟩

theorem tlv_bytes_length (item : tlv_type × List UInt8) :
    (tlv_bytes item).length = 4 + item.2.length := by
  simp only [tlv_bytes, be16, List.length_append, List.length_cons, List.length_nil]

theorem cut_body_length (items : List (tlv_type × List UInt8)) :
    (cut_body items).length = (items.map fun item => 4 + item.2.length % 65536).sum := by
  rw [cut_body, List.length_flatMap]
  congr 1
  apply List.map_congr_left
  intro item _
  rw [tlv_bytes_length, cut_length]

/-- A message is made of the TLVs as they are cut, and again cut to what the sum
of their lengths leaves in 16 bits. -/
theorem msg_new_spec (kind : msg_kind) (hmy : cstring my_name = some sender)
    (hname : cstring name = some receiver)
    (hdata : readBytes data 0 payload.length = ok payload) (hpos : payload ≠ []) :
    let body := cut_body (msg_items kind sender receiver payload)
    msg_new uninit my_name name (some data) payload.length kind =
      ok (some (bytesI32 (body.length % 65536 : Nat) ++ List.replicate 12 0 ++
        body.take (body.length % 65536))) := by
  intro body
  obtain ⟨root₁, hadd₁, hflat₁, hchild₁⟩ :=
    flatObject_new.add kind.type_sender (readBytes_cstring hmy)
  obtain ⟨root₂, hadd₂, hflat₂, hchild₂⟩ := hflat₁.add kind.type_name (readBytes_cstring hname)
  obtain ⟨root₃, hadd₃, hflat₃, hchild₃⟩ := hflat₂.add kind.type_msg hdata
  have hbody : encodeAll root₃.child = body := by
    rw [hchild₃, hchild₂, hchild₁, encodeAll_eq]
    simp only [Kami_Tlv_CreateObject, List.nil_append, List.cons_append, List.map_cons,
      List.map_nil, encode_msg_node]
    rfl
  have hlength : body.length ≤ 12 + 3 * 65535 := by
    rw [cut_body_length]
    simp only [msg_items, List.map_cons, List.map_nil, List.sum_cons, List.sum_nil]
    omega
  obtain ⟨hcount, more, hprint⟩ := hflat₃.print uninit (by rw [hbody]; unfold INT_MAX; omega)
  rw [hbody] at hcount hprint
  have hcopy : readBytes (body ++ more) 0 (body.length % 65536) =
      ok (body.take (body.length % 65536)) :=
    readBytes_less (readBytes_front rfl) (Nat.mod_le _ _)
  rw [List.length_append, List.length_singleton] at hadd₁ hadd₂
  have hlen : (0 : Int) < payload.length := by
    have := List.length_pos_iff.mpr hpos
    omega
  rw [msg_new, strlen_cstring hmy, ok_bind, hadd₁, ok_bind, strlen_cstring hname, ok_bind, hadd₂,
    ok_bind]
  simp only [if_pos hlen, Int.toNat_natCast, hadd₃, ok_bind, hprint, hcount, hcopy]

/-- The message that `io_write` is called with. -/
def sent_msg (kind : msg_kind) (sender receiver payload : List UInt8) : List UInt8 :=
  let body := cut_body (msg_items kind sender receiver payload)
  msg_bytes kind.command_id (body.length % 65536) (body.take (body.length % 65536))

theorem msg_item_found {msg : List UInt8} {type : UInt16} {pstRoot pstItem : KamiTlv_S}
    (hroot : msg_root msg = ok (some pstRoot))
    (hitem : Kami_Tlv_GetObjectItem pstRoot type 0 = some pstItem) :
    msg_item msg type = ok (some pstItem.value) := by
  rw [msg_item, hroot, map_ok]
  simp only [Option.bind_eq_bind, Option.bind_some, hitem]

theorem mbus_handle_named_msg_found {kind : msg_kind} {msg : List UInt8}
    {pstRoot pstSenderName pstName pstMsg : KamiTlv_S} (hroot : msg_root msg = ok (some pstRoot))
    (hsender : Kami_Tlv_GetObjectItem pstRoot kind.type_sender 0 = some pstSenderName)
    (hname : Kami_Tlv_GetObjectItem pstRoot kind.type_name 0 = some pstName)
    (hmsg : Kami_Tlv_GetObjectItem pstRoot kind.type_msg 0 = some pstMsg) :
    mbus_handle_named_msg kind msg =
      ok (some
        { cmd := kind.cmd
          fromName := some pstSenderName.value
          toName := some pstName.value
          data := pstMsg.value
          len := pstMsg.length.toNat }) := by
  rw [mbus_handle_named_msg, hroot, ok_bind]
  simp only [hsender, hname, hmsg]

theorem send_msg_spec (kind : msg_kind) (hmy : cstring my_name = some sender)
    (hname : cstring name = some receiver)
    (hdata : readBytes data 0 payload.length = ok payload) (hpos : payload ≠ []) :
    send_msg kind (msg_new uninit my_name name (some data) payload.length kind) =
      ok (0, some (sent_msg kind sender receiver payload,
        16 + (((cut_body (msg_items kind sender receiver payload)).length % 65536 : Nat) : Int))) := by
  have hnew := msg_new_spec uninit kind hmy hname hdata hpos
  have hsize := @msg_bytes_size ((cut_body (msg_items kind sender receiver payload)).length % 65536)
    kind.command_id ((cut_body (msg_items kind sender receiver payload)).take
      ((cut_body (msg_items kind sender receiver payload)).length % 65536)) (by omega) []
  rw [List.append_nil] at hsize
  rw [send_msg, hnew, ok_bind]
  simp only [write_command_id, ok_bind, hsize]
  rfl

/-- The length of some TLVs on the wire. -/
def total_length (items : List (tlv_type × List UInt8)) : Nat :=
  (items.map fun item => 4 + item.2.length).sum

theorem flatMap_tlv_bytes_length (items : List (tlv_type × List UInt8)) :
    (items.flatMap tlv_bytes).length = total_length items := by
  rw [List.length_flatMap, total_length]
  congr 1
  apply List.map_congr_left
  intro item _
  exact tlv_bytes_length item

/-- Values that fit their lengths are not cut. -/
theorem cut_body_eq {items : List (tlv_type × List UInt8)}
    (hfits : ∀ item ∈ items, item.2.length < 65536) :
    cut_body items = items.flatMap tlv_bytes := by
  rw [cut_body]
  apply List.flatMap_congr
  intro item hitem
  rw [cut_eq (hfits item hitem)]

/-- The memory and length are a message whose length field counts all of the TLVs
and that holds all their bytes; each TLV's length counts its value. -/
structure HandsWhole (items : List (tlv_type × List UInt8)) (msg : List UInt8) (size : Int) :
    Prop where
  length : msg_length msg = ok (total_length items)
  size : size = 16 + total_length items
  body : readBytes msg 16 (total_length items) = ok (items.flatMap tlv_bytes)
  fits : ∀ item ∈ items, item.2.length < 65536

/-- The call returns -1 and writes nothing, or hands on the whole message. -/
def SendsWhole (items : List (tlv_type × List UInt8))
    (call : Result (Int × Option (List UInt8 × Int))) : Prop :=
  call = ok (-1, none) ∨ ∃ msg size, call = ok (0, some (msg, size)) ∧ HandsWhole items msg size

theorem item_length_le {items : List (tlv_type × List UInt8)} {item : tlv_type × List UInt8}
    (hitem : item ∈ items) : 4 + item.2.length ≤ total_length items :=
  List.le_sum_of_mem (List.mem_map_of_mem (f := fun item => 4 + item.2.length) hitem)

/-- A message that is short enough for its 16-bit lengths is sent as it is. -/
theorem sent_msg_eq {kind : msg_kind}
    (htotal : total_length (msg_items kind sender receiver payload) ≤ 65535) :
    (cut_body (msg_items kind sender receiver payload)).length % 65536 =
        total_length (msg_items kind sender receiver payload) ∧
      sent_msg kind sender receiver payload =
        msg_bytes kind.command_id (total_length (msg_items kind sender receiver payload))
          ((msg_items kind sender receiver payload).flatMap tlv_bytes) := by
  have hfits : ∀ item ∈ msg_items kind sender receiver payload, item.2.length < 65536 := by
    intro item hitem
    have hle := item_length_le hitem
    omega
  have hbody := cut_body_eq hfits
  have hlength := flatMap_tlv_bytes_length (msg_items kind sender receiver payload)
  have hmod : (cut_body (msg_items kind sender receiver payload)).length % 65536 =
      total_length (msg_items kind sender receiver payload) := by
    rw [hbody, hlength]
    exact Nat.mod_eq_of_lt (by omega)
  refine ⟨hmod, ?_⟩
  rw [sent_msg, hmod, hbody, ← hlength, List.take_length]

theorem send_msg_whole_iff (kind : msg_kind) (hmy : cstring my_name = some sender)
    (hname : cstring name = some receiver)
    (hdata : readBytes data 0 payload.length = ok payload) (hpos : payload ≠ []) :
    SendsWhole (msg_items kind sender receiver payload)
        (send_msg kind (msg_new uninit my_name name (some data) payload.length kind)) ↔
      total_length (msg_items kind sender receiver payload) ≤ 65535 := by
  rw [send_msg_spec uninit kind hmy hname hdata hpos]
  constructor
  · rintro (hfail | ⟨msg, size, hcall, hwhole⟩)
    · cases hfail
    · cases hcall
      have hlength := hwhole.length
      have hfield := @msg_bytes_length ((cut_body (msg_items kind sender receiver payload)).length %
        65536) kind.command_id ((cut_body (msg_items kind sender receiver payload)).take
          ((cut_body (msg_items kind sender receiver payload)).length % 65536)) (by omega) []
      rw [List.append_nil] at hfield
      have htotal := Result.ok.inj (hfield.symm.trans hlength)
      rw [← htotal]
      omega
  · intro htotal
    obtain ⟨hmod, hsent⟩ := sent_msg_eq htotal
    have hlength := flatMap_tlv_bytes_length (msg_items kind sender receiver payload)
    refine .inr ⟨_, _, rfl, ?_, by rw [hmod], ?_, fun item hitem => ?_⟩
    · have hfield := @msg_bytes_length (total_length (msg_items kind sender receiver payload))
        kind.command_id ((msg_items kind sender receiver payload).flatMap tlv_bytes) (by omega) []
      rwa [List.append_nil, ← hsent] at hfield
    · have hdata := @msg_bytes_data (total_length (msg_items kind sender receiver payload))
        kind.command_id ((msg_items kind sender receiver payload).flatMap tlv_bytes) []
      rw [List.append_nil, List.append_nil, ← hsent] at hdata
      have hread := readBytes_front (List.append_nil
        ((msg_items kind sender receiver payload).flatMap tlv_bytes)).symm
      rw [← hdata, msg_get_data, readBytes_drop _ 16 le_rfl] at hread
      rw [← hdata, msg_get_data, ← hlength, ← hdata]
      exact hread
    · have hle := item_length_le hitem
      omega

/-- A message to a group or to a user is handed on whole, with lengths that count
all of it, exactly when its three TLVs make at most 65535 bytes. -/
theorem mbus_sendmsg_whole_iff {len : Int} (hmy : cstring my_name = some sender)
    (hname : cstring name = some receiver) (hlen : 0 < len)
    (hdata : readBytes data 0 len.toNat = ok payload) :
    (SendsWhole (msg_items group_kind sender receiver payload)
        (mbus_sendmsg_in_group uninit my_name name (some data) len) ↔
      12 + (sender.length + 1) + (receiver.length + 1) + len ≤ 65535) ∧
    (SendsWhole (msg_items private_kind sender receiver payload)
        (mbus_sendmsg_private uninit my_name name (some data) len) ↔
      12 + (sender.length + 1) + (receiver.length + 1) + len ≤ 65535) := by
  have hlength := readBytes_length hdata
  obtain rfl : len = payload.length := by omega
  have hpos : payload ≠ [] := by
    rintro rfl
    exact absurd hlen (by decide)
  rw [Int.toNat_natCast] at hdata
  have htotal (kind : msg_kind) : total_length (msg_items kind sender receiver payload) ≤ 65535 ↔
      12 + ((sender.length : Int) + 1) + (receiver.length + 1) + payload.length ≤ 65535 := by
    simp only [total_length, msg_items, List.map_cons, List.map_nil, List.sum_cons, List.sum_nil,
      List.length_append, List.length_singleton]
    omega
  unfold mbus_sendmsg_in_group mbus_sendmsg_private
  rw [if_neg (not_le.mpr hlen), if_neg (not_le.mpr hlen)]
  constructor
  · rw [← htotal group_kind]
    exact send_msg_whole_iff uninit group_kind hmy hname hdata hpos
  · rw [← htotal private_kind]
    exact send_msg_whole_iff uninit private_kind hmy hname hdata hpos

theorem mbus_sendmsg_whole_three :
    SendsWhole (msg_items group_kind [97] [103] [1, 2, 3])
        (mbus_sendmsg_in_group (fun _ => 0) (cstr ['a']) (cstr ['g']) (some [1, 2, 3]) 3) ∧
      SendsWhole (msg_items private_kind [97] [103] [1, 2, 3])
        (mbus_sendmsg_private (fun _ => 0) (cstr ['a']) (cstr ['g']) (some [1, 2, 3]) 3) := by
  have hiff := @mbus_sendmsg_whole_iff (fun _ => 0) (cstr ['a']) (cstr ['g']) [1, 2, 3] [97] [103]
    [1, 2, 3] 3 rfl rfl (by decide) rfl
  exact ⟨hiff.1.mpr (by decide), hiff.2.mpr (by decide)⟩

/-- 65530 bytes fit their own 16-bit length, but not with the two names in front of them. -/
theorem mbus_sendmsg_wraps : ¬ ∀ (uninit : Nat → UInt8)
    (my_name name data sender receiver payload : List UInt8) (len : Int),
    cstring my_name = some sender → cstring name = some receiver → 0 < len →
    readBytes data 0 len.toNat = ok payload →
    SendsWhole (msg_items group_kind sender receiver payload)
      (mbus_sendmsg_in_group uninit my_name name (some data) len) := by
  intro hclaim
  obtain ⟨data, hlength⟩ : ∃ data : List UInt8, data.length = 65530 :=
    ⟨List.replicate 65530 7, List.length_replicate⟩
  have hread : readBytes data 0 data.length = ok data := readBytes_front (List.append_nil data).symm
  have hpos : data ≠ [] := List.ne_nil_of_length_pos (by omega)
  have hdata : readBytes data 0 (65530 : Int).toNat = ok data := by
    rw [hlength] at hread
    exact hread
  have hsends := hclaim (fun _ => 0) (cstr ['a']) (cstr ['g']) data [97] [103] data 65530 rfl rfl
    (by decide) hdata
  have hiff := @send_msg_whole_iff (fun _ => 0) (cstr ['a']) (cstr ['g']) data [97] [103] data
    group_kind rfl rfl hread hpos
  rw [hlength] at hiff
  have htotal := hiff.mp hsends
  simp only [total_length, msg_items, List.map_cons, List.map_nil, List.sum_cons, List.sum_nil,
    List.length_append, List.length_singleton, hlength] at htotal
  omega

end Send

end easymesh.bus_msg
