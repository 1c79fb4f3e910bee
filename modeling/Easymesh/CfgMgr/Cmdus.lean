import Easymesh.CfgMgr.Solicited
import Easymesh.CfgMgr.WscOrder
import Easymesh.CfgMgr.Emits
import Easymesh.Tlv.Flat

open Lib Lib.Result easymesh.tlv_parser easymesh.cmdu

namespace easymesh.cfg_mgr

/-- The attributes in the WSC TLV of an M1 for a radio. -/
def m1_value (if_addr : List UInt8) (i : Fin 2) : List UInt8 :=
  encodeAll ((wsc.wsc_m1_attributes if_addr (rf_band_of i)).map (tlv_arg.node 2))

/-- The TLVs of an M1 for a radio. -/
def m1_args (if_addr : List UInt8) (i : Fin 2) : List tlv_arg :=
  [(wsc.TLV_TYPE_WSC, UInt16.ofNat (m1_value if_addr i).length, m1_value if_addr i),
    (TLV_TYPE_RADIO_BASIC_CAPA, 17, sup_classes),
    (0x00, 0, [])]

/-- The TLVs of an autoconfiguration search for a radio. -/
def search_args (al_addr : List UInt8) (i : Fin 2) : List tlv_arg :=
  [(0x01, 6, al_addr),
    (0x0d, 1, [0x00]),
    (0x0e, 1, [UInt8.ofNat i]),
    (0x80, 2, [0x01, 0x01]),
    (0x81, 2, [0x01, 0x00]),
    (0x00, 0, [])]

/-- A packet with a whole CMDU of the type, which has these TLVs behind its header. -/
structure Carries (type : UInt16) (args : List tlv_arg) (pkt : List UInt8) : Prop where
  framed : ∃ id, Framed (htons type) id pkt
  last : Flags_last_fragment (packet pkt) = ok true
  items : tlvs (packet pkt) = encodeAll (args.map (tlv_arg.node 1))

/-- A search for a radio, with the address it comes from. -/
def Searches (i : Fin 2) (pkt : List UInt8) : Prop :=
  ∃ al_addr, src_addr (packet pkt) = ok al_addr ∧
    Carries MSG_AP_AUTOCONFIGURATION_SEARCH (search_args al_addr i) pkt

/-- An M1 for a radio, with the address of the interface. -/
def OffersM1 (i : Fin 2) (pkt : List UInt8) : Prop :=
  ∃ if_addr, readBytes (pkt_ifaddr pkt) 0 ETH_ALEN = ok if_addr ∧
    Carries MSG_AP_AUTOCONFIGURATION_WSC (m1_args if_addr i) pkt

section Send

variable {w w' : process} {raw_msg al_addr if_addr ifname pkt : List UInt8} {args : List tlv_arg}
  {pstRoot : KamiTlv_S}

theorem call_inj {c c' : mbus_call} (h : w.call c = w.call c') : c = c' := by
  have hcalls := congrArg process.calls h
  exact List.singleton_inj.mp (List.append_cancel_left hcalls)

/-- Behind its header the CMDU that is sent is what the TLVs of the object encode to. -/
theorem cfgmgr_send_cmdu_packet (hraw : raw_msg.length = sizeof_cmdu_raw_msg)
    (hflat : FlatObject 1 args pstRoot)
    (hsize : (encodeAll (args.map (tlv_arg.node 1))).length ≤ 490)
    (h : cfgmgr_send_cmdu w raw_msg pstRoot al_addr if_addr ifname = ok w')
    (hcall : w' = w.call (.sendmsg_in_group g_cfgmgr_user_name g_mesh_group_name pkt)) :
    packet pkt = raw_msg ++ encodeAll (args.map (tlv_arg.node 1)) := by
  obtain ⟨pr, hpr, h⟩ := bind_eq_ok_iff.mp h
  obtain ⟨more, rfl, hlength⟩ := hflat.printed (.inl rfl) (by omega) hpr
  obtain ⟨printed, hprinted, h⟩ := bind_eq_ok_iff.mp h
  rw [hlength, Option.getD_some, readBytes_front rfl] at hprinted
  cases hprinted
  obtain ⟨buffer, hbuffer, h⟩ := bind_eq_ok_iff.mp h
  obtain ⟨name, hname, h⟩ := bind_eq_ok_iff.mp h
  obtain ⟨aladdr, haladdr, h⟩ := bind_eq_ok_iff.mp h
  obtain ⟨ifaddr, hifaddr, h⟩ := bind_eq_ok_iff.mp h
  have hroom : sizeof_cmdu_raw_msg + (encodeAll (args.map (tlv_arg.node 1))).length ≤
      (raw_msg ++ List.replicate (512 - sizeof_cmdu_raw_msg) (0 : UInt8)).length := by
    rw [List.length_append, List.length_replicate, hraw, sizeof_cmdu_raw_msg]
    omega
  obtain ⟨out, hout, -, htake⟩ := writeBytes_inside hroom
  cases hbuffer.symm.trans hout
  rw [← hraw, List.take_left, hraw, ← hlength] at htake
  obtain ⟨_, -, hnamelen, -⟩ := snprintf_s_spec (List.cons_ne_nil _ _) hname
  injection call_inj ((Result.ok.inj h).trans hcall) with _ _ hpkt
  rw [← hpkt]
  refine (bytes_packet ?_ ?_ ?_).2.2.2.trans htake
  · exact hnamelen.trans rfl
  · exact readBytes_length hifaddr
  · exact readBytes_length haladdr

theorem cmdu_raw_msg_length {dst src : List UInt8} (type id : UInt16) (hdst : dst.length = ETH_ALEN)
    (hsrc : src.length = ETH_ALEN) : (cmdu_raw_msg dst src type id).length = sizeof_cmdu_raw_msg := by
  simp [cmdu_raw_msg, bytesU16, hdst, hsrc, ETH_ALEN, sizeof_cmdu_raw_msg]

/-- What is sent carries the TLVs of the object. -/
theorem cfgmgr_send_cmdu_carries {dest dst src : List UInt8} {type id : UInt16}
    (hdst : readBytes dest 0 ETH_ALEN = ok dst) (hsrc : readBytes al_addr 0 ETH_ALEN = ok src)
    (hflat : FlatObject 1 args pstRoot)
    (hsize : (encodeAll (args.map (tlv_arg.node 1))).length ≤ 490)
    (h : cfgmgr_send_cmdu w (cmdu_raw_msg dst src (htons type) id) pstRoot al_addr if_addr ifname =
      ok w') :
    ∃ pkt, w' = w.call (.sendmsg_in_group g_cfgmgr_user_name g_mesh_group_name pkt) ∧
      Addressed dest al_addr if_addr ifname pkt ∧ Carries type args pkt := by
  have hraw := cmdu_raw_msg_length (htons type) id (readBytes_length hdst) (readBytes_length hsrc)
  obtain ⟨pkt, hcall, haddressed, hframed⟩ := cfgmgr_send_cmdu_addressed hdst hsrc h
  have hpacket := cfgmgr_send_cmdu_packet hraw hflat hsize h hcall
  refine ⟨pkt, hcall, haddressed, ⟨_, hframed⟩, ?_, ?_⟩
  · have hread := readBytes_middle
      (dst ++ (src ++ (bytesU16 (htons 0x893a) ++ ([0, 0] ++ (bytesU16 (htons type) ++
        (bytesU16 id ++ [0])))))) [0x80] (encodeAll (args.map (tlv_arg.node 1)))
    have hbytes : dst ++ (src ++ (bytesU16 (htons 0x893a) ++ ([0, 0] ++ (bytesU16 (htons type) ++
        (bytesU16 id ++ [0]))))) ++ ([0x80] ++ encodeAll (args.map (tlv_arg.node 1))) = packet pkt := by
      rw [hpacket, cmdu_raw_msg]
      simp only [List.append_assoc, List.cons_append, List.nil_append]
    rw [hbytes] at hread
    simp only [List.length_append, readBytes_length hdst, readBytes_length hsrc] at hread
    have hbyte : readBytes (packet pkt) 21 1 = ok [0x80] := hread
    rw [Flags_last_fragment, readU8, hbyte]
    rfl
  · rw [tlvs, hpacket, ← hraw, List.drop_left]

/-- A search takes the band that the radio was set up with. -/
theorem cfgmgr_send_autoconfiguration_search_searches {radio : radio_s} {dest : List UInt8}
    {i : Fin 2} (hband : radio.auto_conf_band = UInt8.ofNat i)
    (h : cfgmgr_send_autoconfiguration_search w radio ifname if_addr al_addr dest = ok w') :
    ∃ pkt, w' = process.call { w with cfgmgr := { w.cfgmgr with msgid := w.cfgmgr.msgid + 1 } }
        (.sendmsg_in_group g_cfgmgr_user_name g_mesh_group_name pkt) ∧ Searches i pkt := by
  obtain ⟨dst, hdst, h⟩ := bind_eq_ok_iff.mp h
  obtain ⟨src, hsrc, h⟩ := bind_eq_ok_iff.mp h
  obtain ⟨root₁, hroot₁, h⟩ := bind_eq_ok_iff.mp h
  obtain ⟨root₂, hroot₂, h⟩ := bind_eq_ok_iff.mp h
  have hflat₁ : FlatObject 1 [(0x01, 6, al_addr)] root₁ := (flatObject_create 1).add hroot₁
  rw [search_tlvs, hband] at hroot₂
  have hflat₂ : FlatObject 1 (search_args al_addr i) root₂ := hflat₁.adds hroot₂
  have hsize : (encodeAll ((search_args al_addr i).map (tlv_arg.node 1))).length ≤ 490 := by
    rw [encodeAll_args_length (.inl rfl)]
    have hle : (al_addr.take 6).length ≤ 6 := List.length_take_le _ _
    change 1 + 2 + (al_addr.take 6).length + 21 ≤ 490
    omega
  obtain ⟨pkt, hcall, haddressed, hcarries⟩ := cfgmgr_send_cmdu_carries hdst hsrc hflat₂ hsize h
  refine ⟨pkt, hcall, src, haddressed.src.trans hsrc, hcarries.framed, hcarries.last, ?_⟩
  obtain ⟨-, -, rfl⟩ := readBytes_eq_ok (by decide) hsrc
  refine hcarries.items.trans ?_
  have hnode := tlv_arg.node_take 1 0x01 6 al_addr
  change encodeAll (tlv_arg.node 1 (0x01, 6, al_addr) :: _) =
    encodeAll (tlv_arg.node 1 (0x01, 6, al_addr.take 6) :: _)
  rw [← hnode]
  rfl

theorem m1_value_length (if_addr : List UInt8) (i : Fin 2) : (m1_value if_addr i).length ≤ 406 := by
  rw [m1_value, encodeAll_args_length (.inr rfl)]
  simp [wsc.wsc_m1_attributes, tlv_arg.value, List.length_take]
  omega

/-- The block of an M1 starts with its attributes. -/
theorem wsc_m1_msg_create_spec {uninit : Nat → UInt8} {i : Fin 2} {pr : Option (List UInt8)} {n : Nat}
    (h : wsc.wsc_m1_msg_create uninit if_addr (rf_band_of i) = ok (pr, n)) :
    (∃ more, pr = some (m1_value if_addr i ++ more)) ∧ n = (m1_value if_addr i).length ∧
      ETH_ALEN ≤ if_addr.length := by
  obtain ⟨pstWsc, hfold, h⟩ := bind_eq_ok_iff.mp h
  obtain ⟨printed, hprint, hok⟩ := bind_eq_ok_iff.mp h
  cases hok
  have hflat : FlatObject 2 ([] ++ wsc.wsc_m1_attributes if_addr (rf_band_of i)) pstWsc :=
    (flatObject_create 2).adds hfold
  have hsmall := m1_value_length if_addr i
  rw [m1_value] at hsmall
  obtain ⟨more, hpr, hlength⟩ := hflat.printed (.inr rfl) (by
    rw [List.nil_append]
    omega) hprint
  rw [List.nil_append] at hpr hlength
  have haddr : (0x1020, 6, if_addr) ∈ [] ++ wsc.wsc_m1_attributes if_addr (rf_band_of i) := by
    simp [wsc.wsc_m1_attributes]
  exact ⟨⟨more, hpr⟩, hlength, hflat.inside _ haddr⟩

/-- Only the address itself goes into an M1. -/
theorem m1_value_take (if_addr : List UInt8) (i : Fin 2) :
    m1_value (if_addr.take ETH_ALEN) i = m1_value if_addr i := by
  have hnode : tlv_arg.node 2 (0x1020, 6, if_addr.take ETH_ALEN) = tlv_arg.node 2 (0x1020, 6, if_addr) :=
    tlv_arg.node_take 2 0x1020 6 if_addr
  unfold m1_value wsc.wsc_m1_attributes
  simp only [List.map_cons, hnode]

theorem wsc_m1_of_band_radio (uninit : Nat → UInt8) (if_addr : List UInt8) (i : Fin 2) :
    wsc_m1_of_band uninit if_addr (i : Nat) = wsc.wsc_m1_msg_create uninit if_addr (rf_band_of i) := by
  fin_cases i
  · rfl
  · rfl

/-- An M1 for the band of a radio. -/
theorem cfgmgr_send_wsc_m1_offers {dest : List UInt8} {msg_id : Int} {i : Fin 2}
    (h : cfgmgr_send_wsc_m1 w al_addr if_addr ifname dest msg_id (i : Nat) = ok w') :
    ∃ pkt, w' = w.call (.sendmsg_in_group g_cfgmgr_user_name g_mesh_group_name pkt) ∧
      OffersM1 i pkt := by
  obtain ⟨dst, hdst, h⟩ := bind_eq_ok_iff.mp h
  obtain ⟨src, hsrc, h⟩ := bind_eq_ok_iff.mp h
  obtain ⟨⟨pcWscVal, len⟩, hm1, h⟩ := bind_eq_ok_iff.mp h
  rw [wsc_m1_of_band_radio] at hm1
  obtain ⟨⟨more, rfl⟩, rfl, haddr⟩ := wsc_m1_msg_create_spec hm1
  obtain ⟨root₁, hroot₁, h⟩ := bind_eq_ok_iff.mp h
  obtain ⟨root₂, hroot₂, h⟩ := bind_eq_ok_iff.mp h
  obtain ⟨root₃, hroot₃, h⟩ := bind_eq_ok_iff.mp h
  have hlength := m1_value_length if_addr i
  have hnat : (UInt16.ofNat (m1_value if_addr i).length).toNat = (m1_value if_addr i).length :=
    UInt16.toNat_ofNat_of_lt' (by rw [UInt16.size]; omega)
  have hflat₁ : FlatObject 1 [(wsc.TLV_TYPE_WSC, UInt16.ofNat (m1_value if_addr i).length,
      m1_value if_addr i ++ more)] root₁ := (flatObject_create 1).add hroot₁
  have hflat₂ : FlatObject 1 ([(wsc.TLV_TYPE_WSC, UInt16.ofNat (m1_value if_addr i).length,
      m1_value if_addr i ++ more)] ++ [(TLV_TYPE_RADIO_BASIC_CAPA, 17, sup_classes)]) root₂ :=
    hflat₁.add hroot₂
  have hflat : FlatObject 1 ([(wsc.TLV_TYPE_WSC, UInt16.ofNat (m1_value if_addr i).length,
      m1_value if_addr i ++ more)] ++ [(TLV_TYPE_RADIO_BASIC_CAPA, 17, sup_classes)] ++
      [(0x00, 0, [])]) root₃ := hflat₂.add hroot₃
  have hargs : encodeAll (([(wsc.TLV_TYPE_WSC, UInt16.ofNat (m1_value if_addr i).length,
      m1_value if_addr i ++ more)] ++ [(TLV_TYPE_RADIO_BASIC_CAPA, 17, sup_classes)] ++
      [(0x00, 0, [])]).map (tlv_arg.node 1)) =
        encodeAll ((m1_args if_addr i).map (tlv_arg.node 1)) := by
    have hnode := tlv_arg.node_take 1 wsc.TLV_TYPE_WSC (UInt16.ofNat (m1_value if_addr i).length)
      (m1_value if_addr i ++ more)
    rw [hnat, List.take_left] at hnode
    rw [m1_args, List.map_cons, hnode]
    rfl
  have hsize : (encodeAll ((m1_args if_addr i).map (tlv_arg.node 1))).length ≤ 490 := by
    rw [encodeAll_args_length (.inl rfl)]
    have hle := List.length_take_le' (UInt16.ofNat (m1_value if_addr i).length).toNat
      (m1_value if_addr i)
    change 1 + 2 + (List.take (UInt16.ofNat (m1_value if_addr i).length).toNat
      (m1_value if_addr i)).length + 23 ≤ 490
    omega
  obtain ⟨pkt, hcall, haddressed, hcarries⟩ :=
    cfgmgr_send_cmdu_carries hdst hsrc hflat (hargs ▸ hsize) h
  have hread : readBytes if_addr 0 ETH_ALEN = ok (if_addr.take ETH_ALEN) := by
    rw [readBytes_of_le le_rfl (by rw [Int.toNat_zero, Nat.zero_add]; exact haddr), Int.toNat_zero,
      List.drop_zero]
  refine ⟨pkt, hcall, if_addr.take ETH_ALEN, haddressed.ifaddr.trans hread, hcarries.framed,
    hcarries.last, ?_⟩
  rw [m1_args, m1_value_take]
  exact hcarries.items.trans hargs

end Send

/-- The value that a receiver finds under the type in the CMDU of a packet. -/
def cmdu_item (pkt : List UInt8) (usType : tlv_type) : Result (Option (List UInt8)) := do
  let len ← packet_len pkt
  let object ← Kami_Tlv_ParseObject (tlvs (packet pkt)) (wrap32 (len - sizeof_cmdu_raw_msg)) 1
  ok (object.bind fun pstRoot => (Kami_Tlv_GetObjectItem pstRoot usType 0).map KamiTlv_S.value)

/-- The value that it finds under the type among the attributes of the WSC TLV. -/
def wsc_attribute (pkt : List UInt8) (usType : tlv_type) : Result (Option (List UInt8)) := do
  match ← cmdu_item pkt wsc.TLV_TYPE_WSC with
  | none => ok none
  | some value =>
    let object ← Kami_Tlv_ParseObject value value.length 2
    ok (object.bind fun pstWsc => (Kami_Tlv_GetObjectItem pstWsc usType 0).map KamiTlv_S.value)

/-- What a receiver reads in a search: the band of the radio and the address it comes from. -/
structure SearchRead (i : Fin 2) (pkt : List UInt8) : Prop where
  type : ntohs <$> msg_type (packet pkt) = ok MSG_AP_AUTOCONFIGURATION_SEARCH
  band : cmdu_item pkt 0x0e = ok (some [UInt8.ofNat i])
  source : ∃ al_addr, src_addr (packet pkt) = ok al_addr ∧ cmdu_item pkt 0x01 = ok (some al_addr)

/-- What a receiver reads in an M1: it is for one radio and has the attributes that were
put in for it. -/
structure M1Read (i : Fin 2) (pkt : List UInt8) : Prop where
  type : ntohs <$> msg_type (packet pkt) = ok MSG_AP_AUTOCONFIGURATION_WSC
  radios : m1_radios (.sendmsg_in_group g_cfgmgr_user_name g_mesh_group_name pkt) = [i]
  attributes : ∃ if_addr, readBytes (pkt_ifaddr pkt) 0 ETH_ALEN = ok if_addr ∧
    ∀ usType, wsc_attribute pkt usType =
      ok (((wsc.wsc_m1_attributes if_addr (rf_band_of i)).find?
        fun arg => decide (arg.1 = usType)).map tlv_arg.value)

section Read

variable {type : UInt16} {args : List tlv_arg} {pkt : List UInt8} {i : Fin 2}

theorem Carries.type_read (h : Carries type args pkt) : ntohs <$> msg_type (packet pkt) = ok type := by
  obtain ⟨⟨id, hframed⟩, -, -⟩ := h
  rw [hframed.msg_type, map_ok, ntohs_htons]

/-- A receiver parses the TLVs of a packet. -/
theorem Carries.parse (h : Carries type args pkt)
    (hinside : ∀ arg ∈ args, arg.2.1.toNat ≤ arg.2.2.length)
    (hmin : 3 ≤ (encodeAll (args.map (tlv_arg.node 1))).length) :
    ∃ len pstRoot, packet_len pkt = ok len ∧
      Kami_Tlv_ParseObject (tlvs (packet pkt)) (wrap32 (len - sizeof_cmdu_raw_msg)) 1 =
        ok (some pstRoot) ∧
      pstRoot.child = (kept (args.map (tlv_arg.node 1))).map (parsed 1) := by
  obtain ⟨⟨id, hframed⟩, -, htlvs⟩ := h
  have hlength := congrArg List.length htlvs
  rw [tlvs, List.length_drop, sizeof_cmdu_raw_msg] at hlength
  have hshort := hframed.short
  have hpacket : (packet pkt).length = pkt.length - sizeof_mesh_packet := List.length_drop
  obtain ⟨pstRoot, hparse, hchild⟩ := parse_args (.inl rfl) hinside hmin (by omega)
  refine ⟨_, pstRoot, hframed.packet_len, ?_, hchild⟩
  have hwrap : wrap32 ((packet pkt).length - sizeof_cmdu_raw_msg) =
      (encodeAll (args.map (tlv_arg.node 1))).length := by
    rw [wrap32_eq (by rw [sizeof_cmdu_raw_msg]; omega) (by rw [sizeof_cmdu_raw_msg]; omega),
      sizeof_cmdu_raw_msg]
    omega
  rw [hwrap, htlvs]
  exact hparse

theorem Searches.read (h : Searches i pkt) : SearchRead i pkt := by
  obtain ⟨al_addr, hsrc, hcarries⟩ := h
  have hsix := readBytes_length hsrc
  have hinside : ∀ arg ∈ search_args al_addr i, arg.2.1.toNat ≤ arg.2.2.length := by
    simp [search_args, hsix, ETH_ALEN]
  obtain ⟨len, pstRoot, hlen, hparse, hchild⟩ := hcarries.parse hinside (header_le_encodeAll_args (.inl rfl) _ _)
  have hitem (usType : tlv_type) : cmdu_item pkt usType =
      ok ((Kami_Tlv_GetObjectItem pstRoot usType 0).map KamiTlv_S.value) := by
    rw [cmdu_item, hlen, ok_bind, hparse, ok_bind, Option.bind_some]
  refine ⟨hcarries.type_read, ?_, al_addr, hsrc, ?_⟩
  · rw [hitem, Kami_Tlv_GetObjectItem, hchild]
    rfl
  · rw [hitem, Kami_Tlv_GetObjectItem, hchild]
    change ok (some (al_addr.take 6)) = _
    have htake : al_addr.take 6 = al_addr := List.take_of_length_le (le_of_eq hsix)
    rw [htake]

theorem m1_attributes_inside {if_addr : List UInt8} (hsix : if_addr.length = ETH_ALEN)
    (rf_bands : UInt8) :
    ∀ arg ∈ wsc.wsc_m1_attributes if_addr rf_bands,
      0 < arg.2.1.toNat ∧ arg.2.1.toNat ≤ arg.2.2.length := by
  have hkey : wsc.public_key.length = 192 := rfl
  simp [wsc.wsc_m1_attributes, hsix, hkey, ETH_ALEN, wsc.enrollee_nonce, wsc.chars]

/-- The first attribute of each type in an M1. -/
theorem m1_value_first {if_addr : List UInt8} (hsix : if_addr.length = ETH_ALEN) (i : Fin 2)
    (usType : tlv_type) : first_value usType 0 (m1_value if_addr i) =
      ((wsc.wsc_m1_attributes if_addr (rf_band_of i)).find? fun arg => decide (arg.1 = usType)).map
        tlv_arg.value :=
  first_value_attributes usType (m1_attributes_inside hsix _)

/-- What a receiver parses an M1 to: its WSC TLV comes first and is the only one. -/
theorem m1_parse {if_addr : List UInt8}
    (h : Carries MSG_AP_AUTOCONFIGURATION_WSC (m1_args if_addr i) pkt) :
    ∃ len pstRoot pstWsc, packet_len pkt = ok len ∧
      Kami_Tlv_ParseObject (tlvs (packet pkt)) (wrap32 (len - sizeof_cmdu_raw_msg)) 1 =
        ok (some pstRoot) ∧
      Kami_Tlv_GetObjectItem pstRoot wsc.TLV_TYPE_WSC 0 = some pstWsc ∧
      Kami_Tlv_GetObjectItem pstRoot wsc.TLV_TYPE_WSC 1 = none ∧
      0 < pstRoot.child.length ∧ IsNode pstWsc (m1_value if_addr i) := by
  have hlength := m1_value_length if_addr i
  have hnat : (UInt16.ofNat (m1_value if_addr i).length).toNat = (m1_value if_addr i).length :=
    UInt16.toNat_ofNat_of_lt' (by rw [UInt16.size]; omega)
  have hinside : ∀ arg ∈ m1_args if_addr i, arg.2.1.toNat ≤ arg.2.2.length := by
    refine List.forall_mem_cons.mpr ⟨le_of_eq hnat, ?_⟩
    decide
  obtain ⟨len, pstRoot, hlen, hparse, hchild⟩ := h.parse hinside (header_le_encodeAll_args (.inl rfl) _ _)
  have hvalue : tlv_arg.value (wsc.TLV_TYPE_WSC, UInt16.ofNat (m1_value if_addr i).length,
      m1_value if_addr i) = m1_value if_addr i := by
    rw [tlv_arg.value, hnat, List.take_length]
  refine ⟨len, pstRoot, parsed 1 (tlv_arg.node 1 (wsc.TLV_TYPE_WSC,
    UInt16.ofNat (m1_value if_addr i).length, m1_value if_addr i)), hlen, hparse, ?_, ?_, ?_, hvalue,
    hnat⟩
  · rw [Kami_Tlv_GetObjectItem, hchild]
    rfl
  · rw [Kami_Tlv_GetObjectItem, hchild]
    rfl
  · rw [hchild]
    exact Nat.succ_pos _

theorem OffersM1.read (h : OffersM1 i pkt) : M1Read i pkt := by
  obtain ⟨if_addr, hread, hcarries⟩ := h
  have hsix := readBytes_length hread
  obtain ⟨len, pstRoot, pstWsc, hlen, hparse, hfirst, hsecond, hpos, hnode⟩ :=
    m1_parse hcarries
  have htype := hcarries.type_read
  have hinside := m1_attributes_inside hsix (rf_band_of i)
  have hcomplete : CompleteTlvs 2 (m1_value if_addr i) :=
    completeTlvs_attributes fun arg harg => (hinside arg harg).2
  have hlong : 4 ≤ (m1_value if_addr i).length := header_le_encodeAll_args (.inr rfl) _ _
  have hband : first_value wsc.DATA_ELEM_TYPE_RF_BANDS 0 (m1_value if_addr i) =
      some [rf_band_of i] := by
    rw [m1_value_first hsix]
    rfl
  have hvalue : IsWscValue (m1_value if_addr i) := by
    refine ⟨hcomplete, ?_⟩
    rw [hband]
    exact fun h => absurd (Option.some.inj h) (List.cons_ne_nil _ _)
  have hnamed : named_radio (m1_value if_addr i) = some i := by
    rw [named_radio_iff, rf_band, hband]
    rfl
  refine ⟨htype, ?_, if_addr, hread, fun usType => ?_⟩
  · have hradio := wsc_radio_long hnode hvalue hlong
    rw [hnamed] at hradio
    have hloop : m2_radios.loop pstRoot (pstRoot.child.length + 1) 0 = ok [i] := by
      obtain ⟨n, hn⟩ := Nat.exists_eq_succ_of_ne_zero (Nat.ne_of_gt hpos)
      have hnone : Kami_Tlv_GetObjectItem pstRoot wsc.TLV_TYPE_WSC (0 + 1 : Nat) = none := hsecond
      have hsome : Kami_Tlv_GetObjectItem pstRoot wsc.TLV_TYPE_WSC (0 : Nat) = some pstWsc := hfirst
      rw [hn, m2_radios.loop, hsome]
      dsimp only
      rw [hradio, ok_bind, m2_radios.loop, hnone]
      rfl
    rw [m1_radios, mbus_call.cmdu]
    dsimp only
    rw [if_pos htype, hlen, ok_bind, m2_radios, hparse, ok_bind]
    dsimp only
    rw [hloop]
    rfl
  · obtain ⟨pstWscObj, hparsed, hitem⟩ := Kami_Tlv_ParseObject_first hcomplete hlong (by
      have hlength := m1_value_length if_addr i
      unfold INT_MAX
      omega)
    have hcmdu : cmdu_item pkt wsc.TLV_TYPE_WSC = ok (some (m1_value if_addr i)) := by
      rw [cmdu_item, hlen, ok_bind, hparse, ok_bind, Option.bind_some, hfirst, Option.map_some,
        hnode.value]
    rw [wsc_attribute, hcmdu, ok_bind]
    change (Kami_Tlv_ParseObject (m1_value if_addr i) (m1_value if_addr i).length 2 >>= _) = _
    rw [hparsed, ok_bind, Option.bind_some, hitem, m1_value_first hsix]

end Read

end easymesh.cfg_mgr
