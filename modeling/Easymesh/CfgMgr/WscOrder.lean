import Easymesh.CfgMgr.Configured
import Easymesh.Tlv.FirstItem

open Lib Lib.Result easymesh.tlv_parser easymesh.cmdu easymesh.minheap easymesh.mh_timer

namespace easymesh.cfg_mgr

section Wire

/-- A TLV of a CMDU. -/
structure wire_tlv where
  type : UInt8
  value : List UInt8
  fits : value.length ≤ 65535
  deriving DecidableEq

variable (list : List wire_tlv)

def wire_tlv.IsWsc (tlv : wire_tlv) : Prop := tlv.type = 0x11

instance (tlv : wire_tlv) : Decidable tlv.IsWsc := inferInstanceAs (Decidable (_ = _))

/-- The TLV as it is sent. -/
def wire_tlv.bytes (tlv : wire_tlv) : List UInt8 :=
  tlv.type :: be16 (UInt16.ofNat tlv.value.length) ++ tlv.value

def wire : List UInt8 := (list.map wire_tlv.bytes).flatten

def wscs : List wire_tlv := list.filter fun tlv => decide tlv.IsWsc

/-- The first byte of the first RF-band attribute in the value of a WSC TLV. -/
def rf_band (value : List UInt8) : Option UInt8 :=
  (first_value wsc.DATA_ELEM_TYPE_RF_BANDS 0 value).bind List.head?

/-- The RF band of an M2 for a radio. -/
def rf_band_of (i : Fin 2) : UInt8 := if i.val = 0 then 0x01 else 0x02

/-- One of the WSC TLVs has the RF band of the radio. -/
def Named (i : Fin 2) : Prop := ∃ tlv ∈ wscs list, rf_band tlv.value = some (rf_band_of i)

instance (i : Fin 2) : Decidable (Named list i) := inferInstanceAs (Decidable (∃ _ ∈ _, _))

/-- The same TLVs, with the WSC TLVs in another order. -/
structure Reordered (list list' : List wire_tlv) : Prop where
  types : list'.map wire_tlv.type = list.map wire_tlv.type
  others : (list'.filter fun tlv => !decide tlv.IsWsc) = list.filter fun tlv => !decide tlv.IsWsc
  wscs : (wscs list').Perm (wscs list)

end Wire

section Looked

/-- The loop of `cfgmgr_parse_autoconfiguration_wsc` with the TLVs that it looks at. -/
def cfgmgr_parse_autoconfiguration_wsc.looked (pstM2 : KamiTlv_S) :
    Nat → Nat → process → Result (process × List KamiTlv_S)
  | 0, _, _ => div
  | fuel + 1, i, w =>
    match Kami_Tlv_GetObjectItem pstM2 wsc.TLV_TYPE_WSC i with
    | none => ok (w, [])
    | some pstWsc => do
      match ← wsc_radio pstWsc with
      | none => ok (w, [pstWsc])
      | some none => Prod.map id (pstWsc :: ·) <$> looked pstM2 fuel (i + 1) w
      | some (some radio) =>
        Prod.map id (pstWsc :: ·) <$> looked pstM2 fuel (i + 1) (w.configure radio)

/-- `cfgmgr_parse_autoconfiguration_wsc` with the TLVs that it looks at. -/
def cfgmgr_parse_wsc_looked (w : process) (msg : List UInt8) (len : Int) :
    Result (process × List KamiTlv_S) := do
  match ← Kami_Tlv_ParseObject (tlvs msg) (wrap32 (len - sizeof_cmdu_raw_msg)) 1 with
  | none => ok (w, [])
  | some pstM2 => cfgmgr_parse_autoconfiguration_wsc.looked pstM2 (pstM2.child.length + 1) 0 w

theorem looked_fst (pstM2 : KamiTlv_S) (fuel i : Nat) (w : process) :
    Prod.fst <$> cfgmgr_parse_autoconfiguration_wsc.looked pstM2 fuel i w =
      cfgmgr_parse_autoconfiguration_wsc.loop pstM2 fuel i w := by
  induction fuel generalizing i w with
  | zero => rfl
  | succ fuel ih =>
    rw [cfgmgr_parse_autoconfiguration_wsc.looked, cfgmgr_parse_autoconfiguration_wsc.loop]
    cases Kami_Tlv_GetObjectItem pstM2 wsc.TLV_TYPE_WSC i with
    | none => rfl
    | some pstWsc =>
      have hmap : ∀ w : process, Prod.fst <$> Prod.map id (pstWsc :: ·) <$>
          cfgmgr_parse_autoconfiguration_wsc.looked pstM2 fuel (i + 1) w =
            cfgmgr_parse_autoconfiguration_wsc.loop pstM2 fuel (i + 1) w := by
        intro w
        rw [← ih, Functor.map_map]
        rfl
      cases hradio : wsc_radio pstWsc with
      | fail => simp [hradio]
      | div => simp [hradio]
      | ok found =>
        cases found with
        | none => simp [hradio]
        | some found =>
          cases found with
          | none => simpa [hradio] using hmap w
          | some radio => simpa [hradio] using hmap (w.configure radio)

/-- What the process becomes does not depend on the TLVs being noted. -/
theorem cfgmgr_parse_wsc_looked_fst (w : process) (msg : List UInt8) (len : Int) :
    Prod.fst <$> cfgmgr_parse_wsc_looked w msg len = cfgmgr_parse_autoconfiguration_wsc w msg len := by
  unfold cfgmgr_parse_wsc_looked cfgmgr_parse_autoconfiguration_wsc cfgmgr_parse_wsc_tlvs
  cases Kami_Tlv_ParseObject (tlvs msg) (wrap32 (len - sizeof_cmdu_raw_msg)) 1 with
  | fail => rfl
  | div => rfl
  | ok object =>
    cases object with
    | none => rfl
    | some pstM2 => exact looked_fst pstM2 _ 0 w

/-- The parse of the message looks at every WSC TLV once, configures the radios
that these name and no other, and leaves the same however they are ordered. -/
def ParsesEveryWsc (w : process) (hdr more : List UInt8) (list : List wire_tlv) : Prop :=
  ∃ w', (∀ i, w'.conf_state i =
      if Named list i then .AUTOCONF_CONFIGURED else w.conf_state i) ∧
    ∀ list', Reordered list list' →
      cfgmgr_parse_autoconfiguration_wsc w (hdr ++ wire list' ++ more) (hdr ++ wire list').length =
        ok w' ∧
      ∃ looked, cfgmgr_parse_wsc_looked w (hdr ++ wire list' ++ more) (hdr ++ wire list').length =
          ok (w', looked) ∧
        looked.map KamiTlv_S.value = (wscs list').map wire_tlv.value

end Looked

/-- The value of a WSC TLV is whole attributes, of which the first RF band is not empty. -/
structure IsWscValue (value : List UInt8) : Prop where
  attributes : CompleteTlvs 2 value
  rf_band : first_value wsc.DATA_ELEM_TYPE_RF_BANDS 0 value ≠ some []

/-- The values of the WSC TLVs can be read. Of several none is too short for an
attribute, and a single one that ends the message is not empty. -/
structure Readable (list : List wire_tlv) : Prop where
  values : ∀ tlv ∈ wscs list, IsWscValue tlv.value
  long : 1 < (wscs list).length → ∀ tlv ∈ wscs list, 4 ≤ tlv.value.length
  last : ∀ tlv ∈ list.getLast?, tlv.IsWsc → tlv.value ≠ []

section Value

/-- The radio that the value of a WSC TLV names. -/
def named_radio (value : List UInt8) : Option (Fin 2) := (rf_band value).bind radio_of_rf_band

theorem radio_of_rf_band_iff (band : UInt8) (i : Fin 2) :
    radio_of_rf_band band = some i ↔ band = rf_band_of i := by
  unfold radio_of_rf_band rf_band_of
  fin_cases i
  · by_cases hfive : band = 0x02
    · simp [hfive]
    · simp [hfive]
  · by_cases hfive : band = 0x02
    · simp [hfive]
    · by_cases htwo : band = 0x01 <;> simp [hfive, htwo]

theorem named_radio_iff (value : List UInt8) (i : Fin 2) :
    named_radio value = some i ↔ rf_band value = some (rf_band_of i) := by
  unfold named_radio
  cases rf_band value with
  | none => simp
  | some band => simpa using radio_of_rf_band_iff band i

/-- The node of a WSC TLV. -/
structure IsNode (pstWsc : KamiTlv_S) (bytes : List UInt8) : Prop where
  value : pstWsc.value = bytes
  length : pstWsc.length.toNat = bytes.length

theorem IsNode.size {pstWsc : KamiTlv_S} {value : List UInt8} (h : IsNode pstWsc value) :
    value.length ≤ 65535 := by
  rw [← h.length]
  exact Nat.le_of_lt_succ pstWsc.length.toNat_lt

/-- A value that is too short for an attribute ends the loop. -/
theorem wsc_radio_short {pstWsc : KamiTlv_S} {value : List UInt8} (h : IsNode pstWsc value)
    (hshort : value.length < 4) : wsc_radio pstWsc = ok none := by
  have hint : value.length ≤ INT_MAX := Nat.le_trans h.size (by decide)
  rw [wsc_radio, h.value, h.length, Kami_Tlv_ParseObject_short hshort hint, ok_bind]

/-- A value that can be read configures the radio it names. -/
theorem wsc_radio_long {pstWsc : KamiTlv_S} {value : List UInt8} (h : IsNode pstWsc value)
    (hvalue : IsWscValue value) (hlong : 4 ≤ value.length) :
    wsc_radio pstWsc = ok (some (named_radio value)) := by
  have hint : value.length ≤ INT_MAX := Nat.le_trans h.size (by decide)
  obtain ⟨pstWscObj, hparse, hfirst⟩ := Kami_Tlv_ParseObject_first hvalue.attributes hlong hint
  have hband := hfirst wsc.DATA_ELEM_TYPE_RF_BANDS
  have hne := hvalue.rf_band
  rw [wsc_radio, h.value, h.length, hparse, ok_bind]
  unfold named_radio rf_band
  rw [← hband] at hne ⊢
  cases hitem : Kami_Tlv_GetObjectItem pstWscObj wsc.DATA_ELEM_TYPE_RF_BANDS 0 with
  | none => simp [hitem]
  | some pstRfBands =>
    rw [hitem, Option.map_some] at hne
    obtain ⟨band, rest, hcons⟩ := List.exists_cons_of_ne_nil fun hnil => hne (congrArg some hnil)
    have hread : readU8 (band :: rest) 0 = ok band := rfl
    simp [hitem, hcons, hread]

/-- The loop gets past a value only if it can be read. -/
theorem isWscValue_of_returns {pstWsc : KamiTlv_S} {value : List UInt8} (h : IsNode pstWsc value)
    (hreturns : (wsc_radio pstWsc).Returns) : IsWscValue value := by
  have hint : value.length ≤ INT_MAX := Nat.le_trans h.size (by decide)
  obtain ⟨found, hfound⟩ := hreturns
  rw [wsc_radio, h.value, h.length] at hfound
  obtain ⟨object, hparse, hrest⟩ := bind_eq_ok_iff.mp hfound
  have hcomplete := (Kami_Tlv_ParseObject_returns_iff (.inr rfl) hint).mp ⟨object, hparse⟩
  refine ⟨hcomplete, fun hempty => ?_⟩
  have hlong : 4 ≤ value.length := by
    by_contra hshort
    rw [first_value_short (by omega)] at hempty
    cases hempty
  obtain ⟨pstWscObj, hobject, hfirst⟩ := Kami_Tlv_ParseObject_first hcomplete hlong hint
  cases hparse.symm.trans hobject
  have hband := hfirst wsc.DATA_ELEM_TYPE_RF_BANDS
  rw [hempty] at hband
  obtain ⟨pstRfBands, hitem, hnil⟩ := Option.map_eq_some_iff.mp hband
  simp only [hitem] at hrest
  obtain ⟨band, hread, -⟩ := bind_eq_ok_iff.mp hrest
  rw [hnil] at hread
  cases hread

end Value

section Scan

/-- The loop over the WSC TLVs themselves. -/
def scan : List KamiTlv_S → process → Result (process × List KamiTlv_S)
  | [], w => ok (w, [])
  | pstWsc :: rest, w => do
    match ← wsc_radio pstWsc with
    | none => ok (w, [pstWsc])
    | some found => Prod.map id (pstWsc :: ·) <$> scan rest (found.elim w w.configure)

/-- The search by index finds the WSC TLVs one after another. -/
theorem looked_eq_scan {pstM2 : KamiTlv_S} {fuel i : Nat} {list : List KamiTlv_S}
    (hlist : (pstM2.child.filter fun pstItem => decide (pstItem.type = wsc.TLV_TYPE_WSC)).drop i =
      list) (hfuel : list.length < fuel) (w : process) :
    cfgmgr_parse_autoconfiguration_wsc.looked pstM2 fuel i w = scan list w := by
  induction list generalizing fuel i w with
  | nil =>
    obtain ⟨fuel, rfl⟩ := Nat.exists_eq_succ_of_ne_zero (Nat.ne_of_gt hfuel)
    have hnone := congrArg (fun list : List KamiTlv_S => list[0]?) hlist
    rw [List.getElem?_drop, Nat.add_zero, ← Kami_Tlv_GetObjectItem_eq] at hnone
    rw [cfgmgr_parse_autoconfiguration_wsc.looked, hnone]
    rfl
  | cons pstWsc rest ih =>
    obtain ⟨fuel, rfl⟩ := Nat.exists_eq_succ_of_ne_zero (Nat.ne_of_gt (Nat.zero_lt_of_lt hfuel))
    have hitem := congrArg (fun list : List KamiTlv_S => list[0]?) hlist
    rw [List.getElem?_drop, Nat.add_zero, ← Kami_Tlv_GetObjectItem_eq] at hitem
    have hrest := congrArg List.tail hlist
    rw [List.tail_drop] at hrest
    have hnext := fun w => ih hrest (Nat.lt_of_succ_lt_succ hfuel) w
    rw [cfgmgr_parse_autoconfiguration_wsc.looked, hitem, scan]
    cases hradio : wsc_radio pstWsc with
    | fail => simp [hradio]
    | div => simp [hradio]
    | ok found =>
      cases found with
      | none => simp [hradio]
      | some found =>
        cases found with
        | none => simp [hradio, hnext]
        | some radio => simp [hradio, hnext]

theorem scan_prefix {list looked : List KamiTlv_S} {w w' : process}
    (h : scan list w = ok (w', looked)) : looked <+: list := by
  induction list generalizing w looked with
  | nil =>
    cases h
    exact List.nil_prefix
  | cons pstWsc rest ih =>
    obtain ⟨found, _, h⟩ := bind_eq_ok_iff.mp h
    cases found with
    | none =>
      cases h
      exact ⟨rest, rfl⟩
    | some found =>
      obtain ⟨⟨w₁, looked₁⟩, hscan, heq⟩ := map_eq_ok_iff.mp h
      cases heq
      exact List.prefix_cons_inj pstWsc |>.mpr (ih hscan)

/-- The first WSC TLV can be parsed, and it is not the last that is looked at if it is not alone. -/
theorem scan_first {pstWsc : KamiTlv_S} {rest : List KamiTlv_S} {w w' : process}
    (h : scan (pstWsc :: rest) w = ok (w', pstWsc :: rest)) :
    (wsc_radio pstWsc).Returns ∧ (rest ≠ [] → wsc_radio pstWsc ≠ ok none) := by
  obtain ⟨found, hradio, h⟩ := bind_eq_ok_iff.mp h
  refine ⟨⟨found, hradio⟩, fun hrest hnone => ?_⟩
  cases hradio.symm.trans hnone
  simp only [Result.ok.injEq, Prod.mk.injEq, List.cons.injEq, true_and] at h
  exact hrest h.2.symm

/-- The process after a WSC TLV that can be read. -/
def process.configureNamed (w : process) (tlv : wire_tlv) : process :=
  (named_radio tlv.value).elim w w.configure

/-- WSC TLVs that can be read are all looked at. -/
theorem scan_readable {nodes : List KamiTlv_S} {list : List wire_tlv}
    (hnodes : List.Forall₂ (fun pstWsc tlv => IsNode pstWsc tlv.value) nodes list)
    (hvalues : ∀ tlv ∈ list, IsWscValue tlv.value)
    (hlong : 1 < list.length → ∀ tlv ∈ list, 4 ≤ tlv.value.length) (w : process) :
    scan nodes w = ok (list.foldl process.configureNamed w, nodes) := by
  induction hnodes generalizing w with
  | nil => rfl
  | @cons pstWsc tlv nodes list hnode hnodes ih =>
    rw [scan, List.foldl_cons]
    by_cases hshort : tlv.value.length < 4
    · -- then it is the only one
      have hlist : list = [] := by
        by_contra hne
        have hpos := List.length_pos_iff.mpr hne
        have hle := hlong (by rw [List.length_cons]; omega) tlv (List.mem_cons_self ..)
        omega
      subst hlist
      cases hnodes
      have hname : named_radio tlv.value = none := by
        rw [named_radio, rf_band, first_value_short (by omega)]
        rfl
      rw [wsc_radio_short hnode hshort, ok_bind, process.configureNamed, hname]
      rfl
    · have hrest := ih (fun t ht => hvalues t (List.mem_cons_of_mem tlv ht))
        (fun hmany t ht => hlong (Nat.lt_succ_of_lt hmany) t (List.mem_cons_of_mem tlv ht))
        (w.configureNamed tlv)
      have hvalue := hvalues tlv (List.mem_cons_self ..)
      rw [wsc_radio_long hnode hvalue (not_lt.mp hshort), ok_bind]
      change _ <$> scan nodes (w.configureNamed tlv) = _
      rw [hrest, map_ok]
      rfl

theorem configure_comm (w : process) (i j : Fin 2) :
    (w.configure i).configure j = (w.configure j).configure i := by
  by_cases hij : i = j
  · rw [hij]
  · have hji := Ne.symm hij
    simp [process.configure, process.setState, process.resetTimer, Function.update_of_ne, hij, hji,
      Function.update_comm hij]

theorem configureNamed_comm (w : process) (tlv tlv' : wire_tlv) :
    (w.configureNamed tlv).configureNamed tlv' = (w.configureNamed tlv').configureNamed tlv := by
  unfold process.configureNamed
  cases named_radio tlv.value with
  | none => rfl
  | some i =>
    cases named_radio tlv'.value with
    | none => rfl
    | some j => exact configure_comm w i j

/-- The order of the WSC TLVs does not matter. -/
theorem foldl_configureNamed_perm {list list' : List wire_tlv} (h : list'.Perm list) (w : process) :
    list'.foldl process.configureNamed w = list.foldl process.configureNamed w :=
  h.foldl_eq' (fun _ _ _ _ w => configureNamed_comm w _ _) w

theorem foldl_configureNamed_states (list : List wire_tlv) (w : process) (i : Fin 2) :
    (list.foldl process.configureNamed w).conf_state i =
      if ∃ tlv ∈ list, rf_band tlv.value = some (rf_band_of i) then .AUTOCONF_CONFIGURED
      else w.conf_state i := by
  induction list generalizing w with
  | nil => simp
  | cons tlv list ih =>
    have hfirst : (w.configureNamed tlv).conf_state i =
        if rf_band tlv.value = some (rf_band_of i) then .AUTOCONF_CONFIGURED else w.conf_state i := by
      simp only [process.configureNamed, ← named_radio_iff]
      cases named_radio tlv.value with
      | none => simp
      | some j =>
        by_cases hij : i = j
        · simp [process.configure, hij]
        · simp [process.configure, hij, Ne.symm hij]
    rw [List.foldl_cons, ih, hfirst]
    by_cases hband : rf_band tlv.value = some (rf_band_of i) <;> simp [hband]

end Scan

section Message

/-- The parser's input for a TLV of a CMDU. -/
def wire_tlv.node (tlv : wire_tlv) : KamiTlv_S := tlv_node (tlv.type.toUInt16, tlv.value)

theorem wire_tlv.length_toNat (tlv : wire_tlv) :
    (UInt16.ofNat tlv.value.length).toNat = tlv.value.length :=
  UInt16.toNat_ofNat_of_lt' (Nat.lt_succ_of_le tlv.fits)

theorem encode_node (tlv : wire_tlv) : encode tlv.node = tlv.bytes := by
  change type_bytes tlv.type.toUInt16 1 ++ be16 _ ++ tlv.value = tlv.bytes
  rw [type_bytes, if_neg (by decide), UInt8.toUInt8_toUInt16]
  rfl

theorem isItem_node (tlv : wire_tlv) : IsItem 1 tlv.node := ⟨rfl, tlv.length_toNat.symm⟩

theorem isNode_parsed (tlv : wire_tlv) : IsNode (parsed 1 tlv.node) tlv.value :=
  ⟨rfl, tlv.length_toNat⟩

theorem sign_extend_wsc_iff (n : Fin 256) :
    (UInt8.ofNat n.val).toInt8.toInt16.toUInt16 = wsc.TLV_TYPE_WSC ↔ UInt8.ofNat n.val = 0x11 := by
  revert n
  decide +kernel

/-- The sign extension of the type leaves the WSC TLVs what they are and makes no others. -/
theorem parsed_type_iff (tlv : wire_tlv) :
    (parsed 1 tlv.node).type = wsc.TLV_TYPE_WSC ↔ tlv.IsWsc := by
  have hiff := sign_extend_wsc_iff ⟨tlv.type.toNat, tlv.type.toNat_lt⟩
  rw [UInt8.ofNat_toNat] at hiff
  change read_type (type_bytes tlv.type.toUInt16 1) = _ ↔ _
  rw [type_bytes, if_neg (by decide), UInt8.toUInt8_toUInt16]
  exact hiff

/-- The WSC TLVs among the nodes of a message. -/
theorem filter_nodes (list : List wire_tlv) :
    ((list.map wire_tlv.node).map (parsed 1)).filter
        (fun pstItem => decide (pstItem.type = wsc.TLV_TYPE_WSC)) =
      (wscs list).map fun tlv => parsed 1 tlv.node := by
  rw [List.map_map, List.filter_map, wscs]
  congr 1
  apply List.filter_congr
  intro tlv _
  exact decide_eq_decide.mpr (parsed_type_iff tlv)

theorem wire_eq (list : List wire_tlv) :
    wire list = ((list.map wire_tlv.node).map encode).flatten := by
  rw [wire, List.map_map]
  congr 1
  exact List.map_congr_left fun tlv _ => (encode_node tlv).symm

/-- The TLVs of a message that the parser finds. -/
def found (list : List wire_tlv) : List wire_tlv :=
  if ∀ tlv ∈ list.getLast?, tlv.value ≠ [] then list else list.dropLast

theorem kept_nodes_eq (list : List wire_tlv) :
    kept (list.map wire_tlv.node) = (found list).map wire_tlv.node := by
  have hzero : ∀ tlv : wire_tlv, tlv.node.length = 0 ↔ tlv.value = [] := by
    intro tlv
    rw [← List.length_eq_zero_iff, ← tlv.length_toNat, ← UInt16.toNat_inj]
    rfl
  induction list using List.reverseRecOn with
  | nil => rfl
  | append_singleton init last _ =>
    rw [List.map_append, List.map_singleton, kept_concat, found]
    by_cases hlast : last.value = []
    · rw [if_pos ((hzero last).mpr hlast), if_neg (by simpa using hlast), List.dropLast_concat]
    · rw [if_neg (fun h => hlast ((hzero last).mp h)), if_pos (by simpa using hlast), List.map_append,
        List.map_singleton]

/-- The nodes of a message that is not empty. -/
theorem parse_wire {list : List wire_tlv} (hne : list ≠ []) (hmax : (wire list).length ≤ INT_MAX)
    (more : List UInt8) :
    ∃ pstM2, Kami_Tlv_ParseObject (wire list ++ more) (wire list).length 1 = ok (some pstM2) ∧
      pstM2.child = ((found list).map wire_tlv.node).map (parsed 1) := by
  have hitems : ∀ pstItem ∈ list.map wire_tlv.node, IsItem 1 pstItem := by
    intro pstItem hmem
    obtain ⟨tlv, _, rfl⟩ := List.mem_map.mp hmem
    exact isItem_node tlv
  have hwire := wire_eq list
  have hsize := length_le_flatten (.inl rfl) hitems
  have hlong : 3 ≤ (wire list).length := by
    obtain ⟨tlv, htlv⟩ := List.exists_mem_of_ne_nil list hne
    have hhead := encode_length_le (List.mem_map_of_mem (f := wire_tlv.node) htlv)
    rw [← hwire, (isItem_node tlv).encode_eq, List.length_append,
      header_bytes_length _ (.inl rfl)] at hhead
    omega
  rw [← hwire] at hsize
  have hfuel : (list.map wire_tlv.node).length < (wire list).length + 1 := Nat.lt_succ_of_le hsize
  obtain ⟨pstM2, hloop, hchild⟩ := loop_items (.inl rfl) hmax hitems (Kami_Tlv_CreateObject 1)
    (Nat.zero_le _) hwire hfuel
  rw [kept_nodes_eq] at hchild
  rw [Int.natCast_zero] at hloop
  have hguard : ¬ toSize ((wire list).length : Int) < 1 + 2 := by
    unfold INT_MAX at hmax
    have hnat : (toSize ((wire list).length : Int) : Int) = (wire list).length :=
      toSize_of_nonneg (Int.natCast_nonneg _) (by omega)
    omega
  refine ⟨pstM2, Kami_Tlv_ParseObject_append more ?_, hchild⟩
  rw [Kami_Tlv_ParseObject, if_neg hguard, hloop, map_ok]

/-- Looking at the TLVs of a message is scanning the WSC TLVs that the parser finds. -/
theorem cfgmgr_parse_wsc_looked_eq (w : process) {hdr : List UInt8} (more : List UInt8)
    {list : List wire_tlv} (hhdr : hdr.length = sizeof_cmdu_raw_msg)
    (hint : (hdr ++ wire list).length ≤ INT_MAX) :
    cfgmgr_parse_wsc_looked w (hdr ++ wire list ++ more) (hdr ++ wire list).length =
      scan ((wscs (found list)).map fun tlv => parsed 1 tlv.node) w := by
  have hmax : (wire list).length ≤ INT_MAX := Nat.le_trans (by simp) hint
  have hlen : wrap32 (((hdr ++ wire list).length : Int) - sizeof_cmdu_raw_msg) =
      (wire list).length := by
    have hdiff : ((hdr ++ wire list).length : Int) - sizeof_cmdu_raw_msg = (wire list).length := by
      rw [List.length_append, hhdr, Int.natCast_add, add_sub_cancel_left]
    unfold INT_MAX at hmax
    clear hint
    rw [hdiff]
    exact wrap32_eq (by omega) (by omega)
  have htlvs : tlvs (hdr ++ wire list ++ more) = wire list ++ more := by
    rw [tlvs, List.append_assoc]
    exact List.drop_left' hhdr
  rw [cfgmgr_parse_wsc_looked, hlen, htlvs]
  by_cases hne : list = []
  · subst hne
    rfl
  · obtain ⟨pstM2, hparse, hchild⟩ := parse_wire hne hmax more
    have hwscs : pstM2.child.filter (fun pstItem => decide (pstItem.type = wsc.TLV_TYPE_WSC)) =
        (wscs (found list)).map fun tlv => parsed 1 tlv.node := by
      rw [hchild, filter_nodes]
    rw [hparse, ok_bind]
    refine looked_eq_scan (by rw [List.drop_zero, hwscs]) ?_ w
    rw [← hwscs]
    exact Nat.lt_succ_of_le (List.length_filter_le ..)

end Message

section Order

theorem wscs_concat (init : List wire_tlv) (last : wire_tlv) :
    wscs (init ++ [last]) = if last.IsWsc then wscs init ++ [last] else wscs init := by
  rw [wscs, List.filter_append, List.filter_singleton]
  by_cases hlast : last.IsWsc
  · rw [if_pos hlast, decide_eq_true hlast]
    rfl
  · rw [if_neg hlast, decide_eq_false hlast, cond_false, List.append_nil]
    rfl

theorem wscs_cons (tlv : wire_tlv) (rest : List wire_tlv) :
    wscs (tlv :: rest) = if tlv.IsWsc then tlv :: wscs rest else wscs rest := by
  by_cases htlv : tlv.IsWsc
  · rw [if_pos htlv]
    exact List.filter_cons_of_pos (by simpa using htlv)
  · rw [if_neg htlv]
    exact List.filter_cons_of_neg (by simpa using htlv)

/-- The parser finds all WSC TLVs unless an empty one ends the message. -/
theorem wscs_found_length_iff (list : List wire_tlv) :
    (wscs list).length ≤ (wscs (found list)).length ↔
      ∀ tlv ∈ list.getLast?, tlv.IsWsc → tlv.value ≠ [] := by
  induction list using List.reverseRecOn with
  | nil => simp [found]
  | append_singleton init last _ =>
    rw [found]
    by_cases hvalue : last.value = []
    · rw [if_neg (by simpa using hvalue), List.dropLast_concat, wscs_concat]
      by_cases hlast : last.IsWsc <;> simp [hlast, hvalue]
    · rw [if_pos (by simpa using hvalue)]
      simp [hvalue]

theorem wscs_found {list : List wire_tlv}
    (hlast : ∀ tlv ∈ list.getLast?, tlv.IsWsc → tlv.value ≠ []) : wscs (found list) = wscs list := by
  have hsub : (wscs (found list)).Sublist (wscs list) := by
    refine List.Sublist.filter _ ?_
    rw [found]
    split
    · exact List.Sublist.refl list
    · exact List.dropLast_sublist list
  exact hsub.eq_of_length_le ((wscs_found_length_iff list).mpr hlast)

theorem mem_wscs {list : List wire_tlv} {tlv : wire_tlv} : tlv ∈ wscs list ↔ tlv ∈ list ∧ tlv.IsWsc := by
  rw [wscs, List.mem_filter, decide_eq_true_iff]

variable {list list' : List wire_tlv}

theorem Reordered.refl (list : List wire_tlv) : Reordered list list := ⟨rfl, rfl, .refl _⟩

theorem Reordered.perm (h : Reordered list list') : list'.Perm list := by
  have hsplit := List.filter_append_perm (fun tlv => decide tlv.IsWsc) list'
  refine hsplit.symm.trans (.trans ?_ (List.filter_append_perm (fun tlv => decide tlv.IsWsc) list))
  rw [h.others]
  exact h.wscs.append_right _

theorem Reordered.wire_length (h : Reordered list list') : (wire list').length = (wire list).length := by
  have hsizes : (list'.map fun tlv => tlv.bytes.length).Perm (list.map fun tlv => tlv.bytes.length) :=
    h.perm.map _
  rw [wire, wire, List.length_flatten, List.length_flatten, List.map_map, List.map_map]
  exact hsizes.sum_eq

/-- The WSC TLVs of a message can be put into any order. -/
theorem exists_reordered (list : List wire_tlv) {order : List wire_tlv}
    (horder : order.length = (wscs list).length) (hwsc : ∀ tlv ∈ order, tlv.IsWsc) :
    ∃ list', list'.map wire_tlv.type = list.map wire_tlv.type ∧
      (list'.filter fun tlv => !decide tlv.IsWsc) = (list.filter fun tlv => !decide tlv.IsWsc) ∧
      wscs list' = order := by
  induction list generalizing order with
  | nil =>
    refine ⟨[], rfl, rfl, ?_⟩
    exact (List.length_eq_zero_iff.mp horder).symm
  | cons tlv rest ih =>
    by_cases htlv : tlv.IsWsc
    · rw [wscs_cons, if_pos htlv, List.length_cons] at horder
      obtain ⟨first, order, rfl⟩ := List.exists_cons_of_length_eq_add_one horder
      have hfirst := hwsc first (List.mem_cons_self ..)
      obtain ⟨rest', htypes, hothers, hwscs⟩ :=
        ih (Nat.succ.inj horder) fun t ht => hwsc t (List.mem_cons_of_mem first ht)
      refine ⟨first :: rest', ?_, ?_, ?_⟩
      · rw [List.map_cons, List.map_cons, htypes, hfirst, htlv]
      · rw [List.filter_cons_of_neg (by simpa using hfirst),
          List.filter_cons_of_neg (by simpa using htlv), hothers]
      · rw [wscs_cons, if_pos hfirst, hwscs]
    · rw [wscs_cons, if_neg htlv] at horder
      obtain ⟨rest', htypes, hothers, hwscs⟩ := ih horder hwsc
      refine ⟨tlv :: rest', ?_, ?_, ?_⟩
      · rw [List.map_cons, List.map_cons, htypes]
      · rw [List.filter_cons_of_pos (by simpa using htlv),
          List.filter_cons_of_pos (by simpa using htlv), hothers]
      · rw [wscs_cons, if_neg htlv, hwscs]

/-- Any WSC TLV can be the first. -/
theorem exists_reordered_first {tlv : wire_tlv} (htlv : tlv ∈ wscs list) :
    ∃ list' rest, Reordered list list' ∧ wscs list' = tlv :: rest := by
  obtain ⟨before, after, hsplit⟩ := List.append_of_mem htlv
  have hperm : (tlv :: (before ++ after)).Perm (wscs list) := by
    rw [hsplit]
    exact List.perm_middle.symm
  obtain ⟨list', htypes, hothers, hwscs⟩ := exists_reordered list hperm.length_eq
    fun t ht => (mem_wscs.mp (hperm.subset ht)).2
  exact ⟨list', _, ⟨htypes, hothers, by rw [hwscs]; exact hperm⟩, hwscs⟩

/-- Whether the WSC TLVs can be read does not depend on their order. -/
theorem Readable.reordered (h : Readable list) (horder : Reordered list list') : Readable list' := by
  have hmem : ∀ tlv ∈ wscs list', tlv ∈ wscs list := fun tlv htlv => horder.wscs.subset htlv
  refine ⟨fun tlv htlv => h.values tlv (hmem tlv htlv), fun hmany tlv htlv => ?_, ?_⟩
  · rw [horder.wscs.length_eq] at hmany
    exact h.long hmany tlv (hmem tlv htlv)
  · intro last hlast hwsc hempty
    have hin : last ∈ wscs list' := mem_wscs.mpr ⟨List.mem_of_getLast? hlast, hwsc⟩
    by_cases hmany : 1 < (wscs list).length
    · have hlong := h.long hmany last (hmem last hin)
      rw [hempty] at hlong
      exact absurd hlong (by decide)
    · -- the only WSC TLV stands where it stood
      have htype : list.getLast?.map wire_tlv.type = some last.type := by
        rw [← List.getLast?_map, ← horder.types, List.getLast?_map, hlast]
        rfl
      obtain ⟨tlv, htlv, hsame⟩ := Option.map_eq_some_iff.mp htype
      have htlvWsc : tlv.IsWsc := hsame.trans hwsc
      have hmem' : tlv ∈ wscs list := mem_wscs.mpr ⟨List.mem_of_getLast? htlv, htlvWsc⟩
      have heq : tlv = last := by
        obtain ⟨only, honly⟩ := List.length_eq_one_iff.mp
          (Nat.le_antisymm (not_lt.mp hmany) (List.length_pos_of_mem hmem'))
        have hone := hmem last hin
        rw [honly, List.mem_singleton] at hmem' hone
        rw [hmem', hone]
      exact h.last tlv htlv htlvWsc (by rw [heq, hempty])

theorem isNode_map (list : List wire_tlv) :
    List.Forall₂ (fun pstWsc tlv => IsNode pstWsc tlv.value)
      (list.map fun tlv => parsed 1 tlv.node) list :=
  List.forall₂_map_left_iff.mpr (List.forall₂_same.mpr fun tlv _ => isNode_parsed tlv)

variable {hdr : List UInt8}

/-- A message whose WSC TLVs can be read is looked at in full. -/
theorem looked_of_readable (h : Readable list) (w : process) (more : List UInt8)
    (hhdr : hdr.length = sizeof_cmdu_raw_msg) (hint : (hdr ++ wire list).length ≤ INT_MAX) :
    cfgmgr_parse_wsc_looked w (hdr ++ wire list ++ more) (hdr ++ wire list).length =
      ok ((wscs list).foldl process.configureNamed w,
        (wscs list).map fun tlv => parsed 1 tlv.node) := by
  rw [cfgmgr_parse_wsc_looked_eq w more hhdr hint, wscs_found h.last]
  exact scan_readable (isNode_map _) h.values h.long w

/-- A message that is looked at in full. -/
theorem scan_of_looked {w w' : process} {more : List UInt8} {looked : List KamiTlv_S}
    (hhdr : hdr.length = sizeof_cmdu_raw_msg) (hint : (hdr ++ wire list).length ≤ INT_MAX)
    (h : cfgmgr_parse_wsc_looked w (hdr ++ wire list ++ more) (hdr ++ wire list).length =
      ok (w', looked)) (hall : looked.map KamiTlv_S.value = (wscs list).map wire_tlv.value) :
    (∀ tlv ∈ list.getLast?, tlv.IsWsc → tlv.value ≠ []) ∧
      scan ((wscs list).map fun tlv => parsed 1 tlv.node) w =
        ok (w', (wscs list).map fun tlv => parsed 1 tlv.node) := by
  rw [cfgmgr_parse_wsc_looked_eq w more hhdr hint] at h
  have hpre := scan_prefix h
  have hlength := congrArg List.length hall
  rw [List.length_map, List.length_map] at hlength
  have hle := hpre.length_le
  rw [List.length_map, hlength] at hle
  have hlast := (wscs_found_length_iff list).mp hle
  rw [wscs_found hlast] at h hpre
  rw [hpre.eq_of_length (by rw [hlength, List.length_map])] at h
  exact ⟨hlast, h⟩

/-- The parse of an M2 looks at every WSC TLV, configures the radios they name
and is the same for every order of them exactly when all of them can be read. -/
theorem parses_every_wsc_iff (w : process) (more : List UInt8) (list : List wire_tlv)
    (hhdr : hdr.length = sizeof_cmdu_raw_msg) (hint : (hdr ++ wire list).length ≤ INT_MAX) :
    ParsesEveryWsc w hdr more list ↔ Readable list := by
  have hsize : ∀ list', Reordered list list' → (hdr ++ wire list').length ≤ INT_MAX := by
    intro list' horder
    rw [List.length_append, horder.wire_length, ← List.length_append]
    exact hint
  constructor
  · rintro ⟨w', _, hparses⟩
    have hscan : ∀ list', Reordered list list' →
        (∀ tlv ∈ list'.getLast?, tlv.IsWsc → tlv.value ≠ []) ∧
          scan ((wscs list').map fun tlv => parsed 1 tlv.node) w =
            ok (w', (wscs list').map fun tlv => parsed 1 tlv.node) := by
      intro list' horder
      obtain ⟨_, looked, hlooked, hall⟩ := hparses list' horder
      exact scan_of_looked hhdr (hsize list' horder) hlooked hall
    have hfirst : ∀ tlv ∈ wscs list, IsWscValue tlv.value ∧
        (1 < (wscs list).length → 4 ≤ tlv.value.length) := by
      intro tlv htlv
      obtain ⟨list', rest, horder, hwscs⟩ := exists_reordered_first htlv
      have hrun := (hscan list' horder).2
      rw [hwscs, List.map_cons] at hrun
      obtain ⟨hreturns, hnone⟩ := scan_first hrun
      refine ⟨isWscValue_of_returns (isNode_parsed tlv) hreturns, fun hmany => ?_⟩
      by_contra hshort
      refine hnone ?_ (wsc_radio_short (isNode_parsed tlv) (by omega))
      intro hnil
      rw [← horder.wscs.length_eq, hwscs, List.length_cons, List.map_eq_nil_iff.mp hnil] at hmany
      exact absurd hmany (by decide)
    exact ⟨fun tlv htlv => (hfirst tlv htlv).1, fun hmany tlv htlv => (hfirst tlv htlv).2 hmany,
      (hscan list (.refl list)).1⟩
  · intro h
    refine ⟨(wscs list).foldl process.configureNamed w, foldl_configureNamed_states _ w, ?_⟩
    intro list' horder
    have hlooked := looked_of_readable (h.reordered horder) w more hhdr (hsize list' horder)
    rw [foldl_configureNamed_perm horder.wscs] at hlooked
    refine ⟨?_, _, hlooked, ?_⟩
    · rw [← cfgmgr_parse_wsc_looked_fst, hlooked, map_ok]
    · rw [List.map_map]
      rfl

/-- A WSC TLV with an RF band of `0x02`. -/
def wsc_5g : wire_tlv := ⟨0x11, [0x10, 0x3c, 0x00, 0x01, 0x02], by decide⟩

/-- A WSC TLV with another attribute and then an RF band of `0x01`. -/
def wsc_24g : wire_tlv :=
  ⟨0x11, [0x10, 0x4a, 0x00, 0x01, 0x10, 0x10, 0x3c, 0x00, 0x01, 0x01], by decide⟩

/-- A WSC TLV that is too short for an attribute. -/
def wsc_short : wire_tlv := ⟨0x11, [0x10], by decide⟩

/-- An M2 for both radios, with another TLV between its WSC TLVs. -/
theorem parses_every_wsc_two :
    ParsesEveryWsc started (List.replicate 22 0) [] [wsc_5g, ⟨0x00, [], Nat.zero_le _⟩, wsc_24g] ∧
      Named [wsc_5g, wsc_24g] 0 ∧ Named [wsc_5g, wsc_24g] 1 := by
  have h5g : IsWscValue wsc_5g.value :=
    ⟨@CompleteTlvs.tlv 2 [0x10, 0x3c] [0x02] [] 0x00 0x01 rfl rfl (.stop (by decide)), by decide⟩
  have h24g : IsWscValue wsc_24g.value :=
    ⟨@CompleteTlvs.tlv 2 [0x10, 0x4a] [0x10] _ 0x00 0x01 rfl rfl
      (@CompleteTlvs.tlv 2 [0x10, 0x3c] [0x01] [] 0x00 0x01 rfl rfl (.stop (by decide))), by decide⟩
  refine ⟨(parses_every_wsc_iff started [] _ rfl (by unfold INT_MAX; decide)).mpr ⟨?_, ?_, ?_⟩, by decide, by decide⟩
  · exact List.forall_mem_cons.mpr ⟨h5g, List.forall_mem_singleton.mpr h24g⟩
  · exact fun _ => List.forall_mem_cons.mpr ⟨by decide, List.forall_mem_singleton.mpr (by decide)⟩
  · decide

/-- A WSC TLV that cannot be parsed hides the one behind it, which names the 5G radio. -/
theorem short_wsc_hides_next :
    ¬ ParsesEveryWsc started (List.replicate 22 0) [] [wsc_short, wsc_5g] := by
  rintro ⟨w', hstates, hparses⟩
  have hparse := (hparses _ (.refl _)).1
  have hnamed : w'.conf_state 1 = .AUTOCONF_CONFIGURED := (hstates 1).trans (if_pos (by decide))
  have hleft : (fun w : process => w.conf_state 1) <$>
      cfgmgr_parse_autoconfiguration_wsc started
        (List.replicate 22 0 ++ wire [wsc_short, wsc_5g] ++ [])
        (List.replicate 22 0 ++ wire [wsc_short, wsc_5g]).length = ok .AUTOCONF_UNCONFIGURED := by
    decide +kernel
  rw [hparse, map_ok, hnamed] at hleft
  cases hleft

end Order

end easymesh.cfg_mgr
