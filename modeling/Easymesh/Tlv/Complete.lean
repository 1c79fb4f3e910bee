import Easymesh.Tlv.Parser

open Lib Lib.Result

namespace easymesh.tlv_parser

/-- Bytes that hold whole TLVs up to where the parser stops: it ignores what is
no longer than one header. -/
inductive CompleteTlvs (len : Nat) : List UInt8 → Prop
  | stop {bs : List UInt8} (hshort : bs.length ≤ len + 2) : CompleteTlvs len bs
  | tlv {type value rest : List UInt8} {hi lo : UInt8} (htype : type.length = len)
      (hvalue : value.length = 256 * hi.toNat + lo.toNat) (hrest : CompleteTlvs len rest) :
      CompleteTlvs len (type ++ hi :: lo :: (value ++ rest))

/-- Memory that holds whole TLVs for as far as a length goes: the parser does not
look at the last bytes when they are no longer than one header. -/
inductive TlvsWithin (len : Nat) : List UInt8 → Nat → Prop
  | stop {bs : List UInt8} {n : Nat} (hshort : n ≤ len + 2) : TlvsWithin len bs n
  | tlv {type value rest : List UInt8} {hi lo : UInt8} {n : Nat} (htype : type.length = len)
      (hvalue : value.length = 256 * hi.toNat + lo.toNat) (hrest : TlvsWithin len rest n) :
      TlvsWithin len (type ++ hi :: lo :: (value ++ rest)) (len + 2 + value.length + n)

/-- What a caller of the parser relies on: it returns after reading nothing
outside `mem`, and a negative length is an empty object. -/
def ParsesInside (mem : List UInt8) (iLength : Int) (len : Nat) : Prop :=
  if 0 ≤ iLength then (Kami_Tlv_ParseObject mem iLength len).Returns
  else Kami_Tlv_ParseObject mem iLength len = ok none

/-- Bytes that are long enough for a header begin with one. -/
theorem header_split {len : Nat} {bs : List UInt8} (hlong : len + 2 ≤ bs.length) :
    ∃ type hi lo rest, bs = type ++ hi :: lo :: rest ∧ type.length = len := by
  obtain ⟨hi, lo, rest, hdrop⟩ : ∃ hi lo rest, bs.drop len = hi :: lo :: rest := by
    have hlen : (bs.drop len).length = bs.length - len := List.length_drop
    match hbs : bs.drop len with
    | [] | [_] =>
      rw [hbs] at hlen
      simp at hlen
      omega
    | hi :: lo :: rest => exact ⟨hi, lo, rest, rfl⟩
  refine ⟨bs.take len, hi, lo, rest, ?_, by simp; omega⟩
  rw [← hdrop, List.take_append_drop]

/-- More than a header is announced: then there is one. -/
theorem TlvsWithin.header {len n : Nat} {bs : List UInt8} (h : TlvsWithin len bs n)
    (hlong : len + 2 < n) : len + 2 ≤ bs.length := by
  cases h with
  | stop hshort => omega
  | tlv htype hvalue hrest =>
    simp only [List.length_append, List.length_cons, htype]
    omega

theorem tlvsWithin_header_iff {len n : Nat} {type rest : List UInt8} {hi lo : UInt8}
    (htype : type.length = len) (hlong : len + 2 < n) :
    TlvsWithin len (type ++ hi :: lo :: rest) n ↔
      256 * hi.toNat + lo.toNat ≤ rest.length ∧ len + 2 + (256 * hi.toNat + lo.toNat) ≤ n ∧
        TlvsWithin len (rest.drop (256 * hi.toNat + lo.toNat))
          (n - (len + 2 + (256 * hi.toNat + lo.toNat))) := by
  constructor
  · intro h
    generalize hbs : type ++ hi :: lo :: rest = bs at h
    cases h with
    | stop hshort => omega
    | @tlv type' value rest' hi' lo' m htype' hvalue hrest' =>
      obtain ⟨rfl, htail⟩ := List.append_inj hbs (htype.trans htype'.symm)
      simp only [List.cons.injEq] at htail
      obtain ⟨rfl, rfl, rfl⟩ := htail
      rw [← hvalue, List.drop_left, Nat.add_sub_cancel_left]
      exact ⟨by simp, by omega, hrest'⟩
  · rintro ⟨hle, hn, hrest⟩
    have hlength : (rest.take (256 * hi.toNat + lo.toNat)).length = 256 * hi.toNat + lo.toNat :=
      List.length_take_of_le hle
    have hwhole := @TlvsWithin.tlv _ _ _ _ hi lo _ htype hlength hrest
    rw [List.take_append_drop, hlength, Nat.add_sub_cancel' hn] at hwhole
    exact hwhole

theorem completeTlvs_iff {len : Nat} {bs : List UInt8} :
    CompleteTlvs len bs ↔ TlvsWithin len bs bs.length := by
  constructor
  · intro h
    induction h with
    | stop hshort => exact .stop hshort
    | @tlv type value rest hi lo htype hvalue _ ih =>
      have hlength : (type ++ hi :: lo :: (value ++ rest)).length =
          len + 2 + value.length + rest.length := by
        simp only [List.length_append, List.length_cons, htype]
        omega
      rw [hlength]
      exact .tlv htype hvalue ih
  · intro h
    generalize hn : bs.length = n at h
    induction h with
    | stop hshort => exact .stop (hn ▸ hshort)
    | tlv htype hvalue _ ih =>
      simp only [List.length_append, List.length_cons, htype] at hn
      exact .tlv htype hvalue (ih (by omega))

theorem readU16_at {mem rest : List UInt8} {off : Int} {hi lo : UInt8} (hoff : 0 ≤ off)
    (hmem : mem.drop off.toNat = hi :: lo :: rest) :
    readU16 mem off = ok (UInt16.ofNat (leNat [hi, lo])) := by
  have hlen := congrArg List.length hmem
  simp only [List.length_drop, List.length_cons] at hlen
  rw [readU16, readBytes_of_le hoff (by omega), hmem]
  rfl

theorem big2littles_len_eq (hi lo : UInt8) :
    big2littles_len (UInt16.ofNat (leNat [hi, lo])) = UInt16.ofNat (256 * hi.toNat + lo.toNat) := by
  rw [← big2littles_len_toNat, UInt16.ofNat_toNat]

/-- What the parser makes of a type field. -/
def read_type : List UInt8 → tlv_type
  | [lo] => lo.toInt8.toInt16.toUInt16
  | [hi, lo] => UInt16.ofNat (256 * hi.toNat + lo.toNat)
  | _ => 0

theorem toUInt8_leNat (lo hi : UInt8) : (UInt16.ofNat (leNat [lo, hi])).toUInt8 = lo := by
  have hlo := lo.toNat_lt
  have hhi := hi.toNat_lt
  apply UInt8.toNat_inj.mp
  rw [UInt16.toNat_toUInt8, leNat_pair, UInt16.toNat_ofNat_of_lt' (by rw [UInt16.size]; omega)]
  omega

/-- The type field is read two bytes wide also for one-byte types. -/
theorem readU16_type {mem type rest : List UInt8} {off len : Nat} {hi lo : UInt8}
    (hlen : len = 1 ∨ len = 2) (htype : type.length = len)
    (hmem : mem.drop off = type ++ hi :: lo :: rest) :
    ∃ be, readU16 mem off = ok be ∧ big2littles_type be len = ok (read_type type) := by
  rcases hlen with rfl | rfl
  · obtain ⟨a, rfl⟩ := List.length_eq_one_iff.mp htype
    refine ⟨_, readU16_at (Int.natCast_nonneg off) hmem, ?_⟩
    rw [big2littles_type, if_neg (by decide), if_pos rfl, toUInt8_leNat]
    rfl
  · obtain ⟨a, b, rfl⟩ := List.length_eq_two.mp htype
    refine ⟨_, readU16_at (Int.natCast_nonneg off) hmem, ?_⟩
    rw [big2littles_type, if_pos rfl]
    exact congrArg ok (big2littles_len_eq a b)

/-- One turn of the loop at a header that is not the end of the bytes. -/
theorem loop_header {mem type rest : List UInt8} {off len n : Nat} {hi lo : UInt8} (fuel : Nat)
    (root : KamiTlv_S) (hlen : len = 1 ∨ len = 2) (htype : type.length = len)
    (hlong : len + 2 < n - off) (hmem : mem.drop off = type ++ hi :: lo :: rest)
    (hint : n ≤ INT_MAX) :
    Kami_Tlv_ParseObject.loop mem n len (fuel + 1) off root =
      Kami_Tlv_AddTlvToObject root (read_type type) (UInt16.ofNat (256 * hi.toNat + lo.toNat)) mem
          (off + len + 2 : Nat) len >>=
        Kami_Tlv_ParseObject.loop mem n len fuel
          (wrap32 ((off + len + 2 : Nat) + (256 * hi.toNat + lo.toNat : Nat))) := by
  unfold INT_MAX at hint
  have hremain : len + 2 < toSize (wrap32 ((n : Int) - off)) := by
    rw [wrap32_eq (by omega) (by omega)]
    have := toSize_of_nonneg (x := (n : Int) - off) (by omega) (by omega)
    omega
  have hnext : wrap32 ((off : Int) + len) = (off + len : Nat) := by
    rw [wrap32_eq (by omega) (by omega)]
    exact (Int.natCast_add off len).symm
  have hvalue : wrap32 (((off + len : Nat) : Int) + 2) = (off + len + 2 : Nat) := by
    rw [wrap32_eq (by omega) (by omega)]
    exact (Int.natCast_add (off + len) 2).symm
  obtain ⟨be, hbe, husType⟩ := readU16_type hlen htype hmem
  have hlength : readU16 mem (off + len : Nat) = ok (UInt16.ofNat (leNat [hi, lo])) := by
    have hdrop : mem.drop (off + len) = hi :: lo :: rest := by
      rw [← List.drop_drop, hmem, ← htype, List.drop_left]
    exact readU16_at (Int.natCast_nonneg _) hdrop
  rw [Kami_Tlv_ParseObject.loop, if_pos hremain]
  simp only [hbe, hnext, hlength, husType, ok_bind, big2littles_len_eq]
  have hnat : (UInt16.ofNat (256 * hi.toNat + lo.toNat)).toNat = 256 * hi.toNat + lo.toNat := by
    rw [← big2littles_len_eq, big2littles_len_toNat]
  rw [hnat, hvalue]

/-- The loop stops where no more than a header is left. -/
theorem loop_stop {mem : List UInt8} {len off n : Nat} (fuel : Nat) (root : KamiTlv_S)
    (hint : n ≤ INT_MAX) (hoff : off ≤ n) (hshort : n - off ≤ len + 2) :
    Kami_Tlv_ParseObject.loop mem n len (fuel + 1) off root = ok root := by
  unfold INT_MAX at hint
  have hstop : ¬ len + 2 < toSize (wrap32 ((n : Int) - off)) := by
    rw [wrap32_eq (by omega) (by omega)]
    have := toSize_of_nonneg (x := (n : Int) - off) (by omega) (by omega)
    omega
  rw [Kami_Tlv_ParseObject.loop, if_neg hstop]

/-- Copying the value fails when the header announces more than what is left. -/
theorem Kami_Tlv_AddTlvToObject_returns_iff {mem rest : List UInt8} {off n : Nat} (len : Nat)
    (root : KamiTlv_S) (usType : tlv_type) (hmem : mem.drop off = rest) (hrest : off ≤ mem.length)
    (hn : n < 65536) :
    (∃ root', Kami_Tlv_AddTlvToObject root usType (UInt16.ofNat n) mem off len = ok root') ↔
      n ≤ rest.length := by
  have hsize := congrArg List.length hmem
  rw [List.length_drop] at hsize
  have hnat : (UInt16.ofNat n).toNat = n := UInt16.toNat_ofNat_of_lt' (by rw [UInt16.size]; omega)
  unfold Kami_Tlv_AddTlvToObject Kami_Tlv_CreateTlv
  rw [hnat]
  constructor
  · rintro ⟨root', hadd⟩
    obtain ⟨item, hitem, _⟩ := bind_eq_ok_iff.mp hadd
    obtain ⟨value, hvalue, _⟩ := bind_eq_ok_iff.mp hitem
    rcases Nat.eq_zero_or_pos n with rfl | hpos
    · exact Nat.zero_le _
    · obtain ⟨_, hle, _⟩ := readBytes_eq_ok hpos hvalue
      omega
  · intro hle
    rw [readBytes_of_le (by omega) (by omega)]
    exact ⟨_, rfl⟩

/-- Where the length is no longer ahead of the offset, the loop goes on. -/
theorem past_goes_on {iLength off : Int} {len : Nat} (hlen : len = 1 ∨ len = 2)
    (hlength : 0 ≤ iLength ∧ iLength ≤ 2147483647) (hlo : -2147483648 ≤ off)
    (hhi : off ≤ 2147483647) (hpast : iLength < off ∨ off < -65535) :
    len + 2 < toSize (wrap32 (iLength - off)) := by
  have hsize : wrap32 (iLength - off) < 0 ∨ 65535 < wrap32 (iLength - off) := by
    unfold wrap32
    omega
  have hlo := wrap32_lo (iLength - off)
  have hhi := wrap32_hi (iLength - off)
  generalize wrap32 (iLength - off) = diff at hsize hlo hhi
  rcases hsize with hneg | hpos
  · have := toSize_of_neg hlo hneg
    omega
  · have := toSize_of_nonneg (x := diff) (by omega) (by omega)
    omega

/-- One turn of a loop that returns: the header and the value are read from the
memory, and the loop returns from behind them. -/
theorem loop_turn {mem : List UInt8} {iLength off : Int} {len fuel : Nat} {pstRoot pstRoot' : KamiTlv_S}
    (hlong : len + 2 < toSize (wrap32 (iLength - off)))
    (h : Kami_Tlv_ParseObject.loop mem iLength len (fuel + 1) off pstRoot = ok pstRoot') :
    ∃ be ul type root₁, readU16 mem off = ok be ∧ readU16 mem (wrap32 (off + len)) = ok ul ∧
      big2littles_type be len = ok type ∧
      Kami_Tlv_AddTlvToObject pstRoot type (big2littles_len ul) mem
        (wrap32 (wrap32 (off + len) + 2)) len = ok root₁ ∧
      Kami_Tlv_ParseObject.loop mem iLength len fuel
        (wrap32 (wrap32 (wrap32 (off + len) + 2) + (big2littles_len ul).toNat)) root₁ =
          ok pstRoot' := by
  rw [Kami_Tlv_ParseObject.loop, if_pos hlong] at h
  obtain ⟨be, hbe, h⟩ := bind_eq_ok_iff.mp h
  obtain ⟨ul, hul, h⟩ := bind_eq_ok_iff.mp h
  obtain ⟨type, htype, h⟩ := bind_eq_ok_iff.mp h
  obtain ⟨root₁, hadd, h⟩ := bind_eq_ok_iff.mp h
  exact ⟨be, ul, type, root₁, hbe, hul, htype, hadd, h⟩

/-- A value that is copied lies inside the memory. -/
theorem Kami_Tlv_AddTlvToObject_inside {mem : List UInt8} {off : Int} {len : Nat}
    {root root' : KamiTlv_S} {usType : tlv_type} {usLength : tlv_len}
    (h : Kami_Tlv_AddTlvToObject root usType usLength mem off len = ok root') :
    usLength.toNat = 0 ∨ (0 ≤ off ∧ off.toNat + usLength.toNat ≤ mem.length) := by
  obtain ⟨item, hitem, _⟩ := bind_eq_ok_iff.mp h
  obtain ⟨value, hvalue, _⟩ := bind_eq_ok_iff.mp hitem
  rcases Nat.eq_zero_or_pos usLength.toNat with hzero | hpos
  · exact .inl hzero
  · obtain ⟨hnonneg, hle, _⟩ := readBytes_eq_ok hpos hvalue
    exact .inr ⟨hnonneg, hle⟩

/-- Where a turn leaves the offset: behind the value, unless the `int` overflows. -/
theorem turn_offset {mem : List UInt8} {off : Int} {len : Nat} {root root' : KamiTlv_S}
    {usType : tlv_type} {ul be be' : UInt16} (hlen : len = 1 ∨ len = 2) (hhi : off ≤ 2147483647)
    (hfirst : readU16 mem off = ok be) (hsecond : readU16 mem (wrap32 (off + len)) = ok be')
    (hadd : Kami_Tlv_AddTlvToObject root usType ul mem (wrap32 (wrap32 (off + len) + 2)) len =
      ok root') :
    let next := wrap32 (wrap32 (wrap32 (off + len) + 2) + ul.toNat)
    0 ≤ off ∧ (next < -65535 ∨
      (wrap32 (off + len) = off + len ∧ wrap32 (off + len + 2) = off + len + 2 ∧
        next = off + len + 2 + ul.toNat)) := by
  obtain ⟨hpos, _⟩ := readU16_inside hfirst
  obtain ⟨hpos₁, _⟩ := readU16_inside hsecond
  have hul := ul.toNat_lt
  have hin := Kami_Tlv_AddTlvToObject_inside hadd
  have hone : wrap32 (off + len) = off + len := by
    unfold wrap32 at hpos₁ ⊢
    omega
  rw [hone] at hin ⊢
  intro next
  refine ⟨hpos, ?_⟩
  have htwo : wrap32 (off + len + 2) = off + len + 2 ∨ wrap32 (off + len + 2) < -2147483640 := by
    unfold wrap32
    omega
  rcases htwo with htwo | htwo
  · have hthree : next = off + len + 2 + ul.toNat ∨ next < -65535 := by
      simp only [next, htwo]
      unfold wrap32
      omega
    rcases hthree with heq | hneg
    · exact .inr ⟨rfl, htwo, heq⟩
    · exact .inl hneg
  · refine .inl ?_
    have hlo := wrap32_lo (off + len + 2)
    rcases hin with hzero | ⟨hnonneg, _⟩
    · simp only [next, hzero]
      rw [wrap32_eq (by omega) (by omega)]
      omega
    · omega

/-- Behind its length the parser does not return: it goes on until it leaves the memory. -/
theorem loop_past {mem : List UInt8} {iLength off : Int} {len fuel : Nat}
    {pstRoot pstRoot' : KamiTlv_S} (hlength : 0 ≤ iLength ∧ iLength ≤ 2147483647)
    (hlo : -2147483648 ≤ off) (hhi : off ≤ 2147483647) (hpast : iLength < off ∨ off < -65535)
    (hlen : len = 1 ∨ len = 2) :
    Kami_Tlv_ParseObject.loop mem iLength len fuel off pstRoot ≠ ok pstRoot' := by
  induction fuel generalizing off pstRoot with
  | zero => exact nofun
  | succ fuel ih =>
    intro h
    obtain ⟨be, ul, type, root₁, hbe, hul, _, hadd, hrest⟩ :=
      loop_turn (past_goes_on hlen hlength hlo hhi hpast) h
    obtain ⟨hpos, hnext⟩ := turn_offset hlen hhi hbe hul hadd
    refine ih (wrap32_lo _) (wrap32_hi _) ?_ hrest
    rcases hnext with hneg | ⟨_, _, heq⟩
    · exact .inr hneg
    · rw [heq]
      omega

/-- The loop of the parser returns exactly on whole TLVs. It ends there because
every turn moves the offset forward inside the bytes. -/
theorem loop_returns_iff {mem : List UInt8} {len n : Nat} (hlen : len = 1 ∨ len = 2)
    (hint : mem.length ≤ INT_MAX) (hn : n ≤ INT_MAX) (fuel off : Nat) (root : KamiTlv_S)
    (hoff : off ≤ n) (hfuel : mem.length - off < fuel) :
    (Kami_Tlv_ParseObject.loop mem n len fuel off root).Returns ↔
      TlvsWithin len (mem.drop off) (n - off) := by
  induction fuel generalizing off root with
  | zero => omega
  | succ fuel ih =>
    have hdrop : (mem.drop off).length = mem.length - off := List.length_drop
    by_cases hlong : len + 2 < n - off
    · by_cases hhead : len + 2 ≤ (mem.drop off).length
      · obtain ⟨type, hi, lo, rest, hsplit, htype⟩ := header_split hhead
        have hturn := loop_header fuel root hlen htype hlong hsplit hn
        rw [hturn, hsplit, tlvsWithin_header_iff htype hlong]
        have hsize := congrArg List.length hsplit
        simp only [List.length_append, List.length_cons, htype] at hsize
        have hmem : mem.drop (off + len + 2) = rest := by
          have hpre : mem.drop (off + (len + 2)) = (type ++ hi :: lo :: rest).drop (len + 2) := by
            rw [← List.drop_drop, hsplit]
          rw [Nat.add_assoc, hpre, ← htype, ← List.drop_drop, List.drop_left]
          rfl
        have hhi := hi.toNat_lt
        have hlo := lo.toNat_lt
        have hadd := Kami_Tlv_AddTlvToObject_returns_iff (n := 256 * hi.toNat + lo.toNat)
          len root (read_type type) hmem (by omega) (by omega)
        unfold INT_MAX at hint hn
        by_cases hfit : 256 * hi.toNat + lo.toNat ≤ rest.length
        · obtain ⟨root', hroot'⟩ := hadd.mpr hfit
          have hless : mem.length - (off + len + 2 + (256 * hi.toNat + lo.toNat)) < fuel := by omega
          have hlast : off + len + 2 + (256 * hi.toNat + lo.toNat) ≤ 2147483647 := by omega
          have hnext : wrap32 ((off + len + 2 : Nat) + (256 * hi.toNat + lo.toNat : Nat)) =
              (off + len + 2 + (256 * hi.toNat + lo.toNat) : Nat) := by
            rw [wrap32_eq (by omega) (by omega)]
            exact (Int.natCast_add _ _).symm
          rw [hroot', ok_bind, hnext]
          clear hnext
          by_cases hin : len + 2 + (256 * hi.toNat + lo.toNat) ≤ n - off
          · have hleft : n - (off + len + 2 + (256 * hi.toNat + lo.toNat)) =
                n - off - (len + 2 + (256 * hi.toNat + lo.toNat)) := by omega
            rw [ih _ root' (by omega) hless, ← List.drop_drop, hmem, hleft]
            exact ⟨fun h => ⟨hfit, hin, h⟩, fun h => h.2.2⟩
          · -- the value ends behind the length
            refine iff_of_false ?_ fun h => hin h.2.1
            have hpast : (n : Int) < (off + len + 2 + (256 * hi.toNat + lo.toNat) : Nat) := by omega
            rintro ⟨root'', hroot''⟩
            exact loop_past ⟨by omega, by omega⟩ (by omega) (by omega) (.inl hpast) hlen hroot''
        · constructor
          · rintro ⟨value, hvalue⟩
            obtain ⟨root', hroot', _⟩ := bind_eq_ok_iff.mp hvalue
            exact absurd (hadd.mp ⟨root', hroot'⟩) hfit
          · rintro ⟨hle, _⟩
            exact absurd hle hfit
      · -- the memory ends inside the header
        refine iff_of_false ?_ fun h => hhead (h.header hlong)
        rintro ⟨root', hroot'⟩
        have hsize : len + 2 < toSize (wrap32 ((n : Int) - off)) := by
          unfold INT_MAX at hn
          rw [wrap32_eq (by omega) (by omega)]
          have := toSize_of_nonneg (x := (n : Int) - off) (by omega) (by omega)
          omega
        obtain ⟨be, ul, type, root₁, _, hul, _⟩ := loop_turn hsize hroot'
        have hnext : wrap32 ((off : Int) + len) = (off + len : Nat) := by
          clear hroot' hul hsize
          unfold INT_MAX at hn
          rw [wrap32_eq (by omega) (by omega)]
          exact (Int.natCast_add off len).symm
        rw [hnext] at hul
        obtain ⟨_, hinside⟩ := readU16_inside hul
        rw [Int.toNat_natCast] at hinside
        clear hnext hsize hroot'
        omega
    · rw [loop_stop fuel root hn hoff (by omega)]
      exact iff_of_true (returns_ok root) (.stop (by omega))

theorem Kami_Tlv_AddTlvToObject_ne_div (root : KamiTlv_S) (usType : tlv_type) (usLength : tlv_len)
    (mem : List UInt8) (pValue : Int) (len : Nat) :
    Kami_Tlv_AddTlvToObject root usType usLength mem pValue len ≠ div := by
  intro hdiv
  rcases bind_eq_div_iff.mp hdiv with hitem | ⟨item, _, hitem⟩
  · rcases bind_eq_div_iff.mp hitem with hvalue | ⟨value, _, hvalue⟩
    · exact readBytes_ne_div _ _ _ hvalue
    · cases hvalue
  · cases hitem

theorem big2littles_type_width {be type : tlv_type} {len : Nat}
    (h : big2littles_type be len = ok type) : len = 1 ∨ len = 2 := by
  unfold big2littles_type at h
  split at h
  · exact .inr ‹_›
  · split at h
    · exact .inl ‹_›
    · cases h

theorem big2littles_type_ne_div (be : tlv_type) (len : Nat) : big2littles_type be len ≠ div := by
  unfold big2littles_type
  split
  · simp
  · split <;> simp

/-- An `int` offset that a header or a value is added to is later than before,
or so far below zero that no value brings it back. -/
theorem wrap32_add_later {off : Int} {n : Nat} (hlo : 0 ≤ off) (hhi : off ≤ 2147483647)
    (hn : n ≤ 65535) : off + n ≤ wrap32 (off + n) ∨ wrap32 (off + n) < -65535 := by
  rcases Int.lt_or_le 2147483647 (off + n) with hbig | hsmall
  · refine .inr ?_
    unfold wrap32
    omega
  · exact .inl (by rw [wrap32_eq (by omega) hsmall])

theorem loop_negative_ne_div (mem : List UInt8) (iLength : Int) (len fuel : Nat) {off : Int}
    (root : KamiTlv_S) (hneg : off < 0) (hfuel : 0 < fuel) :
    Kami_Tlv_ParseObject.loop mem iLength len fuel off root ≠ div := by
  obtain ⟨fuel, rfl⟩ := Nat.exists_eq_succ_of_ne_zero (Nat.ne_of_gt hfuel)
  rw [Kami_Tlv_ParseObject.loop]
  split
  · rw [readU16, readBytes_outside (by decide) (.inl hneg)]
    simp
  · simp

/-- The loop of the parser ends, whatever the bytes and the length are: a turn
that reads its header moves on by at least two bytes, or past the `int` range. -/
theorem loop_ne_div (mem : List UInt8) (iLength : Int) (len fuel : Nat) (off : Int)
    (root : KamiTlv_S) (hoff : off ≤ 2147483647) (hfuel : mem.length - off.toNat < fuel) :
    Kami_Tlv_ParseObject.loop mem iLength len fuel off root ≠ div := by
  induction fuel generalizing off root with
  | zero => omega
  | succ fuel ih =>
    rw [Kami_Tlv_ParseObject.loop]
    split
    · intro hdiv
      rcases bind_eq_div_iff.mp hdiv with hread | ⟨be, hread, hdiv⟩
      · exact readU16_ne_div _ _ hread
      obtain ⟨hpos, hin⟩ := readU16_inside hread
      have hmid := wrap32_hi (off + len)
      have hlater := fun hn => wrap32_add_later (n := len) hpos hoff hn
      generalize wrap32 (off + len) = off₁ at hdiv hmid hlater
      rcases bind_eq_div_iff.mp hdiv with hread | ⟨ul, hread, hdiv⟩
      · exact readU16_ne_div _ _ hread
      obtain ⟨hpos₁, _⟩ := readU16_inside hread
      have hlater₁ := wrap32_add_later (n := 2) hpos₁ hmid (by decide)
      have hmid₁ := wrap32_hi (off₁ + 2)
      have hlo₁ := wrap32_lo (off₁ + 2)
      change off₁ + 2 ≤ wrap32 (off₁ + 2) ∨ wrap32 (off₁ + 2) < -65535 at hlater₁
      dsimp only at hdiv
      generalize wrap32 (off₁ + 2) = off₂ at hdiv hmid₁ hlo₁ hlater₁
      rcases bind_eq_div_iff.mp hdiv with htype | ⟨type, htype, hdiv⟩
      · exact big2littles_type_ne_div _ _ htype
      have hlen := big2littles_type_width htype
      rcases bind_eq_div_iff.mp hdiv with hadd | ⟨root', hadd, hdiv⟩
      · exact Kami_Tlv_AddTlvToObject_ne_div _ _ _ _ _ _ hadd
      have hn := (big2littles_len ul).toNat_lt
      generalize hl : (big2littles_len ul).toNat = n at hdiv hn
      have hmid₂ := wrap32_hi (off₂ + n)
      have hend : off + 2 ≤ wrap32 (off₂ + n) ∨ wrap32 (off₂ + n) < 0 := by
        rcases Int.lt_or_le off₂ 0 with hneg | hpos₂
        · refine .inr ?_
          rw [wrap32_eq (by omega) (by omega)]
          omega
        · have hlater₂ := wrap32_add_later (n := n) hpos₂ hmid₁ (by omega)
          have := hlater (by omega)
          omega
      generalize wrap32 (off₂ + n) = off₃ at hdiv hmid₂ hend
      rcases hend with hge | hneg
      · exact ih off₃ root' hmid₂ (by omega) hdiv
      · exact loop_negative_ne_div mem iLength len fuel root' hneg (by omega) hdiv
    · simp

theorem Kami_Tlv_ParseObject_ne_div (mem : List UInt8) (iLength : Int) (len : Nat) :
    Kami_Tlv_ParseObject mem iLength len ≠ div := by
  unfold Kami_Tlv_ParseObject
  split
  · simp
  · intro hdiv
    exact loop_ne_div mem iLength len _ 0 _ (by decide) (by simp) (map_eq_div_iff.mp hdiv)

/-- The parser returns exactly on whole TLVs. -/
theorem Kami_Tlv_ParseObject_returns_iff_within {mem : List UInt8} {len n : Nat}
    (hlen : len = 1 ∨ len = 2) (hint : mem.length ≤ INT_MAX) (hn : n ≤ INT_MAX) :
    (Kami_Tlv_ParseObject mem n len).Returns ↔ TlvsWithin len mem n := by
  have hloop := loop_returns_iff hlen hint hn (mem.length + 1) 0 (Kami_Tlv_CreateObject len)
    (Nat.zero_le _) (by omega)
  rw [List.drop_zero, Nat.sub_zero] at hloop
  have hguard : (toSize (n : Int) : Int) = n := by
    unfold INT_MAX at hn
    exact toSize_of_nonneg (Int.natCast_nonneg _) (by omega)
  unfold Kami_Tlv_ParseObject
  by_cases hshort : toSize (n : Int) < len + 2
  · rw [if_pos hshort]
    exact iff_of_true (returns_ok none) (.stop (by omega))
  · rw [if_neg hshort]
    refine Iff.trans ?_ hloop
    constructor
    · rintro ⟨_, hvalue⟩
      obtain ⟨root, hroot, _⟩ := map_eq_ok_iff.mp hvalue
      exact ⟨root, hroot⟩
    · rintro ⟨root, hroot⟩
      exact ⟨some root, by rw [Int.natCast_zero] at hroot; rw [hroot, map_ok]⟩

/-- With the length of the memory, these are all its bytes. -/
theorem Kami_Tlv_ParseObject_returns_iff {mem : List UInt8} {len : Nat} (hlen : len = 1 ∨ len = 2)
    (hint : mem.length ≤ INT_MAX) :
    (Kami_Tlv_ParseObject mem mem.length len).Returns ↔ CompleteTlvs len mem := by
  rw [Kami_Tlv_ParseObject_returns_iff_within hlen hint hint, completeTlvs_iff]

theorem Kami_Tlv_AddTlvToObject_append {mem : List UInt8} (more : List UInt8) {off : Int} {len : Nat}
    {root root' : KamiTlv_S} {usType : tlv_type} {usLength : tlv_len}
    (h : Kami_Tlv_AddTlvToObject root usType usLength mem off len = ok root') :
    Kami_Tlv_AddTlvToObject root usType usLength (mem ++ more) off len = ok root' := by
  obtain ⟨item, hitem, hroot⟩ := bind_eq_ok_iff.mp h
  obtain ⟨value, hvalue, hok⟩ := bind_eq_ok_iff.mp hitem
  refine bind_eq_ok_iff.mpr ⟨item, bind_eq_ok_iff.mpr ⟨value, readBytes_append more hvalue, hok⟩, hroot⟩

/-- What the loop returns does not depend on what follows the memory it reads,
nor on fuel it does not need. -/
theorem loop_append {mem : List UInt8} (more : List UInt8) {iLength off : Int} {len fuel : Nat}
    (extra : Nat) {root root' : KamiTlv_S}
    (h : Kami_Tlv_ParseObject.loop mem iLength len fuel off root = ok root') :
    Kami_Tlv_ParseObject.loop (mem ++ more) iLength len (fuel + extra) off root = ok root' := by
  induction fuel generalizing off root with
  | zero => cases h
  | succ fuel ih =>
    rw [Nat.succ_add, Kami_Tlv_ParseObject.loop]
    rw [Kami_Tlv_ParseObject.loop] at h
    split
    · rename_i hlong
      rw [if_pos hlong] at h
      obtain ⟨be, hbe, h⟩ := bind_eq_ok_iff.mp h
      obtain ⟨ul, hul, h⟩ := bind_eq_ok_iff.mp h
      obtain ⟨type, htype, h⟩ := bind_eq_ok_iff.mp h
      obtain ⟨root₁, hadd, h⟩ := bind_eq_ok_iff.mp h
      refine bind_eq_ok_iff.mpr ⟨be, readU16_append more hbe, ?_⟩
      refine bind_eq_ok_iff.mpr ⟨ul, readU16_append more hul, ?_⟩
      refine bind_eq_ok_iff.mpr ⟨type, htype, ?_⟩
      exact bind_eq_ok_iff.mpr ⟨root₁, Kami_Tlv_AddTlvToObject_append more hadd, ih h⟩
    · rename_i hshort
      rw [if_neg hshort] at h
      exact h

theorem Kami_Tlv_ParseObject_append {mem : List UInt8} (more : List UInt8) {iLength : Int} {len : Nat}
    {object : Option KamiTlv_S} (h : Kami_Tlv_ParseObject mem iLength len = ok object) :
    Kami_Tlv_ParseObject (mem ++ more) iLength len = ok object := by
  unfold Kami_Tlv_ParseObject at h ⊢
  split
  · rename_i hshort
    rw [if_pos hshort] at h
    exact h
  · rename_i hlong
    rw [if_neg hlong] at h
    obtain ⟨root, hroot, hobject⟩ := map_eq_ok_iff.mp h
    have hmore := loop_append more more.length hroot
    rw [show mem.length + 1 + more.length = (mem ++ more).length + 1 by simp; omega] at hmore
    exact map_eq_ok_iff.mpr ⟨root, hmore, hobject⟩

/-- The parser stays inside the bytes it is given exactly when they are whole
TLVs; with a negative length it never does. -/
theorem Kami_Tlv_ParseObject_inside_iff {mem : List UInt8} {iLength : Int} {len : Nat}
    (hlen : len = 1 ∨ len = 2) (hmin : -2147483648 ≤ iLength) (hmax : iLength ≤ INT_MAX)
    (hmem : mem.length = iLength.toNat) :
    ParsesInside mem iLength len ↔ 0 ≤ iLength ∧ CompleteTlvs len mem := by
  unfold ParsesInside
  by_cases hnonneg : 0 ≤ iLength
  · have hlength : iLength = mem.length := by omega
    have hint : mem.length ≤ INT_MAX := by omega
    subst hlength
    rw [if_pos hnonneg, and_iff_right hnonneg]
    exact Kami_Tlv_ParseObject_returns_iff hlen hint
  · have hneg : iLength < 0 := by omega
    rw [if_neg hnonneg]
    have hnil : mem = [] := List.eq_nil_of_length_eq_zero (by omega)
    have hhuge := toSize_of_neg hmin hneg
    subst hnil
    have hparse : Kami_Tlv_ParseObject [] iLength len = fail := by
      unfold Kami_Tlv_ParseObject
      rw [if_neg (by omega), Kami_Tlv_ParseObject.loop, if_pos (by
        rw [Int.sub_zero, wrap32_eq hmin (by omega)]
        omega), readU16, readBytes_outside (by decide) (by simp)]
      rfl
    rw [hparse]
    constructor
    · rintro ⟨root, ⟨⟩⟩
    · exact fun h => absurd h.1 hnonneg

/-- Two TLVs, the second of them empty, and a stray byte. -/
theorem Kami_Tlv_ParseObject_inside_two :
    ParsesInside [0x10, 0x00, 0x01, 0x05, 0x00, 0x00, 0x00, 0x07] 8 1 :=
  (Kami_Tlv_ParseObject_inside_iff (.inl rfl) (by decide) (by decide) rfl).mpr
    ⟨by decide, @CompleteTlvs.tlv 1 [0x10] [0x05] _ 0x00 0x01 rfl rfl
      (@CompleteTlvs.tlv 1 [0x00] [] _ 0x00 0x00 rfl rfl (.stop (by decide)))⟩

/-- A TLV that announces five bytes with one left, and a packet one byte shorter
than its header. -/
theorem Kami_Tlv_ParseObject_outside :
    ¬ ParsesInside [0x11, 0x00, 0x05, 0x01] 4 1 ∧ ¬ ParsesInside [] (-1) 1 := by
  constructor
  · rintro ⟨root, hroot⟩
    cases hroot
  · intro hnone
    cases hnone

end easymesh.tlv_parser
