import Easymesh.Tlv.Complete

open Lib Lib.Result

namespace easymesh.tlv_parser

theorem Kami_Tlv_AddTlvToObject_take {mem : List UInt8} {off : Int} {len k : Nat}
    {root root' : KamiTlv_S} {usType : tlv_type} {usLength : tlv_len}
    (h : Kami_Tlv_AddTlvToObject root usType usLength mem off len = ok root')
    (hin : off.toNat + usLength.toNat ≤ k) :
    Kami_Tlv_AddTlvToObject root usType usLength (mem.take k) off len = ok root' := by
  obtain ⟨item, hitem, hroot⟩ := bind_eq_ok_iff.mp h
  obtain ⟨value, hvalue, hok⟩ := bind_eq_ok_iff.mp hitem
  refine bind_eq_ok_iff.mpr ⟨item, bind_eq_ok_iff.mpr ⟨value, ?_, hok⟩, hroot⟩
  exact readBytes_take hvalue (.inr hin)

/-- A loop that returns has read nothing behind its length. -/
theorem loop_take {mem : List UInt8} {iLength off : Int} {len fuel fuel' : Nat}
    {pstRoot pstRoot' : KamiTlv_S} (hlen : len = 1 ∨ len = 2)
    (hlength : 0 ≤ iLength ∧ iLength ≤ 2147483647) (hpos : 0 ≤ off) (hin : off ≤ iLength)
    (h : Kami_Tlv_ParseObject.loop mem iLength len fuel off pstRoot = ok pstRoot')
    (hfuel : iLength.toNat - off.toNat < fuel') :
    Kami_Tlv_ParseObject.loop (mem.take iLength.toNat) iLength len fuel' off pstRoot =
      ok pstRoot' := by
  induction fuel generalizing fuel' off pstRoot with
  | zero => cases h
  | succ fuel ih =>
    obtain ⟨fuel', rfl⟩ := Nat.exists_eq_succ_of_ne_zero (Nat.ne_of_gt (Nat.zero_lt_of_lt hfuel))
    by_cases hlong : len + 2 < toSize (wrap32 (iLength - off))
    · obtain ⟨be, ul, type, root₁, hbe, hul, htype, hadd, hrest⟩ := loop_turn hlong h
      obtain ⟨_, hnext⟩ := turn_offset hlen (by omega) hbe hul hadd
      have hlo := wrap32_lo (wrap32 (wrap32 (off + len) + 2) + (big2littles_len ul).toNat)
      have hhi := wrap32_hi (wrap32 (wrap32 (off + len) + 2) + (big2littles_len ul).toNat)
      have hinside := fun hpast => loop_past hlength hlo hhi hpast hlen hrest
      rcases hnext with hneg | ⟨hone, htwo, heq⟩
      · exact absurd hneg fun hneg => hinside (.inr hneg)
      · rw [hone] at hul
        rw [hone, htwo] at hadd
        rw [heq] at hrest hinside
        have hle : off + len + 2 + (big2littles_len ul).toNat ≤ iLength :=
          not_lt.mp fun hpast => hinside (.inl hpast)
        have hpre : readU16 (mem.take iLength.toNat) off = ok be := readU16_take hbe (by omega)
        have hmid : readU16 (mem.take iLength.toNat) (off + len) = ok ul :=
          readU16_take hul (by omega)
        have hvalue := Kami_Tlv_AddTlvToObject_take (k := iLength.toNat) hadd (by omega)
        have hleft : iLength.toNat - (off + len + 2 + (big2littles_len ul).toNat).toNat < fuel' := by
          omega
        have hrest' := ih (by omega) hle hrest hleft
        rw [Kami_Tlv_ParseObject.loop, if_pos hlong, hpre, ok_bind]
        simp only [hone, htwo, hmid, htype, hvalue, ok_bind]
        have hend : wrap32 (off + len + 2 + (big2littles_len ul).toNat) =
            off + len + 2 + (big2littles_len ul).toNat := wrap32_eq (by omega) (by omega)
        rw [hend]
        exact hrest'
    · rw [Kami_Tlv_ParseObject.loop, if_neg hlong] at h ⊢
      exact h

/-- An object depends on the bytes of its length alone. -/
theorem Kami_Tlv_ParseObject_take {mem : List UInt8} {iLength : Int} {len : Nat}
    {object : Option KamiTlv_S} (hlen : len = 1 ∨ len = 2)
    (hlength : 0 ≤ iLength ∧ iLength ≤ 2147483647)
    (h : Kami_Tlv_ParseObject mem iLength len = ok object) :
    Kami_Tlv_ParseObject (mem.take iLength.toNat) iLength len = ok object := by
  unfold Kami_Tlv_ParseObject at h ⊢
  by_cases hshort : toSize iLength < len + 2
  · rw [if_pos hshort] at h ⊢
    exact h
  · rw [if_neg hshort] at h ⊢
    obtain ⟨root, hroot, hobject⟩ := map_eq_ok_iff.mp h
    rcases Nat.le_total mem.length iLength.toNat with hmem | hmem
    · rw [List.take_of_length_le hmem, hroot, map_ok, hobject]
    · have htake : (mem.take iLength.toNat).length = iLength.toNat := List.length_take_of_le hmem
      have hfuel : iLength.toNat - (0 : Int).toNat < (mem.take iLength.toNat).length + 1 := by omega
      have hloop := loop_take hlen hlength le_rfl hlength.1 hroot hfuel
      rw [hloop, map_ok, hobject]

/-- An object that is parsed from nothing has no items. -/
theorem Kami_Tlv_ParseObject_nil {iLength : Int} {len : Nat} {pstRoot : KamiTlv_S}
    (h : Kami_Tlv_ParseObject [] iLength len = ok (some pstRoot)) : pstRoot.child = [] := by
  unfold Kami_Tlv_ParseObject at h
  split at h
  · cases h
  · obtain ⟨root, hroot, hsome⟩ := map_eq_ok_iff.mp h
    cases hsome
    rw [Kami_Tlv_ParseObject.loop] at hroot
    split at hroot
    · rw [readU16, readBytes_outside (by decide) (by simp)] at hroot
      cases hroot
    · cases hroot
      rfl

/-- No more than a header of what is announced may be missing. -/
theorem TlvsWithin.le_length {len n : Nat} {bs : List UInt8} (h : TlvsWithin len bs n) :
    n ≤ bs.length + (len + 2) := by
  induction h with
  | stop hshort => omega
  | tlv htype _ _ ih =>
    simp only [List.length_append, List.length_cons, htype]
    omega

/-- With a negative length the loop goes on until it leaves the memory. -/
theorem loop_negative {mem : List UInt8} {iLength : Int} {len fuel off : Nat}
    {pstRoot pstRoot' : KamiTlv_S} (hlen : len = 1 ∨ len = 2) (hlo : -2147483648 ≤ iLength)
    (hneg : iLength < 0) (hmem : mem.length + 8 ≤ INT_MAX) (hoff : off ≤ mem.length) :
    Kami_Tlv_ParseObject.loop mem iLength len fuel off pstRoot ≠ ok pstRoot' := by
  unfold INT_MAX at hmem
  induction fuel generalizing off pstRoot with
  | zero => exact nofun
  | succ fuel ih =>
    intro h
    have hlong : len + 2 < toSize (wrap32 (iLength - off)) := by
      have hdiff : wrap32 (iLength - off) < 0 ∨ 8 < wrap32 (iLength - off) := by
        unfold wrap32
        omega
      have hmin := wrap32_lo (iLength - off)
      have hmax := wrap32_hi (iLength - off)
      generalize wrap32 (iLength - off) = diff at hdiff hmin hmax
      rcases hdiff with hdiff | hdiff
      · have := toSize_of_neg hmin hdiff
        omega
      · have := toSize_of_nonneg (x := diff) (by omega) (by omega)
        omega
    obtain ⟨be, ul, type, root₁, _, hul, _, hadd, hrest⟩ := loop_turn hlong h
    clear h hlong
    have hone : wrap32 ((off : Int) + len) = (off + len : Nat) := by
      clear hul hadd hrest
      rw [wrap32_eq (by omega) (by omega)]
      exact (Int.natCast_add off len).symm
    rw [hone] at hul hadd hrest
    have htwo : wrap32 (((off + len : Nat) : Int) + 2) = (off + len + 2 : Nat) := by
      clear hul hadd hrest hone
      rw [wrap32_eq (by omega) (by omega)]
      exact (Int.natCast_add (off + len) 2).symm
    rw [htwo] at hadd hrest
    obtain ⟨-, hhead⟩ := readU16_inside hul
    have hvalue := Kami_Tlv_AddTlvToObject_inside hadd
    simp only [Int.toNat_natCast] at hhead hvalue
    clear hone htwo hul hadd
    have hin : off + len + 2 + (big2littles_len ul).toNat ≤ mem.length := by omega
    have hnext : wrap32 (((off + len + 2 : Nat) : Int) + (big2littles_len ul).toNat) =
        (off + len + 2 + (big2littles_len ul).toNat : Nat) := by
      rw [wrap32_eq (by omega) (by omega)]
      exact (Int.natCast_add _ _).symm
    rw [hnext] at hrest
    exact ih hin hrest

/-- The parser stays inside the memory exactly when the length is not negative
and there are whole TLVs for it. -/
theorem Kami_Tlv_ParseObject_returns_iff_whole {mem : List UInt8} {iLength : Int} {len : Nat}
    (hlen : len = 1 ∨ len = 2) (hlo : -2147483648 ≤ iLength) (hhi : iLength ≤ 2147483647)
    (hmem : mem.length + 8 ≤ INT_MAX) :
    (Kami_Tlv_ParseObject mem iLength len).Returns ↔
      0 ≤ iLength ∧ TlvsWithin len mem iLength.toNat := by
  by_cases hneg : iLength < 0
  · refine iff_of_false ?_ fun h => absurd h.1 (by omega)
    have hhuge := toSize_of_neg hlo hneg
    rintro ⟨object, hobject⟩
    rw [Kami_Tlv_ParseObject, if_neg (by omega)] at hobject
    obtain ⟨root, hroot, -⟩ := map_eq_ok_iff.mp hobject
    exact @loop_negative mem iLength len _ 0 _ _ hlen hlo hneg hmem (Nat.zero_le _) hroot
  · obtain ⟨n, rfl⟩ := Int.eq_ofNat_of_zero_le (not_lt.mp hneg)
    have hiff := @Kami_Tlv_ParseObject_returns_iff_within mem len n hlen
      (by unfold INT_MAX at *; omega) (by unfold INT_MAX; omega)
    rw [hiff, Int.toNat_natCast]
    exact (and_iff_right (Int.natCast_nonneg n)).symm

end easymesh.tlv_parser
