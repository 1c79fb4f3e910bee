import Easymesh.Lib.ClassicBpf

open Lib.ClassicBpf

namespace easymesh.ieee1905_network

/-- `unsigned char addr[ETH_ALEN]` -/
abbrev MacAddr := Vector UInt8 6

/-- The destination address of the multicast packets the filter lets through. -/
def ieee1905_multicast : MacAddr := #v[0x01, 0x80, 0xc2, 0x00, 0x00, 0x13]

/-- The classic BPF program of `attach_bpf_filters`, with the four constants it
patches from `interface->al_addr` and `interface->addr`. -/
def attach_bpf_filters_code (al_addr addr : MacAddr) : List Insn :=
  [⟨0x28, 0, 0, 0x0000000c⟩,
    ⟨0x15, 0, 11, 0x0000893a⟩,
    ⟨0x20, 0, 0, 0x00000002⟩,
    ⟨0x15, 0, 2, 0xc2000013⟩,
    ⟨0x28, 0, 0, 0x00000000⟩,
    ⟨0x15, 6, 7, 0x00000180⟩,
    ⟨0x15, 0, 2, (al_addr[2].toUInt32 <<< 24) ||| (al_addr[3].toUInt32 <<< 16) |||
      (al_addr[4].toUInt32 <<< 8) ||| al_addr[5].toUInt32⟩,
    ⟨0x28, 0, 0, 0x00000000⟩,
    ⟨0x15, 3, 4, (al_addr[0].toUInt32 <<< 8) ||| al_addr[1].toUInt32⟩,
    ⟨0x15, 0, 3, (addr[2].toUInt32 <<< 24) ||| (addr[3].toUInt32 <<< 16) |||
      (addr[4].toUInt32 <<< 8) ||| addr[5].toUInt32⟩,
    ⟨0x28, 0, 0, 0x00000000⟩,
    ⟨0x15, 0, 1, (addr[0].toUInt32 <<< 8) ||| addr[1].toUInt32⟩,
    ⟨0x6, 0, 0, 0x00040000⟩,
    ⟨0x6, 0, 0, 0x00000000⟩]

/-- The first two octets of an address, as the program compares them. -/
def MacAddr.high (mac : MacAddr) : UInt32 := half mac[0] mac[1]

/-- The last four octets of an address, as the program compares them. -/
def MacAddr.low (mac : MacAddr) : UInt32 := word mac[2] mac[3] mac[4] mac[5]

/-- An address is its two compared halves. -/
theorem MacAddr.eq_iff (mac mac' : MacAddr) :
    mac = mac' ↔ mac.low = mac'.low ∧ mac.high = mac'.high := by
  constructor
  · rintro rfl
    exact ⟨rfl, rfl⟩
  · rintro ⟨hlow, hhigh⟩
    obtain ⟨h2, h3, h4, h5⟩ := word_inj.mp hlow
    obtain ⟨h0, h1⟩ := half_inj.mp hhigh
    refine Vector.ext fun i hi => ?_
    match i, hi with
    | 0, _ => exact h0
    | 1, _ => exact h1
    | 2, _ => exact h2
    | 3, _ => exact h3
    | 4, _ => exact h4
    | 5, _ => exact h5

/-- What a frame says of itself: the destination address of a frame that has a
whole Ethernet header with the IEEE 1905 EtherType. -/
def ieee1905_dest (frame : List UInt8) : Option MacAddr :=
  match frame with
  | f0 :: f1 :: f2 :: f3 :: f4 :: f5 :: _ :: _ :: _ :: _ :: _ :: _ :: t0 :: t1 :: _ =>
    if t0 = 0x89 ∧ t1 = 0x3a then some #v[f0, f1, f2, f3, f4, f5] else none
  | _ => none

/-- The frames the filter is designed to accept: at least 14 bytes, EtherType
0x893a, addressed to the multicast address, the AL MAC or the interface MAC. -/
def ForThisDevice (al_addr addr : MacAddr) (frame : List UInt8) : Prop :=
  ∃ dest, ieee1905_dest frame = some dest ∧
    (dest = ieee1905_multicast ∨ dest = al_addr ∨ dest = addr)

/-- A frame for one of the device's own addresses whose last four octets are
those of a different address that the program compares earlier. -/
def ShadowedDest (al_addr addr : MacAddr) (frame : List UInt8) : Prop :=
  ∃ dest, ieee1905_dest frame = some dest ∧ (dest = al_addr ∨ dest = addr) ∧
    dest ≠ ieee1905_multicast ∧
    (dest.low = ieee1905_multicast.low ∨ (dest ≠ al_addr ∧ dest.low = al_addr.low))

/-- The decisions of the installed program on a frame with a whole header: the
low octets pick the one address whose high octets are then compared. -/
theorem accepts_whole_header (al_addr addr : MacAddr)
    (f0 f1 f2 f3 f4 f5 f6 f7 f8 f9 f10 f11 t0 t1 : UInt8) (rest : List UInt8) :
    Accepts (attach_bpf_filters_code al_addr addr)
        (f0 :: f1 :: f2 :: f3 :: f4 :: f5 :: f6 :: f7 :: f8 :: f9 :: f10 :: f11 :: t0 :: t1 :: rest) ↔
      half t0 t1 = 0x893a ∧
        if word f2 f3 f4 f5 = ieee1905_multicast.low then half f0 f1 = ieee1905_multicast.high
        else if word f2 f3 f4 f5 = al_addr.low then half f0 f1 = al_addr.high
        else word f2 f3 f4 f5 = addr.low ∧ half f0 f1 = addr.high := by
  have hmlow : ieee1905_multicast.low = 0xc2000013 := by decide
  have hmhigh : ieee1905_multicast.high = 0x0180 := by decide
  rw [hmlow, hmhigh]
  unfold Accepts attach_bpf_filters_code
  rw [show (0x28 : UInt16) = LDH_ABS from rfl, show (0x15 : UInt16) = JEQ_K from rfl,
    show (0x20 : UInt16) = LD_ABS from rfl, show (0x6 : UInt16) = RET_K from rfl, exec_ldh]
  simp only [loadHalf, show (0x0000000c : UInt32).toNat = 12 from rfl, List.drop_succ_cons,
    List.drop_zero, Option.elim_some]
  rw [exec_jeq]
  by_cases htype : half t0 t1 = 0x893a
  · rw [if_pos htype, List.drop_zero, exec_ld]
    simp only [loadWord, show (0x00000002 : UInt32).toNat = 2 from rfl, List.drop_succ_cons,
      List.drop_zero, Option.elim_some, htype, true_and]
    rw [exec_jeq]
    have hbyte0 : (0 : UInt32).toNat = 0 := rfl
    by_cases hmulti : word f2 f3 f4 f5 = 0xc2000013
    · rw [if_pos hmulti, if_pos hmulti, List.drop_zero, exec_ldh]
      simp only [loadHalf, hbyte0, List.drop_zero, Option.elim_some]
      rw [exec_jeq]
      split <;> rename_i hhigh <;> simp [hhigh, List.drop, exec_ret]
    · rw [if_neg hmulti, if_neg hmulti]
      simp only [List.drop_succ_cons, List.drop_zero]
      rw [exec_jeq]
      change (if word f2 f3 f4 f5 = al_addr.low then _ else _) ≠ 0 ↔ _
      by_cases hal : word f2 f3 f4 f5 = al_addr.low
      · rw [if_pos hal, if_pos hal, List.drop_zero, exec_ldh]
        simp only [loadHalf, hbyte0, List.drop_zero, Option.elim_some]
        rw [exec_jeq]
        change (if half f0 f1 = al_addr.high then _ else _) ≠ 0 ↔ _
        split <;> rename_i hhigh <;> simp [hhigh, List.drop, exec_ret]
      · rw [if_neg hal, if_neg hal]
        simp only [List.drop_succ_cons, List.drop_zero]
        rw [exec_jeq]
        change (if word f2 f3 f4 f5 = addr.low then _ else _) ≠ 0 ↔ _
        by_cases hif : word f2 f3 f4 f5 = addr.low
        · rw [if_pos hif, List.drop_zero, exec_ldh]
          simp only [loadHalf, hbyte0, List.drop_zero, Option.elim_some]
          rw [exec_jeq]
          change (if half f0 f1 = addr.high then _ else _) ≠ 0 ↔ _
          split <;> rename_i hhigh <;> simp [hif, hhigh, exec_ret]
        · rw [if_neg hif]
          simp [hif, exec_ret]
  · rw [if_neg htype]
    simp [htype, exec_ret]

/-- A frame without a whole header is rejected at the first load. -/
theorem rejects_short (al_addr addr : MacAddr) (frame : List UInt8) (hlen : frame.length < 14) :
    ¬ Accepts (attach_bpf_filters_code al_addr addr) frame := by
  unfold Accepts attach_bpf_filters_code
  rw [show (0x28 : UInt16) = LDH_ABS from rfl, exec_ldh, loadHalf_past_end (by
    rw [show (0x0000000c : UInt32).toNat = 12 from rfl]
    omega)]
  exact not_not_intro rfl

/-- The installed filter accepts exactly the frames it is designed for, except
the frames whose destination is shadowed by an address compared earlier. -/
theorem attach_bpf_filters_accepts_iff (al_addr addr : MacAddr) (frame : List UInt8) :
    (Accepts (attach_bpf_filters_code al_addr addr) frame ↔ ForThisDevice al_addr addr frame) ↔
      ¬ ShadowedDest al_addr addr frame := by
  match frame with
  | f0 :: f1 :: f2 :: f3 :: f4 :: f5 :: f6 :: f7 :: f8 :: f9 :: f10 :: f11 :: t0 :: t1 :: rest =>
    rw [accepts_whole_header]
    have htype : half t0 t1 = 0x893a ↔ t0 = 0x89 ∧ t1 = 0x3a := by
      rw [show (0x893a : UInt32) = half 0x89 0x3a by decide, half_inj]
    by_cases hieee : t0 = 0x89 ∧ t1 = 0x3a
    · have hlow : word f2 f3 f4 f5 = MacAddr.low #v[f0, f1, f2, f3, f4, f5] := rfl
      have hhigh : half f0 f1 = MacAddr.high #v[f0, f1, f2, f3, f4, f5] := rfl
      simp only [ForThisDevice, ShadowedDest, ieee1905_dest, if_pos hieee, Option.some.injEq,
        exists_eq_left', htype.mpr hieee, true_and, hlow, hhigh]
      generalize (#v[f0, f1, f2, f3, f4, f5] : MacAddr) = dest
      simp only [ne_eq, MacAddr.eq_iff]
      grind
    · simp [ForThisDevice, ShadowedDest, ieee1905_dest, hieee, htype]
  | [] | [_] | [_, _] | [_, _, _] | [_, _, _, _] | [_, _, _, _, _] | [_, _, _, _, _, _]
  | [_, _, _, _, _, _, _] | [_, _, _, _, _, _, _, _] | [_, _, _, _, _, _, _, _, _]
  | [_, _, _, _, _, _, _, _, _, _] | [_, _, _, _, _, _, _, _, _, _, _]
  | [_, _, _, _, _, _, _, _, _, _, _, _] | [_, _, _, _, _, _, _, _, _, _, _, _, _] =>
    simp [ForThisDevice, ShadowedDest, ieee1905_dest, rejects_short]

/-- The agent's AL MAC with an interface MAC that shares its last four octets:
a frame sent to the interface is not accepted. -/
theorem attach_bpf_filters_rejects_interface_mac :
    ¬ (Accepts (attach_bpf_filters_code #v[0x5a, 0x9a, 0x94, 0xc0, 0x42, 0x57]
          #v[0x00, 0x0c, 0x94, 0xc0, 0x42, 0x57])
        [0x00, 0x0c, 0x94, 0xc0, 0x42, 0x57, 0, 0, 0, 0, 0, 0, 0x89, 0x3a] ↔
      ForThisDevice #v[0x5a, 0x9a, 0x94, 0xc0, 0x42, 0x57] #v[0x00, 0x0c, 0x94, 0xc0, 0x42, 0x57]
        [0x00, 0x0c, 0x94, 0xc0, 0x42, 0x57, 0, 0, 0, 0, 0, 0, 0x89, 0x3a]) := by
  intro hiff
  have hdest : ForThisDevice #v[0x5a, 0x9a, 0x94, 0xc0, 0x42, 0x57]
      #v[0x00, 0x0c, 0x94, 0xc0, 0x42, 0x57]
      [0x00, 0x0c, 0x94, 0xc0, 0x42, 0x57, 0, 0, 0, 0, 0, 0, 0x89, 0x3a] :=
    ⟨#v[0x00, 0x0c, 0x94, 0xc0, 0x42, 0x57], rfl, Or.inr (Or.inr rfl)⟩
  have haccepts := hiff.mpr hdest
  rw [accepts_whole_header] at haccepts
  exact absurd haccepts (by decide)

end easymesh.ieee1905_network
