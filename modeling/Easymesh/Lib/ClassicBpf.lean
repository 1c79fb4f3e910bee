import Mathlib.Tactic

namespace Lib.ClassicBpf

/-- One classic BPF instruction, with relative jump offsets counted from the
instruction that follows it. -/
structure Insn where
  code : UInt16
  jt : Nat
  jf : Nat
  k : UInt32
  deriving DecidableEq, Repr

/-- `BPF_LD | BPF_H | BPF_ABS` -/
def LDH_ABS : UInt16 := 0x28

/-- `BPF_LD | BPF_W | BPF_ABS` -/
def LD_ABS : UInt16 := 0x20

/-- `BPF_JMP | BPF_JEQ | BPF_K` -/
def JEQ_K : UInt16 := 0x15

/-- `BPF_RET | BPF_K` -/
def RET_K : UInt16 := 0x06

/-- The 16-bit value of two bytes in network order. -/
def half (hi lo : UInt8) : UInt32 := (hi.toUInt32 <<< 8) ||| lo.toUInt32

/-- The 32-bit value of four bytes in network order. -/
def word (a b c d : UInt8) : UInt32 :=
  (a.toUInt32 <<< 24) ||| (b.toUInt32 <<< 16) ||| (c.toUInt32 <<< 8) ||| d.toUInt32

/-- A 16-bit absolute load, absent past the end of the packet. -/
def loadHalf (packet : List UInt8) (k : Nat) : Option UInt32 :=
  match packet.drop k with
  | hi :: lo :: _ => some (half hi lo)
  | _ => none

/-- A 32-bit absolute load, absent past the end of the packet. -/
def loadWord (packet : List UInt8) (k : Nat) : Option UInt32 :=
  match packet.drop k with
  | a :: b :: c :: d :: _ => some (word a b c d)
  | _ => none

theorem loadHalf_past_end {packet : List UInt8} {k : Nat} (h : packet.length < k + 2) :
    loadHalf packet k = none := by
  unfold loadHalf
  split
  · rename_i heq
    have hlen := congrArg List.length heq
    simp only [List.length_drop, List.length_cons] at hlen
    omega
  · rfl

/-- The value a filter returns for a packet, from accumulator `acc` on. Jumps
only go forward, and a load past the end of the packet ends the program with 0. -/
def exec (packet : List UInt8) (prog : List Insn) (acc : UInt32) : UInt32 :=
  match prog with
  | [] => 0
  | insn :: rest =>
    if insn.code = LDH_ABS then
      match loadHalf packet insn.k.toNat with
      | some value => exec packet rest value
      | none => 0
    else if insn.code = LD_ABS then
      match loadWord packet insn.k.toNat with
      | some value => exec packet rest value
      | none => 0
    else if insn.code = JEQ_K then
      exec packet (rest.drop (if acc = insn.k then insn.jt else insn.jf)) acc
    else if insn.code = RET_K then insn.k
    else 0
termination_by prog.length
decreasing_by all_goals simp only [List.length_drop, List.length_cons]; omega

/-- A socket filter keeps a packet when it returns a nonzero length. -/
def Accepts (prog : List Insn) (packet : List UInt8) : Prop := exec packet prog 0 ≠ 0

instance (prog : List Insn) (packet : List UInt8) : Decidable (Accepts prog packet) :=
  inferInstanceAs (Decidable (_ ≠ _))

section Steps

variable (packet : List UInt8) (rest : List Insn) (acc : UInt32)

theorem exec_ldh (jt jf : Nat) (k : UInt32) :
    exec packet (⟨LDH_ABS, jt, jf, k⟩ :: rest) acc =
      (loadHalf packet k.toNat).elim 0 (exec packet rest) := by
  rw [exec, if_pos rfl]
  cases loadHalf packet k.toNat <;> rfl

theorem exec_ld (jt jf : Nat) (k : UInt32) :
    exec packet (⟨LD_ABS, jt, jf, k⟩ :: rest) acc =
      (loadWord packet k.toNat).elim 0 (exec packet rest) := by
  rw [exec, if_neg (by dsimp only; decide), if_pos rfl]
  cases loadWord packet k.toNat <;> rfl

theorem exec_jeq (jt jf : Nat) (k : UInt32) :
    exec packet (⟨JEQ_K, jt, jf, k⟩ :: rest) acc =
      if acc = k then exec packet (rest.drop jt) acc else exec packet (rest.drop jf) acc := by
  rw [exec, if_neg (by dsimp only; decide), if_neg (by dsimp only; decide), if_pos rfl]
  split <;> rfl

theorem exec_ret (jt jf : Nat) (k : UInt32) :
    exec packet (⟨RET_K, jt, jf, k⟩ :: rest) acc = k := by
  rw [exec, if_neg (by dsimp only; decide), if_neg (by dsimp only; decide),
    if_neg (by dsimp only; decide), if_pos rfl]

end Steps

theorem half_toNat (hi lo : UInt8) : (half hi lo).toNat = 256 * hi.toNat + lo.toNat := by
  have hhi := hi.toNat_lt
  have hlo := lo.toNat_lt
  simp only [half, UInt32.toNat_or, UInt32.toNat_shiftLeft, UInt8.toNat_toUInt32]
  rw [show (8 : UInt32).toNat % 32 = 8 from rfl, Nat.mod_eq_of_lt (by rw [Nat.shiftLeft_eq]; omega),
    ← Nat.shiftLeft_add_eq_or_of_lt (by omega), Nat.shiftLeft_eq]
  omega

theorem half_inj {hi lo hi' lo' : UInt8} :
    half hi lo = half hi' lo' ↔ hi = hi' ∧ lo = lo' := by
  constructor
  · intro h
    have heq := congrArg UInt32.toNat h
    rw [half_toNat, half_toNat] at heq
    have hlo := lo.toNat_lt
    have hlo' := lo'.toNat_lt
    exact ⟨UInt8.toNat_inj.mp (by omega), UInt8.toNat_inj.mp (by omega)⟩
  · rintro ⟨rfl, rfl⟩
    rfl

theorem word_toNat (a b c d : UInt8) :
    (word a b c d).toNat = 16777216 * a.toNat + 65536 * b.toNat + 256 * c.toNat + d.toNat := by
  have ha := a.toNat_lt
  have hb := b.toNat_lt
  have hc := c.toNat_lt
  have hd := d.toNat_lt
  simp only [word, UInt32.toNat_or, UInt32.toNat_shiftLeft, UInt8.toNat_toUInt32]
  rw [show (8 : UInt32).toNat % 32 = 8 from rfl, show (16 : UInt32).toNat % 32 = 16 from rfl,
    show (24 : UInt32).toNat % 32 = 24 from rfl]
  rw [Nat.mod_eq_of_lt (a := a.toNat <<< 24) (by rw [Nat.shiftLeft_eq]; omega),
    Nat.mod_eq_of_lt (a := b.toNat <<< 16) (by rw [Nat.shiftLeft_eq]; omega),
    Nat.mod_eq_of_lt (a := c.toNat <<< 8) (by rw [Nat.shiftLeft_eq]; omega)]
  rw [Nat.or_assoc, Nat.or_assoc, ← Nat.shiftLeft_add_eq_or_of_lt (a := c.toNat) (by omega),
    ← Nat.shiftLeft_add_eq_or_of_lt (a := b.toNat) (by simp only [Nat.shiftLeft_eq]; omega),
    ← Nat.shiftLeft_add_eq_or_of_lt (a := a.toNat) (by simp only [Nat.shiftLeft_eq]; omega)]
  simp only [Nat.shiftLeft_eq]
  omega

theorem word_inj {a b c d a' b' c' d' : UInt8} :
    word a b c d = word a' b' c' d' ↔ a = a' ∧ b = b' ∧ c = c' ∧ d = d' := by
  constructor
  · intro h
    have heq := congrArg UInt32.toNat h
    rw [word_toNat, word_toNat] at heq
    have hb := b.toNat_lt
    have hb' := b'.toNat_lt
    have hc := c.toNat_lt
    have hc' := c'.toNat_lt
    have hd := d.toNat_lt
    have hd' := d'.toNat_lt
    exact ⟨UInt8.toNat_inj.mp (by omega), UInt8.toNat_inj.mp (by omega),
      UInt8.toNat_inj.mp (by omega), UInt8.toNat_inj.mp (by omega)⟩
  · rintro ⟨rfl, rfl, rfl, rfl⟩
    rfl

end Lib.ClassicBpf
