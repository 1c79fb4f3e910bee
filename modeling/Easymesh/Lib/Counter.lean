import Mathlib.Tactic

namespace Lib

/-- How a number is drawn from a counter: `take` gives its value and moves it on,
`peek` gives the value after it and leaves it as it is. -/
inductive Draw where
  | take
  | peek
  deriving DecidableEq, Repr

/-- The numbers drawn from a counter of 16 bits. -/
def drawn : UInt16 → List Draw → List UInt16
  | _, [] => []
  | n, .take :: draws => n :: drawn (n + 1) draws
  | n, .peek :: draws => (n + 1) :: drawn n draws

def counterAfter : UInt16 → List Draw → UInt16
  | n, [] => n
  | n, .take :: draws => counterAfter (n + 1) draws
  | n, .peek :: draws => counterAfter n draws

/-- Nothing occurs twice among fewer than `size` entries in a row. -/
def FreshWithin {α : Type} (size : Nat) (list : List α) : Prop :=
  ∀ window, window <:+: list → window.length < size → window.Nodup

/-- After the first `peek` there is at most one `take` and then one more `peek`. -/
def PeeksLast : List Draw → Prop
  | [] => True
  | .take :: draws => PeeksLast draws
  | .peek :: draws => draws <+: [.take, .peek]

instance decidablePeeksLast : ∀ draws, Decidable (PeeksLast draws)
  | [] => inferInstanceAs (Decidable True)
  | .take :: draws => decidablePeeksLast draws
  | .peek :: draws => inferInstanceAs (Decidable (draws <+: [.take, .peek]))

theorem drawn_append (n : UInt16) (draws more : List Draw) :
    drawn n (draws ++ more) = drawn n draws ++ drawn (counterAfter n draws) more := by
  induction draws generalizing n with
  | nil => rfl
  | cons draw draws ih =>
    cases draw with
    | take => exact congrArg (n :: ·) (ih (n + 1))
    | peek => exact congrArg ((n + 1) :: ·) (ih n)

theorem counterAfter_append (n : UInt16) (draws more : List Draw) :
    counterAfter n (draws ++ more) = counterAfter (counterAfter n draws) more := by
  induction draws generalizing n with
  | nil => rfl
  | cons draw draws ih =>
    cases draw with
    | take => exact ih (n + 1)
    | peek => exact ih n

section FreshWithin

variable {α β : Type} {size : Nat} {list : List α}

theorem FreshWithin.tail {a : α} (h : FreshWithin size (a :: list)) : FreshWithin size list :=
  fun window hwindow => h window (hwindow.trans (List.suffix_cons a list).isInfix)

/-- The entries that a list starts with are different. -/
theorem FreshWithin.nodup {window rest : List α} (h : FreshWithin size (window ++ rest))
    (hsize : window.length < size) : window.Nodup :=
  h window (List.prefix_append window rest).isInfix hsize

theorem freshWithin_of_nodup (h : list.Nodup) : FreshWithin size list :=
  fun _ hwindow _ => h.sublist hwindow.sublist

theorem freshWithin_map_iff {f : α → β} (hf : Function.Injective f) :
    FreshWithin size (list.map f) ↔ FreshWithin size list := by
  constructor
  · intro h window hwindow hsize
    exact List.Nodup.of_map f (h _ (hwindow.map f) (by rwa [List.length_map]))
  · intro h window hwindow hsize
    obtain ⟨source, hsource, rfl⟩ := List.infix_map_iff.mp hwindow
    rw [List.length_map] at hsize
    exact (h source hsource hsize).map hf

end FreshWithin

/-- The counter does not come back to a value within 65535 further ones. -/
theorem counter_ne (n : UInt16) {k : Nat} (hk : k < 65535) : n ≠ n + 1 + UInt16.ofNat k := by
  intro heq
  have hnat := congrArg UInt16.toNat heq
  have hn := n.toNat_lt
  rw [UInt16.toNat_add, UInt16.toNat_add, UInt16.toNat_ofNat_of_lt' (by rw [UInt16.size]; omega),
    show (1 : UInt16).toNat = 1 from rfl] at hnat
  omega

theorem counter_succ (n : UInt16) (k : Nat) :
    n + 1 + UInt16.ofNat k = n + UInt16.ofNat (k + 1) := by
  rw [UInt16.ofNat_add, UInt16.add_assoc, UInt16.add_comm 1]
  rfl

/-- The draws from the first `peek` on give different numbers. -/
theorem drawn_peek_nodup {draws : List Draw} (h : draws <+: [.take, .peek]) (n : UInt16) :
    (drawn n (.peek :: draws)).Nodup := by
  have htwo : n ≠ n + 1 + 1 := counter_ne n (k := 1) (by decide)
  rcases List.prefix_cons_iff.mp h with rfl | ⟨draws, rfl, hrest⟩
  · exact List.nodup_singleton _
  rcases List.prefix_cons_iff.mp hrest with rfl | ⟨draws, rfl, hnil⟩
  · simp [drawn]
  · obtain rfl := List.prefix_nil.mp hnil
    simp [drawn, htwo]

/-- The draws from the first `peek` on stay close to the counter. -/
theorem drawn_peek_near {draws : List Draw} (h : draws <+: [.take, .peek]) {n x : UInt16}
    {window : List UInt16} (hwindow : window <+: drawn n (.peek :: draws)) (hx : x ∈ window) :
    ∃ k ≤ window.length, x = n + UInt16.ofNat k := by
  rcases List.prefix_cons_iff.mp hwindow with rfl | ⟨window₁, rfl, hwindow₁⟩
  · cases hx
  rcases List.mem_cons.mp hx with rfl | hx
  · exact ⟨1, Nat.le_add_left _ _, rfl⟩
  rcases List.prefix_cons_iff.mp h with rfl | ⟨draws₁, rfl, hdraws₁⟩
  · rw [List.prefix_nil.mp hwindow₁] at hx
    cases hx
  rcases List.prefix_cons_iff.mp hwindow₁ with rfl | ⟨window₂, rfl, hwindow₂⟩
  · cases hx
  rcases List.mem_cons.mp hx with rfl | hx
  · exact ⟨0, Nat.zero_le _, (UInt16.add_zero x).symm⟩
  rcases List.prefix_cons_iff.mp hdraws₁ with rfl | ⟨draws₂, rfl, hdraws₂⟩
  · rw [List.prefix_nil.mp hwindow₂] at hx
    cases hx
  · obtain rfl := List.prefix_nil.mp hdraws₂
    obtain rfl := List.mem_singleton.mp (hwindow₂.subset hx)
    exact ⟨2, Nat.le_add_left _ _, UInt16.add_assoc n 1 1⟩

/-- The numbers that come first are close to the counter. -/
theorem drawn_near {draws : List Draw} (h : PeeksLast draws) {n x : UInt16} {window : List UInt16}
    (hwindow : window <+: drawn n draws) (hx : x ∈ window) :
    ∃ k ≤ window.length, x = n + UInt16.ofNat k := by
  induction draws generalizing n window with
  | nil =>
    rw [List.prefix_nil.mp hwindow] at hx
    cases hx
  | cons draw draws ih =>
    cases draw with
    | take =>
      rcases List.prefix_cons_iff.mp hwindow with rfl | ⟨window, rfl, hrest⟩
      · cases hx
      · rcases List.mem_cons.mp hx with rfl | hx
        · exact ⟨0, Nat.zero_le _, (UInt16.add_zero x).symm⟩
        · obtain ⟨k, hk, rfl⟩ := ih h hrest hx
          exact ⟨k + 1, Nat.succ_le_succ hk, counter_succ n k⟩
    | peek => exact drawn_peek_near h hwindow hx

theorem freshWithin_drawn {draws : List Draw} (h : PeeksLast draws) (n : UInt16) :
    FreshWithin 65536 (drawn n draws) := by
  induction draws generalizing n with
  | nil => exact freshWithin_of_nodup List.nodup_nil
  | cons draw draws ih =>
    cases draw with
    | peek => exact freshWithin_of_nodup (drawn_peek_nodup h n)
    | take =>
      intro window hwindow hsize
      rcases List.infix_cons_iff.mp hwindow with hprefix | hinfix
      · rcases List.prefix_cons_iff.mp hprefix with rfl | ⟨window, rfl, hrest⟩
        · exact List.nodup_nil
        · rw [List.length_cons] at hsize
          refine List.nodup_cons.mpr ⟨fun hn => ?_, ih h (n + 1) window hrest.isInfix (by omega)⟩
          obtain ⟨k, hk, heq⟩ := @drawn_near draws h _ _ _ hrest hn
          exact counter_ne n (by omega) heq
      · exact ih h (n + 1) window hinfix hsize

/-- Any other way to draw gives a number twice among four. -/
theorem peeksLast_of_freshWithin {draws : List Draw} {n : UInt16}
    (h : FreshWithin 65536 (drawn n draws)) : PeeksLast draws := by
  induction draws generalizing n with
  | nil => exact trivial
  | cons draw draws ih =>
    cases draw with
    | take => exact ih h.tail
    | peek =>
      match draws with
      | [] => exact List.nil_prefix
      | .peek :: draws =>
        have hdup := @FreshWithin.nodup _ _ [n + 1, n + 1] _ h (by simp)
        simp at hdup
      | [.take] => exact ⟨[.peek], rfl⟩
      | .take :: .take :: draws =>
        have hdup := @FreshWithin.nodup _ _ [n + 1, n, n + 1] _ h (by simp)
        simp at hdup
      | [.take, .peek] => exact List.prefix_rfl
      | .take :: .peek :: .peek :: draws =>
        have hdup := @FreshWithin.nodup _ _ [n + 1, n, n + 1 + 1, n + 1 + 1] _ h (by simp)
        simp at hdup
      | .take :: .peek :: .take :: draws =>
        have hdup := @FreshWithin.nodup _ _ [n + 1, n, n + 1 + 1, n + 1] _ h (by simp)
        simp at hdup

theorem freshWithin_drawn_iff (n : UInt16) (draws : List Draw) :
    FreshWithin 65536 (drawn n draws) ↔ PeeksLast draws :=
  ⟨peeksLast_of_freshWithin, fun h => freshWithin_drawn h n⟩

end Lib
