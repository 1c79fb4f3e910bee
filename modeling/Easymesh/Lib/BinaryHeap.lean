import Mathlib.Tactic
import Mathlib.Data.Multiset.Range

namespace Lib.BinaryHeap

variable {α β : Type} [LinearOrder α] {key : Nat → α} {n hole : Nat} {x : α}

/-- The parent position in an implicit binary tree; position 0 is the root. -/
def parent (i : Nat) : Nat := (i - 1) / 2

theorem parent_lt {i : Nat} (hi : 0 < i) : parent i < i := by
  unfold parent
  omega

@[simp] theorem parent_zero : parent 0 = 0 := rfl

theorem parent_eq_iff {c p : Nat} (hc : 0 < c) :
    parent c = p ↔ c = 2 * p + 1 ∨ c = 2 * p + 2 := by
  unfold parent
  omega

/-- Every position below `n` except the root is at least its parent. -/
def Ordered (key : Nat → α) (n : Nat) : Prop :=
  ∀ i, 0 < i → i < n → key (parent i) ≤ key i

theorem Ordered.mono {m : Nat} (h : Ordered key n) (hm : m ≤ n) : Ordered key m :=
  fun i hi hlt => h i hi (by omega)

/-- The root of an ordered tree is a minimum. -/
theorem Ordered.root_le (h : Ordered key n) : ∀ i, i < n → key 0 ≤ key i := by
  intro i
  induction i using Nat.strong_induction_on with
  | _ i ih =>
    intro hlt
    rcases Nat.eq_zero_or_pos i with rfl | hi
    · exact le_rfl
    · have hp := parent_lt hi
      exact (ih (parent i) hp (by omega)).trans (h i hi hlt)

theorem Ordered.congr {key' : Nat → α} (h : Ordered key n) (heq : ∀ i, i < n → key' i = key i) :
    Ordered key' n := by
  intro i hi hlt
  have hp := parent_lt hi
  rw [heq _ (by omega), heq _ hlt]
  exact h i hi hlt

/-- Order around a hole that a value on its way up will fill: the pairs off the
hole are in order, and the children of the hole are above its parent and `x`. -/
structure UpHole (key : Nat → α) (n hole : Nat) (x : α) : Prop where
  except : ∀ i, 0 < i → i < n → i ≠ hole → parent i ≠ hole → key (parent i) ≤ key i
  grand : 0 < hole → ∀ c, 0 < c → c < n → parent c = hole → key (parent hole) ≤ key c
  below : ∀ c, 0 < c → c < n → parent c = hole → x ≤ key c

/-- Order around a hole that a value on its way down will fill: the pairs off
the hole are in order, and the hole's parent is below its children and `x`. -/
structure DownHole (key : Nat → α) (n hole : Nat) (x : α) : Prop where
  except : ∀ i, 0 < i → i < n → i ≠ hole → parent i ≠ hole → key (parent i) ≤ key i
  grand : 0 < hole → ∀ c, 0 < c → c < n → parent c = hole → key (parent hole) ≤ key c
  above : 0 < hole → key (parent hole) ≤ x

/-- Filling the hole orders the tree when the new value is above the parent and
below the children. -/
theorem ordered_fill
    (except : ∀ i, 0 < i → i < n → i ≠ hole → parent i ≠ hole → key (parent i) ≤ key i)
    (above : 0 < hole → key (parent hole) ≤ x)
    (below : ∀ c, 0 < c → c < n → parent c = hole → x ≤ key c) :
    Ordered (Function.update key hole x) n := by
  intro i hi hlt
  have hp := parent_lt hi
  by_cases hih : i = hole
  · subst hih
    rw [Function.update_self, Function.update_of_ne (by omega)]
    exact above hi
  · rw [Function.update_of_ne hih]
    by_cases hph : parent i = hole
    · rw [hph, Function.update_self]
      exact below i hi hlt hph
    · rw [Function.update_of_ne hph]
      exact except i hi hlt hih hph

theorem UpHole.fill (h : UpHole key n hole x) (hstop : 0 < hole → key (parent hole) ≤ x) :
    Ordered (Function.update key hole x) n :=
  ordered_fill h.except hstop h.below

theorem DownHole.fill (h : DownHole key n hole x)
    (hstop : ∀ c, 0 < c → c < n → parent c = hole → x ≤ key c) :
    Ordered (Function.update key hole x) n :=
  ordered_fill h.except h.above hstop

/-- The parent above `x` moves down into the hole. -/
theorem UpHole.move (h : UpHole key n hole x) (hpos : 0 < hole) (hlt : hole < n)
    (hx : x < key (parent hole)) :
    UpHole (Function.update key hole (key (parent hole))) n (parent hole) x := by
  have hp := parent_lt hpos
  have hchild : ∀ c, 0 < c → c < n → parent c = parent hole → c ≠ hole →
      key (parent hole) ≤ key c := by
    intro c hc hcn hpc hne
    have := h.except c hc hcn hne (by omega)
    rwa [hpc] at this
  refine ⟨fun i hi hin hip hpi => ?_, fun hq c hc hcn hpc => ?_, fun c hc hcn hpc => ?_⟩
  · have hih : i ≠ hole := by
      rintro rfl
      exact hpi rfl
    rw [Function.update_of_ne hih]
    by_cases hph : parent i = hole
    · rw [hph, Function.update_self]
      exact h.grand hpos i hi hin hph
    · rw [Function.update_of_ne hph]
      exact h.except i hi hin hih hph
  · have hpq := parent_lt hq
    have htop : key (parent (parent hole)) ≤ key (parent hole) :=
      h.except (parent hole) hq (by omega) (by omega) (by omega)
    rw [Function.update_of_ne (by omega)]
    by_cases hch : c = hole
    · rw [hch, Function.update_self]
      exact htop
    · rw [Function.update_of_ne hch]
      exact htop.trans (hchild c hc hcn hpc hch)
  · by_cases hch : c = hole
    · rw [hch, Function.update_self]
      exact hx.le
    · rw [Function.update_of_ne hch]
      exact hx.le.trans (hchild c hc hcn hpc hch)

/-- A least child that is not above `x` moves up into the hole. -/
theorem DownHole.move {c : Nat} (h : DownHole key n hole x) (hc : 0 < c) (hcn : c < n)
    (hpc : parent c = hole) (hmin : ∀ s, 0 < s → s < n → parent s = hole → key c ≤ key s)
    (hx : key c ≤ x) : DownHole (Function.update key hole (key c)) n c x := by
  have hlt : hole < c := by
    rw [← hpc]
    exact parent_lt hc
  refine ⟨fun i hi hin hic hpi => ?_, fun _ d hd hdn hpd => ?_, fun _ => ?_⟩
  · by_cases hih : i = hole
    · subst hih
      have hp := parent_lt hi
      rw [Function.update_self, Function.update_of_ne (by omega)]
      exact h.grand hi c hc hcn hpc
    · rw [Function.update_of_ne hih]
      by_cases hph : parent i = hole
      · rw [hph, Function.update_self]
        exact hmin i hi hin hph
      · rw [Function.update_of_ne hph]
        exact h.except i hi hin hih hph
  · have hdc : c < d := by
      rw [← hpd]
      exact parent_lt hd
    rw [hpc, Function.update_self, Function.update_of_ne (by omega)]
    have := h.except d hd hdn (by omega) (by omega)
    rwa [hpd] at this
  · rw [hpc, Function.update_self]
    exact hx

/-- What the first `n` slots of an array hold, without their order. -/
def contents (f : Nat → β) (n : Nat) : Multiset β := (Multiset.range n).map f

theorem contents_succ (f : Nat → β) (n : Nat) : contents f (n + 1) = f n ::ₘ contents f n := by
  simp [contents, Multiset.range_succ]

theorem contents_congr {f g : Nat → β} {n : Nat} (h : ∀ i, i < n → f i = g i) :
    contents f n = contents g n :=
  Multiset.map_congr rfl fun i hi => h i (Multiset.mem_range.mp hi)

theorem mem_contents {f : Nat → β} {n : Nat} {b : β} :
    b ∈ contents f n ↔ ∃ i, i < n ∧ f i = b := by
  simp [contents]

/-- Overwriting one slot exchanges its value for the new one. -/
theorem contents_update {f : Nat → β} {n i : Nat} (hi : i < n) (b : β) :
    f i ::ₘ contents (Function.update f i b) n = b ::ₘ contents f n := by
  obtain ⟨t, ht⟩ := Multiset.exists_cons_of_mem (Multiset.mem_range.mpr hi)
  have hnot : i ∉ t := by
    have hnodup := Multiset.nodup_range n
    rw [ht] at hnodup
    exact (Multiset.nodup_cons.mp hnodup).1
  have hrest : t.map (Function.update f i b) = t.map f := by
    refine Multiset.map_congr rfl fun j hj => Function.update_of_ne ?_ _ _
    rintro rfl
    exact hnot hj
  rw [contents, contents, ht, Multiset.map_cons, Multiset.map_cons, Function.update_self, hrest,
    Multiset.cons_swap]

theorem contents_update_outside {f : Nat → β} {n i : Nat} (hi : n ≤ i) (b : β) :
    contents (Function.update f i b) n = contents f n :=
  contents_congr fun j hj => Function.update_of_ne (by omega) _ _

/-- A hole may move to any slot whose value fills the old hole: what the array
holds once the hole is filled is the same. -/
theorem contents_move {f : Nat → β} {n i j : Nat} (hi : i < n) (hj : j < n) (hij : i ≠ j) (b : β) :
    contents (Function.update (Function.update f i (f j)) j b) n =
      contents (Function.update f i b) n := by
  have hmoved := contents_update (f := Function.update f i (f j)) hj b
  rw [Function.update_of_ne (Ne.symm hij)] at hmoved
  have hfilled := contents_update (f := f) hi (f j)
  have hdirect := contents_update (f := f) hi b
  refine (Multiset.cons_inj_right (f j)).mp ((Multiset.cons_inj_right (f i)).mp ?_)
  calc f i ::ₘ f j ::ₘ contents (Function.update (Function.update f i (f j)) j b) n
      = b ::ₘ f i ::ₘ contents (Function.update f i (f j)) n := by
        rw [hmoved, Multiset.cons_swap]
    _ = f j ::ₘ b ::ₘ contents f n := by rw [hfilled, Multiset.cons_swap]
    _ = f i ::ₘ f j ::ₘ contents (Function.update f i b) n := by
        rw [← hdirect, Multiset.cons_swap]

end Lib.BinaryHeap
