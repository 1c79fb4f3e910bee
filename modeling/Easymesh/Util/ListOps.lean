import Easymesh.Util.KamiList

open Lib Lib.Result Lib.DoublyLinked

namespace easymesh.util

open memory

/-- List `l` holds the nodes `xs` in this order, and owns no other node. -/
structure Holds (m : memory) (l : Ptr) (xs : List Ptr) : Prop where
  linked : Seg (fun p => (m.node p).next) (fun p => (m.node p).prev) 0 xs 0
  nodup : (0 :: xs).Nodup
  owner : ∀ p, p ≠ 0 → ((m.node p).list = l ↔ p ∈ xs)
  head : (m.list l).head = xs.headD 0
  tail : (m.list l).tail = xs.getLastD 0
  size : (m.list l).size = xs.length

/-- `item` was linked into list `l` between `a` and `b`, each of them `NULL` at its
end of the list. -/
structure Added (m : memory) (l a item b : Ptr) (m' : memory) : Prop where
  next : ∀ p, (m'.node p).next =
    if p = item then b else if p = a ∧ a ≠ 0 then item else (m.node p).next
  prev : ∀ p, (m'.node p).prev =
    if p = item then a else if p = b ∧ b ≠ 0 then item else (m.node p).prev
  owner : ∀ p, (m'.node p).list = if p = item then l else (m.node p).list
  head : (m'.list l).head = if a = 0 then item else (m.list l).head
  tail : (m'.list l).tail = if b = 0 then item else (m.list l).tail
  size : (m'.list l).size = (m.list l).size + 1
  other : ∀ l', l' ≠ l → m'.list l' = m.list l'

/-- `item` was unlinked from between `a` and `b` in list `l`. -/
structure Removed (m : memory) (l a item b : Ptr) (m' : memory) : Prop where
  next : ∀ p, p ≠ item → (m'.node p).next = if p = a ∧ a ≠ 0 then b else (m.node p).next
  prev : ∀ p, p ≠ item → (m'.node p).prev = if p = b ∧ b ≠ 0 then a else (m.node p).prev
  owner : ∀ p, (m'.node p).list = if p = item then 0 else (m.node p).list
  head : (m'.list l).head = if a = 0 then b else (m.list l).head
  tail : (m'.list l).tail = if b = 0 then a else (m.list l).tail
  size : (m'.list l).size = (m.list l).size - 1
  other : ∀ l', l' ≠ l → m'.list l' = m.list l'

/-- List `l` may grow by a node: its size is an `int`. -/
abbrev HasRoom (m : memory) (l : Ptr) : Prop := (m.list l).size < 2147483647

/-- Where `room` holds the call returns; and what it returns is a memory as `Q` says. -/
structure Ends {α : Type} (x : Result (α × memory)) (room : Prop) (Q : memory → Prop) : Prop where
  returns : room → x.Returns
  post : ∀ r m', x = ok (r, m') → Q m'

section Ends

variable {α β : Type} {x : Result (α × memory)} {room : Prop} {P Q : memory → Prop}

theorem Ends.of_ok {r : α} {m : memory} (h : Q m) : Ends (ok (r, m)) room Q :=
  ⟨fun _ => returns_ok (r, m), fun _ _ heq => by cases heq; exact h⟩

theorem Ends.mono (h : Ends x room P) (himp : ∀ m', P m' → Q m') : Ends x room Q :=
  ⟨h.returns, fun r m' heq => himp m' (h.post r m' heq)⟩

theorem Ends.relabel (h : Ends x room Q) (r : β) :
    Ends (x >>= fun p => ok (r, p.2)) room Q := by
  refine ⟨fun hroom => ?_, fun r' m' heq => ?_⟩
  · obtain ⟨p, hp⟩ := h.returns hroom
    rw [hp]
    exact returns_ok (r, p.2)
  · obtain ⟨p, hp, heq⟩ := bind_eq_ok_iff.mp heq
    cases heq
    exact h.post p.1 p.2 hp

end Ends

variable {m m' : memory} {l item : Ptr} {xs ys zs : List Ptr}

section Holds

theorem Holds.ne_zero (h : Holds m l xs) {p : Ptr} (hp : p ∈ xs) : p ≠ 0 := by
  rintro rfl
  exact (List.nodup_cons.mp h.nodup).1 hp

theorem Holds.notMem (h : Holds m l xs) : 0 ∉ xs := (List.nodup_cons.mp h.nodup).1

theorem Holds.links (h : Holds m l (ys ++ item :: zs)) :
    (m.node item).prev = ys.getLastD 0 ∧ (m.node item).next = zs.headD 0 :=
  h.linked.links

/-- A node is the first one of its list exactly when no node is before it. -/
theorem Holds.head_iff (h : Holds m l (ys ++ item :: zs)) :
    item = (m.list l).head ↔ ys = [] := by
  rw [h.head]
  cases ys with
  | nil => simp
  | cons y ys =>
    have hnodup := h.nodup.of_cons
    have hne : item ≠ y := by
      rintro rfl
      exact List.disjoint_of_nodup_append hnodup List.mem_cons_self List.mem_cons_self
    simp [hne]

theorem Holds.tail_iff (h : Holds m l (ys ++ item :: zs)) :
    item = (m.list l).tail ↔ zs = [] := by
  rw [h.tail, getLastD_append, List.getLastD_cons]
  cases zs with
  | nil => simp
  | cons z zs =>
    refine ⟨fun heq => ?_, nofun⟩
    have hnodup := h.nodup.of_cons.of_append_right
    have hmem : item ∈ z :: zs := by
      rw [heq, List.getLastD_cons]
      exact List.getLastD_mem_cons
    exact absurd hmem (List.nodup_cons.mp hnodup).1

/-- What stands before a node of a list. -/
theorem Holds.before (h : Holds m l (ys ++ item :: zs)) : ∃ a, ys.getLastD 0 = a ∧
    (m.node item).prev = a ∧
      (a = 0 ∧ (m.list l).head = item ∨ a ≠ 0 ∧ a ∈ ys ∧ item ≠ (m.list l).head) := by
  refine ⟨_, rfl, h.links.1, ?_⟩
  cases ys with
  | nil => exact .inl ⟨rfl, (h.head_iff.mpr rfl).symm⟩
  | cons y ys =>
    have hlast : (y :: ys).getLastD 0 ∈ y :: ys := by
      rw [List.getLastD_cons]
      exact List.getLastD_mem_cons
    refine .inr ⟨h.ne_zero (List.mem_append_left _ hlast), hlast, fun heq => ?_⟩
    exact nomatch h.head_iff.mp heq

/-- What stands after a node of a list. -/
theorem Holds.after (h : Holds m l (ys ++ item :: zs)) : ∃ b, zs.headD 0 = b ∧
    (m.node item).next = b ∧
      (b = 0 ∧ (m.list l).tail = item ∨ b ≠ 0 ∧ b ∈ zs ∧ item ≠ (m.list l).tail) := by
  refine ⟨_, rfl, h.links.2, ?_⟩
  cases zs with
  | nil => exact .inl ⟨rfl, (h.tail_iff.mpr rfl).symm⟩
  | cons z zs =>
    have hz : z ∈ ys ++ item :: z :: zs := by simp
    exact .inr ⟨h.ne_zero hz, List.mem_cons_self, fun heq => nomatch h.tail_iff.mp heq⟩

end Holds

section Add

variable {list item prev next : Ptr}

theorem KamiListAddHead_added (h : Holds m list xs) (hlist : list ≠ 0) (hitem : item ≠ 0)
    (hfree : item ∉ xs) :
    Ends (KamiListAddHead m list item) (HasRoom m list) (Added m list 0 item (xs.headD 0)) := by
  have howner : (m.node item).list ≠ list := fun heq => hfree ((h.owner item hitem).mp heq)
  unfold KamiListAddHead
  rw [if_neg (by simp [*])]
  cases xs with
  | nil =>
    have hsize : (m.list list).size = 0 := h.size
    refine ⟨fun _ => ?_, fun r m' hcall => ?_⟩
    · simp [Returns, hsize, hitem]
    · simp [hsize, hitem] at hcall
      obtain ⟨-, rfl⟩ := hcall
      constructor <;> intros <;> simp [*]
  | cons x xs =>
    have hx : x ≠ 0 := h.ne_zero List.mem_cons_self
    have hne : x ≠ item := fun heq => hfree (heq ▸ List.mem_cons_self)
    have hsize : (m.list list).size ≠ 0 := by
      rw [h.size, List.length_cons]
      omega
    refine ⟨fun hroom => ?_, fun r m' hcall => ?_⟩
    · simp [Returns, hroom, hsize, h.head, hitem, hx]
    · simp [hsize, h.head, hitem, hx] at hcall
      obtain ⟨-, -, rfl⟩ := hcall
      constructor <;> intros <;> simp [*]
      all_goals grind

theorem KamiListAddTail_added (h : Holds m list xs) (hlist : list ≠ 0) (hitem : item ≠ 0)
    (hfree : item ∉ xs) :
    Ends (KamiListAddTail m list item) (HasRoom m list) (Added m list (xs.getLastD 0) item 0) := by
  have howner : (m.node item).list ≠ list := fun heq => hfree ((h.owner item hitem).mp heq)
  unfold KamiListAddTail
  rw [if_neg (by simp [*])]
  cases xs with
  | nil =>
    have hsize : (m.list list).size = 0 := h.size
    refine ⟨fun _ => ?_, fun r m' hcall => ?_⟩
    · simp [Returns, hsize, hitem]
    · simp [hsize, hitem] at hcall
      obtain ⟨-, rfl⟩ := hcall
      constructor <;> intros <;> simp [*]
  | cons x xs =>
    have htail := h.tail
    have hlast : (x :: xs).getLastD 0 ∈ x :: xs := by
      rw [List.getLastD_cons]
      exact List.getLastD_mem_cons
    generalize (x :: xs).getLastD 0 = a at htail hlast
    have ha : a ≠ 0 := h.ne_zero hlast
    have hne : a ≠ item := fun heq => hfree (heq ▸ hlast)
    have hsize : (m.list list).size ≠ 0 := by
      rw [h.size, List.length_cons]
      omega
    refine ⟨fun hroom => ?_, fun r m' hcall => ?_⟩
    · simp [Returns, hroom, hsize, htail, hitem, ha]
    · simp [hsize, htail, hitem, ha] at hcall
      obtain ⟨-, -, rfl⟩ := hcall
      constructor <;> intros <;> simp [*]
      all_goals grind

theorem KamiListAddAfter_added (h : Holds m list (ys ++ prev :: zs)) (hlist : list ≠ 0)
    (hitem : item ≠ 0) (hfree : item ∉ ys ++ prev :: zs) :
    Ends (KamiListAddAfter m list prev item) (HasRoom m list)
      (Added m list prev item (zs.headD 0)) := by
  have hmem : prev ∈ ys ++ prev :: zs := List.mem_append_right ys List.mem_cons_self
  have hprev : prev ≠ 0 := h.ne_zero hmem
  have hne : prev ≠ item := fun heq => hfree (heq ▸ hmem)
  have howner : (m.node item).list ≠ list := fun heq => hfree ((h.owner item hitem).mp heq)
  have hin : (m.node prev).list = list := (h.owner prev hprev).mpr hmem
  obtain ⟨b, hb, hnext, hend⟩ := h.after
  unfold KamiListAddAfter
  rw [if_neg (by simp [*])]
  rw [hb]
  obtain ⟨rfl, htail⟩ | ⟨hb0, hbmem, htail⟩ := hend
  · refine ⟨fun hroom => ?_, fun r m' hcall => ?_⟩
    · simp [Returns, hroom, hne, hnext, htail, hitem, hprev]
    · simp [hne, hnext, htail, hitem, hprev] at hcall
      obtain ⟨-, -, rfl⟩ := hcall
      constructor <;> intros <;> simp [*]
      all_goals grind
  · have hbne : b ≠ item := fun heq => hfree (by simp [← heq, hbmem])
    refine ⟨fun hroom => ?_, fun r m' hcall => ?_⟩
    · simp [Returns, hroom, hne, hnext, htail, hitem, hprev, hb0]
    · simp [hne, hnext, htail, hitem, hprev, hb0] at hcall
      obtain ⟨-, -, rfl⟩ := hcall
      constructor <;> intros <;> simp [*]
      all_goals grind

theorem KamiListAddBefore_added (h : Holds m list (ys ++ next :: zs)) (hlist : list ≠ 0)
    (hitem : item ≠ 0) (hfree : item ∉ ys ++ next :: zs) :
    Ends (KamiListAddBefore m list next item) (HasRoom m list)
      (Added m list (ys.getLastD 0) item next) := by
  have hmem : next ∈ ys ++ next :: zs := List.mem_append_right ys List.mem_cons_self
  have hnext : next ≠ 0 := h.ne_zero hmem
  have hne : next ≠ item := fun heq => hfree (heq ▸ hmem)
  have howner : (m.node item).list ≠ list := fun heq => hfree ((h.owner item hitem).mp heq)
  have hin : (m.node next).list = list := (h.owner next hnext).mpr hmem
  obtain ⟨a, ha, hprev, hend⟩ := h.before
  unfold KamiListAddBefore
  rw [if_neg (by simp [*])]
  rw [ha]
  obtain ⟨rfl, hhead⟩ | ⟨ha0, hamem, hhead⟩ := hend
  · refine ⟨fun hroom => ?_, fun r m' hcall => ?_⟩
    · simp [Returns, hroom, hne, hprev, hhead, hitem, hnext]
    · simp [hne, hprev, hhead, hitem, hnext] at hcall
      obtain ⟨-, -, rfl⟩ := hcall
      constructor <;> intros <;> simp [*]
      all_goals grind
  · have hane : a ≠ item := fun heq => hfree (by simp [← heq, hamem])
    refine ⟨fun hroom => ?_, fun r m' hcall => ?_⟩
    · simp [Returns, hroom, hne, hprev, hhead, hitem, hnext, ha0]
    · simp [hne, hprev, hhead, hitem, hnext, ha0] at hcall
      obtain ⟨-, -, rfl⟩ := hcall
      constructor <;> intros <;> simp [*]
      all_goals grind

/-- The loop of `KamiListAt` steps on in the list, and stays at its end. -/
theorem KamiListAt_loop {before : Ptr} (n : Nat)
    (h : Seg (fun p => (m.node p).next) (fun p => (m.node p).prev) before xs 0) (hxs : 0 ∉ xs) :
    KamiListAt.loop m n (xs.headD 0) = (xs.drop n).headD 0 := by
  induction n generalizing before xs with
  | zero => rfl
  | succ n ih =>
    cases xs with
    | nil => rfl
    | cons x xs =>
      have hx : x ≠ 0 := fun heq => hxs (heq ▸ List.mem_cons_self)
      obtain ⟨-, hnext, hrest⟩ := h
      rw [List.headD_cons, KamiListAt.loop, if_neg hx, List.drop_succ_cons]
      have hnext : (m.node x).next = xs.headD 0 := hnext
      rw [hnext]
      exact ih hrest fun hmem => hxs (List.mem_cons_of_mem x hmem)

theorem KamiListAt_mem (h : Holds m list xs) {i : Int} (hat : KamiListAt m list i ≠ 0) :
    ∃ ys zs, xs = ys ++ KamiListAt m list i :: zs := by
  unfold KamiListAt at hat ⊢
  split at hat
  · exact absurd rfl hat
  · rename_i hin
    rw [if_neg hin]
    dsimp only at hat ⊢
    generalize (if i < 0 then (m.list list).size + i else i).toNat = n at hat ⊢
    rw [h.head, KamiListAt_loop n h.linked h.notMem] at hat ⊢
    cases hdrop : xs.drop n with
    | nil =>
      rw [hdrop] at hat
      exact absurd rfl hat
    | cons x zs =>
      refine ⟨xs.take n, zs, ?_⟩
      rw [List.headD_cons, ← hdrop, List.take_append_drop]

/-- Away from the end, `KamiListInsertAt` does what `KamiListAddBefore` does. -/
theorem KamiListInsertAt_added (h : Holds m list (ys ++ next :: zs)) (hlist : list ≠ 0)
    (hitem : item ≠ 0) (hfree : item ∉ ys ++ next :: zs) {i : Int} (hi : i ≠ (m.list list).size)
    (hat : KamiListAt m list i = next) :
    Ends (KamiListInsertAt m list item i) (HasRoom m list)
      (Added m list (ys.getLastD 0) item next) := by
  have hmem : next ∈ ys ++ next :: zs := List.mem_append_right ys List.mem_cons_self
  have hnext : next ≠ 0 := h.ne_zero hmem
  have hne : next ≠ item := fun heq => hfree (heq ▸ hmem)
  have howner : (m.node item).list ≠ list := fun heq => hfree ((h.owner item hitem).mp heq)
  obtain ⟨a, ha, hprev, hend⟩ := h.before
  unfold KamiListInsertAt
  rw [if_neg (by simp [*]), if_neg hi]
  rw [ha]
  obtain ⟨rfl, hhead⟩ | ⟨ha0, hamem, hhead⟩ := hend
  · refine ⟨fun hroom => ?_, fun r m' hcall => ?_⟩
    · simp [Returns, hroom, hat, hprev, hhead, hitem, hnext]
    · simp [hat, hprev, hhead, hitem, hnext] at hcall
      obtain ⟨-, -, rfl⟩ := hcall
      constructor <;> intros <;> simp [*]
      all_goals grind
  · have hane : a ≠ item := fun heq => hfree (by simp [← heq, hamem])
    refine ⟨fun hroom => ?_, fun r m' hcall => ?_⟩
    · simp [Returns, hroom, hat, hprev, hhead, hitem, hnext, ha0]
    · simp [hat, hprev, hhead, hitem, hnext, ha0] at hcall
      obtain ⟨-, -, rfl⟩ := hcall
      constructor <;> intros <;> simp [*]
      all_goals grind

end Add

section Remove

variable {list : Ptr}

theorem Holds.size_eq_one (h : Holds m l (ys ++ item :: zs)) :
    (m.list l).size = 1 ↔ ys = [] ∧ zs = [] := by
  rw [h.size, List.length_append, List.length_cons]
  constructor
  · intro hone
    exact ⟨List.length_eq_zero_iff.mp (by omega), List.length_eq_zero_iff.mp (by omega)⟩
  · rintro ⟨rfl, rfl⟩
    rfl

theorem Holds.size_pos (h : Holds m l (ys ++ item :: zs)) : 0 < (m.list l).size := by
  rw [h.size, List.length_append, List.length_cons]
  omega

theorem KamiListDel_removed (h : Holds m list (ys ++ item :: zs)) (hlist : list ≠ 0) :
    Ends (KamiListDel m list item) True (Removed m list (ys.getLastD 0) item (zs.headD 0)) := by
  have hmem : item ∈ ys ++ item :: zs := List.mem_append_right ys List.mem_cons_self
  have hitem : item ≠ 0 := h.ne_zero hmem
  have hin : (m.node item).list = list := (h.owner item hitem).mpr hmem
  have hpos := h.size_pos
  have hsize : (m.list list).size ≠ 0 := by omega
  have hlow : -2147483648 < (m.list list).size := by omega
  have hnodup := h.nodup.of_cons
  unfold KamiListDel
  rw [if_neg (by simp [*])]
  by_cases hone : (m.list list).size = 1
  · obtain ⟨rfl, rfl⟩ := h.size_eq_one.mp hone
    refine ⟨fun _ => ?_, fun r m' hcall => ?_⟩
    · simp [Returns, hone, hitem]
    · simp [hone, hitem] at hcall
      obtain ⟨-, rfl⟩ := hcall
      constructor <;> intros <;> simp [*]
  · obtain ⟨a, ha, hprev, hstart⟩ := h.before
    obtain ⟨b, hb, hnext, hend⟩ := h.after
    rw [ha, hb]
    obtain ⟨rfl, hhead⟩ | ⟨ha0, hamem, hhead⟩ := hstart
    · obtain ⟨rfl, htail⟩ | ⟨hb0, hbmem, htail⟩ := hend
      · exact absurd (h.size_eq_one.mpr ⟨h.head_iff.mp hhead.symm, h.tail_iff.mp htail.symm⟩) hone
      · have hbne : b ≠ item := fun heq =>
          (List.nodup_cons.mp hnodup.of_append_right).1 (heq ▸ hbmem)
        refine ⟨fun _ => ?_, fun r m' hcall => ?_⟩
        · simp [Returns, hlow, KamiListDel.detach, hone, hhead, hnext, hb0, hitem]
        · simp [KamiListDel.detach, hone, hhead, hnext, hb0, hitem] at hcall
          obtain ⟨-, -, rfl⟩ := hcall
          constructor <;> intros <;> simp [*]
    · have hane : a ≠ item := fun heq =>
        List.disjoint_of_nodup_append hnodup hamem (heq ▸ List.mem_cons_self)
      obtain ⟨rfl, htail⟩ | ⟨hb0, hbmem, htail⟩ := hend
      · refine ⟨fun _ => ?_, fun r m' hcall => ?_⟩
        · simp [Returns, hlow, KamiListDel.detach, hone, hhead, htail, hprev, ha0, hitem]
        · simp [KamiListDel.detach, hone, hhead, htail, hprev, ha0, hitem] at hcall
          obtain ⟨-, -, rfl⟩ := hcall
          constructor <;> intros <;> simp [*]
      · have hbne : b ≠ item := fun heq =>
          (List.nodup_cons.mp hnodup.of_append_right).1 (heq ▸ hbmem)
        refine ⟨fun _ => ?_, fun r m' hcall => ?_⟩
        · simp [Returns, hlow, KamiListDel.detach, hone, hhead, htail, hprev, hnext, ha0, hb0,
            hane.symm, hitem]
        · simp [KamiListDel.detach, hone, hhead, htail, hprev, hnext, ha0, hb0, hane.symm,
            hitem] at hcall
          obtain ⟨-, -, rfl⟩ := hcall
          constructor <;> intros <;> simp [*]

/-- With two or more nodes the new tail is the one before. -/
theorem KamiListDelTail_removed (h : Holds m list (ys ++ [item])) (hlist : list ≠ 0) :
    Ends (KamiListDelTail m list) True (Removed m list (ys.getLastD 0) item 0) := by
  have hmem : item ∈ ys ++ [item] := List.mem_append_right ys List.mem_cons_self
  have hitem : item ≠ 0 := h.ne_zero hmem
  have hpos := h.size_pos
  have hsize : (m.list list).size ≠ 0 := by omega
  have hlow : -2147483648 < (m.list list).size := by omega
  have htail := (h.tail_iff.mpr rfl).symm
  have hnext := h.links.2
  obtain ⟨a, ha, hprev, hstart⟩ := h.before
  unfold KamiListDelTail
  rw [if_neg (by simp [*])]
  rw [ha]
  obtain ⟨rfl, hhead⟩ | ⟨ha0, hamem, hhead⟩ := hstart
  · have hone := h.size_eq_one.mpr ⟨h.head_iff.mp hhead.symm, rfl⟩
    refine ⟨fun _ => ?_, fun r m' hcall => ?_⟩
    · simp [Returns, hone, htail, hitem]
    · simp [hone, htail, hitem] at hcall
      obtain ⟨-, rfl⟩ := hcall
      constructor <;> intros <;> simp [*]
  · have hone : ¬ (m.list list).size ≤ 1 := fun hle =>
      hhead (h.head_iff.mpr (h.size_eq_one.mp (by omega)).1)
    refine ⟨fun _ => ?_, fun r m' hcall => ?_⟩
    · simp [Returns, hlow, hone, htail, hprev, hitem, ha0]
    · simp [hone, htail, hprev, hitem, ha0] at hcall
      obtain ⟨-, -, rfl⟩ := hcall
      constructor <;> intros <;> simp [*]

/-- Only the deletion of the single node of a list is clean. -/
theorem KamiListDelHead_removed (h : Holds m list [item]) (hlist : list ≠ 0) :
    Ends (KamiListDelHead m list) True (Removed m list 0 item 0) := by
  have hitem : item ≠ 0 := h.ne_zero List.mem_cons_self
  have hsize : (m.list list).size = 1 := h.size
  have hhead : (m.list list).head = item := h.head
  unfold KamiListDelHead
  rw [if_neg (by simp [*])]
  refine ⟨fun _ => ?_, fun r m' hcall => ?_⟩
  · simp [Returns, hsize, hhead, hitem]
  · simp [hsize, hhead, hitem] at hcall
    obtain ⟨-, rfl⟩ := hcall
    constructor <;> intros <;> simp [*]

/-- With two or more nodes the new head is left without its owner. -/
theorem KamiListDelHead_disowns {next : Ptr} (h : Holds m list (item :: next :: zs))
    (hlist : list ≠ 0) :
    Ends (KamiListDelHead m list) True fun m' =>
      (m'.list list).head = next ∧ (m'.node next).list = 0 ∧ 1 ≤ (m'.list list).size := by
  have hitem : item ≠ 0 := h.ne_zero List.mem_cons_self
  have hsize : (m.list list).size = zs.length + 2 := h.size
  have hhead : (m.list list).head = item := h.head
  have hnext : (m.node item).next = next := h.linked.2.1
  have hnext0 : next ≠ 0 := h.ne_zero (by simp)
  have hone : ¬ (m.list list).size ≤ 1 := by omega
  have hzero : (m.list list).size ≠ 0 := by omega
  have hlow : -2147483648 < (m.list list).size := by omega
  have hpos : 1 ≤ (m.list list).size - 1 := by omega
  unfold KamiListDelHead
  rw [if_neg (not_or.mpr ⟨hlist, hzero⟩)]
  refine ⟨fun _ => ?_, fun r m' hcall => ?_⟩
  · simp [Returns, hlow, hone, hhead, hnext, hitem, hnext0]
  · simp [hone, hhead, hnext, hitem, hnext0] at hcall
    obtain ⟨-, -, rfl⟩ := hcall
    simp [hpos]

end Remove

end easymesh.util
