import Easymesh.Util.ListRuns

open Lib Lib.Result Lib.DoublyLinked

namespace easymesh.util

structure KamiListIterrator where
  next : Ptr
  direction : Int
  deriving DecidableEq

def Iter_From_Head : Int := 1

/-- The iterator that `KamiListGetIter` allocates; it does not test for a missing list. -/
def KamiListGetIter (m : memory) (list : Ptr) (direction : Int) : Result KamiListIterrator :=
  if list = 0 then fail
  else if direction = Iter_From_Head then ok { next := (m.list list).head, direction }
  else ok { next := (m.list list).tail, direction }

/-- The return value, and the iterator afterwards. -/
def KamiListIterInit (m : memory) (list : Ptr) (iter : KamiListIterrator) (direction : Int) :
    Int × KamiListIterrator :=
  if list = 0 then (-1, iter)
  else if direction = Iter_From_Head then (0, { next := (m.list list).head, direction })
  else (0, { next := (m.list list).tail, direction })

def KamiListNext (m : memory) (iter : KamiListIterrator) : Ptr × KamiListIterrator :=
  let cur := iter.next
  if cur = 0 then (0, iter)
  else if iter.direction = Iter_From_Head then (cur, { iter with next := (m.node cur).next })
  else (cur, { iter with next := (m.node cur).prev })

/-- `while ((tmp = KamiListNext(iter)) != NULL)`: what `tmp` is for the body of the
loop, one time after the other. -/
def KamiListIterrator.iterate (m : memory) : Nat → KamiListIterrator → Result (List Ptr)
  | 0, _ => div
  | fuel + 1, iter => do
    let (tmp, iter) := KamiListNext m iter
    if tmp = 0 then ok []
    else do
      let rest ← iterate m fuel iter
      ok (tmp :: rest)

/-- The link that an iterator of this direction follows. -/
def link (m : memory) (direction : Int) (p : Ptr) : Ptr :=
  if direction = Iter_From_Head then (m.node p).next else (m.node p).prev

/-- The nodes of a list in the order of an iterator. -/
def in_order (direction : Int) (xs : List Ptr) : List Ptr :=
  if direction = Iter_From_Head then xs else xs.reverse

variable {m : memory} {l : Ptr} {xs : List Ptr}

theorem KamiListNext_node (m : memory) {p : Ptr} (hp : p ≠ 0) (direction : Int) :
    KamiListNext m { next := p, direction } = (p, { next := link m direction p, direction }) := by
  unfold KamiListNext link
  by_cases hdir : direction = Iter_From_Head
  · simp [hp, hdir]
  · simp [hp, hdir]

/-- The loop sees the nodes of the path that the links make, and ends with it. -/
theorem iterate_path {fuel : Nat} {direction : Int} {p : Ptr}
    (hpath : Path (link m direction) p xs 0) (hxs : 0 ∉ xs) (hfuel : xs.length < fuel) :
    KamiListIterrator.iterate m fuel { next := p, direction } = ok xs := by
  induction xs generalizing p fuel with
  | nil =>
    cases hpath
    cases fuel with
    | zero => exact absurd hfuel (Nat.not_lt_zero _)
    | succ fuel => rfl
  | cons x xs ih =>
    obtain ⟨rfl, hpath⟩ := hpath
    have hx : p ≠ 0 := fun heq => hxs (heq ▸ List.mem_cons_self)
    cases fuel with
    | zero => exact absurd hfuel (Nat.not_lt_zero _)
    | succ fuel =>
      have hrest := ih hpath (fun hmem => hxs (List.mem_cons_of_mem p hmem))
        (Nat.lt_of_succ_lt_succ hfuel)
      rw [KamiListIterrator.iterate, KamiListNext_node m hx]
      dsimp only
      rw [if_neg hx, hrest, ok_bind]

/-- Both ways through a list are paths. -/
theorem Holds.path (h : Holds m l xs) (direction : Int) :
    Path (link m direction) ((in_order direction xs).headD 0) (in_order direction xs) 0 := by
  obtain ⟨hon, hback⟩ := seg_iff.mp h.linked
  unfold link in_order
  by_cases hdir : direction = Iter_From_Head
  · simpa only [hdir, if_true] using hon
  · have hhead := hback.head
    simpa only [hdir, if_false, ← hhead] using hback

/-- The two ways to get an iterator agree. -/
theorem KamiListIterInit_getIter (m : memory) (hl : l ≠ 0) (iter : KamiListIterrator)
    (direction : Int) :
    KamiListGetIter m l direction = ok (KamiListIterInit m l iter direction).2 := by
  unfold KamiListGetIter KamiListIterInit
  rw [if_neg hl, if_neg hl]
  split <;> rfl

theorem Holds.getIter (h : Holds m l xs) (hl : l ≠ 0) (direction : Int) :
    KamiListGetIter m l direction =
      ok { next := (in_order direction xs).headD 0, direction } := by
  unfold KamiListGetIter in_order
  rw [if_neg hl, h.head, h.tail]
  by_cases hdir : direction = Iter_From_Head
  · rw [if_pos hdir, if_pos hdir]
  · have hhead := (seg_iff.mp h.linked).2.head
    rw [if_neg hdir, if_neg hdir, hhead]

/-- Iterating over a list gives its nodes in order, or backwards from its tail. -/
theorem Holds.iterate (h : Holds m l xs) (hl : l ≠ 0) (direction : Int) {fuel : Nat}
    (hfuel : xs.length < fuel) :
    (KamiListGetIter m l direction >>= KamiListIterrator.iterate m fuel) =
      ok (in_order direction xs) := by
  rw [h.getIter hl, ok_bind]
  apply iterate_path (h.path direction)
  · unfold in_order
    split
    · exact h.notMem
    · exact fun hmem => h.notMem (List.mem_reverse.mp hmem)
  · unfold in_order
    split
    · exact hfuel
    · rwa [List.length_reverse]

end easymesh.util
