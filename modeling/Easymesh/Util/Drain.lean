import Easymesh.Util.ListSequence

open Lib Lib.Result Lib.DoublyLinked

namespace easymesh.util

/-- A memory of which some nodes were released: no access to them is defined. -/
structure heap where
  mem : memory
  freed : List Ptr

namespace heap

/-- A node that may be accessed. -/
def Live (h : heap) (p : Ptr) : Prop := p ≠ 0 ∧ p ∉ h.freed

instance (h : heap) (p : Ptr) : Decidable (h.Live p) := inferInstanceAs (Decidable (_ ∧ _))

variable (h : heap)

/-- `*p` -/
def read (p : Ptr) : Result KamiListNode := if h.Live p then ok (h.mem.node p) else fail

/-- `p->next = v;` -/
def setNext (p v : Ptr) : Result heap :=
  if h.Live p then ok { h with mem := h.mem.withNext p v } else fail

/-- `p->prev = v;` -/
def setPrev (p v : Ptr) : Result heap :=
  if h.Live p then ok { h with mem := h.mem.withPrev p v } else fail

/-- `p->list = v;` -/
def setList (p v : Ptr) : Result heap :=
  if h.Live p then ok { h with mem := h.mem.withOwner p v } else fail

/-- `list->head = v;` of a list that was checked not to be `NULL`. -/
def setHead (list v : Ptr) : heap := { h with mem := h.mem.setHead list v }

/-- `list->tail = v;` -/
def setTail (list v : Ptr) : heap := { h with mem := h.mem.setTail list v }

/-- `list->size = v;` -/
def setSize (list : Ptr) (v : Int) : heap := { h with mem := h.mem.setSize list v }

/-- `list->size--;` -/
def decSize (list : Ptr) : Result heap := do
  let mem ← h.mem.decSize list
  ok { h with mem }

/-- `free(p);` of what the node is part of. -/
def free (p : Ptr) : Result heap := if h.Live p then ok { h with freed := p :: h.freed } else fail

def KamiListNext (iter : KamiListIterrator) : Result (Ptr × KamiListIterrator) :=
  let cur := iter.next
  if cur = 0 then ok (0, iter)
  else do
    let node ← h.read cur
    if iter.direction = Iter_From_Head then ok (cur, { iter with next := node.next })
    else ok (cur, { iter with next := node.prev })

/-- `item->prev = item->next = NULL; list->size--; item->list = NULL;` -/
def KamiListDel.detach (list item : Ptr) : Result (Int × heap) := do
  let h ← h.setNext item 0
  let h ← h.setPrev item 0
  let h ← h.decSize list
  let h ← h.setList item 0
  ok (0, h)

/-- `KamiListDel` with each access to a node. -/
def KamiListDel (list item : Ptr) : Result (Int × heap) :=
  if list = 0 ∨ item = 0 ∨ (h.mem.list list).size = 0 then ok (-1, h)
  else do
    let node ← h.read item
    if node.list ≠ list then ok (-1, h)
    else if (h.mem.list list).size = 1 then do
      let h := (h.setTail list 0).setHead list 0
      let h := h.setSize list 0
      let h ← h.setList item 0
      ok (0, h)
    else if item = (h.mem.list list).head then do
      let first ← h.read (h.mem.list list).head
      let h := h.setHead list first.next
      let h ← if (h.mem.list list).head ≠ 0 then h.setPrev (h.mem.list list).head 0 else ok h
      KamiListDel.detach h list item
    else if item = (h.mem.list list).tail then do
      let last ← h.read (h.mem.list list).tail
      let h := h.setTail list last.prev
      let h ← if (h.mem.list list).tail ≠ 0 then h.setNext (h.mem.list list).tail 0 else ok h
      KamiListDel.detach h list item
    else do
      let node ← h.read item
      let h ← if node.prev ≠ 0 then h.setNext node.prev node.next else ok h
      let node ← h.read item
      let h ← if node.next ≠ 0 then h.setPrev node.next node.prev else ok h
      KamiListDel.detach h list item

end heap

/-- The body of the loop: the nodes with `sat`, which it reads of what the node is
part of, are deleted and then released. -/
def drain.body (sat : Ptr → Bool) (list : Ptr) (h : heap) (tmp : Ptr) : Result heap := do
  let _ ← h.read tmp
  if sat tmp then do
    let (_, h) ← h.KamiListDel list tmp
    h.free tmp
  else ok h

/-- `while ((tmp = KamiListNext(iter)) != NULL)`; the value also holds what `tmp` was
for the body, one time after the other. -/
def drain (sat : Ptr → Bool) (list : Ptr) :
    Nat → KamiListIterrator → heap → Result (List Ptr × heap)
  | 0, _, _ => div
  | fuel + 1, iter, h => do
    let (tmp, iter) ← h.KamiListNext iter
    if tmp = 0 then ok ([], h)
    else do
      let h ← drain.body sat list h tmp
      let (visited, h) ← drain sat list fuel iter h
      ok (tmp :: visited, h)

variable {m m' : memory} {freed : List Ptr} {l item : Ptr} {xs ys zs : List Ptr}

section Access

variable {p v : Ptr} (hp : p ≠ 0) (hlive : p ∉ freed)
include hp hlive

@[simp] theorem heap.read_live : heap.read ⟨m, freed⟩ p = ok (m.node p) := if_pos ⟨hp, hlive⟩

@[simp] theorem heap.setNext_live : heap.setNext ⟨m, freed⟩ p v = ok ⟨m.withNext p v, freed⟩ :=
  if_pos ⟨hp, hlive⟩

@[simp] theorem heap.setPrev_live : heap.setPrev ⟨m, freed⟩ p v = ok ⟨m.withPrev p v, freed⟩ :=
  if_pos ⟨hp, hlive⟩

@[simp] theorem heap.setList_live : heap.setList ⟨m, freed⟩ p v = ok ⟨m.withOwner p v, freed⟩ :=
  if_pos ⟨hp, hlive⟩

@[simp] theorem heap.free_live : heap.free ⟨m, freed⟩ p = ok ⟨m, p :: freed⟩ := if_pos ⟨hp, hlive⟩

theorem KamiListNext_live : heap.KamiListNext ⟨m, freed⟩ { next := p, direction := Iter_From_Head } =
    ok (p, { next := (m.node p).next, direction := Iter_From_Head }) := by
  unfold heap.KamiListNext
  simp [hp, hlive]

end Access

theorem detach_live (m : memory) (l : Ptr) (hitem : item ≠ 0) (hfree : item ∉ freed) :
    heap.KamiListDel.detach ⟨m, freed⟩ l item =
      (fun r => (r.1, heap.mk r.2 freed)) <$> KamiListDel.detach m l item := by
  by_cases hlow : -2147483648 < (m.list l).size
  · simp [heap.KamiListDel.detach, KamiListDel.detach, heap.decSize, memory.setNext, memory.setPrev,
      memory.decSize, memory.setList, hitem, hfree, hlow]
  · simp [heap.KamiListDel.detach, KamiListDel.detach, heap.decSize, memory.setNext, memory.setPrev,
      memory.decSize, hitem, hfree, hlow]

/-- Deleting a node of a list accesses only nodes of the list. -/
theorem KamiListDel_live (h : Holds m l (ys ++ item :: zs)) (hl : l ≠ 0)
    (hlive : ∀ p ∈ ys ++ item :: zs, p ∉ freed) :
    heap.KamiListDel ⟨m, freed⟩ l item =
      (fun r => (r.1, heap.mk r.2 freed)) <$> KamiListDel m l item := by
  have hmem : item ∈ ys ++ item :: zs := List.mem_append_right ys List.mem_cons_self
  have hitem : item ≠ 0 := h.ne_zero hmem
  have hin : (m.node item).list = l := (h.owner item hitem).mpr hmem
  have hfree := hlive item hmem
  have hpos := h.size_pos
  have hsize : (m.list l).size ≠ 0 := by omega
  have hlow : -2147483648 < (m.list l).size := by omega
  have hargs : ¬ (l = 0 ∨ item = 0 ∨ (m.list l).size = 0) :=
    not_or.mpr ⟨hl, not_or.mpr ⟨hitem, hsize⟩⟩
  have hown : ¬ (l = 0 ∨ item = 0 ∨ (m.list l).size = 0 ∨ (m.node item).list ≠ l) :=
    not_or.mpr ⟨hl, not_or.mpr ⟨hitem, not_or.mpr ⟨hsize, not_not.mpr hin⟩⟩⟩
  unfold heap.KamiListDel KamiListDel
  rw [if_neg hargs, if_neg hown]
  by_cases hone : (m.list l).size = 1
  · simp [hitem, hfree, hin, hone, heap.setTail, heap.setHead, heap.setSize, memory.setList]
  · obtain ⟨a, ha, hprev, hstart⟩ := h.before
    obtain ⟨b, hb, hnext, hend⟩ := h.after
    obtain ⟨rfl, hhead⟩ | ⟨ha0, hamem, hhead⟩ := hstart
    · obtain ⟨rfl, htail⟩ | ⟨hb0, hbmem, htail⟩ := hend
      · exact absurd (h.size_eq_one.mpr ⟨h.head_iff.mp hhead.symm, h.tail_iff.mp htail.symm⟩) hone
      · have hbfree := hlive b (List.mem_append_right ys (List.mem_cons_of_mem item hbmem))
        simp [hitem, hfree, hin, hone, heap.setHead, memory.setPrev, hhead, hnext, hb0, hbfree,
          detach_live]
    · have hafree := hlive a (List.mem_append_left _ hamem)
      obtain ⟨rfl, htail⟩ | ⟨hb0, hbmem, htail⟩ := hend
      · simp [hitem, hfree, hin, hone, heap.setTail, memory.setNext, hhead, htail, hprev, ha0, hafree,
          detach_live]
      · have hbfree := hlive b (List.mem_append_right ys (List.mem_cons_of_mem item hbmem))
        simp [hitem, hfree, hin, hone, memory.setNext, memory.setPrev, hhead, htail, hprev, hnext, ha0,
          hb0, hafree, hbfree, detach_live]

section Loop

variable {sat : Ptr → Bool} (hl : l ≠ 0)
include hl

/-- Deleting and releasing a node leaves the others in the list, all of them live. -/
theorem body_deletes (h : Holds m l (ys ++ item :: zs)) (hlive : ∀ p ∈ ys ++ item :: zs, p ∉ freed)
    (hsat : sat item = true) :
    ∃ m', drain.body sat l ⟨m, freed⟩ item = ok ⟨m', item :: freed⟩ ∧ Holds m' l (ys ++ zs) ∧
      ∀ p ∈ ys ++ zs, p ∉ item :: freed := by
  have hmem : item ∈ ys ++ item :: zs := List.mem_append_right ys List.mem_cons_self
  have hitem := h.ne_zero hmem
  have hfree := hlive item hmem
  obtain ⟨hreturns, hpost⟩ := KamiListDel_removed h hl
  obtain ⟨⟨r, m'⟩, hdel⟩ := hreturns trivial
  have hgone := (List.nodup_cons.mp (List.nodup_middle.mp h.nodup.of_cons)).1
  refine ⟨m', ?_, (hpost r m' hdel).holds hl h, fun p hp hpfree => ?_⟩
  · rw [drain.body, heap.read_live hitem hfree, ok_bind, if_pos hsat, KamiListDel_live h hl hlive,
      hdel, map_ok, ok_bind]
    exact heap.free_live hitem hfree
  · rcases List.mem_cons.mp hpfree with rfl | hpfree
    · exact hgone hp
    · exact hlive p (((List.sublist_cons_self item zs).append_left ys).subset hp) hpfree

/-- From a node on the loop visits the nodes that were left, and keeps those before. -/
theorem drain_holds {fuel : Nat} {kept rest : List Ptr} (h : Holds m l (kept ++ rest))
    (hlive : ∀ p ∈ kept ++ rest, p ∉ freed) (hfuel : rest.length < fuel) :
    ∃ m', drain sat l fuel { next := rest.headD 0, direction := Iter_From_Head } ⟨m, freed⟩ =
        ok (rest, ⟨m', (rest.filter sat).reverse ++ freed⟩) ∧
      Holds m' l (kept ++ rest.filter fun p => !sat p) := by
  induction rest generalizing kept m freed fuel with
  | nil =>
    cases fuel with
    | zero => exact absurd hfuel (Nat.not_lt_zero _)
    | succ fuel => exact ⟨m, rfl, h⟩
  | cons x rest ih =>
    cases fuel with
    | zero => exact absurd hfuel (Nat.not_lt_zero _)
    | succ fuel =>
      have hmem : x ∈ kept ++ x :: rest := List.mem_append_right kept List.mem_cons_self
      have hx := h.ne_zero hmem
      have hfree := hlive x hmem
      have hfuel := Nat.lt_of_succ_lt_succ hfuel
      rw [List.headD_cons, drain, KamiListNext_live hx hfree, h.links.2, ok_bind]
      dsimp only
      rw [if_neg hx]
      cases hsat : sat x with
      | true =>
        obtain ⟨m₁, hbody, hholds, hlive⟩ := body_deletes hl h hlive hsat
        obtain ⟨m', hdrain, hholds⟩ := ih hholds hlive hfuel
        refine ⟨m', ?_, ?_⟩
        · rw [hbody, ok_bind, hdrain, ok_bind, List.filter_cons_of_pos hsat, List.reverse_cons,
            List.append_assoc, List.singleton_append]
        · rw [List.filter_cons_of_neg (by simp [hsat])]
          exact hholds
      | false =>
        have hbody : drain.body sat l ⟨m, freed⟩ x = ok ⟨m, freed⟩ := by
          rw [drain.body, heap.read_live hx hfree, ok_bind, if_neg (by simp [hsat])]
        have hnode : kept ++ x :: rest = (kept ++ [x]) ++ rest := by
          rw [List.append_assoc, List.singleton_append]
        rw [hnode] at h hlive
        obtain ⟨m', hdrain, hholds⟩ := ih h hlive hfuel
        refine ⟨m', ?_, ?_⟩
        · rw [hbody, ok_bind, hdrain, ok_bind, List.filter_cons_of_neg (by simp [hsat])]
        · rw [List.filter_cons_of_pos (by simp [hsat])]
          rwa [List.append_assoc, List.singleton_append] at hholds

/-- The loop from the head of a list. -/
theorem drain_run {h : heap} (hwf : WellFormed h.mem l) (hlive : ∀ p ∈ nodes h.mem l, p ∉ h.freed)
    {fuel : Nat} (hfuel : (nodes h.mem l).length < fuel) :
    ∃ m', (do
        let iter ← KamiListGetIter h.mem l Iter_From_Head
        drain sat l fuel iter h) =
        ok (nodes h.mem l, ⟨m', ((nodes h.mem l).filter sat).reverse ++ h.freed⟩) ∧
      Holds m' l ((nodes h.mem l).filter fun p => !sat p) := by
  obtain ⟨m', hdrain, hkept⟩ :=
    @drain_holds h.mem h.freed l sat hl fuel [] (nodes h.mem l) hwf.holds hlive hfuel
  refine ⟨m', ?_, hkept⟩
  rw [hwf.holds.getIter hl, ok_bind]
  exact hdrain

end Loop

/-- What draining list `l` comes to: the nodes visited are those it had, one by one
in order, the nodes released are those with `sat`, and the others are left. -/
structure Drained (sat : Ptr → Bool) (l : Ptr) (h : heap) (visited : List Ptr) (h' : heap) : Prop where
  visited : visited = nodes h.mem l
  once : (nodes h.mem l).Nodup
  freed : h'.freed = ((nodes h.mem l).filter sat).reverse ++ h.freed
  well_formed : WellFormed h'.mem l
  kept : nodes h'.mem l = (nodes h.mem l).filter fun p => !sat p

/-- Draining a well-formed list ends, accesses no released node and leaves the nodes
without `sat`. -/
theorem drain_filters (sat : Ptr → Bool) {h : heap} (hl : l ≠ 0) (hwf : WellFormed h.mem l)
    (hlive : ∀ p ∈ nodes h.mem l, p ∉ h.freed) {fuel : Nat}
    (hfuel : (nodes h.mem l).length < fuel) :
    ∃ visited h', (do
        let iter ← KamiListGetIter h.mem l Iter_From_Head
        drain sat l fuel iter h) = ok (visited, h') ∧ Drained sat l h visited h' := by
  obtain ⟨m', hrun, hholds⟩ := @drain_run l sat hl h hwf hlive fuel hfuel
  exact ⟨nodes h.mem l, _, hrun, rfl, hwf.nodup, rfl, hholds.wellFormed, hholds.nodes_eq⟩

/-- A list of four nodes. -/
def four_nodes : heap :=
  { mem := after_calls [.AddTail 1 2, .AddTail 1 3, .AddTail 1 4, .AddTail 1 5], freed := [] }

/-- The first two and the last are deleted. -/
theorem drain_filters_four :
    ∃ visited h', (do
        let iter ← KamiListGetIter four_nodes.mem 1 Iter_From_Head
        drain (· != 4) 1 5 iter four_nodes) = ok (visited, h') ∧
      Drained (· != 4) 1 four_nodes visited h' := by
  have hrun := @run_of_unowned _ _ [.AddTail 1 2, .AddTail 1 3, .AddTail 1 4, .AddTail 1 5]
    no_lists_stands (by decide +kernel)
  have hwf : WellFormed four_nodes.mem 1 := (endState_stands hrun).allWellFormed 1 (by decide)
  have hfuel : (nodes four_nodes.mem 1).length < 5 := by decide +kernel
  exact drain_filters (· != 4) (by decide) hwf (fun _ _ => List.not_mem_nil) hfuel

section Uses

/-- Iterating from the head of a list to delete and release the nodes with `sat`. -/
def filter_list (sat : Ptr → Bool) (fuel : Nat) (h : heap) (list : Ptr) : Result heap := do
  let iter ← KamiListGetIter h.mem list Iter_From_Head
  let (_, h) ← drain sat list fuel iter h
  ok h

/-- `al_addr` is what the neighbours hold that the nodes are part of. -/
def del_1905_nbr (al_addr : Ptr → List UInt8) (fuel : Nat) (h : heap) (nbr_1905 : Ptr)
    (almac : List UInt8) : Result heap :=
  filter_list (fun p => almac = al_addr p) fuel h nbr_1905

/-- The part of `eloop_reset_io` that empties the write queue. -/
def eloop_reset_io.release (fuel : Nat) (h : heap) (write_queue : Ptr) : Result heap :=
  filter_list (fun _ => true) fuel h write_queue

variable {h : heap} (hl : l ≠ 0) (hwf : WellFormed h.mem l)
  (hlive : ∀ p ∈ nodes h.mem l, p ∉ h.freed) {fuel : Nat} (hfuel : (nodes h.mem l).length < fuel)
include hl hwf hlive hfuel

theorem filter_list_holds (sat : Ptr → Bool) :
    ∃ h', filter_list sat fuel h l = ok h' ∧
      Holds h'.mem l ((nodes h.mem l).filter fun p => !sat p) := by
  obtain ⟨m', hrun, hholds⟩ := @drain_run l sat hl h hwf hlive fuel hfuel
  refine ⟨⟨m', ((nodes h.mem l).filter sat).reverse ++ h.freed⟩, ?_, hholds⟩
  obtain ⟨iter, hiter, hdrain⟩ := bind_eq_ok_iff.mp hrun
  rw [filter_list, hiter, ok_bind, hdrain, ok_bind]

/-- The neighbours with another address stay, in their order. -/
theorem del_1905_nbr_nodes (al_addr : Ptr → List UInt8) (almac : List UInt8) :
    ∃ h', del_1905_nbr al_addr fuel h l almac = ok h' ∧ WellFormed h'.mem l ∧
      nodes h'.mem l = (nodes h.mem l).filter fun p => almac ≠ al_addr p := by
  obtain ⟨h', hrun, hholds⟩ := filter_list_holds hl hwf hlive hfuel fun p => almac = al_addr p
  refine ⟨h', hrun, hholds.wellFormed, hholds.nodes_eq.trans ?_⟩
  simp only [ne_eq, decide_not]

/-- The write queue of a reset io is empty. -/
theorem eloop_reset_io_nodes :
    ∃ h', eloop_reset_io.release fuel h l = ok h' ∧ WellFormed h'.mem l ∧ nodes h'.mem l = [] := by
  obtain ⟨h', hrun, hholds⟩ := filter_list_holds hl hwf hlive hfuel fun _ => true
  refine ⟨h', hrun, hholds.wellFormed, hholds.nodes_eq.trans ?_⟩
  exact List.filter_eq_nil_iff.mpr fun _ _ => Bool.false_ne_true

end Uses

end easymesh.util
