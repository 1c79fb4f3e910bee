import Easymesh.Lib.Result
import Easymesh.Lib.DoublyLinked

open Lib Lib.Result

namespace easymesh.util

/-- The address of a node or of a list; `NULL` is 0. -/
abbrev Ptr := Nat

structure KamiListNode where
  next : Ptr
  prev : Ptr
  list : Ptr
  deriving DecidableEq

structure KamiList where
  head : Ptr
  tail : Ptr
  size : Int
  deriving DecidableEq

/-- The nodes and the lists that the pointers of a program refer to. -/
structure memory where
  node : Ptr → KamiListNode
  list : Ptr → KamiList

namespace memory

variable (m : memory)

def withNext (p v : Ptr) : memory :=
  { m with node := Function.update m.node p { m.node p with next := v } }

def withPrev (p v : Ptr) : memory :=
  { m with node := Function.update m.node p { m.node p with prev := v } }

def withOwner (p v : Ptr) : memory :=
  { m with node := Function.update m.node p { m.node p with list := v } }

/-- `l->head = v;` for an `l` that was checked not to be `NULL`. -/
def setHead (l v : Ptr) : memory :=
  { m with list := Function.update m.list l { m.list l with head := v } }

/-- `l->tail = v;` -/
def setTail (l v : Ptr) : memory :=
  { m with list := Function.update m.list l { m.list l with tail := v } }

/-- `l->size = v;` -/
def setSize (l : Ptr) (v : Int) : memory :=
  { m with list := Function.update m.list l { m.list l with size := v } }

/-- `p->next = v;` -/
def setNext (p v : Ptr) : Result memory := if p = 0 then fail else ok (m.withNext p v)

/-- `p->prev = v;` -/
def setPrev (p v : Ptr) : Result memory := if p = 0 then fail else ok (m.withPrev p v)

/-- `p->list = v;` -/
def setList (p v : Ptr) : Result memory := if p = 0 then fail else ok (m.withOwner p v)

/-- `l->size++;` of an `int`, undefined at its greatest value. -/
def incSize (l : Ptr) : Result memory :=
  if (m.list l).size < 2147483647 then ok (m.setSize l ((m.list l).size + 1)) else fail

/-- `l->size--;` -/
def decSize (l : Ptr) : Result memory :=
  if -2147483648 < (m.list l).size then ok (m.setSize l ((m.list l).size - 1)) else fail

section Frame

variable (p q v l l' : Ptr) (n : Int)

@[simp] theorem withNext_list : (m.withNext q v).list = m.list := rfl

@[simp] theorem withPrev_list : (m.withPrev q v).list = m.list := rfl

@[simp] theorem withOwner_list : (m.withOwner q v).list = m.list := rfl

@[simp] theorem setHead_node : (m.setHead l v).node = m.node := rfl

@[simp] theorem setTail_node : (m.setTail l v).node = m.node := rfl

@[simp] theorem setSize_node : (m.setSize l n).node = m.node := rfl

@[simp] theorem withNext_fields :
    ((m.withNext q v).node p).next = (if p = q then v else (m.node p).next) ∧
      ((m.withNext q v).node p).prev = (m.node p).prev ∧
      ((m.withNext q v).node p).list = (m.node p).list := by
  by_cases hp : p = q <;> simp [withNext, hp]

@[simp] theorem withPrev_fields :
    ((m.withPrev q v).node p).next = (m.node p).next ∧
      ((m.withPrev q v).node p).prev = (if p = q then v else (m.node p).prev) ∧
      ((m.withPrev q v).node p).list = (m.node p).list := by
  by_cases hp : p = q <;> simp [withPrev, hp]

@[simp] theorem withOwner_fields :
    ((m.withOwner q v).node p).next = (m.node p).next ∧
      ((m.withOwner q v).node p).prev = (m.node p).prev ∧
      ((m.withOwner q v).node p).list = (if p = q then v else (m.node p).list) := by
  by_cases hp : p = q <;> simp [withOwner, hp]

@[simp] theorem setHead_fields :
    ((m.setHead l v).list l').head = (if l' = l then v else (m.list l').head) ∧
      ((m.setHead l v).list l').tail = (m.list l').tail ∧
      ((m.setHead l v).list l').size = (m.list l').size := by
  by_cases hl : l' = l <;> simp [setHead, hl]

@[simp] theorem setTail_fields :
    ((m.setTail l v).list l').head = (m.list l').head ∧
      ((m.setTail l v).list l').tail = (if l' = l then v else (m.list l').tail) ∧
      ((m.setTail l v).list l').size = (m.list l').size := by
  by_cases hl : l' = l <;> simp [setTail, hl]

@[simp] theorem setSize_fields :
    ((m.setSize l n).list l').head = (m.list l').head ∧
      ((m.setSize l n).list l').tail = (m.list l').tail ∧
      ((m.setSize l n).list l').size = (if l' = l then n else (m.list l').size) := by
  by_cases hl : l' = l <;> simp [setSize, hl]

variable {l l'} (hl : l' ≠ l)
include hl

@[simp] theorem setHead_other : (m.setHead l v).list l' = m.list l' := by simp [setHead, hl]

@[simp] theorem setTail_other : (m.setTail l v).list l' = m.list l' := by simp [setTail, hl]

@[simp] theorem setSize_other : (m.setSize l n).list l' = m.list l' := by simp [setSize, hl]

end Frame

section Returns

variable {β : Type} {m} {p v l : Ptr} {f : memory → Result β} {b : β}

@[simp] theorem setNext_bind :
    (m.setNext p v >>= f) = ok b ↔ p ≠ 0 ∧ f (m.withNext p v) = ok b := by
  by_cases hp : p = 0 <;> simp [setNext, hp]

@[simp] theorem setPrev_bind :
    (m.setPrev p v >>= f) = ok b ↔ p ≠ 0 ∧ f (m.withPrev p v) = ok b := by
  by_cases hp : p = 0 <;> simp [setPrev, hp]

@[simp] theorem setList_bind :
    (m.setList p v >>= f) = ok b ↔ p ≠ 0 ∧ f (m.withOwner p v) = ok b := by
  by_cases hp : p = 0 <;> simp [setList, hp]

@[simp] theorem incSize_bind : (m.incSize l >>= f) = ok b ↔
    (m.list l).size < 2147483647 ∧ f (m.setSize l ((m.list l).size + 1)) = ok b := by
  by_cases hsize : (m.list l).size < 2147483647 <;> simp [incSize, hsize]

@[simp] theorem decSize_bind : (m.decSize l >>= f) = ok b ↔
    -2147483648 < (m.list l).size ∧ f (m.setSize l ((m.list l).size - 1)) = ok b := by
  by_cases hsize : -2147483648 < (m.list l).size <;> simp [decSize, hsize]

end Returns

end memory

open memory

def KamiListAddHead (m : memory) (list item : Ptr) : Result (Int × memory) :=
  if list = 0 ∨ item = 0 ∨ (m.node item).list = list then ok (-1, m)
  else if (m.list list).size = 0 then do
    let m ← m.setNext item 0
    let m ← m.setPrev item 0
    let m := (m.setTail list item).setHead list item
    let m ← m.incSize list
    let m ← m.setList item list
    ok (0, m)
  else do
    let m ← m.setPrev item 0
    let m ← m.setNext item (m.list list).head
    let m ← m.setPrev (m.list list).head item
    let m := m.setHead list item
    let m ← m.incSize list
    let m ← m.setList item list
    ok (0, m)

def KamiListAddTail (m : memory) (list item : Ptr) : Result (Int × memory) :=
  if list = 0 ∨ item = 0 ∨ (m.node item).list = list then ok (-1, m)
  else if (m.list list).size = 0 then do
    let m ← m.setNext item 0
    let m ← m.setPrev item 0
    let m := (m.setTail list item).setHead list item
    let m ← m.incSize list
    let m ← m.setList item list
    ok (0, m)
  else do
    let m ← m.setNext item 0
    let m ← m.setPrev item (m.list list).tail
    let m ← m.setNext (m.list list).tail item
    let m := m.setTail list item
    let m ← m.incSize list
    let m ← m.setList item list
    ok (0, m)

def KamiListAddAfter (m : memory) (list prev item : Ptr) : Result (Int × memory) :=
  if list = 0 ∨ prev = 0 ∨ item = 0 ∨ (m.node prev).list ≠ list ∨ (m.node item).list = list then
    ok (-1, m)
  else do
    let m ← m.setList item list
    let m ← m.setPrev item prev
    let m ← m.setNext item (m.node prev).next
    let m ← if (m.node prev).next ≠ 0 then m.setPrev (m.node prev).next item else ok m
    let m ← m.setNext prev item
    let m := if prev = (m.list list).tail then m.setTail list item else m
    let m ← m.incSize list
    ok (0, m)

def KamiListAddBefore (m : memory) (list next item : Ptr) : Result (Int × memory) :=
  if list = 0 ∨ next = 0 ∨ item = 0 ∨ (m.node next).list ≠ list ∨ (m.node item).list = list then
    ok (-1, m)
  else do
    let m ← m.setList item list
    let m ← m.setNext item next
    let m ← m.setPrev item (m.node next).prev
    let m ← if (m.node next).prev ≠ 0 then m.setNext (m.node next).prev item else ok m
    let m ← m.setPrev next item
    let m := if next = (m.list list).head then m.setHead list item else m
    let m ← m.incSize list
    ok (0, m)

/-- The loop of `KamiListAt`: `i` links on from `tmp`. -/
def KamiListAt.loop (m : memory) : Nat → Ptr → Ptr
  | 0, tmp => tmp
  | i + 1, tmp => if tmp = 0 then tmp else loop m i (m.node tmp).next

/-- Indices from the end are negative: the last node is at -1. -/
def KamiListAt (m : memory) (list : Ptr) (i : Int) : Ptr :=
  if list = 0 ∨ i < -(m.list list).size ∨ (m.list list).size ≤ i then 0
  else
    let i := if i < 0 then (m.list list).size + i else i
    KamiListAt.loop m i.toNat (m.list list).head

def KamiListInsertAt (m : memory) (list item : Ptr) (i : Int) : Result (Int × memory) :=
  if list = 0 ∨ item = 0 ∨ (m.node item).list = list then ok (-1, m)
  else if i = (m.list list).size then do
    let (_, m) ← KamiListAddTail m list item
    ok (0, m)
  else
    let next := KamiListAt m list i
    if next = 0 then ok (-1, m)
    else do
      let prev := (m.node next).prev
      let m ← m.setNext item next
      let m ← m.setPrev item prev
      let m ← m.setList item list
      let m ← if prev ≠ 0 then m.setNext prev item else ok m
      let m ← m.setPrev next item
      let m := if next = (m.list list).head then m.setHead list item else m
      let m ← m.incSize list
      ok (0, m)

def KamiListHead (m : memory) (list : Ptr) : Ptr := if list = 0 then 0 else (m.list list).head

def KamiListTail (m : memory) (list : Ptr) : Ptr := if list = 0 then 0 else (m.list list).tail

/-- `item->prev = item->next = NULL; list->size--; item->list = NULL;` -/
def KamiListDel.detach (m : memory) (list item : Ptr) : Result (Int × memory) := do
  let m ← m.setNext item 0
  let m ← m.setPrev item 0
  let m ← m.decSize list
  let m ← m.setList item 0
  ok (0, m)

def KamiListDel (m : memory) (list item : Ptr) : Result (Int × memory) :=
  if list = 0 ∨ item = 0 ∨ (m.list list).size = 0 ∨ (m.node item).list ≠ list then ok (-1, m)
  else if (m.list list).size = 1 then do
    let m := (m.setTail list 0).setHead list 0
    let m := m.setSize list 0
    let m ← m.setList item 0
    ok (0, m)
  else if item = (m.list list).head then do
    let m := m.setHead list (m.node (m.list list).head).next
    let m ← if (m.list list).head ≠ 0 then m.setPrev (m.list list).head 0 else ok m
    KamiListDel.detach m list item
  else if item = (m.list list).tail then do
    let m := m.setTail list (m.node (m.list list).tail).prev
    let m ← if (m.list list).tail ≠ 0 then m.setNext (m.list list).tail 0 else ok m
    KamiListDel.detach m list item
  else do
    let m ← if (m.node item).prev ≠ 0 then m.setNext (m.node item).prev (m.node item).next else ok m
    let m ← if (m.node item).next ≠ 0 then m.setPrev (m.node item).next (m.node item).prev else ok m
    KamiListDel.detach m list item

def KamiListDelByIndex (m : memory) (list : Ptr) (i : Int) : Result (Ptr × memory) :=
  if list = 0 ∨ i < -(m.list list).size ∨ (m.list list).size ≤ i then ok (0, m)
  else
    let tmp := KamiListAt m list i
    if tmp = 0 then ok (0, m)
    else do
      let (_, m) ← KamiListDel m list tmp
      ok (tmp, m)

/-- With two or more nodes, the last assignment clears the owner of the new head. -/
def KamiListDelHead (m : memory) (list : Ptr) : Result (Int × memory) :=
  if list = 0 ∨ (m.list list).size = 0 then ok (-1, m)
  else do
    let m ← m.setList (m.list list).head 0
    if (m.list list).size ≤ 1 then do
      let m := (m.setTail list 0).setHead list 0
      let m ← m.decSize list
      ok (0, m)
    else do
      let m := m.setHead list (m.node (m.list list).head).next
      let m ← m.setPrev (m.list list).head 0
      let m ← m.decSize list
      let m ← m.setList (m.list list).head 0
      ok (0, m)

def KamiListDelTail (m : memory) (list : Ptr) : Result (Int × memory) :=
  if list = 0 ∨ (m.list list).size = 0 then ok (-1, m)
  else do
    let m ← m.setList (m.list list).tail 0
    if (m.list list).size ≤ 1 then do
      let m := (m.setTail list 0).setHead list 0
      let m ← m.decSize list
      ok (0, m)
    else do
      let m := m.setTail list (m.node (m.list list).tail).prev
      let m ← m.setNext (m.list list).tail 0
      let m ← m.decSize list
      ok (0, m)

def KamiListPopHead (m : memory) (list : Ptr) : Result (Ptr × memory) := do
  let tmp := KamiListHead m list
  let (_, m) ← KamiListDelHead m list
  ok (tmp, m)

def KamiListPopTail (m : memory) (list : Ptr) : Result (Ptr × memory) := do
  let tmp := KamiListTail m list
  let (_, m) ← KamiListDelTail m list
  ok (tmp, m)

end easymesh.util
