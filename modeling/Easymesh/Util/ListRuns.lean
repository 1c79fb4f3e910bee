import Easymesh.Util.ListOps
import Easymesh.Lib.Transition

open Lib Lib.Result Lib.DoublyLinked

namespace easymesh.util

/-- The nodes that following `next` from the head of a list visits, with room for
one more than its size. -/
def nodes (m : memory) (l : Ptr) : List Ptr :=
  walk 0 (fun p => (m.node p).next) ((m.list l).size.toNat + 1) (m.list l).head

/-- The nodes that following `prev` from the tail visits. -/
def nodes_back (m : memory) (l : Ptr) : List Ptr :=
  walk 0 (fun p => (m.node p).prev) ((m.list l).size.toNat + 1) (m.list l).tail

/-- A list is well formed, as a reader of its fields sees it. -/
structure WellFormed (m : memory) (l : Ptr) : Prop where
  size : (nodes m l).length = (m.list l).size
  nodup : (nodes m l).Nodup
  tail : (nodes m l).getLastD 0 = (m.list l).tail
  back : nodes_back m l = (nodes m l).reverse
  head_prev : (m.list l).head ≠ 0 → (m.node (m.list l).head).prev = 0
  tail_next : (m.list l).tail ≠ 0 → (m.node (m.list l).tail).next = 0
  owner : ∀ p, p ≠ 0 → ((m.node p).list = l ↔ p ∈ nodes m l)

/-- All lists are well formed; each address but `NULL` is that of a list. -/
def AllWellFormed (m : memory) : Prop := ∀ l, l ≠ 0 → WellFormed m l

/-- The calls that change lists. -/
inductive ListOp where
  | AddHead (list item : Ptr)
  | AddTail (list item : Ptr)
  | AddAfter (list prev item : Ptr)
  | AddBefore (list next item : Ptr)
  | InsertAt (list item : Ptr) (i : Int)
  | Del (list item : Ptr)
  | DelByIndex (list : Ptr) (i : Int)
  | DelHead (list : Ptr)
  | DelTail (list : Ptr)
  | PopHead (list : Ptr)
  | PopTail (list : Ptr)
  deriving DecidableEq

def ListOp.exec (m : memory) : ListOp → Result memory
  | AddHead list item => Prod.snd <$> KamiListAddHead m list item
  | AddTail list item => Prod.snd <$> KamiListAddTail m list item
  | AddAfter list prev item => Prod.snd <$> KamiListAddAfter m list prev item
  | AddBefore list next item => Prod.snd <$> KamiListAddBefore m list next item
  | InsertAt list item i => Prod.snd <$> KamiListInsertAt m list item i
  | Del list item => Prod.snd <$> KamiListDel m list item
  | DelByIndex list i => Prod.snd <$> KamiListDelByIndex m list i
  | DelHead list => Prod.snd <$> KamiListDelHead m list
  | DelTail list => Prod.snd <$> KamiListDelTail m list
  | PopHead list => Prod.snd <$> KamiListPopHead m list
  | PopTail list => Prod.snd <$> KamiListPopTail m list

/-- The node that a call adds. -/
def ListOp.added : ListOp → Option Ptr
  | AddHead _ item | AddTail _ item | AddAfter _ _ item | AddBefore _ _ item | InsertAt _ item _ =>
    some item
  | _ => none

/-- An added node belongs to no list. -/
def ListOp.Allowed (m : memory) (op : ListOp) : Prop :=
  ∀ item, op.added = some item → ∀ l, l ≠ 0 → item ∉ nodes m l

abbrev ListStep : memory → ListOp → memory → Prop :=
  GuardedReturning (fun m op => op.Allowed m) ListOp.exec

/-- The list whose head a call deletes. -/
def ListOp.beheads : ListOp → Option Ptr
  | DelHead list | PopHead list => some list
  | _ => none

/-- The step does not delete the head of a list of two or more nodes. -/
def KeepsHeads (m : memory) (op : ListOp) (_ : memory) : Prop :=
  ∀ l, op.beheads = some l → l ≠ 0 → (m.list l).size ≤ 1

variable {m m' : memory} {l item : Ptr} {xs ys zs : List Ptr}

section Shape

/-- Being well formed is holding some nodes. -/
theorem Holds.nodes_eq (h : Holds m l xs) : nodes m l = xs := by
  have hsize : (m.list l).size.toNat = xs.length := by
    rw [h.size]
    rfl
  rw [nodes, hsize, h.head]
  exact walk_eq_iff.mpr ⟨(seg_iff.mp h.linked).1, h.notMem⟩

theorem Holds.nodes_back_eq (h : Holds m l xs) : nodes_back m l = xs.reverse := by
  have hsize : (m.list l).size.toNat = xs.reverse.length := by
    rw [h.size, List.length_reverse]
    rfl
  rw [nodes_back, hsize, h.tail]
  refine walk_eq_iff.mpr ⟨(seg_iff.mp h.linked).2, ?_⟩
  exact fun hmem => h.notMem (List.mem_reverse.mp hmem)

theorem Holds.wellFormed (h : Holds m l xs) : WellFormed m l := by
  have hnodes := h.nodes_eq
  refine ⟨?_, ?_, ?_, ?_, fun hne => ?_, fun hne => ?_, ?_⟩
  · rw [hnodes, h.size]
  · rw [hnodes]
    exact h.nodup.of_cons
  · rw [hnodes, h.tail]
  · rw [hnodes, h.nodes_back_eq]
  · rw [h.head] at hne ⊢
    cases xs with
    | nil => exact absurd rfl hne
    | cons x xs => exact h.linked.1
  · rw [h.tail] at hne ⊢
    rcases List.eq_nil_or_concat xs with rfl | ⟨ys, z, rfl⟩
    · exact absurd rfl hne
    · rw [List.concat_eq_append] at h ⊢
      rw [List.getLastD_concat]
      exact h.links.2
  · rw [hnodes]
    exact h.owner

theorem WellFormed.holds (h : WellFormed m l) : Holds m l (nodes m l) := by
  have hnull : 0 ∉ nodes m l := null_notMem_walk 0 _ _ _
  have hsize : (m.list l).size.toNat = (nodes m l).length := by
    rw [← h.size]
    rfl
  have hon : Path (fun p => (m.node p).next) (m.list l).head (nodes m l) 0 := by
    refine (walk_eq_iff.mp ?_).1
    rw [← hsize]
    rfl
  have hback : Path (fun p => (m.node p).prev) (m.list l).tail (nodes m l).reverse 0 := by
    refine (walk_eq_iff.mp ?_).1
    rw [List.length_reverse, ← hsize]
    exact h.back
  have hhead := hon.head
  refine ⟨seg_iff.mpr ⟨hhead ▸ hon, h.tail.symm ▸ hback⟩, List.nodup_cons.mpr ⟨hnull, h.nodup⟩,
    h.owner, hhead, h.tail.symm, h.size.symm⟩

theorem Holds.list_unique {l' p : Ptr} {xs' : List Ptr} (h : Holds m l xs) (h' : Holds m l' xs')
    (hp : p ∈ xs) (hp' : p ∈ xs') : l = l' := by
  rw [← (h.owner p (h.ne_zero hp)).mpr hp, (h'.owner p (h'.ne_zero hp')).mpr hp']

theorem getLastD_mem (h : xs.getLastD 0 ≠ 0) : xs.getLastD 0 ∈ xs :=
  (List.mem_cons.mp List.getLastD_mem_cons).resolve_left h

theorem headD_mem (h : xs.headD 0 ≠ 0) : xs.headD 0 ∈ xs := by
  cases xs with
  | nil => exact absurd rfl h
  | cons x xs => exact List.mem_cons_self

end Shape

section Effects

/-- Only nodes are tested for standing next to the place of the change. -/
theorem ite_link {p a : Ptr} (hp : p ≠ 0) (x y : Ptr) :
    (if p = a ∧ a ≠ 0 then x else y) = if p = a then x else y := by
  by_cases hpa : p = a
  · rw [if_pos hpa, if_pos ⟨hpa, hpa ▸ hp⟩]
  · rw [if_neg hpa, if_neg fun hand => hpa hand.1]

theorem Added.holds (h : Added m l (ys.getLastD 0) item (zs.headD 0) m')
    (hl : Holds m l (ys ++ zs)) (hitem : item ≠ 0) (hfree : item ∉ ys ++ zs) :
    Holds m' l (ys ++ item :: zs) := by
  have hne : ∀ p ∈ ys ++ zs, p ≠ item := fun p hp heq => hfree (heq ▸ hp)
  have hys : 0 ∉ ys := fun hmem => hl.notMem (List.mem_append_left zs hmem)
  have hzs : 0 ∉ zs := fun hmem => hl.notMem (List.mem_append_right ys hmem)
  have hmem : ∀ p, p ∈ ys ++ item :: zs ↔ p = item ∨ p ∈ ys ++ zs := by
    intro p
    simp only [List.mem_append, List.mem_cons]
    tauto
  refine ⟨?_, ?_, fun p hp => ?_, ?_, ?_, ?_⟩
  · apply hl.linked.insert hl.nodup hl.notMem
    · exact ⟨(h.next item).trans (if_pos rfl), (h.prev item).trans (if_pos rfl)⟩
    · intro p hp
      rw [h.next, if_neg (hne p hp), ite_link (hl.ne_zero hp)]
    · intro p hp
      rw [h.prev, if_neg (hne p hp), ite_link (hl.ne_zero hp)]
  · refine List.nodup_cons.mpr ⟨fun hzero => ?_, List.nodup_middle.mpr
      (List.nodup_cons.mpr ⟨hfree, hl.nodup.of_cons⟩)⟩
    rcases (hmem 0).mp hzero with heq | hin
    · exact hitem heq.symm
    · exact hl.notMem hin
  · rw [h.owner, hmem]
    by_cases hpi : p = item
    · simp [hpi]
    · rw [if_neg hpi, hl.owner p hp]
      simp [hpi]
  · rw [h.head, hl.head, headD_append, headD_append, headD_eq_ite ((item :: zs).headD 0) hys,
      headD_eq_ite (zs.headD 0) hys]
    split <;> rfl
  · rw [h.tail, hl.tail, getLastD_append, getLastD_append, List.getLastD_cons,
      getLastD_eq_ite item hzs, getLastD_eq_ite (ys.getLastD 0) hzs]
    split <;> rfl
  · rw [h.size, hl.size]
    simp only [List.length_append, List.length_cons]
    push_cast
    ring

theorem Removed.holds (h : Removed m l (ys.getLastD 0) item (zs.headD 0) m') (hl0 : l ≠ 0)
    (hl : Holds m l (ys ++ item :: zs)) : Holds m' l (ys ++ zs) := by
  have hnodup := List.nodup_middle.mp hl.nodup.of_cons
  have hmem : ∀ p, p ∈ ys ++ item :: zs ↔ p = item ∨ p ∈ ys ++ zs := by
    intro p
    simp only [List.mem_append, List.mem_cons]
    tauto
  have hin : ∀ p ∈ ys ++ zs, p ∈ ys ++ item :: zs := fun p hp => (hmem p).mpr (.inr hp)
  have hgone : item ∉ ys ++ zs := (List.nodup_cons.mp hnodup).1
  have hne : ∀ p ∈ ys ++ zs, p ≠ item := fun p hp heq => hgone (heq ▸ hp)
  have hnew : (0 :: (ys ++ zs)).Nodup :=
    List.nodup_cons.mpr ⟨fun hzero => hl.notMem (hin 0 hzero), hnodup.of_cons⟩
  have hys : 0 ∉ ys := fun hzero => hl.notMem (List.mem_append_left _ hzero)
  have hzs : 0 ∉ zs := fun hzero => hl.notMem (hin 0 (List.mem_append_right ys hzero))
  refine ⟨?_, hnew, fun p hp => ?_, ?_, ?_, ?_⟩
  · apply hl.linked.remove hnew fun hzero => hl.notMem (hin 0 hzero)
    · intro p hp
      rw [h.next p (hne p hp), ite_link (hl.ne_zero (hin p hp))]
    · intro p hp
      rw [h.prev p (hne p hp), ite_link (hl.ne_zero (hin p hp))]
  · rw [h.owner]
    by_cases hpi : p = item
    · subst hpi
      rw [if_pos rfl]
      exact ⟨fun heq => absurd heq.symm hl0, fun hp' => absurd hp' hgone⟩
    · rw [if_neg hpi, hl.owner p hp, hmem]
      simp [hpi]
  · rw [h.head, hl.head, headD_append, headD_append, headD_eq_ite ((item :: zs).headD 0) hys,
      headD_eq_ite (zs.headD 0) hys]
    split <;> rfl
  · rw [h.tail, hl.tail, getLastD_append, getLastD_append, List.getLastD_cons,
      getLastD_eq_ite item hzs, getLastD_eq_ite (ys.getLastD 0) hzs]
    split <;> rfl
  · rw [h.size, hl.size]
    simp only [List.length_append, List.length_cons]
    push_cast
    ring

/-- A list none of whose nodes is touched stays as it is. -/
theorem Holds.frame {l' : Ptr} (hl' : Holds m l' xs) (hlist : m'.list l' = m.list l')
    (hsame : ∀ p ∈ xs, (m'.node p).next = (m.node p).next ∧ (m'.node p).prev = (m.node p).prev)
    (howner : ∀ p, (m'.node p).list = l' ↔ (m.node p).list = l') : Holds m' l' xs := by
  refine ⟨hl'.linked.congr hsame, hl'.nodup, fun p hp => (howner p).trans (hl'.owner p hp),
    ?_, ?_, ?_⟩
  · rw [hlist, hl'.head]
  · rw [hlist, hl'.tail]
  · rw [hlist, hl'.size]

/-- Linking a node in leaves the other lists as they are. -/
theorem Added.others {l' : Ptr} (h : Added m l (ys.getLastD 0) item (zs.headD 0) m')
    (hl : Holds m l (ys ++ zs)) (hitem : item ≠ 0) (hne : l' ≠ l) (hother : Holds m l' xs)
    (hfree : item ∉ xs) : Holds m' l' xs := by
  have hapart : ∀ p ∈ xs, p ∉ ys ++ zs := fun p hp hp' => hne (hother.list_unique hl hp hp')
  refine hother.frame (h.other l' hne) (fun p hp => ?_) fun p => ?_
  · have hpi : p ≠ item := fun he => hfree (he ▸ hp)
    rw [h.next, h.prev, if_neg hpi, if_neg hpi, if_neg, if_neg]
    · exact ⟨rfl, rfl⟩
    · rintro ⟨rfl, hne⟩
      exact hapart _ hp (List.mem_append_right _ (headD_mem hne))
    · rintro ⟨rfl, hne⟩
      exact hapart _ hp (List.mem_append_left _ (getLastD_mem hne))
  · rw [h.owner]
    by_cases hpi : p = item
    · subst hpi
      have hnot : ¬ (m.node p).list = l' := fun hown => hfree ((hother.owner p hitem).mp hown)
      simp [Ne.symm hne, hnot]
    · rw [if_neg hpi]

/-- Unlinking a node leaves the other lists as they are. -/
theorem Removed.others {l' : Ptr} (h : Removed m l (ys.getLastD 0) item (zs.headD 0) m')
    (hl : Holds m l (ys ++ item :: zs)) (hl' : l' ≠ 0) (hne : l' ≠ l) (hother : Holds m l' xs) :
    Holds m' l' xs := by
  have hapart : ∀ p ∈ xs, p ∉ ys ++ item :: zs := fun p hp hp' =>
    hne (hother.list_unique hl hp hp')
  have hin : item ∈ ys ++ item :: zs := List.mem_append_right ys List.mem_cons_self
  refine hother.frame (h.other l' hne) (fun p hp => ?_) fun p => ?_
  · have hpi : p ≠ item := fun he => hapart p hp (he ▸ hin)
    rw [h.next p hpi, h.prev p hpi, if_neg, if_neg]
    · exact ⟨rfl, rfl⟩
    · rintro ⟨rfl, hne⟩
      exact hapart _ hp (List.mem_append_right _ (List.mem_cons_of_mem _ (headD_mem hne)))
    · rintro ⟨rfl, hne⟩
      exact hapart _ hp (List.mem_append_left _ (getLastD_mem hne))
  · rw [h.owner]
    by_cases hpi : p = item
    · subst hpi
      have hown := (hl.owner p (hl.ne_zero hin)).mpr hin
      simp [hown, Ne.symm hne, Ne.symm hl']
    · rw [if_neg hpi]

theorem Added.all (h : Added m l (ys.getLastD 0) item (zs.headD 0) m') (hall : AllWellFormed m)
    (hl : l ≠ 0) (hnodes : nodes m l = ys ++ zs) (hitem : item ≠ 0)
    (hfree : ∀ l, l ≠ 0 → item ∉ nodes m l) : AllWellFormed m' := by
  have hholds : Holds m l (ys ++ zs) := hnodes ▸ (hall l hl).holds
  intro l' hl'
  by_cases heq : l' = l
  · subst heq
    exact (h.holds hholds hitem (hnodes ▸ hfree l' hl')).wellFormed
  · exact (h.others hholds hitem heq (hall l' hl').holds (hfree l' hl')).wellFormed

theorem Removed.all (h : Removed m l (ys.getLastD 0) item (zs.headD 0) m')
    (hall : AllWellFormed m) (hl : l ≠ 0) (hnodes : nodes m l = ys ++ item :: zs) :
    AllWellFormed m' := by
  have hholds : Holds m l (ys ++ item :: zs) := hnodes ▸ (hall l hl).holds
  intro l' hl'
  by_cases heq : l' = l
  · subst heq
    exact (h.holds hl' hholds).wellFormed
  · exact (h.others hholds hl' heq (hall l' hl').holds).wellFormed

end Effects

section Step

variable {list prev next : Ptr} {i : Int}

theorem AllWellFormed.holds (hall : AllWellFormed m) (hl : l ≠ 0) : Holds m l (nodes m l) :=
  (hall l hl).holds

theorem KamiListAddHead_all (hall : AllWellFormed m) (hfree : ∀ l, l ≠ 0 → item ∉ nodes m l) :
    Ends (KamiListAddHead m list item) (HasRoom m list) AllWellFormed := by
  by_cases hargs : list = 0 ∨ item = 0 ∨ (m.node item).list = list
  · rw [KamiListAddHead, if_pos hargs]
    exact .of_ok hall
  · simp only [not_or] at hargs
    obtain ⟨hlist, hitem, -⟩ := hargs
    apply (KamiListAddHead_added (hall.holds hlist) hlist hitem (hfree list hlist)).mono
    intro m' hadded
    exact @Added.all m m' list item [] (nodes m list) hadded hall hlist rfl hitem hfree

theorem KamiListAddTail_all (hall : AllWellFormed m) (hfree : ∀ l, l ≠ 0 → item ∉ nodes m l) :
    Ends (KamiListAddTail m list item) (HasRoom m list) AllWellFormed := by
  by_cases hargs : list = 0 ∨ item = 0 ∨ (m.node item).list = list
  · rw [KamiListAddTail, if_pos hargs]
    exact .of_ok hall
  · simp only [not_or] at hargs
    obtain ⟨hlist, hitem, -⟩ := hargs
    apply (KamiListAddTail_added (hall.holds hlist) hlist hitem (hfree list hlist)).mono
    intro m' hadded
    exact @Added.all m m' list item (nodes m list) [] hadded hall hlist
      (List.append_nil _).symm hitem hfree

/-- A node that names a list as its owner splits the nodes of the list. -/
theorem AllWellFormed.split (hall : AllWellFormed m) (hlist : list ≠ 0) {p : Ptr} (hp : p ≠ 0)
    (hown : (m.node p).list = list) : ∃ ys zs, nodes m list = ys ++ p :: zs :=
  List.append_of_mem (((hall.holds hlist).owner p hp).mp hown)

theorem KamiListAddAfter_all (hall : AllWellFormed m) (hfree : ∀ l, l ≠ 0 → item ∉ nodes m l) :
    Ends (KamiListAddAfter m list prev item) (HasRoom m list) AllWellFormed := by
  by_cases hargs : list = 0 ∨ prev = 0 ∨ item = 0 ∨ (m.node prev).list ≠ list ∨
      (m.node item).list = list
  · rw [KamiListAddAfter, if_pos hargs]
    exact .of_ok hall
  · simp only [not_or, not_not] at hargs
    obtain ⟨hlist, hprev, hitem, hown, -⟩ := hargs
    obtain ⟨ys, zs, hnodes⟩ := hall.split hlist hprev hown
    apply (KamiListAddAfter_added (hnodes ▸ hall.holds hlist) hlist hitem
      (hnodes ▸ hfree list hlist)).mono
    intro m' hadded
    have hlast : (ys ++ [prev]).getLastD 0 = prev := List.getLastD_concat
    refine @Added.all m m' list item (ys ++ [prev]) zs (hlast.symm ▸ hadded) hall hlist ?_
      hitem hfree
    rw [hnodes, List.append_assoc, List.singleton_append]

theorem KamiListAddBefore_all (hall : AllWellFormed m) (hfree : ∀ l, l ≠ 0 → item ∉ nodes m l) :
    Ends (KamiListAddBefore m list next item) (HasRoom m list) AllWellFormed := by
  by_cases hargs : list = 0 ∨ next = 0 ∨ item = 0 ∨ (m.node next).list ≠ list ∨
      (m.node item).list = list
  · rw [KamiListAddBefore, if_pos hargs]
    exact .of_ok hall
  · simp only [not_or, not_not] at hargs
    obtain ⟨hlist, hnext, hitem, hown, -⟩ := hargs
    obtain ⟨ys, zs, hnodes⟩ := hall.split hlist hnext hown
    apply (KamiListAddBefore_added (hnodes ▸ hall.holds hlist) hlist hitem
      (hnodes ▸ hfree list hlist)).mono
    intro m' hadded
    exact @Added.all m m' list item ys (next :: zs) hadded hall hlist hnodes hitem hfree

theorem KamiListInsertAt_all (hall : AllWellFormed m) (hfree : ∀ l, l ≠ 0 → item ∉ nodes m l) :
    Ends (KamiListInsertAt m list item i) (HasRoom m list) AllWellFormed := by
  by_cases hargs : list = 0 ∨ item = 0 ∨ (m.node item).list = list
  · rw [KamiListInsertAt, if_pos hargs]
    exact .of_ok hall
  · by_cases hi : i = (m.list list).size
    · rw [KamiListInsertAt, if_neg hargs, if_pos hi]
      exact (KamiListAddTail_all hall hfree).relabel 0
    · by_cases hat : KamiListAt m list i = 0
      · rw [KamiListInsertAt, if_neg hargs, if_neg hi]
        simp only [hat, if_true]
        exact .of_ok hall
      · simp only [not_or] at hargs
        obtain ⟨hlist, hitem, -⟩ := hargs
        obtain ⟨ys, zs, hnodes⟩ := KamiListAt_mem (hall.holds hlist) hat
        apply (KamiListInsertAt_added (hnodes ▸ hall.holds hlist) hlist hitem
          (hnodes ▸ hfree list hlist) hi rfl).mono
        intro m' hadded
        exact @Added.all m m' list item ys (KamiListAt m list i :: zs) hadded hall hlist hnodes
          hitem hfree

theorem KamiListDel_all (hall : AllWellFormed m) :
    Ends (KamiListDel m list item) True AllWellFormed := by
  by_cases hargs : list = 0 ∨ item = 0 ∨ (m.list list).size = 0 ∨ (m.node item).list ≠ list
  · rw [KamiListDel, if_pos hargs]
    exact .of_ok hall
  · simp only [not_or, not_not] at hargs
    obtain ⟨hlist, hitem, -, hown⟩ := hargs
    obtain ⟨ys, zs, hnodes⟩ := hall.split hlist hitem hown
    apply (KamiListDel_removed (hnodes ▸ hall.holds hlist) hlist).mono
    exact fun m' hremoved => hremoved.all hall hlist hnodes

theorem KamiListDelByIndex_all (hall : AllWellFormed m) :
    Ends (KamiListDelByIndex m list i) True AllWellFormed := by
  rw [KamiListDelByIndex]
  split
  · exact .of_ok hall
  · dsimp only
    split
    · exact .of_ok hall
    · exact (KamiListDel_all hall).relabel _

theorem KamiListDelTail_all (hall : AllWellFormed m) :
    Ends (KamiListDelTail m list) True AllWellFormed := by
  by_cases hargs : list = 0 ∨ (m.list list).size = 0
  · rw [KamiListDelTail, if_pos hargs]
    exact .of_ok hall
  · simp only [not_or] at hargs
    obtain ⟨hlist, hsize⟩ := hargs
    rcases List.eq_nil_or_concat' (nodes m list) with hnil | ⟨ys, z, hnodes⟩
    · rw [(hall.holds hlist).size, hnil] at hsize
      exact absurd rfl hsize
    · apply (KamiListDelTail_removed (hnodes ▸ hall.holds hlist) hlist).mono
      intro m' hremoved
      exact @Removed.all m m' list z ys [] hremoved hall hlist hnodes

/-- Deleting the head is clean exactly when no node is left. -/
theorem KamiListDelHead_all_iff (hall : AllWellFormed m) (list : Ptr) :
    Ends (KamiListDelHead m list) True fun m' =>
      (AllWellFormed m' ↔ (list ≠ 0 → (m.list list).size ≤ 1)) := by
  by_cases hargs : list = 0 ∨ (m.list list).size = 0
  · rw [KamiListDelHead, if_pos hargs]
    refine .of_ok ⟨fun _ hlist => ?_, fun _ => hall⟩
    rw [hargs.resolve_left hlist]
    decide
  · simp only [not_or] at hargs
    obtain ⟨hlist, hsize⟩ := hargs
    have hholds := hall.holds hlist
    rw [hholds.size] at hsize ⊢
    match hnodes : nodes m list with
    | [] =>
      rw [hnodes] at hsize
      exact absurd rfl hsize
    | [z] =>
      rw [hnodes] at hholds
      apply (KamiListDelHead_removed hholds hlist).mono
      intro m' hremoved
      refine ⟨fun _ _ => le_refl _, fun _ => ?_⟩
      exact @Removed.all m m' list z [] [] hremoved hall hlist hnodes
    | y :: z :: zs =>
      rw [hnodes] at hholds
      apply (KamiListDelHead_disowns hholds hlist).mono
      rintro m' ⟨hhead, hlost, hmore⟩
      have hz : z ≠ 0 := hholds.ne_zero (by simp)
      constructor
      · intro hall'
        have hfirst := (hall'.holds hlist).head
        have hin : z ∈ nodes m' list := by
          rw [← hhead, hfirst]
          exact headD_mem (by rwa [← hfirst, hhead])
        have hown := ((hall'.holds hlist).owner z hz).mpr hin
        exact absurd (hown.symm.trans hlost) hlist
      · intro hle
        have hlength := hle hlist
        simp only [List.length_cons] at hlength
        omega

theorem Ends.exec {α : Type} {x : Result (α × memory)} {room : Prop} {Q : memory → Prop}
    (h : Ends x room Q) :
    (room → (Prod.snd <$> x).Returns) ∧ ∀ m', Prod.snd <$> x = ok m' → Q m' := by
  refine ⟨fun hroom => ?_, fun m' heq => ?_⟩
  · obtain ⟨p, hp⟩ := h.returns hroom
    rw [hp]
    exact returns_ok p.2
  · obtain ⟨p, hp, rfl⟩ := map_eq_ok_iff.mp heq
    exact h.post p.1 p.2 hp

/-- A call that does not delete heads keeps the lists well formed. -/
theorem Ends.keeps {α : Type} {x : Result (α × memory)} {room : Prop} {op : ListOp}
    (h : Ends x room AllWellFormed) (hop : op.beheads = none) :
    Ends x room fun m' => (AllWellFormed m' ↔ KeepsHeads m op m') := by
  apply h.mono
  refine fun m' hall => ⟨fun _ l hl => ?_, fun _ => hall⟩
  rw [hop] at hl
  cases hl

end Step

/-- Every allowed call returns, where an `int` can count one node more, and keeps
the lists well formed but for the deletion of the head of two or more nodes. -/
theorem listOp_exec {op : ListOp} (hall : AllWellFormed m) (hallowed : op.Allowed m) :
    ((∀ l, HasRoom m l) → (op.exec m).Returns) ∧
      ∀ m', op.exec m = ok m' → (AllWellFormed m' ↔ KeepsHeads m op m') := by
  cases op with
  | AddHead list item =>
    have h : Ends (KamiListAddHead m list item) (HasRoom m list) AllWellFormed :=
      KamiListAddHead_all hall (hallowed item rfl)
    have hkeeps := (@Ends.keeps m _ _ _ (.AddHead list item) h rfl).exec
    exact ⟨fun hroom => hkeeps.1 (hroom list), hkeeps.2⟩
  | AddTail list item =>
    have h : Ends (KamiListAddTail m list item) (HasRoom m list) AllWellFormed :=
      KamiListAddTail_all hall (hallowed item rfl)
    have hkeeps := (@Ends.keeps m _ _ _ (.AddTail list item) h rfl).exec
    exact ⟨fun hroom => hkeeps.1 (hroom list), hkeeps.2⟩
  | AddAfter list prev item =>
    have h : Ends (KamiListAddAfter m list prev item) (HasRoom m list) AllWellFormed :=
      KamiListAddAfter_all hall (hallowed item rfl)
    have hkeeps := (@Ends.keeps m _ _ _ (.AddAfter list prev item) h rfl).exec
    exact ⟨fun hroom => hkeeps.1 (hroom list), hkeeps.2⟩
  | AddBefore list next item =>
    have h : Ends (KamiListAddBefore m list next item) (HasRoom m list) AllWellFormed :=
      KamiListAddBefore_all hall (hallowed item rfl)
    have hkeeps := (@Ends.keeps m _ _ _ (.AddBefore list next item) h rfl).exec
    exact ⟨fun hroom => hkeeps.1 (hroom list), hkeeps.2⟩
  | InsertAt list item i =>
    have h : Ends (KamiListInsertAt m list item i) (HasRoom m list) AllWellFormed :=
      KamiListInsertAt_all hall (hallowed item rfl)
    have hkeeps := (@Ends.keeps m _ _ _ (.InsertAt list item i) h rfl).exec
    exact ⟨fun hroom => hkeeps.1 (hroom list), hkeeps.2⟩
  | Del list item =>
    have h : Ends (KamiListDel m list item) True AllWellFormed := KamiListDel_all hall
    have hkeeps := (@Ends.keeps m _ _ _ (.Del list item) h rfl).exec
    exact ⟨fun _ => hkeeps.1 trivial, hkeeps.2⟩
  | DelByIndex list i =>
    have h : Ends (KamiListDelByIndex m list i) True AllWellFormed := KamiListDelByIndex_all hall
    have hkeeps := (@Ends.keeps m _ _ _ (.DelByIndex list i) h rfl).exec
    exact ⟨fun _ => hkeeps.1 trivial, hkeeps.2⟩
  | DelHead list =>
    have h := (KamiListDelHead_all_iff hall list).exec
    refine ⟨fun _ => h.1 trivial, fun m' hexec => (h.2 m' hexec).trans ?_⟩
    refine ⟨fun hle l hop => ?_, fun hkeep => hkeep list rfl⟩
    cases hop
    exact hle
  | DelTail list =>
    have h : Ends (KamiListDelTail m list) True AllWellFormed := KamiListDelTail_all hall
    have hkeeps := (@Ends.keeps m _ _ _ (.DelTail list) h rfl).exec
    exact ⟨fun _ => hkeeps.1 trivial, hkeeps.2⟩
  | PopHead list =>
    have h := ((KamiListDelHead_all_iff hall list).relabel (KamiListHead m list)).exec
    refine ⟨fun _ => h.1 trivial, fun m' hexec => (h.2 m' hexec).trans ?_⟩
    refine ⟨fun hle l hop => ?_, fun hkeep => hkeep list rfl⟩
    cases hop
    exact hle
  | PopTail list =>
    have h : Ends (KamiListPopTail m list) True AllWellFormed :=
      (KamiListDelTail_all hall).relabel (KamiListTail m list)
    have hkeeps := (@Ends.keeps m _ _ _ (.PopTail list) h rfl).exec
    exact ⟨fun _ => hkeeps.1 trivial, hkeeps.2⟩

/-- Before the first call every list is empty and no node names an owner. -/
def no_lists : memory :=
  { node := fun _ => { next := 0, prev := 0, list := 0 }
    list := fun _ => { head := 0, tail := 0, size := 0 } }

theorem no_lists_wellFormed : AllWellFormed no_lists := by
  intro l hl
  have howner : ∀ p : Ptr, p ≠ 0 → (0 = l ↔ p ∈ ([] : List Ptr)) :=
    fun p _ => ⟨fun h => absurd h.symm hl, nofun⟩
  exact @Holds.wellFormed no_lists l [] ⟨trivial, List.nodup_singleton 0, howner, rfl, rfl, rfl⟩

/-- In every run of list calls, all lists are well formed after each call exactly
when no call deletes the head of a list of two or more nodes. -/
theorem list_runs_well_formed_iff {tr : List (ListOp × memory)}
    (hrun : Run ListStep no_lists tr) :
    (∀ x ∈ tr, AllWellFormed x.2) ↔ AllSteps KeepsHeads no_lists tr := by
  apply Run.invariant_iff (J := fun _ => True) _ _ trivial no_lists_wellFormed hrun
  · exact fun _ _ _ => trivial
  · exact fun _ hall h => (listOp_exec hall h.1).2 _ h.2

section Runs

instance (m : memory) (op : ListOp) (m' : memory) : Decidable (KeepsHeads m op m') :=
  match h : op.beheads with
  | none => isTrue fun _ hl => nomatch h.symm.trans hl
  | some l => decidable_of_iff (l ≠ 0 → (m.list l).size ≤ 1)
      ⟨fun hle l' hl' => by cases h.symm.trans hl'; exact hle, fun hkeep => hkeep l h⟩

variable {op : ListOp}

/-- In well formed lists a node that names no owner belongs to no list. -/
theorem listStep_of_unowned (hall : AllWellFormed m)
    (hadded : ∀ item, op.added = some item → item ≠ 0 ∧ (m.node item).list = 0)
    (hreturns : (op.exec m).Returns) : ListStep m op ((op.exec m).getD m) := by
  refine ⟨fun item hitem l hl hmem => ?_, ?_⟩
  · obtain ⟨hne, hnone⟩ := hadded item hitem
    exact hl ((((hall l hl).owner item hne).mpr hmem).symm.trans hnone)
  · obtain ⟨m', hm'⟩ := hreturns
    rw [hm', getD_ok]

theorem listStep_all (hall : AllWellFormed m) (h : ListStep m op m') (hkeeps : KeepsHeads m op m') :
    AllWellFormed m' :=
  ((listOp_exec hall h.1).2 m' h.2).mpr hkeeps

end Runs

/-- The memory after some calls. -/
def after_calls (ops : List ListOp) : memory :=
  ops.foldl (fun m op => (op.exec m).getD m) no_lists

theorem push_push_pop_well_formed :
    let tr := [(ListOp.AddTail 1 2, after_calls [.AddTail 1 2]),
      (.AddHead 1 3, after_calls [.AddTail 1 2, .AddHead 1 3]),
      (.PopTail 1, after_calls [.AddTail 1 2, .AddHead 1 3, .PopTail 1])]
    Run ListStep no_lists tr ∧ ∀ x ∈ tr, AllWellFormed x.2 := by
  have hfirst := @listStep_of_unowned no_lists (.AddTail 1 2) no_lists_wellFormed
    (by rintro _ ⟨⟩; decide) (by decide +kernel)
  have hall := listStep_all no_lists_wellFormed hfirst (by decide +kernel)
  have hsecond := @listStep_of_unowned _ (.AddHead 1 3) hall
    (by rintro _ ⟨⟩; decide +kernel) (by decide +kernel)
  have hall := listStep_all hall hsecond (by decide +kernel)
  have hthird := @listStep_of_unowned _ (.PopTail 1) hall nofun (by decide +kernel)
  have hrun := Run.cons hfirst (.cons hsecond (.cons hthird (.nil _)))
  exact ⟨hrun, (list_runs_well_formed_iff hrun).mpr (by decide +kernel)⟩

/-- The node 3 is left in the list at 1 as its head, but names no owner. -/
theorem del_head_disowns :
    let tr := [(ListOp.AddTail 1 2, after_calls [.AddTail 1 2]),
      (.AddTail 1 3, after_calls [.AddTail 1 2, .AddTail 1 3]),
      (.DelHead 1, after_calls [.AddTail 1 2, .AddTail 1 3, .DelHead 1])]
    Run ListStep no_lists tr ∧ ¬ ∀ x ∈ tr, AllWellFormed x.2 := by
  have hfirst := @listStep_of_unowned no_lists (.AddTail 1 2) no_lists_wellFormed
    (by rintro _ ⟨⟩; decide) (by decide +kernel)
  have hall := listStep_all no_lists_wellFormed hfirst (by decide +kernel)
  have hsecond := @listStep_of_unowned _ (.AddTail 1 3) hall
    (by rintro _ ⟨⟩; decide +kernel) (by decide +kernel)
  have hall := listStep_all hall hsecond (by decide +kernel)
  have hthird := @listStep_of_unowned _ (.DelHead 1) hall nofun (by decide +kernel)
  refine ⟨.cons hfirst (.cons hsecond (.cons hthird (.nil _))), fun hwf => ?_⟩
  have hlast := hwf _ (List.mem_cons_of_mem _ (List.mem_cons_of_mem _ (List.mem_singleton_self _)))
  have howner := (hlast 1 (by decide)).owner 3 (by decide)
  revert howner
  decide +kernel

end easymesh.util
