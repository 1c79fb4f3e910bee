import Easymesh.Util.Iterator
import Easymesh.Lib.Sequence

open Lib Lib.Result Lib.DoublyLinked Lib.Sequence

namespace easymesh.util

/-- What a call returns: an `int`, or a node or `NULL`. -/
inductive Outcome where
  | code (r : Int)
  | node (p : Ptr)
  deriving DecidableEq

/-- A call with its return value. -/
def ListOp.call (m : memory) : ListOp → Result (Outcome × memory)
  | AddHead list item => Prod.map .code id <$> KamiListAddHead m list item
  | AddTail list item => Prod.map .code id <$> KamiListAddTail m list item
  | AddAfter list prev item => Prod.map .code id <$> KamiListAddAfter m list prev item
  | AddBefore list next item => Prod.map .code id <$> KamiListAddBefore m list next item
  | InsertAt list item i => Prod.map .code id <$> KamiListInsertAt m list item i
  | Del list item => Prod.map .code id <$> KamiListDel m list item
  | DelByIndex list i => Prod.map .node id <$> KamiListDelByIndex m list i
  | DelHead list => Prod.map .code id <$> KamiListDelHead m list
  | DelTail list => Prod.map .code id <$> KamiListDelTail m list
  | PopHead list => Prod.map .node id <$> KamiListPopHead m list
  | PopTail list => Prod.map .node id <$> KamiListPopTail m list

theorem ListOp.exec_eq_call (m : memory) (op : ListOp) : op.exec m = Prod.snd <$> op.call m := by
  cases op <;> (simp only [ListOp.exec, ListOp.call, Functor.map_map]; rfl)

/-- The list that a call is about. -/
def ListOp.list : ListOp → Ptr
  | AddHead list _ | AddTail list _ | AddAfter list _ _ | AddBefore list _ _ | InsertAt list _ _
  | Del list _ | DelByIndex list _ | DelHead list | DelTail list | PopHead list | PopTail list => list

/-- The sequences that the lists of a memory stand for. -/
abbrev Sequences := Ptr → List Ptr

/-- The operation on a sequence that a call is, or `none` where it fails. -/
def ListOp.edit (xs : List Ptr) : ListOp → Option (List Ptr)
  | AddHead _ item => some (item :: xs)
  | AddTail _ item => some (xs ++ [item])
  | AddAfter _ prev item => if prev ∈ xs then some (insertAfter xs prev item) else none
  | AddBefore _ next item => if next ∈ xs then some (insertBefore xs next item) else none
  | InsertAt _ item i => (gap xs.length i).map fun k => xs.insertIdx k item
  | Del _ item => if item ∈ xs then some (xs.erase item) else none
  | DelByIndex _ i => (position xs.length i).map fun k => xs.eraseIdx k
  | DelHead _ | PopHead _ => if xs = [] then none else some xs.tail
  | DelTail _ | PopTail _ => if xs = [] then none else some xs.dropLast

/-- What a call on a sequence returns when it succeeds. -/
def ListOp.result (xs : List Ptr) : ListOp → Outcome
  | DelByIndex _ i => .node ((item_at xs i).getD 0)
  | PopHead _ => .node (xs.headD 0)
  | PopTail _ => .node (xs.getLastD 0)
  | _ => .code 0

/-- What a call returns when it fails. -/
def ListOp.failure : ListOp → Outcome
  | DelByIndex _ _ | PopHead _ | PopTail _ => .node 0
  | _ => .code (-1)

/-- A call on sequences; with a list or an item that is `NULL` it fails. -/
def ListOp.apply (s : Sequences) (op : ListOp) : Outcome × Sequences :=
  if op.list = 0 ∨ op.added = some 0 then (op.failure, s)
  else
    match op.edit (s op.list) with
    | none => (op.failure, s)
    | some xs => (op.result (s op.list), Function.update s op.list xs)

/-- What a program reads of list `l` is the sequence `xs`: by following the links,
by iterating from either end, by index and by its size. -/
structure Reads (m : memory) (l : Ptr) (xs : List Ptr) : Prop where
  nodes : nodes m l = xs
  forward : ∀ fuel, xs.length < fuel →
    (KamiListGetIter m l Iter_From_Head >>= KamiListIterrator.iterate m fuel) = ok xs
  backward : ∀ fuel direction, xs.length < fuel → direction ≠ Iter_From_Head →
    (KamiListGetIter m l direction >>= KamiListIterrator.iterate m fuel) = ok xs.reverse
  at_index : ∀ i, KamiListAt m l i = (item_at xs i).getD 0
  size : (m.list l).size = xs.length

/-- A call does to a memory what the operation does to the sequences, and returns
the same. -/
structure Refines (s : Sequences) (m : memory) (op : ListOp) (m' : memory) : Prop where
  outcome : op.call m = ok ((op.apply s).1, m')
  reads : ∀ l, l ≠ 0 → Reads m' l ((op.apply s).2 l)

/-- The lists of a memory hold the sequences. -/
def Stands (s : Sequences) (m : memory) : Prop := ∀ l, l ≠ 0 → Holds m l (s l)

variable {m m' : memory} {s : Sequences} {l item : Ptr} {xs ys zs : List Ptr} {i : Int}

section Reading

theorem KamiListAt_eq (h : Holds m l xs) (hl : l ≠ 0) (i : Int) :
    KamiListAt m l i = (item_at xs i).getD 0 := by
  unfold KamiListAt
  rw [h.size]
  cases hpos : position xs.length i with
  | none =>
    rw [item_at_eq_none_iff.mpr hpos]
    have hout := position_eq_none_iff.mp hpos
    rw [if_pos (.inr hout)]
    rfl
  | some k =>
    obtain ⟨hk, hi⟩ := position_eq_some hpos
    have hin : ¬ (l = 0 ∨ i < -(xs.length : Int) ∨ (xs.length : Int) ≤ i) := by
      have hsome : position xs.length i ≠ none := fun hnone => nomatch hpos.symm.trans hnone
      exact not_or.mpr ⟨hl, fun hout => hsome (position_eq_none_iff.mpr hout)⟩
    have hidx : (if i < 0 then (xs.length : Int) + i else i).toNat = k := by
      rw [← hi, Int.toNat_natCast]
    rw [if_neg hin]
    dsimp only
    rw [hidx, h.head, KamiListAt_loop k h.linked h.notMem, item_at, hpos]
    change _ = (xs[k]?).getD 0
    rw [List.headD_eq_head?_getD, List.head?_drop]

theorem Holds.reads (h : Holds m l xs) (hl : l ≠ 0) : Reads m l xs where
  nodes := h.nodes_eq
  forward _ hfuel := h.iterate hl Iter_From_Head hfuel
  backward _ direction hfuel hdir := by
    have hback := h.iterate hl direction hfuel
    rwa [in_order, if_neg hdir] at hback
  at_index := KamiListAt_eq h hl
  size := h.size

end Reading

theorem Holds.split (h : Holds m l xs) {p : Ptr} (hp : p ∈ xs) :
    ∃ ys zs, xs = ys ++ p :: zs ∧ p ∉ ys := by
  obtain ⟨ys, zs, rfl⟩ := List.append_of_mem hp
  exact ⟨ys, zs, rfl, fun hmem =>
    List.disjoint_of_nodup_append h.nodup.of_cons hmem List.mem_cons_self⟩

section Codes

variable {α : Type} {list prev next : Ptr}

/-- The call returns 0 when it returns. -/
def Succeeds (x : Result (Int × memory)) : Prop := ∀ r m', x = ok (r, m') → r = 0

theorem Succeeds.ok (m : memory) : Succeeds (ok (0, m)) := fun _ _ h => by cases h; rfl

theorem Succeeds.bind {x : Result α} {f : α → Result (Int × memory)} (h : ∀ a, Succeeds (f a)) :
    Succeeds (x >>= f) := by
  intro r m' heq
  obtain ⟨a, -, hf⟩ := bind_eq_ok_iff.mp heq
  exact h a r m' hf

theorem Succeeds.ite {c : Prop} [Decidable c] {x y : Result (Int × memory)} (hx : Succeeds x)
    (hy : Succeeds y) : Succeeds (if c then x else y) := by
  split
  · exact hx
  · exact hy

theorem KamiListAddHead_succeeds
    (hargs : ¬ (list = 0 ∨ item = 0 ∨ (m.node item).list = list)) :
    Succeeds (KamiListAddHead m list item) := by
  rw [KamiListAddHead, if_neg hargs]
  apply Succeeds.ite
  · exact .bind fun _ => .bind fun _ => .bind fun _ => .bind fun _ => .ok _
  · exact .bind fun _ => .bind fun _ => .bind fun _ => .bind fun _ => .bind fun _ => .ok _

theorem KamiListAddTail_succeeds
    (hargs : ¬ (list = 0 ∨ item = 0 ∨ (m.node item).list = list)) :
    Succeeds (KamiListAddTail m list item) := by
  rw [KamiListAddTail, if_neg hargs]
  apply Succeeds.ite
  · exact .bind fun _ => .bind fun _ => .bind fun _ => .bind fun _ => .ok _
  · exact .bind fun _ => .bind fun _ => .bind fun _ => .bind fun _ => .bind fun _ => .ok _

theorem KamiListAddAfter_succeeds
    (hargs : ¬ (list = 0 ∨ prev = 0 ∨ item = 0 ∨ (m.node prev).list ≠ list ∨
      (m.node item).list = list)) : Succeeds (KamiListAddAfter m list prev item) := by
  rw [KamiListAddAfter, if_neg hargs]
  refine .bind fun _ => .bind fun _ => .bind fun _ => .ite (.bind fun m => ?_) ?_
  · exact .bind fun _ => .bind fun _ => .ok _
  · exact .bind fun _ => .bind fun _ => .bind fun _ => .ok _

theorem KamiListAddBefore_succeeds
    (hargs : ¬ (list = 0 ∨ next = 0 ∨ item = 0 ∨ (m.node next).list ≠ list ∨
      (m.node item).list = list)) : Succeeds (KamiListAddBefore m list next item) := by
  rw [KamiListAddBefore, if_neg hargs]
  refine .bind fun _ => .bind fun _ => .bind fun _ => .ite (.bind fun m => ?_) ?_
  · exact .bind fun _ => .bind fun _ => .ok _
  · exact .bind fun _ => .bind fun _ => .bind fun _ => .ok _

theorem KamiListInsertAt_succeeds
    (hargs : ¬ (list = 0 ∨ item = 0 ∨ (m.node item).list = list))
    (hin : i = (m.list list).size ∨ KamiListAt m list i ≠ 0) :
    Succeeds (KamiListInsertAt m list item i) := by
  rw [KamiListInsertAt, if_neg hargs]
  by_cases hi : i = (m.list list).size
  · rw [if_pos hi]
    exact .bind fun _ => .ok _
  · rw [if_neg hi]
    dsimp only
    rw [if_neg (hin.resolve_left hi)]
    refine .bind fun _ => .bind fun _ => .bind fun _ => .ite (.bind fun m => ?_) ?_
    · exact .bind fun _ => .bind fun _ => .ok _
    · exact .bind fun _ => .bind fun _ => .bind fun _ => .ok _

theorem KamiListDel_detach_succeeds : Succeeds (KamiListDel.detach m list item) :=
  .bind fun _ => .bind fun _ => .bind fun _ => .bind fun _ => .ok _

theorem KamiListDel_succeeds
    (hargs : ¬ (list = 0 ∨ item = 0 ∨ (m.list list).size = 0 ∨ (m.node item).list ≠ list)) :
    Succeeds (KamiListDel m list item) := by
  rw [KamiListDel, if_neg hargs]
  refine .ite (.bind fun _ => .ok _) (.ite ?_ (.ite ?_ ?_))
  · exact .ite (.bind fun _ => KamiListDel_detach_succeeds) KamiListDel_detach_succeeds
  · exact .ite (.bind fun _ => KamiListDel_detach_succeeds) KamiListDel_detach_succeeds
  · refine .ite (.bind fun _ => ?_) ?_
    · exact .ite (.bind fun _ => KamiListDel_detach_succeeds) KamiListDel_detach_succeeds
    · exact .ite (.bind fun _ => KamiListDel_detach_succeeds) KamiListDel_detach_succeeds

theorem KamiListDelTail_succeeds (hargs : ¬ (list = 0 ∨ (m.list list).size = 0)) :
    Succeeds (KamiListDelTail m list) := by
  rw [KamiListDelTail, if_neg hargs]
  refine .bind fun _ => .ite (.bind fun _ => .ok _) ?_
  exact .bind fun _ => .bind fun _ => .ok _

end Codes

section Calls

/-- A call does to the memory what its edit does to the sequence. -/
structure Carries (s : Sequences) (m : memory) (op : ListOp) (r : Outcome) (m' : memory) : Prop where
  refused : op.edit (s op.list) = none → r = op.failure ∧ m' = m
  edited : ∀ xs, op.edit (s op.list) = some xs →
    r = op.result (s op.list) ∧ Stands (Function.update s op.list xs) m'

theorem Stands.added (h : Stands s m) (hl : l ≠ 0) (hsplit : s l = ys ++ zs) (hitem : item ≠ 0)
    (hfree : ∀ l, l ≠ 0 → item ∉ s l)
    (hadded : Added m l (ys.getLastD 0) item (zs.headD 0) m') :
    Stands (Function.update s l (ys ++ item :: zs)) m' := by
  have hholds : Holds m l (ys ++ zs) := hsplit ▸ h l hl
  intro l' hl'
  by_cases heq : l' = l
  · subst heq
    rw [Function.update_self]
    exact hadded.holds hholds hitem (hsplit ▸ hfree l' hl')
  · rw [Function.update_of_ne heq]
    exact hadded.others hholds hitem heq (h l' hl') (hfree l' hl')

theorem Stands.removed (h : Stands s m) (hl : l ≠ 0) (hsplit : s l = ys ++ item :: zs)
    (hremoved : Removed m l (ys.getLastD 0) item (zs.headD 0) m') :
    Stands (Function.update s l (ys ++ zs)) m' := by
  have hholds : Holds m l (ys ++ item :: zs) := hsplit ▸ h l hl
  intro l' hl'
  by_cases heq : l' = l
  · subst heq
    rw [Function.update_self]
    exact hremoved.holds hl' hholds
  · rw [Function.update_of_ne heq]
    exact hremoved.others hholds hl' heq (h l' hl')

theorem Carries.refusal {op : ListOp} (hedit : op.edit (s op.list) = none) :
    Carries s m op op.failure m :=
  ⟨fun _ => ⟨rfl, rfl⟩, fun _ hsome => nomatch hedit.symm.trans hsome⟩

theorem Carries.edit {op : ListOp} {r : Outcome} (hedit : op.edit (s op.list) = some xs)
    (hr : r = op.result (s op.list)) (hstands : Stands (Function.update s op.list xs) m') :
    Carries s m op r m' := by
  refine ⟨fun hnone => (nomatch hedit.symm.trans hnone), fun xs' hxs' => ?_⟩
  cases hedit.symm.trans hxs'
  exact ⟨hr, hstands⟩

/-- Whatever a call comes to, it is as its edit says. -/
def Carried (s : Sequences) (m : memory) (op : ListOp) (x : Result (Outcome × memory)) : Prop :=
  ∀ r m', x = ok (r, m') → Carries s m op r m'

theorem Carried.of_refusal {op : ListOp} (hedit : op.edit (s op.list) = none) :
    Carried s m op (ok (op.failure, m)) := by
  intro r m' heq
  cases heq
  exact .refusal hedit

theorem Carried.of_map {α : Type} {op : ListOp} {f : α → Outcome} {x : Result (α × memory)}
    (h : ∀ r m', x = ok (r, m') → Carries s m op (f r) m') :
    Carried s m op (Prod.map f id <$> x) := by
  intro r m' heq
  obtain ⟨⟨r, m'⟩, hx, heq⟩ := map_eq_ok_iff.mp heq
  cases heq
  exact h r m' hx

section Add

variable {list prev next : Ptr} (h : Stands s m) (hlist : list ≠ 0) (hitem : item ≠ 0)
  (hfree : ∀ l, l ≠ 0 → item ∉ s l)
include h hlist hitem hfree

theorem Stands.unowned : (m.node item).list ≠ list := fun heq =>
  hfree list hlist (((h list hlist).owner item hitem).mp heq)

theorem AddHead_carried : Carried s m (.AddHead list item) ((ListOp.AddHead list item).call m) := by
  have hsplit : s list = [] ++ s list := rfl
  refine .of_map fun r m' hcall => ?_
  have hzero := KamiListAddHead_succeeds
    (not_or.mpr ⟨hlist, not_or.mpr ⟨hitem, h.unowned hlist hitem hfree⟩⟩) r m' hcall
  have hadded := (KamiListAddHead_added (h list hlist) hlist hitem (hfree list hlist)).post r m' hcall
  exact .edit rfl (congrArg _ hzero) (h.added hlist hsplit hitem hfree hadded)

theorem AddTail_carried : Carried s m (.AddTail list item) ((ListOp.AddTail list item).call m) := by
  have hsplit : s list = s list ++ [] := (List.append_nil _).symm
  refine .of_map fun r m' hcall => ?_
  have hzero := KamiListAddTail_succeeds
    (not_or.mpr ⟨hlist, not_or.mpr ⟨hitem, h.unowned hlist hitem hfree⟩⟩) r m' hcall
  have hadded := (KamiListAddTail_added (h list hlist) hlist hitem (hfree list hlist)).post r m' hcall
  exact .edit rfl (congrArg _ hzero) (h.added hlist hsplit hitem hfree hadded)

theorem AddAfter_carried :
    Carried s m (.AddAfter list prev item) ((ListOp.AddAfter list prev item).call m) := by
  by_cases hmem : prev ∈ s list
  · have hprev := (h list hlist).ne_zero hmem
    have hown := ((h list hlist).owner prev hprev).mpr hmem
    obtain ⟨ys, zs, hsplit, hbefore⟩ := (h list hlist).split hmem
    refine .of_map fun r m' hcall => ?_
    have hzero := KamiListAddAfter_succeeds (not_or.mpr ⟨hlist, not_or.mpr ⟨hprev, not_or.mpr
      ⟨hitem, not_or.mpr ⟨not_not.mpr hown, h.unowned hlist hitem hfree⟩⟩⟩⟩) r m' hcall
    have hadded := (KamiListAddAfter_added (hsplit ▸ h list hlist) hlist hitem
      (hsplit ▸ hfree list hlist)).post r m' hcall
    have hafter : s list = (ys ++ [prev]) ++ zs := by
      rw [List.append_assoc, List.singleton_append]
      exact hsplit
    refine .edit ?_ (congrArg _ hzero) (h.added hlist hafter hitem hfree ?_)
    · change (if prev ∈ s list then some (insertAfter (s list) prev item) else none) = _
      rw [if_pos hmem, hsplit, insertAfter_middle hbefore, List.append_assoc, List.singleton_append]
    · rwa [List.getLastD_concat]
  · have hnotown : prev = 0 ∨ (m.node prev).list ≠ list := by
      by_cases hprev : prev = 0
      · exact .inl hprev
      · exact .inr fun hown => hmem (((h list hlist).owner prev hprev).mp hown)
    have hcall : KamiListAddAfter m list prev item = ok (-1, m) := by
      rw [KamiListAddAfter, if_pos (by tauto)]
    rw [ListOp.call, hcall]
    exact .of_refusal (if_neg hmem)

theorem AddBefore_carried :
    Carried s m (.AddBefore list next item) ((ListOp.AddBefore list next item).call m) := by
  by_cases hmem : next ∈ s list
  · have hnext := (h list hlist).ne_zero hmem
    have hown := ((h list hlist).owner next hnext).mpr hmem
    obtain ⟨ys, zs, hsplit, hbefore⟩ := (h list hlist).split hmem
    refine .of_map fun r m' hcall => ?_
    have hzero := KamiListAddBefore_succeeds (not_or.mpr ⟨hlist, not_or.mpr ⟨hnext, not_or.mpr
      ⟨hitem, not_or.mpr ⟨not_not.mpr hown, h.unowned hlist hitem hfree⟩⟩⟩⟩) r m' hcall
    have hadded := (KamiListAddBefore_added (hsplit ▸ h list hlist) hlist hitem
      (hsplit ▸ hfree list hlist)).post r m' hcall
    refine .edit ?_ (congrArg _ hzero) (h.added hlist hsplit hitem hfree hadded)
    change (if next ∈ s list then some (insertBefore (s list) next item) else none) = _
    rw [if_pos hmem, hsplit, insertBefore_middle hbefore]
  · have hnotown : next = 0 ∨ (m.node next).list ≠ list := by
      by_cases hnext : next = 0
      · exact .inl hnext
      · exact .inr fun hown => hmem (((h list hlist).owner next hnext).mp hown)
    have hcall : KamiListAddBefore m list next item = ok (-1, m) := by
      rw [KamiListAddBefore, if_pos (by tauto)]
    rw [ListOp.call, hcall]
    exact .of_refusal (if_neg hmem)

theorem InsertAt_carried :
    Carried s m (.InsertAt list item i) ((ListOp.InsertAt list item i).call m) := by
  have hholds := h list hlist
  have hargs : ¬ (list = 0 ∨ item = 0 ∨ (m.node item).list = list) :=
    not_or.mpr ⟨hlist, not_or.mpr ⟨hitem, h.unowned hlist hitem hfree⟩⟩
  by_cases hi : i = (s list).length
  · have hgap : gap (s list).length i = some (s list).length := if_pos hi
    have hsize : i = (m.list list).size := hi.trans hholds.size.symm
    refine .of_map fun r m' hcall => ?_
    have hzero := KamiListInsertAt_succeeds hargs (.inl hsize) r m' hcall
    rw [KamiListInsertAt, if_neg hargs, if_pos hsize] at hcall
    have hadded := ((KamiListAddTail_added hholds hlist hitem (hfree list hlist)).relabel 0).post r m'
      hcall
    have hsplit : s list = s list ++ [] := (List.append_nil _).symm
    refine .edit ?_ (congrArg _ hzero) (h.added hlist hsplit hitem hfree hadded)
    change (gap (s list).length i).map (fun k => (s list).insertIdx k item) = _
    rw [hgap, Option.map_some, List.insertIdx_length_self]
  · have hgap : gap (s list).length i = position (s list).length i := if_neg hi
    have hsize : i ≠ (m.list list).size := fun heq => hi (heq.trans hholds.size)
    have hat := KamiListAt_eq hholds hlist i
    cases hitem_at : item_at (s list) i with
    | none =>
      rw [hitem_at] at hat
      have hcall : KamiListInsertAt m list item i = ok (-1, m) := by
        rw [KamiListInsertAt, if_neg hargs, if_neg hsize]
        exact if_pos hat
      rw [ListOp.call, hcall]
      refine .of_refusal ?_
      change (gap (s list).length i).map _ = none
      rw [hgap, item_at_eq_none_iff.mp hitem_at, Option.map_none]
    | some next =>
      rw [hitem_at] at hat
      obtain ⟨ys, zs, hsplit, hpos⟩ := item_at_eq_some hitem_at
      have hnext : next ≠ 0 := hholds.ne_zero (hsplit ▸ List.mem_append_right ys List.mem_cons_self)
      refine .of_map fun r m' hcall => ?_
      have hzero := KamiListInsertAt_succeeds hargs (.inr (hat ▸ hnext)) r m' hcall
      have hadded := (KamiListInsertAt_added (hsplit ▸ hholds) hlist hitem
        (hsplit ▸ hfree list hlist) hsize hat).post r m' hcall
      refine .edit ?_ (congrArg _ hzero) (h.added hlist hsplit hitem hfree hadded)
      change (gap (s list).length i).map (fun k => (s list).insertIdx k item) = _
      rw [hgap, hpos, Option.map_some, hsplit, insertIdx_length]

end Add

section Remove

variable {list : Ptr} (h : Stands s m) (hlist : list ≠ 0)
include h hlist

theorem Stands.del_removed (hsplit : s list = ys ++ item :: zs) {r : Int}
    (hcall : KamiListDel m list item = ok (r, m')) :
    Stands (Function.update s list (ys ++ zs)) m' :=
  h.removed hlist hsplit ((KamiListDel_removed (hsplit ▸ h list hlist) hlist).post r m' hcall)

theorem Del_carried : Carried s m (.Del list item) ((ListOp.Del list item).call m) := by
  have hholds := h list hlist
  by_cases hmem : item ∈ s list
  · have hitem := hholds.ne_zero hmem
    have hown := (hholds.owner item hitem).mpr hmem
    obtain ⟨ys, zs, hsplit, hbefore⟩ := hholds.split hmem
    have hsize : (m.list list).size ≠ 0 := (hsplit ▸ hholds).size_pos.ne'
    refine .of_map fun r m' hcall => ?_
    have hzero := KamiListDel_succeeds (not_or.mpr ⟨hlist, not_or.mpr ⟨hitem, not_or.mpr
      ⟨hsize, not_not.mpr hown⟩⟩⟩) r m' hcall
    refine .edit ?_ (congrArg _ hzero) (h.del_removed hlist hsplit hcall)
    change (if item ∈ s list then some ((s list).erase item) else none) = _
    rw [if_pos hmem, hsplit, erase_middle hbefore]
  · have hnotown : item = 0 ∨ (m.node item).list ≠ list := by
      by_cases hitem : item = 0
      · exact .inl hitem
      · exact .inr fun hown => hmem ((hholds.owner item hitem).mp hown)
    have hcall : KamiListDel m list item = ok (-1, m) := by
      rw [KamiListDel, if_pos (by tauto)]
    rw [ListOp.call, hcall]
    exact .of_refusal (if_neg hmem)

theorem DelByIndex_carried :
    Carried s m (.DelByIndex list i) ((ListOp.DelByIndex list i).call m) := by
  have hholds := h list hlist
  have hat := KamiListAt_eq hholds hlist i
  cases hitem_at : item_at (s list) i with
  | none =>
    have hpos := item_at_eq_none_iff.mp hitem_at
    have hcall : KamiListDelByIndex m list i = ok (0, m) := by
      rw [KamiListDelByIndex, hholds.size, if_pos (.inr (position_eq_none_iff.mp hpos))]
    rw [ListOp.call, hcall]
    refine .of_refusal ?_
    change (position (s list).length i).map _ = none
    rw [hpos, Option.map_none]
  | some item =>
    obtain ⟨ys, zs, hsplit, hpos⟩ := item_at_eq_some hitem_at
    rw [hitem_at] at hat
    have hin : ¬ (list = 0 ∨ i < -((s list).length : Int) ∨ ((s list).length : Int) ≤ i) :=
      not_or.mpr ⟨hlist, fun hout =>
        Option.some_ne_none _ (hpos.symm.trans (position_eq_none_iff.mpr hout))⟩
    have hitem : item ≠ 0 := hholds.ne_zero (hsplit ▸ List.mem_append_right ys List.mem_cons_self)
    refine .of_map fun r m' hcall => ?_
    rw [KamiListDelByIndex, hholds.size, if_neg hin, hat] at hcall
    obtain ⟨⟨code, m'⟩, hdel, heq⟩ := bind_eq_ok_iff.mp ((if_neg hitem).symm.trans hcall)
    cases heq
    refine .edit ?_ ?_ (h.del_removed hlist hsplit hdel)
    · change (position (s list).length i).map (fun k => (s list).eraseIdx k) = _
      rw [hpos, Option.map_some, hsplit, eraseIdx_length]
    · change _ = Outcome.node ((item_at (s list) i).getD 0)
      rw [hitem_at]

theorem Stands.delTail_removed (hsplit : s list = ys ++ [item]) {r : Int}
    (hcall : KamiListDelTail m list = ok (r, m')) : Stands (Function.update s list ys) m' := by
  have hremoved := (KamiListDelTail_removed (hsplit ▸ h list hlist) hlist).post r m' hcall
  have hstands := h.removed hlist hsplit hremoved
  rwa [List.append_nil] at hstands

/-- With no tail to delete the call fails. -/
theorem Stands.delTail_empty (hnil : s list = []) : KamiListDelTail m list = ok (-1, m) := by
  have hsize : (m.list list).size = 0 := by
    rw [(h list hlist).size, hnil]
    rfl
  rw [KamiListDelTail, if_pos (.inr hsize)]

theorem DelTail_carried : Carried s m (.DelTail list) ((ListOp.DelTail list).call m) := by
  rcases List.eq_nil_or_concat' (s list) with hnil | ⟨ys, z, hsplit⟩
  · rw [ListOp.call, h.delTail_empty hlist hnil]
    exact .of_refusal (if_pos hnil)
  · have hsize : (m.list list).size ≠ 0 := (hsplit ▸ h list hlist).size_pos.ne'
    have hne : s list ≠ [] := by
      rw [hsplit]
      exact List.concat_ne_nil z ys
    refine .of_map fun r m' hcall => ?_
    have hzero := KamiListDelTail_succeeds (not_or.mpr ⟨hlist, hsize⟩) r m' hcall
    refine .edit ?_ (congrArg _ hzero) (h.delTail_removed hlist hsplit hcall)
    change (if s list = [] then none else some (s list).dropLast) = _
    rw [if_neg hne, hsplit, List.dropLast_concat]

theorem PopTail_carried : Carried s m (.PopTail list) ((ListOp.PopTail list).call m) := by
  have htail : KamiListTail m list = (s list).getLastD 0 := by
    rw [KamiListTail, if_neg hlist, (h list hlist).tail]
  rcases List.eq_nil_or_concat' (s list) with hnil | ⟨ys, z, hsplit⟩
  · rw [ListOp.call, KamiListPopTail, h.delTail_empty hlist hnil, htail, hnil]
    exact .of_refusal (if_pos hnil)
  · have hne : s list ≠ [] := by
      rw [hsplit]
      exact List.concat_ne_nil z ys
    refine .of_map fun r m' hcall => ?_
    obtain ⟨⟨code, m'⟩, hdel, heq⟩ := bind_eq_ok_iff.mp hcall
    cases heq
    refine .edit ?_ (congrArg _ htail) (h.delTail_removed hlist hsplit hdel)
    change (if s list = [] then none else some (s list).dropLast) = _
    rw [if_neg hne, hsplit, List.dropLast_concat]

end Remove

/-- A call that is given `NULL` for a list or for the node to add fails. -/
theorem call_of_null {op : ListOp} (hnull : op.list = 0 ∨ op.added = some 0) :
    op.call m = ok (op.failure, m) := by
  cases op <;>
    simp only [ListOp.list, ListOp.added, Option.some.injEq, or_false, reduceCtorEq] at hnull
  case AddHead list item =>
    rw [ListOp.call, KamiListAddHead, if_pos (by tauto)]
    rfl
  case AddTail list item =>
    rw [ListOp.call, KamiListAddTail, if_pos (by tauto)]
    rfl
  case AddAfter list prev item =>
    rw [ListOp.call, KamiListAddAfter, if_pos (by tauto)]
    rfl
  case AddBefore list next item =>
    rw [ListOp.call, KamiListAddBefore, if_pos (by tauto)]
    rfl
  case InsertAt list item i =>
    rw [ListOp.call, KamiListInsertAt, if_pos (by tauto)]
    rfl
  case Del list item =>
    rw [ListOp.call, KamiListDel, if_pos (.inl hnull)]
    rfl
  case DelByIndex list i =>
    rw [ListOp.call, KamiListDelByIndex, if_pos (.inl hnull)]
    rfl
  case DelHead list =>
    rw [ListOp.call, KamiListDelHead, if_pos (.inl hnull)]
    rfl
  case DelTail list =>
    rw [ListOp.call, KamiListDelTail, if_pos (.inl hnull)]
    rfl
  case PopHead list =>
    rw [ListOp.call, KamiListPopHead, KamiListDelHead, if_pos (.inl hnull), KamiListHead,
      if_pos hnull]
    rfl
  case PopTail list =>
    rw [ListOp.call, KamiListPopTail, KamiListDelTail, if_pos (.inl hnull), KamiListTail,
      if_pos hnull]
    rfl

/-- Every call of the nine does its edit. -/
theorem listOp_carried {op : ListOp} (h : Stands s m) (hlist : op.list ≠ 0)
    (hadded : op.added ≠ some 0) (hallowed : op.Allowed m) (hop : op.beheads = none) :
    Carried s m op (op.call m) := by
  have hfree : ∀ item, op.added = some item → ∀ l, l ≠ 0 → item ∉ s l := by
    intro item hitem l hl
    rw [← (h l hl).nodes_eq]
    exact hallowed item hitem l hl
  have hitem : ∀ item, op.added = some item → item ≠ 0 := by
    rintro _ hsome rfl
    exact hadded hsome
  cases op with
  | AddHead list item => exact AddHead_carried h hlist (hitem item rfl) (hfree item rfl)
  | AddTail list item => exact AddTail_carried h hlist (hitem item rfl) (hfree item rfl)
  | AddAfter list prev item => exact AddAfter_carried h hlist (hitem item rfl) (hfree item rfl)
  | AddBefore list next item => exact AddBefore_carried h hlist (hitem item rfl) (hfree item rfl)
  | InsertAt list item i => exact InsertAt_carried h hlist (hitem item rfl) (hfree item rfl)
  | Del list item => exact Del_carried h hlist
  | DelByIndex list i => exact DelByIndex_carried h hlist
  | DelHead list => cases hop
  | DelTail list => exact DelTail_carried h hlist
  | PopHead list => cases hop
  | PopTail list => exact PopTail_carried h hlist

/-- A step of the lists is a step of the sequences. -/
theorem listStep_refines {op : ListOp} (h : Stands s m) (hop : op.beheads = none)
    (hstep : ListStep m op m') :
    op.call m = ok ((op.apply s).1, m') ∧ Stands (op.apply s).2 m' := by
  obtain ⟨hallowed, hexec⟩ := hstep
  rw [ListOp.exec_eq_call] at hexec
  obtain ⟨⟨r, m'⟩, hcall, rfl⟩ := map_eq_ok_iff.mp hexec
  rw [ListOp.apply]
  by_cases hnull : op.list = 0 ∨ op.added = some 0
  · rw [call_of_null hnull] at hcall
    cases hcall
    rw [if_pos hnull]
    exact ⟨call_of_null hnull, h⟩
  · rw [if_neg hnull]
    obtain ⟨hlist, hadded⟩ := not_or.mp hnull
    have hcarries := listOp_carried h hlist hadded hallowed hop r m' hcall
    cases hedit : op.edit (s op.list) with
    | none =>
      obtain ⟨rfl, rfl⟩ := hcarries.refused hedit
      exact ⟨hcall, h⟩
    | some xs =>
      obtain ⟨rfl, hstands⟩ := hcarries.edited xs hedit
      exact ⟨hcall, hstands⟩

end Calls

theorem Stands.allWellFormed (h : Stands s m) : AllWellFormed m := fun l hl => (h l hl).wellFormed

/-- An allowed call returns unless it would add a node to a list of 2147483647. -/
theorem listOp_call_returns {op : ListOp} (hall : AllWellFormed m) (hallowed : op.Allowed m)
    (hroom : ∀ item, op.added = some item → HasRoom m op.list) : (op.call m).Returns := by
  have hmap : ∀ {α : Type} {x : Result (α × memory)} {f : α → Outcome},
      x.Returns → (Prod.map f id <$> x).Returns := by
    rintro α x f ⟨value, rfl⟩
    exact returns_ok _
  cases op with
  | AddHead list item =>
    exact hmap ((KamiListAddHead_all hall (hallowed item rfl)).returns (hroom item rfl))
  | AddTail list item =>
    exact hmap ((KamiListAddTail_all hall (hallowed item rfl)).returns (hroom item rfl))
  | AddAfter list prev item =>
    exact hmap ((KamiListAddAfter_all hall (hallowed item rfl)).returns (hroom item rfl))
  | AddBefore list next item =>
    exact hmap ((KamiListAddBefore_all hall (hallowed item rfl)).returns (hroom item rfl))
  | InsertAt list item i =>
    exact hmap ((KamiListInsertAt_all hall (hallowed item rfl)).returns (hroom item rfl))
  | Del list item => exact hmap ((KamiListDel_all hall).returns trivial)
  | DelByIndex list i => exact hmap ((KamiListDelByIndex_all hall).returns trivial)
  | DelHead list => exact hmap ((KamiListDelHead_all_iff hall list).returns trivial)
  | DelTail list => exact hmap ((KamiListDelTail_all hall).returns trivial)
  | PopHead list => exact hmap (((KamiListDelHead_all_iff hall list).relabel _).returns trivial)
  | PopTail list => exact hmap (((KamiListDelTail_all hall).relabel _).returns trivial)

/-- The steps of the calls that delete no head; an added node is in no list. -/
abbrev SequenceStep : memory → ListOp → memory → Prop :=
  GuardedReturning (fun m op => op.Allowed m ∧ op.beheads = none) ListOp.exec

/-- The sequences after a call. -/
abbrev sequences (s : Sequences) (_ : memory) (op : ListOp) (_ : memory) : Sequences :=
  (op.apply s).2

theorem sequenceStep_keeps {op : ListOp} (h : Stands s m) (hstep : SequenceStep m op m') :
    Refines s m op m' ∧ Stands (op.apply s).2 m' := by
  obtain ⟨⟨hallowed, hop⟩, hexec⟩ := hstep
  obtain ⟨hcall, hstands⟩ := listStep_refines h hop ⟨hallowed, hexec⟩
  exact ⟨⟨hcall, fun l hl => (hstands l hl).reads hl⟩, hstands⟩

theorem no_lists_stands : Stands (fun _ => []) no_lists := by
  intro l hl
  have hholds := (no_lists_wellFormed l hl).holds
  rwa [show nodes no_lists l = [] from rfl] at hholds

/-- Where a run from empty lists ends, the lists hold the sequences. -/
theorem endState_stands {tr : List (ListOp × memory)} (hrun : Run SequenceStep no_lists tr) :
    Stands (endHistory sequences (fun _ => []) no_lists tr) (endState no_lists tr) := by
  have hkeep : ∀ {s m op m'}, Stands s m → SequenceStep m op m' → Stands (sequences s m op m') m' :=
    fun hs hstep => (sequenceStep_keeps hs hstep).2
  exact Run.endHistory_invariant hkeep no_lists_stands hrun

/-- In every run of these calls from empty lists each call returns what the operation
on the sequences does, and the lists then read as the sequences it gives; and where
the run ends an allowed call returns, unless a list would grow too long for its size. -/
theorem list_calls_refine_sequences {tr : List (ListOp × memory)}
    (hrun : Run SequenceStep no_lists tr) :
    AllRecorded sequences Refines (fun _ => []) no_lists tr ∧
      ∀ op : ListOp, op.Allowed (endState no_lists tr) →
        (∀ item, op.added = some item → HasRoom (endState no_lists tr) op.list) →
          (op.call (endState no_lists tr)).Returns := by
  refine ⟨hrun.allRecorded_of_keeps sequenceStep_keeps no_lists_stands, fun op hallowed hroom => ?_⟩
  exact listOp_call_returns (endState_stands hrun).allWellFormed hallowed hroom

section Runs

/-- A call that adds no node which names an owner already. -/
def Unowned (m : memory) (op : ListOp) : Prop :=
  (∀ item ∈ op.added, item ≠ 0 ∧ (m.node item).list = 0) ∧ op.beheads = none ∧ (op.exec m).Returns

instance (m : memory) (op : ListOp) : Decidable (Unowned m op) :=
  inferInstanceAs (Decidable (_ ∧ _ ∧ _))

def after_call (m : memory) (op : ListOp) : memory := (op.exec m).getD m

theorem run_of_unowned {ops : List ListOp} (h : Stands s m) (hops : Enabled Unowned after_call m ops) :
    Run SequenceStep m (trace after_call m ops) := by
  induction ops generalizing s m with
  | nil => exact .nil m
  | cons op ops ih =>
    obtain ⟨⟨hadded, hop, hreturns⟩, hrest⟩ := hops
    obtain ⟨hallowed, hexec⟩ := listStep_of_unowned h.allWellFormed hadded hreturns
    have hstep : SequenceStep m op (after_call m op) := ⟨⟨hallowed, hop⟩, hexec⟩
    exact .cons hstep (ih (sequenceStep_keeps h hstep).2 hrest)

theorem seven_calls_refine_sequences :
    let tr := trace after_call no_lists [.AddTail 1 2, .AddHead 1 3, .AddAfter 1 3 4,
      .InsertAt 1 5 (-1), .AddBefore 1 9 6, .DelByIndex 1 (-4), .PopTail 1]
    Run SequenceStep no_lists tr ∧ AllRecorded sequences Refines (fun _ => []) no_lists tr ∧
      endHistory sequences (fun _ => []) no_lists tr 1 = [4, 5] := by
  have hrun := @run_of_unowned _ _ [.AddTail 1 2, .AddHead 1 3, .AddAfter 1 3 4, .InsertAt 1 5 (-1),
    .AddBefore 1 9 6, .DelByIndex 1 (-4), .PopTail 1] no_lists_stands (by decide +kernel)
  exact ⟨hrun, (list_calls_refine_sequences hrun).1, by decide +kernel⟩

end Runs

end easymesh.util
