import Easymesh.Tlv.Build
import Easymesh.Lib.Transition

open Lib Lib.Result Lib.GrowBuffer

namespace easymesh.tlv_parser

/-- The trees a program has at hand, each by the pointer to its root; a node that was
attached is reached from the root of its tree only. -/
abbrev forest := Nat → Option KamiTlv_S

/-- The calls that make trees. A node is given by its root and the path to it. -/
inductive tree_call where
  | CreateObject (root : Nat)
  | CreateArray (root : Nat) (usType : tlv_type)
  | CreateTlv (root : Nat) (usType : tlv_type) (usLength : tlv_len) (mem : List UInt8)
      (pValue : Int)
  | AddItemToObject (root : Nat) (path : List Nat) (item : Nat)
  | AddTlvToObject (root : Nat) (path : List Nat) (usType : tlv_type) (usLength : tlv_len)
      (mem : List UInt8) (pValue : Int)

/-- An item is attached to an object or an array. -/
def Attachable (f : forest) (root : Nat) (path : List Nat) : Prop :=
  ∃ pstTlv ∈ f root >>= node_at path, pstTlv.obj_type ≠ .KamiTlv_Tlv

instance (f : forest) (root : Nat) (path : List Nat) : Decidable (Attachable f root path) :=
  inferInstanceAs (Decidable (∃ pstTlv ∈ _, _))

/-- A new node is at a new pointer; an attached one is another tree, attached whole. -/
def tree_call.Allowed (f : forest) : tree_call → Prop
  | CreateObject root | CreateArray root _ | CreateTlv root _ _ _ _ =>
    f root = none
  | AddItemToObject root path item => item ≠ root ∧ Attachable f root path
  | AddTlvToObject root path _ _ _ _ => Attachable f root path

instance (f : forest) : (call : tree_call) → Decidable (call.Allowed f)
  | .CreateObject root => inferInstanceAs (Decidable (f root = none))
  | .CreateArray root _ => inferInstanceAs (Decidable (f root = none))
  | .CreateTlv root _ _ _ _ => inferInstanceAs (Decidable (f root = none))
  | .AddItemToObject root path item =>
    inferInstanceAs (Decidable (item ≠ root ∧ Attachable f root path))
  | .AddTlvToObject root path _ _ _ _ => inferInstanceAs (Decidable (Attachable f root path))

/-- `pstItem` is attached to the node at a path of the tree at `root`. -/
def attach (f : forest) (root : Nat) (path : List Nat) (pstItem : KamiTlv_S) : Result forest :=
  match f root with
  | none => fail
  | some pstRoot =>
    match Kami_Tlv_AddItemToObject_at path pstRoot pstItem with
    | none => fail
    | some (pstRoot, _) => ok (Function.update f root (some pstRoot))

/-- A call on trees whose types are `len` bytes wide. -/
def tree_call.exec (len : Nat) (f : forest) : tree_call → Result forest
  | CreateObject root =>
    ok (Function.update f root (some (Kami_Tlv_CreateObject len)))
  | CreateArray root usType =>
    ok (Function.update f root (some (Kami_Tlv_CreateArray usType len)))
  | CreateTlv root usType usLength mem pValue => do
    let pstTlv ← Kami_Tlv_CreateTlv usType usLength mem pValue len
    ok (Function.update f root (some pstTlv))
  | AddItemToObject root path item =>
    match f item with
    | none => fail
    | some pstItem => attach (Function.update f item none) root path pstItem
  | AddTlvToObject root path usType usLength mem pValue => do
    let pstItem ← Kami_Tlv_CreateTlv usType usLength mem pValue len
    attach f root path pstItem

abbrev TreeStep (len : Nat) : forest → tree_call → forest → Prop :=
  GuardedReturning tree_call.Allowed (tree_call.exec len)

def no_trees : forest := fun _ => none

/-- The lengths in a tree are the bytes they stand for: of a container those that
printing each of its children emits, and of an object root those that are printed. -/
structure LengthsExact (pstRoot : KamiTlv_S) : Prop where
  containers : ∀ path pstTlv, node_at path pstRoot = some pstTlv →
    pstTlv.obj_type ≠ .KamiTlv_Tlv →
    ∃ bss : List (List UInt8),
      List.Forall₂ (fun pstItem bs => Emits (Kami_Tlv_PrintValue pstItem) bs) pstTlv.child bss ∧
      pstTlv.length.toNat = bss.flatten.length
  printed : pstRoot.obj_type = .KamiTlv_Object → ∀ uninit, ∃ buffer block,
    Kami_Tlv_PrintValue pstRoot (GrowBuffer.malloc uninit 256) = ok (some buffer) ∧
      buffer.offset = Kami_Tlv_ObjectLength pstRoot ∧
      Kami_Tlv_Print uninit pstRoot = ok (some block) ∧
      block.length = Kami_Tlv_ObjectLength pstRoot + 1 ∧
      readBytes block 0 (Kami_Tlv_ObjectLength pstRoot) = ok (encode pstRoot)

/-- Every tree of a forest is made with `len`-byte types. -/
def AllBuilt (len : Nat) (f : forest) : Prop := ∀ root pstRoot, f root = some pstRoot → Built len pstRoot

variable {len : Nat} {f f' : forest} {pstRoot pstTlv pstItem : KamiTlv_S} {path : List Nat}

theorem AllBuilt.update (h : AllBuilt len f) (root : Nat) (hroot : Built len pstRoot) :
    AllBuilt len (Function.update f root (some pstRoot)) := by
  intro other pstOther hother
  by_cases heq : other = root
  · subst heq
    rw [Function.update_self] at hother
    cases hother
    exact hroot
  · rw [Function.update_of_ne heq] at hother
    exact h other pstOther hother

theorem AllBuilt.remove (h : AllBuilt len f) (root : Nat) :
    AllBuilt len (Function.update f root none) := by
  intro other pstOther hother
  by_cases heq : other = root
  · subst heq
    rw [Function.update_self] at hother
    cases hother
  · rw [Function.update_of_ne heq] at hother
    exact h other pstOther hother

theorem AllBuilt.attached {root : Nat} (h : AllBuilt len f) (hitem : Built len pstItem)
    (hroot : Attachable f root path) (hattach : attach f root path pstItem = ok f') :
    AllBuilt len f' := by
  obtain ⟨pstTlv, hnode, hleaf⟩ := hroot
  obtain ⟨pstRoot, hpst, hnode⟩ := Option.bind_eq_some_iff.mp hnode
  rw [attach, hpst] at hattach
  dsimp only at hattach
  cases hadd : Kami_Tlv_AddItemToObject_at path pstRoot pstItem with
  | none =>
    rw [hadd] at hattach
    cases hattach
  | some added =>
    rw [hadd] at hattach
    cases hattach
    exact h.update root (.add path (h root pstRoot hpst) hitem hnode hleaf hadd)

theorem tree_step_built {call : tree_call} (h : AllBuilt len f) (hstep : TreeStep len f call f') :
    AllBuilt len f' := by
  obtain ⟨hallowed, hexec⟩ := hstep
  cases call with
  | CreateObject root =>
    cases hexec
    exact h.update root .object
  | CreateArray root usType =>
    cases hexec
    exact h.update root (.array usType)
  | CreateTlv root usType usLength mem pValue =>
    obtain ⟨pstTlv, hcreate, heq⟩ := bind_eq_ok_iff.mp hexec
    cases heq
    exact h.update root (.tlv hcreate)
  | AddItemToObject root path item =>
    obtain ⟨hne, hroot⟩ := hallowed
    change (match f item with | none => fail | some pstItem => _) = ok f' at hexec
    cases hitem : f item with
    | none =>
      rw [hitem] at hexec
      cases hexec
    | some pstItem =>
      rw [hitem] at hexec
      refine (h.remove item).attached (h item pstItem hitem) ?_ hexec
      unfold Attachable
      rwa [Function.update_of_ne hne.symm]
  | AddTlvToObject root path usType usLength mem pValue =>
    obtain ⟨pstItem, hcreate, hattach⟩ := bind_eq_ok_iff.mp hexec
    exact h.attached (.tlv hcreate) hallowed hattach

section Lengths

variable (hlen : len = 1 ∨ len = 2)

theorem encode_le_encodeAll {child : List KamiTlv_S} (h : pstItem ∈ child) :
    (encode pstItem).length ≤ (encodeAll child).length := by
  rw [encodeAll_eq, List.length_flatten]
  exact List.single_le_sum (fun _ _ => Nat.zero_le _) _
    (List.mem_map_of_mem (List.mem_map_of_mem h))

/-- What the children of a consistent node print as. -/
theorem ConsistentAll.emits (hlen : len = 1 ∨ len = 2) {child : List KamiTlv_S}
    (h : ConsistentAll len child) :
    List.Forall₂ (fun pstItem bs => Emits (Kami_Tlv_PrintValue pstItem) bs) child
      (child.map encode) := by
  induction child with
  | nil => exact .nil
  | cons pstItem rest ih => exact .cons (Kami_Tlv_PrintValue_emits hlen h.1) (ih h.2)

include hlen

/-- Every node of a consistent tree is consistent, and no larger than the tree. -/
theorem Consistent.node_at (h : Consistent len pstRoot) (hnode : node_at path pstRoot = some pstTlv) :
    Consistent len pstTlv ∧ (encode pstTlv).length ≤ (encode pstRoot).length := by
  induction path generalizing pstRoot with
  | nil =>
    cases hnode
    exact ⟨h, le_refl _⟩
  | cons i path ih =>
    obtain ⟨pstChild, hi, hnode⟩ := Option.bind_eq_some_iff.mp hnode
    have hholder := h.holder_of_child hi
    have hmem := List.mem_of_getElem? hi
    obtain ⟨hcons, hle⟩ := ih (consistentAll_iff.mp hholder.child pstChild hmem) hnode
    have hchild := encode_le_encodeAll hmem
    have hwhole := hholder.encode_length hlen
    exact ⟨hcons, by omega⟩

/-- A length that fits its 16 bits is the size of the children. -/
theorem Holder.length_eq (h : Holder len pstTlv) (hsize : (encode pstTlv).length ≤ 65535) :
    pstTlv.length.toNat = (encodeAll pstTlv.child).length := by
  have hwhole := h.encode_length hlen
  rw [h.length, UInt16.toNat_ofNat', Nat.mod_eq_of_lt]
  omega

theorem Consistent.lengths_exact (h : Consistent len pstRoot)
    (hsize : (encode pstRoot).length ≤ 65535) : LengthsExact pstRoot where
  containers path pstTlv hnode hleaf := by
    obtain ⟨hcons, hle⟩ := h.node_at hlen hnode
    have hholder := hcons.holder hleaf
    refine ⟨pstTlv.child.map encode, hholder.child.emits hlen, ?_⟩
    rw [← encodeAll_eq]
    exact hholder.length_eq hlen (hle.trans hsize)
  printed hobject uninit := by
    have hholder := h.holder (by rw [hobject]; nofun)
    have hlength : Kami_Tlv_ObjectLength pstRoot = (encode pstRoot).length := by
      rw [Kami_Tlv_ObjectLength, hholder.length_eq hlen hsize, hholder.encode_length hlen, hobject]
      exact (Nat.zero_add _).symm
    have hfits : (GrowBuffer.malloc uninit 256).Fits :=
      malloc_fits uninit (by decide) (by unfold INT_MAX; decide)
    obtain ⟨buffer, hprint, hbuffer, hoffset, hcontents⟩ :=
      Kami_Tlv_PrintValue_emits hlen h _ hfits (by
        change 0 + _ + 1 ≤ 2147483647
        omega)
    have hoffset : buffer.offset = (encode pstRoot).length := hoffset.trans (Nat.zero_add _)
    have hcontents : buffer.buffer.take buffer.offset = encode pstRoot := hcontents
    refine ⟨buffer, buffer.buffer.take (buffer.offset + 1), hprint, ?_, ?_, ?_, ?_⟩
    · rw [hlength, hoffset]
    · rw [Kami_Tlv_Print, hprint, ok_bind]
    · rw [hlength, ← hoffset]
      exact List.length_take_of_le hbuffer.offset_lt
    · have hblock : buffer.buffer.take (buffer.offset + 1) =
          encode pstRoot ++ (buffer.buffer.take (buffer.offset + 1)).drop buffer.offset := by
        conv_lhs => rw [← List.take_append_drop buffer.offset (buffer.buffer.take (buffer.offset + 1))]
        rw [List.take_take, Nat.min_eq_left (Nat.le_succ _), hcontents]
      rw [hlength]
      exact readBytes_front hblock

end Lengths

/-- In every run of calls that make trees with types `len` bytes wide, the lengths are
exact in every tree whose encoding is no longer than 65535 bytes. -/
theorem built_lengths_exact (hlen : len = 1 ∨ len = 2) {tr : List (tree_call × forest)}
    (hrun : Run (TreeStep len) no_trees tr) (root : Nat) {pstRoot : KamiTlv_S}
    (hroot : endState no_trees tr root = some pstRoot) (hsize : (encode pstRoot).length ≤ 65535) :
    LengthsExact pstRoot := by
  have hbuilt : AllBuilt len (endState no_trees tr) := by
    apply Run.endState_invariant (J := AllBuilt len) tree_step_built _ hrun
    exact nofun
  exact ((hbuilt root pstRoot hroot).consistent hlen).lengths_exact hlen hsize

/-- The array is attached to the object first and filled afterwards. -/
theorem built_lengths_exact_nested :
    let calls := [tree_call.CreateObject 0, .CreateArray 1 0x10,
      .AddItemToObject 0 [] 1, .AddTlvToObject 0 [0] 0x11 2 [7, 8, 9] 1,
      .CreateArray 2 0x12, .AddTlvToObject 2 [] 0x13 1 [5] 0,
      .AddItemToObject 0 [0] 2, .AddTlvToObject 0 [0, 1] 0x14 0 [] 0]
    let tr := trace (fun f call => (tree_call.exec 2 f call).getD f) no_trees calls
    Run (TreeStep 2) no_trees tr ∧
      ∃ pstRoot, endState no_trees tr 0 = some pstRoot ∧ (encode pstRoot).length = 23 ∧
        LengthsExact pstRoot := by
  have hrun := @run_trace_guarded _ _ tree_call.Allowed (tree_call.exec 2) no_trees
    [.CreateObject 0, .CreateArray 1 0x10,
      .AddItemToObject 0 [] 1, .AddTlvToObject 0 [0] 0x11 2 [7, 8, 9] 1,
      .CreateArray 2 0x12, .AddTlvToObject 2 [] 0x13 1 [5] 0,
      .AddItemToObject 0 [0] 2, .AddTlvToObject 0 [0, 1] 0x14 0 [] 0]
    (by decide +kernel)
  refine ⟨hrun, _, rfl, by decide +kernel, ?_⟩
  exact built_lengths_exact (.inr rfl) hrun 0 rfl (by decide +kernel)

end easymesh.tlv_parser
