import Easymesh.Tlv.Encode
import Easymesh.CfgMgr.Collect
import Easymesh.Lib.Transition

open Lib Lib.Result Lib.GrowBuffer easymesh.tlv_parser easymesh.cfg_mgr

namespace easymesh.system

/-- The two buffers that grow: that of `Kami_Tlv_Print`, and that for M2 fragments. -/
inductive buffer_kind where
  | KamiTlvPrintBuffer
  | m2buf_t
  deriving DecidableEq

namespace buffer_kind

/-- The buffer before anything is appended. -/
def start (uninit : Nat → UInt8) : buffer_kind → GrowBuffer
  | KamiTlvPrintBuffer => GrowBuffer.malloc uninit 256
  | m2buf_t => (cfg_mgr_init uninit).m2buf

/-- `none` is `NULL`; otherwise what is returned is the position at the offset. -/
def ensure : buffer_kind → GrowBuffer → Nat → Option GrowBuffer
  | KamiTlvPrintBuffer => Kami_Tlv_Ensure
  | m2buf_t => cfg_mgr_ensure_m2buf

end buffer_kind

/-- What is done to a buffer: bytes are appended, or it is cleaned. -/
inductive buffer_op where
  | append (bs : List UInt8)
  | reset

/-- A caller that gets `NULL` for a position stores nothing. -/
def buffer_op.exec (b : buffer_kind) (p : GrowBuffer) : buffer_op → Result GrowBuffer
  | append bs =>
    match b.ensure p bs.length with
    | none => ok p
    | some p => p.store bs
  | reset => ok { p with offset := 0 }

/-- `p` becomes `q` when room is ensured for `bs`, and `r` when `bs` is stored there. -/
structure Appends (b : buffer_kind) (p : GrowBuffer) (bs : List UInt8) (q r : GrowBuffer) : Prop where
  ensured : b.ensure p bs.length = some q
  position : q.offset = p.offset
  room : p.offset + bs.length + 1 ≤ q.length
  kept : p.buffer <+: q.buffer
  stored : q.store bs = ok r
  inside : r.length = q.length
  contents : r.contents = p.contents ++ bs
  offset : r.offset = p.offset + bs.length
  spare : r.offset < r.length

variable {b : buffer_kind} {p p' : GrowBuffer} {op : buffer_op}

/-- The two functions do the same. -/
theorem ensure_eq (b : buffer_kind) (p : GrowBuffer) (n : Nat) : b.ensure p n = p.ensure n := by
  cases b <;> rfl

theorem start_fits (b : buffer_kind) (uninit : Nat → UInt8) : (b.start uninit).Fits := by
  cases b with
  | KamiTlvPrintBuffer => exact malloc_fits uninit (by decide) (by unfold INT_MAX; decide)
  | m2buf_t => exact malloc_fits uninit (by decide) (by unfold INT_MAX; decide)

theorem buffer_step_fits (hp : p.Fits) (h : Returning (buffer_op.exec b) p op p') : p'.Fits := by
  cases op with
  | append bs =>
    change (match b.ensure p bs.length with | none => ok p | some p => p.store bs) = ok p' at h
    rw [ensure_eq] at h
    cases hensure : p.ensure bs.length with
    | none =>
      rw [hensure] at h
      cases h
      exact hp
    | some q =>
      rw [hensure] at h
      obtain ⟨r, hr, hfits, _⟩ := store_of_ensure hp hensure
      cases hr.symm.trans h
      exact hfits
  | reset =>
    cases h
    exact ⟨Nat.zero_lt_of_lt hp.offset_lt, hp.length_le⟩

theorem Fits.appends (hp : p.Fits) (b : buffer_kind) {bs : List UInt8}
    (hroom : p.offset + bs.length + 1 ≤ INT_MAX) : ∃ q r, Appends b p bs q r := by
  obtain ⟨q, hq, hoffset, _, hlt, _⟩ := ensure_of_le hp hroom
  obtain ⟨r, hr, hfits, hroffset, hcontents⟩ := store_of_ensure hp hq
  exact ⟨q, r, (ensure_eq b p _).trans hq, hoffset, hlt, ensure_prefix hq, hr, store_length hr,
    hcontents, hroffset, hfits.offset_lt⟩

theorem exec_returns (hp : p.Fits) (b : buffer_kind) (op : buffer_op) :
    (buffer_op.exec b p op).Returns := by
  cases op with
  | append bs =>
    rw [buffer_op.exec, ensure_eq]
    cases hensure : p.ensure bs.length with
    | none => exact returns_ok p
    | some q =>
      obtain ⟨r, hr, _⟩ := store_of_ensure hp hensure
      exact ⟨r, hr⟩
  | reset => exact returns_ok _

/-- After any sequence of appends and resets every further one returns, and room is
ensured for each append that an `int` can count: it stays inside the block, keeps what
was stored before and leaves the spare byte. -/
theorem buffer_runs_append (b : buffer_kind) (uninit : Nat → UInt8)
    {tr : List (buffer_op × GrowBuffer)}
    (hrun : Run (Returning (buffer_op.exec b)) (b.start uninit) tr) :
    (∀ op, (buffer_op.exec b (endState (b.start uninit) tr) op).Returns) ∧
      ∀ bs : List UInt8, (endState (b.start uninit) tr).offset + bs.length + 1 ≤ INT_MAX →
        ∃ q r, Appends b (endState (b.start uninit) tr) bs q r := by
  have hfits := Run.endState_invariant (J := GrowBuffer.Fits) buffer_step_fits (start_fits b uninit) hrun
  exact ⟨exec_returns hfits b, fun bs hroom => Fits.appends hfits b hroom⟩

/-- The run that a list of operations makes. -/
def appended (b : buffer_kind) (p : GrowBuffer) (ops : List buffer_op) : List (buffer_op × GrowBuffer) :=
  trace (fun p op => (buffer_op.exec b p op).getD p) p ops

theorem run_appended (hp : p.Fits) (b : buffer_kind) (ops : List buffer_op) :
    Run (Returning (buffer_op.exec b)) p (appended b p ops) := by
  apply run_trace_returning
  induction ops generalizing p with
  | nil => exact trivial
  | cons op ops ih =>
    obtain ⟨p', hp'⟩ := exec_returns hp b op
    refine ⟨⟨p', hp'⟩, ih ?_⟩
    dsimp only
    rw [hp', getD_ok]
    exact buffer_step_fits hp hp'

/-- The third append makes the block grow. -/
theorem appends_after_reset :
    let p := buffer_kind.m2buf_t.start fun _ => 0
    let tr := appended .m2buf_t p [.append [1, 2, 3], .reset, .append (List.replicate 3000 7)]
    Run (Returning (buffer_op.exec .m2buf_t)) p tr ∧
      (∀ op, (buffer_op.exec .m2buf_t (endState p tr) op).Returns) ∧
      ∃ q r, Appends .m2buf_t (endState p tr) [4, 5] q r := by
  have hrun := run_appended (start_fits .m2buf_t fun _ => 0) .m2buf_t
    [.append [1, 2, 3], .reset, .append (List.replicate 3000 7)]
  obtain ⟨hreturns, happends⟩ := buffer_runs_append .m2buf_t (fun _ => 0) hrun
  exact ⟨hrun, hreturns, happends [4, 5] (by decide +kernel)⟩

section Callers

variable {len n : Nat} {src bytes : List UInt8}

theorem store_append {as bs : List UInt8} (hroom : p.offset + (as.length + bs.length) ≤ p.length) :
    (p.store as >>= fun q => q.store bs) = p.store (as ++ bs) := by
  have hoverlap := @writeBytes_overlap p.buffer as bs p.offset as.length (le_refl _)
    (Nat.le_add_right _ _) hroom
  rw [List.take_length] at hoverlap
  rw [store, store, ← hoverlap]
  cases hout : writeBytes p.buffer p.offset as with
  | fail => rfl
  | div => rfl
  | ok out =>
    simp only [ok_bind, store, List.length_append, Nat.add_assoc]

/-- The two fields of a header are one store. -/
theorem Kami_Tlv_PrintHeader_store (type : tlv_type) (length : tlv_len) (hlen : len = 1 ∨ len = 2)
    (hroom : p.offset + (len + 2) ≤ p.length) :
    Kami_Tlv_PrintHeader p type len length = p.store (header_bytes type len length) := by
  obtain ⟨swapped, hswapped, hbytes⟩ := little2bigs_type_bytes type hlen
  have htwo : ∀ x : UInt16, (bytesU16 x).length = 2 := fun _ => rfl
  have hoverlap := @writeBytes_overlap p.buffer (bytesU16 swapped)
    (bytesU16 (little2bigs_len length)) p.offset len (by rw [htwo]; omega)
    (by rw [htwo, htwo]; omega) hroom
  rw [hbytes, little2bigs_len, bytesU16_swap] at hoverlap
  have hoff : ((p.offset + len : Nat) : Int) = p.offset + len := Int.natCast_add _ _
  rw [hoff] at hoverlap
  rw [Kami_Tlv_PrintHeader, hswapped, ok_bind, store, header_bytes_length type hlen, header_bytes,
    ← hoverlap, little2bigs_len, bytesU16_swap, bind_assoc]

/-- Printing a TLV is one append of its header and its value. -/
theorem Kami_Tlv_PrintTlv_append (hp : p.Fits) (type : tlv_type) {length : tlv_len}
    {value : List UInt8} (hlen : len = 1 ∨ len = 2) (hvalue : value.length = length.toNat) :
    Kami_Tlv_PrintTlv type len length value p =
      p.append (header_bytes type len length ++ value) := by
  have hneeded : (header_bytes type len length ++ value).length = length.toNat + len + 2 := by
    rw [List.length_append, header_bytes_length type hlen]
    omega
  have hread : readBytes value 0 length.toNat = ok value := by
    rw [← hvalue]
    exact readBytes_front (List.append_nil value).symm
  rw [Kami_Tlv_PrintTlv, Kami_Tlv_Ensure, GrowBuffer.append, hneeded]
  cases hensure : p.ensure (length.toNat + len + 2) with
  | none => rfl
  | some q =>
    obtain ⟨hoffset, _, hlt, _⟩ := ensure_eq_some hp hensure
    have hstore := @store_append q (header_bytes type len length) value (by
      rw [header_bytes_length type hlen]
      omega)
    dsimp only
    rw [Kami_Tlv_PrintHeader_store type length hlen (by omega), ← hstore]
    cases hheader : q.store (header_bytes type len length) with
    | fail => rfl
    | div => rfl
    | ok r => rw [ok_bind, ok_bind, hread, ok_bind]

/-- Printing an array is an append of its header, followed by its children. -/
theorem Kami_Tlv_PrintArray_append (hp : p.Fits) (type : tlv_type) (length : tlv_len)
    (hlen : len = 1 ∨ len = 2) (value : List UInt8) (child : List KamiTlv_S) :
    Kami_Tlv_PrintValue ⟨type, len, length, .KamiTlv_Array, value, child⟩ p = (do
      match ← p.append (header_bytes type len length) with
      | none => ok none
      | some q => Kami_Tlv_PrintObject child q) := by
  rw [Kami_Tlv_PrintValue, GrowBuffer.append, header_bytes_length type hlen]
  simp only [Kami_Tlv_Ensure]
  cases hensure : p.ensure (len + 2) with
  | none => rfl
  | some q =>
    obtain ⟨hoffset, _, hlt, _⟩ := ensure_eq_some hp hensure
    dsimp only
    rw [Kami_Tlv_PrintHeader_store type length hlen (by omega)]
    cases q.store (header_bytes type len length) <;> rfl

/-- Collecting a fragment is an append to `m2buf`. -/
theorem m2buf_store_append (m2buf : GrowBuffer) (hread : readBytes src 0 n = ok bytes) :
    m2buf_store m2buf src n = m2buf.append bytes := by
  rw [m2buf_store, cfg_mgr_ensure_m2buf, GrowBuffer.append, readBytes_length hread]
  cases m2buf.ensure n with
  | none => rfl
  | some q =>
    dsimp only
    rw [hread, ok_bind]

end Callers

end easymesh.system
