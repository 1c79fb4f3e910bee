import Easymesh.Lib.Memory

open Lib.Result

namespace Lib

/-- The bytes of a string literal, with its terminating NUL. -/
def cstr (chars : List Char) : List UInt8 := chars.map (fun c => UInt8.ofNat c.toNat) ++ [0]

/-- `0 == strcmp(a, b)`: the bytes are compared up to the first difference or a
NUL in both, and a read past either block is undefined. -/
def strcmp_eq : List UInt8 → List UInt8 → Result Bool
  | a :: as, b :: bs =>
    if a = b then if a = 0 then ok true else strcmp_eq as bs else ok false
  | _, _ => fail

/-- `strlen(mem)` -/
def strlen : List UInt8 → Result Nat
  | [] => fail
  | a :: as => if a = 0 then ok 0 else (· + 1) <$> strlen as

/-- `snprintf(dst, sizeof(dst), "%s", src)`: the bytes of `dst` behind the
terminating NUL stay as they are. -/
def snprintf_s (dst src : List UInt8) : Result (List UInt8) := do
  let n ← strlen src
  writeBytes dst 0 (src.take (min n (dst.length - 1)) ++ [0])

/-- Equality with a string literal is a prefix of the memory, NUL included. -/
theorem strcmp_eq_true_iff {mem body : List UInt8} (hbody : (0 : UInt8) ∉ body) :
    strcmp_eq mem (body ++ [0]) = ok true ↔ body ++ [0] <+: mem := by
  induction body generalizing mem with
  | nil =>
    cases mem with
    | nil => simp [strcmp_eq]
    | cons a as =>
      by_cases ha : a = 0
      · simp [strcmp_eq, ha]
      · simp [strcmp_eq, ha, eq_comm]
  | cons b body ih =>
    obtain ⟨hb, hrest⟩ := not_or.mp (List.mem_cons.not.mp hbody)
    cases mem with
    | nil => simp [strcmp_eq]
    | cons a as =>
      by_cases ha : a = b
      · subst ha
        have hrec := @ih as hrest
        simpa [strcmp_eq, Ne.symm hb] using hrec
      · simp [strcmp_eq, ha, Ne.symm ha]

/-- The string that memory starts with, without its NUL; `none` when it has no end. -/
def cstring : List UInt8 → Option (List UInt8)
  | [] => none
  | a :: as => if a = 0 then some [] else (a :: ·) <$> cstring as

theorem cstring_eq_some_iff {mem body : List UInt8} :
    cstring mem = some body ↔ (0 : UInt8) ∉ body ∧ body ++ [0] <+: mem := by
  induction mem generalizing body with
  | nil => simp [cstring]
  | cons a as ih =>
    rw [cstring]
    cases body with
    | nil => by_cases ha : a = 0 <;> simp [ha, eq_comm]
    | cons b body =>
      by_cases ha : a = 0
      · subst ha
        simp only [if_pos, Option.some.injEq, List.nil_eq, List.cons_append, List.cons_prefix_cons,
          List.mem_cons, not_or]
        constructor
        · intro h
          cases h
        · rintro ⟨⟨hne, _⟩, hb, _⟩
          exact absurd hb.symm hne
      · simp only [if_neg ha, Option.map_eq_map, Option.map_eq_some_iff, List.cons.injEq,
          List.cons_append, List.cons_prefix_cons, List.mem_cons, not_or]
        constructor
        · rintro ⟨found, hfound, rfl, rfl⟩
          obtain ⟨hfree, hprefix⟩ := ih.mp hfound
          exact ⟨⟨Ne.symm ha, hfree⟩, rfl, hprefix⟩
        · rintro ⟨⟨_, hfree⟩, rfl, hprefix⟩
          exact ⟨body, ih.mpr ⟨hfree, hprefix⟩, rfl, rfl⟩

theorem cstring_append {body : List UInt8} (hfree : (0 : UInt8) ∉ body) (rest : List UInt8) :
    cstring (body ++ 0 :: rest) = some body := by
  apply cstring_eq_some_iff.mpr
  exact ⟨hfree, ⟨rest, by simp⟩⟩

theorem cstring_append_of_some {mem body : List UInt8} (more : List UInt8)
    (h : cstring mem = some body) : cstring (mem ++ more) = some body := by
  obtain ⟨hfree, hprefix⟩ := cstring_eq_some_iff.mp h
  exact cstring_eq_some_iff.mpr ⟨hfree, hprefix.trans (List.prefix_append _ _)⟩

theorem strlen_eq_ok_iff {mem : List UInt8} {n : Nat} :
    strlen mem = ok n ↔ ∃ body, cstring mem = some body ∧ body.length = n := by
  induction mem generalizing n with
  | nil => simp [strlen, cstring]
  | cons a as ih =>
    by_cases ha : a = 0
    · simp [strlen, cstring, ha]
    · rw [strlen, cstring, if_neg ha, if_neg ha, map_eq_ok_iff]
      constructor
      · rintro ⟨k, hk, rfl⟩
        obtain ⟨body, hbody, rfl⟩ := ih.mp hk
        exact ⟨a :: body, by rw [hbody]; rfl, rfl⟩
      · rintro ⟨body, hbody, rfl⟩
        obtain ⟨found, hfound, rfl⟩ := Option.map_eq_some_iff.mp hbody
        exact ⟨found.length, ih.mpr ⟨found, hfound, rfl⟩, rfl⟩

/-- Two blocks that hold strings compare as the strings do. -/
theorem strcmp_eq_of_cstring {a b x y : List UInt8} (ha : cstring a = some x)
    (hb : cstring b = some y) : strcmp_eq a b = ok (decide (x = y)) := by
  induction a generalizing b x y with
  | nil => cases ha
  | cons c as ih =>
    cases b with
    | nil => cases hb
    | cons d bs =>
      rw [cstring] at ha hb
      rw [strcmp_eq]
      by_cases hc : c = 0
      · rw [if_pos hc] at ha
        cases ha
        by_cases hd : d = 0
        · rw [if_pos hd] at hb
          cases hb
          simp [hc, hd]
        · rw [if_neg hd] at hb
          obtain ⟨y', _, rfl⟩ := Option.map_eq_some_iff.mp hb
          have hcd : c ≠ d := by
            rintro rfl
            exact hd hc
          simp [hcd]
      · rw [if_neg hc] at ha
        obtain ⟨x', hx', rfl⟩ := Option.map_eq_some_iff.mp ha
        by_cases hd : d = 0
        · rw [if_pos hd] at hb
          cases hb
          have hcd : c ≠ d := by
            rintro rfl
            exact hc hd
          simp [hcd]
        · rw [if_neg hd] at hb
          obtain ⟨y', hy', rfl⟩ := Option.map_eq_some_iff.mp hb
          by_cases hcd : c = d
          · subst hcd
            rw [if_pos rfl, if_neg hc, ih hx' hy']
            simp
          · simp [hcd]

/-- Two blocks compare as equal when they hold one string, whatever else is in them. -/
theorem strcmp_eq_ok_true_iff {a b : List UInt8} :
    strcmp_eq a b = ok true ↔ ∃ name, cstring a = some name ∧ cstring b = some name := by
  constructor
  · intro h
    induction a generalizing b with
    | nil => cases h
    | cons c as ih =>
      cases b with
      | nil => cases h
      | cons d bs =>
        rw [strcmp_eq] at h
        split at h
        · next hcd =>
          subst hcd
          split at h
          · next hc => exact ⟨[], by simp [cstring, hc], by simp [cstring, hc]⟩
          · next hc =>
            obtain ⟨name, ha, hb⟩ := ih h
            exact ⟨c :: name, by simp [cstring, hc, ha], by simp [cstring, hc, hb]⟩
        · cases h
  · rintro ⟨name, ha, hb⟩
    rw [strcmp_eq_of_cstring ha hb, decide_eq_true rfl]

theorem cstring_ne_of_strcmp {a b name : List UInt8} (h : strcmp_eq a b = ok false)
    (hb : cstring b = some name) : cstring a ≠ some name := by
  intro ha
  rw [strcmp_eq_ok_true_iff.mpr ⟨name, ha, hb⟩] at h
  cases h

theorem strcmp_eq_comm (a b : List UInt8) : strcmp_eq a b = strcmp_eq b a := by
  induction a generalizing b with
  | nil =>
    cases b with
    | nil => rfl
    | cons d bs => rfl
  | cons c as ih =>
    cases b with
    | nil => rfl
    | cons d bs =>
      rw [strcmp_eq, strcmp_eq, ih]
      by_cases hcd : c = d
      · subst hcd
        rfl
      · rw [if_neg hcd, if_neg (Ne.symm hcd)]

/-- Memory holds a string exactly when there is a NUL in it. -/
theorem cstring_isSome_iff {mem : List UInt8} : (cstring mem).isSome ↔ (0 : UInt8) ∈ mem := by
  induction mem with
  | nil => simp [cstring]
  | cons a as ih =>
    rw [cstring, List.mem_cons, ← ih]
    split
    · next ha => simp [ha]
    · next ha => simp [Ne.symm ha]

theorem strlen_returns_iff {mem : List UInt8} : (strlen mem).Returns ↔ (0 : UInt8) ∈ mem := by
  rw [← cstring_isSome_iff, Option.isSome_iff_exists]
  constructor
  · rintro ⟨n, h⟩
    obtain ⟨body, hbody, -⟩ := strlen_eq_ok_iff.mp h
    exact ⟨body, hbody⟩
  · rintro ⟨body, hbody⟩
    exact ⟨body.length, strlen_eq_ok_iff.mpr ⟨body, hbody, rfl⟩⟩

/-- A block without a NUL can be compared with a string that does not go on after
all its bytes. -/
theorem strcmp_eq_unterminated {a b : List UInt8} (ha : (0 : UInt8) ∉ a)
    (hb : (cstring b).isSome) : (strcmp_eq a b).Returns ↔ ¬ a <+: b := by
  induction a generalizing b with
  | nil => exact iff_of_false (by rintro ⟨same, h⟩; cases h) fun h => h List.nil_prefix
  | cons c as ih =>
    obtain ⟨hc, has⟩ := not_or.mp (List.mem_cons.not.mp ha)
    cases b with
    | nil => cases hb
    | cons d bs =>
      rw [strcmp_eq, List.cons_prefix_cons]
      by_cases hcd : c = d
      · subst hcd
        rw [if_pos rfl, if_neg (Ne.symm hc), ih has, and_iff_right rfl]
        rw [cstring, if_neg (Ne.symm hc)] at hb
        simpa using hb
      · rw [if_neg hcd]
        exact iff_of_true (returns_ok false) fun h => hcd h.1

theorem strcmp_eq_self (a : List UInt8) : strcmp_eq a a ≠ ok false := by
  induction a with
  | nil => exact nofun
  | cons c as ih =>
    rw [strcmp_eq, if_pos rfl]
    split
    · exact nofun
    · exact ih

/-- What is behind the NUL of a string does not count in a comparison. -/
theorem strcmp_eq_congr {a a' name : List UInt8} (ha : cstring a = some name)
    (ha' : cstring a' = some name) (b : List UInt8) : strcmp_eq a b = strcmp_eq a' b := by
  induction name generalizing a a' b with
  | nil =>
    obtain ⟨-, rest, rfl⟩ := cstring_eq_some_iff.mp ha
    obtain ⟨-, rest', rfl⟩ := cstring_eq_some_iff.mp ha'
    cases b <;> simp [strcmp_eq]
  | cons c name ih =>
    obtain ⟨hfree, rest, rfl⟩ := cstring_eq_some_iff.mp ha
    obtain ⟨-, rest', rfl⟩ := cstring_eq_some_iff.mp ha'
    have hname : (0 : UInt8) ∉ name := fun hmem => hfree (List.mem_cons_of_mem _ hmem)
    cases b with
    | nil => rfl
    | cons d bs =>
      have hrest : strcmp_eq (name ++ [0] ++ rest) bs = strcmp_eq (name ++ [0] ++ rest') bs :=
        ih (cstring_eq_some_iff.mpr ⟨hname, List.prefix_append _ _⟩)
          (cstring_eq_some_iff.mpr ⟨hname, List.prefix_append _ _⟩) bs
      simp only [List.cons_append, strcmp_eq]
      rw [hrest]

theorem cstring_take {mem body : List UInt8} (h : cstring mem = some body) :
    mem.take body.length = body := by
  obtain ⟨_, rest, rfl⟩ := cstring_eq_some_iff.mp h
  rw [List.append_assoc, List.take_left]

/-- What `snprintf` leaves in a buffer: the string it is given, cut to what fits
with its NUL, and behind it what was there. -/
theorem snprintf_s_spec {dst src out : List UInt8} (hdst : dst ≠ []) (h : snprintf_s dst src = ok out) :
    ∃ body, cstring src = some body ∧ out.length = dst.length ∧
      out = body.take (dst.length - 1) ++ 0 :: dst.drop (min body.length (dst.length - 1) + 1) := by
  obtain ⟨n, hn, hwrite⟩ := bind_eq_ok_iff.mp h
  obtain ⟨body, hbody, rfl⟩ := strlen_eq_ok_iff.mp hn
  have hpos : 0 < dst.length := List.length_pos_iff.mpr hdst
  have hcut : src.take (min body.length (dst.length - 1)) = body.take (dst.length - 1) := by
    rw [Nat.min_comm, ← List.take_take, cstring_take hbody]
  have hlen : (body.take (dst.length - 1)).length = min body.length (dst.length - 1) := by
    rw [List.length_take, Nat.min_comm]
  rw [hcut, writeBytes_of_le le_rfl (by simp; omega)] at hwrite
  cases hwrite
  refine ⟨body, hbody, ?_, ?_⟩
  · simp
    omega
  · simp [hlen]

/-- A string is copied into memory that is there. -/
theorem snprintf_s_returns {dst src body : List UInt8} (hdst : dst ≠ [])
    (h : cstring src = some body) : (snprintf_s dst src).Returns := by
  have hpos : 0 < dst.length := List.length_pos_iff.mpr hdst
  rw [snprintf_s, strlen_eq_ok_iff.mpr ⟨body, h, rfl⟩, ok_bind, writeBytes_of_le le_rfl (by
    rw [List.length_append, List.length_take, List.length_singleton]
    omega)]
  exact ⟨_, rfl⟩

theorem snprintf_s_cstring {dst src out : List UInt8} (hdst : dst ≠ [])
    (h : snprintf_s dst src = ok out) :
    cstring out = (cstring src).map (·.take (dst.length - 1)) := by
  obtain ⟨body, hbody, _, rfl⟩ := snprintf_s_spec hdst h
  have hfree := (cstring_eq_some_iff.mp hbody).1
  rw [hbody, cstring_append fun hmem => hfree (List.mem_of_mem_take hmem)]
  rfl

end Lib
