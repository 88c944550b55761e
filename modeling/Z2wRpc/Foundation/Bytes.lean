import Mathlib.Data.List.TakeWhile
import Mathlib.Tactic.Linarith

/-!
# Bytes, C strings and fixed-width fields

Shared vocabulary for programs that move bytes.  A C string is the text in
front of its terminator, so the absence of a NUL byte is part of the type; a
pointer into a larger buffer denotes the string read up to the first NUL.
Fixed-width unsigned fields are written and read least significant byte first.
-/

namespace Z2wRpc
namespace Foundation

abbrev Byte := BitVec 8

def ascii (s : String) : List Byte :=
  s.toList.map fun c => BitVec.ofNat 8 c.toNat

/-!
## Scanning

A scanner takes the longest run of bytes of one class.  It takes exactly an
intended run when the continuation does not start with a byte of that class.
-/

def StopsAt (p : Byte -> Bool) (rest : List Byte) : Prop :=
  forall b, rest.head? = some b -> p b = false

theorem stopsAt_nil (p : Byte -> Bool) : StopsAt p [] := by
  intro b hb
  cases hb

theorem stopsAt_cons {p : Byte -> Bool} {b : Byte} (h : p b = false)
    (rest : List Byte) : StopsAt p (b :: rest) := by
  intro c hc
  rw [List.head?_cons, Option.some.injEq] at hc
  rw [← hc]
  exact h

theorem span_append {p : Byte -> Bool} {run rest : List Byte}
    (hrun : forall b, b ∈ run -> p b = true) (hrest : StopsAt p rest) :
    (run ++ rest).takeWhile p = run ∧ (run ++ rest).dropWhile p = rest := by
  induction run with
  | nil =>
      cases rest with
      | nil => exact ⟨rfl, rfl⟩
      | cons b rest => simp [hrest b rfl]
  | cons b run ih =>
      have hb := hrun b (List.mem_cons_self ..)
      have ih := ih fun c hc => hrun c (List.mem_cons_of_mem b hc)
      rw [List.cons_append, List.takeWhile_cons_of_pos hb,
        List.dropWhile_cons_of_pos hb, ih.left]
      exact ⟨rfl, ih.right⟩

/-!
## C strings
-/

/-- The contents of a C string: bytes none of which is the terminator. -/
@[ext] structure CString where
  bytes : List Byte
  noNul : 0#8 ∉ bytes
deriving DecidableEq

namespace CString

def ofBytes (buffer : List Byte) : CString where
  bytes := buffer.takeWhile (· != 0#8)
  noNul := by
    intro h
    simpa using List.mem_takeWhile_imp h

def lit (s : String) : CString :=
  ofBytes (ascii s)

def strlen (s : CString) : Nat :=
  s.bytes.length

def stored (s : CString) : List Byte :=
  s.bytes ++ [0#8]

/-- Concatenation, as `"%s%s"` prints it. -/
def append (s t : CString) : CString where
  bytes := s.bytes ++ t.bytes
  noNul := by
    rw [List.mem_append]
    intro h
    rcases h with h | h
    · exact s.noNul h
    · exact t.noNul h

/-- The first characters of a string, as `snprintf` keeps them. -/
def take (n : Nat) (s : CString) : CString where
  bytes := s.bytes.take n
  noNul h := s.noNul (List.mem_of_mem_take h)

theorem ne_nul_of_mem {bs : List Byte} (h : 0#8 ∉ bs) {b : Byte}
    (hb : b ∈ bs) : (b != 0#8) = true := by
  rw [bne_iff_ne]
  intro heq
  subst heq
  exact h hb

theorem ofBytes_bytes_of_noNul {bs : List Byte} (h : 0#8 ∉ bs) :
    (ofBytes bs).bytes = bs := by
  simpa [ofBytes] using
    (span_append (fun _ => ne_nul_of_mem h) (stopsAt_nil _)).left

@[simp] theorem ofBytes_bytes (s : CString) : ofBytes s.bytes = s := by
  ext1
  exact ofBytes_bytes_of_noNul s.noNul

theorem ofBytes_nul (rest : List Byte) :
    (ofBytes (0#8 :: rest)).bytes = [] := by
  simp [ofBytes]

theorem ofBytes_length_le (buffer : List Byte) :
    (ofBytes buffer).strlen <= buffer.length :=
  List.IsPrefix.length_le (List.takeWhile_prefix _)

theorem ofBytes_stored_append (s : CString) (behind : List Byte) :
    ofBytes (s.stored ++ behind) = s := by
  rw [stored, List.append_assoc, List.singleton_append]
  ext1
  exact (span_append (fun _ => ne_nul_of_mem s.noNul)
    (stopsAt_cons rfl behind)).left

theorem ofBytes_stored (s : CString) : ofBytes s.stored = s := by
  have happend := ofBytes_stored_append s []
  rw [List.append_nil] at happend
  exact happend

theorem stored_length (s : CString) : s.stored.length = s.strlen + 1 := by
  simp [stored, strlen]

end CString

/-!
## Indexed access
-/

/-- `memory[i]`, when the index is inside. -/
def load (memory : List Byte) (i : Int) : Option Byte :=
  if 0 <= i then memory[i.toNat]? else none

/-- `memory[i] = b`, when the index is inside. -/
def store (memory : List Byte) (i : Int) (b : Byte) : Option (List Byte) :=
  if 0 <= i ∧ i < memory.length then some (memory.set i.toNat b) else none

theorem load_isSome_iff {memory : List Byte} {i : Int} :
    (load memory i).isSome <-> 0 <= i ∧ i < memory.length := by
  unfold load
  split
  · rw [isSome_getElem?]
    omega
  · simp
    omega

theorem store_isSome_iff {memory : List Byte} {i : Int} {b : Byte} :
    (store memory i b).isSome <-> 0 <= i ∧ i < memory.length := by
  unfold store
  split <;> simp_all

theorem store_length {memory memory' : List Byte} {i : Int} {b : Byte}
    (h : store memory i b = some memory') :
    memory'.length = memory.length := by
  unfold store at h
  split at h
  · rw [← Option.some.inj h, List.length_set]
  · cases h

theorem load_append (head : List Byte) (b : Byte) (rest : List Byte) :
    load (head ++ b :: rest) head.length = some b := by
  simp [load]

theorem store_append (head : List Byte) (old : Byte) (rest : List Byte)
    (b : Byte) :
    store (head ++ old :: rest) head.length b = some (head ++ b :: rest) := by
  simp [store]

/-!
## Little-endian fields
-/

/-- The `n` bytes of an unsigned field, least significant byte first. -/
def leBytes : Nat -> Nat -> List Byte
  | 0, _ => []
  | n + 1, x => BitVec.ofNat 8 x :: leBytes n (x / 256)

def leValue : List Byte -> Nat
  | [] => 0
  | b :: bs => b.toNat + 256 * leValue bs

@[simp] theorem leBytes_length (n x : Nat) : (leBytes n x).length = n := by
  induction n generalizing x with
  | zero => rfl
  | succ n ih => simp [leBytes, ih]

theorem leValue_leBytes (n x : Nat) : leValue (leBytes n x) = x % 256 ^ n := by
  induction n generalizing x with
  | zero =>
      simp [leBytes, leValue, Nat.mod_one]
  | succ n ih =>
      rw [leBytes, leValue, ih, pow_succ, Nat.mul_comm (256 ^ n) 256,
        Nat.mod_mul]
      simp

theorem leValue_lt (bs : List Byte) : leValue bs < 256 ^ bs.length := by
  induction bs with
  | nil => simp [leValue]
  | cons b bs ih =>
      have hb := b.isLt
      rw [leValue, List.length_cons, pow_succ]
      omega

theorem leBytes_leValue (bs : List Byte) :
    leBytes bs.length (leValue bs) = bs := by
  induction bs with
  | nil => rfl
  | cons b bs ih =>
      have hb := b.isLt
      have hhigh : (b.toNat + 256 * leValue bs) / 256 = leValue bs := by omega
      have hlow : BitVec.ofNat 8 (b.toNat + 256 * leValue bs) = b := by
        rw [BitVec.toNat_eq, BitVec.toNat_ofNat]
        omega
      rw [List.length_cons, leValue, leBytes, hhigh, hlow, ih]

/-- A buffer of `n` zero bytes after its first bytes have been overwritten. -/
def zeroFill (n : Nat) (bs : List Byte) : List Byte :=
  bs ++ List.replicate (n - bs.length) 0#8

theorem zeroFill_of_length_eq {n : Nat} {bs : List Byte} (h : bs.length = n) :
    zeroFill n bs = bs := by
  simp [zeroFill, h]

end Foundation
end Z2wRpc
