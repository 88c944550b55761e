import Mathlib.Data.List.Basic

/-!
# Byte streams delivered in chunks

A transport delivers a stream as consecutive chunks.  One read returns at most
the requested amount and never more than the chunk at the front, so a reader
that wants a whole piece gets it in one read exactly when no chunk ends inside
the piece.  The cuts are compared with the pieces through the offsets at which
both end.
-/

namespace Z2wRpc
namespace Foundation
namespace Segments

variable {α : Type}

def pushBack (rest : List α) (chunks : List (List α)) : List (List α) :=
  match rest with
  | [] => chunks
  | a :: as => (a :: as) :: chunks

/-- One read of at most `n` items: what it returns and what stays unread. -/
def read (n : Nat) : List (List α) -> List α × List (List α)
  | [] => ([], [])
  | c :: cs => (c.take n, pushBack (c.drop n) cs)

/-- The offsets at which pieces end, laid one after the other from `start`. -/
def ends (start : Nat) : List (List α) -> List Nat
  | [] => []
  | p :: ps => (start + p.length) :: ends (start + p.length) ps

/-- Every chunk ends where a piece ends: no cut falls inside a piece. -/
def CutBetween (pieces chunks : List (List α)) : Prop :=
  forall k, k ∈ ends 0 chunks -> k ∈ ends 0 pieces

def NoEmpty (chunks : List (List α)) : Prop :=
  forall c, c ∈ chunks -> c ≠ []

@[simp] theorem pushBack_nil (chunks : List (List α)) :
    pushBack [] chunks = chunks := rfl

theorem pushBack_of_ne_nil {rest : List α} (h : rest ≠ [])
    (chunks : List (List α)) : pushBack rest chunks = rest :: chunks := by
  cases rest with
  | nil => exact absurd rfl h
  | cons a as => rfl

@[simp] theorem flatten_pushBack (rest : List α) (chunks : List (List α)) :
    (pushBack rest chunks).flatten = rest ++ chunks.flatten := by
  cases rest <;> rfl

theorem read_append_flatten (n : Nat) (chunks : List (List α)) :
    (read n chunks).1 ++ (read n chunks).2.flatten = chunks.flatten := by
  cases chunks with
  | nil => rfl
  | cons c cs =>
      rw [read, flatten_pushBack, ← List.append_assoc, List.take_append_drop,
        List.flatten_cons]

theorem read_pushBack (p rest : List α) :
    read p.length (pushBack (p ++ rest) []) = (p, pushBack rest []) := by
  cases hchunk : p ++ rest with
  | nil =>
      rcases List.append_eq_nil_iff.mp hchunk with ⟨rfl, rfl⟩
      rfl
  | cons a as =>
      rw [pushBack, read, ← hchunk, List.take_left, List.drop_left]

theorem noEmpty_read {chunks : List (List α)} (h : NoEmpty chunks) (n : Nat) :
    NoEmpty (read n chunks).2 := by
  cases chunks with
  | nil => exact h
  | cons c cs =>
      intro d hd
      by_cases hrest : c.drop n = []
      · rw [read, hrest] at hd
        exact h d (List.mem_cons_of_mem c hd)
      · rw [read, pushBack_of_ne_nil hrest] at hd
        rcases List.mem_cons.mp hd with rfl | hmem
        · exact hrest
        · exact h d (List.mem_cons_of_mem c hmem)

theorem eq_nil_of_noEmpty_of_flatten {chunks : List (List α)}
    (h : NoEmpty chunks) (hflat : chunks.flatten = []) : chunks = [] := by
  cases chunks with
  | nil => rfl
  | cons c cs =>
      rw [List.flatten_cons, List.append_eq_nil_iff] at hflat
      exact absurd hflat.left (h c (List.mem_cons_self ..))

/-!
## Offsets
-/

theorem mem_ends_add {start k x : Nat} {ps : List (List α)} :
    x ∈ ends (k + start) ps <-> exists y, y ∈ ends start ps ∧ x = k + y := by
  induction ps generalizing start with
  | nil => simp [ends]
  | cons p ps ih =>
      simp only [ends, List.mem_cons, Nat.add_assoc k start p.length, ih]
      constructor
      · intro h
        rcases h with rfl | ⟨y, hy, rfl⟩
        · exact ⟨start + p.length, Or.inl rfl, rfl⟩
        · exact ⟨y, Or.inr hy, rfl⟩
      · intro h
        rcases h with ⟨y, rfl | hy, rfl⟩
        · exact Or.inl rfl
        · exact Or.inr ⟨y, hy, rfl⟩

theorem mem_ends_cons {x : Nat} {p : List α} {ps : List (List α)} :
    x ∈ ends 0 (p :: ps) <->
      x = p.length ∨ exists y, y ∈ ends 0 ps ∧ x = p.length + y := by
  simp only [ends, List.mem_cons, Nat.zero_add]
  rw [← mem_ends_add, Nat.add_zero]

theorem pos_of_mem_ends {x : Nat} {chunks : List (List α)}
    (h : NoEmpty chunks) (hx : x ∈ ends 0 chunks) : 0 < x := by
  cases chunks with
  | nil => simp [ends] at hx
  | cons c cs =>
      have hpos : 0 < c.length :=
        List.length_pos_iff.mpr (h c (List.mem_cons_self ..))
      rcases mem_ends_cons.mp hx with rfl | ⟨y, _, rfl⟩ <;> omega

theorem mem_ends_read {n x : Nat} {c : List α} {cs : List (List α)}
    (hle : n <= c.length) (hx : 0 < x) :
    x ∈ ends 0 (read n (c :: cs)).2 <-> n + x ∈ ends 0 (c :: cs) := by
  by_cases hrest : c.drop n = []
  · have hlen : c.length = n := by
      have := List.drop_eq_nil_iff.mp hrest
      omega
    rw [read, hrest, pushBack_nil, mem_ends_cons]
    constructor
    · intro h
      exact Or.inr ⟨x, h, by omega⟩
    · intro h
      rcases h with h | ⟨y, hy, h⟩
      · omega
      · have hxy : x = y := by omega
        rw [hxy]
        exact hy
  · rw [read, pushBack_of_ne_nil hrest, mem_ends_cons, mem_ends_cons,
      List.length_drop]
    constructor
    · intro h
      rcases h with rfl | ⟨y, hy, rfl⟩
      · exact Or.inl (by omega)
      · exact Or.inr ⟨y, hy, by omega⟩
    · intro h
      rcases h with h | ⟨y, hy, h⟩
      · exact Or.inl (by omega)
      · exact Or.inr ⟨y, hy, by omega⟩

/--
No cut falls inside the first piece and none inside the later ones: the front
chunk holds the whole first piece, and the rest of the stream is cut between
the rest of the pieces.
-/
theorem cutBetween_cons_iff {p c : List α} {ps cs : List (List α)}
    (hne : NoEmpty (c :: cs)) :
    CutBetween (p :: ps) (c :: cs) <->
      p.length <= c.length ∧ CutBetween ps (read p.length (c :: cs)).2 := by
  constructor
  · intro h
    have hle : p.length <= c.length := by
      have hc := h c.length (mem_ends_cons.mpr (Or.inl rfl))
      rcases mem_ends_cons.mp hc with hc | ⟨y, _, hc⟩ <;> omega
    refine ⟨hle, ?_⟩
    intro x hx
    have hpos : 0 < x := pos_of_mem_ends (noEmpty_read hne p.length) hx
    rcases mem_ends_cons.mp (h _ ((mem_ends_read hle hpos).mp hx)) with
      hk | ⟨y, hy, hk⟩
    · omega
    · have hxy : x = y := by omega
      rw [hxy]
      exact hy
  · intro h x hx
    rcases h with ⟨hle, h⟩
    have hpx : p.length <= x := by
      rcases mem_ends_cons.mp hx with rfl | ⟨y, _, rfl⟩ <;> omega
    rcases Nat.eq_or_lt_of_le hpx with heq | hlt
    · exact mem_ends_cons.mpr (Or.inl heq.symm)
    · have hrest := h (x - p.length) <|
        (mem_ends_read hle (by omega)).mpr <| by
          rw [show p.length + (x - p.length) = x by omega]
          exact hx
      exact mem_ends_cons.mpr (Or.inr ⟨x - p.length, hrest, by omega⟩)

/-- A piece that was read as it is: `next` is what the reader finds then. -/
structure PieceRead (p rest : List α) (chunks next : List (List α)) :
    Prop where
  read : Segments.read p.length chunks = (p, next)
  unread : next.flatten = rest
  noEmpty : NoEmpty next
  cut : forall ps, CutBetween (p :: ps) chunks <-> CutBetween ps next

theorem pieceRead_of_length_le {p rest c : List α} {cs : List (List α)}
    (hne : NoEmpty (c :: cs)) (hflat : (c :: cs).flatten = p ++ rest)
    (hle : p.length <= c.length) :
    PieceRead p rest (c :: cs) (Segments.read p.length (c :: cs)).2 := by
  have hsplit := read_append_flatten p.length (c :: cs)
  have hlength : (Segments.read p.length (c :: cs)).1.length = p.length := by
    rw [Segments.read, List.length_take]
    omega
  rw [hflat] at hsplit
  rcases List.append_inj hsplit hlength with ⟨hpiece, hunread⟩
  refine ⟨Prod.ext hpiece rfl, hunread, noEmpty_read hne p.length, ?_⟩
  intro ps
  rw [cutBetween_cons_iff hne]
  exact and_iff_right hle

theorem not_cutBetween_of_length_lt {p c : List α} {cs : List (List α)}
    (hne : NoEmpty (c :: cs)) (hlt : c.length < p.length)
    (ps : List (List α)) : ¬ CutBetween (p :: ps) (c :: cs) := by
  intro hcut
  have hle := ((cutBetween_cons_iff hne).mp hcut).left
  omega

theorem cutBetween_nil (pieces : List (List α)) : CutBetween pieces [] := by
  intro k hk
  simp [ends] at hk

end Segments
end Foundation
end Z2wRpc
