import Mathlib.Data.List.Induction
import Z2wRpc.Dispatch.Method
import Z2wRpc.Foundation.PrefixEdits

/-!
# What the string methods do to their message

`rpc_sayhello` swaps the ends of the first characters and moves inwards,
`rpc_echo` changes the case of one after the other.  Each loop is followed from
an arbitrary round on, over the part of the memory that it has not reached yet.
-/

namespace Z2wRpc

open Foundation

namespace Dispatch

open CJson

/-!
## The loops
-/

/--
The rest of the loop of `rpc_sayhello`: `head` and `tail` have changed places,
the middle has not been touched.
-/
theorem sayhelloLoop_middle {length : Int} (head middle tail : List Byte)
    (hlength : length = 2 * head.length + middle.length) :
    sayhelloLoop length (middle.length / 2) head.length
        (head ++ (middle ++ tail)) =
      some (head ++ (middle.reverse ++ tail)) := by
  -- the middle loses both ends in a round, down to no or one character
  induction middle using List.bidirectionalRec generalizing head tail with
  | nil => rfl
  | singleton b => simp [sayhelloLoop]
  | cons_append a middle b ih =>
      have hrounds : (a :: (middle ++ [b])).length / 2 =
          middle.length / 2 + 1 := by
        simp only [List.length_cons, List.length_append, List.length_nil]
        omega
      have hlast (c : Byte) : length - head.length - 1 =
          ((head ++ c :: middle).length : Int) := by
        simp only [List.length_cons, List.length_append, List.length_nil]
          at hlength ⊢
        omega
      have hsplit (c d : Byte) : head ++ (c :: (middle ++ [d]) ++ tail) =
          (head ++ c :: middle) ++ d :: tail := by
        simp
      have hload : load (head ++ (a :: (middle ++ [b]) ++ tail)) head.length =
          some a := load_append head a _
      have hloadLast : load (head ++ (a :: (middle ++ [b]) ++ tail))
          (length - head.length - 1) = some b := by
        rw [hlast a, hsplit, load_append]
      have hstore : store (head ++ (a :: (middle ++ [b]) ++ tail)) head.length
          b = some (head ++ (b :: (middle ++ [b]) ++ tail)) :=
        store_append head a _ b
      have hstoreLast : store (head ++ (b :: (middle ++ [b]) ++ tail))
          (length - head.length - 1) a =
            some (head ++ (b :: (middle ++ [a]) ++ tail)) := by
        rw [hlast b, hsplit, store_append, hsplit]
      have hnext := ih (head ++ [b]) (a :: tail) (by
        simp only [List.length_cons, List.length_append, List.length_nil]
          at hlength ⊢
        omega)
      rw [hrounds, sayhelloLoop]
      simp only [hload, hloadLast, hstore, hstoreLast, Option.bind_eq_bind,
        Option.bind_some]
      simpa using hnext

theorem echoLoop_middle (head middle tail : List Byte) :
    echoLoop middle.length head.length (head ++ (middle ++ tail)) =
      some (head ++ (middle.map swapCase ++ tail)) := by
  induction middle generalizing head with
  | nil => rfl
  | cons b middle ih =>
      have hnext := ih (head ++ [swapCase b])
      rw [List.length_append, List.append_assoc, List.append_assoc] at hnext
      rw [List.length_cons, List.cons_append, echoLoop, load_append,
        Option.bind_eq_bind, Option.bind_some, store_append,
        Option.bind_eq_bind, Option.bind_some]
      exact hnext

def EditsFront (rpc : List Byte -> Int32 -> Option (List Byte))
    (edit : List Byte -> List Byte) : Prop :=
  forall (front behind : List Byte) (length : Int32),
    length.toInt = front.length ->
      rpc (front ++ behind) length = some (edit front ++ behind)

theorem rpcSayhello_editsFront : EditsFront rpcSayhello List.reverse := by
  intro front behind length hlength
  have hrounds : ((front.length : Int).tdiv 2).toNat = front.length / 2 := rfl
  have hloop := @sayhelloLoop_middle front.length [] front behind (by simp)
  rw [rpcSayhello, hlength, hrounds]
  exact hloop

theorem rpcEcho_editsFront : EditsFront rpcEcho (List.map swapCase) := by
  intro front behind length hlength
  rw [rpcEcho, hlength, Int.toNat_natCast]
  exact echoLoop_middle [] front behind

/-!
## Letters
-/

def asciiSwapped (b : Byte) : Byte :=
  let c := Char.ofNat b.toNat
  if c.isLower then BitVec.ofNat 8 c.toUpper.toNat
  else if c.isUpper then BitVec.ofNat 8 c.toLower.toNat
  else b

theorem swapCase_eq_asciiSwapped : swapCase = asciiSwapped := by
  have hbytes : forall b, swapCase b = asciiSwapped b := by decide +kernel
  exact funext hbytes

theorem swapCase_involutive : Function.Involutive swapCase := by
  have hbytes : forall b, swapCase (swapCase b) = b := by decide +kernel
  exact hbytes

theorem swapCase_ne_nul {b : Byte} (h : b ≠ 0#8) : swapCase b ≠ 0#8 := by
  intro hnul
  have hback := swapCase_involutive b
  rw [hnul] at hback
  exact h hback.symm

/-!
## Messages
-/

structure MessageEdit (edit : List Byte -> List Byte) : Prop where
  undoesItself : UndoesItself edit
  noNul : forall bs, (forall b, b ∈ bs -> b ≠ 0#8) ->
    forall b, b ∈ edit bs -> b ≠ 0#8

theorem messageEdit_reverse : MessageEdit List.reverse where
  undoesItself := undoesItself_reverse
  noNul _ hbs b hb := hbs b (List.mem_reverse.mp hb)

theorem messageEdit_swapCase : MessageEdit (List.map swapCase) where
  undoesItself := undoesItself_map swapCase_involutive
  noNul bs hbs b hb := by
    rcases List.mem_map.mp hb with ⟨c, hc, rfl⟩
    exact swapCase_ne_nul (hbs c hc)

/-- The message with its first `n` characters edited. -/
def MessageEdit.apply {edit : List Byte -> List Byte} (h : MessageEdit edit)
    (n : Nat) (msg : CString) : CString where
  bytes := editFirst edit n msg.bytes
  noNul := by
    intro hnul
    refine forall_mem_editFirst h.noNul (fun b hb heq => ?_) _ hnul rfl
    exact msg.noNul (heq ▸ hb)

/--
What a method makes of a message: the first `length` characters are edited, the
others, the length and the memory behind the terminator stay, and the same call
again restores everything.
-/
structure EditsInPlace (rpc : List Byte -> Int32 -> Option (List Byte))
    (edit : List Byte -> List Byte) (msg edited : CString) (length : Int32) :
    Prop where
  text : edited.bytes = edit (msg.bytes.take length.toInt.toNat) ++
    msg.bytes.drop length.toInt.toNat
  strlen : edited.strlen = msg.strlen
  once : forall behind,
    rpc (msg.stored ++ behind) length = some (edited.stored ++ behind)
  twice : forall behind,
    rpc (edited.stored ++ behind) length = some (msg.stored ++ behind)

section

variable {rpc : List Byte -> Int32 -> Option (List Byte)}
  {edit : List Byte -> List Byte} {length : Int32}

theorem EditsFront.message (hrpc : EditsFront rpc edit) {msg : CString}
    (hlow : 0 <= length.toInt) (hhigh : length.toInt <= msg.strlen)
    (behind : List Byte) :
    rpc (msg.stored ++ behind) length =
      some (editFirst edit length.toInt.toNat msg.bytes ++
        (0#8 :: behind)) := by
  have hfront : length.toInt =
      (msg.bytes.take length.toInt.toNat).length := by
    have hle : length.toInt.toNat <= msg.bytes.length :=
      Int.toNat_le.mpr hhigh
    rw [List.length_take_of_le hle, Int.toNat_of_nonneg hlow]
  have hsplit : msg.stored ++ behind = msg.bytes.take length.toInt.toNat ++
      (msg.bytes.drop length.toInt.toNat ++ (0#8 :: behind)) := by
    rw [CString.stored, <- List.append_assoc, List.take_append_drop,
      List.append_assoc, List.singleton_append]
  rw [hsplit, hrpc _ _ _ hfront, editFirst, List.append_assoc]

theorem editsInPlace_of_front (hrpc : EditsFront rpc edit)
    (hedit : MessageEdit edit) (msg : CString) (hlow : 0 <= length.toInt)
    (hhigh : length.toInt <= msg.strlen) :
    EditsInPlace rpc edit msg (hedit.apply length.toInt.toNat msg) length := by
  have hfirst := hedit.undoesItself.editFirst length.toInt.toNat
  have hstrlen : (hedit.apply length.toInt.toNat msg).strlen = msg.strlen :=
    hfirst.length msg.bytes
  have hstored (s : CString) (behind : List Byte) :
      s.stored ++ behind = s.bytes ++ (0#8 :: behind) := by
    rw [CString.stored, List.append_assoc, List.singleton_append]
  refine ⟨rfl, hstrlen, fun behind => ?_, fun behind => ?_⟩
  · rw [hrpc.message hlow hhigh, hstored]
    rfl
  · rw [hrpc.message hlow (hstrlen ▸ hhigh), hstored]
    exact congrArg (fun bs => some (bs ++ (0#8 :: behind)))
      (hfirst.twice msg.bytes)

theorem editMessage_text [FreshMemory] (hrpc : EditsFront rpc edit)
    (hedit : MessageEdit edit) {msg : CString} (hlow : 0 <= length.toInt)
    (hhigh : length.toInt <= msg.strlen) :
    exists text, editMessage rpc = .text text ∧
      forall room rooms, text [.text (some msg), .int length] (room :: rooms) =
        some (some (hedit.apply length.toInt.toNat msg)) := by
  refine ⟨_, rfl, fun room rooms => ?_⟩
  have hedited := (editsInPlace_of_front hrpc hedit msg hlow hhigh).once
    room.bytes
  simp only [pointee, hedited, Option.map_some, CString.ofBytes_stored_append]

end

/-- `rpc_sayhello` reverses the first characters and `rpc_echo` swaps their
case, in place, and each undoes itself. -/
theorem stringMethods_edit_in_place (msg : CString) (length : Int32)
    (hlow : 0 <= length.toInt) (hhigh : length.toInt <= msg.strlen) :
    (exists edited,
      EditsInPlace rpcSayhello List.reverse msg edited length) ∧
    (exists edited,
      EditsInPlace rpcEcho (List.map asciiSwapped) msg edited length) := by
  rw [<- swapCase_eq_asciiSwapped]
  constructor
  · exact ⟨_, editsInPlace_of_front rpcSayhello_editsFront messageEdit_reverse
      msg hlow hhigh⟩
  · exact ⟨_, editsInPlace_of_front rpcEcho_editsFront messageEdit_swapCase
      msg hlow hhigh⟩

theorem sample_edited_in_place :
    (exists edited, EditsInPlace rpcSayhello List.reverse
      (.lit "z2w rpc nb") edited 10) ∧
    (exists edited, EditsInPlace rpcEcho (List.map asciiSwapped)
      (.lit "z2w rpc nb") edited 10) :=
  stringMethods_edit_in_place (.lit "z2w rpc nb") 10 (by decide) (by decide)

end Dispatch
end Z2wRpc
