import Z2wRpc.Dispatch.Process
import Z2wRpc.Dispatch.RegisterJson

/-!
# The string methods and the end of their message

`rpc_sayhello` and `rpc_echo` take the number of characters to edit from the
request.  Each loop is followed from an arbitrary round on: what is left of it
stays inside the message exactly when its outermost index does.
-/

namespace Z2wRpc

open Foundation

namespace Dispatch

open CJson

/-!
## The loops
-/

theorem store_of_inside {memory : List Byte} {i : Int} (hlow : 0 <= i)
    (hhigh : i < memory.length) (b : Byte) :
    exists memory', store memory i b = some memory' ∧
      memory'.length = memory.length := by
  rcases Option.isSome_iff_exists.mp
    ((store_isSome_iff (b := b)).mpr ⟨hlow, hhigh⟩) with ⟨memory', h⟩
  exact ⟨memory', h, store_length h⟩

theorem load_of_inside {memory : List Byte} {i : Int} (hlow : 0 <= i)
    (hhigh : i < memory.length) : exists b, load memory i = some b :=
  Option.isSome_iff_exists.mp (load_isSome_iff.mpr ⟨hlow, hhigh⟩)

theorem load_of_outside {memory : List Byte} {i : Int}
    (h : memory.length <= i) : load memory i = none := by
  rw [← Option.not_isSome_iff_eq_none, load_isSome_iff]
  omega

theorem echoLoop_isSome_iff {n : Nat} {i : Int} (hi : 0 <= i)
    (msg : List Byte) :
    (echoLoop n i msg).isSome <-> n = 0 ∨ i + n <= msg.length := by
  induction n generalizing i msg with
  | zero => simp [echoLoop]
  | succ n ih =>
      by_cases hinside : i < msg.length
      · rcases load_of_inside hi hinside with ⟨b, hload⟩
        rcases store_of_inside hi hinside (swapCase b) with
          ⟨msg', hstore, hlength⟩
        have hrest := ih (i := i + 1) (by omega) msg'
        simp only [echoLoop, hload, hstore, Option.bind_eq_bind,
          Option.bind_some]
        rw [hrest, hlength]
        omega
      · simp only [echoLoop, load_of_outside (not_lt.mp hinside),
          Option.bind_eq_bind, Option.bind_none, Option.isSome_none]
        simp
        omega

/--
The rest of the loop of `rpc_sayhello`.  The indices move towards each other,
so the upper one of the next round is the outermost.
-/
theorem sayhelloLoop_isSome_iff {length : Int} {n : Nat} {i : Int}
    (hi : 0 <= i) (hn : 2 * (i + n) <= length) (msg : List Byte) :
    (sayhelloLoop length n i msg).isSome <->
      n = 0 ∨ length - i <= msg.length := by
  induction n generalizing i msg with
  | zero => simp [sayhelloLoop]
  | succ n ih =>
      by_cases hinside : length - i - 1 < msg.length
      · rcases load_of_inside hi (by omega : i < msg.length) with ⟨tmp, htmp⟩
        rcases load_of_inside (by omega : 0 <= length - i - 1) hinside with
          ⟨last, hlast⟩
        rcases store_of_inside hi (by omega : i < msg.length) last with
          ⟨msg', hfirst, hlength'⟩
        rcases store_of_inside (by omega : 0 <= length - i - 1)
          (by omega : length - i - 1 < msg'.length) tmp with
          ⟨msg'', hsecond, hlength''⟩
        have hrest := ih (i := i + 1) (by omega) (by omega) msg''
        simp only [sayhelloLoop, htmp, hlast, hfirst, hsecond,
          Option.bind_eq_bind, Option.bind_some]
        rw [hrest, hlength'', hlength']
        omega
      · have hlast := load_of_outside (not_lt.mp hinside)
        simp only [sayhelloLoop, hlast, Option.bind_eq_bind, Option.bind_none]
        cases load msg i with
        | none =>
            simp
            omega
        | some tmp =>
            simp
            omega

/-!
## The methods
-/

theorem rpcEcho_isSome_iff (memory : List Byte) (length : Int32) :
    (rpcEcho memory length).isSome <-> length.toInt <= memory.length := by
  rw [rpcEcho, echoLoop_isSome_iff (Int.le_refl 0)]
  omega

theorem rpcSayhello_isSome_iff {memory : List Byte} (hmemory : memory ≠ [])
    (length : Int32) :
    (rpcSayhello memory length).isSome <-> length.toInt <= memory.length := by
  have hpositive := List.length_pos_of_ne_nil hmemory
  rw [rpcSayhello]
  by_cases hpos : 0 <= length.toInt
  · have htdiv : length.toInt.tdiv 2 = length.toInt / 2 :=
      Int.tdiv_eq_ediv_of_nonneg hpos
    rw [sayhelloLoop_isSome_iff (Int.le_refl 0) (by omega)]
    omega
  · -- the division truncates towards zero, and there is no round
    have htdiv : length.toInt.tdiv 2 <= 0 := by
      have hneg := Int.neg_tdiv (a := -length.toInt) (b := 2)
      have hediv : (-length.toInt).tdiv 2 = -length.toInt / 2 :=
        Int.tdiv_eq_ediv_of_nonneg (by omega)
      rw [Int.neg_neg, hediv] at hneg
      omega
    have hzero : (length.toInt.tdiv 2).toNat = 0 := by omega
    rw [hzero]
    simp [sayhelloLoop]
    omega

section

variable [FreshMemory]

theorem pointee_length (msg : CString) (room : Room) :
    (pointee (some msg) room).length = msg.strlen + 1 + room.size := by
  rw [pointee, List.length_append, CString.stored_length, Room.bytes_length]

theorem pointee_ne_nil (msg : CString) (room : Room) :
    pointee (some msg) room ≠ [] := by
  intro h
  have hlength := pointee_length msg room
  rw [h, List.length_nil] at hlength
  omega

theorem editMessage_run {handler : Handler} {rpc : List Byte -> Int32 ->
      Option (List Byte)} (hbody : handler.body = editMessage rpc)
    (hparams : handler.params =
      [(.lit "msg", .lit "char*"), (.lit "length", .lit "int")])
    {params : Option CJson} {msg : CString} {d : Double}
    (hmsg : getObjectItem params (.lit "msg") = some (.string msg))
    (hlength : getObjectItem params (.lit "length") = some (.number d))
    (room : CString -> Room) (task : RpcTask) :
    (handler.run room params task).result ≠ .error .outOfBounds <->
      (rpc (pointee (some msg) (room (.lit "msg"))) (saturate d)).isSome := by
  have hargs : (handlerArgs params handler.params).result =
      .ok [.text (some msg), .int (saturate d)] := by
    rw [hparams, handlerArgs_result_ok_iff]
    exact .cons ⟨_, hmsg, rfl⟩ (.cons ⟨_, hlength, rfl⟩ .nil)
  have hemit : (Traced.emit (.call [.text (some msg), .int (saturate d)]) :
      Run Unit).result = .ok () := rfl
  have hitem : handler.body.resultItem [.text (some msg), .int (saturate d)]
      (handler.rooms room) =
        (rpc (pointee (some msg) (room (.lit "msg"))) (saturate d)).map
          fun edited => some (.string (CString.ofBytes edited)) := by
    rw [hbody, Handler.rooms, hparams]
    simp only [editMessage, Body.resultItem, List.map_cons, Option.map_map]
    rfl
  rw [Handler.run, Traced.bind_of_ok hargs, Traced.bind_of_ok hemit, hitem]
  cases rpc (pointee (some msg) (room (.lit "msg"))) (saturate d) with
  | none => simp [Traced.require, Traced.bind_def, Traced.bind, Traced.fault]
  | some edited => simp

section

variable {params : Option CJson} {msg : CString} {d : Double}

/-- `sayhello` and `echo` stay in the block of their message exactly when the
requested length does. -/
theorem message_block_iff
    (hmsg : getObjectItem params (.lit "msg") = some (.string msg))
    (hlength : getObjectItem params (.lit "length") = some (.number d))
    (room : CString -> Room) (task : RpcTask) :
    ((rpcResponseJsonEncodeSayhello.run room params task).result ≠
        .error .outOfBounds <->
      (saturate d).toInt <= msg.strlen + 1 + (room (.lit "msg")).size) ∧
    ((rpcResponseJsonEncodeEcho.run room params task).result ≠
        .error .outOfBounds <->
      (saturate d).toInt <= msg.strlen + 1 + (room (.lit "msg")).size) := by
  have hblock := pointee_length msg (room (.lit "msg"))
  constructor
  · rw [editMessage_run rfl rfl hmsg hlength room task,
      rpcSayhello_isSome_iff (pointee_ne_nil _ _), hblock]
    simp
  · rw [editMessage_run rfl rfl hmsg hlength room task, rpcEcho_isSome_iff,
      hblock]
    simp

/--
In a memory that ends with the terminator, a request to `sayhello` or `echo`
keeps the method inside its message exactly when the requested length passes
the terminator at most.
-/
theorem message_bounds_iff
    (hmsg : getObjectItem params (.lit "msg") = some (.string msg))
    (hlength : getObjectItem params (.lit "length") = some (.number d))
    (task : RpcTask) :
    ((rpcResponseJsonEncodeSayhello.run (fun _ => .empty) params task).result ≠
        .error .outOfBounds <->
      (saturate d).toInt <= msg.strlen + 1) ∧
    ((rpcResponseJsonEncodeEcho.run (fun _ => .empty) params task).result ≠
        .error .outOfBounds <->
      (saturate d).toInt <= msg.strlen + 1) := by
  have hblock := message_block_iff hmsg hlength (fun _ => .empty) task
  simp only [Room.size_empty, Nat.cast_zero, add_zero] at hblock
  exact hblock

end

end

def messageParams (msg : CString) (length : Int) : CJson :=
  .object [(.lit "msg", .string msg), (.lit "length", .number (.finite length))]

theorem message_in_bounds :
    (rpcResponseJsonEncodeEcho.run (fun _ => .empty)
      (some (messageParams (.lit "z2w") 4))
      { method := some (.lit "echo"), callerid := 0 }).result ≠
        .error .outOfBounds :=
  (message_bounds_iff rfl rfl
    { method := some (.lit "echo"), callerid := 0 }).right.mpr
      (by decide +kernel)

/-- Both methods are asked to edit five characters of a shorter message. -/
theorem message_out_of_bounds :
    (rpcResponseJsonEncodeSayhello.run (fun _ => .empty)
      (some (messageParams (.lit "z2w") 5))
      { method := some (.lit "sayhello"), callerid := 0 }).result =
        .error .outOfBounds ∧
    (rpcResponseJsonEncodeEcho.run (fun _ => .empty)
      (some (messageParams (.lit "z2w") 5))
      { method := some (.lit "echo"), callerid := 0 }).result =
        .error .outOfBounds := by
  constructor <;> rfl

end Dispatch
end Z2wRpc
