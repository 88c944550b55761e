import Z2wRpc.NtyCo.Hooks
import Z2wRpc.NtyCo.Ownership

/-!
# The descriptors of the server

The listener acquires descriptors and hands each of them to a coroutine, which
uses no other one and closes it last.
-/

namespace Z2wRpc
namespace NtyCo

open Foundation Program
open Dispatch (Fault)
open Session (SysCall Reply Code)

def descriptor (fd : Int) : Option Int :=
  if 0 <= fd then some fd else none

def serverEffects : Effects ServerTask ServerCall ServerReply Int where
  given task :=
    match task with
    | .rpcListen _ => none
    | .rpcHandle fd => descriptor fd
  touches call :=
    match call with
    | .raw (.recvF fd _) => descriptor fd
    | .raw (.sendF fd _) => descriptor fd
    | _ => none
  acquires call ret :=
    match call, ret with
    | .raw .socketF, fd => descriptor fd
    | .raw (.acceptF _), sockfd => descriptor sockfd.ret
    | _, _ => none
  releases call :=
    match call with
    | .raw (.closeF fd) => descriptor fd
    | _ => none

def Keeps (call : ServerCall) : Prop :=
  serverEffects.releases call = none ∧
    forall a, serverEffects.acquires call a = none

section

variable {own : Option Int} {held : Set Int} {α β : Type}

theorem after_of_keeps {call : ServerCall} (h : Keeps call)
    (a : ServerReply call) :
    serverEffects.after own call a held = held := by
  ext r
  simp [Effects.after, h.left, h.right a]

def Handles (own : Option Int) (held : Set Int) (p : HookCode α) : Prop :=
  forall k : α -> HookCode Unit,
    (forall a, Careful serverEffects own held (k a)) ->
      Careful serverEffects own held (p.bind k)

theorem handles_done (a : α) : Handles own held (.done a : HookCode α) :=
  fun _ hk => hk a

theorem handles_abort (e : Fault) : Handles own held (.abort e : HookCode α) :=
  fun _ _ => .abort e

theorem Handles.bind {p : HookCode α} {f : α -> HookCode β}
    (h : Handles own held p) (hf : forall a, Handles own held (f a)) :
    Handles own held (p.bind f) := by
  intro k hk
  have hassoc : (p.bind f).bind k = p.bind fun a => (f a).bind k :=
    bind_assoc p f k
  rw [hassoc]
  exact h _ fun a => hf a k hk

theorem handles_poll (fd : Int) (d : Direction) :
    Handles own held (HookCode.poll fd d) :=
  fun _ hk => .poll (hk ())

theorem handles_call (call : ServerCall) (h : Keeps call)
    (htouches : forall r, serverEffects.touches call = some r ->
      r ∈ held ∧ own = some r) :
    Handles own held (Program.call (CoCall.other call) : HookCode _) := by
  intro k hk
  refine .other htouches (fun r hr => ?_) fun a => ?_
  · rw [h.left] at hr
    cases hr
  · rw [after_of_keeps h]
    exact hk a

theorem handles_silent (call : ServerCall) (h : Keeps call)
    (hsilent : serverEffects.touches call = none) :
    Handles own held (Program.call (CoCall.other call) : HookCode _) :=
  handles_call call h fun r hr => by
    rw [hsilent] at hr
    cases hr

/-!
## The coroutine of a connection
-/

variable {fd : Int}
  (hown : forall r, descriptor fd = some r -> r ∈ held ∧ own = some r)

include hown

theorem handles_recvHook (n : Nat) : Handles own held (recvHook fd n) :=
  (handles_poll fd .read).bind fun _ =>
    handles_call (.raw (.recvF fd n)) ⟨rfl, fun _ => rfl⟩ hown

theorem handles_sendLoop (buffer : Option (List Byte)) (len fuel sent : Nat)
    (ret : Int) : Handles own held (sendLoop fd buffer len fuel sent ret) := by
  induction fuel generalizing sent ret with
  | zero => exact handles_done _
  | succ fuel ih =>
      rw [sendLoop]
      split_ifs
      · refine (handles_poll fd .write).bind fun _ => ?_
        refine (handles_call (.raw (.sendF fd _)) ⟨rfl, fun _ => rfl⟩
          hown).bind fun ret => ?_
        split_ifs
        · exact handles_done _
        · exact ih _ ret
      · exact handles_done _

theorem handles_sendHook (buffer : Option (List Byte)) (len : Nat) :
    Handles own held (sendHook fd buffer len) := by
  refine (handles_call (.raw (.sendF fd buffer)) ⟨rfl, fun _ => rfl⟩
    hown).bind fun ret => ?_
  split_ifs
  · exact handles_done _
  · exact handles_sendLoop hown buffer len len _ ret

omit hown

/-- The calls of `rpc_handle` before it closes its descriptor. -/
def OnConnection (fd : Int) : SysCall -> Prop
  | .recv fd' _ => fd' = fd
  | .send fd' _ => fd' = fd
  | .malloc _ => True
  | .process _ => True
  | _ => False

include hown

theorem handles_hook (tries : Nat) {call : SysCall}
    (h : OnConnection fd call) : Handles own held (hook tries call) := by
  cases call with
  | recv fd' n =>
      obtain rfl : fd' = fd := h
      exact handles_recvHook hown n
  | send fd' buffer =>
      obtain rfl : fd' = fd := h
      exact (handles_sendHook hown buffer _).bind fun _ => handles_done _
  | malloc n => exact handles_silent (.raw (.malloc n)) ⟨rfl, fun _ => rfl⟩ rfl
  | process payload =>
      exact handles_silent (.process payload) ⟨rfl, fun _ => rfl⟩ rfl
  | socket => cases h
  | connect fd' ip port => cases h
  | close fd' => cases h

theorem handles_link (tries : Nat) {p : Code α}
    (h : Asks (OnConnection fd) p) :
    Handles own held (link (hook tries) p) := by
  induction h with
  | done a => exact handles_done a
  | abort e => exact handles_abort e
  | ask hcall _ ih => exact (handles_hook hown tries hcall).bind ih

omit hown

theorem asks_rpcHandleRound (fd : Int) :
    Asks (OnConnection fd) (Session.rpcHandleRound fd) :=
  Session.asks_rpcHandleRound (fun _ => rfl) (fun _ => trivial)
    (fun _ => trivial) fun _ => rfl

theorem serverCode_rpcHandle (tries fuel : Nat) (fd : Int) :
    serverCode tries fuel (.rpcHandle fd) =
      (link (hook tries) (repeatWhile (Session.rpcHandleRound fd) fuel)).bind
        fun _ => link (hook tries) (Session.Code.close fd) :=
  link_bind (hook tries) _ _

theorem careful_rpcHandle (tries fuel : Nat) (fd : Int) :
    Careful serverEffects (descriptor fd) {r | descriptor fd = some r}
      (serverCode tries fuel (.rpcHandle fd)) := by
  have hhandles : Handles (descriptor fd) {r | descriptor fd = some r}
      (link (hook tries) (repeatWhile (Session.rpcHandleRound fd) fuel)) :=
    handles_link (fun r hr => ⟨hr, hr⟩) tries
      (asks_repeatWhile (asks_rpcHandleRound fd) fuel)
  rw [serverCode_rpcHandle]
  apply hhandles
  intro _
  apply Careful.other
  · intro r hr
    cases hr
  · intro r hr
    exact hr
  · intro _
    exact .done _

/-!
## The listener
-/

theorem mem_after {call : ServerCall} {a : ServerReply call} {r : Int}
    (h : serverEffects.acquires call a = some r) :
    r ∈ serverEffects.after none call a held :=
  Or.inl ⟨h, by simp⟩

theorem careful_call (call : ServerCall)
    {k : ServerReply call -> HookCode Unit}
    (hsilent : serverEffects.touches call = none)
    (hreleases : forall r, serverEffects.releases call = some r -> r ∈ held)
    (hk : forall a, Careful serverEffects none
      (serverEffects.after none call a held) (k a)) :
    Careful serverEffects none held
      ((Program.call (CoCall.other call) : HookCode _).bind k) := by
  apply Careful.other
  · intro r hr
    rw [hsilent] at hr
    cases hr
  · exact hreleases
  · exact hk

theorem careful_socketHook {k : Int -> HookCode Unit}
    (hk : forall ret held', Careful serverEffects none held' (k ret)) :
    Careful serverEffects none held (socketHook.bind k) := by
  apply careful_call (.raw .socketF) rfl (fun r hr => by cases hr)
  intro fd
  simp only [done_bind]
  split_ifs
  · exact hk _ _
  · apply careful_call (.raw (.fcntl fd)) rfl
      (fun r hr => by cases hr)
    intro ok
    cases ok with
    | true => exact hk _ _
    | false =>
        apply careful_call (.raw (.closeF (-1))) rfl
          (fun r hr => by cases hr)
        intro _
        exact hk _ _

theorem careful_acceptHook {fd : Int} (tries : Nat)
    {k : Int -> HookCode Unit}
    (hk : forall ret held', (forall r, descriptor ret = some r -> r ∈ held') ->
      Careful serverEffects none held' (k ret)) :
    Careful serverEffects none held ((acceptHook fd tries).bind k) := by
  have hfailed (held' : Set Int) : Careful serverEffects none held' (k (-1)) :=
    hk (-1) held' fun r hr => by cases hr
  induction tries generalizing held with
  | zero => exact hfailed held
  | succ tries ih =>
      apply Careful.poll
      apply careful_call (.raw (.acceptF fd)) rfl
        (fun r hr => by cases hr)
      intro sockfd
      simp only [done_bind]
      split_ifs with hneg hagain
      · exact ih
      · exact hfailed _
      · apply careful_call (.raw (.fcntl sockfd.ret)) rfl
          (fun r hr => by cases hr)
        intro ok
        have hheld (r : Int) (hr : descriptor sockfd.ret = some r) :
            r ∈ serverEffects.after none (.raw (.fcntl sockfd.ret)) ok
              (serverEffects.after none (.raw (.acceptF fd)) sockfd held) := by
          rw [after_of_keeps ⟨rfl, fun _ => rfl⟩]
          exact mem_after hr
        cases ok with
        | true => exact hk _ _ hheld
        | false =>
            apply careful_call (.raw (.closeF sockfd.ret)) rfl hheld
            intro _
            exact hfailed _

theorem careful_rpcListenLoop {fd : Int} (tries fuel : Nat) :
    Careful serverEffects none held (rpcListenLoop fd tries fuel) := by
  induction fuel generalizing held with
  | zero => exact .done _
  | succ fuel ih =>
      apply careful_acceptHook tries
      intro cliFd held' hcliFd
      apply careful_call (.raw (.malloc 4)) rfl (fun r hr => by cases hr)
      intro arg
      rw [after_of_keeps ⟨rfl, fun _ => rfl⟩]
      cases arg with
      | false => exact .abort _
      | true =>
          apply Careful.create
          · intro r hr
            exact ⟨hcliFd r hr, by simp⟩
          · intro _
            exact ih

theorem careful_rpcListen (port : BitVec 16) (tries fuel : Nat) :
    Careful serverEffects none held (rpcListen port tries fuel) := by
  apply careful_socketHook
  intro fd held'
  split_ifs
  · exact .done _
  · apply careful_call (.raw (.bind fd port)) rfl (fun r hr => by cases hr)
    intro _
    apply careful_call (.raw (.listen fd 20)) rfl (fun r hr => by cases hr)
    intro _
    exact careful_rpcListenLoop tries fuel

end

theorem careful_serverCode (tries fuel : Nat) (task : ServerTask) :
    Careful serverEffects (serverEffects.given task)
      {r | serverEffects.given task = some r} (serverCode tries fuel task) := by
  cases task with
  | rpcListen port => exact careful_rpcListen port tries fuel
  | rpcHandle fd => exact careful_rpcHandle tries fuel fd

end NtyCo
end Z2wRpc
