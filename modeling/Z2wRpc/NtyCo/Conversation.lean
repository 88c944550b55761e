import Z2wRpc.NtyCo.Descriptors
import Z2wRpc.Session.Scripts

/-!
# What is said on a connection

The hooks make of one call of `rpc_handle` several calls of the C library, with
turns of other coroutines between them.  On the connection they amount to the one
call: what a history of the linked `rpc_handle` has received and sent is what
`rpc_handle` receives and sends alone.
-/

namespace Z2wRpc
namespace NtyCo

open Foundation Program
open Dispatch (Fault RpcFunc)
open Session (SysCall Reply Code NetEvent)

abbrev ServerExchange : Type := CoExchange ServerTask ServerReply

def RawFine (memory : Prop) : Exchange RawReply -> Prop
  | ⟨.recvF _ n, ret⟩ => forall bytes, ret = some bytes -> bytes.length <= n
  | ⟨.sendF _ none, ret⟩ => ret = -1
  | ⟨.sendF _ (some bytes), ret⟩ => ret = -1 ∨ (0 <= ret ∧ ret <= bytes.length)
  | ⟨.malloc _, ok⟩ => memory -> ok = true
  | _ => True

def ServerFine (table : List RpcFunc) (memory : Prop) :
    Exchange ServerReply -> Prop
  | ⟨.raw call, ret⟩ => RawFine memory ⟨call, ret⟩
  | ⟨.process payload, ret⟩ => ret = Session.served table payload

def receivedBy : Exchange ServerReply -> List NetEvent
  | ⟨.raw (.recvF ..), none⟩ => [.failed]
  | ⟨.raw (.recvF ..), some bytes⟩ => [.segment bytes]
  | _ => []

def transmittedBy : Exchange ServerReply -> List Byte
  | ⟨.raw (.sendF _ (some bytes)), ret⟩ => bytes.take ret.toNat
  | _ => []

/-- If the call is a `send`, it has sent everything. -/
def SentWhole : Exchange ServerReply -> Prop
  | ⟨.raw (.sendF _ buffer), ret⟩ =>
      exists bytes, buffer = some bytes ∧ ret = bytes.length
  | _ => True

instance : DecidablePred SentWhole
  | ⟨.raw (.sendF _ none), _⟩ =>
      isFalse (by
        rintro ⟨bytes, hbuffer, _⟩
        cases hbuffer)
  | ⟨.raw (.sendF _ (some bytes)), ret⟩ =>
      decidable_of_iff (ret = (bytes.length : Int)) (by
        constructor
        · intro hret
          exact ⟨bytes, rfl, hret⟩
        · rintro ⟨bytes', hbuffer, hret⟩
          cases hbuffer
          exact hret)
  | ⟨.raw .socketF, _⟩ => isTrue trivial
  | ⟨.raw (.fcntl _), _⟩ => isTrue trivial
  | ⟨.raw (.bind ..), _⟩ => isTrue trivial
  | ⟨.raw (.listen ..), _⟩ => isTrue trivial
  | ⟨.raw (.acceptF _), _⟩ => isTrue trivial
  | ⟨.raw (.connectF ..), _⟩ => isTrue trivial
  | ⟨.raw (.recvF ..), _⟩ => isTrue trivial
  | ⟨.raw (.closeF _), _⟩ => isTrue trivial
  | ⟨.raw (.malloc _), _⟩ => isTrue trivial
  | ⟨.process _, _⟩ => isTrue trivial

def received (record : List (Exchange ServerReply)) : List NetEvent :=
  record.flatMap receivedBy

def transmitted (record : List (Exchange ServerReply)) : List Byte :=
  record.flatMap transmittedBy

def Resting (calls : List ServerExchange) : Prop :=
  calls = [] ∨ exists earlier fd d, calls = earlier ++ [⟨.poll fd d, ()⟩]

def EndsBusy (calls : List ServerExchange) : Prop :=
  exists earlier call ret, calls = earlier ++ [⟨.other call, ret⟩]

theorem EndsBusy.not_resting {calls : List ServerExchange}
    (h : EndsBusy calls) : ¬ Resting calls := by
  rcases h with ⟨earlier, call, ret, rfl⟩
  rintro (hnil | ⟨earlier', fd, d, heq⟩)
  · simp at hnil
  · have hlast := (List.append_inj' heq rfl).right
    cases hlast

theorem EndsBusy.append (front : List ServerExchange)
    {calls : List ServerExchange} (h : EndsBusy calls) :
    EndsBusy (front ++ calls) := by
  rcases h with ⟨earlier, call, ret, rfl⟩
  exact ⟨front ++ earlier, call, ret, (List.append_assoc ..).symm⟩

section

variable {table : List RpcFunc} {memory : Prop} {fd : Int}
  {calls : List ServerExchange}

def spoken (fd : Int) (calls : List ServerExchange) :
    List (Exchange ServerReply) :=
  serverEffects.concerning fd calls

theorem spoken_poll (fd fd' : Int) (d : Direction)
    (calls : List ServerExchange) :
    spoken fd (⟨.poll fd' d, ()⟩ :: calls) = spoken fd calls := rfl

theorem spoken_recvF (hfd : 0 <= fd) (n : Nat) (ret : Option (List Byte))
    (calls : List ServerExchange) :
    spoken fd (⟨.other (.raw (.recvF fd n)), ret⟩ :: calls) =
      ⟨.raw (.recvF fd n), ret⟩ :: spoken fd calls :=
  if_pos (if_pos hfd)

theorem spoken_sendF (hfd : 0 <= fd) (buffer : Option (List Byte)) (ret : Int)
    (calls : List ServerExchange) :
    spoken fd (⟨.other (.raw (.sendF fd buffer)), ret⟩ :: calls) =
      ⟨.raw (.sendF fd buffer), ret⟩ :: spoken fd calls :=
  if_pos (if_pos hfd)

/-!
## `recv`
-/

theorem after_recvHook {n : Nat} {q : HookCode (Option (List Byte))}
    (h : After (recvHook fd n) calls q) :
    calls = [] ∨ calls = [⟨.poll fd .read, ()⟩] ∨ exists ret, q = .done ret ∧
      calls = [⟨.poll fd .read, ()⟩, ⟨.other (.raw (.recvF fd n)), ret⟩] := by
  rcases after_ask_iff.mp h with ⟨rfl, _⟩ | ⟨_, later, rfl, hlater⟩
  · exact Or.inl rfl
  · rcases after_ask_iff.mp hlater with ⟨rfl, _⟩ | ⟨ret, last, rfl, hlast⟩
    · exact Or.inr (Or.inl rfl)
    · rcases after_done_iff.mp hlast with ⟨rfl, rfl⟩
      exact Or.inr (Or.inr ⟨ret, rfl, rfl⟩)

/-!
## `send`
-/

/-- So much of a buffer is taken by a `send` that goes on. -/
structure Sending (fd : Int) (buffer : Option (List Byte)) (sent : Nat)
    (calls : List ServerExchange) (total : Nat) : Prop where
  atLeast : sent <= total
  atMost : total <= (buffer.getD []).length
  received : received (spoken fd calls) = []
  transmitted : (buffer.getD []).take sent ++ transmitted (spoken fd calls) =
    (buffer.getD []).take total

theorem sending_nil {buffer : Option (List Byte)} {sent : Nat}
    (h : sent <= (buffer.getD []).length) :
    Sending fd buffer sent [] sent where
  atLeast := Nat.le_refl sent
  atMost := h
  received := rfl
  transmitted := List.append_nil _

theorem Sending.poll {buffer : Option (List Byte)} {sent total : Nat}
    {fd' : Int} {d : Direction} (h : Sending fd buffer sent calls total) :
    Sending fd buffer sent (⟨.poll fd' d, ()⟩ :: calls) total :=
  ⟨h.atLeast, h.atMost, h.received, h.transmitted⟩

theorem transmittedBy_sendF (buffer : Option (List Byte)) (sent : Nat)
    (ret : Int) :
    transmittedBy ⟨.raw (.sendF fd (buffer.map (List.drop sent))), ret⟩ =
      ((buffer.getD []).drop sent).take ret.toNat := by
  cases buffer with
  | none => simp [transmittedBy]
  | some bytes => rfl

theorem Sending.sendF (hfd : 0 <= fd) {buffer : Option (List Byte)}
    {sent total : Nat} {ret : Int}
    (h : Sending fd buffer (sent + ret.toNat) calls total) :
    Sending fd buffer sent
      (⟨.other (.raw (.sendF fd (buffer.map (List.drop sent)))), ret⟩ :: calls)
      total := by
  rcases h with ⟨hatLeast, hatMost, hreceived, htransmitted⟩
  constructor
  · omega
  · exact hatMost
  · rw [spoken_sendF hfd]
    exact hreceived
  · rw [spoken_sendF hfd, NtyCo.transmitted, List.flatMap_cons,
      transmittedBy_sendF, <- NtyCo.transmitted, <- htransmitted, List.take_add,
      List.append_assoc]

theorem sent_le {buffer : Option (List Byte)} {sent : Nat} {ret : Int}
    (hfine : ServerFine table memory
      ⟨.raw (.sendF fd (buffer.map (List.drop sent))), ret⟩)
    (hsent : sent <= (buffer.getD []).length) :
    sent + ret.toNat <= (buffer.getD []).length ∧ -1 <= ret := by
  cases buffer with
  | none =>
      obtain rfl : ret = -1 := hfine
      exact ⟨hsent, le_refl _⟩
  | some bytes =>
      have hlength := List.length_drop (i := sent) (l := bytes)
      simp only [Option.getD_some] at hsent ⊢
      have hcases : ret = -1 ∨
          (0 <= ret ∧ ret <= (bytes.drop sent).length) := hfine
      rcases hcases with rfl | ⟨hnonneg, hle⟩
      · exact ⟨hsent, le_refl _⟩
      · omega

/-- The result of `send`, if so much has been taken. -/
def ResultOf (total : Nat) (ret : Int) : Prop :=
  ret = total ∨ (total = 0 ∧ ret = -1)

theorem resultOf_sendResult {ret : Int} {sent : Nat} (h : -1 <= ret) :
    ResultOf sent (sendResult ret sent) := by
  unfold sendResult
  split_ifs with hnone
  · rcases hnone with ⟨hle, rfl⟩
    unfold ResultOf
    omega
  · exact Or.inl rfl

theorem sending_sendLoop (hfd : 0 <= fd) {buffer : Option (List Byte)}
    {len fuel sent : Nat} {ret : Int} {q : HookCode Int}
    (hsent : sent <= (buffer.getD []).length) (hret : -1 <= ret)
    (h : After (sendLoop fd buffer len fuel sent ret) calls q)
    (hfine : AllFine (ServerFine table memory) calls) :
    exists total, Sending fd buffer sent calls total ∧
      (forall ret', q = .done ret' -> ResultOf total ret' ∧
        (calls = [] ∨ EndsBusy calls)) := by
  induction fuel generalizing calls sent ret with
  | zero =>
      rcases after_done_iff.mp h with ⟨rfl, rfl⟩
      refine ⟨sent, sending_nil hsent, fun ret' hdone => ?_⟩
      cases hdone
      exact ⟨resultOf_sendResult hret, Or.inl rfl⟩
  | succ fuel ih =>
      rw [sendLoop] at h
      split_ifs at h
      · rcases after_ask_iff.mp h with ⟨rfl, rfl⟩ | ⟨_, later, rfl, hlater⟩
        · exact ⟨sent, sending_nil hsent, fun _ hdone => by cases hdone⟩
        · rcases after_ask_iff.mp hlater with
            ⟨rfl, rfl⟩ | ⟨ret', last, rfl, hlast⟩
          · exact ⟨sent, (sending_nil hsent).poll,
              fun _ hdone => by cases hdone⟩
          · rcases sent_le hfine.tail.head hsent with ⟨hle, hret'⟩
            have hrest := hfine.tail.tail
            rw [done_bind] at hlast
            split_ifs at hlast with hstop
            · rcases after_done_iff.mp hlast with ⟨rfl, rfl⟩
              have hzero : ret'.toNat = 0 := Int.toNat_of_nonpos hstop
              rw [hzero] at hle
              have hnil : Sending fd buffer (sent + 0) [] (sent + 0) :=
                sending_nil hle
              rw [<- hzero] at hnil
              refine ⟨sent + 0, ?_, fun r hr => ?_⟩
              · rw [<- hzero]
                exact (hnil.sendF hfd).poll
              · cases hr
                exact ⟨resultOf_sendResult hret', Or.inr ⟨[_], _, _, rfl⟩⟩
            · rcases ih hle hret' hlast hrest with ⟨total, hsending, hdone⟩
              refine ⟨total, (hsending.sendF hfd).poll, fun r hr => ?_⟩
              rcases hdone r hr with ⟨hresult, hend⟩
              refine ⟨hresult, Or.inr ?_⟩
              rcases hend with rfl | hend
              · exact ⟨[_], _, _, rfl⟩
              · exact EndsBusy.append [_, _] hend
      · rcases after_done_iff.mp h with ⟨rfl, rfl⟩
        refine ⟨sent, sending_nil hsent, fun ret' hdone => ?_⟩
        cases hdone
        exact ⟨resultOf_sendResult hret, Or.inl rfl⟩

theorem sending_sendHook (hfd : 0 <= fd) {buffer : Option (List Byte)}
    {len : Nat} {q : HookCode Int} (h : After (sendHook fd buffer len) calls q)
    (hfine : AllFine (ServerFine table memory) calls) :
    exists total, Sending fd buffer 0 calls total ∧
      forall ret, q = .done ret -> ResultOf total ret ∧ EndsBusy calls := by
  have hbuffer : buffer.map (List.drop 0) = buffer := by
    cases buffer with
    | none => rfl
    | some bytes => rfl
  have hempty : 0 <= (buffer.getD []).length := Nat.zero_le _
  rcases after_ask_iff.mp h with ⟨rfl, rfl⟩ | ⟨ret, later, rfl, hlater⟩
  · exact ⟨0, sending_nil hempty, fun _ hdone => by cases hdone⟩
  · have hcall := hfine.head
    rw [<- hbuffer] at hcall
    rcases sent_le hcall hempty with ⟨hle, hret⟩
    have hfirst {rest : List ServerExchange} {total : Nat}
        (hrest : Sending fd buffer (0 + ret.toNat) rest total) :
        Sending fd buffer 0 (⟨.other (.raw (.sendF fd buffer)), ret⟩ :: rest)
          total := by
      have hsending := hrest.sendF hfd
      rw [hbuffer] at hsending
      exact hsending
    rw [done_bind] at hlater
    split_ifs at hlater with hzero
    · rcases after_done_iff.mp hlater with ⟨rfl, rfl⟩
      refine ⟨_, hfirst (sending_nil hle), fun r hr => ?_⟩
      cases hr
      refine ⟨Or.inl ?_, [], _, _, rfl⟩
      rw [hzero]
      rfl
    · rw [Nat.zero_add] at hle
      rcases sending_sendLoop hfd hle hret hlater hfine.tail with
        ⟨total, hsending, hdone⟩
      rw [<- Nat.zero_add ret.toNat] at hsending
      refine ⟨total, hfirst hsending, fun r hr => ?_⟩
      rcases hdone r hr with ⟨hresult, rfl | hend⟩
      · exact ⟨hresult, [], _, _, rfl⟩
      · exact ⟨hresult, EndsBusy.append [_] hend⟩

theorem sendHook_whole (hfd : 0 <= fd) {buffer : Option (List Byte)}
    {q : HookCode Int} (h : After (sendHook fd buffer (sendLength buffer)) calls q)
    (hcalls : calls ≠ [])
    (hwhole : forall x, x ∈ spoken fd calls -> SentWhole x) :
    exists bytes, buffer = some bytes ∧ q = .done (bytes.length : Int) := by
  rcases after_ask_iff.mp h with ⟨rfl, _⟩ | ⟨ret, later, rfl, hlater⟩
  · exact absurd rfl hcalls
  · rw [spoken_sendF hfd, List.forall_mem_cons] at hwhole
    rcases hwhole.left with ⟨bytes, rfl, hret⟩
    obtain rfl : ret = bytes.length := hret
    refine ⟨bytes, rfl, ?_⟩
    rw [done_bind, sendLength] at hlater
    split_ifs at hlater with hzero
    · rcases after_done_iff.mp hlater with ⟨rfl, rfl⟩
      rw [hzero]
    · have hresult : sendLoop fd (some bytes) bytes.length bytes.length
          (bytes.length : Int).toNat bytes.length =
            .done (bytes.length : Int) := by
        obtain ⟨n, hn⟩ : exists n, bytes.length = n + 1 :=
          Nat.exists_eq_succ_of_ne_zero fun hnil => hzero (by rw [hnil]; rfl)
        rw [hn, Int.toNat_natCast, sendLoop, if_neg (lt_irrefl _), sendResult,
          if_neg fun hnone => absurd hnone.right (Nat.succ_ne_zero n)]
        rfl
      rw [hresult] at hlater
      exact (after_done_iff.mp hlater).right

theorem sendHook_none {len : Nat} {ret : Int}
    (h : After (sendHook fd none len) calls (.done ret))
    (hfine : AllFine (ServerFine table memory) calls) : ret = -1 := by
  rcases after_ask_iff.mp h with ⟨_, hdone⟩ | ⟨first, later, rfl, hlater⟩
  · cases hdone
  · obtain rfl : first = -1 := hfine.head
    have hne : ¬ (-1 : Int) = 0 := by decide
    rw [done_bind, if_neg hne] at hlater
    cases len with
    | zero =>
        have hresult := (after_done_iff.mp hlater).right
        cases hresult
        rfl
    | succ len =>
        have hlt : (-1 : Int).toNat < len + 1 := Nat.succ_pos len
        rw [sendLoop, if_pos hlt] at hlater
        rcases after_ask_iff.mp hlater with
          ⟨_, hdone⟩ | ⟨_, rest, rfl, hrest⟩
        · cases hdone
        · rcases after_ask_iff.mp hrest with
            ⟨_, hdone⟩ | ⟨again, last, rfl, hlast⟩
          · cases hdone
          · obtain rfl : again = -1 := hfine.tail.tail.head
            have hle : (-1 : Int) <= 0 := by decide
            rw [done_bind, if_pos hle] at hlast
            have hresult := (after_done_iff.mp hlast).right
            cases hresult
            rfl

/-!
## Histories
-/

theorem spoken_append (fd : Int) (calls later : List ServerExchange) :
    spoken fd (calls ++ later) = spoken fd calls ++ spoken fd later :=
  concerning_append serverEffects fd calls later

/-- What these calls of `rpc_handle` are on the connection and for the memory
is what those of the hooks are. -/
structure Amounts (table : List RpcFunc) (memory : Prop) (fd : Int)
    (past : List (Exchange Reply)) (calls : List ServerExchange) : Prop where
  possible : forall x, x ∈ past ->
    Session.Possible (Session.served table) fd x
  received : received (spoken fd calls) = past.flatMap Session.arrived
  transmitted : transmitted (spoken fd calls) = past.flatMap Session.sentBy
  memory : forall n, (⟨.malloc n, false⟩ : Exchange Reply) ∈ past ->
    ¬ memory
  whole : (forall y, y ∈ spoken fd calls -> SentWhole y) ->
    forall fd' bytes ret,
      (⟨.send fd' (some bytes), ret⟩ : Exchange Reply) ∈ past ->
        ret = .ok (bytes.length : Int)

theorem Amounts.append {past later : List (Exchange Reply)}
    {calls' : List ServerExchange} (h : Amounts table memory fd past calls)
    (h' : Amounts table memory fd later calls') :
    Amounts table memory fd (past ++ later) (calls ++ calls') := by
  constructor
  · intro x hx
    rcases List.mem_append.mp hx with hx | hx
    · exact h.possible x hx
    · exact h'.possible x hx
  · rw [spoken_append, NtyCo.received, List.flatMap_append, List.flatMap_append]
    exact congrArg₂ _ h.received h'.received
  · rw [spoken_append, NtyCo.transmitted, List.flatMap_append,
      List.flatMap_append]
    exact congrArg₂ _ h.transmitted h'.transmitted
  · intro n hn
    rcases List.mem_append.mp hn with hn | hn
    · exact h.memory n hn
    · exact h'.memory n hn
  · intro hwhole fd' bytes ret hx
    rw [spoken_append] at hwhole
    rcases List.mem_append.mp hx with hx | hx
    · exact h.whole (fun y hy => hwhole y (List.mem_append_left _ hy))
        fd' bytes ret hx
    · exact h'.whole (fun y hy => hwhole y (List.mem_append_right _ hy))
        fd' bytes ret hx

theorem amounts_nil (hreceived : received (spoken fd calls) = [])
    (htransmitted : transmitted (spoken fd calls) = []) :
    Amounts table memory fd [] calls where
  possible _ hx := by cases hx
  received := hreceived
  transmitted := htransmitted
  memory _ hx := by cases hx
  whole _ _ _ _ hx := by cases hx

theorem amounts_of_quiet {call : SysCall} {ret : Reply call}
    (hpossible : Session.Possible (Session.served table) fd ⟨call, ret⟩)
    (hreceived : received (spoken fd calls) = Session.arrived ⟨call, ret⟩)
    (htransmitted : transmitted (spoken fd calls) =
      Session.sentBy ⟨call, ret⟩)
    (hmalloc : forall n, call ≠ .malloc n)
    (hsend : forall fd' buffer, call ≠ .send fd' buffer) :
    Amounts table memory fd [⟨call, ret⟩] calls := by
  constructor
  · intro x hx
    cases List.mem_singleton.mp hx
    exact hpossible
  · rw [hreceived, List.flatMap_singleton]
  · rw [htransmitted, List.flatMap_singleton]
  · intro n hn
    cases List.mem_singleton.mp hn
    exact absurd rfl (hmalloc n)
  · intro _ fd' bytes ret' hx
    cases List.mem_singleton.mp hx
    exact absurd rfl (hsend fd' _)

theorem amounts_recv (hfd : 0 <= fd) {n : Nat} {ret : Option (List Byte)}
    (h : After (recvHook fd n) calls (.done ret))
    (hfine : AllFine (ServerFine table memory) calls) :
    Amounts table memory fd [⟨.recv fd n, ret⟩] calls ∧ EndsBusy calls := by
  rcases after_recvHook h with rfl | rfl | ⟨ret', hdone, rfl⟩
  · cases after_nil_iff.mp h
  · rcases after_ask_iff.mp h with ⟨hnil, _⟩ | ⟨_, later, heq, hlater⟩
    · cases hnil
    · cases heq
      cases after_nil_iff.mp hlater
  · cases hdone
    refine ⟨?_, [_], _, _, rfl⟩
    have hspoken := spoken_recvF hfd n ret []
    rw [<- spoken_poll fd fd .read] at hspoken
    apply amounts_of_quiet
    · exact ⟨rfl, hfine.tail.head⟩
    · rw [hspoken]
      cases ret with
      | none => rfl
      | some bytes => rfl
    · rw [hspoken]
      rfl
    · intro n h
      cases h
    · intro fd' buffer h
      cases h

theorem amounts_send {bytes : List Byte} {total : Nat} {ret : Int}
    (hsending : Sending fd (some bytes) 0 calls total)
    (hresult : ResultOf total ret)
    (hwhole : (forall y, y ∈ spoken fd calls -> SentWhole y) ->
      ret = bytes.length) :
    Amounts table memory fd [⟨.send fd (some bytes), .ok ret⟩] calls := by
  have hle : total <= bytes.length := hsending.atMost
  have htaken : bytes.take ret.toNat = bytes.take total := by
    rcases hresult with rfl | ⟨rfl, rfl⟩
    · rw [Int.toNat_natCast]
    · rfl
  constructor
  · intro x hx
    cases List.mem_singleton.mp hx
    have hbounds : ret = -1 ∨ (0 <= ret ∧ ret <= bytes.length) := by
      unfold ResultOf at hresult
      omega
    exact ⟨rfl, hbounds⟩
  · exact hsending.received
  · rw [List.flatMap_singleton, Session.sentBy, htaken]
    exact hsending.transmitted
  · intro n hn
    cases List.mem_singleton.mp hn
  · intro hall fd' bytes' ret' hx
    cases List.mem_singleton.mp hx
    exact congrArg Except.ok (hwhole hall)

theorem amounts_sendHook (hfd : 0 <= fd) {buffer : Option (List Byte)}
    {ret : Int}
    (h : After (sendHook fd buffer (sendLength buffer)) calls (.done ret))
    (hfine : AllFine (ServerFine table memory) calls) :
    Amounts table memory fd [⟨.send fd buffer, .ok ret⟩] calls ∧
      EndsBusy calls := by
  rcases sending_sendHook hfd h hfine with ⟨total, hsending, hdone⟩
  rcases hdone ret rfl with ⟨hresult, hbusy⟩
  refine ⟨?_, hbusy⟩
  cases buffer with
  | none =>
      have hnothing := hsending.transmitted
      constructor
      · intro x hx
        cases List.mem_singleton.mp hx
        exact ⟨rfl, congrArg Except.ok (sendHook_none h hfine)⟩
      · exact hsending.received
      · rw [List.flatMap_singleton]
        simpa [Session.sentBy] using hnothing
      · intro n hn
        cases List.mem_singleton.mp hn
      · intro _ fd' bytes ret' hx
        cases List.mem_singleton.mp hx
  | some bytes =>
      apply amounts_send hsending hresult
      intro hall
      have hne : calls ≠ [] := by
        rintro rfl
        rcases hbusy with ⟨earlier, call, ret, heq⟩
        simp at heq
      rcases sendHook_whole hfd h hne hall with ⟨bytes', hbytes, hret⟩
      cases hbytes
      cases hret
      rfl

theorem after_hook_send {tries : Nat} {buffer : Option (List Byte)}
    {q : HookCode (Except Fault Int)}
    (h : After (hook tries (.send fd buffer)) calls q) :
    (exists q', After (sendHook fd buffer (sendLength buffer)) calls q' ∧
        (forall ret, q ≠ .done ret) ∧ forall ret, q' ≠ .done ret) ∨
      exists ret, q = .done (.ok ret) ∧
        After (sendHook fd buffer (sendLength buffer)) calls (.done ret) := by
  rcases h.bind_cases with
    ⟨q', hafter, hgoes, rfl⟩ | ⟨ret, first, second, rfl, hafter, hdone⟩
  · refine Or.inl ⟨q', hafter, fun ret hret => ?_, hgoes⟩
    cases q' with
    | done ret' => exact hgoes ret' rfl
    | abort e => cases hret
    | ask o next => cases hret
  · rcases after_done_iff.mp hdone with ⟨rfl, rfl⟩
    rw [List.append_nil]
    exact Or.inr ⟨ret, rfl, hafter⟩

theorem amounts_hook (hfd : 0 <= fd) {tries : Nat} {call : SysCall}
    (hcall : OnConnection fd call) {ret : Reply call}
    (h : After (hook tries call) calls (.done ret))
    (hfine : AllFine (ServerFine table memory) calls) :
    Amounts table memory fd [⟨call, ret⟩] calls ∧ EndsBusy calls := by
  cases call with
  | recv fd' n =>
      obtain rfl : fd' = fd := hcall
      exact amounts_recv hfd h hfine
  | send fd' buffer =>
      obtain rfl : fd' = fd := hcall
      rcases after_hook_send h with ⟨_, _, hgoes, _⟩ | ⟨ret', hret, hafter⟩
      · exact absurd rfl (hgoes ret)
      · cases hret
        exact amounts_sendHook hfd hafter hfine
  | malloc n =>
      rcases after_ask_iff.mp h with ⟨_, hdone⟩ | ⟨ok, later, rfl, hlater⟩
      · cases hdone
      · rcases after_done_iff.mp hlater with ⟨rfl, hok⟩
        cases hok
        refine ⟨?_, [], _, _, rfl⟩
        constructor
        · intro x hx
          cases List.mem_singleton.mp hx
          trivial
        · rfl
        · rfl
        · intro m hm
          cases List.mem_singleton.mp hm
          intro hmemory
          cases hfine.head hmemory
        · intro _ fd' bytes ret' hx
          cases List.mem_singleton.mp hx
  | process payload =>
      rcases after_ask_iff.mp h with ⟨_, hdone⟩ | ⟨ret', later, rfl, hlater⟩
      · cases hdone
      · rcases after_done_iff.mp hlater with ⟨rfl, hret⟩
        cases hret
        refine ⟨?_, [], _, _, rfl⟩
        apply amounts_of_quiet
        · exact hfine.head
        · rfl
        · rfl
        · intro n h
          cases h
        · intro fd' buffer h
          cases h
  | socket => cases hcall
  | connect fd' ip port => cases hcall
  | close fd' => cases hcall

theorem AllFine.append {front calls : List ServerExchange}
    (h : AllFine (ServerFine table memory) (front ++ calls)) :
    AllFine (ServerFine table memory) front ∧
      AllFine (ServerFine table memory) calls :=
  ⟨fun o a hx => h o a (List.mem_append_left _ hx),
    fun o a hx => h o a (List.mem_append_right _ hx)⟩

theorem amounts_linked (hfd : 0 <= fd) {tries : Nat}
    {past : List (Exchange Reply)} (h : Linked (hook tries) past calls)
    (hcalls : forall x, x ∈ past -> OnConnection fd x.1)
    (hfine : AllFine (ServerFine table memory) calls) :
    Amounts table memory fd past calls ∧
      (past = [] ∧ calls = [] ∨ EndsBusy calls) := by
  induction h with
  | nil => exact ⟨amounts_nil rfl rfl, Or.inl ⟨rfl, rfl⟩⟩
  | cons first _ ih =>
      rw [List.forall_mem_cons] at hcalls
      rcases hfine.append with ⟨hfirst, hrest⟩
      rcases amounts_hook hfd hcalls.left first hfirst with ⟨hamounts, hbusy⟩
      rcases ih hcalls.right hrest with ⟨hamounts', hend⟩
      refine ⟨hamounts.append hamounts', Or.inr ?_⟩
      rcases hend with ⟨_, rfl⟩ | hbusy'
      · rw [List.append_nil]
        exact hbusy
      · exact hbusy'.append _

theorem amounts_waiting (table : List RpcFunc) (memory : Prop) {n : Nat}
    {q : HookCode (Option (List Byte))}
    (h : After (recvHook fd n) calls q) (hgoes : forall ret, q ≠ .done ret) :
    Amounts table memory fd [] calls := by
  rcases after_recvHook h with rfl | rfl | ⟨ret, hdone, _⟩
  · exact amounts_nil rfl rfl
  · exact amounts_nil rfl rfl
  · exact absurd hdone (hgoes ret)

/-- A `send` that waits has not sent everything; what it has sent may count as a
`send` that takes no more. -/
theorem amounts_sending (hfd : 0 <= fd) {buffer : Option (List Byte)}
    {q : HookCode Int}
    (h : After (sendHook fd buffer (sendLength buffer)) calls q)
    (hgoes : forall ret, q ≠ .done ret) (hne : calls ≠ [])
    (hfine : AllFine (ServerFine table memory) calls) :
    (exists y, y ∈ spoken fd calls ∧ ¬ SentWhole y) ∧
      (Amounts table memory fd [] calls ∨ exists ret,
        Amounts table memory fd [⟨.send fd buffer, .ok ret⟩] calls) := by
  have hshort : ¬ forall y, y ∈ spoken fd calls -> SentWhole y := by
    intro hall
    rcases sendHook_whole hfd h hne hall with ⟨bytes, _, hdone⟩
    exact hgoes _ hdone
  rcases sending_sendHook hfd h hfine with ⟨total, hsending, _⟩
  refine ⟨by simpa using hshort, ?_⟩
  cases buffer with
  | none =>
      have hnothing := hsending.transmitted
      exact Or.inl (amounts_nil hsending.received (by simpa using hnothing))
  | some bytes =>
      exact Or.inr ⟨total, amounts_send hsending (Or.inl rfl)
        fun hall => absurd hall hshort⟩

theorem history_of_linked (hfd : 0 <= fd) {tries fuel : Nat} {q : HookCode Bool}
    (h : After (link (hook tries)
      (repeatWhile (Session.rpcHandleRound fd) fuel)) calls q)
    (hfine : AllFine (ServerFine table memory) calls)
    (hrest : Resting calls ∨ exists again, q = .done again) :
    exists past p, After (repeatWhile (Session.rpcHandleRound fd) fuel) past p ∧
      Amounts table memory fd past calls ∧
        (Session.Quiet p ∨ exists y, y ∈ spoken fd calls ∧ ¬ SentWhole y) := by
  rcases after_link h with ⟨past, p, whole, part, hpast, rfl, hlinked, hpending⟩
  have hasks := asks_repeatWhile (asks_rpcHandleRound fd) fuel
  rcases hasks.after hpast with ⟨hcalls, hnext⟩
  rcases hfine.append with ⟨hwhole, hpart⟩
  rcases amounts_linked hfd hlinked hcalls hwhole with ⟨hamounts, hend⟩
  cases hpending with
  | done again =>
      rw [List.append_nil]
      exact ⟨past, _, hpast, hamounts, Or.inl (Or.inl ⟨again, rfl⟩)⟩
  | abort e =>
      rw [List.append_nil]
      exact ⟨past, _, hpast, hamounts, Or.inl (Or.inr (Or.inl ⟨e, rfl⟩))⟩
  | @call o next _ q hafter hgoes =>
      have hresting : Resting (whole ++ part) := by
        rcases hrest with hresting | ⟨again, hdone⟩
        · exact hresting
        · cases q with
          | done ret => exact absurd rfl (hgoes ret)
          | abort e => cases hdone
          | ask o' next' => cases hdone
      -- between two calls the loop is at its beginning
      have hbetween (hnil : part = []) : Session.Quiet (.ask o next) := by
        subst hnil
        rcases hend with ⟨rfl, _⟩ | hbusy
        · rw [after_nil_iff.mp hpast]
          exact Session.quiet_repeatWhile fd fuel
        · rw [List.append_nil] at hresting
          exact absurd hresting hbusy.not_resting
      cases hnext with
      | ask hcall _ =>
          cases o with
          | recv fd' n =>
              obtain rfl : fd' = fd := hcall
              have hpart' := amounts_waiting table memory hafter hgoes
              have hboth := hamounts.append hpart'
              rw [List.append_nil] at hboth
              exact ⟨past, _, hpast, hboth,
                Or.inl (Or.inr (Or.inr ⟨fd', n, next, rfl⟩))⟩
          | send fd' buffer =>
              obtain rfl : fd' = fd := hcall
              by_cases hnil : part = []
              · exact absurd (hbetween hnil)
                  (Session.not_quiet_ask fun _ _ h => by cases h)
              · rcases after_hook_send hafter with
                  ⟨q', hafter', _, hgoes'⟩ | ⟨ret, hdone, _⟩
                swap
                · exact absurd hdone (hgoes _)
                rcases amounts_sending hfd hafter' hgoes' hnil hpart with
                  ⟨⟨y, hy, hshort⟩, hpart' | ⟨ret, hpart'⟩⟩
                · have hboth := hamounts.append hpart'
                  rw [List.append_nil] at hboth
                  exact ⟨past, _, hpast, hboth, Or.inr ⟨y, by
                    rw [spoken_append]
                    exact List.mem_append_right _ hy, hshort⟩⟩
                · exact ⟨_, _, hpast.trans (.ask (.here (next (.ok ret)))),
                    hamounts.append hpart', Or.inr ⟨y, by
                      rw [spoken_append]
                      exact List.mem_append_right _ hy, hshort⟩⟩
          | malloc n =>
              rcases after_ask_iff.mp hafter with
                ⟨hnil, _⟩ | ⟨ok, later, _, hlater⟩
              · exact absurd (hbetween hnil)
                  (Session.not_quiet_ask fun _ _ h => by cases h)
              · exact absurd (after_done_iff.mp hlater).right (hgoes ok)
          | process payload =>
              rcases after_ask_iff.mp hafter with
                ⟨hnil, _⟩ | ⟨response, later, _, hlater⟩
              · exact absurd (hbetween hnil)
                  (Session.not_quiet_ask fun _ _ h => by cases h)
              · exact absurd (after_done_iff.mp hlater).right (hgoes response)
          | socket => cases hcall
          | connect fd' ip port => cases hcall
          | close fd' => cases hcall

/-!
## `rpc_handle` on its connection
-/

/--
A lone `rpc_handle` that receives the same, and then nothing, sends the same; if
there is memory and every `send` takes all it is given, so in the run alone.
-/
def SpokenAlone (table : List RpcFunc) (memory : Prop) (fd : Int)
    (record : List (Exchange ServerReply)) : Prop :=
  exists mallocs sends,
    transmitted record = (Session.serve table fd (Session.accepted fd
      (received record ++ [.failed]) mallocs sends)).2.written ∧
    (memory -> mallocs = []) ∧
    ((forall y, y ∈ record -> SentWhole y) -> sends = [])

theorem spokenAlone_of_loop (hfd : 0 <= fd) {tries fuel : Nat}
    {q : HookCode Bool}
    (h : After (link (hook tries)
      (repeatWhile (Session.rpcHandleRound fd) fuel)) calls q)
    (hfine : AllFine (ServerFine table memory) calls)
    (hrest : Resting calls ∨ exists again, q = .done again) :
    SpokenAlone table memory fd (spoken fd calls) := by
  rcases history_of_linked hfd h hfine hrest with
    ⟨past, p, hpast, hamounts, hstop⟩
  have hmemory (hm : memory) : past.foldr Session.mallocsBefore [] = [] :=
    Session.mallocs_of_memory fun n hn => hamounts.memory n hn hm
  unfold SpokenAlone
  rw [hamounts.received, hamounts.transmitted]
  rcases hstop with hquiet | ⟨y, hy, hshort⟩
  · exact ⟨_, _, (Session.serve_of_quiet hpast hamounts.possible hquiet).symm,
      hmemory, fun hall => Session.sends_of_whole (hamounts.whole hall)⟩
  · rcases Session.exists_script hpast hamounts.possible with ⟨sends, hserve⟩
    exact ⟨_, sends, hserve.symm, hmemory, fun hall => absurd (hall y hy) hshort⟩

theorem spokenAlone_of_past (hfd : 0 <= fd) {tries fuel : Nat}
    {q : HookCode Unit}
    (h : AtRest (serverCode tries fuel) (.rpcHandle fd) calls q)
    (hfine : AllFine (ServerFine table memory) calls) :
    SpokenAlone table memory fd (spoken fd calls) := by
  rcases h with ⟨hafter, hrest⟩
  rw [serverCode_rpcHandle] at hafter
  rcases hafter.bind_cases with
    ⟨p, hloop, hgoes, rfl⟩ | ⟨again, first, second, rfl, hloop, hclose⟩
  · apply spokenAlone_of_loop hfd hloop hfine
    rcases hrest with hnil | hdone | hpoll
    · exact Or.inl (Or.inl hnil)
    · cases p with
      | done again => exact Or.inr ⟨again, rfl⟩
      | abort e => cases hdone
      | ask o next => cases hdone
    · exact Or.inl (Or.inr hpoll)
  · have hsilent : spoken fd second = [] := by
      rcases after_ask_iff.mp hclose with ⟨rfl, _⟩ | ⟨_, later, rfl, hlater⟩
      · rfl
      · rcases after_done_iff.mp hlater with ⟨rfl, _⟩
        rfl
    rw [spoken_append, hsilent, List.append_nil]
    exact spokenAlone_of_loop hfd hloop hfine.append.left (Or.inr ⟨again, rfl⟩)

theorem spokenAlone_of_isPast (hfd : 0 <= fd) {tries fuel : Nat}
    {record : List (Exchange ServerReply)}
    (h : IsPast serverEffects (serverCode tries fuel) (ServerFine table memory)
      fd record) : SpokenAlone table memory fd record := by
  rcases h with rfl | ⟨task, past, q, hgiven, hpast, hfine, rfl⟩
  · have hnothing : AllFine (ServerFine table memory)
        ([] : List ServerExchange) := fun _ _ hx => by cases hx
    have hbefore : After (link (hook 0)
        (repeatWhile (Session.rpcHandleRound fd) 0)) [] _ := .here _
    exact spokenAlone_of_loop hfd hbefore hnothing (Or.inl (Or.inl rfl))
  · cases task with
    | rpcListen port => cases hgiven
    | rpcHandle fd' =>
        have hown : descriptor fd' = some fd := hgiven
        unfold descriptor at hown
        split_ifs at hown
        cases hown
        exact spokenAlone_of_past hfd hpast hfine

end

end NtyCo
end Z2wRpc
