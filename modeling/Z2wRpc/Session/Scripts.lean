import Z2wRpc.Foundation.Linking
import Z2wRpc.Session.Server

/-!
# The script of a history

Whatever has been answered to the code of a connection, there is a world whose
script gives these answers.  So a history of `rpc_handle`, however it came about,
is the beginning of one of its runs alone.
-/

namespace Z2wRpc

open Foundation

namespace Session

open Dispatch Program

def Possible (process : CString -> Except Fault (Option CString)) (fd : Int) :
    Exchange Reply -> Prop
  | ⟨.recv fd' n, ret⟩ =>
      fd' = fd ∧ forall bytes, ret = some bytes -> bytes.length <= n
  | ⟨.send fd' none, ret⟩ => fd' = fd ∧ ret = .ok (-1)
  | ⟨.send fd' (some bytes), .ok ret⟩ =>
      fd' = fd ∧ (ret = -1 ∨ (0 <= ret ∧ ret <= bytes.length))
  | ⟨.malloc _, _⟩ => True
  | ⟨.process payload, ret⟩ => ret = process payload
  | _ => False

/-- What a `recv` takes from the connection. -/
def arrived : Exchange Reply -> List NetEvent
  | ⟨.recv .., none⟩ => [.failed]
  | ⟨.recv .., some bytes⟩ => [.segment bytes]
  | _ => []

/-- The outcomes of `malloc`, with this one in front. -/
def mallocsBefore : Exchange Reply -> List Bool -> List Bool
  | ⟨.malloc _, ok⟩, later => if ok = true ∧ later = [] then [] else ok :: later
  | _, later => later

/-- The outcomes of `send`, with this one in front. -/
def sendsBefore : Exchange Reply -> List (Option Nat) -> List (Option Nat)
  | ⟨.send _ (some bytes), .ok ret⟩, later =>
      if ret = bytes.length ∧ later = [] then []
      else (if ret = -1 then none else some ret.toNat) :: later
  | _, later => later

/-- What a `send` puts on the connection. -/
def sentBy : Exchange Reply -> List Byte
  | ⟨.send _ (some bytes), .ok ret⟩ => bytes.take ret.toNat
  | _ => []

def handedOver : Exchange Reply -> List CString
  | ⟨.process payload, _⟩ => [payload]
  | _ => []

def World.before (x : Exchange Reply) (w : World) : World :=
  { w with
    incoming := arrived x ++ w.incoming
    mallocs := mallocsBefore x w.mallocs
    sends := sendsBefore x w.sends }

def World.after (x : Exchange Reply) (w : World) : World :=
  { w with
    written := w.written ++ sentBy x
    dispatched := w.dispatched ++ handedOver x }

theorem transmit_sendsBefore {w : World} {fd : Int} {bytes : List Byte}
    {ret : Int} (h : ret = -1 ∨ (0 <= ret ∧ ret <= bytes.length)) :
    { w with
      sends := sendsBefore ⟨.send fd (some bytes), .ok ret⟩ w.sends }.transmit
        bytes =
      (ret, { w with written := w.written ++ bytes.take ret.toNat }) := by
  by_cases hwhole : ret = bytes.length ∧ w.sends = []
  · rcases hwhole with ⟨rfl, hsends⟩
    simp [sendsBefore, World.transmit, hsends]
  · rcases h with rfl | ⟨hnonneg, hle⟩
    · simp only [sendsBefore, if_neg hwhole, if_true, World.transmit]
      simp
    · have hne : ret ≠ -1 := by omega
      have htoNat : (ret.toNat : Int) = ret := Int.toNat_of_nonneg hnonneg
      have hlength : (bytes.take ret.toNat).length = ret.toNat := by
        rw [List.length_take]
        omega
      simp only [sendsBefore, if_neg hwhole, if_neg hne, World.transmit,
        hlength, htoNat]

theorem allocate_mallocsBefore (w : World) (n : Nat) (ok : Bool) :
    { w with mallocs := mallocsBefore ⟨.malloc n, ok⟩ w.mallocs }.allocate =
      (ok, w) := by
  by_cases hdefault : ok = true ∧ w.mallocs = []
  · rcases hdefault with ⟨rfl, hmallocs⟩
    simp only [mallocsBefore, hmallocs, and_self, if_true, World.allocate]
    rw [<- hmallocs]
  · simp only [mallocsBefore, if_neg hdefault, World.allocate]

section

variable {process : CString -> Except Fault (Option CString)} {fd : Int}

theorem network_before {x : Exchange Reply} (h : Possible process fd x)
    {w : World} (hopen : fd ∈ w.openFds) :
    network process x.1 (w.before x) = (x.2, w.after x) := by
  rcases x with ⟨call, ret⟩
  cases call with
  | socket => cases h
  | connect fd' ip port => cases h
  | close fd' => cases h
  | recv fd' n =>
      rcases h with ⟨rfl, hle⟩
      have hopen' : fd' ∈ (w.before ⟨.recv fd' n, ret⟩).openFds := hopen
      simp only [network, if_pos hopen']
      cases ret with
      | none => simp [World.before, World.after, arrived, receive,
          mallocsBefore, sendsBefore, sentBy, handedOver]
      | some bytes =>
          have hlength := hle bytes rfl
          simp [World.before, World.after, arrived, receive, mallocsBefore,
            sendsBefore, sentBy, handedOver, List.take_of_length_le hlength,
            List.drop_of_length_le hlength]
  | send fd' buffer =>
      cases buffer with
      | none =>
          rcases h with ⟨rfl, hret⟩
          obtain rfl : ret = .ok (-1) := hret
          simp [network, World.before, World.after, arrived, mallocsBefore,
            sendsBefore, sentBy, handedOver]
      | some bytes =>
          cases ret with
          | error e => cases h
          | ok ret =>
              rcases h with ⟨rfl, hret⟩
              have hopen' : fd' ∈
                  (w.before ⟨.send fd' (some bytes), .ok ret⟩).openFds := hopen
              have hafter : w.after ⟨.send fd' (some bytes), .ok ret⟩ =
                  { w with written := w.written ++ bytes.take ret.toNat } := by
                simp [World.after, sentBy, handedOver]
              have hsent : (w.before ⟨.send fd' (some bytes), .ok ret⟩).transmit
                  bytes =
                    (ret, { w with
                      written := w.written ++ bytes.take ret.toNat }) :=
                @transmit_sendsBefore w fd' bytes ret hret
              simp only [network, if_pos hopen', hsent, hafter]
  | malloc n =>
      have hafter : w.after ⟨.malloc n, ret⟩ = w := by
        simp [World.after, sentBy, handedOver]
      rw [hafter]
      exact allocate_mallocsBefore w n ret
  | process payload =>
      obtain rfl : ret = process payload := h
      simp [network, World.before, World.after, arrived, mallocsBefore,
        sendsBefore, sentBy, handedOver]

def rewind (past : List (Exchange Reply)) (w : World) : World :=
  past.foldr World.before w

def advance (past : List (Exchange Reply)) (w : World) : World :=
  past.foldl (fun w x => w.after x) w

theorem rewind_after (past : List (Exchange Reply)) (x : Exchange Reply)
    (w : World) : rewind past (w.after x) = (rewind past w).after x := by
  induction past with
  | nil => rfl
  | cons y past ih =>
      rw [rewind, List.foldr_cons, <- rewind, ih]
      rfl

theorem rewind_openFds (past : List (Exchange Reply)) (w : World) :
    (rewind past w).openFds = w.openFds := by
  induction past with
  | nil => rfl
  | cons x past ih => exact ih

theorem follows_rewind {past : List (Exchange Reply)}
    (h : forall x, x ∈ past -> Possible process fd x) {w : World}
    (hopen : fd ∈ w.openFds) :
    Follows (network process) (rewind past w) past (advance past w) := by
  induction past generalizing w with
  | nil => exact .nil w
  | cons x past ih =>
      rw [List.forall_mem_cons] at h
      have hopen' : fd ∈ (rewind past w).openFds := by
        rw [rewind_openFds]
        exact hopen
      have hfirst := network_before h.left hopen'
      have hrest := ih h.right (w := w.after x) hopen
      rw [rewind_after] at hrest
      exact .cons hfirst hrest

end

/-!
## The script
-/

theorem rewind_accepted (past : List (Exchange Reply)) (fd : Int)
    (incoming : List NetEvent) (mallocs : List Bool)
    (sends : List (Option Nat)) :
    rewind past (accepted fd incoming mallocs sends) =
      accepted fd (past.flatMap arrived ++ incoming)
        (past.foldr mallocsBefore mallocs) (past.foldr sendsBefore sends) := by
  induction past with
  | nil => rfl
  | cons x past ih =>
      rw [rewind, List.foldr_cons, <- rewind, ih, List.flatMap_cons,
        List.append_assoc]
      rfl

theorem advance_accepted (past : List (Exchange Reply)) (w : World) :
    advance past w = { w with
      written := w.written ++ past.flatMap sentBy
      dispatched := w.dispatched ++ past.flatMap handedOver } := by
  induction past generalizing w with
  | nil => simp [advance]
  | cons x past ih =>
      rw [advance, List.foldl_cons, <- advance, ih]
      simp [World.after]

theorem mallocs_of_memory {past : List (Exchange Reply)}
    (h : forall n, (⟨.malloc n, false⟩ : Exchange Reply) ∉ past) :
    past.foldr mallocsBefore [] = [] := by
  induction past with
  | nil => rfl
  | cons x past ih =>
      have hrest := ih fun n hn => h n (List.mem_cons_of_mem _ hn)
      rw [List.foldr_cons, hrest]
      rcases x with ⟨call, ret⟩
      cases call with
      | malloc n =>
          cases ret with
          | true => rfl
          | false => exact absurd List.mem_cons_self (h n)
      | _ => rfl

theorem sends_of_whole {past : List (Exchange Reply)}
    (h : forall fd bytes ret,
      (⟨.send fd (some bytes), ret⟩ : Exchange Reply) ∈ past ->
        ret = .ok (bytes.length : Int)) :
    past.foldr sendsBefore [] = [] := by
  induction past with
  | nil => rfl
  | cons x past ih =>
      have hrest := ih fun fd bytes ret hx =>
        h fd bytes ret (List.mem_cons_of_mem _ hx)
      rw [List.foldr_cons, hrest]
      rcases x with ⟨call, ret⟩
      cases call with
      | send fd buffer =>
          cases buffer with
          | none => rfl
          | some bytes =>
              have hwhole := h fd bytes ret List.mem_cons_self
              simp [sendsBefore, hwhole]
      | _ => rfl

/-!
## What is still to come
-/

section

variable {process : CString -> Except Fault (Option CString)} {fd : Int}
  {α : Type}

theorem allocate_sends_eq (w : World) (sends : List (Option Nat)) :
    { w with sends := sends }.allocate =
      (w.allocate.1, { w.allocate.2 with sends := sends }) := by
  rcases w with ⟨incoming, mallocs, _⟩
  cases mallocs with
  | nil => rfl
  | cons ok rest => rfl

theorem exists_silence (p : Code α) (w : World) :
    exists n, forall m, n <= m ->
      (exec (network process) p
        { w with sends := List.replicate m none }).2.written = w.written := by
  induction p generalizing w with
  | done a => exact ⟨0, fun _ _ => rfl⟩
  | abort e => exact ⟨0, fun _ _ => rfl⟩
  | ask call next ih =>
      -- a call that looks at no outcome of `send`
      have hother (ret : Reply call) (w' : World)
          (hwritten : w'.written = w.written)
          (hcall : forall sends, network process call { w with sends := sends } =
            (ret, { w' with sends := sends })) :
          exists n, forall m, n <= m ->
            (exec (network process) (.ask call next)
              { w with sends := List.replicate m none }).2.written =
              w.written := by
        rcases ih ret w' with ⟨n, hn⟩
        refine ⟨n, fun m hm => ?_⟩
        rw [exec, hcall, hn m hm, hwritten]
      cases call with
      | socket =>
          exact hother _ (network process .socket w).2 rfl fun _ => rfl
      | connect fd ip port =>
          exact hother (network process (.connect fd ip port) w).1 w rfl
            fun _ => rfl
      | close fd =>
          exact hother _ (network process (.close fd) w).2 rfl fun _ => rfl
      | process payload =>
          exact hother _ (network process (.process payload) w).2 rfl
            fun _ => rfl
      | malloc n =>
          exact hother _ w.allocate.2 (allocate_written w) (allocate_sends_eq w)
      | recv fd n =>
          by_cases hopen : fd ∈ w.openFds
          · exact hother (receive n w.incoming).1
              { w with incoming := (receive n w.incoming).2 } rfl fun _ =>
                if_pos hopen
          · exact hother none w rfl fun _ => if_neg hopen
      | send fd buffer =>
          cases buffer with
          | none => exact hother (.ok (-1)) w rfl fun _ => rfl
          | some bytes =>
              by_cases hopen : fd ∈ w.openFds
              · rcases ih (.ok (-1)) w with ⟨n, hn⟩
                refine ⟨n + 1, fun m hm => ?_⟩
                obtain ⟨m, rfl⟩ : exists k, m = k + 1 := ⟨m - 1, by omega⟩
                have hcall : network process (.send fd (some bytes))
                    { w with sends := List.replicate (m + 1) none } =
                    (.ok (-1), { w with sends := List.replicate m none }) := by
                  simp only [network, if_pos hopen, World.transmit,
                    List.replicate_succ]
                rw [exec, hcall]
                exact hn m (by omega)
              · exact hother (.ok (-1)) w rfl fun _ => if_neg hopen

/-- A `recv` that fails is followed by nothing more. -/
inductive Quits : Code Bool -> Prop where
  | done (again : Bool) : Quits (.done again)
  | abort (e : Fault) : Quits (.abort e)
  | recv {fd : Int} {n : Nat} {next : Option (List Byte) -> Code Bool}
      (failed : next none = .done false ∨ exists e, next none = .abort e)
      (rest : forall bytes, Quits (next (some bytes))) :
      Quits (.ask (.recv fd n) next)
  | other {call : SysCall} {next : Reply call -> Code Bool}
      (hcall : forall fd n, call ≠ .recv fd n)
      (rest : forall ret, Quits (next ret)) : Quits (.ask call next)

theorem Quits.bind {p : Code Bool} {f : Bool -> Code Bool} (h : Quits p)
    (hf : forall again, Quits (f again)) (hfalse : f false = .done false) :
    Quits (p.bind f) := by
  induction h with
  | done again => exact hf again
  | abort e => exact .abort e
  | recv failed _ ih =>
      apply Quits.recv
      · rcases failed with hdone | ⟨e, habort⟩
        · rw [hdone, done_bind, hfalse]
          exact Or.inl rfl
        · rw [habort]
          exact Or.inr ⟨e, rfl⟩
      · exact ih
  | other hcall _ ih => exact .other hcall ih

theorem Quits.after {p q : Code Bool} {past : List (Exchange Reply)}
    (h : Quits p) (hafter : After p past q) : Quits q := by
  induction hafter with
  | here p => exact h
  | @ask call next ret past q _ ih =>
      cases h with
      | recv failed rest =>
          cases ret with
          | none =>
              apply ih
              rcases failed with hdone | ⟨e, habort⟩
              · rw [hdone]
                exact .done false
              · rw [habort]
                exact .abort e
          | some bytes => exact ih (rest bytes)
      | other _ rest => exact ih (rest ret)

theorem quits_send {fd : Int} {buffer : Option (List Byte)}
    {f : Int -> Code Bool} (h : forall sent, Quits (f sent)) :
    Quits ((Code.send fd buffer).bind f) := by
  apply Quits.other (fun _ _ h => by cases h)
  intro sent
  cases sent with
  | ok sent => exact h sent
  | error e => exact .abort e

theorem quits_rpcHandleRound (fd : Int) : Quits (rpcHandleRound fd) := by
  apply Quits.recv (Or.inl rfl)
  intro bytes
  cases bytes with
  | nil => exact .done false
  | cons b bs =>
      apply Quits.other (fun _ _ h => by cases h)
      intro payload
      cases payload with
      | false => exact .done true
      | true =>
          apply Quits.recv (Or.inr ⟨_, rfl⟩)
          intro bytes
          simp only [done_bind]
          split_ifs
          · exact .abort _
          · exact .done false
          · apply Quits.other (fun _ _ h => by cases h)
            intro response
            match response with
            | .error e => exact .abort e
            | .ok none => exact quits_send fun _ => .abort _
            | .ok (some response) =>
                exact quits_send fun _ => quits_send fun _ => .done true

theorem quits_repeatWhile {body : Code Bool} (h : Quits body) (fuel : Nat) :
    Quits (repeatWhile body fuel) := by
  induction fuel with
  | zero => exact .done true
  | succ fuel ih =>
      have hrest (again : Bool) :
          Quits (if again then repeatWhile body fuel else .done false) := by
        cases again with
        | true => exact ih
        | false => exact .done false
      exact h.bind hrest rfl

theorem repeatWhile_add (body : Code Bool) (fuel more : Nat) :
    repeatWhile body (fuel + more) = (repeatWhile body fuel).bind fun again =>
      if again then repeatWhile body more else .done false := by
  induction fuel with
  | zero =>
      rw [Nat.zero_add]
      rfl
  | succ fuel ih =>
      have hassoc := bind_assoc body
        (fun again => if again then repeatWhile body fuel else .done false)
        fun again => if again then repeatWhile body more else .done false
      rw [Nat.succ_add]
      refine Eq.trans ?_ hassoc.symm
      show body.bind _ = body.bind _
      congr 1
      funext again
      cases again with
      | true => exact ih
      | false => rfl

end

/-!
## `rpc_handle` alone
-/

section

variable {table : List RpcFunc} {fd : Int} {fuel : Nat}
  {past : List (Exchange Reply)} {p : Code Bool}

/-- What is left of `rpc_handle` when so much of its loop is left, and the fuel
is raised. -/
def toClose (fd : Int) (more : Nat) (p : Code Bool) : Code Unit :=
  (p.bind fun again =>
    if again then repeatWhile (rpcHandleRound fd) more else .done false).bind
      fun _ => Code.close fd

theorem serve_of_history
    (hafter : After (repeatWhile (rpcHandleRound fd) fuel) past p)
    (hpossible : forall x, x ∈ past -> Possible (served table) fd x) :
    exists more, 0 < more ∧ forall sends,
      (serve table fd (accepted fd (past.flatMap arrived ++ [.failed])
        (past.foldr mallocsBefore []) (past.foldr sendsBefore sends))) =
      exec (network (served table)) (toClose fd more p)
        (advance past (accepted fd [.failed] [] sends)) := by
  refine ⟨weight (past.flatMap arrived ++ [.failed]) + 1, Nat.succ_pos _,
    fun sends => ?_⟩
  have hopen : fd ∈ (accepted fd [.failed] [] sends).openFds :=
    List.mem_cons_self
  have hhistory := (hafter.bind fun again =>
    if again then repeatWhile (rpcHandleRound fd)
      (weight (past.flatMap arrived ++ [.failed]) + 1)
    else .done false).bind fun _ => Code.close fd
  rw [<- repeatWhile_add] at hhistory
  have hfollows := exec_of_follows (follows_rewind hpossible hopen) hhistory
  rw [rewind_accepted] at hfollows
  have hfuel : weight (past.flatMap arrived ++ [.failed]) <
      fuel + (weight (past.flatMap arrived ++ [.failed]) + 1) := by
    omega
  exact (exec_rpcHandle_fuel (w := accepted fd _ _ _) hfuel).symm.trans hfollows

/--
Whatever has come in and gone out in the loop so far, a lone `rpc_handle` sends
the same when the same comes in and then nothing.
-/
theorem exists_script
    (hafter : After (repeatWhile (rpcHandleRound fd) fuel) past p)
    (hpossible : forall x, x ∈ past -> Possible (served table) fd x) :
    exists sends, (serve table fd (accepted fd
      (past.flatMap arrived ++ [.failed]) (past.foldr mallocsBefore [])
        sends)).2.written = past.flatMap sentBy := by
  rcases serve_of_history hafter hpossible with ⟨more, _, hserve⟩
  rcases exists_silence (toClose fd more p)
    (advance past (accepted fd [.failed] [] [])) with ⟨n, hn⟩
  refine ⟨past.foldr sendsBefore (List.replicate n none), ?_⟩
  have hsilent := hn n (Nat.le_refl n)
  rw [hserve, advance_accepted]
  rw [advance_accepted] at hsilent
  exact hsilent

def Quiet (p : Code Bool) : Prop :=
  (exists again, p = .done again) ∨ (exists e, p = .abort e) ∨
    exists fd n next, p = .ask (.recv fd n) next

theorem not_quiet_ask {call : SysCall} {next : Reply call -> Code Bool}
    (hcall : forall fd n, call ≠ .recv fd n) : ¬ Quiet (.ask call next) := by
  rintro (⟨_, hdone⟩ | ⟨_, habort⟩ | ⟨fd, n, _, hrecv⟩)
  · cases hdone
  · cases habort
  · cases hrecv
    exact hcall fd n rfl

theorem quiet_repeatWhile (fd : Int) (fuel : Nat) :
    Quiet (repeatWhile (rpcHandleRound fd) fuel) := by
  cases fuel with
  | zero => exact Or.inl ⟨true, rfl⟩
  | succ fuel => exact Or.inr (Or.inr ⟨fd, Wire.rpcHeaderLength, _, rfl⟩)

theorem written_toClose {more : Nat} (hmore : 0 < more) {w : World}
    (hopen : fd ∈ w.openFds) (hincoming : w.incoming = [.failed])
    (hquiet : Quiet p) (hquits : Quits p) :
    (exec (network (served table)) (toClose fd more p) w).2.written =
      w.written := by
  rcases hquiet with ⟨again, rfl⟩ | ⟨e, rfl⟩ | ⟨fd', n, next, rfl⟩
  · cases again with
    | false => rfl
    | true =>
        obtain ⟨more, rfl⟩ : exists k, more = k + 1 := ⟨more - 1, by omega⟩
        have hround := @exec_rpcHandleRound (served table) fd w hopen
        rw [hincoming] at hround
        have hrun : exec (network (served table))
            (toClose fd (more + 1) (.done true)) w =
              exec (network (served table)) (rpcHandle fd (more + 1)) w := rfl
        rw [hrun, exec_rpcHandle_stop hround]
        exact received_written
  · rfl
  · have hrecv : network (served table) (.recv fd' n) w =
        (none, (network (served table) (.recv fd' n) w).2) := by
      by_cases hopen' : fd' ∈ w.openFds
      · simp only [network, if_pos hopen', hincoming, receive]
      · simp only [network, if_neg hopen']
    have hwritten : (network (served table) (.recv fd' n) w).2.written =
        w.written := by
      by_cases hopen' : fd' ∈ w.openFds
      · simp only [network, if_pos hopen']
      · simp only [network, if_neg hopen']
    have hrun : exec (network (served table))
        (toClose fd more (.ask (.recv fd' n) next)) w =
      exec (network (served table)) (toClose fd more (next none))
        (network (served table) (.recv fd' n) w).2 := by
      show exec _ (toClose fd more
        (next (network (served table) (.recv fd' n) w).1)) _ = _
      rw [hrecv]
    rw [hrun, <- hwritten]
    cases hquits with
    | recv failed _ =>
        rcases failed with hdone | ⟨e, habort⟩
        · rw [hdone]
          rfl
        · rw [habort]
          rfl
    | other hcall _ => exact absurd rfl (hcall fd' n)

theorem serve_of_quiet
    (hafter : After (repeatWhile (rpcHandleRound fd) fuel) past p)
    (hpossible : forall x, x ∈ past -> Possible (served table) fd x)
    (hquiet : Quiet p) :
    (serve table fd (accepted fd (past.flatMap arrived ++ [.failed])
      (past.foldr mallocsBefore []) (past.foldr sendsBefore []))).2.written =
        past.flatMap sentBy := by
  rcases serve_of_history hafter hpossible with ⟨more, hmore, hserve⟩
  have hquits := (quits_repeatWhile (quits_rpcHandleRound fd) fuel).after hafter
  rw [hserve, advance_accepted,
    written_toClose hmore List.mem_cons_self rfl hquiet hquits]
  rfl

end

end Session
end Z2wRpc
