import Z2wRpc.NtyCo.Conversation
import Z2wRpc.NtyCo.Observation
import Z2wRpc.Session.Connections

/-!
# The server in the scheduler

`main` creates the coroutine of `rpc_listen` and runs the scheduler.  Whatever
the kernel reports, and in whatever order the coroutines of the connections have
their turns, on each connection the server says what `rpc_handle` says alone.
-/

namespace Z2wRpc
namespace NtyCo

open Foundation Program
open Dispatch (Fault RpcFunc Shared process_of_holds loadedShared
  registeredTable)
open Session (NetEvent)
open CJson (FreshMemory)

variable {σ : Type}

/-- What is known of the C library, with the descriptors that are open. -/
structure RawLaws (kernel : Kernel RawCall RawReply σ) (opens : σ -> Set Int)
    (memory : Prop) : Prop where
  fine : forall call w, RawFine memory ⟨call, (kernel.call call w).1⟩
  -- `socket` and `accept` return what was not open
  fresh : forall call w fd,
    serverEffects.acquires (.raw call) (kernel.call call w).1 = some fd ->
      fd ∉ opens w ∧ fd ∈ opens (kernel.call call w).2
  keeps : forall call w fd, fd ∈ opens w -> call ≠ .closeF fd ->
    fd ∈ opens (kernel.call call w).2
  allocates : forall w, opens (kernel.allocates w).2 = opens w
  usecNow : forall w, opens (kernel.usecNow w).2 = opens w
  reallocates : forall w, opens (kernel.reallocates w).2 = opens w
  epollWait : forall fds milliseconds w,
    opens (kernel.epollWait fds milliseconds w).2 = opens w

/-- The kernel with the memory in which `rpc_process` works. -/
def Kernel.serving [FreshMemory] (kernel : Kernel RawCall RawReply σ) :
    Kernel ServerCall ServerReply (Shared × σ) where
  call
    | .raw call, s =>
        ((kernel.call call s.2).1, (s.1, (kernel.call call s.2).2))
    | .process payload, s =>
        ((s.1.process payload).1, ((s.1.process payload).2, s.2))
  allocates s := ((kernel.allocates s.2).1, (s.1, (kernel.allocates s.2).2))
  usecNow s := ((kernel.usecNow s.2).1, (s.1, (kernel.usecNow s.2).2))
  registers fd s := kernel.registers fd s.2
  stackFits s := kernel.stackFits s.2
  reallocates s :=
    ((kernel.reallocates s.2).1, (s.1, (kernel.reallocates s.2).2))
  eventfd := kernel.eventfd
  epollWait fds milliseconds s :=
    ((kernel.epollWait fds milliseconds s.2).1,
      (s.1, (kernel.epollWait fds milliseconds s.2).2))
  reported fds milliseconds s := kernel.reported fds milliseconds s.2
  reportedOnce fds milliseconds s := kernel.reportedOnce fds milliseconds s.2

def openDescriptors (opens : σ -> Set Int) (s : Shared × σ) : Set Int :=
  {fd | 0 <= fd ∧ fd ∈ opens s.2}

section

variable {kernel : Kernel RawCall RawReply σ} {opens : σ -> Set Int}
  {memory : Prop} {table : List RpcFunc}

theorem descriptor_eq_some {fd r : Int} (h : descriptor fd = some r) :
    0 <= fd ∧ fd = r := by
  unfold descriptor at h
  split_ifs at h with hnonneg
  cases h
  exact ⟨hnonneg, rfl⟩

theorem nonneg_of_acquires {call : ServerCall} {ret : ServerReply call} {r : Int}
    (h : serverEffects.acquires call ret = some r) : 0 <= r := by
  cases call with
  | process payload => cases h
  | raw call =>
      cases call with
      | socketF =>
          rcases descriptor_eq_some h with ⟨hnonneg, rfl⟩
          exact hnonneg
      | acceptF fd =>
          rcases descriptor_eq_some h with ⟨hnonneg, rfl⟩
          exact hnonneg
      | _ => cases h

theorem lawful_serving [FreshMemory] (laws : RawLaws kernel opens memory) :
    Lawful serverEffects kernel.serving (fun s => s.1.Holds table)
      (openDescriptors opens) (ServerFine table memory) := by
  constructor
  · intro call s hholds
    cases call with
    | raw call => exact ⟨hholds, laws.fine call s.2⟩
    | process payload =>
        rcases process_of_holds hholds payload with ⟨hresult, _, _, hholds'⟩
        exact ⟨hholds', hresult⟩
  · intro call s r _ hacquires
    have hnonneg := nonneg_of_acquires hacquires
    cases call with
    | raw call =>
        rcases laws.fresh call s.2 r hacquires with ⟨hclosed, hopen⟩
        exact ⟨fun h => hclosed h.right, hnonneg, hopen⟩
    | process payload => cases hacquires
  · intro call s r _ hopen hreleases
    rcases hopen with ⟨hnonneg, hopen⟩
    cases call with
    | raw call =>
        refine ⟨hnonneg, laws.keeps call s.2 r hopen ?_⟩
        rintro rfl
        exact hreleases (if_pos hnonneg)
    | process payload => exact ⟨hnonneg, hopen⟩
  · intro s hholds
    refine ⟨hholds, ?_⟩
    simp only [openDescriptors, Kernel.serving, laws.allocates]
  · intro s hholds
    refine ⟨hholds, ?_⟩
    simp only [openDescriptors, Kernel.serving, laws.usecNow]
  · intro s hholds
    refine ⟨hholds, ?_⟩
    simp only [openDescriptors, Kernel.serving, laws.reallocates]
  · intro fds milliseconds s hholds
    refine ⟨hholds, ?_⟩
    simp only [openDescriptors, Kernel.serving, laws.epollWait]

/-!
## A C library
-/

/-- A C library that counts its descriptors; all that is received are these
chunks. -/
def oneClient : Kernel RawCall RawReply (Nat × List (List Byte)) where
  call
    | .socketF, w => ((w.1 : Int), (w.1 + 1, w.2))
    | .acceptF _, w => (⟨(w.1 : Int), false⟩, (w.1 + 1, w.2))
    | .connectF .., w => (⟨0, false⟩, w)
    | .recvF _ n, (next, chunk :: later) => (some (chunk.take n), (next, later))
    | .recvF .., (next, []) => (some [], (next, []))
    | .sendF _ none, w => ((-1 : Int), w)
    | .sendF _ (some bytes), w => ((bytes.length : Int), w)
    | .fcntl _, w => (true, w)
    | .malloc _, w => (true, w)
    | .bind .., w => ((), w)
    | .listen .., w => ((), w)
    | .closeF _, w => ((), w)
  allocates w := (true, w)
  usecNow w := (0, w)
  registers _ _ := true
  stackFits _ := true
  reallocates w := (true, w)
  eventfd := 4
  epollWait fds _ w := (some (reportAll 4 fds), w)
  reported fds _ w events h ev hev := by
    cases h
    exact mem_reportAll hev
  reportedOnce fds _ w events h := by
    cases h
    exact reportAll_once 4 fds

theorem rawLaws_oneClient :
    RawLaws oneClient (fun w => {fd | fd < w.1}) True where
  fine call w := by
    rcases w with ⟨next, chunks⟩
    cases call with
    | recvF fd n =>
        intro bytes h
        cases chunks with
        | nil =>
            cases h
            exact Nat.zero_le n
        | cons chunk later =>
            cases h
            exact List.length_take_le n chunk
    | sendF fd buffer =>
        cases buffer with
        | none => rfl
        | some bytes => exact Or.inr ⟨Int.natCast_nonneg _, le_refl _⟩
    | malloc n => exact fun _ => rfl
    | _ => trivial
  fresh call w fd h := by
    have hnext : descriptor (w.1 : Int) = some fd ->
        fd ∉ {fd | fd < (w.1 : Int)} ∧ fd ∈ {fd | fd < ((w.1 + 1 : Nat) : Int)} := by
      intro h
      rcases descriptor_eq_some h with ⟨_, rfl⟩
      simp
    cases call with
    | socketF => exact hnext h
    | acceptF fd' => exact hnext h
    | _ => cases h
  keeps call w fd hopen _ := by
    have hlt : fd < (w.1 : Int) := hopen
    rcases w with ⟨next, chunks⟩
    cases call with
    | socketF => exact hlt.trans (Int.lt_add_one_of_le le_rfl)
    | acceptF fd' => exact hlt.trans (Int.lt_add_one_of_le le_rfl)
    | recvF fd' n =>
        cases chunks with
        | nil => exact hlt
        | cons chunk later => exact hlt
    | sendF fd' buffer =>
        cases buffer with
        | none => exact hlt
        | some bytes => exact hlt
    | _ => exact hlt
  allocates _ := rfl
  usecNow _ := rfl
  reallocates _ := rfl
  epollWait _ _ _ := rfl

/-!
## Records
-/

theorem observes_recording {τ op ρ : Type} {answer : op -> Type} {σ : Type}
    [DecidableEq ρ] (effects : Effects τ op answer ρ)
    (kernel : Kernel op answer σ) :
    Observes (kernel.recording effects) kernel Prod.fst where
  call _ _ := rfl
  allocates _ := rfl
  usecNow _ := rfl
  registers _ _ := rfl
  stackFits _ := rfl
  reallocates _ := rfl
  eventfd := rfl
  epollWait _ _ _ := rfl

abbrev ServerMachine (σ : Type) : Type :=
  Machine ServerTask ServerCall ServerReply Fault σ

def serverStart {σ : Type} (kernel : Kernel ServerCall ServerReply σ)
    (birth : Nat) (port : BitVec 16) (w : σ) : ServerMachine σ :=
  Machine.start kernel birth [.rpcListen port] w

def Machine.recorded {τ op ρ : Type} {answer : op -> Type} {fault σ : Type}
    (m : Machine τ op answer fault σ) (records : Records answer ρ) :
    Machine τ op answer fault (σ × Records answer ρ) where
  sched := m.sched
  kernel := (m.kernel, records)
  phase := m.phase

def RecordsOf [FreshMemory] (kernel : Kernel RawCall RawReply σ) (tries fuel : Nat)
    (start : ServerMachine (Shared × σ)) (n : Nat)
    (m : ServerMachine (Shared × σ)) (records : Records ServerReply Int) :
    Prop :=
  (start.recorded fun _ => []).run (kernel.serving.recording serverEffects)
    (serverCode tries fuel) n = .ok (m.recorded records)

theorem exists_records [FreshMemory] {tries fuel n : Nat}
    {start m : ServerMachine (Shared × σ)}
    (hrun : start.run kernel.serving (serverCode tries fuel) n = .ok m) :
    exists records, RecordsOf kernel tries fuel start n m records := by
  have herased := run_erased (observes_recording serverEffects kernel.serving)
    (serverCode tries fuel) (start.recorded fun _ => []) n
  have hstart : (start.recorded fun (_ : Int) =>
      ([] : List (Exchange ServerReply))).erased Prod.fst = start := rfl
  rw [hstart, hrun] at herased
  cases hghost : (start.recorded fun _ => []).run
      (kernel.serving.recording serverEffects) (serverCode tries fuel) n with
  | error e =>
      rw [hghost] at herased
      cases herased
  | ok ghost =>
      rw [hghost] at herased
      obtain rfl : m = ghost.erased Prod.fst := Except.ok.inj herased
      exact ⟨ghost.kernel.2, hghost⟩

theorem records_spokenAlone [FreshMemory] (laws : RawLaws kernel opens memory)
    {shared : Shared} (hholds : shared.Holds table) {port : BitVec 16}
    {tries fuel birth n : Nat} {w : σ} {m : ServerMachine (Shared × σ)}
    {records : Records ServerReply Int}
    (hrecords : RecordsOf kernel tries fuel
      (serverStart kernel.serving birth port (shared, w)) n m records) {fd : Int}
    (hfd : 0 <= fd) : SpokenAlone table memory fd (records fd) := by
  have hmain : forall task, task ∈ [ServerTask.rpcListen port] ->
      serverEffects.given task = none := by
    intro task htask
    rw [List.mem_singleton.mp htask]
    rfl
  exact spokenAlone_of_isPast hfd (records_are_pasts (lawful_serving laws)
    (careful_serverCode tries fuel) hmain hholds hrecords fd)

/--
In every run of the server there is a record of what has been exchanged on each
descriptor since it was opened, and it is one of a lone `rpc_handle`.
-/
theorem connections_spoken_alone [FreshMemory]
    (laws : RawLaws kernel opens memory) {shared : Shared}
    (hholds : shared.Holds table) {port : BitVec 16}
    {tries fuel birth n : Nat} {w : σ} {m : ServerMachine (Shared × σ)}
    (hrun : (serverStart kernel.serving birth port (shared, w)).run
      kernel.serving (serverCode tries fuel) n = .ok m) :
    exists records,
      RecordsOf kernel tries fuel
        (serverStart kernel.serving birth port (shared, w)) n m records ∧
      forall fd, 0 <= fd -> SpokenAlone table memory fd (records fd) := by
  rcases exists_records hrun with ⟨records, hrecords⟩
  exact ⟨records, hrecords,
    fun fd hfd => records_spokenAlone laws hholds hrecords hfd⟩

/-- A connection is accepted, and brings a call of `add`. -/
def addChunks : List (List Byte) :=
  Session.pieces [Call.addRequest]

def addStart : ServerMachine (Shared × (Nat × List (List Byte))) :=
  serverStart oneClient.serving 0 9096
    (loadedShared registeredTable, (5, addChunks))

theorem run_addStart :
    exists m, addStart.run oneClient.serving (serverCode 3 10) 20 = .ok m := by
  have hok : (addStart.run oneClient.serving
      (serverCode 3 10) 20).toBool = true := by decide +kernel
  cases hrun : addStart.run oneClient.serving (serverCode 3 10) 20 with
  | ok m => exact ⟨m, rfl⟩
  | error e =>
      rw [hrun] at hok
      cases hok

theorem answered_addStart {m : ServerMachine (Shared × (Nat × List (List Byte)))}
    {records : Records ServerReply Int}
    (h : RecordsOf oneClient 3 10 addStart 20 m records) :
    received (records 6) = addChunks.map .segment ∧
      transmitted (records 6) =
        Session.stream [CJson.print Call.addAnswer.document] ∧
      forall y, y ∈ records 6 -> SentWhole y := by
  have hrun : ((addStart.recorded fun _ => []).run
      (oneClient.serving.recording serverEffects)
      (serverCode 3 10) 20).toOption.map (fun ghost =>
        (received (ghost.kernel.2 6), transmitted (ghost.kernel.2 6),
          decide (forall y, y ∈ ghost.kernel.2 6 -> SentWhole y))) =
      some (addChunks.map .segment,
        Session.stream [CJson.print Call.addAnswer.document], true) := by
    decide +kernel
  rw [h] at hrun
  rcases Prod.mk.inj (Option.some.inj hrun) with ⟨hreceived, hrest⟩
  rcases Prod.mk.inj hrest with ⟨htransmitted, hwhole⟩
  exact ⟨hreceived, htransmitted, of_decide_eq_true hwhole⟩

theorem connections_spoken_alone_oneClient : exists m records,
    RecordsOf oneClient 3 10 addStart 20 m records ∧
    received (records 6) = addChunks.map .segment ∧
    transmitted (records 6) =
      Session.stream [CJson.print Call.addAnswer.document] ∧
    forall fd, 0 <= fd -> SpokenAlone registeredTable True fd (records fd) := by
  rcases run_addStart with ⟨m, hrun⟩
  rcases connections_spoken_alone rawLaws_oneClient
    (Session.registered_holds _) hrun with ⟨records, hrecords, halone⟩
  rcases answered_addStart hrecords with ⟨hreceived, htransmitted, _⟩
  exact ⟨m, records, hrecords, hreceived, htransmitted, halone⟩

/-!
## Requests
-/

section

open Session Wire

theorem serve_of_pieces {requests replies : List CString} {fd : Int}
    (hanswers : List.Forall₂ (Answers table) requests replies) {w : World}
    (hopen : fd ∈ w.openFds) (hmallocs : w.mallocs = []) (hsends : w.sends = [])
    {rest : List NetEvent}
    (hincoming : w.incoming = (pieces requests).map .segment ++ rest) :
    exists w', serve table fd w = serve table fd w' ∧ fd ∈ w'.openFds ∧
      w'.incoming = rest ∧ w'.written = w.written ++ stream replies := by
  induction hanswers generalizing w with
  | nil => exact ⟨w, rfl, hopen, hincoming, (List.append_nil _).symm⟩
  | @cons s reply requests replies hfirst _ ih =>
      have hheader : receive rpcHeaderLength w.incoming = (some (header s),
          .segment s.bytes :: ((pieces requests).map .segment ++ rest)) := by
        have hlength := header_length s
        have hpieces : (pieces (s :: requests)).map .segment ++ rest =
            .segment (header s) :: .segment s.bytes ::
              ((pieces requests).map .segment ++ rest) := rfl
        rw [hincoming, hpieces, receive, List.take_of_length_le hlength.le,
          List.drop_of_length_le hlength.le]
      have htext : receive s.strlen
          (.segment s.bytes :: ((pieces requests).map .segment ++ rest)) =
            (some s.bytes, (pieces requests).map .segment ++ rest) := by
        simp [receive, CString.strlen]
      have hreception := reception_frame
        (delivered_of_receive hfirst.request_le hheader htext)
      rw [<- allocate_of_mallocs_nil hmallocs] at hreception
      rw [serve_replied hopen hreception hfirst.result]
      have hsends' : (w.received.handOver s).sends = [] := by
        rw [World.handOver, received_sends]
        exact hsends
      have hopen' : fd ∈ ((w.received.handOver s).sendFrame reply).openFds := by
        rw [sendFrame_openFds, World.handOver, received_openFds]
        exact hopen
      have hmallocs' : ((w.received.handOver s).sendFrame reply).mallocs =
          [] := by
        rw [sendFrame_mallocs, World.handOver,
          received_mallocs (by rw [hreception]; simp), hmallocs]
        rfl
      have hsent : ((w.received.handOver s).sendFrame reply).sends = [] := by
        simp [World.sendFrame, World.transmit, hsends']
      have hrest : ((w.received.handOver s).sendFrame reply).incoming =
          (pieces requests).map .segment ++ rest := by
        rw [sendFrame_incoming, World.handOver, received_incoming, hreception]
      rcases ih hopen' hmallocs' hsent hrest with
        ⟨w', hserve, hopen'', hincoming', hwritten⟩
      refine ⟨w', hserve, hopen'', hincoming', ?_⟩
      rw [hwritten, sendFrame_written _ _ hsends', World.handOver,
        received_written, stream_cons, List.append_assoc]

theorem transmit_prefix (w : World) (bytes : List Byte) :
    w.written <+: (w.transmit bytes).2.written := by
  unfold World.transmit
  split
  · exact List.prefix_append _ _
  · exact List.prefix_rfl
  · exact List.prefix_append _ _

theorem network_written (process : CString -> Except Fault (Option CString))
    (call : SysCall) (w : World) :
    w.written <+: (network process call w).2.written := by
  cases call with
  | recv fd n =>
      by_cases hopen : fd ∈ w.openFds
      · simp only [network, if_pos hopen, List.prefix_rfl]
      · simp only [network, if_neg hopen, List.prefix_rfl]
  | send fd buffer =>
      cases buffer with
      | none => exact List.prefix_rfl
      | some bytes =>
          by_cases hopen : fd ∈ w.openFds
          · simp only [network, if_pos hopen]
            exact transmit_prefix w bytes
          · simp only [network, if_neg hopen, List.prefix_rfl]
  | malloc n =>
      simp only [network, allocate_written, List.prefix_rfl]
  | _ => exact List.prefix_rfl

theorem serve_written (table : List RpcFunc) (fd : Int) (w : World) :
    w.written <+: (serve table fd w).2.written :=
  exec_rel (R := fun w w' : World => w.written <+: w'.written)
    (network (served table)) (fun _ => List.prefix_rfl)
    (fun _ _ _ => List.IsPrefix.trans) (network_written (served table)) _ w

/--
Requests that have been received, each with one `recv` for its header and one for
its text, have been answered, all of them and in their order.
-/
def AnsweredInOrder (table : List RpcFunc)
    (record : List (Exchange ServerReply)) : Prop :=
  forall requests replies rest,
    List.Forall₂ (Answers table) requests replies ->
    received record = (pieces requests).map .segment ++ rest ->
    (forall y, y ∈ record -> SentWhole y) ->
      stream replies <+: transmitted record ∧
        (rest = [] -> transmitted record = stream replies)

theorem answeredInOrder_of_spokenAlone {fd : Int}
    {record : List (Exchange ServerReply)}
    (h : SpokenAlone table True fd record) : AnsweredInOrder table record := by
  rcases h with ⟨mallocs, sends, hwritten, hmemory, hwhole⟩
  intro requests replies rest hanswers hreceived hall
  obtain rfl : mallocs = [] := hmemory trivial
  obtain rfl : sends = [] := hwhole hall
  have hincoming : (accepted fd (received record ++ [.failed]) [] []).incoming =
      (pieces requests).map .segment ++ (rest ++ [.failed]) := by
    rw [<- List.append_assoc, <- hreceived]
    rfl
  rcases serve_of_pieces hanswers List.mem_cons_self rfl rfl hincoming with
    ⟨w', hserve, hopen, hrest, hreplies⟩
  have hsofar : w'.written = stream replies := hreplies
  rw [hwritten, hserve, <- hsofar]
  refine ⟨serve_written table fd w', ?_⟩
  rintro rfl
  have hround := @exec_rpcHandleRound (served table) fd w' hopen
  rw [hrest] at hround
  rw [serve_stop hround]
  exact received_written

end

/--
At every moment of every run of the server, if there is memory, all requests
that a connection has received have been answered, whatever happens on the
others.
-/
theorem requests_answered [FreshMemory] (laws : RawLaws kernel opens True)
    {shared : Shared} (hholds : shared.Holds table) {port : BitVec 16}
    {tries fuel birth n : Nat} {w : σ} {m : ServerMachine (Shared × σ)}
    (hrun : (serverStart kernel.serving birth port (shared, w)).run
      kernel.serving (serverCode tries fuel) n = .ok m) :
    exists records,
      RecordsOf kernel tries fuel
        (serverStart kernel.serving birth port (shared, w)) n m records ∧
      forall fd, 0 <= fd -> AnsweredInOrder table (records fd) := by
  rcases exists_records hrun with ⟨records, hrecords⟩
  exact ⟨records, hrecords, fun fd hfd => answeredInOrder_of_spokenAlone
    (records_spokenAlone laws hholds hrecords hfd)⟩

end

theorem requests_answered_oneClient : exists m records,
    RecordsOf oneClient 3 10 addStart 20 m records ∧
    received (records 6) = addChunks.map .segment ∧
    (forall y, y ∈ records 6 -> SentWhole y) ∧
    forall fd, 0 <= fd -> AnsweredInOrder registeredTable (records fd) := by
  rcases run_addStart with ⟨m, hrun⟩
  rcases requests_answered rawLaws_oneClient (Session.registered_holds _) hrun
    with ⟨records, hrecords, hanswered⟩
  rcases answered_addStart hrecords with ⟨hreceived, _, hwhole⟩
  exact ⟨m, records, hrecords, hreceived, hwhole, hanswered⟩

end NtyCo
end Z2wRpc
