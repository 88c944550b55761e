import Z2wRpc.Dispatch.SharedTable
import Z2wRpc.Foundation.Interleaving
import Z2wRpc.Session.Moments
import Z2wRpc.Session.Pipelining
import Z2wRpc.Session.TextResults

/-!
# Connections served in turns

`rpc_listen` starts a coroutine `rpc_handle` for every connection.  They run in
turns, switching in the hooked `recv` and `send`, and `rpc_process` works for
all of them in one memory and over one caller table.
-/

namespace Z2wRpc

open Foundation

namespace Session

open Call CJson Dispatch Program Wire

def switches : SysCall -> Bool
  | .recv _ _ => true
  | .send _ _ => true
  | _ => false

def sharedAfter [FreshMemory] (shared : Shared) : SysCall -> Shared
  | .process payload => (shared.process payload).2
  | _ => shared

/--
The answers to one coroutine, over the shared state and its connection; what
fresh memory holds depends on all that happened before.
-/
def sharedNetwork (fresh : Shared -> FreshMemory) :
    Environment SysCall Reply (Shared × (List Bool × World)) :=
  fun call s =>
    let _ := fresh s.1
    let answered :=
      peerNetwork (fun payload => (s.1.process payload).1) call s.2
    (answered.1, (sharedAfter s.1 call, answered.2))

structure Connection where
  fd : Int
  incoming : List NetEvent
  mallocs : List Bool
  sends : List (Option Nat)
  hangups : List Bool

def Connection.world (c : Connection) : World :=
  accepted c.fd c.incoming c.mallocs c.sends

def server {ι : Type} (shared : Shared) (connections : ι -> Connection) :
    System ι SysCall Reply Fault Shared (List Bool × World) where
  shared := shared
  coroutines i := {
    program := rpcHandle (connections i).fd
      (weight (connections i).incoming + 1)
    state := ((connections i).hangups, (connections i).world) }
  stopped := false

section

variable {ι : Type} [DecidableEq ι]

def interleaved (fresh : Shared -> FreshMemory) (shared : Shared)
    (connections : ι -> Connection) (schedule : List ι) :
    System ι SysCall Reply Fault Shared (List Bool × World) :=
  (server shared connections).run switches (sharedNetwork fresh) schedule

def connectionAt (fresh : Shared -> FreshMemory) (shared : Shared)
    (connections : ι -> Connection) (schedule : List ι) (i : ι) : World :=
  ((interleaved fresh shared connections schedule).coroutines i).state.2

/--
After the turns of a schedule every connection is as if it had been served
alone, the caller table is the one that was loaded, and what a request left in
memory is as that request left it.
-/
structure Isolated (fresh : Shared -> FreshMemory) (shared : Shared)
    (connections : ι -> Connection) (schedule : List ι) : Prop where
  dispatched : forall i,
    (connectionAt fresh shared connections schedule i).dispatched =
      (connectionAt fresh shared connections
        (schedule.filter (· = i)) i).dispatched
  written : forall i,
    (connectionAt fresh shared connections schedule i).written =
      (connectionAt fresh shared connections
        (schedule.filter (· = i)) i).written
  table :
    (interleaved fresh shared connections schedule).shared.rpcCallerTable =
      shared.rpcCallerTable
  memory : forall earlier later, schedule = earlier ++ later ->
    (interleaved fresh shared connections earlier).shared.memory <+:
      (interleaved fresh shared connections schedule).shared.memory

/-!
## The shared state does not matter
-/

abbrev Tables : Type := FreshMemory -> List RpcFunc

/-- The shared state holds the table, whatever fresh memory holds. -/
def HoldsAll (tables : Tables) (shared : Shared) : Prop :=
  forall fresh, @Shared.Holds fresh shared (tables fresh)

structure Keeps (tables : Tables) (before now : Shared) : Prop where
  holds : HoldsAll tables now
  memory : before.memory <+: now.memory
  table : now.rpcCallerTable = before.rpcCallerTable

def SettledCall (tables : Tables) (fresh : Shared -> FreshMemory)
    (alone : FreshMemory) : SysCall -> Prop
  | .process payload => forall shared,
      served (tables (fresh shared)) payload = served (tables alone) payload
  | _ => True

theorem Keeps.process {tables : Tables} {before now : Shared}
    (h : Keeps tables before now) (fresh : FreshMemory) (payload : CString) :
    (now.process payload).1 = served (tables fresh) payload ∧
      Keeps tables before (now.process payload).2 := by
  rcases process_of_holds (h.holds fresh) payload with
    ⟨hanswer, hmemory, htable, _⟩
  refine ⟨hanswer, ?_, h.memory.trans hmemory, htable.trans h.table⟩
  intro fresh'
  have hextended := @holds_of_extends fresh' _ _ _ (h.holds fresh') hmemory
  rw [<- htable] at hextended
  exact hextended

theorem separate_sharedNetwork (tables : Tables) (before : Shared)
    (fresh : Shared -> FreshMemory) (alone : FreshMemory) :
    System.Separate (sharedNetwork fresh)
      (peerNetwork (served (tables alone))) (Keeps tables before)
      (SettledCall tables fresh alone) := by
  intro call shared s hkeeps hsettled
  let _ := fresh shared
  refine ⟨sharedAfter shared call, ?_, ?_⟩
  · cases call with
    | process payload => exact (hkeeps.process (fresh shared) payload).right
    | _ => exact hkeeps
  · cases call with
    | process payload =>
        have hanswer := (hkeeps.process (fresh shared) payload).left
        rw [hsettled shared] at hanswer
        simp only [sharedNetwork, peerNetwork, signalled, brokenPipe, network,
          hanswer]
    | _ => rfl

/-!
## Cooperative connections
-/

variable {tables : Tables} {fresh : Shared -> FreshMemory}
  {alone : FreshMemory} {shared : Shared} {connections : ι -> Connection}

/-- The run of `rpc_handle` that has the connection for itself. -/
def servedAlone (table : List RpcFunc) (c : Connection) :
    Except Fault Unit × (List Bool × World) :=
  serveTo table c.fd c.hangups c.world

structure Settled (tables : Tables) (text : CString) : Prop where
  answerable : forall fresh, Answerable (tables fresh) text
  same : forall fresh fresh',
    served (tables fresh) text = served (tables fresh') text

/-- Every connection that takes a turn in the schedule is cooperative. -/
def CooperativeOn (tables : Tables) (connections : ι -> Connection)
    (schedule : List ι) : Prop :=
  forall i, i ∈ schedule ->
    Cooperative (Settled tables) (connections i).incoming
      (connections i).mallocs (connections i).hangups

theorem always_of_cooperative {table : List RpcFunc} {accepts : CString -> Prop}
    {P : SysCall -> Prop} {fd : Int} {events : List NetEvent}
    {mallocs hangups : List Bool} {w : World}
    (hcooperative : Cooperative accepts events mallocs hangups)
    (haccepts : forall text, accepts text ->
      Answerable table text ∧ P (.process text))
    (hcalls : forall call, (forall text, call ≠ .process text) -> P call)
    (hfds : w.openFds = [fd]) (hincoming : w.incoming = events)
    (hmallocs : w.mallocs = mallocs) (fuel : Nat) :
    Always (network (served table)) (fun call _ => P call)
      (rpcHandle fd fuel) w := by
  have hclose : P (.close fd) := hcalls _ fun _ h => by cases h
  have hreceives (w : World) (call : SysCall) (w' : World)
      (h : Session.Receives fd call) (_ : SameOutput w w') : P call := by
    apply hcalls
    rintro text rfl
    exact h
  have hquiet {w : World} (hopen : fd ∈ w.openFds)
      (h : forall text,
        (reception w.allocate.1 w.incoming).1 ≠ .payload text) :
      Always (network (served table)) (fun call _ => P call)
        (rpcHandleRound fd) w :=
    (always_rpcHandleRound_iff hopen (hreceives w)).mpr
      fun text htext => absurd htext (h text)
  induction fuel generalizing events mallocs hangups w with
  | zero => exact always_call_iff.mpr hclose
  | succ fuel ih =>
      have hopen : fd ∈ w.openFds := by simp [hfds]
      have hround := @exec_rpcHandleRound (served table) fd w hopen
      cases hcooperative with
      | silent stop =>
          have hended := reception_of_silent (hincoming ▸ stop) w.allocate.1
          rw [hended] at hround
          exact always_rpcHandle_last (P := fun call _ => P call) (by simp)
            hround (hquiet hopen (by simp [hended])) hclose
      | @noMemory _ rest mallocs _ _ announced tail =>
          have hnoMemory : reception w.allocate.1 w.incoming =
              (.noMemory, rest) := by
            rw [World.allocate, hmallocs, hincoming]
            exact reception_of_announced announced
          rw [hnoMemory] at hround
          refine (always_rpcHandle_again_iff hround).mpr
            ⟨hquiet hopen (by simp [hnoMemory]), ih tail ?_ ?_ ?_⟩
          · rw [received_openFds, hfds]
          · rw [received_incoming, hnoMemory]
          · rw [received_mallocs (by rw [hnoMemory]; simp), hmallocs]
            rfl
      | @damaged _ rest _ _ _ _ buffer delivered crc =>
          rw [<- hmallocs] at buffer
          have hdamaged : reception w.allocate.1 w.incoming =
              (.damaged, rest) := by
            rw [allocate_of_buffer buffer, hincoming,
              reception_of_delivered delivered, if_neg crc]
          rw [hdamaged] at hround
          exact always_rpcHandle_last (P := fun call _ => P call) (by simp)
            hround (hquiet hopen (by simp [hdamaged])) hclose
      | @answered _ rest _ _ _ payload buffer delivered crc accepted _ tail =>
          rw [<- hmallocs] at buffer
          have hpayload : reception w.allocate.1 w.incoming =
              (.payload (CString.ofBytes payload), rest) := by
            rw [allocate_of_buffer buffer, hincoming,
              reception_of_delivered delivered, if_pos crc]
          rcases haccepts _ accepted with ⟨hanswer, hprocess⟩
          rcases exec_rpcHandleRound_answered hopen hpayload hanswer with
            ⟨_, w', _, hanswered, hincoming', hfds', hmallocs', _⟩
          refine (always_rpcHandle_again_iff hanswered).mpr ⟨?_, ?_⟩
          · rw [always_rpcHandleRound_iff hopen (hreceives w), hpayload]
            intro text htext
            cases htext
            exact (asks_rpcHandleReply hprocess fun _ =>
              hcalls _ fun _ h => by cases h).always _ _
          · exact ih tail (hfds'.trans hfds) hincoming'
              (hmallocs'.trans (by rw [hmallocs]))

theorem safe_of_cooperative (fresh : Shared -> FreshMemory)
    (alone : FreshMemory) {c : Connection}
    (h : Cooperative (Settled tables) c.incoming c.mallocs c.hangups) :
    System.Settles (peerNetwork (served (tables alone)))
        (SettledCall tables fresh alone)
        ⟨rpcHandle c.fd (weight c.incoming + 1), (c.hangups, c.world)⟩ ∧
      exists s, servedAlone (tables alone) c = (.ok (), s) := by
  constructor
  · apply always_signalled (killedBy_rpcHandle c.fd _)
    apply always_of_cooperative h ?_ ?_ rfl rfl rfl
    · intro text hsettled
      exact ⟨hsettled.answerable alone, fun shared => hsettled.same _ _⟩
    · intro call hcall
      cases call with
      | process payload => exact absurd rfl (hcall payload)
      | _ => trivial
  · have hfinishes : Finishes (tables alone) c.fd c.hangups c.world :=
      finishes_of_cooperative h (fun _ hsettled => hsettled.answerable alone)
        rfl rfl rfl
    exact ⟨_, Prod.ext hfinishes.left rfl⟩

theorem keeps_refl (hholds : HoldsAll tables shared) :
    Keeps tables shared shared where
  holds := hholds
  memory := List.prefix_rfl
  table := rfl

theorem interleaved_coroutines (hholds : HoldsAll tables shared)
    (fresh : Shared -> FreshMemory) (alone : FreshMemory) {schedule : List ι}
    (h : CooperativeOn tables connections schedule) :
    Keeps tables shared (interleaved fresh shared connections schedule).shared ∧
      (interleaved fresh shared connections schedule).stopped = false ∧
      forall i, (interleaved fresh shared connections schedule).coroutines i =
        (Coroutine.turn switches
          (peerNetwork (served (tables alone))))^[schedule.count i]
            ((server shared connections).coroutines i) := by
  apply System.run_separate switches
    (separate_sharedNetwork tables shared fresh alone)
  · exact keeps_refl hholds
  · rfl
  · intro i hi
    exact safe_of_cooperative fresh alone (h i hi)

theorem interleaved_memory (hholds : HoldsAll tables shared)
    (fresh : Shared -> FreshMemory) {earlier later : List ι}
    (h : CooperativeOn tables connections (earlier ++ later)) :
    (interleaved fresh shared connections earlier).shared.memory <+:
      (interleaved fresh shared connections
        (earlier ++ later)).shared.memory := by
  have hearlier : CooperativeOn tables connections earlier :=
    fun i hi => h i (List.mem_append_left later hi)
  rcases interleaved_coroutines hholds fresh .zeroed hearlier with
    ⟨hkeeps, hgoes, hcoroutines⟩
  have hsafe : System.Safe (peerNetwork (served (tables .zeroed)))
      (SettledCall tables fresh .zeroed)
      (interleaved fresh shared connections earlier) later := by
    intro i hi
    rcases safe_of_cooperative fresh .zeroed
      (h i (List.mem_append_right earlier hi)) with ⟨hsettles, halone⟩
    rw [hcoroutines, Coroutine.complete_iterate_turn]
    exact ⟨Coroutine.always_iterate_turn switches _ hsettles _, halone⟩
  have hlater := System.run_separate switches
    (separate_sharedNetwork tables
      (interleaved fresh shared connections earlier).shared fresh .zeroed)
    (keeps_refl hkeeps.holds) hgoes hsafe
  have happend : interleaved fresh shared connections (earlier ++ later) =
      (interleaved fresh shared connections earlier).run switches
        (sharedNetwork fresh) later :=
    System.run_append switches _ earlier later
  rw [happend]
  exact hlater.left.memory

theorem isolated_of_cooperative (hholds : HoldsAll tables shared)
    {schedule : List ι} (h : CooperativeOn tables connections schedule) :
    Isolated fresh shared connections schedule := by
  have hsame (i : ι) : connectionAt fresh shared connections schedule i =
      connectionAt fresh shared connections (schedule.filter (· = i)) i := by
    have hfilter : CooperativeOn tables connections
        (schedule.filter (· = i)) :=
      fun j hj => h j (List.mem_of_mem_filter hj)
    have hcount : (schedule.filter (· = i)).count i = schedule.count i :=
      List.count_filter (by simp)
    rw [connectionAt, connectionAt,
      (interleaved_coroutines hholds fresh .zeroed h).right.right,
      (interleaved_coroutines hholds fresh .zeroed hfilter).right.right, hcount]
  constructor
  · intro i
    rw [hsame]
  · intro i
    rw [hsame]
  · exact (interleaved_coroutines hholds fresh .zeroed h).left.table
  · intro earlier later hsplit
    subst hsplit
    exact interleaved_memory hholds fresh h

omit [DecidableEq ι] in
theorem exists_turns_ended (table : List RpcFunc) (shared : Shared)
    (connections : ι -> Connection) (i : ι) :
    exists n, (Coroutine.turn switches (peerNetwork (served table)))^[n]
      ((server shared connections).coroutines i) =
        Coroutine.ended (servedAlone table (connections i)) :=
  Coroutine.exists_iterate_turn_ended switches (peerNetwork (served table)) _ _

theorem connectionAt_of_enough (hholds : HoldsAll tables shared)
    (fresh : Shared -> FreshMemory) (alone : FreshMemory) (i : ι) :
    exists n, forall schedule, CooperativeOn tables connections schedule ->
      n <= schedule.count i ->
        connectionAt fresh shared connections schedule i =
          (servedAlone (tables alone) (connections i)).2.2 := by
  rcases exists_turns_ended (tables alone) shared connections i with ⟨n, hn⟩
  refine ⟨n, fun schedule h hle => ?_⟩
  have hended := Coroutine.iterate_turn_of_le switches
    (peerNetwork (served (tables alone))) hn hle
  rw [connectionAt,
    (interleaved_coroutines hholds fresh alone h).right.right, hended]
  rfl

/--
In every run in which only cooperative connections take turns, they do not
influence each other, and each of them gets to the end of its own run, whatever
fresh memory holds in the one and in the other.
-/
theorem connections_isolated (hholds : HoldsAll tables shared)
    (fresh : Shared -> FreshMemory) (alone : FreshMemory) :
    (forall schedule, CooperativeOn tables connections schedule ->
      Isolated fresh shared connections schedule) ∧
    forall i, exists n, forall schedule,
      CooperativeOn tables connections schedule -> n <= schedule.count i ->
        connectionAt fresh shared connections schedule i =
          (servedAlone (tables alone) (connections i)).2.2 :=
  ⟨fun _ => isolated_of_cooperative hholds,
    connectionAt_of_enough hholds fresh alone⟩

end

theorem cooperative_of_requests {accepts : CString -> Prop}
    {requests : List CString} {events : List NetEvent}
    (hrequests : forall s, s ∈ requests -> s.strlen <= 65535 ∧ accepts s)
    (h : Delivers events (stream requests)) :
    Cooperative accepts events [] [] := by
  induction requests generalizing events with
  | nil =>
      apply Cooperative.silent
      right
      rw [h rpcHeaderLength]
      rfl
  | cons s rest ih =>
      rw [List.forall_mem_cons] at hrequests
      rcases hrequests with ⟨⟨hlength, hanswer⟩, hrest⟩
      have hreception := reception_of_readFrame h
        (readFrame_frame hlength (stream rest))
      rw [CString.ofBytes_bytes] at hreception
      rcases delivery_cases events with
        hsilent | ⟨header, mid, _, htorn | ⟨payload, rest', hdelivered⟩⟩
      · have hended := reception_of_silent hsilent true
        rw [hreception] at hended
        cases hended
      · rw [hreception] at htorn
        cases htorn
      · rw [reception_of_delivered hdelivered] at hreception
        rcases Prod.mk.inj hreception with ⟨hpayload, hleft⟩
        split at hpayload
        · rename_i hcrc
          have hs : CString.ofBytes payload = s := by
            simpa using hpayload
          apply Cooperative.answered (by simp [HasBuffer]) hdelivered hcrc
          · rw [hs]
            exact hanswer
          · simp [Stays]
          · apply ih hrest
            rw [hleft]
            exact delivers_pushBack (stream rest)
        · cases hpayload

def requesting (fd : Int) (request : CString) : Connection where
  fd := fd
  incoming := [.segment (stream [request])]
  mallocs := []
  sends := []
  hangups := []

theorem requesting_cooperative {accepts : CString -> Prop} {request : CString}
    (hlength : request.strlen <= 65535) (haccepted : accepts request)
    (fd : Int) :
    Cooperative accepts (requesting fd request).incoming
      (requesting fd request).mallocs (requesting fd request).hangups := by
  apply cooperative_of_requests ?_ (delivers_segment _)
  intro s hs
  rw [List.mem_singleton] at hs
  rw [hs]
  exact ⟨hlength, haccepted⟩

theorem echoAnswer_document [FreshMemory] :
    echoAnswer.document = (@echoAnswer .zeroed).document := by
  simp only [Answer.document, echoAnswer, Deployed.invocation]

theorem echoRequest_answers [FreshMemory] :
    Answers registeredTable echoRequest (print echoAnswer.document) where
  request_le := by decide +kernel
  reply_le := by
    rw [echoAnswer_document, Answer.document, print_responseDocument_strlen]
    decide +kernel
  result := rpcProcess_result_some_iff.mpr ⟨echoAnswer, rfl⟩

theorem settled_of_answers {tables : Tables} {text reply : CString}
    (h : forall fresh, Answers (tables fresh) text reply) :
    Settled tables text where
  answerable fresh := answerable_iff.mpr ⟨reply, (h fresh).result⟩
  same fresh fresh' := (h fresh).result.trans (h fresh').result.symm

theorem placeTable_bound (find : CString -> Option SharedHandler)
    (g g' : CString -> Option Handler) (sigs : List Signature)
    (memory : Memory) :
    placeTable find (sigs.map (Signature.bound g)) memory =
      placeTable find (sigs.map (Signature.bound g')) memory := by
  induction sigs generalizing memory with
  | nil => rfl
  | cons sig rest ih =>
      rw [List.map_cons, List.map_cons, placeTable, placeTable, ih]
      rfl

theorem loadedShared_bound (g g' : CString -> Option Handler)
    (sigs : List Signature) :
    loadedShared (sigs.map (Signature.bound g)).reverse =
      loadedShared (sigs.map (Signature.bound g')).reverse := by
  rw [loadedShared, loadedShared, <- List.map_reverse, <- List.map_reverse,
    placeTable_bound _ g g']

/-- The tables of a server that has loaded `register.json`. -/
def registeredTables : Tables :=
  fun fresh => @registeredTable fresh

theorem loadedShared_registeredTables (fresh fresh' : FreshMemory) :
    loadedShared (registeredTables fresh) =
      loadedShared (registeredTables fresh') :=
  loadedShared_bound _ _ registerJson

theorem registered_holds :
    HoldsAll registeredTables (loadedShared registeredTable) := by
  intro fresh
  have hsame := loadedShared_registeredTables .zeroed fresh
  have hshared : loadedShared (@registeredTable .zeroed) =
      loadedShared (@registeredTable fresh) := hsame
  rw [hshared]
  exact @loadedShared_holds fresh _
    (bound_of_loaded (@loaded_registeredGlobals fresh))

theorem addRequest_settled : Settled registeredTables addRequest := by
  apply settled_of_answers
  intro fresh
  have hanswers := @addRequest_answers fresh
  rw [addAnswer_document] at hanswers
  exact hanswers

theorem echoRequest_settled : Settled registeredTables echoRequest := by
  apply settled_of_answers
  intro fresh
  have hanswers := @echoRequest_answers fresh
  rw [echoAnswer_document] at hanswers
  exact hanswers

/-- Two clients, one that calls `add` and one that calls `echo`. -/
def callingConnections (second : Bool) : Connection :=
  if second then requesting 6 echoRequest else requesting 5 addRequest

@[reducible] def usedMemory (shared : Shared) : FreshMemory where
  byte _ := BitVec.ofNat 8 shared.memory.length
  surplus n := 24 - n

theorem callingConnections_cooperative (schedule : List Bool) :
    CooperativeOn registeredTables callingConnections schedule := by
  intro second _
  cases second with
  | false =>
      exact requesting_cooperative addRequest_strlen_le
        addRequest_settled 5
  | true =>
      exact requesting_cooperative echoRequest_answers.request_le
        echoRequest_settled 6

theorem calling_connections_isolated :
    (forall schedule : List Bool, Isolated usedMemory
      (loadedShared registeredTable) callingConnections schedule) ∧
    forall second, exists n, forall schedule : List Bool,
      n <= schedule.count second ->
        connectionAt usedMemory (loadedShared registeredTable)
            callingConnections schedule second =
          (servedAlone registeredTable (callingConnections second)).2.2 := by
  rcases @connections_isolated Bool _ registeredTables
    (loadedShared registeredTable) callingConnections registered_holds
    usedMemory .zeroed with ⟨hisolated, henough⟩
  constructor
  · intro schedule
    exact hisolated schedule (callingConnections_cooperative schedule)
  · intro second
    rcases henough second with ⟨n, hn⟩
    exact ⟨n, fun schedule =>
      hn schedule (callingConnections_cooperative schedule)⟩

/-!
## A fault ends all of them
-/

section

variable {ι : Type} [DecidableEq ι] {tables : Tables} {shared : Shared}
  {connections : ι -> Connection} {alone : FreshMemory}

theorem settles_of_same (tables : Tables) (alone : FreshMemory)
    (c : Coroutine SysCall Reply Fault (List Bool × World)) :
    System.Settles (peerNetwork (served (tables alone)))
      (SettledCall tables (fun _ => alone) alone) c := by
  intro m _
  cases m.1 with
  | process payload => exact fun _ => rfl
  | _ => trivial

theorem interleaved_replicate (hholds : HoldsAll tables shared)
    (alone : FreshMemory) (connections : ι -> Connection) (i : ι) (n : Nat) :
    let now := interleaved (fun _ => alone) shared connections
      (List.replicate n i)
    now.stopped = (now.coroutines i).aborted ∧
      now.coroutines i = (Coroutine.turn switches
        (peerNetwork (served (tables alone))))^[n]
          ((server shared connections).coroutines i) :=
  System.run_replicate switches (separate_sharedNetwork tables shared _ alone)
    i n (keeps_refl hholds) (settles_of_same tables alone _) rfl

theorem exists_replicate_ended (hholds : HoldsAll tables shared)
    (alone : FreshMemory) (connections : ι -> Connection) (i : ι) :
    exists n,
      let now := interleaved (fun _ => alone) shared connections
        (List.replicate n i)
      now.stopped = (now.coroutines i).aborted ∧
        now.coroutines i =
          Coroutine.ended (servedAlone (tables alone) (connections i)) := by
  rcases exists_turns_ended (tables alone) shared connections i with ⟨n, hn⟩
  rcases interleaved_replicate hholds alone connections i n with
    ⟨hstopped, hcoroutine⟩
  exact ⟨n, hstopped, hcoroutine.trans hn⟩

theorem exists_not_isolated (hholds : HoldsAll tables shared) {i j : ι}
    (hne : j ≠ i) {e : Fault} {s : List Bool × World}
    (hfault : servedAlone (tables alone) (connections i) = (.error e, s))
    (hwritten :
      (servedAlone (tables alone) (connections j)).2.2.written ≠ []) :
    exists schedule,
      ¬ Isolated (fun _ => alone) shared connections schedule := by
  rcases exists_replicate_ended hholds alone connections i with
    ⟨n, hstops, hended⟩
  rcases exists_replicate_ended hholds alone connections j with
    ⟨m, _, halone⟩
  have hstopped : (interleaved (fun _ => alone) shared connections
      (List.replicate n i)).stopped = true := by
    rw [hstops, hended, hfault]
    rfl
  refine ⟨List.replicate n i ++ List.replicate m j, fun hisolated => ?_⟩
  have hsplit : interleaved (fun _ => alone) shared connections
      (List.replicate n i ++ List.replicate m j) =
        (interleaved (fun _ => alone) shared connections
          (List.replicate n i)).run switches (sharedNetwork fun _ => alone)
            (List.replicate m j) :=
    System.run_append switches _ _ _
  -- nothing happens on `j` any more when its first turn comes
  have hnothing : connectionAt (fun _ => alone) shared connections
      (List.replicate n i ++ List.replicate m j) j =
        (connections j).world := by
    have hmem : j ∉ List.replicate n i :=
      fun hmem => hne (List.eq_of_mem_replicate hmem)
    rw [connectionAt, hsplit, System.run_of_stopped switches hstopped,
      interleaved, System.run_of_not_mem switches hmem]
    rfl
  have hfilter : (List.replicate n i ++ List.replicate m j).filter (· = j) =
      List.replicate m j := by
    simp [List.filter_append, Ne.symm hne]
  have hsame := hisolated.written j
  rw [hnothing, hfilter, connectionAt, halone] at hsame
  exact hwritten hsame.symm

theorem requesting_faults {table : List RpcFunc} {request : CString}
    (hlength : request.strlen <= 65535) (hanswer : ¬ Answerable table request)
    (fd : Int) :
    exists e s, servedAlone table (requesting fd request) = (.error e, s) := by
  have hreception : reception true (requesting fd request).incoming =
      (.payload request, []) :=
    reception_of_front_frame (w := (requesting fd request).world) hlength rfl
      (delivers_segment (stream [request]))
  rcases exists_error_of_payload (w := (requesting fd request).world)
      (List.mem_cons_self ..) hreception hanswer with ⟨e, w, hround⟩
  refine ⟨e, ([], w), (serveTo_nil _ _ _).trans ?_⟩
  rw [serve_error hround]

theorem requesting_writes {table : List RpcFunc} {request reply : CString}
    (h : Answers table request reply) (fd : Int) :
    (servedAlone table (requesting fd request)).2.2.written ≠ [] := by
  have hwritten : (serve table fd (requesting fd request).world).2.written =
      stream [reply] :=
    (serve_of_answers (.cons h .nil) (flowing_accepted fd _)).right
  have halone : servedAlone table (requesting fd request) = _ :=
    serveTo_nil table fd _
  rw [halone, hwritten]
  exact List.cons_ne_nil _ _

end

def Addressed (table : List RpcFunc) (request : CString) : Prop :=
  exists root name func, parse request = some root ∧
    member root "method" = some (.string name) ∧ newest table name = some func

theorem addressed_of_invocation {table : List RpcFunc} {request : CString}
    (i : Invocation table request) : Addressed table request := by
  rcases Option.bind_eq_some_iff.mp i.named with ⟨method, hmethod, hname⟩
  match method with
  | .string name =>
      obtain rfl : name = i.name := Option.some.inj hname
      exact ⟨i.root, i.name, i.func, i.parsed, hmethod, i.found⟩

/-- A call of `add` without its second number. -/
def partDocument : CJson :=
  requestDocument (some addSignature.method)
    (argMembers addSignature.params [.int 2]) 0

theorem parse_partDocument : parse (print partDocument) = some partDocument :=
  parse_request (by simp [Exact]) addSignature.method 0

theorem partRequest_strlen_le : (print partDocument).strlen <= 65535 := by
  decide +kernel

theorem partRequest_not_answerable :
    ¬ Answerable registeredTable (print partDocument) := by
  rw [answerable_iff, rpcProcess_of_json parse_partDocument]
  rintro ⟨reply, hreply⟩
  cases hreply

/-- The request of the first of the two connections lacks a parameter. -/
def partFirst (second : Bool) : Connection :=
  if second then requesting 6 addRequest else requesting 5 (print partDocument)

/--
Two clients send well-formed requests to registered methods, and the second
loses the reply that it gets alone.
-/
theorem missing_parameter_stops_the_other :
    Addressed registeredTable (print partDocument) ∧
    Addressed registeredTable addRequest ∧
    HoldsAll registeredTables (loadedShared registeredTable) ∧
    exists fresh schedule,
      ¬ Isolated fresh (loadedShared registeredTable) partFirst schedule := by
  have hfirst : partFirst false = requesting 5 (print partDocument) := rfl
  have hsecond : partFirst true = requesting 6 addRequest := rfl
  rcases requesting_faults partRequest_strlen_le partRequest_not_answerable 5
    with ⟨e, s, hfault⟩
  have hwrites := requesting_writes addRequest_answers 6
  have htables : registeredTables .zeroed = registeredTable := rfl
  rw [<- hfirst, <- htables] at hfault
  rw [<- hsecond, <- htables] at hwrites
  have hstops := exists_not_isolated registered_holds
    Bool.noConfusion hfault hwrites
  exact ⟨⟨_, _, _, parse_partDocument, rfl, rfl⟩,
    addressed_of_invocation addAnswer.toInvocation, registered_holds, _,
    hstops⟩

end Session
end Z2wRpc
